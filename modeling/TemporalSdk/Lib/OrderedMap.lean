import Mathlib.Data.List.Basic

/-!
An ordered map kept as the list of its entries, with lookup, assignment in key order and
erasure. None of the laws below asks that the list be sorted.
-/
namespace OrderedMap

variable {K V : Type*} [DecidableEq K] [LT K] [DecidableLT K]

def find? (m : List (K × V)) (k : K) : Option V :=
  (m.find? fun e => e.1 = k).map Prod.snd

/-- Assign to a key: its entry is changed in place or put before the first larger key. -/
def assign (m : List (K × V)) (k : K) (v : V) : List (K × V) :=
  match m with
  | [] => [(k, v)]
  | e :: rest =>
    if e.1 = k then (k, v) :: rest
    else if k < e.1 then (k, v) :: e :: rest
    else e :: assign rest k v

def erase (m : List (K × V)) (k : K) : List (K × V) :=
  m.filter fun e => e.1 ≠ k

omit [LT K] [DecidableLT K] in
theorem find?_eq_none {m : List (K × V)} {k : K} :
    find? m k = none ↔ ∀ e ∈ m, e.1 ≠ k := by
  simp [find?]

omit [LT K] [DecidableLT K] in
theorem find?_cons_self {e : K × V} {k : K} (h : e.1 = k) (m : List (K × V)) :
    find? (e :: m) k = some e.2 := by
  simp [find?, h]

omit [LT K] [DecidableLT K] in
theorem find?_cons_of_ne {e : K × V} {k : K} (h : e.1 ≠ k) (m : List (K × V)) :
    find? (e :: m) k = find? m k := by
  simp [find?, h]

theorem find?_assign_self (m : List (K × V)) (k : K) (v : V) :
    find? (assign m k v) k = some v := by
  induction m with
  | nil => exact find?_cons_self rfl []
  | cons e rest ih =>
    unfold assign
    split_ifs with heq hlt
    · exact find?_cons_self rfl _
    · exact find?_cons_self rfl _
    · rw [find?_cons_of_ne heq, ih]

theorem find?_assign_of_ne (m : List (K × V)) {k j : K} (h : j ≠ k) (v : V) :
    find? (assign m k v) j = find? m j := by
  have hkj : k ≠ j := h.symm
  induction m with
  | nil => exact find?_cons_of_ne hkj []
  | cons e rest ih =>
    unfold assign
    split_ifs with heq hlt
    · rw [find?_cons_of_ne hkj, find?_cons_of_ne (by rw [heq]; exact hkj)]
    · rw [find?_cons_of_ne hkj]
    · by_cases hej : e.1 = j
      · rw [find?_cons_self hej, find?_cons_self hej]
      · rw [find?_cons_of_ne hej, find?_cons_of_ne hej, ih]

theorem erase_assign (m : List (K × V)) (k : K) (v : V) : erase (assign m k v) k = erase m k := by
  induction m with
  | nil => simp [assign, erase]
  | cons e rest ih =>
    unfold assign
    split_ifs with heq hlt
    · simp [erase, heq]
    · simp [erase]
    · unfold erase at ih ⊢
      rw [List.filter_cons, List.filter_cons, ih]

omit [LT K] [DecidableLT K] in
theorem erase_comm (m : List (K × V)) (j k : K) : erase (erase m j) k = erase (erase m k) j := by
  unfold erase
  rw [List.filter_filter, List.filter_filter]
  congr 1
  funext e
  exact Bool.and_comm _ _

omit [LT K] [DecidableLT K] in
theorem erase_of_find?_none {m : List (K × V)} {k : K} (h : find? m k = none) :
    erase m k = m := by
  apply List.filter_eq_self.mpr
  intro e he
  exact decide_eq_true (find?_eq_none.mp h e he)

omit [LT K] [DecidableLT K] in
theorem find?_erase_self (m : List (K × V)) (k : K) : find? (erase m k) k = none := by
  rw [find?_eq_none]
  intro e he
  simpa using (List.mem_filter.mp he).2

omit [LT K] [DecidableLT K] in
theorem find?_erase_of_ne (m : List (K × V)) {j k : K} (h : j ≠ k) :
    find? (erase m k) j = find? m j := by
  induction m with
  | nil => rfl
  | cons e rest ih =>
    by_cases heq : e.1 = k
    · rw [erase, List.filter_cons_of_neg (by simp [heq]),
        find?_cons_of_ne (by rw [heq]; exact h.symm)]
      exact ih
    · rw [erase, List.filter_cons_of_pos (by simp [heq])]
      by_cases hej : e.1 = j
      · rw [find?_cons_self hej, find?_cons_self hej]
      · rw [find?_cons_of_ne hej, find?_cons_of_ne hej]
        exact ih

end OrderedMap
