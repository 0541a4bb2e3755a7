import Mathlib.Data.List.Induction
import Mathlib.Logic.Function.Basic

/-! Finite maps read as partial functions, with the update that inserts a default first and the map
that a list of writes leaves. -/

/-- A map seen through its lookups. -/
abbrev PartialMap (K V : Type*) := K → Option V

namespace PartialMap

variable {K V : Type*} [DecidableEq K]

def insert (m : PartialMap K V) (k : K) (v : V) : PartialMap K V :=
  Function.update m k (some v)

/-- Change the value at `k`, starting from `d` when there is none. -/
def modify (m : PartialMap K V) (k : K) (d : V) (f : V → V) : PartialMap K V :=
  m.insert k (f ((m k).getD d))

@[simp] theorem insert_self (m : PartialMap K V) (k : K) (v : V) : m.insert k v k = some v := by
  simp [insert]

@[simp] theorem insert_of_ne (m : PartialMap K V) {k j : K} (h : j ≠ k) (v : V) :
    m.insert k v j = m j := by
  simp [insert, h]

@[simp] theorem modify_self (m : PartialMap K V) (k : K) (d : V) (f : V → V) :
    m.modify k d f k = some (f ((m k).getD d)) := by
  simp [modify]

@[simp] theorem modify_of_ne (m : PartialMap K V) {k j : K} (h : j ≠ k) (d : V) (f : V → V) :
    m.modify k d f j = m j := by
  simp [modify, h]

theorem insert_apply (m : PartialMap K V) (k j : K) (v : V) :
    m.insert k v j = if j = k then some v else m j := by
  split <;> simp_all

/-- What holds of every value holds of every value after an insertion of another. -/
theorem forall_insert {m : PartialMap K V} {P : V → Prop} (hm : ∀ j w, m j = some w → P w) (k : K)
    {v : V} (hv : P v) : ∀ j w, m.insert k v j = some w → P w := by
  intro j w hw
  rw [insert_apply] at hw
  split at hw
  · exact Option.some.inj hw ▸ hv
  · exact hm j w hw

theorem modify_apply (m : PartialMap K V) (k j : K) (d : V) (f : V → V) :
    m.modify k d f j = if j = k then some (f ((m k).getD d)) else m j := by
  split <;> simp_all

theorem getD_modify (m : PartialMap K V) (k j : K) (d : V) (f : V → V) :
    (m.modify k d f j).getD d = if j = k then f ((m k).getD d) else (m j).getD d := by
  rw [modify_apply]
  split <;> rfl

section Writes

/-- An empty map after these writes. -/
def ofWrites (writes : List (K × V)) : PartialMap K V :=
  writes.foldl (fun m e => m.insert e.1 e.2) fun _ => none

/-- The value that was written for `k` last. -/
def lastWrite (writes : List (K × V)) (k : K) : Option V :=
  (writes.reverse.find? fun e => e.1 = k).map Prod.snd

theorem lastWrite_concat (writes : List (K × V)) (e : K × V) (k : K) :
    lastWrite (writes ++ [e]) k = if e.1 = k then some e.2 else lastWrite writes k := by
  unfold lastWrite
  rw [List.reverse_append, List.reverse_singleton, List.singleton_append, List.find?_cons]
  by_cases h : e.1 = k <;> simp [h]

theorem ofWrites_apply (writes : List (K × V)) (k : K) :
    ofWrites writes k = lastWrite writes k := by
  induction writes using List.reverseRecOn with
  | nil => rfl
  | append_singleton writes e ih =>
    have hstep : ofWrites (writes ++ [e]) = (ofWrites writes).insert e.1 e.2 := by
      simp [ofWrites]
    rw [hstep, insert_apply, lastWrite_concat, ih]
    simp only [eq_comm]

theorem lastWrite_isSome {writes : List (K × V)} {k : K} :
    (lastWrite writes k).isSome = true ↔ ∃ v, (k, v) ∈ writes := by
  unfold lastWrite
  rw [Option.isSome_map, List.find?_isSome]
  constructor
  · rintro ⟨e, he, hk⟩
    obtain rfl : e.1 = k := by simpa using hk
    exact ⟨e.2, List.mem_reverse.mp he⟩
  · rintro ⟨v, hv⟩
    exact ⟨(k, v), List.mem_reverse.mpr hv, by simp⟩

/-- A change of keys that confuses none with `k` is not noticed at `k`. -/
theorem lastWrite_map {K' : Type*} [DecidableEq K'] (f : K → K') {writes : List (K × V)} {k : K}
    (h : ∀ e ∈ writes, f e.1 = f k → e.1 = k) :
    lastWrite (writes.map fun e => (f e.1, e.2)) (f k) = lastWrite writes k := by
  induction writes using List.reverseRecOn with
  | nil => rfl
  | append_singleton writes e ih =>
    have hrest := ih fun e' he' => h e' (List.mem_append_left _ he')
    rw [List.map_append, List.map_singleton, lastWrite_concat, lastWrite_concat, hrest]
    have hiff : f e.1 = f k ↔ e.1 = k :=
      ⟨h e (List.mem_append_right _ (List.mem_singleton_self e)), congrArg f⟩
    simp only [hiff]

end Writes

end PartialMap
