import Mathlib.Data.List.Basic

/-! A value that is set at some of a sequence of calls and kept at the others, told by the log of
its changes. -/
namespace ChangeLog

variable {α : Type*}

/-- The value in force at call `i`. -/
def valueAt (l : List (Nat × α)) (i : Nat) : Option α :=
  (l.filter (·.1 ≤ i)).getLast?.map Prod.snd

theorem valueAt_of_le {l : List (Nat × α)} {i : Nat} (h : ∀ p ∈ l, p.1 ≤ i) :
    valueAt l i = l.getLast?.map Prod.snd := by
  rw [valueAt, List.filter_eq_self.mpr fun p hp => decide_eq_true (h p hp)]

theorem valueAt_append_of_lt {l l' : List (Nat × α)} {i : Nat} (h : ∀ p ∈ l', i < p.1) :
    valueAt (l ++ l') i = valueAt l i := by
  have hnone : l'.filter (fun p => p.1 ≤ i) = [] :=
    List.filter_eq_nil_iff.mpr fun p hp => by simpa using h p hp
  rw [valueAt, List.filter_append, hnone, List.append_nil, valueAt]

theorem valueAt_concat_self {l : List (Nat × α)} {n : Nat} (h : ∀ p ∈ l, p.1 ≤ n) (x : α) :
    valueAt (l ++ [(n, x)]) n = some x := by
  rw [valueAt_of_le, List.getLast?_concat, Option.map_some]
  intro p hp
  rcases List.mem_append.mp hp with hp | hp
  · exact h p hp
  · exact Nat.le_of_eq (congrArg Prod.fst (List.mem_singleton.mp hp))

/-- The log of `n` calls: changes come in the order of the calls, and the first call is one. -/
structure Covers (l : List (Nat × α)) (n : Nat) : Prop where
  increasing : l.Pairwise fun p p' => p.1 < p'.1
  below : ∀ p ∈ l, p.1 < n
  starts : 0 < n → ∃ x, l.head? = some (0, x)

theorem Covers.nil : Covers ([] : List (Nat × α)) 0 :=
  ⟨.nil, nofun, fun h => absurd h (Nat.lt_irrefl 0)⟩

theorem Covers.keep {l : List (Nat × α)} {n : Nat} (h : Covers l n) (hl : l ≠ []) :
    Covers l (n + 1) where
  increasing := h.increasing
  below p hp := Nat.lt_succ_of_lt (h.below p hp)
  starts _ := by
    cases n with
    | succ n => exact h.starts n.succ_pos
    | zero =>
      cases l with
      | nil => exact absurd rfl hl
      | cons p l => exact absurd (h.below p List.mem_cons_self) p.1.not_lt_zero

theorem Covers.change {l : List (Nat × α)} {n : Nat} (h : Covers l n) (x : α) :
    Covers (l ++ [(n, x)]) (n + 1) where
  increasing := List.pairwise_append.mpr
    ⟨h.increasing, List.pairwise_singleton _ _, fun p hp q hq => by
      rw [List.mem_singleton.mp hq]
      exact h.below p hp⟩
  below p hp := by
    rcases List.mem_append.mp hp with hp | hp
    · exact Nat.lt_succ_of_lt (h.below p hp)
    · rw [List.mem_singleton.mp hp]
      exact Nat.lt_succ_self n
  starts _ := by
    cases n with
    | succ n =>
      obtain ⟨y, hy⟩ := h.starts n.succ_pos
      exact ⟨y, by rw [List.head?_append, hy]; rfl⟩
    | zero =>
      cases l with
      | nil => exact ⟨x, rfl⟩
      | cons p l => exact absurd (h.below p List.mem_cons_self) p.1.not_lt_zero

/-- A reader of a log: it has read the changes before call `m`, and the others are ahead. -/
structure Reads (l pre post : List (Nat × α)) (m : Nat) : Prop where
  split : l = pre ++ post
  behind : ∀ p ∈ pre, p.1 < m
  ahead : ∀ p ∈ post, m ≤ p.1

theorem Reads.start (l : List (Nat × α)) : Reads l [] l 0 :=
  ⟨rfl, nofun, fun p _ => p.1.zero_le⟩

/-- The next call is the next change. -/
theorem Reads.change {l pre rest : List (Nat × α)} {m : Nat} {x : α}
    (h : Reads l pre ((m, x) :: rest) m) (hl : l.Pairwise fun p p' => p.1 < p'.1) :
    Reads l (pre ++ [(m, x)]) rest (m + 1) ∧ valueAt l m = some x := by
  have hrest : ∀ p ∈ rest, m < p.1 := by
    rw [h.split] at hl
    exact (List.pairwise_cons.mp (List.pairwise_append.mp hl).2.1).1
  have hsplit : l = (pre ++ [(m, x)]) ++ rest := by rw [h.split, List.append_assoc]; rfl
  refine ⟨⟨hsplit, fun p hp => ?_, fun p hp => hrest p hp⟩, ?_⟩
  · rcases List.mem_append.mp hp with hp | hp
    · exact Nat.lt_succ_of_lt (h.behind p hp)
    · rw [List.mem_singleton.mp hp]
      exact Nat.lt_succ_self m
  · rw [hsplit, valueAt_append_of_lt hrest,
      valueAt_concat_self fun p hp => Nat.le_of_lt (h.behind p hp)]

/-- The next call is before the next change. -/
theorem Reads.keep {l pre post : List (Nat × α)} {m : Nat} (h : Reads l pre post m)
    (hpost : ∀ p ∈ post, p.1 ≠ m) :
    Reads l pre post (m + 1) ∧ valueAt l m = pre.getLast?.map Prod.snd := by
  have hahead : ∀ p ∈ post, m < p.1 := fun p hp =>
    Nat.lt_of_le_of_ne (h.ahead p hp) (hpost p hp).symm
  refine ⟨⟨h.split, fun p hp => Nat.lt_succ_of_lt (h.behind p hp), hahead⟩, ?_⟩
  rw [h.split, valueAt_append_of_lt hahead, valueAt_of_le fun p hp => Nat.le_of_lt (h.behind p hp)]

/-- Before the first change there is no call. -/
theorem Reads.pre_ne_nil {l pre post : List (Nat × α)} {m n : Nat} (h : Reads l pre post m)
    (hl : Covers l n) (hn : 0 < n) (hpost : ∀ p ∈ post, p.1 ≠ m) : pre ≠ [] := by
  rintro rfl
  obtain ⟨x, hx⟩ := hl.starts hn
  have hmem : (0, x) ∈ post := by
    rw [h.split, List.nil_append] at hx
    exact List.mem_of_head? hx
  have hle : m ≤ 0 := h.ahead _ hmem
  exact hpost _ hmem (Nat.le_zero.mp hle).symm

/-- At the end of the log everything has been read. -/
theorem Reads.finished {l pre post : List (Nat × α)} {n : Nat} (h : Reads l pre post n)
    (hl : Covers l n) : pre = l := by
  cases post with
  | nil => rw [h.split, List.append_nil]
  | cons p post =>
    have hlt := hl.below p (by rw [h.split]; simp)
    have hle := h.ahead p List.mem_cons_self
    omega

end ChangeLog
