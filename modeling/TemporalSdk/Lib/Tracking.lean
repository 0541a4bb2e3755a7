import TemporalSdk.Lib.PartialMap

/-! Tables of things that are opened once and closed at most once. An entry may exist before
its thing is opened, so a table is compared with the sets of open and closed keys. -/
namespace Tracking

/-- How a value of type `V` says that its thing has been opened or closed. -/
structure Kind (V : Type*) where
  blank : V
  opened : V → Bool
  closed : V → Bool
  Good : V → Prop
  good_blank : Good blank
  opened_blank : opened blank = false
  opened_of_closed : ∀ v, Good v → closed v = true → opened v = true

variable {N K V : Type*} {kind : Kind V}

/-- The table holds an entry for every open key, and the entry knows whether it is closed. -/
structure Tracks (kind : Kind V) (table : PartialMap K V) (isOpen isClosed : K → Prop) :
    Prop where
  entry : ∀ k, isOpen k →
    ∃ v, table k = some v ∧ kind.opened v = true ∧ (kind.closed v = true ↔ isClosed k)
  origin : ∀ k v, table k = some v → kind.opened v = true → isOpen k
  good : ∀ k v, table k = some v → kind.Good v

namespace Tracks

variable {table : PartialMap K V} {isOpen isClosed isOpen' isClosed' : K → Prop}

theorem empty : Tracks kind (fun _ : K => none) (fun _ => False) isClosed where
  entry _ h := h.elim
  origin _ _ h := by cases h
  good _ _ h := by cases h

theorem congr (h : Tracks kind table isOpen isClosed) (ho : ∀ k, isOpen' k ↔ isOpen k)
    (hc : ∀ k, isClosed' k ↔ isClosed k) : Tracks kind table isOpen' isClosed' where
  entry k hk := by
    obtain ⟨v, hv, hvo, hvc⟩ := h.entry k ((ho k).mp hk)
    exact ⟨v, hv, hvo, hvc.trans (hc k).symm⟩
  origin k v hv hvo := (ho k).mpr (h.origin k v hv hvo)
  good := h.good

theorem good_getD (h : Tracks kind table isOpen isClosed) (k : K) :
    kind.Good ((table k).getD kind.blank) := by
  cases ht : table k with
  | none => exact kind.good_blank
  | some v => exact h.good k v ht

theorem not_closed_of_not_open (h : Tracks kind table isOpen isClosed) {k : K}
    (hk : ¬ isOpen k) : kind.closed ((table k).getD kind.blank) = false := by
  by_contra hne
  have hc : kind.closed ((table k).getD kind.blank) = true := by simpa using hne
  have ho := kind.opened_of_closed _ (h.good_getD k) hc
  cases ht : table k with
  | none => simp [ht, kind.opened_blank] at ho
  | some v => exact hk (h.origin k v ht (by simpa [ht] using ho))

variable [DecidableEq K]

/-- Open a key that was not open. -/
theorem opening (h : Tracks kind table isOpen isClosed) {k : K} {f : V → V} (hk : ¬ isOpen k)
    (hkc : ¬ isClosed k) (hfo : ∀ v, kind.opened (f v) = true)
    (hfc : ∀ v, kind.closed (f v) = kind.closed v) (hfg : ∀ v, kind.Good v → kind.Good (f v))
    (ho : ∀ j, isOpen' j ↔ isOpen j ∨ j = k) (hc : ∀ j, isClosed' j ↔ isClosed j) :
    Tracks kind (table.modify k kind.blank f) isOpen' isClosed' where
  entry j hj := by
    by_cases he : j = k
    · subst he
      refine ⟨_, PartialMap.modify_self .., hfo _, ?_⟩
      simpa [hfc, h.not_closed_of_not_open hk, hc] using hkc
    · have hjo : isOpen j := by simpa [he] using (ho j).mp hj
      obtain ⟨v, hv, hvo, hvc⟩ := h.entry j hjo
      exact ⟨v, by rwa [PartialMap.modify_of_ne _ he], hvo, hvc.trans (hc j).symm⟩
  origin j v hv hvo := by
    by_cases he : j = k
    · exact (ho j).mpr (.inr he)
    · rw [PartialMap.modify_of_ne _ he] at hv
      exact (ho j).mpr (.inl (h.origin j v hv hvo))
  good j v hv := by
    rw [PartialMap.modify_apply] at hv
    split at hv
    · cases hv; exact hfg _ (h.good_getD k)
    · exact h.good j v hv

/-- Close an open key. -/
theorem closing (h : Tracks kind table isOpen isClosed) {k : K} {f : V → V} (hk : isOpen k)
    (hfo : ∀ v, kind.opened (f v) = kind.opened v) (hfc : ∀ v, kind.closed (f v) = true)
    (hfg : ∀ v, kind.opened v = true → kind.Good v → kind.Good (f v))
    (ho : ∀ j, isOpen' j ↔ isOpen j) (hc : ∀ j, isClosed' j ↔ isClosed j ∨ j = k) :
    Tracks kind (table.modify k kind.blank f) isOpen' isClosed' where
  entry j hj := by
    obtain ⟨v, hv, hvo, hvc⟩ := h.entry j ((ho j).mp hj)
    by_cases he : j = k
    · subst he
      exact ⟨_, PartialMap.modify_self .., by simp [hfo, hv, hvo], by simp [hfc, hc]⟩
    · refine ⟨v, by rwa [PartialMap.modify_of_ne _ he], hvo, ?_⟩
      rw [hvc, hc]
      simp [he]
  origin j v hv hvo := by
    by_cases he : j = k
    · exact (ho j).mpr (he ▸ hk)
    · rw [PartialMap.modify_of_ne _ he] at hv
      exact (ho j).mpr (h.origin j v hv hvo)
  good j v hv := by
    rw [PartialMap.modify_apply] at hv
    split at hv
    · obtain ⟨w, hw, hwo, -⟩ := h.entry k hk
      cases hv
      exact hfg _ (by simp [hw, hwo]) (h.good_getD k)
    · exact h.good j v hv

/-- A change of an entry that neither opens nor closes it. -/
theorem modify (h : Tracks kind table isOpen isClosed) (k : K) {f : V → V}
    (hfo : ∀ v, kind.opened (f v) = kind.opened v) (hfc : ∀ v, kind.closed (f v) = kind.closed v)
    (hfg : ∀ v, kind.Good v → kind.Good (f v)) :
    Tracks kind (table.modify k kind.blank f) isOpen isClosed where
  entry j hj := by
    obtain ⟨v, hv, hvo, hvc⟩ := h.entry j hj
    by_cases he : j = k
    · subst he
      exact ⟨_, PartialMap.modify_self .., by simp [hfo, hv, hvo], by simp [hfc, hv, hvc]⟩
    · exact ⟨v, by rwa [PartialMap.modify_of_ne _ he], hvo, hvc⟩
  origin j v hv hvo := by
    by_cases he : j = k
    · subst he
      rw [PartialMap.modify_self] at hv
      cases hv
      rw [hfo] at hvo
      cases ht : table j with
      | none => simp [ht, kind.opened_blank] at hvo
      | some w => exact h.origin j w ht (by simpa [ht] using hvo)
    · rw [PartialMap.modify_of_ne _ he] at hv
      exact h.origin j v hv hvo
  good j v hv := by
    rw [PartialMap.modify_apply] at hv
    split at hv
    · cases hv; exact hfg _ (h.good_getD k)
    · exact h.good j v hv

end Tracks

/-- Keys that are reached through a map from names, each name standing for its own key. -/
structure TracksBy (kind : Kind V) (names : PartialMap N K) (table : PartialMap K V)
    (isOpen isClosed : N → Prop) : Prop where
  known : ∀ n, isOpen n ↔ ∃ k, names n = some k
  inj : ∀ n n' k, names n = some k → names n' = some k → n = n'
  tracks : Tracks kind table (fun k => ∃ n, names n = some k)
    (fun k => ∃ n, names n = some k ∧ isClosed n)

namespace TracksBy

variable {names : PartialMap N K} {table : PartialMap K V}
  {isOpen isClosed isOpen' isClosed' : N → Prop}

theorem empty : TracksBy kind (fun _ : N => (none : Option K)) (fun _ : K => none)
    (fun _ => False) isClosed where
  known n := by simp
  inj _ _ _ h := by cases h
  tracks := Tracks.empty.congr (by simp) (fun _ => Iff.rfl)

theorem congr (h : TracksBy kind names table isOpen isClosed) (ho : ∀ n, isOpen' n ↔ isOpen n)
    (hc : ∀ n, isClosed' n ↔ isClosed n) : TracksBy kind names table isOpen' isClosed' where
  known n := (ho n).trans (h.known n)
  inj := h.inj
  tracks := h.tracks.congr (fun _ => Iff.rfl) fun k => by simp [hc]

/-- The entry behind an open name. -/
theorem entry (h : TracksBy kind names table isOpen isClosed) {n : N} {k : K}
    (hn : names n = some k) :
    ∃ v, table k = some v ∧ kind.opened v = true ∧ (kind.closed v = true ↔ isClosed n) := by
  obtain ⟨v, hv, hvo, hvc⟩ := h.tracks.entry k ⟨n, hn⟩
  refine ⟨v, hv, hvo, hvc.trans ⟨?_, fun hc => ⟨n, hn, hc⟩⟩⟩
  rintro ⟨n', hn', hc⟩
  exact h.inj n' n k hn' hn ▸ hc

variable [DecidableEq N] [DecidableEq K]

theorem opening (h : TracksBy kind names table isOpen isClosed) {n : N} {k : K} {f : V → V}
    (hk : ∀ n', names n' ≠ some k) (hn : ¬ isOpen n) (hnc : ¬ isClosed n)
    (hfo : ∀ v, kind.opened (f v) = true) (hfc : ∀ v, kind.closed (f v) = kind.closed v)
    (hfg : ∀ v, kind.Good v → kind.Good (f v))
    (ho : ∀ j, isOpen' j ↔ isOpen j ∨ j = n) (hc : ∀ j, isClosed' j ↔ isClosed j) :
    TracksBy kind (names.insert n k) (table.modify k kind.blank f) isOpen' isClosed' := by
  have hnone : names n = none := by
    by_contra hne
    obtain ⟨k', hk'⟩ := Option.ne_none_iff_exists'.mp hne
    exact hn ((h.known n).mpr ⟨k', hk'⟩)
  have hnames : ∀ j i, names.insert n k j = some i ↔ names j = some i ∨ (j = n ∧ i = k) := by
    intro j i
    by_cases hj : j = n
    · subst hj
      simp [hnone, eq_comm]
    · simp [hj]
  refine ⟨fun j => ?_, fun j j' i hj hj' => ?_, ?_⟩
  · rw [ho, h.known]
    simp only [hnames]
    constructor
    · rintro (⟨i, hi⟩ | rfl)
      · exact ⟨i, .inl hi⟩
      · exact ⟨k, .inr ⟨rfl, rfl⟩⟩
    · rintro ⟨i, hi | ⟨hj, -⟩⟩
      · exact .inl ⟨i, hi⟩
      · exact .inr hj
  · rw [hnames] at hj hj'
    rcases hj with hj | ⟨rfl, rfl⟩ <;> rcases hj' with hj' | ⟨rfl, hi⟩
    · exact h.inj j j' i hj hj'
    · exact absurd (hi ▸ hj) (hk j)
    · exact absurd hj' (hk j')
    · rfl
  · have hclosed : ¬ ∃ n', names n' = some k ∧ isClosed n' :=
      not_exists.mpr fun n' hn' => hk n' hn'.1
    refine h.tracks.opening (not_exists.mpr hk) hclosed hfo hfc hfg (fun i => ?_) (fun i => ?_)
    · simp only [hnames]
      constructor
      · rintro ⟨j, hj | ⟨-, hi⟩⟩
        · exact .inl ⟨j, hj⟩
        · exact .inr hi
      · rintro (⟨j, hj⟩ | rfl)
        · exact ⟨j, .inl hj⟩
        · exact ⟨n, .inr ⟨rfl, rfl⟩⟩
    · simp only [hnames, hc]
      constructor
      · rintro ⟨j, hj | ⟨rfl, -⟩, hjc⟩
        · exact ⟨j, hj, hjc⟩
        · exact absurd hjc hnc
      · rintro ⟨j, hj, hjc⟩
        exact ⟨j, .inl hj, hjc⟩

omit [DecidableEq N] in
theorem closing (h : TracksBy kind names table isOpen isClosed) {n : N} {k : K} {f : V → V}
    (hn : names n = some k) (hfo : ∀ v, kind.opened (f v) = kind.opened v)
    (hfc : ∀ v, kind.closed (f v) = true)
    (hfg : ∀ v, kind.opened v = true → kind.Good v → kind.Good (f v))
    (ho : ∀ j, isOpen' j ↔ isOpen j) (hc : ∀ j, isClosed' j ↔ isClosed j ∨ j = n) :
    TracksBy kind names (table.modify k kind.blank f) isOpen' isClosed' where
  known j := (ho j).trans (h.known j)
  inj := h.inj
  tracks := by
    refine h.tracks.closing ⟨n, hn⟩ hfo hfc hfg (fun _ => Iff.rfl) fun i => ?_
    simp only [hc]
    constructor
    · rintro ⟨j, hj, hjc | rfl⟩
      · exact .inl ⟨j, hj, hjc⟩
      · exact .inr (Option.some.inj (hj.symm.trans hn))
    · rintro (⟨j, hj, hjc⟩ | rfl)
      · exact ⟨j, hj, .inl hjc⟩
      · exact ⟨n, hn, .inr rfl⟩

omit [DecidableEq N] in
theorem modify (h : TracksBy kind names table isOpen isClosed) (k : K) {f : V → V}
    (hfo : ∀ v, kind.opened (f v) = kind.opened v) (hfc : ∀ v, kind.closed (f v) = kind.closed v)
    (hfg : ∀ v, kind.Good v → kind.Good (f v)) :
    TracksBy kind names (table.modify k kind.blank f) isOpen isClosed :=
  ⟨h.known, h.inj, h.tracks.modify k hfo hfc hfg⟩

end TracksBy
end Tracking
