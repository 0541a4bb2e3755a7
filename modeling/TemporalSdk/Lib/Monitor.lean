import Mathlib.Algebra.Order.BigOperators.Group.Finset
import Mathlib.Data.Fintype.BigOperators
import Mathlib.Logic.Relation

/-! Threads that share a mutex and a condition variable. A thread is known by the place it has
reached in its program; a step moves one thread, except that a notification moves every
sleeper. -/
namespace Monitor

/-- Where a thread is in a call that locks, may wait for a predicate, acts under the lock and may
notify after it. -/
inductive Stage where
  /-- About to lock, also after waking. -/
  | lock
  /-- Holding the mutex, about to test the predicate. -/
  | test
  /-- Holding the mutex, the predicate was false. -/
  | park
  /-- In the wait set, the mutex released. -/
  | asleep
  /-- Holding the mutex, the predicate was true. -/
  | act
  /-- The mutex released, the notification still to be sent. -/
  | notify
  deriving DecidableEq, Repr

/-- The stages between locking and unlocking. -/
def Stage.holds : Stage → Bool
  | .test | .park | .act => true
  | .lock | .asleep | .notify => false

/-- A sleeper that has been notified must lock again. -/
def Stage.awake : Stage → Stage
  | .asleep => .lock
  | s => s

/-- Asleep, or about to be. -/
def Stage.dozes : Stage → Bool
  | .park | .asleep => true
  | _ => false

/-- The stages of a wait. -/
def Stage.waits : Stage → Bool
  | .lock | .test | .park | .asleep => true
  | .act | .notify => false

@[simp] theorem Stage.waits_awake (s : Stage) : s.awake.waits = s.waits := by cases s <;> rfl

/-- Whoever does not hold the mutex is up after a notification. -/
theorem Stage.dozes_awake {s : Stage} (h : s.holds = false) : s.awake.dozes = false := by
  cases s <;> first | rfl | cases h

@[simp] theorem Stage.holds_awake (s : Stage) : s.awake.holds = s.holds := by cases s <;> rfl

variable {T L : Type*}

section Exclusive

variable {holds : L → Bool} {place : T → L}

/-- At most one thread holds the mutex. -/
def Exclusive (holds : L → Bool) (place : T → L) : Prop :=
  ∀ t u, holds (place t) = true → holds (place u) = true → t = u

/-- Nobody holds the mutex. -/
def Free (holds : L → Bool) (place : T → L) : Prop := ∀ t, holds (place t) = false

instance [Fintype T] (holds : L → Bool) (place : T → L) : Decidable (Free holds place) :=
  inferInstanceAs (Decidable (∀ t, holds (place t) = false))

theorem Free.exclusive (h : Free holds place) : Exclusive holds place := by
  intro t u ht
  rw [h t] at ht
  cases ht

variable [DecidableEq T]

/-- The mutex is taken while it is free. -/
theorem Exclusive.lock (h : Free holds place) (t : T) (l : L) :
    Exclusive holds (Function.update place t l) := by
  have hne : ∀ u, holds (Function.update place t l u) = true → u = t := by
    intro u hu
    by_contra hut
    rw [Function.update_of_ne hut, h u] at hu
    cases hu
  intro u v hu hv
  rw [hne u hu, hne v hv]

/-- A thread moves without taking the mutex. -/
theorem Exclusive.move (h : Exclusive holds place) {t : T} {l : L}
    (hl : holds l = true → holds (place t) = true) :
    Exclusive holds (Function.update place t l) := by
  have hold : ∀ u, holds (Function.update place t l u) = true → holds (place u) = true := by
    intro u hu
    by_cases hut : u = t
    · subst hut
      rw [Function.update_self] at hu
      exact hl hu
    · rwa [Function.update_of_ne hut] at hu
  intro u v hu hv
  exact h u v (hold u hu) (hold v hv)

omit [DecidableEq T] in
/-- Waking threads neither gives nor takes the mutex. -/
theorem Exclusive.map (h : Exclusive holds place) {f : L → L}
    (hf : ∀ l, holds (f l) = holds l) : Exclusive holds fun t => f (place t) := by
  intro t u ht hu
  exact h t u (by rwa [hf] at ht) (by rwa [hf] at hu)

end Exclusive

section Total

variable [Fintype T] [DecidableEq T]

/-- What the threads have of something, taken together. -/
def total (f : L → ℕ) (place : T → L) : ℕ := ∑ t, f (place t)

/-- One thread moves: its share is exchanged. -/
theorem total_update (f : L → ℕ) (place : T → L) (t : T) (l : L) :
    total f (Function.update place t l) + f (place t) = total f place + f l := by
  unfold total
  rw [← Finset.add_sum_erase _ _ (Finset.mem_univ t),
    ← Finset.add_sum_erase _ (fun u => f (place u)) (Finset.mem_univ t), Function.update_self]
  have hrest : ∑ u ∈ Finset.univ.erase t, f (Function.update place t l u) =
      ∑ u ∈ Finset.univ.erase t, f (place u) := by
    refine Finset.sum_congr rfl fun u hu => ?_
    rw [Function.update_of_ne (Finset.ne_of_mem_erase hu)]
  rw [hrest]
  omega

theorem total_update_of_eq {f : L → ℕ} {place : T → L} {t : T} {l : L}
    (h : f l = f (place t)) : total f (Function.update place t l) = total f place := by
  have := total_update f place t l
  omega

omit [DecidableEq T] in
theorem total_map {f : L → ℕ} {g : L → L} (h : ∀ l, f (g l) = f l) (place : T → L) :
    total f (fun t => g (place t)) = total f place := by
  simp only [total, h]

omit [DecidableEq T] in
theorem total_congr {f : L → ℕ} {place place' : T → L} (h : ∀ t, f (place' t) = f (place t)) :
    total f place' = total f place :=
  Finset.sum_congr rfl fun t _ => h t

omit [DecidableEq T] in
theorem le_total (f : L → ℕ) (place : T → L) (t : T) : f (place t) ≤ total f place :=
  Finset.single_le_sum (f := fun u => f (place u)) (fun _ _ => Nat.zero_le _) (Finset.mem_univ t)

omit [DecidableEq T] in
theorem total_eq_zero {f : L → ℕ} {place : T → L} : total f place = 0 ↔ ∀ t, f (place t) = 0 := by
  simp [total]

omit [DecidableEq T] in
/-- A total of one is the share of one thread. -/
theorem existsUnique_of_total_eq_one {f : L → ℕ} {place : T → L} (h : total f place = 1) :
    ∃! t, f (place t) ≠ 0 := by
  classical
  have hsome : ∃ t, f (place t) ≠ 0 := by
    by_contra hnone
    rw [total_eq_zero.mpr fun t => not_not.mp (not_exists.mp hnone t)] at h
    omega
  obtain ⟨t, ht⟩ := hsome
  refine ⟨t, ht, fun u hu => ?_⟩
  by_contra hut
  have htwo : f (place u) + f (place t) ≤ total f place := by
    calc f (place u) + f (place t) = ∑ v ∈ {u, t}, f (place v) := by rw [Finset.sum_pair hut]
      _ ≤ total f place := Finset.sum_le_sum_of_subset (Finset.subset_univ _)
  omega

end Total

/-- What holds at first and is kept by every step holds of every reachable state. -/
theorem invariant_of_step {S : Type*} {step : S → S → Prop} {I : S → Prop} {s s' : S}
    (hkeep : ∀ a b, I a → step a b → I b) (h : I s)
    (hr : Relation.ReflTransGen step s s') : I s' := by
  induction hr with
  | refl => exact h
  | tail _ hs ih => exact hkeep _ _ ih hs

/-- Runs of a given number of steps. -/
inductive Takes {S : Type*} (step : S → S → Prop) : ℕ → S → S → Prop
  | zero (s : S) : Takes step 0 s s
  | succ {n : ℕ} {s t u : S} : Takes step n s t → step t u → Takes step (n + 1) s u

/-- A measure that every step from a state with the invariant lowers bounds the runs. -/
theorem Takes.add_le {S : Type*} {step : S → S → Prop} {I : S → Prop} {m : S → ℕ} {n : ℕ} {s t : S}
    (hkeep : ∀ a b, I a → step a b → I b) (hdrop : ∀ a b, I a → step a b → m b < m a)
    (h : Takes step n s t) (hs : I s) : I t ∧ n + m t ≤ m s := by
  induction h with
  | zero => exact ⟨hs, by omega⟩
  | succ _ hstep ih =>
    obtain ⟨hi, hle⟩ := ih hs
    have := hdrop _ _ hi hstep
    exact ⟨hkeep _ _ hi hstep, by omega⟩

end Monitor
