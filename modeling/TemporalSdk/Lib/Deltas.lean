import TemporalSdk.Lib.Monitor

/-! A growing counter that several threads report as increments: each reads the counter, takes the
difference to the value reported last, and adds the difference to a sum. -/
namespace Deltas
open Monitor

/-- What a thread still has to do for the counter. -/
inductive Share where
  | out
  /-- The counter is still to be read. -/
  | due
  | sampled (n : ℕ)
  /-- The difference is still to be added. Only a positive one is. -/
  | owing (d : ℤ)
  deriving DecidableEq, Repr

def Share.owed : Share → ℕ
  | .owing d => d.toNat
  | _ => 0

variable {T : Type*} [Fintype T] [DecidableEq T] {counter last sum : ℕ} {share : T → Share} {t : T}

/-- The sum and what is still owed make up the last value, no value is ahead of the counter, and a
value behind it will be made good by some thread. -/
structure Tallied (counter last sum : ℕ) (share : T → Share) : Prop where
  sum_add : sum + total Share.owed share = last
  last_le : last ≤ counter
  sampled_le : ∀ t n, share t = .sampled n → n ≤ counter
  fresh : last = counter ∨ ∃ t, share t = .due ∨ share t = .sampled counter

namespace Tallied

omit [DecidableEq T] in
theorem start : Tallied 0 0 0 fun _ : T => .out where
  sum_add := by simp [total, Share.owed]
  last_le := le_rfl
  sampled_le _ _ h := by cases h
  fresh := .inl rfl

omit [Fintype T] in
theorem sampled_update {c : ℕ} {x : Share} (h : ∀ u n, share u = .sampled n → n ≤ c)
    (hx : ∀ n, x = .sampled n → n ≤ c) (u : T) (n : ℕ)
    (hu : Function.update share t x u = .sampled n) : n ≤ c := by
  by_cases hut : u = t
  · subst hut
    rw [Function.update_self] at hu
    exact hx n hu
  · rw [Function.update_of_ne hut] at hu
    exact h u n hu

/-- A thread that owes nothing has something to do. -/
theorem become_due (h : Tallied counter last sum share) (ht : (share t).owed = 0) :
    Tallied counter last sum (Function.update share t .due) where
  sum_add := by rw [total_update_of_eq ht.symm, h.sum_add]
  last_le := h.last_le
  sampled_le := sampled_update h.sampled_le nofun
  fresh := .inr ⟨t, .inl (Function.update_self _ _ _)⟩

/-- A thread goes on with other things. -/
theorem stay (h : Tallied counter last sum share) {x : Share} (ht : share t = x) :
    Tallied counter last sum (Function.update share t x) := by
  rw [← ht, Function.update_eq_self]
  exact h

/-- The counter grows, which the thread will report. -/
theorem count (h : Tallied counter last sum share) (ht : (share t).owed = 0) :
    Tallied (counter + 1) last sum (Function.update share t .due) where
  sum_add := (h.become_due ht).sum_add
  last_le := h.last_le.trans (Nat.le_succ _)
  sampled_le := sampled_update (fun u n hu => (h.sampled_le u n hu).trans (Nat.le_succ _)) nofun
  fresh := .inr ⟨t, .inl (Function.update_self _ _ _)⟩

theorem sample (h : Tallied counter last sum share) (ht : share t = .due) :
    Tallied counter last sum (Function.update share t (.sampled counter)) where
  sum_add := by
    have hsame : (Share.sampled counter).owed = (share t).owed := by rw [ht]; rfl
    rw [total_update_of_eq hsame, h.sum_add]
  last_le := h.last_le
  sampled_le := sampled_update h.sampled_le fun n hn => by cases hn; exact le_rfl
  fresh := .inr ⟨t, .inr (Function.update_self _ _ _)⟩

/-- The difference is taken with a value that is not behind the last one. -/
theorem settle (h : Tallied counter last sum share) {n : ℕ} (ht : share t = .sampled n)
    (hn : last ≤ n) : Tallied counter n sum (Function.update share t (.owing (n - last))) where
  sum_add := by
    have htotal := total_update Share.owed share t (.owing (n - last))
    have hold := h.sum_add
    rw [ht] at htotal
    simp only [Share.owed] at htotal
    omega
  last_le := h.sampled_le t n ht
  sampled_le := sampled_update h.sampled_le nofun
  fresh := by
    by_cases hc : n = counter
    · exact .inl hc
    · -- The value is behind the counter, so another thread must make it good.
      have hle := h.sampled_le t n ht
      rcases h.fresh with hlast | ⟨u, hu⟩
      · omega
      · refine .inr ⟨u, ?_⟩
        have hut : u ≠ t := by
          rintro rfl
          rw [ht] at hu
          rcases hu with hu | hu <;> cases hu
          exact hc rfl
        rwa [Function.update_of_ne hut]

theorem add (h : Tallied counter last sum share) {d : ℤ} (ht : share t = .owing d) :
    Tallied counter last (sum + d.toNat) (Function.update share t .out) where
  sum_add := by
    have htotal := total_update Share.owed share t .out
    have hold := h.sum_add
    rw [ht] at htotal
    simp only [Share.owed] at htotal
    omega
  last_le := h.last_le
  sampled_le := sampled_update h.sampled_le nofun
  fresh := by
    rcases h.fresh with hlast | ⟨u, hu⟩
    · exact .inl hlast
    · refine .inr ⟨u, ?_⟩
      have hut : u ≠ t := by
        rintro rfl
        rw [ht] at hu
        rcases hu with hu | hu <;> cases hu
      rwa [Function.update_of_ne hut]

omit [DecidableEq T] in
/-- The sum never overtakes the counter. -/
theorem sum_le (h : Tallied counter last sum share) : sum ≤ counter := by
  have := h.sum_add
  have := h.last_le
  omega

omit [DecidableEq T] in
/-- When no thread has anything left to do, the sum is the counter. -/
theorem sum_eq (h : Tallied counter last sum share) (hout : ∀ t, share t = .out) :
    sum = counter := by
  have hsum := h.sum_add
  have hzero : total Share.owed share = 0 := by simp [total, hout, Share.owed]
  rcases h.fresh with hlast | ⟨t, ht⟩
  · omega
  · rw [hout t] at ht
    rcases ht with ht | ht <;> cases ht

end Tallied
end Deltas
