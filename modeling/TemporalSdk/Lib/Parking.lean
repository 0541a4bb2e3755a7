import Mathlib.Computability.StateTransition

/-! Machines that run until they park. A parking machine is a transition function in the
sense of `StateTransition`; this file adds a fuelled run and the argument that a machine
which only ever learns more answers repeats every run it has already made. -/
namespace Parking
open StateTransition

variable {C A : Type*}

/-- Run until the machine parks, for at most `n` steps; `none` when it is still running. -/
def runFor (step : C → Option C) : ℕ → C → Option C
  | 0, c => if (step c).isNone then some c else none
  | n + 1, c =>
    match step c with
    | none => some c
    | some d => runFor step n d

theorem runFor_mem_eval {step : C → Option C} {n : ℕ} {c d : C}
    (h : runFor step n c = some d) : d ∈ eval step c := by
  induction n generalizing c with
  | zero =>
    simp only [runFor, Option.isNone_iff_eq_none, Option.ite_none_right_eq_some,
      Option.some.injEq] at h
    obtain ⟨hc, rfl⟩ := h
    exact mem_eval.mpr ⟨.refl, hc⟩
  | succ n ih =>
    simp only [runFor] at h
    cases hs : step c with
    | none =>
      simp only [hs, Option.some.injEq] at h
      exact mem_eval.mpr ⟨h ▸ .refl, h ▸ hs⟩
    | some e =>
      simp only [hs] at h
      rw [reaches_eval (Relation.ReflTransGen.single hs)]
      exact ih h

theorem exists_runFor {step : C → Option C} {c d : C} (h : d ∈ eval step c) :
    ∃ n, runFor step n c = some d := by
  obtain ⟨hr, hd⟩ := mem_eval.mp h
  induction hr using Relation.ReflTransGen.head_induction_on with
  | refl => exact ⟨0, by simp [runFor, hd]⟩
  | head hs hr ih =>
    obtain ⟨n, hn⟩ := ih (mem_eval.mpr ⟨hr, hd⟩)
    refine ⟨n + 1, ?_⟩
    simp only [runFor, show step _ = some _ from hs]
    exact hn

theorem runFor_of_parked {step : C → Option C} {c : C} (h : step c = none) (n : ℕ) :
    runFor step n c = some c := by
  cases n <;> simp [runFor, h]

/-- What every step keeps, a run keeps. -/
theorem runFor_preserves {step : C → Option C} {P : C → Prop}
    (hstep : ∀ c d, step c = some d → P c → P d) {n : ℕ} {c d : C}
    (h : runFor step n c = some d) (hc : P c) : P d := by
  induction n generalizing c with
  | zero =>
    simp only [runFor, Option.ite_none_right_eq_some, Option.some.injEq] at h
    exact h.2 ▸ hc
  | succ n ih =>
    simp only [runFor] at h
    cases hs : step c with
    | none =>
      simp only [hs, Option.some.injEq] at h
      exact h ▸ hc
    | some e =>
      simp only [hs] at h
      exact ih h (hstep c e hs hc)

/-- A run that parks does so with any more fuel. -/
theorem runFor_mono {step : C → Option C} {n m : ℕ} {c d : C} (h : runFor step n c = some d)
    (hnm : n ≤ m) : runFor step m c = some d := by
  induction n generalizing m c with
  | zero =>
    simp only [runFor, Option.isNone_iff_eq_none, Option.ite_none_right_eq_some,
      Option.some.injEq] at h
    rw [runFor_of_parked h.1, h.2]
  | succ n ih =>
    obtain ⟨m, rfl⟩ := Nat.exists_eq_add_of_lt hnm
    simp only [runFor] at h ⊢
    cases hs : step c with
    | none => simpa [hs] using h
    | some e =>
      simp only [hs] at h ⊢
      exact ih h (Nat.le_add_right n m)

/-- `g` answers everything `f` answers, in the same way. -/
def Extends (f g : C → Option C) : Prop := ∀ a b, f a = some b → g a = some b

theorem Extends.reaches {f g : C → Option C} (h : Extends f g) {a b : C}
    (hr : Reaches f a b) : Reaches g a b :=
  Relation.ReflTransGen.mono (fun c d hcd => h c d hcd) a b hr

/-- The one-for-one form of `StateTransition.Respects`. -/
def Lockstep (f : C → Option C) (g : A → Option A) (R : C → A → Prop) : Prop :=
  ∀ ⦃c a⦄, R c a → match f c with
    | some d => ∃ b, g a = some b ∧ R d b
    | none => g a = none

theorem Lockstep.of_rel {f : C → Option C} {g : A → Option A} {R : C → A → Prop}
    (h : ∀ c a, R c a → Option.Rel R (f c) (g a)) : Lockstep f g R := by
  intro c a hR
  have hrel := h c a hR
  generalize f c = d at hrel ⊢
  generalize g a = b at hrel ⊢
  cases hrel with
  | none => rfl
  | some hda => exact ⟨_, rfl, hda⟩

theorem Lockstep.rel {f : C → Option C} {g : A → Option A} {R : C → A → Prop}
    (h : Lockstep f g R) {c : C} {a : A} (hR : R c a) : Option.Rel R (f c) (g a) := by
  have hs := h hR
  cases hf : f c with
  | none =>
    simp only [hf] at hs
    rw [hs]
    exact .none
  | some d =>
    simp only [hf] at hs
    obtain ⟨b, hb, hd⟩ := hs
    rw [hb]
    exact .some hd

/-- Every state of the abstract machine is matched by one the concrete machine comes by. -/
theorem Lockstep.exists_reaches {f : C → Option C} {g : A → Option A} {R : C → A → Prop}
    (h : Lockstep f g R) {c : C} {a b : A} (hR : R c a) (hr : Reaches g a b) :
    ∃ d, Reaches f c d ∧ R d b := by
  induction hr with
  | refl => exact ⟨c, .refl, hR⟩
  | @tail x y _ hxy ih =>
    obtain ⟨d, hd, hRd⟩ := ih
    have hrel := h.rel hRd
    rw [show g x = some y from hxy] at hrel
    generalize hf : f d = z at hrel
    cases hrel with
    | some hRe => exact ⟨_, hd.tail hf, hRe⟩

/-- Machines in lockstep park together, and in related states. -/
theorem Lockstep.runFor {f : C → Option C} {g : A → Option A} {R : C → A → Prop}
    (h : Lockstep f g R) (n : ℕ) {c : C} {a : A} (hR : R c a) :
    Option.Rel R (runFor f n c) (runFor g n a) := by
  induction n generalizing c a with
  | zero =>
    have hrel := h.rel hR
    simp only [Parking.runFor]
    generalize f c = x at hrel ⊢
    generalize g a = y at hrel ⊢
    cases hrel with
    | none => exact .some hR
    | some _ => exact .none
  | succ n ih =>
    have hrel := h.rel hR
    simp only [Parking.runFor]
    generalize f c = x at hrel ⊢
    generalize g a = y at hrel ⊢
    cases hrel with
    | none => exact .some hR
    | some hd => exact ih hd

end Parking
