import TemporalSdk.Frame

/-! Invariants of a replay from scratch: what everything `Run` is made of keeps, `Run` keeps. -/
namespace TemporalSdk
namespace Runner

variable {σ : Type}

/-- `I` is kept by a step of the body, by an operation of a handler that is called before the body
has ended, by an event of the timeline, and by each way in which a resume or a handler fails. -/
structure RunInvariant (I : Runner σ → Prop) : Prop where
  step : ∀ r r', r.step = some r' → I r → I r'
  exec : ∀ r r' op resp, r.done = false → r.exec op = some (r', resp) → I r → I r'
  applied : ∀ r ev, I r → I (r.applyEventToState ev)
  deadlocked : ∀ r, I r → I { r with deadlocked := true }
  hung : ∀ r, I r → I { r with hung := true }
  escaped : ∀ r, I r → I { r with escaped := true }

namespace RunInvariant

variable {I : Runner σ → Prop} {r r' : Runner σ}

theorem resumeCoroutine (hI : RunInvariant I) (fuel : Nat) (h : I r) :
    I (r.resumeCoroutine fuel) := by
  unfold Runner.resumeCoroutine
  split
  · next r' hrun => exact Parking.runFor_preserves hI.step hrun h
  · exact hI.deadlocked r h

theorem runHandler (hI : RunInvariant I) (hd : r.done = false) (h : I r) {handler : Program σ}
    {fuel : Nat} {answers : List (Resp σ)} {o : Outcome}
    (hrun : Runner.runHandler handler fuel r answers = some (r', o)) : I r' := by
  induction fuel generalizing r answers with
  | zero => cases hrun
  | succ fuel ih =>
    unfold Runner.runHandler at hrun
    split at hrun
    · cases hrun
      exact h
    · split at hrun
      · next q resp hx =>
        have hdone : q.done = false := (r.exec_frame hx).done.trans hd
        exact ih hdone (hI.exec r q _ resp hd hx h) hrun
      · cases hrun

theorem reapplyUpdate (hI : RunInvariant I) (hd : r.done = false) (h : I r) (fuel : Nat)
    (name : String) (args : Payloads) : I (r.reapplyUpdate fuel name args) := by
  unfold Runner.reapplyUpdate
  split
  · exact h
  · split
    · exact hI.hung r h
    · next r' o hrun =>
      have hr' := hI.runHandler hd h hrun
      split
      · exact hI.escaped r' hr'
      · exact hr'

/-- A step of the timeline does nothing once the body has ended. -/
theorem reapplyStep (hI : RunInvariant I) (fuel : Nat) (h : I r) (s : ReplayStep) :
    I (Runner.reapplyStep fuel r s) := by
  unfold Runner.reapplyStep
  split
  · exact h
  · next hhalted =>
    have hd : r.done = false := by
      rw [← Bool.not_eq_true]
      intro hdone
      simp [halted, hdone] at hhalted
    cases s with
    | update name args =>
      have hbefore := hI.reapplyUpdate hd h fuel name args
      dsimp only
      split
      · exact hbefore
      · exact hI.resumeCoroutine fuel hbefore
    | event ev =>
      have hbefore := hI.applied r ev h
      dsimp only
      split
      · exact hbefore
      · exact hI.resumeCoroutine fuel hbefore

theorem timeline (hI : RunInvariant I) (fuel : Nat) (steps : List ReplayStep) (h : I r) :
    I (steps.foldl (Runner.reapplyStep fuel) r) := by
  induction steps generalizing r with
  | nil => exact h
  | cons s steps ih => exact ih (hI.reapplyStep fuel h s)

/-- What holds when the coroutine is created holds at the end of `Run`. -/
theorem run (hI : RunInvariant I) (fuel : Nat)
    (h : I { r with commands := [], producedCommands := [], started := true }) :
    I (r.run fuel) :=
  hI.timeline fuel _ (hI.resumeCoroutine fuel h)

end RunInvariant
end Runner
end TemporalSdk
