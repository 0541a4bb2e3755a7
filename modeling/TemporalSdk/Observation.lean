import TemporalSdk.Refinement

/-! What an observation looks for. An answer that found something holds for good; one that missed
something holds as long as no event delivers it. -/
namespace TemporalSdk

/-- What can be looked for without waiting. -/
inductive Look where
  | future (addr : Nat)
  | signal (name : String)
  | cancelRequest
  deriving DecidableEq, Repr

def SelectCase.look : SelectCase → Look
  | .future addr => .future addr
  | .receive name => .signal name

variable {σ : Type}

def Runner.found (r : Runner σ) : Look → Bool
  | .future addr => (r.futures addr).ready
  | .signal name => r.hasSignal name
  | .cancelRequest => r.scan.cancelRequested

def Progress.found (b : Progress σ) (S : Prescan) : Look → Bool
  | .future addr => (b.future S addr).ready
  | .signal name => (b.nextSignal S name).isSome
  | .cancelRequest => S.cancelRequested

/-- What an observation looks for in vain. A `Select` looks at its cases in order, and no further
than the first that is ready. -/
def Op.missed (found : Look → Bool) : Op σ → List Look
  | .isReady addr => [Look.future addr].filter (!found ·)
  | .receiveAsync name | .hasPending name => [Look.signal name].filter (!found ·)
  | .select cases _ => (cases.map SelectCase.look).takeWhile (!found ·)
  | .isCancelled => [Look.cancelRequest].filter (!found ·)
  | _ => []

theorem Op.missed_of_not_observation {op : Op σ} (h : op.isObservation = false)
    (found : Look → Bool) : op.missed found = [] := by
  cases op <;> first
    | rfl
    | exact Bool.noConfusion h

namespace Progress

variable {s : Setting σ} {S S' : Prescan} {b b' : Progress σ}

theorem caseReady_eq (b : Progress σ) (S : Prescan) :
    b.caseReady S = fun c => b.found S c.look := by
  funext c
  cases c <;> rfl

/-- What has been found is not lost. -/
theorem found_later (h : S.Later S') (b : Progress σ) {l : Look} (hl : b.found S l = true) :
    b.found S' l = true := by
  cases l with
  | future addr =>
    change (b.future S' addr).ready = true
    rw [b.future_later h hl]
    exact hl
  | signal name =>
    obtain ⟨p, hp⟩ := Option.isSome_iff_exists.mp hl
    exact Option.isSome_iff_exists.mpr ⟨p, b.nextSignal_later h hp⟩
  | cancelRequest => exact h.cancelRequested hl

/-- A single look, found or missed, has the same answer. -/
theorem found_eq (h : S.Later S') (b : Progress σ) {l : Look}
    (hm : ∀ x ∈ [l].filter (!b.found S ·), b.found S' x = false) :
    b.found S' l = b.found S l := by
  cases hl : b.found S l with
  | true => exact b.found_later h hl
  | false => exact hm l (by simp [hl])

/-- A `Select` takes the same case. -/
theorem findIdx?_eq (h : S.Later S') (b : Progress σ) {cases : List SelectCase}
    (hm : ∀ x ∈ (cases.map SelectCase.look).takeWhile (!b.found S ·), b.found S' x = false) :
    cases.findIdx? (b.caseReady S') = cases.findIdx? (b.caseReady S) := by
  rw [caseReady_eq, caseReady_eq]
  induction cases with
  | nil => rfl
  | cons c cases ih =>
    rw [List.findIdx?_cons, List.findIdx?_cons]
    cases hc : b.found S c.look with
    | true => simp only [b.found_later h hc, if_true]
    | false =>
      have htake : ((c :: cases).map SelectCase.look).takeWhile (!b.found S ·) =
          c.look :: (cases.map SelectCase.look).takeWhile (!b.found S ·) := by
        rw [List.map_cons, List.takeWhile_cons_of_pos (by simp [hc])]
      rw [htake] at hm
      rw [hm c.look List.mem_cons_self, ih fun x hx => hm x (List.mem_cons_of_mem _ hx)]

/-- An operation is answered alike when nothing it has missed has come since. -/
theorem exec_stable (h : S.Later S') {op : Op σ}
    (hm : ∀ l ∈ op.missed (b.found S), b.found S' l = false) {x : Progress σ × Resp σ}
    (hx : b.exec s S op = some x) : b.exec s S' op = some x := by
  cases op with
  | isReady addr =>
    have hf : (b.future S' addr).ready = (b.future S addr).ready := b.found_eq h hm
    simp only [exec, hf] at hx ⊢
    exact hx
  | receiveAsync name =>
    have hf : (b.nextSignal S' name).isSome = (b.nextSignal S name).isSome := b.found_eq h hm
    simp only [exec] at hx ⊢
    cases hn : b.nextSignal S name with
    | none =>
      rw [hn, Option.isSome_none, Option.isSome_eq_false_iff, Option.isNone_iff_eq_none] at hf
      rw [hf]
      rw [hn] at hx
      exact hx
    | some p =>
      rw [b.nextSignal_later h hn]
      rw [hn] at hx
      exact hx
  | hasPending name =>
    have hf : (b.nextSignal S' name).isSome = (b.nextSignal S name).isSome := b.found_eq h hm
    simp only [exec, hf] at hx ⊢
    exact hx
  | select cases hasDefault =>
    simp only [exec, b.findIdx?_eq h hm] at hx ⊢
    exact hx
  | isCancelled =>
    have hf : S'.cancelRequested = S.cancelRequested := b.found_eq h hm
    simp only [exec, hf] at hx ⊢
    exact hx
  | _ => exact exec_later h rfl hx

theorem step_stable (h : S.Later S')
    (hm : ∀ l ∈ (s.program b.trace).missed (b.found S), b.found S' l = false)
    (hb : b.step s S = some b') : b.step s S' = some b' := by
  unfold step at hb ⊢
  split at hb
  · cases hb
  · next hn =>
    rw [if_neg hn]
    split at hb
    · exact hb
    · obtain ⟨x, hx, rfl⟩ := Option.map_eq_some_iff.mp hb
      rw [exec_stable h hm hx]
      rfl

end Progress

theorem Carries.found {s : Setting σ} {S : Prescan} {base sent : Nat} {r : Runner σ}
    {b : Progress σ} (h : Carries s S base sent r b) : r.found = b.found S := by
  funext l
  cases l with
  | future addr => exact congrArg FutureState.ready (h.future addr)
  | signal name => exact h.hasSignal name
  | cancelRequest => exact h.cancelRequested

end TemporalSdk
