import TemporalSdk.Completion

/-!
The calls `Handle` makes into registered callbacks: update handlers that a replay applies again,
direct and embedded queries, validators and handlers of update messages. Each call is the runner
it is made on and the code that is run.
-/
namespace TemporalSdk

variable {σ : Type}

namespace Runner

/-- The call of a registered callback. -/
def callOf (r : Runner σ) (handler : Option (Handler σ)) (args : Payloads) :
    List (Runner σ × Program σ) :=
  (handler.map fun p => (r, p args)).toList

/-- The validator, and the handler if the validator returned. -/
def messageCalls (fuel : Nat) (r : Runner σ) (msg : TaskMessage) : List (Runner σ × Program σ) :=
  match msg.body with
  | none => []
  | some u => r.callOf (r.updateValidators u.name) u.args ++
    match r.validateUpdate fuel u with
    | (r₁, .returned _) => r₁.callOf (r₁.updateHandlers u.name) u.args
    | _ => []

/-- The loop over the messages ends with the first that ends the call. -/
def messagesCalls (fuel : Nat) (identity : String) (r : Runner σ) :
    List TaskMessage → List (Runner σ × Program σ)
  | [] => []
  | msg :: msgs => r.messageCalls fuel msg ++
    match r.processMessage fuel identity msg with
    | (r₁, _, none) => messagesCalls fuel identity r₁ msgs
    | _ => []

/-- A finished workflow is not asked. -/
def queryCalls (r : Runner σ) (q : WorkflowQuery) : List (Runner σ × Program σ) :=
  if r.isDone then [] else r.callOf (r.queryHandlers q.queryType) q.queryArgs

def queriesCalls (fuel : Nat) (r : Runner σ) :
    List (String × WorkflowQuery) → List (Runner σ × Program σ)
  | [] => []
  | (_, q) :: qs => r.queryCalls q ++
    match r.answerQuery fuel q with
    | (r₁, .ok _) => queriesCalls fuel r₁ qs
    | _ => []

/-- `ReapplyHistoricalUpdates` stops at a body that is done. -/
def stepCalls (r : Runner σ) (s : ReplayStep) : List (Runner σ × Program σ) :=
  if r.halted then []
  else match s with
    | .update name args => r.callOf (r.updateHandlers name) args
    | .event _ => []

def timelineCalls (fuel : Nat) (r : Runner σ) : List ReplayStep → List (Runner σ × Program σ)
  | [] => []
  | s :: steps => r.stepCalls s ++ timelineCalls fuel (reapplyStep fuel r s) steps

/-- The calls of a replay from scratch. -/
def replayCalls (fuel : Nat) (r : Runner σ) : List (Runner σ × Program σ) :=
  timelineCalls fuel (r.firstResume fuel) (r.firstResume fuel).scan.postUpdateTimeline

/-- The callback throws something that `catch (const std::exception&)` does not see. -/
def Escapes (fuel : Nat) (c : Runner σ × Program σ) : Prop :=
  ∃ r' o, runHandler c.2 fuel c.1 [] = some (r', o) ∧ o.escapes = true

theorem mem_callOf {r : Runner σ} {handler : Option (Handler σ)} {args : Payloads}
    {c : Runner σ × Program σ} :
    c ∈ r.callOf handler args ↔ ∃ p, handler = some p ∧ c = (r, p args) := by
  cases handler with
  | none => simp [callOf]
  | some p => simp [callOf]

theorem handlerExit_escaped {o : Outcome} : handlerExit o = .escaped ↔ o.escapes = true := by
  cases o <;> simp [handlerExit, Outcome.escapes]

theorem invoke_escaped_iff {fuel : Nat} {r : Runner σ} {p : Program σ} :
    (r.invoke fuel p).2 = .escaped ↔ Escapes fuel (r, p) := by
  unfold invoke Escapes
  cases hrun : runHandler p fuel r [] with
  | none => simp
  | some x =>
    obtain ⟨r', o⟩ := x
    simp [handlerExit_escaped]

section Escaped

variable {fuel : Nat} {r : Runner σ}

theorem validateUpdate_escaped_iff {u : UpdateRequest} :
    (r.validateUpdate fuel u).2 = .escaped ↔
      ∃ c ∈ r.callOf (r.updateValidators u.name) u.args, Escapes fuel c := by
  unfold validateUpdate callOf
  cases r.updateValidators u.name with
  | none => simp
  | some v => simp [invoke_escaped_iff]

theorem runUpdate_escaped_iff {u : UpdateRequest} :
    (r.runUpdate fuel u).2 = .escaped ↔
      ∃ c ∈ r.callOf (r.updateHandlers u.name) u.args, Escapes fuel c := by
  unfold runUpdate callOf
  cases r.updateHandlers u.name with
  | none => simp
  | some v => simp [invoke_escaped_iff]

theorem runQuery_escaped_iff {q : WorkflowQuery} :
    (r.runQuery fuel q).2 = .escaped ↔
      ∃ c ∈ r.callOf (r.queryHandlers q.queryType) q.queryArgs, Escapes fuel c := by
  unfold runQuery callOf
  cases r.queryHandlers q.queryType with
  | none => simp
  | some v => simp [invoke_escaped_iff]

theorem processMessage_escaped_iff {identity : String} {msg : TaskMessage} :
    (r.processMessage fuel identity msg).2.2 = some .escaped ↔
      ∃ c ∈ r.messageCalls fuel msg, Escapes fuel c := by
  unfold processMessage messageCalls
  cases msg.body with
  | none => simp
  | some u =>
    have hvalid : (r.validateUpdate fuel u).2 = .escaped ↔
        ∃ c ∈ r.callOf (r.updateValidators u.name) u.args, Escapes fuel c :=
      validateUpdate_escaped_iff
    simp only [List.mem_append, or_and_right, exists_or, ← hvalid]
    generalize r.validateUpdate fuel u = x
    obtain ⟨r₁, exit⟩ := x
    cases exit with
    | hung => simp
    | escaped => simp
    | threw what => simp
    | returned result =>
      dsimp only
      rw [← runUpdate_escaped_iff]
      generalize r₁.runUpdate fuel u = y
      obtain ⟨r₂, exit'⟩ := y
      cases exit' <;> simp

theorem processMessages_escaped_iff {identity : String} {msgs : List TaskMessage} :
    (r.processMessages fuel identity msgs).2.2 = some .escaped ↔
      ∃ c ∈ r.messagesCalls fuel identity msgs, Escapes fuel c := by
  induction msgs generalizing r with
  | nil => simp [processMessages, messagesCalls]
  | cons msg msgs ih =>
    have hone : (r.processMessage fuel identity msg).2.2 = some .escaped ↔
        ∃ c ∈ r.messageCalls fuel msg, Escapes fuel c := processMessage_escaped_iff
    simp only [messagesCalls, List.mem_append, or_and_right, exists_or, ← hone, processMessages]
    generalize r.processMessage fuel identity msg = x
    obtain ⟨r₁, replies, exit⟩ := x
    cases exit with
    | none => simp [ih]
    | some exit => simp

theorem answerQuery_escaped_iff {q : WorkflowQuery} :
    (r.answerQuery fuel q).2 = .error .escaped ↔ ∃ c ∈ r.queryCalls q, Escapes fuel c := by
  unfold answerQuery queryCalls
  split_ifs with hdone
  · simp
  · rw [← runQuery_escaped_iff]
    generalize r.runQuery fuel q = x
    obtain ⟨r₁, exit⟩ := x
    cases exit <;> simp

theorem answerQueries_escaped_iff {qs : List (String × WorkflowQuery)} :
    (r.answerQueries fuel qs).2 = .error .escaped ↔
      ∃ c ∈ r.queriesCalls fuel qs, Escapes fuel c := by
  induction qs generalizing r with
  | nil => simp [answerQueries, queriesCalls]
  | cons x qs ih =>
    obtain ⟨id, q⟩ := x
    have hone : (r.answerQuery fuel q).2 = .error .escaped ↔
        ∃ c ∈ r.queryCalls q, Escapes fuel c := answerQuery_escaped_iff
    simp only [queriesCalls, List.mem_append, or_and_right, exists_or, ← hone, answerQueries]
    generalize r.answerQuery fuel q = x
    obtain ⟨r₁, e⟩ := x
    cases e with
    | error exit => simp
    | ok result =>
      have hrest := ih (r := r₁)
      dsimp only at hrest ⊢
      rw [← hrest]
      generalize r₁.answerQueries fuel qs = y
      obtain ⟨r₂, e'⟩ := y
      cases e' <;> simp

/-- An exception got through a replayed handler; nothing is run after it. -/
def Broken (r : Runner σ) : Prop :=
  r.escaped = true ∧ r.hung = false ∧ r.deadlocked = false

theorem halted_of_escaped (h : r.escaped = true) : r.halted = true := by
  simp [halted, h]

theorem not_halted_iff : r.halted = false ↔
    r.started = true ∧ r.done = false ∧ r.deadlocked = false ∧ r.hung = false ∧
      r.escaped = false := by
  simp [halted, and_assoc]

theorem reapplyStep_of_halted (h : r.halted = true) (s : ReplayStep) :
    reapplyStep fuel r s = r := by
  rw [reapplyStep_eq, if_pos h]

theorem stepCalls_of_halted (h : r.halted = true) (s : ReplayStep) : r.stepCalls s = [] := by
  unfold stepCalls
  rw [if_pos h]

theorem timeline_of_halted (h : r.halted = true) (steps : List ReplayStep) :
    steps.foldl (reapplyStep fuel) r = r ∧ r.timelineCalls fuel steps = [] := by
  induction steps with
  | nil => exact ⟨rfl, rfl⟩
  | cons s steps ih =>
    rw [List.foldl_cons, timelineCalls, reapplyStep_of_halted h, stepCalls_of_halted h]
    exact ih

/-- One step of the timeline lets an exception through exactly if its handler throws one. -/
theorem reapplyStep_broken (fuel : Nat) (h : r.escaped = false) (s : ReplayStep) :
    ((∃ c ∈ r.stepCalls s, Escapes fuel c) → (reapplyStep fuel r s).Broken) ∧
      ((∀ c ∈ r.stepCalls s, ¬ Escapes fuel c) → (reapplyStep fuel r s).escaped = false) := by
  by_cases hr : r.halted = true
  · rw [reapplyStep_of_halted hr, stepCalls_of_halted hr]
    exact ⟨by simp, fun _ => h⟩
  · obtain ⟨-, -, hdead, hhung, -⟩ := not_halted_iff.mp (Bool.eq_false_iff.mpr hr)
    have hresume (hb : (r.beforeResume fuel s).escaped = false) :
        (reapplyStep fuel r s).escaped = false := by
      rw [reapplyStep_eq, if_neg hr]
      split_ifs
      · exact hb
      · exact (((r.beforeResume fuel s).resumeCoroutine_flags fuel).2).trans hb
    unfold stepCalls
    rw [if_neg hr]
    cases s with
    | event ev =>
      obtain ⟨scan, futures, he⟩ := r.applyEventToState_touches ev
      refine ⟨by simp, fun _ => hresume ?_⟩
      rw [beforeResume, he]
      exact h
    | update name args =>
      dsimp only
      cases hu : r.updateHandlers name with
      | none =>
        refine ⟨by simp [callOf], fun _ => hresume ?_⟩
        rw [beforeResume, reapplyUpdate, hu]
        exact h
      | some p =>
        have hcalls : r.callOf (some p) args = [(r, p args)] := rfl
        rw [hcalls]
        simp only [List.mem_singleton, exists_eq_left, forall_eq]
        cases hrun : runHandler (p args) fuel r [] with
        | none =>
          refine ⟨?_, fun _ => hresume ?_⟩
          · rintro ⟨r', o, hx, -⟩
            simp [hrun] at hx
          · simp only [beforeResume, reapplyUpdate, hu, hrun]
            exact h
        | some x =>
          obtain ⟨r', o⟩ := x
          have hf := runHandler_frame hrun
          cases ho : o.escapes with
          | true =>
            have hbefore : r.beforeResume fuel (.update name args) =
                { r' with escaped := true } := by
              simp only [beforeResume, reapplyUpdate, hu, hrun, ho, if_true]
            refine ⟨fun _ => ?_, fun hno => absurd ⟨r', o, hrun, ho⟩ hno⟩
            rw [reapplyStep_eq, if_neg hr, hbefore, if_pos (halted_of_escaped rfl)]
            exact ⟨rfl, hf.hung.trans hhung, hf.deadlocked.trans hdead⟩
          | false =>
            refine ⟨?_, fun _ => hresume ?_⟩
            · rintro ⟨r'', o', hx, ho'⟩
              rw [hrun, Option.some.injEq, Prod.mk.injEq] at hx
              rw [← hx.2, ho] at ho'
              cases ho'
            · simp only [beforeResume, reapplyUpdate, hu, hrun, ho, Bool.false_eq_true, if_false]
              exact hf.escaped.trans h

theorem timeline_broken (h : r.escaped = false) (steps : List ReplayStep) :
    ((∃ c ∈ r.timelineCalls fuel steps, Escapes fuel c) →
      (steps.foldl (reapplyStep fuel) r).Broken) ∧
    ((∀ c ∈ r.timelineCalls fuel steps, ¬ Escapes fuel c) →
      (steps.foldl (reapplyStep fuel) r).escaped = false) := by
  induction steps generalizing r with
  | nil => exact ⟨by simp [timelineCalls], fun _ => h⟩
  | cons s steps ih =>
    obtain ⟨hthrows, hkeeps⟩ := reapplyStep_broken fuel h s
    rw [List.foldl_cons, timelineCalls]
    by_cases hstep : ∃ c ∈ r.stepCalls s, Escapes fuel c
    · have hbroken := hthrows hstep
      rw [(timeline_of_halted (halted_of_escaped hbroken.1) steps).1]
      refine ⟨fun _ => hbroken, fun hno => ?_⟩
      obtain ⟨c, hc, hescapes⟩ := hstep
      exact absurd hescapes (hno c (List.mem_append_left _ hc))
    · have hfine : ∀ c ∈ r.stepCalls s, ¬ Escapes fuel c := fun c hc he => hstep ⟨c, hc, he⟩
      obtain ⟨hlater, hrest⟩ := ih (hkeeps hfine)
      refine ⟨?_, fun hno => hrest fun c hc => hno c (List.mem_append_right _ hc)⟩
      rintro ⟨c, hc, hescapes⟩
      rcases List.mem_append.mp hc with hc | hc
      · exact absurd hescapes (hfine c hc)
      · exact hlater ⟨c, hc, hescapes⟩

/-- A replay lets an exception through exactly if one of its handlers throws one. -/
theorem run_broken (fuel : Nat) (h : r.escaped = false) :
    ((∃ c ∈ r.replayCalls fuel, Escapes fuel c) → (r.run fuel).Broken) ∧
      ((∀ c ∈ r.replayCalls fuel, ¬ Escapes fuel c) → (r.run fuel).escaped = false) := by
  have hfirst : (r.firstResume fuel).escaped = false :=
    (resumeCoroutine_flags fuel
      { r with commands := [], producedCommands := [], started := true }).2.trans h
  exact timeline_broken hfirst _

end Escaped

end Runner

end TemporalSdk
