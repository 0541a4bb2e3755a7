import TemporalSdk.Identity
import TemporalSdk.FinishedBody

/-!
The commands of a workflow task and the response that reports them. `commands_` is cleared when the
task starts, the operations of the body and of its callbacks append to it, and it is copied into
the response between the two, if there is one.
-/
namespace TemporalSdk

variable {σ : Type}

namespace Runner

/-- The commands an operation adds. -/
def emitted (r : Runner σ) (op : Op σ) : List Command :=
  ((r.exec op).map fun x => x.1.commands.drop r.commands.length).getD []

/-- The commands that operations add, one after the other. -/
def emittedBy (asks : List (Runner σ × Op σ)) : List Command :=
  asks.flatMap fun x => x.1.emitted x.2

@[simp] theorem emittedBy_nil : emittedBy ([] : List (Runner σ × Op σ)) = [] := rfl

@[simp] theorem emittedBy_append (xs ys : List (Runner σ × Op σ)) :
    emittedBy (xs ++ ys) = emittedBy xs ++ emittedBy ys := List.flatMap_append

theorem emitted_of_commands {r r' : Runner σ} {op : Op σ} {resp : Resp σ} {added : List Command}
    (hx : r.exec op = some (r', resp)) (hc : r'.commands = r.commands ++ added) :
    r.emitted op = added := by
  rw [emitted, hx, Option.map_some, Option.getD_some, hc, List.drop_left]

/-- What an operation adds is its own call's. -/
theorem call_of_emitted {r : Runner σ} {op : Op σ} {c : Command} (hc : c ∈ r.emitted op) :
    op.call? = some c.call := by
  cases hx : r.exec op with
  | none =>
    rw [emitted, hx] at hc
    cases hc
  | some x =>
    rcases (r.exec_emission hx).commands with h | ⟨c', hcall, h⟩
    · have hnone := h.trans (List.append_nil _).symm
      rw [emitted_of_commands hx hnone] at hc
      cases hc
    · rw [emitted_of_commands hx h, List.mem_singleton] at hc
      rw [hc, hcall]

/-- No operation ends the workflow. -/
theorem emittedBy_not_terminal {asks : List (Runner σ × Op σ)} {c : Command}
    (hc : c ∈ emittedBy asks) : c.isTerminal = false := by
  obtain ⟨⟨r, op⟩, -, hc⟩ := List.mem_flatMap.mp hc
  have hcall := call_of_emitted hc
  cases c <;> first | rfl | (cases op <;> cases hcall)

section Emits

variable {r r' : Runner σ} {fuel : Nat}

theorem exec_emits {op : Op σ} {resp : Resp σ} (hx : r.exec op = some (r', resp)) :
    r'.commands = r.commands ++ emittedBy [(r, op)] := by
  obtain ⟨added, hadded⟩ := (r.exec_frame hx).commands
  rw [← hadded, emittedBy, List.flatMap_singleton, emitted_of_commands hx hadded.symm]

theorem step_emits (h : r.step = some r') :
    r'.commands = r.commands ++ emittedBy (r.asked?.toList.map (r, ·)) := by
  cases ha : r.asked? with
  | none =>
    obtain ⟨o, rfl⟩ := step_of_not_asked ha h
    cases o <;> exact (List.append_nil _).symm
  | some op =>
    rw [step_of_asked? ha] at h
    obtain ⟨⟨q, resp⟩, hx, rfl⟩ := Option.map_eq_some_iff.mp h
    have hemits : q.commands = r.commands ++ emittedBy [(r, op)] := exec_emits hx
    exact hemits

/-- A parked body asks for nothing, or for what it is blocked on. -/
theorem emittedBy_of_parked (h : r.step = none) :
    emittedBy (r.asked?.toList.map (r, ·)) = [] := by
  cases ha : r.asked? with
  | none => rfl
  | some op =>
    rw [step_of_asked? ha, Option.map_eq_none_iff] at h
    simp [emittedBy, emitted, h]

theorem runFor_emits (h : Parking.runFor step fuel r = some r') :
    r'.commands = r.commands ++ emittedBy (bodyAsks fuel r) := by
  induction fuel generalizing r with
  | zero =>
    simp only [Parking.runFor, Option.ite_none_right_eq_some, Option.some.injEq,
      Option.isNone_iff_eq_none] at h
    rw [bodyAsks, emittedBy_of_parked h.1, List.append_nil, h.2]
  | succ fuel ih =>
    simp only [Parking.runFor] at h
    unfold bodyAsks
    rw [emittedBy_append]
    cases hs : r.step with
    | none =>
      simp only [hs, Option.some.injEq] at h
      rw [emittedBy_of_parked hs, ← h]
      exact (List.append_nil _).symm
    | some q =>
      simp only [hs] at h
      rw [ih h, step_emits hs, List.append_assoc]
      rfl

theorem resumeCoroutine_emits (hlive : (r.resumeCoroutine fuel).deadlocked = false) :
    (r.resumeCoroutine fuel).commands = r.commands ++ emittedBy (bodyAsks fuel r) := by
  unfold resumeCoroutine at hlive ⊢
  split at hlive
  · next h => exact runFor_emits h
  · cases hlive

theorem runHandler_emits {handler : Program σ} {answers : List (Resp σ)} {o : Outcome}
    (h : runHandler handler fuel r answers = some (r', o)) :
    r'.commands = r.commands ++ emittedBy (handlerAsks handler fuel r answers) := by
  induction fuel generalizing r answers with
  | zero => cases h
  | succ fuel ih =>
    unfold runHandler at h
    unfold handlerAsks
    split at h
    · next ho =>
      cases h
      rw [ho]
      exact (List.append_nil _).symm
    · next ho =>
      split at h
      · next q resp hx =>
        rw [ho, hx, ih h, exec_emits hx, List.append_assoc, ← emittedBy_append]
        rfl
      · cases h

theorem reapplyUpdate_emits {name : String} {args : Payloads}
    (hback : (r.reapplyUpdate fuel name args).hung = false) :
    (r.reapplyUpdate fuel name args).commands =
      r.commands ++ emittedBy (r.updateAsks fuel name args) := by
  unfold reapplyUpdate at hback ⊢
  unfold updateAsks
  cases hu : r.updateHandlers name with
  | none => exact (List.append_nil _).symm
  | some p =>
    rw [hu] at hback
    dsimp only at hback ⊢
    cases hrun : runHandler (p args) fuel r [] with
    | none =>
      rw [hrun] at hback
      cases hback
    | some x =>
      obtain ⟨q, o⟩ := x
      have hemits : q.commands = r.commands ++ emittedBy (handlerAsks (p args) fuel r []) :=
        runHandler_emits hrun
      dsimp only
      split <;> exact hemits

/-- A step of the timeline up to the resume that follows it. -/
theorem beforeResume_emits (fuel : Nat) (r : Runner σ) (s : ReplayStep) : ∃ asks,
    r.stepAsks fuel s = asks ++ (if (r.beforeResume fuel s).halted then []
      else bodyAsks fuel (r.beforeResume fuel s)) ∧
    ((r.beforeResume fuel s).hung = false →
      (r.beforeResume fuel s).commands = r.commands ++ emittedBy asks) := by
  cases s with
  | event ev =>
    obtain ⟨scan, futures, he⟩ := r.applyEventToState_touches ev
    refine ⟨[], rfl, fun _ => ?_⟩
    rw [beforeResume, he]
    exact (List.append_nil _).symm
  | update name args => exact ⟨_, rfl, reapplyUpdate_emits⟩

theorem reapplyStep_emits {s : ReplayStep} (hlive : (reapplyStep fuel r s).deadlocked = false)
    (hback : (reapplyStep fuel r s).hung = false) :
    (reapplyStep fuel r s).commands =
      r.commands ++ emittedBy (if r.halted then [] else r.stepAsks fuel s) := by
  obtain ⟨asks, hasks, hbefore⟩ := beforeResume_emits fuel r s
  rw [reapplyStep_eq] at hlive hback ⊢
  by_cases hr : r.halted = true
  · rw [if_pos hr, if_pos hr]
    exact (List.append_nil _).symm
  · rw [if_neg hr] at hlive hback ⊢
    rw [if_neg hr, hasks, emittedBy_append]
    by_cases hb : (r.beforeResume fuel s).halted = true
    · rw [if_pos hb] at hback ⊢
      rw [if_pos hb, emittedBy_nil, List.append_nil]
      exact hbefore hback
    · rw [if_neg hb] at hlive hback ⊢
      rw [if_neg hb, resumeCoroutine_emits hlive, ← List.append_assoc]
      exact congrArg (· ++ _)
        (hbefore (((resumeCoroutine_flags fuel _).1).symm.trans hback))

theorem timeline_emits {steps : List ReplayStep}
    (hlive : (steps.foldl (reapplyStep fuel) r).deadlocked = false)
    (hback : (steps.foldl (reapplyStep fuel) r).hung = false) :
    (steps.foldl (reapplyStep fuel) r).commands =
      r.commands ++ emittedBy (timelineAsks fuel r steps) := by
  induction steps generalizing r with
  | nil => exact (List.append_nil _).symm
  | cons s steps ih =>
    have hgrows := Grows.timeline fuel steps (reapplyStep fuel r s)
    have hlive' : (reapplyStep fuel r s).deadlocked = false :=
      Bool.eq_false_iff.mpr fun h => Bool.eq_false_iff.mp hlive (hgrows.deadlocked h)
    have hback' : (reapplyStep fuel r s).hung = false :=
      Bool.eq_false_iff.mpr fun h => Bool.eq_false_iff.mp hback (hgrows.hung h)
    rw [List.foldl_cons, ih hlive hback, reapplyStep_emits hlive' hback', timelineAsks,
      emittedBy_append, List.append_assoc]

/-- A replay that gets to its end has the commands of the operations it was asked for. -/
theorem run_emits (hlive : (r.run fuel).deadlocked = false) (hback : (r.run fuel).hung = false) :
    (r.run fuel).commands = emittedBy (r.runAsks fuel) := by
  have hgrows := Grows.timeline fuel (r.firstResume fuel).scan.postUpdateTimeline
    (r.firstResume fuel)
  have hlive' : (r.firstResume fuel).deadlocked = false :=
    Bool.eq_false_iff.mpr fun h => Bool.eq_false_iff.mp hlive (hgrows.deadlocked h)
  rw [runAsks, emittedBy_append]
  refine (timeline_emits hlive hback).trans (congrArg (· ++ _) ?_)
  exact resumeCoroutine_emits hlive'

/-- What the body asks for in a continuation. -/
def continueAsks (fuel : Nat) (r : Runner σ) (evs : History) : List (Runner σ × Op σ) :=
  let r' := { r with commands := [], producedCommands := [] }.applyEvents evs
  if r'.started then bodyAsks fuel r' else []

/-- And so has a continuation. -/
theorem applyAndResume_emits {evs : History}
    (hlive : (r.applyAndResume fuel evs).deadlocked = false) :
    (r.applyAndResume fuel evs).commands = emittedBy (r.continueAsks fuel evs) := by
  have happlied : ({ r with commands := [], producedCommands := [] }.applyEvents evs).commands =
      [] := by
    obtain ⟨scan, futures, he⟩ :=
      applyEvents_touches { r with commands := [], producedCommands := [] } evs
    rw [he]
  unfold applyAndResume at hlive ⊢
  unfold continueAsks
  dsimp only at hlive ⊢
  split at hlive
  · next hstarted =>
    rw [if_pos hstarted, if_pos hstarted, resumeCoroutine_emits hlive, happlied, List.nil_append]
  · next hstarted => rw [if_neg hstarted, if_neg hstarted, happlied, emittedBy_nil]

end Emits

section Callbacks

variable {fuel : Nat} {r : Runner σ}

/-- What callbacks ask for. -/
def callsAsks (fuel : Nat) (calls : List (Runner σ × Program σ)) : List (Runner σ × Op σ) :=
  calls.flatMap fun c => handlerAsks c.2 fuel c.1 []

@[simp] theorem callsAsks_append (fuel : Nat) (xs ys : List (Runner σ × Program σ)) :
    callsAsks fuel (xs ++ ys) = callsAsks fuel xs ++ callsAsks fuel ys := List.flatMap_append

theorem invoke_emits {p : Program σ} (hback : (r.invoke fuel p).2 ≠ .hung) :
    (r.invoke fuel p).1.commands = r.commands ++ emittedBy (callsAsks fuel [(r, p)]) := by
  rw [callsAsks, List.flatMap_singleton]
  unfold Runner.invoke at hback ⊢
  cases hrun : runHandler p fuel r [] with
  | none =>
    rw [hrun] at hback
    exact absurd rfl hback
  | some x => exact runHandler_emits hrun

/-- A callback that is called if it is registered. -/
theorem callOf_emits {handler : Option (Handler σ)} {args : Payloads}
    {called : Runner σ × HandlerExit} (hnone : handler = none → called.1 = r)
    (hsome : ∀ p, handler = some p → called = r.invoke fuel (p args))
    (hback : called.2 ≠ .hung) : called.1.commands =
      r.commands ++ emittedBy (callsAsks fuel (r.callOf handler args)) := by
  unfold callOf
  cases handler with
  | none =>
    rw [hnone rfl]
    exact (List.append_nil _).symm
  | some p =>
    rw [hsome p rfl] at hback ⊢
    exact invoke_emits hback

theorem validateUpdate_emits {u : UpdateRequest} (hback : (r.validateUpdate fuel u).2 ≠ .hung) :
    (r.validateUpdate fuel u).1.commands = r.commands ++
      emittedBy (callsAsks fuel (r.callOf (r.updateValidators u.name) u.args)) :=
  callOf_emits (fun h => by rw [Runner.validateUpdate, h])
    (fun p h => by rw [Runner.validateUpdate, h]) hback

theorem runUpdate_emits {u : UpdateRequest} (hback : (r.runUpdate fuel u).2 ≠ .hung) :
    (r.runUpdate fuel u).1.commands = r.commands ++
      emittedBy (callsAsks fuel (r.callOf (r.updateHandlers u.name) u.args)) :=
  callOf_emits (fun h => by rw [Runner.runUpdate, h]) (fun p h => by rw [Runner.runUpdate, h]) hback

theorem runQuery_emits {q : WorkflowQuery} (hback : (r.runQuery fuel q).2 ≠ .hung) :
    (r.runQuery fuel q).1.commands = r.commands ++
      emittedBy (callsAsks fuel (r.callOf (r.queryHandlers q.queryType) q.queryArgs)) :=
  callOf_emits (fun h => by rw [Runner.runQuery, h]) (fun p h => by rw [Runner.runQuery, h]) hback

theorem processMessage_emits {identity : String} {msg : TaskMessage}
    (hback : (r.processMessage fuel identity msg).2.2 = none) :
    (r.processMessage fuel identity msg).1.commands =
      r.commands ++ emittedBy (callsAsks fuel (r.messageCalls fuel msg)) := by
  unfold processMessage at hback ⊢
  unfold messageCalls
  cases hb : msg.body with
  | none => exact (List.append_nil _).symm
  | some u =>
    rw [hb] at hback
    have hvalid : (r.validateUpdate fuel u).2 ≠ .hung → (r.validateUpdate fuel u).1.commands =
        r.commands ++ emittedBy (callsAsks fuel (r.callOf (r.updateValidators u.name) u.args)) :=
      validateUpdate_emits
    dsimp only at hback ⊢
    rw [callsAsks_append, emittedBy_append]
    generalize r.validateUpdate fuel u = x at hback hvalid
    obtain ⟨r₁, exit⟩ := x
    cases exit with
    | hung => cases hback
    | escaped => cases hback
    | threw what => exact (hvalid nofun).trans (congrArg _ (List.append_nil _).symm)
    | returned ignored =>
      have hrun : (r₁.runUpdate fuel u).2 ≠ .hung → (r₁.runUpdate fuel u).1.commands =
          r₁.commands ++
            emittedBy (callsAsks fuel (r₁.callOf (r₁.updateHandlers u.name) u.args)) :=
        runUpdate_emits
      dsimp only at hback hvalid ⊢
      rw [← List.append_assoc, ← hvalid nofun]
      generalize r₁.runUpdate fuel u = y at hback hrun
      obtain ⟨r₂, exit'⟩ := y
      cases exit' with
      | hung => cases hback
      | escaped => cases hback
      | threw what => exact hrun nofun
      | returned result => exact hrun nofun

theorem processMessages_emits {identity : String} {msgs : List TaskMessage}
    (hback : (r.processMessages fuel identity msgs).2.2 = none) :
    (r.processMessages fuel identity msgs).1.commands =
      r.commands ++ emittedBy (callsAsks fuel (r.messagesCalls fuel identity msgs)) := by
  induction msgs generalizing r with
  | nil => exact (List.append_nil _).symm
  | cons msg msgs ih =>
    have hone : (r.processMessage fuel identity msg).2.2 = none →
        (r.processMessage fuel identity msg).1.commands =
          r.commands ++ emittedBy (callsAsks fuel (r.messageCalls fuel msg)) :=
      processMessage_emits
    unfold processMessages at hback ⊢
    unfold messagesCalls
    rw [callsAsks_append, emittedBy_append]
    generalize r.processMessage fuel identity msg = x at hback hone
    obtain ⟨r₁, replies, exit⟩ := x
    cases exit with
    | some exit => cases hback
    | none => exact (ih hback).trans ((congrArg (· ++ _) (hone rfl)).trans (List.append_assoc ..))

theorem answerQuery_emits {q : WorkflowQuery} {result : QueryResult}
    (hback : (r.answerQuery fuel q).2 = .ok result) :
    (r.answerQuery fuel q).1.commands =
      r.commands ++ emittedBy (callsAsks fuel (r.queryCalls q)) := by
  unfold answerQuery at hback ⊢
  unfold queryCalls
  by_cases hdone : r.isDone = true
  · rw [if_pos hdone, if_pos hdone]
    exact (List.append_nil _).symm
  · rw [if_neg hdone] at hback ⊢
    rw [if_neg hdone]
    have hquery : (r.runQuery fuel q).2 ≠ .hung → (r.runQuery fuel q).1.commands = r.commands ++
        emittedBy (callsAsks fuel (r.callOf (r.queryHandlers q.queryType) q.queryArgs)) :=
      runQuery_emits
    generalize r.runQuery fuel q = x at hback hquery
    obtain ⟨r₁, exit⟩ := x
    cases exit with
    | hung => cases hback
    | escaped => cases hback
    | threw what => exact hquery nofun
    | returned answer => exact hquery nofun

theorem answerQueries_emits {qs : List (String × WorkflowQuery)}
    {results : List (String × QueryResult)} (hback : (r.answerQueries fuel qs).2 = .ok results) :
    (r.answerQueries fuel qs).1.commands =
      r.commands ++ emittedBy (callsAsks fuel (r.queriesCalls fuel qs)) := by
  induction qs generalizing r results with
  | nil => exact (List.append_nil _).symm
  | cons x qs ih =>
    obtain ⟨id, q⟩ := x
    have hone : ∀ result, (r.answerQuery fuel q).2 = .ok result →
        (r.answerQuery fuel q).1.commands =
          r.commands ++ emittedBy (callsAsks fuel (r.queryCalls q)) :=
      fun _ => answerQuery_emits
    unfold answerQueries at hback ⊢
    unfold queriesCalls
    rw [callsAsks_append, emittedBy_append]
    generalize r.answerQuery fuel q = x at hback hone
    obtain ⟨r₁, e⟩ := x
    cases e with
    | error exit => cases hback
    | ok result =>
      have hrest : ∀ more, (r₁.answerQueries fuel qs).2 = .ok more →
          (r₁.answerQueries fuel qs).1.commands =
            r₁.commands ++ emittedBy (callsAsks fuel (r₁.queriesCalls fuel qs)) :=
        fun _ => ih
      dsimp only at hback hone ⊢
      rw [← List.append_assoc, ← hone result rfl]
      generalize r₁.answerQueries fuel qs = y at hback hrest
      obtain ⟨r₂, e'⟩ := y
      cases e' with
      | error exit => cases hback
      | ok more => exact hrest more rfl

end Callbacks
end Runner

/-- A response carries the emitted commands in order and then at most a terminal one. -/
def ReportsAll (sent emitted : List Command) : Prop :=
  ∃ t, sent = emitted ++ t ∧ (t = [] ∨ ∃ c, t = [c] ∧ c.isTerminal = true)

namespace TaskHandler

variable (h : TaskHandler σ) (remote : Remote) (s : HandlerState σ) (task : WorkflowTask)

/-- The operations of the body of a workflow task, and of the update handlers that a replay
applies again. -/
inductive BodyAsks : List (Runner σ × Op σ) → Prop
  | replayed {fn : WorkflowFn σ} {events : History}
      (hfn : h.workflows task.workflowType = some fn)
      (hpage : assembleHistory remote.stub h.ns task.workflowId task.runId remote.pageFuel
        task.page = some (.ok events))
      (hquery : task.query = none) (hfull : isFullHistory events = true) :
      BodyAsks ((Runner.replay (h.info task) (0 < task.previousStartedEventId) h.world fn
        events).runAsks h.fuel)
  | continued {fn : WorkflowFn σ} {events : History} {addr : Nat} {r : Runner σ}
      (hfn : h.workflows task.workflowType = some fn)
      (hpage : assembleHistory remote.stub h.ns task.workflowId task.runId remote.pageFuel
        task.page = some (.ok events))
      (hquery : task.query = none) (hpart : isFullHistory events = false)
      (hfit : Fits s task events addr r) : BodyAsks (r.continueAsks h.fuel events)

/-- The operations of the callbacks that answer the messages and the queries of the task on `r`. -/
def answerAsks (r : Runner σ) : List (Runner σ × Op σ) :=
  Runner.callsAsks h.fuel (r.messagesCalls h.fuel h.identity task.messages) ++
    if (r.processMessages h.fuel h.identity task.messages).2.2.isNone then
      Runner.callsAsks h.fuel ((r.processMessages h.fuel h.identity task.messages).1.queriesCalls
        h.fuel task.queries)
    else []

/-- The commands appended while a workflow task is handled: by its body and, if the call gets to
them, by its callbacks. -/
inductive Emits : List Command → Prop
  | answered {asks : List (Runner σ × Op σ)} {r : Runner σ}
      (hbody : h.BodyAsks remote s task asks) (hr : h.Progresses remote s task r) :
      Emits (Runner.emittedBy (asks ++ h.answerAsks task r))
  | stopped {asks : List (Runner σ × Op σ)} (hbody : h.BodyAsks remote s task asks)
      (hno : ∀ r, ¬ h.Progresses remote s task r) : Emits (Runner.emittedBy asks)

/-- Every command appended while a workflow task is handled is in the completed response of the
task, once, in order and before the terminal command. -/
def TaskReported : Prop :=
  ∀ commands, h.Emits remote s task commands → commands = [] ∨
    ∃ req, (h.handle remote s task).sent = [.workflowTaskCompleted req] ∧
      ReportsAll req.commands commands

/-- No command of the task can be lost: its callbacks append none, and if its body appends some,
the call goes on to answer the task and the callbacks come back. -/
structure Quiet : Prop where
  callbacks : ∀ r, h.Progresses remote s task r → Runner.emittedBy (h.answerAsks task r) = []
  answered : ∀ asks, h.BodyAsks remote s task asks → Runner.emittedBy asks = [] ∨
    ∃ r, h.Progresses remote s task r ∧ h.SettlesTask r task

variable {h remote s task}

theorem BodyAsks.unique {asks asks' : List (Runner σ × Op σ)}
    (ha : h.BodyAsks remote s task asks) (ha' : h.BodyAsks remote s task asks') : asks = asks' := by
  cases ha with
  | replayed hfn hpage _ hfull =>
    cases ha' with
    | replayed hfn' hpage' =>
      cases hfn.symm.trans hfn'
      cases hpage.symm.trans hpage'
      rfl
    | continued _ hpage' _ hpart =>
      cases hpage.symm.trans hpage'
      rw [hfull] at hpart
      cases hpart
  | continued _ hpage _ hpart hfit =>
    cases ha' with
    | replayed _ hpage' _ hfull =>
      cases hpage.symm.trans hpage'
      rw [hfull] at hpart
      cases hpart
    | continued _ hpage' _ _ hfit' =>
      cases hpage.symm.trans hpage'
      cases hfit.1.symm.trans hfit'.1
      cases hfit.2.1.symm.trans hfit'.2.1
      rfl

/-- The runner of a call that progresses has the commands of its body. -/
theorem Progresses.bodyAsks {r : Runner σ} (hr : h.Progresses remote s task r) :
    ∃ asks, h.BodyAsks remote s task asks ∧ r.commands = Runner.emittedBy asks := by
  cases hr with
  | replayed hfn hpage hquery hfull hdeadlock hhung =>
    exact ⟨_, .replayed hfn hpage hquery hfull, Runner.run_emits hdeadlock hhung⟩
  | continued hfn hpage hquery hpart hfit hdeadlock =>
    exact ⟨_, .continued hfn hpage hquery hpart hfit, Runner.applyAndResume_emits hdeadlock⟩

/-- When the task has been answered, `commands_` holds what was emitted for it: the commands of the
body, which were copied into the response, and those of the callbacks. -/
theorem Progresses.emits {req : TaskCompleted} {r : Runner σ} (hr : h.Progresses remote s task r)
    (hsent : .workflowTaskCompleted req ∈ (h.handle remote s task).sent) :
    ∃ r₁ messages r₂ results,
      r.processMessages h.fuel h.identity task.messages = (r₁, messages, none) ∧
      r₁.answerQueries h.fuel task.queries = (r₂, .ok results) ∧
      h.Emits remote s task r₂.commands := by
  obtain ⟨r₁, messages, r₂, results, hmessages, hqueries, -⟩ := hr.completed_eq hsent
  obtain ⟨asks, hbody, hcommands⟩ := hr.bodyAsks
  refine ⟨r₁, messages, r₂, results, hmessages, hqueries, ?_⟩
  have hone := Runner.processMessages_emits (congrArg (·.2.2) hmessages)
  have htwo := Runner.answerQueries_emits (congrArg Prod.snd hqueries)
  rw [hmessages] at hone
  rw [hqueries] at htwo
  have hall : r₂.commands = Runner.emittedBy (asks ++ h.answerAsks task r) := by
    rw [answerAsks, hmessages, Runner.emittedBy_append, Runner.emittedBy_append,
      ← hcommands, ← List.append_assoc, ← hone]
    exact htwo
  exact hall ▸ .answered hbody hr

/-- A completed response that is not the answer of a runner carries a terminal command only. -/
theorem rejected_commands {req : TaskCompleted} (hno : ∀ r, ¬ h.Progresses remote s task r)
    (hsent : .workflowTaskCompleted req ∈ (h.handle remote s task).sent) :
    ∀ c ∈ req.commands, c.isTerminal = true := by
  obtain ⟨fn, events, hfn, hpage, hfull, hcheck⟩ :=
    (progresses_of_completed hsent).resolve_left (not_exists.mpr hno)
  rw [handle_eq_route hfn hpage] at hsent
  cases hquery : task.query with
  | some q => exact absurd hsent (route_query_not_completed hquery)
  | none =>
    rw [h.route_full hfull hquery] at hsent
    rcases h.replayTask_cases remote s fn task events with
      ht | ⟨exit, ht⟩ | ⟨mismatch, -, ht⟩ | ⟨hnone, -⟩
    · rw [ht] at hsent
      exact absurd hsent (respond_not_completed (by simp))
    · rw [ht] at hsent
      cases hsent
    · rw [ht] at hsent
      unfold failNondeterministic at hsent
      dsimp only at hsent
      split at hsent
      · rw [(respond_sent _ _ _).1, List.mem_singleton] at hsent
        cases hsent
        simp [Command.isTerminal]
      · exact absurd hsent (respond_not_completed (by simp))
    · exact absurd hnone hcheck

/-- Commands that are not terminal are not in a list of terminal ones. -/
theorem eq_nil_of_terminal {commands rest : List Command} {asks : List (Runner σ × Op σ)}
    (hall : ∀ c ∈ commands, c.isTerminal = true)
    (heq : commands = Runner.emittedBy asks ++ rest) : Runner.emittedBy asks = [] := by
  rw [List.eq_nil_iff_forall_not_mem]
  intro c hc
  have hterminal := hall c (heq ▸ List.mem_append_left rest hc)
  rw [Runner.emittedBy_not_terminal hc] at hterminal
  cases hterminal

theorem quiet_of_taskReported (hrep : h.TaskReported remote s task) : h.Quiet remote s task := by
  have hbody : ∀ asks r, h.BodyAsks remote s task asks → h.Progresses remote s task r →
      Runner.emittedBy (h.answerAsks task r) = [] ∧
        (Runner.emittedBy asks = [] ∨ h.SettlesTask r task) := by
    intro asks r hbody hr
    obtain ⟨asks', hbody', hcommands⟩ := hr.bodyAsks
    obtain rfl := hbody.unique hbody'
    rcases hrep _ (.answered hbody hr) with hnil | ⟨req, hsent, t, hreq, -⟩
    · rw [Runner.emittedBy_append, List.append_eq_nil_iff] at hnil
      exact ⟨hnil.2, .inl hnil.1⟩
    · refine ⟨?_, .inr (hr.sent_iff.mp ⟨req, hsent⟩)⟩
      rw [hr.commands_eq (hsent ▸ List.mem_singleton_self _), hcommands, Runner.emittedBy_append,
        List.append_assoc, List.append_cancel_left_eq] at hreq
      refine eq_nil_of_terminal (fun c hc => ?_) hreq
      exact Runner.terminalCommand_isTerminal (Option.mem_toList.mp hc)
  constructor
  · intro r hr
    obtain ⟨asks, hasks, -⟩ := hr.bodyAsks
    exact (hbody asks r hasks hr).1
  · intro asks hasks
    by_cases hr : ∃ r, h.Progresses remote s task r
    · obtain ⟨r, hr⟩ := hr
      exact (hbody asks r hasks hr).2.imp_right fun hsettles => ⟨r, hr, hsettles⟩
    · rw [not_exists] at hr
      rcases hrep _ (.stopped hasks hr) with hnil | ⟨req, hsent, t, hreq, -⟩
      · exact .inl hnil
      · exact .inl (eq_nil_of_terminal
          (rejected_commands hr (hsent ▸ List.mem_singleton_self _)) hreq)

theorem taskReported_of_quiet (hquiet : h.Quiet remote s task) : h.TaskReported remote s task := by
  intro commands hemits
  cases hemits with
  | stopped hbody hno =>
    exact .inl ((hquiet.answered _ hbody).resolve_right fun ⟨r, hr, _⟩ => hno r hr)
  | answered hbody hr =>
    rw [Runner.emittedBy_append, hquiet.callbacks _ hr, List.append_nil]
    refine (hquiet.answered _ hbody).imp_right fun ⟨r', hr', hsettles⟩ => ?_
    obtain ⟨asks, hbody', hcommands⟩ := hr'.bodyAsks
    obtain rfl := hbody.unique hbody'
    obtain ⟨req, hsent⟩ := hr'.sent_iff.mpr hsettles
    refine ⟨req, hsent, r'.terminalCommand.toList, ?_, ?_⟩
    · rw [hr'.commands_eq (hsent ▸ List.mem_singleton_self _), hcommands]
    · cases ht : r'.terminalCommand with
      | none => exact .inl rfl
      | some c => exact .inr ⟨c, rfl, Runner.terminalCommand_isTerminal ht⟩

/-- Over any sequence of tasks from any state, every command that is emitted for a task is in its
completed response exactly if no callback of a task emits one and every task whose body emits one
is answered. -/
theorem commands_reported_iff_quiet (h : TaskHandler σ) (s : HandlerState σ)
    (tasks : List (Remote × WorkflowTask)) :
    h.EachTask h.TaskReported s tasks ↔ h.EachTask h.Quiet s tasks :=
  ⟨EachTask.mono h fun _ _ _ => quiet_of_taskReported,
    EachTask.mono h fun _ _ _ => taskReported_of_quiet⟩

end TaskHandler

/-- The first task of an order brings an update. -/
def chargeTask : WorkflowTask :=
  orderTask [⟨"update-1/request", "update-1", 2, some ⟨"charge", []⟩⟩]

/-- The update handler's activity is scheduled in the runner and missing from the response. -/
theorem update_handler_command_lost :
    ((orderHandler.handle .accepting { cache := .empty 0 } chargeTask).state.runners 0).map
        (·.commands.length) = some 2 ∧
      (orderHandler.handle .accepting { cache := .empty 0 } chargeTask).sent.map
        Response.commandCount? = [some 1] ∧
      ¬ orderHandler.EachTask orderHandler.TaskReported { cache := .empty 0 }
        [(.accepting, chargeTask)] := by
  refine ⟨by decide +kernel, by decide +kernel, fun ⟨hrep, _⟩ => ?_⟩
  have hprogresses : orderHandler.Progresses .accepting { cache := .empty 0 } chargeTask
      (orderHandler.replayed orderWorkflow chargeTask chargeTask.page.events) :=
    .replayed rfl rfl rfl rfl (by decide +kernel) (by decide +kernel) (by decide +kernel)
      (by decide +kernel)
  have hlost : (Runner.emittedBy (orderHandler.answerAsks chargeTask
      (orderHandler.replayed orderWorkflow chargeTask chargeTask.page.events))).length = 1 := by
    decide +kernel
  rw [(TaskHandler.quiet_of_taskReported hrep).callbacks _ hprogresses] at hlost
  cases hlost

/-- A workflow that counts on update, reserves and waits for a signal. -/
def tallyWorkflow : WorkflowFn Nat where
  init := 0
  body _ := fun
    | [] => .setUpdateHandler "add" fun _ => fun
        | [] => .writeStore 1
        | _ => .finish (.returned [])
    | [_] => .scheduleActivity "Reserve" [] {}
    | _ => .receive "done"

def tallyHandler : TaskHandler Nat where
  workflows name := if name = "Order" then some tallyWorkflow else none
  world := .plain .tagged
  fuel := 10

/-- Its first task brings an update. -/
def tallyTask : WorkflowTask :=
  orderTask [⟨"update-1/request", "update-1", 2, some ⟨"add", []⟩⟩]

theorem tally_progresses : tallyHandler.Progresses .accepting { cache := .empty 0 } tallyTask
    (tallyHandler.replayed tallyWorkflow tallyTask tallyTask.page.events) :=
  .replayed rfl rfl rfl rfl (by decide +kernel) (by decide +kernel) (by decide +kernel)
    (by decide +kernel)

/-- A handler that only counts loses nothing: the body's command is reported. -/
theorem tally_command_reported :
    tallyHandler.EachTask tallyHandler.TaskReported { cache := .empty 0 }
        [(.accepting, tallyTask)] ∧
      (tallyHandler.handle .accepting { cache := .empty 0 } tallyTask).sent.map
        Response.commandCount? = [some 1] := by
  refine ⟨(TaskHandler.commands_reported_iff_quiet _ _ _).mpr ⟨?_, trivial⟩, by decide +kernel⟩
  have hsettles : tallyHandler.SettlesTask
      (tallyHandler.replayed tallyWorkflow tallyTask tallyTask.page.events) tallyTask := by
    refine tally_progresses.sent_iff.mp (Response.eq_of_commandCount? (n := 1) ?_)
    decide +kernel
  refine ⟨fun r hr => ?_, fun _ _ => .inr ⟨_, tally_progresses, hsettles⟩⟩
  obtain rfl : r = tallyHandler.replayed tallyWorkflow tallyTask tallyTask.page.events := by
    cases hr with
    | replayed hfn hpage =>
      cases hfn
      cases hpage
      rfl
    | continued _ hpage _ hpart =>
      cases hpage
      cases hpart
  decide +kernel

end TemporalSdk
