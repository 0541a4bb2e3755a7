import TemporalSdk.RemoteCalls
import TemporalSdk.ActivityHandler
import Mathlib.Data.Set.Insert

/-! Activities and child workflows as remote calls, from end to end: the server carries the commands
of a workflow to workers and what they send back to its history, so what `Future::Get` gives the
body is what became of its call elsewhere. -/
namespace TemporalSdk

namespace ActivityTaskHandler

variable {ω : Type} (h : ActivityTaskHandler ω) (task : ActivityTask) (w : ω)

/-- The failure that is sent for an exception, if one is. -/
def reported : Thrown → Option Failure
  | .applicationError message type nonRetryable =>
    (h.failureOf (makeApplicationFailure message type nonRetryable)
      (.applicationError message type nonRetryable)).toOption
  | .stdException what =>
    (h.failureOf (makeApplicationFailure what "std::exception" false)
      (.stdException what)).toOption
  | .nonStd => none

theorem report_attempts_eq (fallback : Failure) (e : Thrown) (w : ω) :
    (h.report task fallback e w).attempts = (h.failureOf fallback e).toOption.toList.map
      (.respondActivityTaskFailed task.taskToken h.identity) := by
  unfold report
  cases h.failureOf fallback e <;> rfl

theorem fail_attempts_eq (e : Thrown) (w : ω) :
    (h.fail task e w).attempts =
      (h.reported e).toList.map (.respondActivityTaskFailed task.taskToken h.identity) := by
  cases e with
  | applicationError message type nonRetryable => exact h.report_attempts_eq task _ _ w
  | stdException what => exact h.report_attempts_eq task _ _ w
  | nonStd => rfl

/-- What reaches the catch clauses: the exception of the function, or of the RPC that was to report
its result. -/
def Throws (run : Execution ω) (e : Thrown) : Prop :=
  run.outcome = .error e ∨
    ∃ result, run.outcome = .ok result ∧ run.context.willCompleteAsync = false ∧
      (h.stub (h.completion task result) run.world).1.code ≠ .ok ∧
      e = .ofStatus "RespondActivityTaskCompleted" (h.stub (h.completion task result) run.world).1

theorem throws_of_escaped {run : Execution ω} {e : Thrown}
    (he : (h.complete task run).escaped = some e) : h.Throws task run e := by
  unfold complete at he
  cases hout : run.outcome with
  | error e' =>
    simp only [hout, Option.some.injEq] at he
    exact .inl (hout.trans (congrArg _ he))
  | ok result =>
    simp only [hout] at he
    split at he
    · cases he
    · next hasync =>
      rw [send, Answered.call_escaped] at he
      split at he
      · cases he
      · next hcode =>
        exact .inr ⟨result, hout, Bool.eq_false_iff.mpr hasync, hcode, (Option.some.inj he).symm⟩

theorem complete_attempts {run : Execution ω} {r : ActivityResponse}
    (hr : r ∈ (h.complete task run).attempts) :
    ∃ result, run.outcome = .ok result ∧ run.context.willCompleteAsync = false ∧
      r = h.completion task result := by
  unfold complete at hr
  cases hout : run.outcome with
  | error e =>
    simp only [hout] at hr
    cases hr
  | ok result =>
    simp only [hout] at hr
    split at hr
    · cases hr
    · next hasync =>
      exact ⟨result, rfl, Bool.eq_false_iff.mpr hasync, List.mem_singleton.mp hr⟩

/-- A completion that is sent holds what the function returned. -/
theorem of_completed {token identity : String} {sent : Option Payloads}
    (hr : .respondActivityTaskCompleted token identity sent ∈ (h.handle task w).attempts) :
    ∃ run ∈ h.execution? task w, run.outcome = .ok (sent.getD []) ∧
      run.context.willCompleteAsync = false := by
  cases hrun : h.execution? task w with
  | none =>
    have hfn : h.activities task.activityType = none := Option.map_eq_none_iff.mp hrun
    unfold handle at hr
    rw [hfn] at hr
    cases List.mem_singleton.mp hr
  | some run =>
    rw [h.handle_attempts task w hrun] at hr
    have htried : .respondActivityTaskCompleted token identity sent ∈
        (h.complete task run).attempts := by
      cases he : (h.complete task run).escaped with
      | none => simpa only [he] using hr
      | some e =>
        simp only [he, fail_attempts_eq, List.mem_append, List.mem_map] at hr
        rcases hr with hr | ⟨f, -, hf⟩
        · exact hr
        · cases hf
    obtain ⟨result, hout, hnow, hsent⟩ := h.complete_attempts task htried
    refine ⟨run, rfl, ?_, hnow⟩
    rw [hout]
    unfold completion at hsent
    injection hsent with _ _ hsent
    subst hsent
    cases result <;> rfl

/-- A failure that is sent is about a type nobody registered, or reports what was thrown. -/
theorem of_failed {token identity : String} {failure : Failure}
    (hr : .respondActivityTaskFailed token identity failure ∈ (h.handle task w).attempts) :
    (h.activities task.activityType = none ∧ failure = makeApplicationFailure
      ("no activity registered for type: " ++ task.activityType) "NotRegisteredError" false) ∨
    ∃ run ∈ h.execution? task w, ∃ e, h.Throws task run e ∧ h.reported e = some failure := by
  cases hrun : h.execution? task w with
  | none =>
    have hfn : h.activities task.activityType = none := Option.map_eq_none_iff.mp hrun
    unfold handle at hr
    rw [hfn] at hr
    injection List.mem_singleton.mp hr with _ _ hf
    exact .inl ⟨hfn, hf⟩
  | some run =>
    rw [h.handle_attempts task w hrun] at hr
    have hnot : .respondActivityTaskFailed token identity failure ∉
        (h.complete task run).attempts := by
      intro htried
      obtain ⟨result, -, -, hsent⟩ := h.complete_attempts task htried
      cases hsent
    cases he : (h.complete task run).escaped with
    | none =>
      simp only [he] at hr
      exact absurd hr hnot
    | some e =>
      simp only [he, fail_attempts_eq, List.mem_append, List.mem_map, Option.mem_toList] at hr
      obtain ⟨f, hf, hsent⟩ := hr.resolve_left hnot
      injection hsent with _ _ hsent
      exact .inr ⟨run, rfl, e, h.throws_of_escaped task he, hsent ▸ hf⟩

end ActivityTaskHandler

/-- A worker that has been handed an activity task. -/
structure ActivityAttempt (ω : Type) where
  handler : ActivityTaskHandler ω
  task : ActivityTask
  world : ω

namespace ActivityAttempt

variable {ω : Type} (t : ActivityAttempt ω)

def responses : List ActivityResponse := (t.handler.handle t.task t.world).attempts

/-- The task is the one a command asks for. -/
def IsFor (a : ScheduleActivityAttributes) : Prop :=
  t.task.activityId = a.activityId ∧ t.task.activityType = a.activityType ∧
    t.task.input = a.input ∧ t.task.headers = a.header

/-- The worker ran the function registered for a call, on its input. -/
def Ran (type : String) (input : Payloads) (run : Execution ω) : Prop :=
  t.task.activityType = type ∧ t.task.input = input ∧
    run ∈ t.handler.execution? t.task t.world

end ActivityAttempt

/-- The server puts on record what workers sent it: a task is handed out for a command it has
accepted, and an activity is closed with a response to its task, or because its time is up or its
cancellation was accepted. -/
structure ActivitiesServed {ω : Type} (h : History) (cmds : List Command)
    (attempts : Set (ActivityAttempt ω)) : Prop where
  handedOut : ∀ t ∈ attempts, ∃ a, .scheduleActivityTask a ∈ cmds ∧ t.IsFor a
  completed : ∀ e ∈ h, ∀ sid result, e.attributes = .activityTaskCompleted sid result →
    ∀ id type, ⟨sid, .activityTaskScheduled id type⟩ ∈ h →
      ∃ t ∈ attempts, t.task.activityId = id ∧ ∃ token identity sent,
        .respondActivityTaskCompleted token identity sent ∈ t.responses ∧ result = sent.getD []
  failed : ∀ e ∈ h, ∀ sid failure, e.attributes = .activityTaskFailed sid failure →
    ∀ id type, ⟨sid, .activityTaskScheduled id type⟩ ∈ h →
      ∃ t ∈ attempts, t.task.activityId = id ∧ ∃ token identity,
        .respondActivityTaskFailed token identity failure ∈ t.responses

/-- What a call of an activity is answered with. -/
inductive ActivityAnswer {σ ω : Type} (attempts : Set (ActivityAttempt ω)) (type : String)
    (input : Payloads) : Resp σ → Prop
  | returned {t : ActivityAttempt ω} {run : Execution ω} {result : Payloads} (ht : t ∈ attempts)
      (ran : t.Ran type input run) (outcome : run.outcome = .ok result)
      (now : run.context.willCompleteAsync = false) :
      ActivityAnswer attempts type input (.got result)
  | threw {t : ActivityAttempt ω} {run : Execution ω} {e : Thrown} {failure : Failure}
      (ht : t ∈ attempts) (ran : t.Ran type input run) (thrown : t.handler.Throws t.task run e)
      (reported : t.handler.reported e = some failure) :
      ActivityAnswer attempts type input (.activityError failure.type failure.message)
  | unregistered {t : ActivityAttempt ω} (ht : t ∈ attempts)
      (missing : t.handler.activities type = none) :
      ActivityAnswer attempts type input (.activityError "NotRegisteredError"
        ("no activity registered for type: " ++ type))
  | timedOut : ActivityAnswer attempts type input (.activityError "TimeoutError"
      "activity timed out")
  | cancelled : ActivityAnswer attempts type input (.activityError "CanceledError"
      "activity cancelled")

/-- Commands that open things under different names are told apart by them. -/
theorem Command.eq_of_names {α : Type} {f : EventAttributes → Option α} {cmds : List Command}
    (hn : ((cmds.map Command.event).filterMap f).Nodup) {c c' : Command} (hc : c ∈ cmds)
    (hc' : c' ∈ cmds) {x : α} (hx : f c.event = some x) (hx' : f c'.event = some x) : c = c' := by
  rw [List.filterMap_map, List.Nodup, List.pairwise_filterMap] at hn
  have hsymm : Std.Symm fun d d' : Command =>
      ∀ y, (f ∘ Command.event) d = some y → ∀ y', (f ∘ Command.event) d' = some y' → y ≠ y' :=
    ⟨fun d d' hd y hy y' hy' he => hd y' hy' y hy he.symm⟩
  by_contra hne
  exact hn.forall hc hc' hne x hx x hx' rfl

theorem EventAttributes.delivery?_activity {a : EventAttributes} {sid : Nat} {c : Closing}
    (h : a.delivery? = some (.activity sid c)) :
    (∃ result, a = .activityTaskCompleted sid result ∧ c = .completed result) ∨
    (∃ f, a = .activityTaskFailed sid f ∧ c = .failed f.type f.message) ∨
    c = .failed "TimeoutError" "activity timed out" ∨
    c = .failed "CanceledError" "activity cancelled" := by
  cases a <;> simp only [delivery?, Option.some.injEq, Delivery.activity.injEq, reduceCtorEq] at h
  case activityTaskCompleted sid' result =>
    obtain ⟨rfl, rfl⟩ := h
    exact .inl ⟨result, rfl, rfl⟩
  case activityTaskFailed sid' f =>
    obtain ⟨rfl, rfl⟩ := h
    exact .inr (.inl ⟨f, rfl, rfl⟩)
  case activityTaskTimedOut sid' => exact .inr (.inr (.inl h.2.symm))
  case activityTaskCanceled sid' => exact .inr (.inr (.inr h.2.symm))

section Answering

variable {σ ω : Type} {fuel : Nat} {info : WorkflowInfo} {world : World σ} {fn : WorkflowFn σ}
  {evicted : Nat → Bool} {batches : List History} {r : Runner σ}

/-- What `Get` gives a workflow of an activity it has called is what a worker made of just this
call: the value the registered function returned on the input of the call, or the error it threw. -/
theorem Conducted.activity_answered (h : Conducted fuel info world fn evicted batches)
    (hr : (Runner.tasks fuel info world fn evicted batches).getLast? = some r)
    {attempts : Set (ActivityAttempt ω)}
    (hserved : ActivitiesServed batches.flatten
      ((Runner.tasks fuel info world fn evicted batches).flatMap Runner.commands) attempts)
    {i j a : Nat} {type : String} {input : Payloads} {options : ActivityOptions} {resp : Resp σ}
    (hcall : r.opAt i = .scheduleActivity type input options)
    (hi : r.trace[i]? = some (.future a)) (hget : r.opAt j = .get a)
    (hj : r.trace[j]? = some resp) : ActivityAnswer attempts type input resp := by
  obtain ⟨s, k, c, ending, -, hcalls, hc, hend, rfl⟩ :=
    h.call_answered hr (by rw [hcall]; rfl) hi hget hj
  rw [hcall] at hcalls
  cases k with
  | activity id =>
    obtain rfl : c = s.runner.scheduleActivityCommand id type input options := hcalls
    obtain ⟨sid, type', hsched, e, he, hd⟩ := hend
    have hasked {t : ActivityAttempt ω} (ht : t ∈ attempts) (hid : t.task.activityId = id) :
        t.task.activityType = type ∧ t.task.input = input := by
      obtain ⟨a', ha', haid, hatype, hain, -⟩ := hserved.handedOut t ht
      have hsame := Command.eq_of_names (h.nodup_ids hr).1 ha' hc rfl
        (congrArg some (haid.symm.trans hid).symm)
      injection hsame with hsame
      subst hsame
      exact ⟨hatype, hain⟩
    rcases EventAttributes.delivery?_activity hd with ⟨result, ha, rfl⟩ | ⟨f, ha, rfl⟩ | rfl | rfl
    · obtain ⟨t, ht, hid, token, identity, sent, hsent, rfl⟩ :=
        hserved.completed e he sid result ha id type' hsched
      obtain ⟨htype, hinput⟩ := hasked ht hid
      obtain ⟨run, hrun, hout, hnow⟩ := t.handler.of_completed t.task t.world hsent
      exact .returned ht ⟨htype, hinput, hrun⟩ hout hnow
    · obtain ⟨t, ht, hid, token, identity, hsent⟩ :=
        hserved.failed e he sid f ha id type' hsched
      obtain ⟨htype, hinput⟩ := hasked ht hid
      rcases t.handler.of_failed t.task t.world hsent with ⟨hnone, rfl⟩ | ⟨run, hrun, e, he, hf⟩
      · rw [htype] at hnone ⊢
        exact .unregistered ht hnone
      · exact .threw ht ⟨htype, hinput, hrun⟩ he hf
    · exact .timedOut
    · exact .cancelled
  | _ => exact hcalls.elim

end Answering

/-- A run of a workflow with the tasks that served it. -/
structure WorkflowRun (τ : Type) where
  fuel : Nat
  info : WorkflowInfo
  world : World τ
  fn : WorkflowFn τ
  evicted : Nat → Bool
  batches : List History

namespace WorkflowRun

variable {τ : Type} (x : WorkflowRun τ)

def Conducted : Prop :=
  TemporalSdk.Conducted x.fuel x.info x.world x.fn x.evicted x.batches

/-- The runner that served the last task. -/
def final? : Option (Runner τ) :=
  (Runner.tasks x.fuel x.info x.world x.fn x.evicted x.batches).getLast?

/-- The run was started with this input and its body has come to this end. -/
structure Ends (type : String) (input : Payloads) (r : Runner τ) (o : Outcome) : Prop where
  type : x.info.workflowType = type
  final : x.final? = some r
  input : r.input = input
  outcome : r.program r.trace = .finish o

end WorkflowRun

/-- The server starts a child for a command it has accepted, with the input of the command, and
closes it for the parent as the run itself was closed. None of the children continues as new. -/
structure ChildrenServed {τ : Type} (h : History) (cmds : List Command)
    (children : Set (WorkflowRun τ)) : Prop where
  conducted : ∀ x ∈ children, x.Conducted
  started : ∀ x ∈ children, ∃ ns queue input policy header rest,
    .startChildWorkflowExecution ns x.info.workflowId x.info.workflowType queue input policy ∈
        cmds ∧
      x.batches.flatten =
        ⟨1, .workflowExecutionStarted x.info.workflowType input header⟩ :: rest ∧
      ∀ e ∈ rest, e.attributes.isStarted = false
  completed : ∀ e ∈ h, ∀ id result, e.attributes = .childWorkflowExecutionCompleted id result →
    ∃ x ∈ children, x.info.workflowId = id ∧
      ∃ r, x.final? = some r ∧ r.terminalCommand = some (.completeWorkflowExecution result)
  failed : ∀ e ∈ h, ∀ id failure, e.attributes = .childWorkflowExecutionFailed id failure →
    ∃ x ∈ children, x.info.workflowId = id ∧
      ∃ r, x.final? = some r ∧ r.terminalCommand = some (.failWorkflowExecution failure)

/-- What a call of a child workflow is answered with. -/
inductive ChildAnswer {σ τ : Type} (children : Set (WorkflowRun τ)) (type : String)
    (input : Payloads) : Resp σ → Prop
  | returned {x : WorkflowRun τ} {r : Runner τ} {result : Payloads} (hx : x ∈ children)
      (ends : x.Ends type input r (.returned result)) :
      ChildAnswer children type input (.got result)
  | failed {x : WorkflowRun τ} {r : Runner τ} {o : Outcome} {failure : Failure} (hx : x ∈ children)
      (ends : x.Ends type input r o)
      (reported : (r.finishBody o).terminalCommand = some (.failWorkflowExecution failure)) :
      ChildAnswer children type input (.activityError failure.type failure.message)
  | cancelled : ChildAnswer children type input (.activityError "CanceledError"
      "child workflow cancelled")

theorem EventAttributes.delivery?_child {a : EventAttributes} {id : String} {c : Closing}
    (h : a.delivery? = some (.child id c)) :
    (∃ result, a = .childWorkflowExecutionCompleted id result ∧ c = .completed result) ∨
    (∃ f, a = .childWorkflowExecutionFailed id f ∧ c = .failed f.type f.message) ∨
    c = .failed "CanceledError" "child workflow cancelled" := by
  cases a <;> simp only [delivery?, Option.some.injEq, Delivery.child.injEq, reduceCtorEq] at h
  case childWorkflowExecutionCompleted id' result =>
    obtain ⟨rfl, rfl⟩ := h
    exact .inl ⟨result, rfl, rfl⟩
  case childWorkflowExecutionFailed id' f =>
    obtain ⟨rfl, rfl⟩ := h
    exact .inr (.inl ⟨f, rfl, rfl⟩)
  case childWorkflowExecutionCanceled id' => exact .inr (.inr h.2.symm)

section Calling

variable {σ τ : Type} {fuel : Nat} {info : WorkflowInfo} {world : World σ} {fn : WorkflowFn σ}
  {evicted : Nat → Bool} {batches : List History} {r : Runner σ}

/-- What `Get` gives a workflow of a child it has called is how the body of a child came to its end
on the input of the call. -/
theorem Conducted.child_answered (h : Conducted fuel info world fn evicted batches)
    (hr : (Runner.tasks fuel info world fn evicted batches).getLast? = some r)
    {children : Set (WorkflowRun τ)}
    (hserved : ChildrenServed batches.flatten
      ((Runner.tasks fuel info world fn evicted batches).flatMap Runner.commands) children)
    {i j a : Nat} {type : String} {input : Payloads} {options : ChildWorkflowOptions}
    {resp : Resp σ} (hcall : r.opAt i = .startChildWorkflow type input options)
    (hi : r.trace[i]? = some (.future a)) (hget : r.opAt j = .get a)
    (hj : r.trace[j]? = some resp) : ChildAnswer children type input resp := by
  obtain ⟨s, k, c, ending, -, hcalls, hc, hend, rfl⟩ :=
    h.call_answered hr (by rw [hcall]; rfl) hi hget hj
  rw [hcall] at hcalls
  cases k with
  | child id =>
    obtain rfl : c = .startChildWorkflowExecution s.info.ns id type
      (s.runner.queueOr options.taskQueue) input options.parentClosePolicy := hcalls
    obtain ⟨e, he, hd⟩ := hend
    have hcalled {x : WorkflowRun τ} (hx : x ∈ children) (hid : x.info.workflowId = id) {q : Runner τ}
        (hq : x.final? = some q) : x.info.workflowType = type ∧ q.input = input := by
      obtain ⟨ns, queue, input', policy, header, rest, hcmd, hflat, hrest⟩ := hserved.started x hx
      have hsame := Command.eq_of_names (h.nodup_ids hr).2 hcmd hc rfl (congrArg some hid.symm)
      injection hsame with _ _ htype _ hinput _
      exact ⟨htype, hinput ▸ (hserved.conducted x hx).input_eq hq hflat hrest⟩
    rcases EventAttributes.delivery?_child hd with ⟨result, ha, rfl⟩ | ⟨f, ha, rfl⟩ | rfl
    · obtain ⟨x, hx, hid, q, hq, hterm⟩ := hserved.completed e he id result ha
      obtain ⟨htype, hinput⟩ := hcalled hx hid hq
      obtain ⟨o, hne, hout, hreport⟩ := (hserved.conducted x hx).closed hq hterm
      cases o with
      | otherException => exact absurd rfl hne
      | returned result' =>
        cases hreport
        exact .returned hx ⟨htype, hq, hinput, hout⟩
      | _ => cases hreport
    · obtain ⟨x, hx, hid, q, hq, hterm⟩ := hserved.failed e he id f ha
      obtain ⟨htype, hinput⟩ := hcalled hx hid hq
      obtain ⟨o, -, hout, hreport⟩ := (hserved.conducted x hx).closed hq hterm
      exact .failed hx ⟨htype, hq, hinput, hout⟩ hreport
    · exact .cancelled
  | _ => exact hcalls.elim

end Calling

/-- What the body has been given of everything it called. -/
structure Runner.CallsAnswered {σ ω τ : Type} (r : Runner σ) (attempts : Set (ActivityAttempt ω))
    (children : Set (WorkflowRun τ)) : Prop where
  activities : ∀ i j a type input options resp, r.opAt i = .scheduleActivity type input options →
    r.trace[i]? = some (.future a) → r.opAt j = .get a → r.trace[j]? = some resp →
      ActivityAnswer attempts type input resp
  children : ∀ i j a type input options resp, r.opAt i = .startChildWorkflow type input options →
    r.trace[i]? = some (.future a) → r.opAt j = .get a → r.trace[j]? = some resp →
      ChildAnswer children type input resp

/-- However the tasks of an execution were cut and whichever runners were lost, each call has been
answered with what became of it elsewhere, and with nothing that became of another. -/
theorem Conducted.calls_answered {σ ω τ : Type} {fuel : Nat} {info : WorkflowInfo}
    {world : World σ} {fn : WorkflowFn σ} {evicted : Nat → Bool} {batches : List History}
    {r : Runner σ} (h : Conducted fuel info world fn evicted batches)
    (hr : (Runner.tasks fuel info world fn evicted batches).getLast? = some r)
    {attempts : Set (ActivityAttempt ω)} {children : Set (WorkflowRun τ)}
    (hactivities : ActivitiesServed batches.flatten
      ((Runner.tasks fuel info world fn evicted batches).flatMap Runner.commands) attempts)
    (hchildren : ChildrenServed batches.flatten
      ((Runner.tasks fuel info world fn evicted batches).flatMap Runner.commands) children) :
    r.CallsAnswered attempts children := by
  constructor
  · intro i j a type input options resp hcall hi hget hj
    exact h.activity_answered hr hactivities hcall hi hget hj
  · intro i j a type input options resp hcall hi hget hj
    exact h.child_answered hr hchildren hcall hi hget hj

/-- A body that has an activity double its input. -/
def doubling : WorkflowFn Unit where
  init := ()
  body input answers :=
    match answers with
    | [] => .scheduleActivity "Double" input {}
    | [_] => .get 0
    | [_, .got result] => .finish (.returned result)
    | _ => .finish (.returned [])

/-- A body that has an activity double its input, and a child what came of it. -/
def quadrupling : WorkflowFn Unit where
  init := ()
  body input answers :=
    match answers with
    | [] => .scheduleActivity "Double" input {}
    | [_] => .get 0
    | [_, .got result] => .startChildWorkflow "Doubling" result {}
    | [_, _, _] => .get 1
    | [_, _, _, .got result] => .finish (.returned result)
    | _ => .finish (.returned [])

def sevens (n : Nat) : Payloads := List.replicate n { data := [7] }

def quadruplingInfo : WorkflowInfo where
  workflowId := "quadrupling-1"
  workflowType := "Quadrupling"

def quadruplingTasks : List History :=
  [[⟨1, .workflowExecutionStarted "Quadrupling" (sevens 1) []⟩, ⟨2, .other⟩, ⟨3, .other⟩],
    [⟨4, .other⟩, ⟨5, .activityTaskScheduled "0" "Double"⟩,
      ⟨6, .activityTaskCompleted 5 (sevens 2)⟩, ⟨7, .other⟩, ⟨8, .other⟩],
    [⟨9, .other⟩, ⟨10, .startChildWorkflowExecutionInitiated "quadrupling-1_c0" "Doubling"⟩,
      ⟨11, .childWorkflowExecutionCompleted "quadrupling-1_c0" (sevens 4)⟩, ⟨12, .other⟩,
      ⟨13, .other⟩]]

/-- The worker that is handed its activity task. -/
def doublingAttempt : ActivityAttempt Unit where
  handler :=
    { identity := "worker"
      taskQueue := "queue"
      activities := fun name =>
        if name = "Double" then
          some fun ctx args w => { outcome := .ok (args ++ args), context := ctx, world := w }
        else none
      interceptors := []
      failureConverter := none
      stub := fun _ w => (⟨.ok, ""⟩, w) }
  task :=
    { taskToken := "token", activityId := "0", activityType := "Double"
      workflowId := "quadrupling-1", input := sevens 1 }
  world := ()

def doublingChild : WorkflowRun Unit where
  fuel := 10
  info := { workflowId := "quadrupling-1_c0", workflowType := "Doubling" }
  world := .plain .tagged
  fn := doubling
  evicted n := n == 1
  batches :=
    [[⟨1, .workflowExecutionStarted "Doubling" (sevens 2) []⟩, ⟨2, .other⟩, ⟨3, .other⟩],
      [⟨4, .other⟩, ⟨5, .activityTaskScheduled "0" "Double"⟩,
        ⟨6, .activityTaskCompleted 5 (sevens 4)⟩, ⟨7, .other⟩, ⟨8, .other⟩]]

theorem doubling_waiting (input : Payloads) (answers : List (Resp Unit)) :
    ((Runner.chain (.plain .tagged) doubling).body input answers).Waiting (.plain .tagged) := by
  change ((doubling.body input answers).Waiting _)
  unfold doubling
  dsimp only
  split <;> exact ⟨trivial, rfl⟩

theorem quadrupling_waiting (input : Payloads) (answers : List (Resp Unit)) :
    ((Runner.chain (.plain .tagged) quadrupling).body input answers).Waiting (.plain .tagged) := by
  change ((quadrupling.body input answers).Waiting _)
  unfold quadrupling
  dsimp only
  split <;> exact ⟨by trivial, rfl⟩

theorem doublingChild_conducted : doublingChild.Conducted := by
  have hreports : (Runner.tasks 10 doublingChild.info (.plain .tagged) doubling (fun n => n == 1)
      doublingChild.batches).map Runner.report =
      [([.activityTaskScheduled "0" "Double"], none, false),
        ([], some (.completeWorkflowExecution (sevens 4)), false)] := by
    decide +kernel
  have hserved : Served doublingChild.batches.flatten :=
    ⟨by decide +kernel, by decide +kernel, by decide +kernel, by decide +kernel⟩
  exact .of_waiting doubling_waiting DataConverter.tagged_roundTrips hserved (by decide +kernel)
    (by decide +kernel) (.of_reports hreports (by decide +kernel) (by decide +kernel))
    (Runner.live_of_reports hreports (by decide +kernel))

theorem quadrupling_conducted : Conducted 10 quadruplingInfo (.plain .tagged) quadrupling
    (fun _ => false) quadruplingTasks := by
  have hreports : (Runner.tasks 10 quadruplingInfo (.plain .tagged) quadrupling (fun _ => false)
      quadruplingTasks).map Runner.report =
      [([.activityTaskScheduled "0" "Double"], none, false),
        ([.startChildWorkflowExecutionInitiated "quadrupling-1_c0" "Doubling"], none, false),
        ([], some (.completeWorkflowExecution (sevens 4)), false)] := by
    decide +kernel
  have hserved : Served quadruplingTasks.flatten :=
    ⟨by decide +kernel, by decide +kernel, by decide +kernel, by decide +kernel⟩
  exact .of_waiting quadrupling_waiting DataConverter.tagged_roundTrips hserved (by decide +kernel)
    (by decide +kernel) (.of_reports hreports (by decide +kernel) (by decide +kernel))
    (Runner.live_of_reports hreports (by decide +kernel))

/-- The events of the parent that are about its calls. -/
theorem mem_quadruplingTasks {e : HistoryEvent} (he : e ∈ quadruplingTasks.flatten) :
    e = ⟨1, .workflowExecutionStarted "Quadrupling" (sevens 1) []⟩ ∨ e.attributes = .other ∨
      e = ⟨5, .activityTaskScheduled "0" "Double"⟩ ∨
      e = ⟨6, .activityTaskCompleted 5 (sevens 2)⟩ ∨
      e = ⟨10, .startChildWorkflowExecutionInitiated "quadrupling-1_c0" "Doubling"⟩ ∨
      e = ⟨11, .childWorkflowExecutionCompleted "quadrupling-1_c0" (sevens 4)⟩ := by
  revert e
  decide

theorem quadrupling_answered : ∃ r,
    (Runner.tasks 10 quadruplingInfo (.plain .tagged) quadrupling (fun _ => false)
      quadruplingTasks).getLast? = some r ∧
    r.trace = [.future 0, .got (sevens 2), .future 1, .got (sevens 4)] ∧
    r.CallsAnswered {doublingAttempt} {doublingChild} := by
  have hlast : ((Runner.tasks 10 quadruplingInfo (.plain .tagged) quadrupling (fun _ => false)
      quadruplingTasks).getLast?.map Runner.trace) =
      some [.future 0, .got (sevens 2), .future 1, .got (sevens 4)] := by
    decide +kernel
  have hcmds : (Runner.tasks 10 quadruplingInfo (.plain .tagged) quadrupling (fun _ => false)
      quadruplingTasks).flatMap Runner.commands =
      [(Setting.ofHistory quadruplingInfo (.plain .tagged) quadrupling
          []).runner.scheduleActivityCommand "0" "Double" (sevens 1) {},
        .startChildWorkflowExecution "" "quadrupling-1_c0" "Doubling" "" (sevens 2)
          .terminate] := by
    decide +kernel
  have hfinal : (doublingChild.final?.map Runner.terminalCommand) =
      some (some (.completeWorkflowExecution (sevens 4))) := by
    decide +kernel
  obtain ⟨q, hq, hterm⟩ := Option.map_eq_some_iff.mp hfinal
  obtain ⟨r, hr, htrace⟩ := Option.map_eq_some_iff.mp hlast
  refine ⟨r, hr, htrace, quadrupling_conducted.calls_answered hr ?_ ?_⟩ <;> rw [hcmds]
  · constructor
    · rintro t rfl
      exact ⟨_, List.mem_cons_self, rfl, rfl, rfl, rfl⟩
    · intro e he sid result ha id type hs
      rcases mem_quadruplingTasks he with rfl | ho | rfl | rfl | rfl | rfl
      case inr.inl => cases ho.symm.trans ha
      all_goals cases ha
      rcases mem_quadruplingTasks hs with hs | hs | hs | hs | hs | hs <;> cases hs
      exact ⟨doublingAttempt, rfl, rfl, "token", "worker", some (sevens 2), by decide, rfl⟩
    · intro e he sid failure ha
      rcases mem_quadruplingTasks he with rfl | ho | rfl | rfl | rfl | rfl
      case inr.inl => cases ho.symm.trans ha
      all_goals cases ha
  · constructor
    · rintro x rfl
      exact doublingChild_conducted
    · rintro x rfl
      refine ⟨"", "", sevens 2, .terminate, [], _, List.mem_cons_of_mem _ List.mem_cons_self, rfl,
        by decide⟩
    · intro e he id result ha
      rcases mem_quadruplingTasks he with rfl | ho | rfl | rfl | rfl | rfl
      case inr.inl => cases ho.symm.trans ha
      all_goals cases ha
      exact ⟨doublingChild, rfl, rfl, q, hq, hterm⟩
    · intro e he id failure ha
      rcases mem_quadruplingTasks he with rfl | ho | rfl | rfl | rfl | rfl
      case inr.inl => cases ho.symm.trans ha
      all_goals cases ha

end TemporalSdk
