import TemporalSdk.Paging
import TemporalSdk.Payload

/-!
`ActivityTaskHandler::Handle` and `NexusTaskHandler::Handle`. In both the completion is sent from
inside the `try` block that runs the user's function, so a lost completion is caught like an
error of that function.
-/
namespace TemporalSdk

/-- What the user's code, an interceptor or an RPC wrapper throws. -/
inductive Thrown where
  | applicationError (message type : String) (nonRetryable : Bool)
  | stdException (what : String)
  | nonStd
  deriving DecidableEq, Repr, Inhabited

/-- `RpcError` and `NotFoundError` are `std::exception`s. -/
def RpcError.thrown : RpcError → Thrown
  | .rpcError message => .stdException message
  | .notFoundError message => .stdException message

/-- A polled activity task. -/
structure ActivityTask where
  taskToken : String := ""
  activityId : String := ""
  activityType : String := ""
  workflowId : String := ""
  runId : String := ""
  attempt : Nat := 1
  headers : Header := []
  input : Payloads := []
  deriving DecidableEq, Repr, Inhabited

/-- `activity::ActivityInfo` as a task fills it. -/
structure TaskActivityInfo extends ActivityInfo where
  activityId : String
  taskToken : String
  deriving DecidableEq, Repr, Inhabited

/-- `activity::Context`, less the heartbeats: these change the world around the handler only. -/
structure ActivityContext where
  info : TaskActivityInfo
  willCompleteAsync : Bool := false
  deriving DecidableEq, Repr, Inhabited

namespace ActivityContext

/-- `SetWillCompleteAsync`. -/
def setWillCompleteAsync (ctx : ActivityContext) : ActivityContext :=
  { ctx with willCompleteAsync := true }

/-- `defer_completion`. -/
def deferCompletion (ctx : ActivityContext) : String × ActivityContext :=
  (ctx.info.taskToken, ctx.setWillCompleteAsync)

end ActivityContext

/-- A call into user code that has ended: what it returned or threw, and what it left behind. -/
structure Execution (ω : Type) where
  outcome : Except Thrown Payloads
  context : ActivityContext
  world : ω

/-- `ActivityInboundInterceptor::ExecuteActivity`; `ω` is everything outside the handler. -/
abbrev ExecuteActivity (ω : Type) := ActivityContext → Payloads → Header → ω → Execution ω

/-- `Interceptor::InterceptActivity`: a link before `next`, or none. -/
abbrev InterceptActivity (ω : Type) :=
  ExecuteActivity ω → Except Thrown (Option (ExecuteActivity ω))

/-- `worker::ActivityFn` of a remote activity. -/
abbrev RemoteActivityFn (ω : Type) := ActivityContext → Payloads → ω → Execution ω

/-- `RootActivityInbound`. -/
def rootActivityInbound {ω : Type} (fn : RemoteActivityFn ω) : ExecuteActivity ω :=
  fun ctx args _ w => fn ctx args w

/-- `BuildActivityInboundChain`: from the last factory to the first, which ends up outermost. -/
def buildActivityInboundChain {ω : Type} (factories : List (InterceptActivity ω))
    (terminal : ExecuteActivity ω) : Except Thrown (ExecuteActivity ω) :=
  factories.reverse.foldlM (fun next factory => do return (← factory next).getD next) terminal

/-- The calls an activity task can be answered with. -/
inductive ActivityResponse where
  | respondActivityTaskCompleted (taskToken identity : String) (result : Option Payloads)
  | respondActivityTaskFailed (taskToken identity : String) (failure : Failure)
  deriving DecidableEq, Repr, Inhabited

namespace ActivityResponse

def name : ActivityResponse → String
  | respondActivityTaskCompleted .. => "RespondActivityTaskCompleted"
  | respondActivityTaskFailed .. => "RespondActivityTaskFailed"

def isFailed : ActivityResponse → Bool
  | respondActivityTaskCompleted .. => false
  | respondActivityTaskFailed .. => true

end ActivityResponse

/-- A call of `Handle` that has ended: the response RPCs it attempted, and what it let through. -/
structure Answered (R ω : Type) where
  attempts : List R
  escaped : Option Thrown
  world : ω

/-- One response RPC through `UnaryCall`. -/
def Answered.call {R ω : Type} (name : R → String) (stub : R → ω → GrpcStatus × ω) (response : R)
    (w : ω) : Answered R ω where
  attempts := [response]
  escaped := match unaryCall (name response) false () ((stub response w).1, ()) with
    | .ok _ => none
    | .error e => some e.thrown
  world := (stub response w).2

/-- The handler with its client: `stub` is the server's answer to a response RPC. An installed
failure converter may throw itself. -/
structure ActivityTaskHandler (ω : Type) where
  identity : String
  taskQueue : String
  activities : String → Option (RemoteActivityFn ω)
  interceptors : List (InterceptActivity ω)
  failureConverter : Option (Thrown → Except Thrown Failure)
  stub : ActivityResponse → ω → GrpcStatus × ω

namespace ActivityTaskHandler

variable {ω : Type} (h : ActivityTaskHandler ω) (task : ActivityTask)

def send (response : ActivityResponse) (w : ω) : Answered ActivityResponse ω :=
  Answered.call ActivityResponse.name h.stub response w

def info : TaskActivityInfo where
  activityType := task.activityType
  workflowId := task.workflowId
  runId := task.runId
  taskQueue := h.taskQueue
  headers := task.headers
  attempt := task.attempt
  activityId := task.activityId
  taskToken := task.taskToken

/-- The registered function behind its interceptors. -/
def execute (fn : RemoteActivityFn ω) (w : ω) : Execution ω :=
  let ctx : ActivityContext := { info := h.info task }
  match buildActivityInboundChain h.interceptors (rootActivityInbound fn) with
  | .error e => { outcome := .error e, context := ctx, world := w }
  | .ok head => head ctx task.input task.headers w

def completion (result : Payloads) : ActivityResponse :=
  .respondActivityTaskCompleted task.taskToken h.identity
    (if result.isEmpty then none else some result)

/-- The body of the `try` block after the function has come back: `escaped` is what reaches the
catch clauses. -/
def complete (run : Execution ω) : Answered ActivityResponse ω :=
  match run.outcome with
  | .error e => { attempts := [], escaped := some e, world := run.world }
  | .ok result =>
    if run.context.willCompleteAsync then { attempts := [], escaped := none, world := run.world }
    else h.send (h.completion task result) run.world

/-- The failure either catch clause reports. -/
def failureOf (fallback : Failure) (e : Thrown) : Except Thrown Failure :=
  match h.failureConverter with
  | some errorToFailure => errorToFailure e
  | none => .ok fallback

/-- Either catch clause past the choice of its default failure. -/
def report (fallback : Failure) (e : Thrown) (w : ω) : Answered ActivityResponse ω :=
  match h.failureOf fallback e with
  | .error e' => { attempts := [], escaped := some e', world := w }
  | .ok failure => h.send (.respondActivityTaskFailed task.taskToken h.identity failure) w

/-- The two catch clauses; what is no `std::exception` goes on. -/
def fail (e : Thrown) (w : ω) : Answered ActivityResponse ω :=
  match e with
  | .applicationError message type nonRetryable =>
    h.report task (makeApplicationFailure message type nonRetryable) e w
  | .stdException what => h.report task (makeApplicationFailure what "std::exception" false) e w
  | .nonStd => { attempts := [], escaped := some e, world := w }

/-- `ActivityTaskHandler::Handle`. -/
def handle (w : ω) : Answered ActivityResponse ω :=
  match h.activities task.activityType with
  | none =>
    h.send (.respondActivityTaskFailed task.taskToken h.identity
      (makeApplicationFailure ("no activity registered for type: " ++ task.activityType)
        "NotRegisteredError" false)) w
  | some fn =>
    let tried := h.complete task (h.execute task fn w)
    match tried.escaped with
    | none => tried
    | some e =>
      let caught := h.fail task e tried.world
      { caught with attempts := tried.attempts ++ caught.attempts }

end ActivityTaskHandler

/-- `nexus::Request`; only start-operation requests are served. -/
inductive NexusRequest where
  | startOperation (service operation : String) (payload : Payload)
  | other
  deriving DecidableEq, Repr, Inhabited

/-- A polled Nexus task. -/
structure NexusTask where
  taskToken : String := ""
  request : NexusRequest
  deriving DecidableEq, Repr, Inhabited

/-- The calls a Nexus task can be answered with. -/
inductive NexusResponse where
  | respondNexusTaskCompleted (ns identity taskToken : String) (payload : Payload)
  | respondNexusTaskFailed (ns identity taskToken errorType message : String)
  deriving DecidableEq, Repr, Inhabited

namespace NexusResponse

def name : NexusResponse → String
  | respondNexusTaskCompleted .. => "RespondNexusTaskCompleted"
  | respondNexusTaskFailed .. => "RespondNexusTaskFailed"

def isFailed : NexusResponse → Bool
  | respondNexusTaskCompleted .. => false
  | respondNexusTaskFailed .. => true

end NexusResponse

/-- `worker::NexusOperationFn`. -/
abbrev NexusOperationFn (ω : Type) := Payload → ω → Except Thrown Payload × ω

structure NexusTaskHandler (ω : Type) where
  ns : String
  identity : String
  operations : String → Option (NexusOperationFn ω)
  stub : NexusResponse → ω → GrpcStatus × ω

/-- What `e.what()` says; the second handler has one clause for every `std::exception`. -/
def Thrown.what? : Thrown → Option String
  | .applicationError message _ _ => some message
  | .stdException what => some what
  | .nonStd => none

namespace NexusTaskHandler

variable {ω : Type} (h : NexusTaskHandler ω) (task : NexusTask)

/-- `Key`: the two names with a zero character between them. -/
def key (service operation : String) : String :=
  service ++ (String.singleton (Char.ofNat 0) ++ operation)

def send (response : NexusResponse) (w : ω) : Answered NexusResponse ω :=
  Answered.call NexusResponse.name h.stub response w

def failed (errorType message : String) : NexusResponse :=
  .respondNexusTaskFailed h.ns h.identity task.taskToken errorType message

def completion (result : Payload) : NexusResponse :=
  .respondNexusTaskCompleted h.ns h.identity task.taskToken result

/-- The body of the `try` block after the operation has come back. -/
def complete (run : Except Thrown Payload × ω) : Answered NexusResponse ω :=
  match run.1 with
  | .error e => { attempts := [], escaped := some e, world := run.2 }
  | .ok result => h.send (h.completion task result) run.2

/-- `NexusTaskHandler::Handle`. -/
def handle (w : ω) : Answered NexusResponse ω :=
  match task.request with
  | .other =>
    h.send (h.failed task "NOT_IMPLEMENTED" "only start-operation Nexus requests are supported") w
  | .startOperation service operation payload =>
    match h.operations (key service operation) with
    | none =>
      h.send (h.failed task "NOT_FOUND" ("no Nexus operation registered for service '" ++ service ++
        "' operation '" ++ operation ++ "'")) w
    | some fn =>
      let tried := h.complete task (fn payload w)
      match tried.escaped.bind Thrown.what? with
      | none => tried
      | some what =>
        let caught := h.send (h.failed task "INTERNAL" what) tried.world
        { caught with attempts := tried.attempts ++ caught.attempts }

end NexusTaskHandler

section Calls

variable {R ω : Type} (name : R → String) (stub : R → ω → GrpcStatus × ω) (response : R) (w : ω)

/-- What a failed response RPC throws. -/
def Thrown.ofStatus (name : String) (status : GrpcStatus) : Thrown :=
  .stdException ("rpc " ++ name ++ " failed: " ++ status.message)

/-- A response RPC is no poll: it throws on every status but `OK`. -/
theorem Answered.call_escaped :
    (Answered.call name stub response w).escaped =
      if (stub response w).1.code = .ok then none
      else some (.ofStatus (name response) (stub response w).1) := by
  unfold Answered.call unaryCall Thrown.ofStatus
  by_cases hok : (stub response w).1.code = .ok
  · simp [hok]
  · by_cases hfound : (stub response w).1.code = .notFound
    · simp [hfound, RpcError.thrown]
    · simp [hok, hfound, RpcError.thrown]

end Calls

namespace ActivityTaskHandler

variable {ω : Type} (h : ActivityTaskHandler ω) (task : ActivityTask) (w : ω)

/-- The run of the registered function, if there is one. -/
def execution? : Option (Execution ω) :=
  (h.activities task.activityType).map fun fn => h.execute task fn w

/-- A catch clause sends a failure for this exception. -/
def Reports (e : Thrown) : Prop :=
  e ≠ .nonStd ∧ ∀ errorToFailure ∈ h.failureConverter, (errorToFailure e).isOk = true

/-- What the task's answer owes to the run of the function: no failure after a success, one
response at most, and none for a deferred completion. -/
structure AnswersHonestly : Prop where
  success_not_failed : (∃ run ∈ h.execution? task w, run.outcome.isOk = true) →
    ∀ r ∈ (h.handle task w).attempts, r.isFailed = false
  at_most_one : (h.handle task w).attempts.length ≤ 1
  none_if_deferred : (∃ run ∈ h.execution? task w, run.context.willCompleteAsync = true) →
    (h.handle task w).attempts = []

theorem report_attempts (fallback : Failure) {e : Thrown} (he : e ≠ .nonStd) (w : ω) :
    (h.Reports e ∧ ∃ failure, (h.report task fallback e w).attempts =
      [.respondActivityTaskFailed task.taskToken h.identity failure]) ∨
    (¬ h.Reports e ∧ (h.report task fallback e w).attempts = []) := by
  unfold Reports report failureOf
  cases h.failureConverter with
  | none =>
    left
    exact ⟨⟨he, by simp⟩, fallback, rfl⟩
  | some errorToFailure =>
    cases hconv : errorToFailure e with
    | ok failure =>
      left
      refine ⟨⟨he, ?_⟩, failure, by simp only [hconv]; rfl⟩
      simp [hconv, Except.isOk, Except.toBool]
    | error e' =>
      right
      refine ⟨?_, by simp only [hconv]⟩
      simp [hconv, Except.isOk, Except.toBool]

theorem fail_attempts (e : Thrown) (w : ω) :
    (h.Reports e ∧ ∃ failure, (h.fail task e w).attempts =
      [.respondActivityTaskFailed task.taskToken h.identity failure]) ∨
    (¬ h.Reports e ∧ (h.fail task e w).attempts = []) := by
  cases e with
  | applicationError message type nonRetryable =>
    exact h.report_attempts task _ (by simp) w
  | stdException what => exact h.report_attempts task _ (by simp) w
  | nonStd => exact .inr ⟨fun hr => hr.1 rfl, rfl⟩

/-- The answer to a task whose function is registered, by how its run ended. -/
theorem handle_attempts {run : Execution ω} (hrun : run ∈ h.execution? task w) :
    (h.handle task w).attempts =
      match (h.complete task run).escaped with
      | none => (h.complete task run).attempts
      | some e =>
        (h.complete task run).attempts ++ (h.fail task e (h.complete task run).world).attempts := by
  obtain ⟨fn, hfn, rfl⟩ := Option.map_eq_some_iff.mp hrun
  unfold handle
  rw [hfn]
  simp only
  cases (h.complete task (h.execute task fn w)).escaped <;> rfl

/-- The completion RPC, if it is attempted, succeeds, and the function does not throw after it
deferred its completion. An exception that no catch clause reports does no harm. -/
def Delivered : Prop :=
  ∀ run ∈ h.execution? task w,
    match run.outcome with
    | .ok result => run.context.willCompleteAsync = true ∨
      (h.stub (h.completion task result) run.world).1.code = .ok ∨
      ¬ h.Reports (.ofStatus "RespondActivityTaskCompleted"
        (h.stub (h.completion task result) run.world).1)
    | .error e => run.context.willCompleteAsync = false ∨ ¬ h.Reports e

/-- After a function that returned: the completion alone, and a failure behind it exactly if the
completion is lost and the loss is reported. -/
theorem attempts_of_returned {run : Execution ω} (hrun : run ∈ h.execution? task w)
    {result : Payloads} (hres : run.outcome = .ok result)
    (hnow : run.context.willCompleteAsync = false) :
    let status := (h.stub (h.completion task result) run.world).1
    ((status.code = .ok ∨ ¬ h.Reports (.ofStatus "RespondActivityTaskCompleted" status)) ∧
      (h.handle task w).attempts = [h.completion task result]) ∨
    (status.code ≠ .ok ∧ h.Reports (.ofStatus "RespondActivityTaskCompleted" status) ∧
      ∃ failure, (h.handle task w).attempts = [h.completion task result,
        .respondActivityTaskFailed task.taskToken h.identity failure]) := by
  intro status
  have htried : h.complete task run = h.send (h.completion task result) run.world := by
    simp only [complete, hres, hnow, Bool.false_eq_true, ↓reduceIte]
  have hescaped := Answered.call_escaped ActivityResponse.name h.stub (h.completion task result)
    run.world
  have hhandle := h.handle_attempts task w hrun
  rw [htried, send, hescaped] at hhandle
  by_cases hok : status.code = .ok
  · left
    rw [if_pos hok] at hhandle
    exact ⟨.inl hok, hhandle⟩
  · rw [if_neg hok] at hhandle
    rcases h.fail_attempts task (.ofStatus "RespondActivityTaskCompleted" status)
      (h.send (h.completion task result) run.world).world with ⟨hrep, failure, hf⟩ | ⟨hrep, hf⟩
    · right
      refine ⟨hok, hrep, failure, ?_⟩
      rw [hhandle]
      exact congrArg ([h.completion task result] ++ ·) hf
    · left
      refine ⟨.inr hrep, ?_⟩
      rw [hhandle]
      exact congrArg ([h.completion task result] ++ ·) hf

theorem attempts_of_deferred {run : Execution ω} (hrun : run ∈ h.execution? task w)
    {result : Payloads} (hres : run.outcome = .ok result)
    (hlater : run.context.willCompleteAsync = true) : (h.handle task w).attempts = [] := by
  rw [h.handle_attempts task w hrun]
  simp only [complete, hres, hlater, ↓reduceIte]

theorem attempts_of_threw {run : Execution ω} (hrun : run ∈ h.execution? task w) {e : Thrown}
    (hthrew : run.outcome = .error e) :
    (h.Reports e ∧ ∃ failure, (h.handle task w).attempts =
      [.respondActivityTaskFailed task.taskToken h.identity failure]) ∨
    (¬ h.Reports e ∧ (h.handle task w).attempts = []) := by
  rw [h.handle_attempts task w hrun]
  simp only [complete, hthrew, List.nil_append]
  exact h.fail_attempts task e run.world

theorem attempts_of_unregistered (hnone : h.execution? task w = none) :
    (h.handle task w).attempts.length = 1 := by
  have hfn : h.activities task.activityType = none := Option.map_eq_none_iff.mp hnone
  unfold handle
  rw [hfn]
  rfl

theorem answersHonestly_of_unregistered (hnone : h.execution? task w = none) :
    h.AnswersHonestly task w := by
  refine ⟨?_, (h.attempts_of_unregistered task w hnone).le, ?_⟩
  · rintro ⟨run, hrun, -⟩
    rw [hnone] at hrun
    cases hrun
  · rintro ⟨run, hrun, -⟩
    rw [hnone] at hrun
    cases hrun

theorem execution?_unique {run run' : Execution ω} (hrun : run ∈ h.execution? task w)
    (hrun' : run' ∈ h.execution? task w) : run' = run :=
  Option.mem_unique hrun' hrun

/-- The answer keeps to the run of the function exactly if the completion was delivered. -/
theorem answersHonestly_iff_delivered : h.AnswersHonestly task w ↔ h.Delivered task w := by
  cases hrun : h.execution? task w with
  | none =>
    refine iff_of_true (h.answersHonestly_of_unregistered task w hrun) ?_
    intro run hmem
    rw [hrun] at hmem
    cases hmem
  | some run =>
    have hall {P : Execution ω → Prop} : (∀ run' ∈ h.execution? task w, P run') ↔ P run :=
      ⟨fun hP => hP run hrun, fun hP run' hrun' => h.execution?_unique task w hrun hrun' ▸ hP⟩
    have hex {P : Execution ω → Prop} : (∃ run' ∈ h.execution? task w, P run') → P run :=
      fun ⟨run', hrun', hP⟩ => h.execution?_unique task w hrun hrun' ▸ hP
    rw [Delivered, hall]
    cases houtcome : run.outcome with
    | ok result =>
      cases hasync : run.context.willCompleteAsync with
      | true =>
        have hnone := h.attempts_of_deferred task w hrun houtcome hasync
        refine iff_of_true ⟨?_, by simp [hnone], fun _ => hnone⟩ (.inl rfl)
        simp [hnone]
      | false =>
        rcases h.attempts_of_returned task w hrun houtcome hasync with ⟨hgood, hone⟩ |
          ⟨hlost, hrep, failure, htwo⟩
        · refine iff_of_true ⟨?_, by simp [hone], ?_⟩ (.inr hgood)
          · intro _ r hr
            rw [hone, List.mem_singleton] at hr
            rw [hr]
            rfl
          · intro hdeferred
            rw [hex hdeferred] at hasync
            cases hasync
        · refine iff_of_false ?_ (by simp [hlost, hrep])
          intro hhonest
          have hlen := hhonest.at_most_one
          rw [htwo] at hlen
          simp at hlen
    | error e =>
      have hthrew : (∃ run' ∈ h.execution? task w, run'.outcome.isOk = true) → False := by
        intro hok
        have hrunOk := hex hok
        rw [houtcome] at hrunOk
        cases hrunOk
      have hresp := h.attempts_of_threw task w hrun houtcome
      have hlen : (h.handle task w).attempts.length ≤ 1 := by
        rcases hresp with ⟨-, failure, hone⟩ | ⟨-, hnone⟩
        · simp [hone]
        · simp [hnone]
      cases hasync : run.context.willCompleteAsync with
      | false =>
        refine iff_of_true ⟨fun hok => (hthrew hok).elim, hlen, ?_⟩ (.inl rfl)
        intro hdeferred
        rw [hex hdeferred] at hasync
        cases hasync
      | true =>
        rcases hresp with ⟨hrep, failure, hone⟩ | ⟨hrep, hnone⟩
        · refine iff_of_false ?_ (by simp [hrep])
          intro hhonest
          have := hhonest.none_if_deferred ⟨run, hrun, hasync⟩
          rw [hone] at this
          cases this
        · exact iff_of_true ⟨fun hok => (hthrew hok).elim, hlen, fun _ => hnone⟩ (.inr hrep)

end ActivityTaskHandler

namespace NexusTaskHandler

variable {ω : Type} (h : NexusTaskHandler ω) (task : NexusTask) (w : ω)

/-- The run of the registered operation, if the task starts one. -/
def execution? : Option (Except Thrown Payload × ω) :=
  match task.request with
  | .other => none
  | .startOperation service operation payload =>
    (h.operations (key service operation)).map fun fn => fn payload w

/-- No failure after a success, and one response at most. -/
structure AnswersHonestly : Prop where
  success_not_failed : (∃ run ∈ h.execution? task w, run.1.isOk = true) →
    ∀ r ∈ (h.handle task w).attempts, r.isFailed = false
  at_most_one : (h.handle task w).attempts.length ≤ 1

/-- The completion RPC, if it is attempted, succeeds. -/
def Delivered : Prop :=
  ∀ run ∈ h.execution? task w, ∀ result, run.1 = .ok result →
    (h.stub (h.completion task result) run.2).1.code = .ok

theorem attempts_of_no_run (hnone : h.execution? task w = none) :
    (h.handle task w).attempts.length = 1 := by
  unfold handle
  unfold execution? at hnone
  cases hreq : task.request with
  | other => rfl
  | startOperation service operation payload =>
    rw [hreq] at hnone
    have hfn : h.operations (key service operation) = none := Option.map_eq_none_iff.mp hnone
    simp only [hfn]
    rfl

/-- The answer to a task whose operation is registered, by how its run ended. -/
theorem handle_attempts {run : Except Thrown Payload × ω} (hrun : run ∈ h.execution? task w) :
    (h.handle task w).attempts =
      match (h.complete task run).escaped.bind Thrown.what? with
      | none => (h.complete task run).attempts
      | some what => (h.complete task run).attempts ++ [h.failed task "INTERNAL" what] := by
  unfold execution? at hrun
  unfold handle
  cases hreq : task.request with
  | other =>
    rw [hreq] at hrun
    cases hrun
  | startOperation service operation payload =>
    rw [hreq] at hrun
    obtain ⟨fn, hfn, rfl⟩ := Option.map_eq_some_iff.mp hrun
    simp only [hfn]
    cases (h.complete task (fn payload w)).escaped.bind Thrown.what? <;> rfl

theorem attempts_of_returned {run : Except Thrown Payload × ω} (hrun : run ∈ h.execution? task w)
    {result : Payload} (hres : run.1 = .ok result) :
    (h.handle task w).attempts =
      if (h.stub (h.completion task result) run.2).1.code = .ok then [h.completion task result]
      else [h.completion task result, h.failed task "INTERNAL"
        ("rpc RespondNexusTaskCompleted failed: " ++
          (h.stub (h.completion task result) run.2).1.message)] := by
  have htried : h.complete task run = h.send (h.completion task result) run.2 := by
    simp only [complete, hres]
  rw [h.handle_attempts task w hrun, htried, send, Answered.call_escaped]
  split_ifs <;> rfl

theorem attempts_of_threw {run : Except Thrown Payload × ω} (hrun : run ∈ h.execution? task w)
    {e : Thrown} (hthrew : run.1 = .error e) : (h.handle task w).attempts.length ≤ 1 := by
  rw [h.handle_attempts task w hrun]
  simp only [complete, hthrew, Option.bind_some]
  cases e.what? <;> simp

/-- The answer keeps to the run of the operation exactly if the completion was delivered. -/
theorem answersHonestly_iff_delivered : h.AnswersHonestly task w ↔ h.Delivered task w := by
  constructor
  · intro hhonest run hrun result hres
    by_contra hlost
    have hlen := hhonest.at_most_one
    rw [h.attempts_of_returned task w hrun hres, if_neg hlost] at hlen
    simp at hlen
  · intro hdelivered
    constructor
    · rintro ⟨⟨outcome, w'⟩, hrun, hok⟩ r hr
      cases outcome with
      | error e => cases hok
      | ok result =>
        rw [h.attempts_of_returned task w hrun rfl, if_pos (hdelivered _ hrun result rfl),
          List.mem_singleton] at hr
        rw [hr]
        rfl
    · cases hrun : h.execution? task w with
      | none => exact (h.attempts_of_no_run task w hrun).le
      | some run =>
        cases hres : run.1 with
        | error e => exact h.attempts_of_threw task w hrun hres
        | ok result =>
          rw [h.attempts_of_returned task w hrun hres, if_pos (hdelivered run hrun result hres)]
          exact Nat.le_refl _

end NexusTaskHandler

/-- Both handlers keep their answers to the run of the user's function exactly on the tasks whose
completion RPC, if attempted, succeeds (and whose activity does not throw once it has deferred its
completion). -/
theorem successful_work_not_failed_iff {ω : Type} :
    (∀ (h : ActivityTaskHandler ω) (task : ActivityTask) (w : ω),
      h.AnswersHonestly task w ↔ h.Delivered task w) ∧
    (∀ (h : NexusTaskHandler ω) (task : NexusTask) (w : ω),
      h.AnswersHonestly task w ↔ h.Delivered task w) :=
  ⟨ActivityTaskHandler.answersHonestly_iff_delivered,
    NexusTaskHandler.answersHonestly_iff_delivered⟩

/-- An activity that returns at once, on a connection that drops completions. -/
def ActivityTaskHandler.overLossyLink : ActivityTaskHandler Unit where
  identity := "worker"
  taskQueue := "queue"
  activities _ := some fun ctx args w => { outcome := .ok args, context := ctx, world := w }
  interceptors := []
  failureConverter := none
  stub response w := (⟨if response.isFailed then .ok else .other 14, "connection reset"⟩, w)

/-- The activity has returned its result, and its task is reported failed. -/
theorem lost_completion_reported_failed :
    (ActivityTaskHandler.overLossyLink.handle
      { taskToken := "t", activityType := "a" } ()).attempts =
        [.respondActivityTaskCompleted "t" "worker" none,
          .respondActivityTaskFailed "t" "worker"
            { message := "rpc RespondActivityTaskCompleted failed: connection reset"
              type := "std::exception" }] ∧
      ¬ ActivityTaskHandler.overLossyLink.AnswersHonestly
        { taskToken := "t", activityType := "a" } () := by
  have hsent : (ActivityTaskHandler.overLossyLink.handle
      { taskToken := "t", activityType := "a" } ()).attempts =
        [.respondActivityTaskCompleted "t" "worker" none,
          .respondActivityTaskFailed "t" "worker"
            { message := "rpc RespondActivityTaskCompleted failed: connection reset"
              type := "std::exception" }] := by decide
  refine ⟨hsent, fun hhonest => ?_⟩
  have hlen := hhonest.at_most_one
  rw [hsent] at hlen
  simp at hlen

end TemporalSdk
