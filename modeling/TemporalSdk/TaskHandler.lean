import TemporalSdk.Execution
import TemporalSdk.LruCache
import TemporalSdk.Paging

/-! `WorkflowTaskHandler::Handle`: routing a polled task to a cached or a fresh runner, and the
response it is answered with. Runners live in a heap, and the cache holds their addresses, as
the code shares them by pointer. -/
namespace TemporalSdk

structure WorkflowQuery where
  queryType : String
  queryArgs : Payloads := []
  deriving DecidableEq, Repr, Inhabited

/-- `update::Request`. -/
structure UpdateRequest where
  name : String
  args : Payloads := []
  deriving DecidableEq, Repr, Inhabited

/-- A protocol message of a task; `body` is `none` when it is not an update request. -/
structure TaskMessage where
  id : String
  protocolInstanceId : String
  eventId : Nat
  body : Option UpdateRequest
  deriving DecidableEq, Repr, Inhabited

/-- `PollWorkflowTaskQueueResponse`. -/
structure WorkflowTask where
  taskToken : String
  workflowId : String
  runId : String
  workflowType : String
  page : HistoryPage
  previousStartedEventId : Nat := 0
  query : Option WorkflowQuery := none
  queries : List (String × WorkflowQuery) := []
  messages : List TaskMessage := []
  deriving DecidableEq, Repr, Inhabited

/-- A protocol message of a response. -/
inductive UpdateReply where
  | rejection (messageId : String) (sequencingEventId : Nat) (request : UpdateRequest)
      (failure : Failure)
  | acceptance (messageId : String) (sequencingEventId : Nat) (request : UpdateRequest)
  | response (updateId identity : String) (outcome : Except Failure Payloads)

structure ReplyMessage where
  id : String
  protocolInstanceId : String
  body : UpdateReply

inductive QueryResult where
  | answered (answer : Payloads)
  | failed (errorMessage : String)
  deriving DecidableEq, Repr, Inhabited

inductive TaskFailedCause where
  | unspecified | resetStickyTaskQueue | nonDeterministicError
  deriving DecidableEq, Repr, Inhabited

structure StickyAttributes where
  workerTaskQueue : String
  normalName : String
  scheduleToStartTimeout : Duration
  deriving DecidableEq, Repr, Inhabited

structure TaskCompleted where
  taskToken : String
  identity : String
  sticky : Option StickyAttributes := none
  commands : List Command := []
  messages : List ReplyMessage := []
  queryResults : List (String × QueryResult) := []

/-- The requests `Handle` answers a task with. -/
inductive Response where
  | workflowTaskCompleted (req : TaskCompleted)
  | workflowTaskFailed (taskToken identity : String) (cause : TaskFailedCause)
      (failure : Option Failure)
  | queryTaskCompleted (taskToken : String) (result : QueryResult)

inductive PanicPolicy where
  | blockWorkflow | failWorkflow
  deriving DecidableEq, Repr, Inhabited

/-- What a `WorkflowTaskHandler` is built with. `fuel` bounds the work of a task before the
deadlock timeout. -/
structure TaskHandler (σ : Type) where
  workflows : PartialMap String (WorkflowFn σ)
  world : World σ
  ns : String := "default"
  identity : String := ""
  taskQueue : String := ""
  stickyQueue : String := ""
  panicPolicy : PanicPolicy := .blockWorkflow
  fuel : Nat

/-- The mutable state of a `WorkflowTaskHandler`, with the runners it has created. -/
structure HandlerState (σ : Type) where
  runners : PartialMap Nat (Runner σ) := fun _ => none
  nextRunner : Nat := 0
  cache : LruCache String Nat
  cacheHits : Nat := 0
  replays : Nat := 0

/-- The remote end of the calls made for one task. -/
structure Remote where
  stub : Stub
  pageFuel : Nat
  respond : Response → Except RpcError Unit

/-- How a call of `Handle` ends. -/
inductive Exit where
  | returned
  | rpc (e : RpcError)
  | escaped
  | hung
  deriving DecidableEq, Repr, Inhabited

/-- A finished call: the state it leaves and the responses it tried to send. -/
structure Handled (σ : Type) where
  state : HandlerState σ
  sent : List Response
  exit : Exit

/-- How a query or update handler ends. -/
inductive HandlerExit where
  | returned (result : Payloads)
  | threw (what : String)
  | escaped
  | hung
  deriving DecidableEq, Repr, Inhabited

namespace Runner

variable {σ : Type}

def handlerExit : Outcome → HandlerExit
  | .returned result => .returned result
  | .applicationError message _ _ => .threw message
  | .stdException what => .threw what
  | .continueAsNew .. | .otherException => .escaped

/-- Call a registered `QueryFn`. A handler that never returns keeps the caller. -/
def invoke (fuel : Nat) (r : Runner σ) (handler : Program σ) : Runner σ × HandlerExit :=
  match runHandler handler fuel r [] with
  | none => ({ r with hung := true }, .hung)
  | some (r', o) => (r', handlerExit o)

def runQuery (fuel : Nat) (r : Runner σ) (q : WorkflowQuery) : Runner σ × HandlerExit :=
  match r.queryHandlers q.queryType with
  | none => (r, .threw ("unknown query type: " ++ q.queryType))
  | some h => r.invoke fuel (h q.queryArgs)

def runUpdate (fuel : Nat) (r : Runner σ) (u : UpdateRequest) : Runner σ × HandlerExit :=
  match r.updateHandlers u.name with
  | none => (r, .threw ("unknown update: " ++ u.name))
  | some h => r.invoke fuel (h u.args)

/-- The validator's result is ignored; without one every request is valid. -/
def validateUpdate (fuel : Nat) (r : Runner σ) (u : UpdateRequest) : Runner σ × HandlerExit :=
  match r.updateValidators u.name with
  | none => (r, .returned [])
  | some v => r.invoke fuel (v u.args)

/-- One protocol message: the runner after it, the replies, and the exit if it ends the call. -/
def processMessage (fuel : Nat) (identity : String) (r : Runner σ) (msg : TaskMessage) :
    Runner σ × List ReplyMessage × Option Exit :=
  match msg.body with
  | none => (r, [], none)
  | some request =>
    let instanceId := msg.protocolInstanceId
    match r.validateUpdate fuel request with
    | (r₁, .hung) => (r₁, [], some .hung)
    | (r₁, .escaped) => (r₁, [], some .escaped)
    | (r₁, .threw what) =>
      (r₁, [⟨instanceId ++ "/reject", instanceId, .rejection msg.id msg.eventId request
        (makeApplicationFailure what "UpdateValidationRejected" false)⟩], none)
    | (r₁, .returned _) =>
      let accept : ReplyMessage :=
        ⟨instanceId ++ "/accept", instanceId, .acceptance msg.id msg.eventId request⟩
      let complete (outcome : Except Failure Payloads) : ReplyMessage :=
        ⟨instanceId ++ "/complete", instanceId, .response instanceId identity outcome⟩
      match r₁.runUpdate fuel request with
      | (r₂, .hung) => (r₂, [accept], some .hung)
      | (r₂, .escaped) => (r₂, [accept], some .escaped)
      | (r₂, .threw what) =>
        (r₂, [accept, complete (.error (makeApplicationFailure what "UpdateFailed" false))], none)
      | (r₂, .returned result) => (r₂, [accept, complete (.ok result)], none)

/-- The loop over `task.messages()`. -/
def processMessages (fuel : Nat) (identity : String) (r : Runner σ) :
    List TaskMessage → Runner σ × List ReplyMessage × Option Exit
  | [] => (r, [], none)
  | msg :: msgs =>
    match r.processMessage fuel identity msg with
    | (r₁, replies, some exit) => (r₁, replies, some exit)
    | (r₁, replies, none) =>
      let (r₂, more, exit) := r₁.processMessages fuel identity msgs
      (r₂, replies ++ more, exit)

/-- A query against the suspended workflow; a finished one is not asked. -/
def answerQuery (fuel : Nat) (r : Runner σ) (q : WorkflowQuery) :
    Runner σ × Except Exit QueryResult :=
  if r.isDone then (r, .ok (.failed "cannot query a completed workflow"))
  else
    match r.runQuery fuel q with
    | (r', .returned answer) => (r', .ok (.answered answer))
    | (r', .threw what) => (r', .ok (.failed what))
    | (r', .escaped) => (r', .error .escaped)
    | (r', .hung) => (r', .error .hung)

/-- The loop over `task.queries()`. -/
def answerQueries (fuel : Nat) (r : Runner σ) :
    List (String × WorkflowQuery) → Runner σ × Except Exit (List (String × QueryResult))
  | [] => (r, .ok [])
  | (id, q) :: qs =>
    match r.answerQuery fuel q with
    | (r₁, .error exit) => (r₁, .error exit)
    | (r₁, .ok result) =>
      match r₁.answerQueries fuel qs with
      | (r₂, .error exit) => (r₂, .error exit)
      | (r₂, .ok results) => (r₂, .ok ((id, result) :: results))

end Runner

namespace HandlerState

variable {σ : Type}

/-- Write a runner back through its pointer. -/
def setRunner (s : HandlerState σ) (addr : Nat) (r : Runner σ) : HandlerState σ :=
  { s with runners := s.runners.insert addr r }

/-- `std::make_shared<WorkflowRunner>`. -/
def allocate (s : HandlerState σ) (r : Runner σ) : HandlerState σ :=
  { s with runners := s.runners.insert s.nextRunner r, nextRunner := s.nextRunner + 1 }

def erase (s : HandlerState σ) (runId : String) : HandlerState σ :=
  { s with cache := s.cache.erase runId }

end HandlerState

namespace TaskHandler

variable {σ : Type} (h : TaskHandler σ)

def info (task : WorkflowTask) : WorkflowInfo where
  workflowId := task.workflowId
  runId := task.runId
  workflowType := task.workflowType
  taskQueue := h.taskQueue
  ns := h.ns

/-- Send a response as the last step of a call. -/
def respond (remote : Remote) (s : HandlerState σ) (resp : Response) : Handled σ :=
  match remote.respond resp with
  | .ok _ => ⟨s, [resp], .returned⟩
  | .error e => ⟨s, [resp], .rpc e⟩

def isFullHistory (events : History) : Bool :=
  match events.head? with
  | some ⟨_, .workflowExecutionStarted ..⟩ => true
  | _ => false

def firstEventId (events : History) : Nat := (events.head?.map HistoryEvent.eventId).getD 0

/-- The cached runner this task continues or queries, and the cache after the lookup. -/
def lookupCached (s : HandlerState σ) (runId : String) (events : History) (isQuery : Bool) :
    Option Nat × HandlerState σ :=
  if isFullHistory events then (none, s)
  else
    let (slot, cache) := s.cache.get runId
    let s' := { s with cache }
    match slot with
    | none => (none, s')
    | some addr =>
      match s.runners addr with
      | none => (none, s')
      | some r =>
        if isQuery || firstEventId events = r.lastEventId + 1 then (some addr, s') else (none, s')

/-- `abort_deadlock`: the runner is leaked and the task failed. -/
def abortDeadlock (remote : Remote) (s : HandlerState σ) (task : WorkflowTask) : Handled σ :=
  respond remote (s.erase task.runId)
    (.workflowTaskFailed task.taskToken h.identity .unspecified
      (some (makeApplicationFailure
        "workflow task deadlocked (exceeded deadlock_detection_timeout)" "WorkflowDeadlock" false)))

/-- The world of `BuildRunnerForQuery`, which gets neither activities nor interceptors. -/
def queryWorld : World σ := { h.world with localActivityResolver := none, interceptors := [] }

/-- `BuildRunnerForQuery`: a transient runner on the history paged in, or none. -/
def buildRunnerForQuery (remote : Remote) (fn : WorkflowFn σ) (task : WorkflowTask) :
    Except Exit (Option (Runner σ)) :=
  match queryHistory remote.stub h.ns task.workflowId task.runId remote.pageFuel with
  | none => .error .hung
  | some (.error _) => .ok none
  | some (.ok full) =>
    let r := (Runner.replay (h.info task) true h.queryWorld fn full).run h.fuel
    if r.hung || r.deadlocked then .error .hung
    else if r.escaped then .error .escaped
    else .ok (some r)

def stickyAttributes : Option StickyAttributes :=
  if h.stickyQueue.isEmpty then none
  else some ⟨h.stickyQueue, h.taskQueue, toProtoDuration 10000000000⟩

/-- The answer to a direct query. -/
def answerDirectQuery (remote : Remote) (s : HandlerState σ) (task : WorkflowTask)
    (q : WorkflowQuery) : Option Nat → Handled σ
  | none =>
    respond remote s (.queryTaskCompleted task.taskToken
      (.failed "could not load workflow state to answer query"))
  | some addr =>
    match s.runners addr with
    | none => ⟨s, [], .hung⟩
    | some r =>
      match r.answerQuery h.fuel q with
      | (r', .error exit) => ⟨s.setRunner addr r', [], exit⟩
      | (r', .ok result) =>
        respond remote (s.setRunner addr r') (.queryTaskCompleted task.taskToken result)

/-- The answer to a task that made progress. The commands are taken before the messages are
processed, the terminal command is added after. -/
def complete (remote : Remote) (s : HandlerState σ) (task : WorkflowTask) (addr : Nat)
    (r : Runner σ) : Handled σ :=
  match r.processMessages h.fuel h.identity task.messages with
  | (r₁, _, some exit) => ⟨s.setRunner addr r₁, [], exit⟩
  | (r₁, messages, none) =>
    match r₁.answerQueries h.fuel task.queries with
    | (r₂, .error exit) => ⟨s.setRunner addr r₂, [], exit⟩
    | (r₂, .ok queryResults) =>
      let s₂ := s.setRunner addr r₂
      let req : TaskCompleted :=
        { taskToken := task.taskToken
          identity := h.identity
          sticky := h.stickyAttributes
          commands := r.commands ++ r₁.terminalCommand.toList
          messages := messages
          queryResults := queryResults }
      match remote.respond (.workflowTaskCompleted req) with
      | .error e => ⟨s₂, [.workflowTaskCompleted req], .rpc e⟩
      | .ok _ =>
        ⟨if r₂.isDone then s₂.erase task.runId else s₂, [.workflowTaskCompleted req], .returned⟩

/-- The answer to a replay that does not reproduce history. -/
def failNondeterministic (remote : Remote) (s : HandlerState σ) (task : WorkflowTask)
    (mismatch : String) : Handled σ :=
  let failure := makeApplicationFailure mismatch "NonDeterministicError" false
  match h.panicPolicy with
  | .failWorkflow =>
    respond remote s (.workflowTaskCompleted
      { taskToken := task.taskToken, identity := h.identity
        commands := [.failWorkflowExecution failure] })
  | .blockWorkflow =>
    respond remote s (.workflowTaskFailed task.taskToken h.identity .nonDeterministicError
      (some failure))

/-- Replay a full history from scratch and, unless it fails, cache the runner. -/
def replayTask (remote : Remote) (s : HandlerState σ) (fn : WorkflowFn σ) (task : WorkflowTask)
    (events : History) : Handled σ :=
  let s := { s with replays := s.replays + 1 }
  let r := (Runner.replay (h.info task) (0 < task.previousStartedEventId) h.world fn events).run
    h.fuel
  let addr := s.nextRunner
  let s := s.allocate r
  if r.deadlocked then h.abortDeadlock remote s task
  else if r.hung then ⟨s, [], .hung⟩
  else if r.escaped then ⟨s, [], .escaped⟩
  else
    match r.checkDeterminism with
    | some mismatch => h.failNondeterministic remote s task mismatch
    | none => h.complete remote { s with cache := s.cache.put task.runId addr } task addr r

/-- Apply a continuation to the cached runner and answer it. -/
def continueTask (remote : Remote) (s : HandlerState σ) (task : WorkflowTask) (addr : Nat)
    (r : Runner σ) (events : History) : Handled σ :=
  let s := { s with cacheHits := s.cacheHits + 1 }
  let r := r.applyAndResume h.fuel events
  let s := s.setRunner addr r
  if r.deadlocked then h.abortDeadlock remote s task
  else h.complete remote s task addr r

/-- The routing of `Handle` once the history is assembled. -/
def route (remote : Remote) (s : HandlerState σ) (fn : WorkflowFn σ) (task : WorkflowTask)
    (events : History) : Handled σ :=
  match lookupCached s task.runId events task.query.isSome with
  | (some addr, s') =>
    match task.query with
    | some q => h.answerDirectQuery remote { s' with cacheHits := s'.cacheHits + 1 } task q addr
    | none =>
      match s'.runners addr with
      | none => ⟨s', [], .hung⟩
      | some r => h.continueTask remote s' task addr r events
  | (none, s') =>
    match task.query with
    | some q =>
      match h.buildRunnerForQuery remote fn task with
      | .error exit => ⟨s', [], exit⟩
      | .ok none => h.answerDirectQuery remote s' task q none
      | .ok (some r) => h.answerDirectQuery remote (s'.allocate r) task q (some s'.nextRunner)
    | none =>
      if isFullHistory events then h.replayTask remote s' fn task events
      else
        respond remote s' (.workflowTaskFailed task.taskToken h.identity .resetStickyTaskQueue none)

/-- `Handle`. -/
def handle (remote : Remote) (s : HandlerState σ) (task : WorkflowTask) : Handled σ :=
  match h.workflows task.workflowType with
  | none =>
    respond remote s (.workflowTaskFailed task.taskToken h.identity .unspecified
      (some (makeApplicationFailure ("no workflow registered for type: " ++ task.workflowType)
        "NotRegisteredError" false)))
  | some fn =>
    match assembleHistory remote.stub h.ns task.workflowId task.runId remote.pageFuel task.page with
    | none => ⟨s, [], .hung⟩
    | some (.error e) => ⟨s, [], .rpc e⟩
    | some (.ok events) => h.route remote s fn task events

end TaskHandler
end TemporalSdk
