import TemporalSdk.Program
import TemporalSdk.Lib.Parking

/-! `WorkflowRunner`: the state behind `workflow::Context`, with every operation of the
`WorkflowOutbound` seam. Futures live in a heap and are named by address, as the code names
them by shared pointer. -/
namespace TemporalSdk

inductive Status where
  | blocked | completed | failed | continueAsNew
  deriving DecidableEq, Repr, Inhabited

structure Runner (σ : Type) where
  info : WorkflowInfo
  isReplaying : Bool
  scan : Prescan
  world : World σ
  workflowFn : WorkflowFn σ
  input : Payloads
  signalCursor : PartialMap String Nat := fun _ => none
  queryHandlers : PartialMap String (Handler σ) := fun _ => none
  updateHandlers : PartialMap String (Handler σ) := fun _ => none
  updateValidators : PartialMap String (Handler σ) := fun _ => none
  activityFutures : PartialMap String Nat := fun _ => none
  timerFutures : PartialMap String Nat := fun _ => none
  childFutures : PartialMap String Nat := fun _ => none
  nexusFutures : PartialMap String Nat := fun _ => none
  cancelFutures : List Nat := []
  futures : Nat → FutureState := fun _ => {}
  futureCount : Nat := 0
  commands : List Command := []
  producedCommands : List CommandEvent := []
  status : Status := .blocked
  result : Payloads := []
  failure : Failure := {}
  continueAsNew : String × Payloads := ("", [])
  activitySeq : Nat := 0
  timerSeq : Nat := 0
  childSeq : Nat := 0
  nexusSeq : Nat := 0
  sideEffectSeq : Nat := 0
  extSignalSeq : Nat := 0
  upsertSeq : Nat := 0
  localActivitySeq : Nat := 0
  changeVersions : PartialMap String Int := fun _ => none
  mseRecorded : PartialMap String (List (Int × Payload)) := fun _ => none
  mseCallCount : PartialMap String Nat := fun _ => none
  mseCursor : PartialMap String Nat := fun _ => none
  mseCurrent : PartialMap String Payload := fun _ => none
  /-- The variables shared by the body and its handlers. -/
  store : σ
  /-- The answers the body has seen: where its coroutine is. -/
  trace : List (Resp σ) := []
  /-- `coroutine_` has been created. -/
  started : Bool := false
  done : Bool := false
  deadlocked : Bool := false
  /-- A handler is still running on the calling thread. -/
  hung : Bool := false
  /-- A handler threw something that is not a `std::exception`. -/
  escaped : Bool := false

namespace Runner

variable {σ : Type}

/-- The workflow function behind the inbound interceptor chain; the first interceptor is the
outermost. -/
def chain (world : World σ) (fn : WorkflowFn σ) : WorkflowFn σ :=
  world.interceptors.foldr (fun i f => i.executeWorkflow f) fn

/-- Recorded versions, later markers overwriting earlier ones; malformed ones are ignored. -/
def recordedVersions (c : DataConverter) (markers : List (Payloads × Payloads)) :
    PartialMap String Int :=
  markers.foldl (fun m x =>
    match x with
    | (id :: _, ver :: _) =>
      match c.fromPayloadStr id, c.fromPayloadInt ver with
      | some changeId, some v => m.insert changeId v
      | _, _ => m
    | _ => m) (fun _ => none)

/-- Recorded `MutableSideEffect` changes by id, in history order. -/
def recordedMutable (c : DataConverter) (markers : List MutableSideEffectMarkerRaw) :
    PartialMap String (List (Int × Payload)) :=
  markers.foldl (fun m x =>
    match c.fromPayloadStr x.id, c.fromPayloadInt x.callIndex with
    | some id, some idx => m.modify id [] (· ++ [(idx, x.data)])
    | _, _ => m) (fun _ => none)

/-- The constructor of `WorkflowRunner`. -/
def new (info : WorkflowInfo) (isReplaying : Bool) (scan : Prescan) (world : World σ)
    (fn : WorkflowFn σ) (input : Payloads) : Runner σ where
  info := { info with headers := scan.headers }
  isReplaying := isReplaying
  scan := scan
  world := world
  workflowFn := fn
  input := input
  changeVersions := recordedVersions world.converter scan.versionMarkers
  mseRecorded := recordedMutable world.converter scan.mutableSideEffectMarkers
  store := (chain world fn).init

/-- The code the coroutine runs. -/
def program (r : Runner σ) : Program σ := (chain r.world r.workflowFn).body r.input

def emit (r : Runner σ) (c : Command) : Runner σ := { r with commands := r.commands ++ [c] }

def produce (r : Runner σ) (kind : CommandKind) (id name : String) : Runner σ :=
  { r with producedCommands := r.producedCommands ++ [⟨kind, id, name⟩] }

def allocate (r : Runner σ) (f : FutureState) : Runner σ :=
  { r with
    futures := Function.update r.futures r.futureCount f
    futureCount := r.futureCount + 1 }

/-- The task queue of an activity or child: the workflow's own unless the options name one. -/
def queueOr (r : Runner σ) (queue : String) : String :=
  if queue.isEmpty then r.info.taskQueue else queue

/-- The header an activity gets from the outbound chain, which runs the last interceptor
first. -/
def activityHeader (r : Runner σ) (type : String) (options : ActivityOptions)
    (input : Payloads) : Header :=
  r.world.interceptors.foldr (fun i h => i.executeActivity type options input h) r.info.headers

def scheduleActivityCommand (r : Runner σ) (id type : String) (input : Payloads)
    (o : ActivityOptions) : Command :=
  .scheduleActivityTask
    { activityId := id
      activityType := type
      taskQueue := r.queueOr o.taskQueue
      input := input
      header := r.activityHeader type o input
      scheduleToCloseTimeout := positiveMillis o.scheduleToCloseTimeout
      scheduleToStartTimeout := positiveMillis o.scheduleToStartTimeout
      startToCloseTimeout := positiveMillis o.startToCloseTimeout
      heartbeatTimeout := positiveMillis o.heartbeatTimeout
      retryPolicy := o.retryPolicy.map toProtoRetryPolicy }

/-- The future of an operation whose schedule event is in history. -/
def futureOfOutcome (op : FutureOp) (id : String) (o : OpOutcome) : FutureState :=
  if o.resolved then
    { ready := true, failed := o.failed, result := o.result, failureType := o.failureType,
      failureMessage := o.failureMessage, op := op, opId := id }
  else { op := op, opId := id }

/-- The emit guard of activities, children and Nexus operations: a recorded schedule is
replayed from its outcome, any other call emits its command. -/
def openOperation (r : Runner σ) (op : FutureOp) (id : String) (outcome : Option OpOutcome)
    (c : Command) : Runner σ :=
  match outcome.filter (·.scheduled) with
  | some o => r.allocate (futureOfOutcome op id o)
  | none => (r.emit c).allocate { op := op, opId := id }

def scheduleActivity (r : Runner σ) (type : String) (input : Payloads)
    (options : ActivityOptions) : Runner σ :=
  let id := toString r.activitySeq
  { ({ r with activitySeq := r.activitySeq + 1 }.produce .activity id type).openOperation
      .activity id (r.scan.activities id) (r.scheduleActivityCommand id type input options) with
    activityFutures := r.activityFutures.insert id r.futureCount }

def startTimer (r : Runner σ) (duration : Int) : Runner σ :=
  let id := "t" ++ toString r.timerSeq
  let r' := { r with timerSeq := r.timerSeq + 1 }.produce .timer id ""
  { (match (r.scan.timers id).filter (·.started) with
      | some o => r'.allocate { ready := o.fired, op := .timer, opId := id }
      | none => (r'.emit (.startTimer id (toProtoDuration duration))).allocate
          { op := .timer, opId := id }) with
    timerFutures := r.timerFutures.insert id r.futureCount }

/-- The id of a child: the one the options name, or one generated from the parent's. -/
def childId (r : Runner σ) (options : ChildWorkflowOptions) : String :=
  if options.id.isEmpty then r.info.workflowId ++ "_c" ++ toString r.childSeq else options.id

def startChildWorkflow (r : Runner σ) (type : String) (input : Payloads)
    (options : ChildWorkflowOptions) : Runner σ :=
  let id := r.childId options
  { ({ r with childSeq := r.childSeq + 1 }.produce .childWorkflow id type).openOperation
      .childWorkflow id (r.scan.children id)
      (.startChildWorkflowExecution r.info.ns id type (r.queueOr options.taskQueue) input
        options.parentClosePolicy) with
    childFutures := r.childFutures.insert id r.futureCount }

def scheduleNexusOperation (r : Runner σ) (endpoint service operation : String)
    (input : Payload) (scheduleToClose : Int) : Runner σ :=
  let id := toString r.nexusSeq
  { ({ r with nexusSeq := r.nexusSeq + 1 }.produce .nexusOperation id "").openOperation
      .nexusOperation id (r.scan.nexusOps id)
      (.scheduleNexusOperation endpoint service operation input
        (if 0 < scheduleToClose then some (toProtoDuration scheduleToClose) else none)) with
    nexusFutures := r.nexusFutures.insert id r.futureCount }

def setFuture (r : Runner σ) (addr : Nat) (f : FutureState) : Runner σ :=
  { r with futures := Function.update r.futures addr f }

/-- The request to cancel a child or another workflow, sent unless one is recorded for the
same workflow id. -/
def requestCancelExternal (r : Runner σ) (id : String) (childOnly : Bool) : Runner σ :=
  let r' := r.produce .requestCancelExternalWorkflow id ""
  match (r.scan.children id).filter (·.cancelRequested) with
  | some _ => r'
  | none => r'.emit (.requestCancelExternalWorkflowExecution r.info.ns id childOnly)

def cancel (r : Runner σ) (addr : Nat) : Runner σ :=
  let state := r.futures addr
  if state.cancelled then r
  else
    match state.op with
    | .timer =>
      let r' := r.produce .cancelTimer state.opId ""
      let r' := match (r.scan.timers state.opId).filter (·.cancelled) with
        | some _ => r'
        | none => r'.emit (.cancelTimer state.opId)
      r'.setFuture addr { state with ready := true, cancelled := true }
    | .activity =>
      match r.scan.activityToSchedEvent state.opId with
      | none => r
      | some sid =>
        let r' := r.produce .requestCancelActivity (toString sid) ""
        match (r.scan.activities state.opId).filter (·.cancelRequested) with
        | some _ => r'
        | none => r'.emit (.requestCancelActivityTask sid)
    | .childWorkflow => r.requestCancelExternal state.opId true
    | .nexusOperation | .none => r

def cancelExternalWorkflow (r : Runner σ) (workflowId : String) : Runner σ :=
  r.requestCancelExternal workflowId false

def signalExternalWorkflow (r : Runner σ) (workflowId signalName : String)
    (input : Payloads) : Runner σ :=
  let r' := { r with extSignalSeq := r.extSignalSeq + 1 }.produce .signalExternalWorkflow
    workflowId ""
  if r.scan.extSignalsInitiated ≤ r.extSignalSeq then
    r'.emit (.signalExternalWorkflowExecution r.info.ns workflowId signalName input)
  else r'

def upsertSearchAttributes (r : Runner σ) (attributes : List (String × Payload)) : Runner σ :=
  let r' := { r with upsertSeq := r.upsertSeq + 1 }.produce .upsertSearchAttributes "" ""
  if r.scan.upsertsInitiated ≤ r.upsertSeq then
    r'.emit (.upsertWorkflowSearchAttributes attributes)
  else r'

def recordMarker (r : Runner σ) (name : String) (details : List (String × Payloads)) : Runner σ :=
  r.emit (.recordMarker name details)

/-- The details of the marker `RecordSideEffect` writes for the call with this ordinal. -/
def sideEffectDetails (c : DataConverter) (ordinal : Nat) (v : Value) : List (String × Payloads) :=
  [("side-effect-id", [c.toPayload (.int ordinal)]), ("data", [c.toPayload v])]

/-- `Context::SideEffect`. -/
def sideEffect (r : Runner σ) : Runner σ × Resp σ :=
  let ordinal := r.sideEffectSeq
  let r' := { r with sideEffectSeq := ordinal + 1 }.produce .marker "SideEffect" ""
  match r.scan.sideEffects[ordinal]? with
  | some recorded =>
    match r.world.converter.fromPayload recorded with
    | some v => (r', .value v)
    | none => (r', .stdException "DataConverterError")
  | none =>
    match r.world.sideEffectFn ordinal with
    | .error what => (r', .stdException what)
    | .ok v =>
      (r'.recordMarker "SideEffect" (sideEffectDetails r.world.converter ordinal v), .value v)

def defaultVersion : Int := -1

def getVersion (r : Runner σ) (changeId : String) (minSupported maxSupported : Int) :
    Runner σ × Resp σ :=
  match r.changeVersions changeId with
  | some v =>
    let r' := r.produce .marker "Version" ""
    if v < minSupported ∨ maxSupported < v then
      (r', .applicationError ("workflow change '" ++ changeId ++ "': recorded version " ++
        toString v ++ " not in supported range [" ++ toString minSupported ++ ", " ++
        toString maxSupported ++ "]") "VersionMismatch")
    else (r', .version v)
  | none =>
    if r.isReplaying then
      ({ r with changeVersions := r.changeVersions.insert changeId defaultVersion },
        .version defaultVersion)
    else
      let c := r.world.converter
      let r' := (r.produce .marker "Version" "").recordMarker "Version"
        [("change-id", [c.toPayload (.str changeId)]),
          ("version", [c.toPayload (.int maxSupported)])]
      ({ r' with changeVersions := r.changeVersions.insert changeId maxSupported },
        .version maxSupported)

/-- `Context::MutableSideEffect`, with `BeginMutableSideEffect` and
`RecordMutableSideEffect`. -/
def mutableSideEffect (r : Runner σ) (id : String) (equals : Value → Value → Bool) :
    Runner σ × Resp σ :=
  let c := r.world.converter
  let idx := (r.mseCallCount id).getD 0
  let r' := { r with mseCallCount := r.mseCallCount.insert id (idx + 1) }
  let cur := (r.mseCursor id).getD 0
  let decoded (r'' : Runner σ) (p : Payload) : Runner σ × Resp σ :=
    match c.fromPayload p with
    | some v => (r'', .value v)
    | none => (r'', .stdException "DataConverterError")
  -- beyond recorded history the function runs and a changed value is recorded
  let live : Runner σ × Resp σ :=
    match r.world.mutableSideEffectFn id idx with
    | .error what => (r', .stdException what)
    | .ok v =>
      let changed : Runner σ × Resp σ :=
        ({ (r'.produce .marker "MutableSideEffect" "").recordMarker "MutableSideEffect"
            [("id", [c.toPayload (.str id)]), ("mse-call-index", [c.toPayload (.int idx)]),
              ("data", [c.toPayload v])] with
          mseCurrent := r.mseCurrent.insert id (c.toPayload v) }, .value v)
      match r.mseCurrent id with
      | none => changed
      | some p =>
        match c.fromPayload p with
        | none => (r', .stdException "DataConverterError")
        | some current => if equals current v then (r', .value current) else changed
  match r.mseRecorded id with
  | none => live
  | some list =>
    match list[cur]? with
    | none => live
    | some (change, data) =>
      if change = idx then
        decoded { r'.produce .marker "MutableSideEffect" "" with
          mseCurrent := r.mseCurrent.insert id data
          mseCursor := r.mseCursor.insert id (cur + 1) } data
      else
        -- reading through `operator[]` leaves an empty payload behind when there was none
        let current := (r.mseCurrent id).getD {}
        decoded { r' with mseCurrent := r.mseCurrent.insert id current } current

/-- The retry loop of `ExecuteLocalActivity` with `n` attempts left; the accumulators are
`fail_type` and `fail_msg`. -/
def attempts (call : Nat → ActivityResult) (maxAttempts : Nat) :
    Nat → Nat → String × String → Except (String × String) Payloads
  | 0, _, fail => .error fail
  | n + 1, attempt, _ =>
    match call attempt with
    | .returned result => .ok result
    | .applicationError message type nonRetryable =>
      if nonRetryable || attempt == maxAttempts then .error (type, message)
      else attempts call maxAttempts n (attempt + 1) (type, message)
    | .stdException what =>
      if attempt == maxAttempts then .error ("", what)
      else attempts call maxAttempts n (attempt + 1) ("", what)

/-- A single attempt unless a retry policy with a positive bound says otherwise. -/
def maxAttempts (options : LocalActivityOptions) : Nat :=
  match options.retryPolicy with
  | some p => if 0 < p.maximumAttempts then p.maximumAttempts.toNat else 1
  | none => 1

/-- Run a registered activity inline; an error is its failure type and message. -/
def runLocalActivity (info : WorkflowInfo) (fn : ActivityFn) (ordinal : Nat) (type : String)
    (input : Payloads) (options : LocalActivityOptions) : Except (String × String) Payloads :=
  let call attempt := fn ordinal
    { activityType := type, workflowId := info.workflowId, runId := info.runId,
      taskQueue := info.taskQueue, headers := info.headers, attempt := attempt } input
  attempts call (maxAttempts options) (maxAttempts options) 1 ("", "")

/-- The details of the LocalActivity marker for an outcome. -/
def localActivityDetails (c : DataConverter) :
    Except (String × String) Payloads → List (String × Payloads)
  | .ok result => [("result", result)]
  | .error (type, message) =>
    [("failure-type", [c.toPayload (.str type)]), ("failure-message", [c.toPayload (.str message)])]

/-- How a local activity's outcome reaches the body. -/
def localActivityResp : Except (String × String) Payloads → Resp σ
  | .ok result => .localResult result
  | .error (type, message) => .applicationError message type

def executeLocalActivity (r : Runner σ) (type : String) (input : Payloads)
    (options : LocalActivityOptions) : Runner σ × Resp σ :=
  let ordinal := r.localActivitySeq
  let c := r.world.converter
  let r' := { r with localActivitySeq := ordinal + 1 }.produce .marker "LocalActivity" ""
  match r.scan.localActivities[ordinal]? with
  | some rec =>
    if rec.failed then
      (r', .applicationError (c.decode rec.failureMessage) (c.decode rec.failureType))
    else (r', .localResult rec.result)
  | none =>
    match r.world.localActivityResolver with
    | none =>
      (r', .applicationError "local activities are not available on this worker"
        "LocalActivityError")
    | some resolve =>
      match resolve type with
      | none =>
        (r', .applicationError ("no activity registered for type: " ++ type) "NotRegisteredError")
      | some fn =>
        let outcome := runLocalActivity r.info fn ordinal type input options
        (r'.recordMarker "LocalActivity" (localActivityDetails c outcome),
          localActivityResp outcome)

def tryConsumeSignal (r : Runner σ) (name : String) : Option (Runner σ × Payloads) :=
  match r.scan.signals name with
  | none => none
  | some buffered =>
    let cursor := (r.signalCursor name).getD 0
    match buffered[cursor]? with
    | none => none
    | some p => some ({ r with signalCursor := r.signalCursor.insert name (cursor + 1) }, p)

def hasSignal (r : Runner σ) (name : String) : Bool :=
  match r.scan.signals name with
  | none => false
  | some buffered => (r.signalCursor name).getD 0 < buffered.length

def awaitCancellation (r : Runner σ) : Runner σ :=
  if r.scan.cancelRequested then r.allocate { ready := true }
  else { r.allocate {} with cancelFutures := r.cancelFutures ++ [r.futureCount] }

/-- `Future::Get` once the future is ready. -/
def futureValue (f : FutureState) : Resp σ :=
  if f.failed then .activityError f.failureType f.failureMessage else .got f.result

def caseReady (r : Runner σ) : SelectCase → Bool
  | .future addr => (r.futures addr).ready
  | .receive name => r.hasSignal name

/-- Carry out one operation; `none` when it parks the coroutine. -/
def exec (r : Runner σ) : Op σ → Option (Runner σ × Resp σ)
  | .scheduleActivity type input options =>
    some (r.scheduleActivity type input options, .future r.futureCount)
  | .startTimer duration => some (r.startTimer duration, .future r.futureCount)
  | .startChildWorkflow type input options =>
    some (r.startChildWorkflow type input options, .future r.futureCount)
  | .scheduleNexusOperation endpoint service operation input close =>
    some (r.scheduleNexusOperation endpoint service operation input close, .future r.futureCount)
  | .cancel addr => some (r.cancel addr, .unit)
  | .cancelExternalWorkflow id => some (r.cancelExternalWorkflow id, .unit)
  | .signalExternalWorkflow id name input => some (r.signalExternalWorkflow id name input, .unit)
  | .upsertSearchAttributes attributes => some (r.upsertSearchAttributes attributes, .unit)
  | .get addr =>
    if (r.futures addr).ready then some (r, futureValue (r.futures addr)) else none
  | .isReady addr => some (r, .flag (r.futures addr).ready)
  | .receive name => (r.tryConsumeSignal name).map fun x => (x.1, .received x.2)
  | .receiveAsync name =>
    match r.tryConsumeSignal name with
    | some (r', p) => some (r', .received p)
    | none => some (r, .notReceived)
  | .hasPending name => some (r, .flag (r.hasSignal name))
  | .select cases hasDefault =>
    match cases.findIdx? r.caseReady with
    | some i => some (r, .selected (some i))
    | none => if hasDefault then some (r, .selected none) else none
  | .isCancelled => some (r, .flag r.scan.cancelRequested)
  | .awaitCancellation => some (r.awaitCancellation, .future r.futureCount)
  | .sideEffect => some r.sideEffect
  | .mutableSideEffect id equals => some (r.mutableSideEffect id equals)
  | .getVersion changeId lo hi => some (r.getVersion changeId lo hi)
  | .executeLocalActivity type input options => some (r.executeLocalActivity type input options)
  | .setQueryHandler name h =>
    some ({ r with queryHandlers := r.queryHandlers.insert name h }, .unit)
  | .setUpdateHandler name h =>
    some ({ r with updateHandlers := r.updateHandlers.insert name h }, .unit)
  | .setUpdateValidator name h =>
    some ({ r with updateValidators := r.updateValidators.insert name h }, .unit)
  | .getInfo => some (r, .info r.info)
  | .isReplaying => some (r, .flag r.isReplaying)
  | .readStore => some (r, .store r.store)
  | .writeStore s => some ({ r with store := s }, .unit)
  | .finish _ => none

end Runner
end TemporalSdk
