import TemporalSdk.Runner

/-! Driving a runner: resuming its coroutine, running handlers, replaying from scratch and
applying the events of a sticky continuation. -/
namespace TemporalSdk
namespace Runner

variable {σ : Type}

/-- The failure of a body that threw: the custom encoding, or message and type alone. -/
def bodyFailure (r : Runner σ) (o : Outcome) (message type : String) : Failure :=
  match r.world.failureConverter with
  | some errorToFailure => errorToFailure o
  | none => makeApplicationFailure message type false

/-- The end of `RunBody`: the outcome is stored and the terminal command is produced. An
exception of any other type leaves the status blocked. -/
def finishBody (r : Runner σ) : Outcome → Runner σ
  | .returned result =>
    { r with result, status := .completed, done := true }.produce .completeWorkflow "" ""
  | .continueAsNew type input =>
    { r with continueAsNew := (type, input), status := .continueAsNew, done := true }.produce
      .continueAsNew "" ""
  | .applicationError message type nonRetryable =>
    { r with
      failure := r.bodyFailure (.applicationError message type nonRetryable) message type
      status := .failed
      done := true }.produce .failWorkflow "" ""
  | .stdException what =>
    { r with
      failure := r.bodyFailure (.stdException what) what "std::exception"
      status := .failed
      done := true }.produce .failWorkflow "" ""
  | .otherException => { r with done := true }

/-- One operation of the body on its coroutine; `none` when it parks or has ended. -/
def step (r : Runner σ) : Option (Runner σ) :=
  if r.done then none
  else
    match (r.program r.trace).outcome? with
    | some o => some (r.finishBody o)
    | none => (r.exec (r.program r.trace)).map fun x => { x.1 with trace := r.trace ++ [x.2] }

/-- `ResumeCoroutine`. `fuel` bounds the operations the body gets through before the deadlock
timeout; without a timeout any number may be taken, and a body that needs more than every
bound never yields. -/
def resumeCoroutine (fuel : Nat) (r : Runner σ) : Runner σ :=
  match Parking.runFor step fuel r with
  | some r' => r'
  | none => { r with deadlocked := true }

theorem resumeCoroutine_mono {f g : Nat} {r : Runner σ}
    (hd : (r.resumeCoroutine f).deadlocked = false) (hfg : f ≤ g) :
    r.resumeCoroutine g = r.resumeCoroutine f := by
  unfold resumeCoroutine at hd ⊢
  cases hrun : Parking.runFor step f r with
  | none => simp [hrun] at hd
  | some r' => rw [Parking.runFor_mono hrun hfg]

/-- Run a handler on the calling thread. It shares the runner with the body; `none` when it
never returns, in particular when it waits, since nobody will resume it. -/
def runHandler (handler : Program σ) : Nat → Runner σ → List (Resp σ) →
    Option (Runner σ × Outcome)
  | 0, _, _ => none
  | n + 1, r, answers =>
    match (handler answers).outcome? with
    | some o => some (r, o)
    | none =>
      match r.exec (handler answers) with
      | some (r', resp) => runHandler handler n r' (answers ++ [resp])
      | none => none

/-- Re-run the handler of an accepted update; an unregistered one is skipped. -/
def reapplyUpdate (fuel : Nat) (r : Runner σ) (name : String) (args : Payloads) : Runner σ :=
  match r.updateHandlers name with
  | none => r
  | some h =>
    match runHandler (h args) fuel r [] with
    | none => { r with hung := true }
    | some (r', o) => if o.escapes then { r' with escaped := true } else r'

/-- Resolve the live future behind a schedule event. -/
def resolveFuture (r : Runner σ) (addr : Option Nat) (f : FutureState → FutureState) : Runner σ :=
  match addr with
  | none => r
  | some a => r.setFuture a (f (r.futures a))

/-- What `ResolveActivity` and `ResolveNexusOperation` write. -/
def resolved (failed : Bool) (result : Payloads) (type message : String) (f : FutureState) :
    FutureState :=
  { f with ready := true, failed, result, failureType := type, failureMessage := message }

def resolveActivity (r : Runner σ) (scheduledEventId : Nat) (failed : Bool) (result : Payloads)
    (type message : String) : Runner σ :=
  r.resolveFuture ((r.scan.schedEventToActivity scheduledEventId).bind r.activityFutures)
    (resolved failed result type message)

def resolveNexusOperation (r : Runner σ) (scheduledEventId : Nat) (failed : Bool)
    (result : Payloads) (type message : String) : Runner σ :=
  r.resolveFuture ((r.scan.schedEventToNexus scheduledEventId).bind r.nexusFutures)
    (resolved failed result type message)

/-- A child's future keeps the fields its closing event does not write. -/
def childCompleted (result : Payloads) (f : FutureState) : FutureState :=
  { f with ready := true, result }

def childFailed (type message : String) (f : FutureState) : FutureState :=
  { f with ready := true, failed := true, failureMessage := message, failureType := type }

/-- The switch of `ApplyEventToState`. -/
def applyEventToState (r : Runner σ) (ev : HistoryEvent) : Runner σ :=
  match ev.attributes with
  | .activityTaskScheduled id _ =>
    { r with scan := { r.scan with
        schedEventToActivity := r.scan.schedEventToActivity.insert ev.eventId id
        activityToSchedEvent := r.scan.activityToSchedEvent.insert id ev.eventId } }
  | .nexusOperationScheduled =>
    let id := toString r.scan.nexusOpsScheduled
    { r with scan := { r.scan with
        nexusOpsScheduled := r.scan.nexusOpsScheduled + 1
        nexusOps := r.scan.nexusOps.modify id {} OpOutcome.schedule
        schedEventToNexus := r.scan.schedEventToNexus.insert ev.eventId id } }
  | .nexusOperationCompleted sid result => r.resolveNexusOperation sid false [result] "" ""
  | .nexusOperationFailed sid f => r.resolveNexusOperation sid true [] f.type f.message
  | .nexusOperationTimedOut sid =>
    r.resolveNexusOperation sid true [] "TimeoutError" "nexus operation timed out"
  | .nexusOperationCanceled sid =>
    r.resolveNexusOperation sid true [] "CanceledError" "nexus operation cancelled"
  | .activityTaskCompleted sid result => r.resolveActivity sid false result "" ""
  | .activityTaskFailed sid f => r.resolveActivity sid true [] f.type f.message
  | .activityTaskTimedOut sid =>
    r.resolveActivity sid true [] "TimeoutError" "activity timed out"
  | .activityTaskCanceled sid =>
    r.resolveActivity sid true [] "CanceledError" "activity cancelled"
  | .activityTaskCancelRequested sid =>
    { r with scan := r.scan.onActivity sid OpOutcome.requestCancel }
  | .timerFired id => r.resolveFuture (r.timerFutures id) fun f => { f with ready := true }
  | .timerCanceled id =>
    r.resolveFuture (r.timerFutures id) fun f => { f with ready := true, cancelled := true }
  | .childWorkflowExecutionCompleted id result =>
    r.resolveFuture (r.childFutures id) (childCompleted result)
  | .childWorkflowExecutionFailed id f =>
    r.resolveFuture (r.childFutures id) (childFailed f.type f.message)
  | .childWorkflowExecutionCanceled id =>
    r.resolveFuture (r.childFutures id) (childFailed "CanceledError" "child workflow cancelled")
  | .workflowExecutionSignaled name input =>
    { r with scan := { r.scan with signals := r.scan.signals.modify name [] (· ++ [input]) } }
  | .workflowExecutionCancelRequested =>
    r.cancelFutures.foldl (fun r a => r.setFuture a { r.futures a with ready := true })
      { r with scan := { r.scan with cancelRequested := true } }
  | _ => r

def lastEventId (r : Runner σ) : Nat := r.scan.lastEventId

/-- `ApplyEvents`, skipping what has been consumed before. -/
def applyEvents (r : Runner σ) (history : History) : Runner σ :=
  history.foldl (fun r ev =>
    if ev.eventId ≤ r.scan.lastEventId then r
    else
      let r' := r.applyEventToState ev
      { r' with scan := { r'.scan with lastEventId := ev.eventId } }) r

theorem applyEvents_cons_stale (r : Runner σ) {e : HistoryEvent} {evs : History}
    (h : e.eventId ≤ r.scan.lastEventId) : r.applyEvents (e :: evs) = r.applyEvents evs := by
  simp only [applyEvents, List.foldl_cons, if_pos h]

/-- Events that have been consumed before change nothing. -/
theorem applyEvents_of_stale (r : Runner σ) {evs : History}
    (h : ∀ e ∈ evs, e.eventId ≤ r.lastEventId) : r.applyEvents evs = r := by
  induction evs with
  | nil => rfl
  | cons e evs ih =>
    rw [r.applyEvents_cons_stale (h e List.mem_cons_self)]
    exact ih fun x hx => h x (List.mem_cons_of_mem e hx)

/-- One new event: its effect, then the position. -/
def applyOne (r : Runner σ) (e : HistoryEvent) : Runner σ :=
  { r.applyEventToState e with
    scan := { (r.applyEventToState e).scan with lastEventId := e.eventId } }

theorem applyEvents_cons_new (r : Runner σ) {e : HistoryEvent} {evs : History}
    (h : r.scan.lastEventId < e.eventId) :
    r.applyEvents (e :: evs) = (r.applyOne e).applyEvents evs := by
  simp only [applyEvents, List.foldl_cons, if_neg (Nat.not_le.mpr h), applyOne]

/-- The loop condition of `ReapplyHistoricalUpdates`, and the ways its body is left early. -/
def halted (r : Runner σ) : Bool := !r.started || r.done || r.deadlocked || r.hung || r.escaped

def reapplyStep (fuel : Nat) (r : Runner σ) (s : ReplayStep) : Runner σ :=
  if r.halted then r
  else
    let r' := match s with
      | .update name args => r.reapplyUpdate fuel name args
      | .event ev => r.applyEventToState ev
    if r'.halted then r' else r'.resumeCoroutine fuel

def reapplyHistoricalUpdates (fuel : Nat) (r : Runner σ) : Runner σ :=
  r.scan.postUpdateTimeline.foldl (reapplyStep fuel) r

/-- `Run`: the first task of an execution, and every replay from scratch. -/
def run (fuel : Nat) (r : Runner σ) : Runner σ :=
  reapplyHistoricalUpdates fuel
    ({ r with commands := [], producedCommands := [], started := true }.resumeCoroutine fuel)

/-- `ApplyAndResume`: a sticky continuation. -/
def applyAndResume (fuel : Nat) (r : Runner σ) (history : History) : Runner σ :=
  let r' := { r with commands := [], producedCommands := [] }.applyEvents history
  if r'.started then r'.resumeCoroutine fuel else r'

def checkDeterminism (r : Runner σ) : Option String :=
  matchReplayCommands r.producedCommands r.scan.commands

def isDone (r : Runner σ) : Bool := r.started && r.done

/-- The terminal command the response of a task carries. -/
def terminalCommand (r : Runner σ) : Option Command :=
  match r.status with
  | .completed => some (.completeWorkflowExecution r.result)
  | .failed => some (.failWorkflowExecution r.failure)
  | .continueAsNew =>
    some (.continueAsNewWorkflowExecution r.continueAsNew.1 r.continueAsNew.2)
  | .blocked => none

/-- A fresh runner on a history, as every replay path builds it. -/
def replay (info : WorkflowInfo) (isReplaying : Bool) (world : World σ) (fn : WorkflowFn σ)
    (history : History) : Runner σ :=
  .new info isReplaying (scanHistory history) world fn (scanHistory history).input

end Runner
end TemporalSdk
