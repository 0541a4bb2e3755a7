import TemporalSdk.Determinism
import TemporalSdk.Lib.PartialMap

/-! The prescan of `workflow_task_handler.cpp`: one walk over the history that indexes the
inputs and outcomes a runner replays against. -/
namespace TemporalSdk

/-- `ActivityOutcome`, `ChildOutcome` and `NexusOpOutcome` in one record: `scheduled` is the
child's `initiated`, and a Nexus operation never sets `cancelRequested`. -/
structure OpOutcome where
  scheduled : Bool := false
  resolved : Bool := false
  failed : Bool := false
  cancelRequested : Bool := false
  result : Payloads := []
  failureType : String := ""
  failureMessage : String := ""
  deriving DecidableEq, Repr, Inhabited

structure TimerOutcome where
  started : Bool := false
  fired : Bool := false
  cancelled : Bool := false
  deriving DecidableEq, Repr, Inhabited

/-- A recorded MutableSideEffect marker, still encoded. -/
structure MutableSideEffectMarkerRaw where
  id : Payload
  callIndex : Payload
  data : Payload
  deriving DecidableEq, Repr, Inhabited

/-- A recorded LocalActivity marker, still encoded. -/
structure LocalActivityMarkerRaw where
  failed : Bool := false
  result : Payloads := []
  failureType : Payload := {}
  failureMessage : Payload := {}
  deriving DecidableEq, Repr, Inhabited

/-- One step of the replay timeline that follows the first accepted update. -/
inductive ReplayStep where
  | event (ev : HistoryEvent)
  | update (name : String) (args : Payloads)
  deriving DecidableEq, Repr, Inhabited

structure Prescan where
  input : Payloads := []
  headers : Header := []
  activities : PartialMap String OpOutcome := fun _ => none
  timers : PartialMap String TimerOutcome := fun _ => none
  children : PartialMap String OpOutcome := fun _ => none
  nexusOps : PartialMap String OpOutcome := fun _ => none
  signals : PartialMap String (List Payloads) := fun _ => none
  cancelRequested : Bool := false
  extSignalsInitiated : Nat := 0
  upsertsInitiated : Nat := 0
  schedEventToActivity : PartialMap Nat String := fun _ => none
  activityToSchedEvent : PartialMap String Nat := fun _ => none
  schedEventToNexus : PartialMap Nat String := fun _ => none
  nexusOpsScheduled : Nat := 0
  lastEventId : Nat := 0
  commands : List CommandEvent := []
  sideEffects : List Payload := []
  versionMarkers : List (Payloads × Payloads) := []
  mutableSideEffectMarkers : List MutableSideEffectMarkerRaw := []
  localActivities : List LocalActivityMarkerRaw := []
  postUpdateTimeline : List ReplayStep := []

/-- Events that only resolve a future or deliver a signal. -/
def isDeferredOnReplay : EventAttributes → Bool
  | .activityTaskCompleted .. | .activityTaskFailed .. | .activityTaskTimedOut ..
  | .activityTaskCanceled .. | .timerFired .. | .childWorkflowExecutionCompleted ..
  | .childWorkflowExecutionFailed .. | .childWorkflowExecutionCanceled ..
  | .nexusOperationCompleted .. | .nexusOperationFailed .. | .nexusOperationTimedOut ..
  | .nexusOperationCanceled .. | .workflowExecutionSignaled ..
  | .workflowExecutionCancelRequested => true
  | _ => false

def OpOutcome.schedule (o : OpOutcome) : OpOutcome := { o with scheduled := true }

def OpOutcome.requestCancel (o : OpOutcome) : OpOutcome := { o with cancelRequested := true }

def OpOutcome.complete (result : Payloads) (o : OpOutcome) : OpOutcome :=
  { o with resolved := true, result }

def OpOutcome.fail (type message : String) (o : OpOutcome) : OpOutcome :=
  { o with resolved := true, failed := true, failureMessage := message, failureType := type }

namespace Prescan

def pushCommand (ps : Prescan) (kind : CommandKind) (id name : String) : Prescan :=
  { ps with commands := ps.commands ++ [⟨kind, id, name⟩] }

/-- The activity whose schedule event a completion event names, if it is known. -/
def onActivity (ps : Prescan) (scheduledEventId : Nat) (f : OpOutcome → OpOutcome) : Prescan :=
  match ps.schedEventToActivity scheduledEventId with
  | some id => { ps with activities := ps.activities.modify id {} f }
  | none => ps

def onNexus (ps : Prescan) (scheduledEventId : Nat) (f : OpOutcome → OpOutcome) : Prescan :=
  match ps.schedEventToNexus scheduledEventId with
  | some id => { ps with nexusOps := ps.nexusOps.modify id {} f }
  | none => ps

def onChild (ps : Prescan) (workflowId : String) (f : OpOutcome → OpOutcome) : Prescan :=
  { ps with children := ps.children.modify workflowId {} f }

def onTimer (ps : Prescan) (timerId : String) (f : TimerOutcome → TimerOutcome) : Prescan :=
  { ps with timers := ps.timers.modify timerId {} f }

/-- The local-activity record of a marker: a failure message makes it a failure. -/
def localActivityMarker (details : List (String × Payloads)) : LocalActivityMarkerRaw :=
  match details.lookup "failure-message" with
  | some fm =>
    { failed := true
      failureMessage := fm.headD {}
      failureType := ((details.lookup "failure-type").getD []).headD {} }
  | none => { result := (details.lookup "result").getD [] }

/-- The marker branch of the scan. -/
def scanMarker (ps : Prescan) (name : String) (details : List (String × Payloads)) : Prescan :=
  if name = "SideEffect" then
    match details.lookup "data" with
    | some (p :: _) => { ps with sideEffects := ps.sideEffects ++ [p] }
    | _ => ps
  else if name = "Version" then
    match details.lookup "change-id", details.lookup "version" with
    | some id, some ver => { ps with versionMarkers := ps.versionMarkers ++ [(id, ver)] }
    | _, _ => ps
  else if name = "MutableSideEffect" then
    match details.lookup "id", details.lookup "mse-call-index", details.lookup "data" with
    | some (id :: _), some (idx :: _), some (data :: _) =>
      { ps with mutableSideEffectMarkers := ps.mutableSideEffectMarkers ++ [⟨id, idx, data⟩] }
    | _, _, _ => ps
  else if name = "LocalActivity" then
    { ps with localActivities := ps.localActivities ++ [localActivityMarker details] }
  else ps

/-- The switch of `ScanHistory`. -/
def scanEvent (ps : Prescan) (ev : HistoryEvent) : Prescan :=
  match ev.attributes with
  | .workflowExecutionStarted _ input header => { ps with input, headers := header }
  | .activityTaskScheduled id type =>
    { ps with
      activities := ps.activities.modify id {} OpOutcome.schedule
      schedEventToActivity := ps.schedEventToActivity.insert ev.eventId id
      activityToSchedEvent := ps.activityToSchedEvent.insert id ev.eventId
      commands := ps.commands ++ [⟨.activity, id, type⟩] }
  | .activityTaskCancelRequested sid =>
    (ps.pushCommand .requestCancelActivity (toString sid) "").onActivity sid
      OpOutcome.requestCancel
  | .activityTaskCompleted sid result => ps.onActivity sid (OpOutcome.complete result)
  | .activityTaskFailed sid f => ps.onActivity sid (OpOutcome.fail f.type f.message)
  | .activityTaskTimedOut sid =>
    ps.onActivity sid (OpOutcome.fail "TimeoutError" "activity timed out")
  | .activityTaskCanceled sid =>
    ps.onActivity sid (OpOutcome.fail "CanceledError" "activity cancelled")
  | .timerStarted id =>
    (ps.onTimer id fun o => { o with started := true }).pushCommand .timer id ""
  | .timerFired id => ps.onTimer id fun o => { o with fired := true }
  | .timerCanceled id =>
    (ps.onTimer id fun o => { o with cancelled := true }).pushCommand .cancelTimer id ""
  | .startChildWorkflowExecutionInitiated id type =>
    (ps.onChild id OpOutcome.schedule).pushCommand .childWorkflow id type
  | .childWorkflowExecutionCompleted id result => ps.onChild id (OpOutcome.complete result)
  | .childWorkflowExecutionFailed id f => ps.onChild id (OpOutcome.fail f.type f.message)
  | .childWorkflowExecutionCanceled id =>
    ps.onChild id (OpOutcome.fail "CanceledError" "child workflow cancelled")
  | .requestCancelExternalWorkflowExecutionInitiated id =>
    (ps.pushCommand .requestCancelExternalWorkflow id "").onChild id OpOutcome.requestCancel
  | .signalExternalWorkflowExecutionInitiated id =>
    { ps.pushCommand .signalExternalWorkflow id "" with
      extSignalsInitiated := ps.extSignalsInitiated + 1 }
  | .upsertWorkflowSearchAttributes =>
    { ps.pushCommand .upsertSearchAttributes "" "" with
      upsertsInitiated := ps.upsertsInitiated + 1 }
  | .nexusOperationScheduled =>
    let id := toString ps.nexusOpsScheduled
    { ps with
      nexusOpsScheduled := ps.nexusOpsScheduled + 1
      nexusOps := ps.nexusOps.modify id {} OpOutcome.schedule
      schedEventToNexus := ps.schedEventToNexus.insert ev.eventId id
      commands := ps.commands ++ [⟨.nexusOperation, id, ""⟩] }
  | .nexusOperationCompleted sid result => ps.onNexus sid (OpOutcome.complete [result])
  | .nexusOperationFailed sid f => ps.onNexus sid (OpOutcome.fail f.type f.message)
  | .nexusOperationTimedOut sid =>
    ps.onNexus sid (OpOutcome.fail "TimeoutError" "nexus operation timed out")
  | .nexusOperationCanceled sid =>
    ps.onNexus sid (OpOutcome.fail "CanceledError" "nexus operation cancelled")
  | .workflowExecutionSignaled name input =>
    { ps with signals := ps.signals.modify name [] (· ++ [input]) }
  | .workflowExecutionUpdateAccepted name args =>
    { ps with postUpdateTimeline := ps.postUpdateTimeline ++ [.update name args] }
  | .workflowExecutionCancelRequested => { ps with cancelRequested := true }
  | .markerRecorded name details => (ps.pushCommand .marker name "").scanMarker name details
  | .workflowExecutionCompleted _ => ps.pushCommand .completeWorkflow "" ""
  | .workflowExecutionFailed _ => ps.pushCommand .failWorkflow "" ""
  | .workflowExecutionContinuedAsNew .. => ps.pushCommand .continueAsNew "" ""
  | .startChildWorkflowExecutionFailed _ | .childWorkflowExecutionTimedOut _
  | .childWorkflowExecutionTerminated _ | .other => ps

end Prescan

def EventAttributes.isUpdateAccepted : EventAttributes → Bool
  | .workflowExecutionUpdateAccepted .. => true
  | _ => false

/-- One iteration of the scan loop. The second component is `seen_update`. -/
def scanStep (s : Prescan × Bool) (ev : HistoryEvent) : Prescan × Bool :=
  let ps := { s.1 with lastEventId := ev.eventId }
  if s.2 && isDeferredOnReplay ev.attributes then
    ({ ps with postUpdateTimeline := ps.postUpdateTimeline ++ [.event ev] }, s.2)
  else (ps.scanEvent ev, s.2 || ev.attributes.isUpdateAccepted)

def scanHistory (history : History) : Prescan := (history.foldl scanStep ({}, false)).1

end TemporalSdk
