import TemporalSdk.Payload

/-! History events as the engine reads them, the commands it emits, and the event the server
records for each command. -/
namespace TemporalSdk

/-- Event attributes, one constructor per event type the engine distinguishes. Child starts
that fail and children that time out or are terminated fall into the default branch of both
switches; every event type that carries nothing the engine reads is `other`. -/
inductive EventAttributes where
  | workflowExecutionStarted (workflowType : String) (input : Payloads) (header : Header)
  | workflowExecutionCompleted (result : Payloads)
  | workflowExecutionFailed (failure : Failure)
  | workflowExecutionContinuedAsNew (workflowType : String) (input : Payloads)
  | workflowExecutionSignaled (signalName : String) (input : Payloads)
  | workflowExecutionCancelRequested
  | workflowExecutionUpdateAccepted (name : String) (args : Payloads)
  | activityTaskScheduled (activityId activityType : String)
  | activityTaskCancelRequested (scheduledEventId : Nat)
  | activityTaskCompleted (scheduledEventId : Nat) (result : Payloads)
  | activityTaskFailed (scheduledEventId : Nat) (failure : Failure)
  | activityTaskTimedOut (scheduledEventId : Nat)
  | activityTaskCanceled (scheduledEventId : Nat)
  | timerStarted (timerId : String)
  | timerFired (timerId : String)
  | timerCanceled (timerId : String)
  | startChildWorkflowExecutionInitiated (workflowId workflowType : String)
  | startChildWorkflowExecutionFailed (workflowId : String)
  | childWorkflowExecutionCompleted (workflowId : String) (result : Payloads)
  | childWorkflowExecutionFailed (workflowId : String) (failure : Failure)
  | childWorkflowExecutionCanceled (workflowId : String)
  | childWorkflowExecutionTimedOut (workflowId : String)
  | childWorkflowExecutionTerminated (workflowId : String)
  | requestCancelExternalWorkflowExecutionInitiated (workflowId : String)
  | signalExternalWorkflowExecutionInitiated (workflowId : String)
  | upsertWorkflowSearchAttributes
  | nexusOperationScheduled
  | nexusOperationCompleted (scheduledEventId : Nat) (result : Payload)
  | nexusOperationFailed (scheduledEventId : Nat) (failure : Failure)
  | nexusOperationTimedOut (scheduledEventId : Nat)
  | nexusOperationCanceled (scheduledEventId : Nat)
  | markerRecorded (markerName : String) (details : List (String × Payloads))
  | other
  deriving DecidableEq, Repr, Inhabited

structure HistoryEvent where
  eventId : Nat
  attributes : EventAttributes
  deriving DecidableEq, Repr, Inhabited

abbrev History := List HistoryEvent

structure ScheduleActivityAttributes where
  activityId : String
  activityType : String
  taskQueue : String
  input : Payloads
  header : Header
  scheduleToCloseTimeout : Option Duration
  scheduleToStartTimeout : Option Duration
  startToCloseTimeout : Option Duration
  heartbeatTimeout : Option Duration
  retryPolicy : Option ProtoRetryPolicy
  deriving DecidableEq, Repr, Inhabited

/-- `temporal.api.command.v1.Command`, one constructor per command type the SDK emits. -/
inductive Command where
  | scheduleActivityTask (attributes : ScheduleActivityAttributes)
  | requestCancelActivityTask (scheduledEventId : Nat)
  | startTimer (timerId : String) (startToFireTimeout : Duration)
  | cancelTimer (timerId : String)
  | startChildWorkflowExecution (ns workflowId workflowType taskQueue : String)
      (input : Payloads) (parentClosePolicy : ParentClosePolicy)
  | requestCancelExternalWorkflowExecution (ns workflowId : String) (childWorkflowOnly : Bool)
  | signalExternalWorkflowExecution (ns workflowId signalName : String) (input : Payloads)
  | upsertWorkflowSearchAttributes (indexedFields : List (String × Payload))
  | scheduleNexusOperation (endpoint service operation : String) (input : Payload)
      (scheduleToCloseTimeout : Option Duration)
  | recordMarker (markerName : String) (details : List (String × Payloads))
  | completeWorkflowExecution (result : Payloads)
  | failWorkflowExecution (failure : Failure)
  | continueAsNewWorkflowExecution (workflowType : String) (input : Payloads)
  deriving DecidableEq, Repr, Inhabited

/-- The event the server appends for a command of a completed task. -/
def Command.event : Command → EventAttributes
  | .scheduleActivityTask a => .activityTaskScheduled a.activityId a.activityType
  | .requestCancelActivityTask id => .activityTaskCancelRequested id
  | .startTimer id _ => .timerStarted id
  | .cancelTimer id => .timerCanceled id
  | .startChildWorkflowExecution _ id type _ _ _ => .startChildWorkflowExecutionInitiated id type
  | .requestCancelExternalWorkflowExecution _ id _ =>
    .requestCancelExternalWorkflowExecutionInitiated id
  | .signalExternalWorkflowExecution _ id _ _ => .signalExternalWorkflowExecutionInitiated id
  | .upsertWorkflowSearchAttributes _ => .upsertWorkflowSearchAttributes
  | .scheduleNexusOperation .. => .nexusOperationScheduled
  | .recordMarker name details => .markerRecorded name details
  | .completeWorkflowExecution result => .workflowExecutionCompleted result
  | .failWorkflowExecution failure => .workflowExecutionFailed failure
  | .continueAsNewWorkflowExecution type input => .workflowExecutionContinuedAsNew type input

/-- The events that record a command. -/
def EventAttributes.isCommand : EventAttributes → Bool
  | .activityTaskScheduled .. | .activityTaskCancelRequested .. | .timerStarted ..
  | .timerCanceled .. | .startChildWorkflowExecutionInitiated ..
  | .requestCancelExternalWorkflowExecutionInitiated ..
  | .signalExternalWorkflowExecutionInitiated .. | .upsertWorkflowSearchAttributes
  | .nexusOperationScheduled | .markerRecorded .. | .workflowExecutionCompleted ..
  | .workflowExecutionFailed .. | .workflowExecutionContinuedAsNew .. => true
  | _ => false

@[simp] theorem Command.event_isCommand (c : Command) : c.event.isCommand = true := by
  cases c <;> rfl

/-- The command events of a history, in order. -/
def History.commandEvents (h : History) : List EventAttributes :=
  (h.map HistoryEvent.attributes).filter EventAttributes.isCommand

@[simp] theorem History.commandEvents_append (h t : History) :
    History.commandEvents (h ++ t) = History.commandEvents h ++ History.commandEvents t := by
  simp [History.commandEvents]

end TemporalSdk
