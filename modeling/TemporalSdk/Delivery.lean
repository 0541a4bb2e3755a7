import TemporalSdk.Execution

/-! The events that resolve a future or deliver a signal, in one normal form. Both switches,
`ScanHistory` over the outcome tables and `ApplyEventToState` over live futures, are read
through it. -/
namespace TemporalSdk

/-- How an operation ended. -/
inductive Closing where
  | completed (result : Payloads)
  | failed (type message : String)
  deriving DecidableEq, Repr, Inhabited

/-- What a deferred event delivers: the end of an operation, named as its event names it, a
signal or the cancel request. -/
inductive Delivery where
  | activity (scheduledEventId : Nat) (c : Closing)
  | nexus (scheduledEventId : Nat) (c : Closing)
  | child (workflowId : String) (c : Closing)
  | timer (timerId : String)
  | signal (name : String) (input : Payloads)
  | cancelRequest
  deriving DecidableEq, Repr, Inhabited

def EventAttributes.delivery? : EventAttributes → Option Delivery
  | .activityTaskCompleted sid result => some (.activity sid (.completed result))
  | .activityTaskFailed sid f => some (.activity sid (.failed f.type f.message))
  | .activityTaskTimedOut sid => some (.activity sid (.failed "TimeoutError" "activity timed out"))
  | .activityTaskCanceled sid =>
    some (.activity sid (.failed "CanceledError" "activity cancelled"))
  | .timerFired id => some (.timer id)
  | .childWorkflowExecutionCompleted id result => some (.child id (.completed result))
  | .childWorkflowExecutionFailed id f => some (.child id (.failed f.type f.message))
  | .childWorkflowExecutionCanceled id =>
    some (.child id (.failed "CanceledError" "child workflow cancelled"))
  | .nexusOperationCompleted sid result => some (.nexus sid (.completed [result]))
  | .nexusOperationFailed sid f => some (.nexus sid (.failed f.type f.message))
  | .nexusOperationTimedOut sid =>
    some (.nexus sid (.failed "TimeoutError" "nexus operation timed out"))
  | .nexusOperationCanceled sid =>
    some (.nexus sid (.failed "CanceledError" "nexus operation cancelled"))
  | .workflowExecutionSignaled name input => some (.signal name input)
  | .workflowExecutionCancelRequested => some .cancelRequest
  | _ => none

def Closing.outcome : Closing → OpOutcome → OpOutcome
  | .completed result => OpOutcome.complete result
  | .failed type message => OpOutcome.fail type message

/-- The write of `ResolveActivity` and `ResolveNexusOperation`. -/
def Closing.resolve : Closing → FutureState → FutureState
  | .completed result => Runner.resolved false result "" ""
  | .failed type message => Runner.resolved true [] type message

/-- The write of the child branches. -/
def Closing.resolveChild : Closing → FutureState → FutureState
  | .completed result => Runner.childCompleted result
  | .failed type message => Runner.childFailed type message

def Prescan.deliver (ps : Prescan) : Delivery → Prescan
  | .activity sid c => ps.onActivity sid c.outcome
  | .nexus sid c => ps.onNexus sid c.outcome
  | .child id c => ps.onChild id c.outcome
  | .timer id => ps.onTimer id fun o => { o with fired := true }
  | .signal name input => { ps with signals := ps.signals.modify name [] (· ++ [input]) }
  | .cancelRequest => { ps with cancelRequested := true }

def Runner.deliver {σ : Type} (r : Runner σ) : Delivery → Runner σ
  | .activity sid c =>
    r.resolveFuture ((r.scan.schedEventToActivity sid).bind r.activityFutures) c.resolve
  | .nexus sid c =>
    r.resolveFuture ((r.scan.schedEventToNexus sid).bind r.nexusFutures) c.resolve
  | .child id c => r.resolveFuture (r.childFutures id) c.resolveChild
  | .timer id => r.resolveFuture (r.timerFutures id) fun f => { f with ready := true }
  | .signal name input =>
    { r with scan := { r.scan with signals := r.scan.signals.modify name [] (· ++ [input]) } }
  | .cancelRequest =>
    r.cancelFutures.foldl (fun r a => r.setFuture a { r.futures a with ready := true })
      { r with scan := { r.scan with cancelRequested := true } }

theorem Prescan.scanEvent_deliver (ps : Prescan) {ev : HistoryEvent} {d : Delivery}
    (h : ev.attributes.delivery? = some d) : ps.scanEvent ev = ps.deliver d := by
  obtain ⟨id, a⟩ := ev
  cases a <;> simp only [EventAttributes.delivery?, reduceCtorEq, Option.some.injEq] at h <;>
    subst h <;> rfl

theorem Runner.applyEventToState_deliver {σ : Type} (r : Runner σ) {ev : HistoryEvent}
    {d : Delivery} (h : ev.attributes.delivery? = some d) :
    r.applyEventToState ev = r.deliver d := by
  obtain ⟨id, a⟩ := ev
  cases a <;> simp only [EventAttributes.delivery?, reduceCtorEq, Option.some.injEq] at h <;>
    subst h <;> rfl

end TemporalSdk
