import TemporalSdk.ActivityHandler
import TemporalSdk.Execution

/-! Application errors on their way into a failure and back: `DefaultFailureConverter`, and the
places where a body's or an activity's error is encoded, with and without a converter installed. -/
namespace TemporalSdk

/-- `ApplicationError`; the message is what `what()` returns. -/
structure ApplicationError where
  message : String
  type : String := ""
  nonRetryable : Bool := false
  deriving DecidableEq, Repr

structure ApplicationFailureInfo where
  type : String := ""
  nonRetryable : Bool := false
  deriving DecidableEq, Repr

/-- `temporal.api.failure.v1.Failure`: the info is the only variant the SDK writes or reads. -/
structure FailureProto where
  message : String := ""
  source : String := ""
  applicationFailureInfo : Option ApplicationFailureInfo := none
  deriving DecidableEq, Repr

/-- `kSource`. -/
def kSource : String := "cpp-sdk"

namespace DefaultFailureConverter

/-- `ErrorToFailure` on an `ApplicationError`, or on the text of another `std::exception`. -/
def errorToFailure : ApplicationError ⊕ String → FailureProto
  | .inl app =>
    { message := app.message, source := kSource
      applicationFailureInfo := some { type := app.type, nonRetryable := app.nonRetryable } }
  | .inr what => { message := what, source := kSource, applicationFailureInfo := some {} }

/-- `FailureToError`. -/
def failureToError (failure : FailureProto) : ApplicationError :=
  match failure.applicationFailureInfo with
  | some info => ⟨failure.message, info.type, info.nonRetryable⟩
  | none => { message := failure.message }

end DefaultFailureConverter

open DefaultFailureConverter

/-- The failure that `MakeApplicationFailure` makes, on the wire. -/
def Failure.proto (f : Failure) : FailureProto :=
  { message := f.message
    applicationFailureInfo := some { type := f.type, nonRetryable := f.nonRetryable } }

/-- A failure without its source; fields of a missing submessage read as their defaults. -/
def FailureProto.failure (p : FailureProto) : Failure :=
  let info := p.applicationFailureInfo.getD {}
  { message := p.message, type := info.type, nonRetryable := info.nonRetryable }

/-- No source is needed to decode a failure. -/
theorem failureToError_failure (p : FailureProto) :
    failureToError p.failure.proto = failureToError p := by
  obtain ⟨message, source, info⟩ := p
  cases info <;> rfl

/-- The converter round-trips an application error. -/
theorem failureToError_errorToFailure (e : ApplicationError) :
    failureToError (errorToFailure (.inl e)) = e := rfl

/-- The error a body or a function ends with, as `std::exception`. -/
def Outcome.error? : Outcome → Option (ApplicationError ⊕ String)
  | .applicationError message type nonRetryable => some (.inl ⟨message, type, nonRetryable⟩)
  | .stdException what => some (.inr what)
  | _ => none

def Thrown.error? : Thrown → Option (ApplicationError ⊕ String)
  | .applicationError message type nonRetryable => some (.inl ⟨message, type, nonRetryable⟩)
  | .stdException what => some (.inr what)
  | .nonStd => none

/-- The default converter as a worker's bodies use it. -/
def installedForBodies (o : Outcome) : Failure :=
  ((o.error?.map errorToFailure).getD {}).failure

/-- The default converter as a worker's activities use it. -/
def installedForActivities (e : Thrown) : Except Thrown Failure :=
  .ok ((e.error?.map errorToFailure).getD {}).failure

/-- `failure_converter_`: none, or the default one. -/
def installed {α : Type} (converter : α) : Bool → Option α
  | true => some converter
  | false => none

section Body

variable {σ : Type} {r : Runner σ} {e : ApplicationError} {withConverter : Bool}

/-- The failure in the command of a body that an application error has escaped. -/
theorem body_failure (hdone : r.done = false)
    (hescapes : (r.program r.trace).outcome? =
      some (.applicationError e.message e.type e.nonRetryable))
    (hconverter : r.world.failureConverter = installed installedForBodies withConverter) :
    ∃ r', r.step = some r' ∧ r'.terminalCommand = some (.failWorkflowExecution
      (if withConverter then (errorToFailure (.inl e)).failure
        else makeApplicationFailure e.message e.type false)) := by
  refine ⟨r.finishBody (.applicationError e.message e.type e.nonRetryable), ?_, ?_⟩
  · simp only [Runner.step, hdone, Bool.false_eq_true, if_false, hescapes]
  · simp only [Runner.finishBody, Runner.produce, Runner.terminalCommand, Runner.bodyFailure,
      hconverter]
    cases withConverter <;> rfl

end Body

section Activity

variable {ω : Type} {h : ActivityTaskHandler ω} {task : ActivityTask} {fn : RemoteActivityFn ω}
  {w : ω} {e : ApplicationError} {withConverter : Bool}

/-- The failure in the response of an activity that an application error has escaped. -/
theorem activity_failure (hfn : h.activities task.activityType = some fn)
    (hescapes : (h.execute task fn w).outcome =
      .error (.applicationError e.message e.type e.nonRetryable))
    (hconverter : h.failureConverter = installed installedForActivities withConverter) :
    (h.handle task w).attempts = [.respondActivityTaskFailed task.taskToken h.identity
      (if withConverter then (errorToFailure (.inl e)).failure
        else makeApplicationFailure e.message e.type e.nonRetryable)] := by
  have htried : h.complete task (h.execute task fn w) =
      { attempts := []
        escaped := some (.applicationError e.message e.type e.nonRetryable)
        world := (h.execute task fn w).world } := by
    rw [ActivityTaskHandler.complete, hescapes]
  simp only [ActivityTaskHandler.handle, hfn, htried, ActivityTaskHandler.fail,
    ActivityTaskHandler.report, ActivityTaskHandler.failureOf, hconverter, List.nil_append]
  cases withConverter <;> rfl

end Activity

/-- An application error survives its encoding on every path but one: a body that runs without a
failure converter loses the flag of an error that must not be retried. -/
theorem applicationErrors_survive_iff {σ ω : Type} (e : ApplicationError) (withConverter : Bool) :
    (∀ r : Runner σ, r.done = false →
      (r.program r.trace).outcome? = some (.applicationError e.message e.type e.nonRetryable) →
      r.world.failureConverter = installed installedForBodies withConverter →
      ∃ r' f, r.step = some r' ∧ r'.terminalCommand = some (.failWorkflowExecution f) ∧
        (failureToError f.proto = e ↔ withConverter = true ∨ e.nonRetryable = false)) ∧
    (∀ (h : ActivityTaskHandler ω) task fn w, h.activities task.activityType = some fn →
      (h.execute task fn w).outcome = .error (.applicationError e.message e.type e.nonRetryable) →
      h.failureConverter = installed installedForActivities withConverter →
      ∃ f, (h.handle task w).attempts =
          [.respondActivityTaskFailed task.taskToken h.identity f] ∧
        failureToError f.proto = e) ∧
    failureToError (errorToFailure (.inl e)) = e := by
  refine ⟨?_, ?_, failureToError_errorToFailure e⟩
  · intro r hdone hescapes hconverter
    obtain ⟨r', hstep, hcommand⟩ := body_failure hdone hescapes hconverter
    refine ⟨r', _, hstep, hcommand, ?_⟩
    cases withConverter with
    | true => exact iff_of_true (failureToError_failure _) (.inl rfl)
    | false =>
      obtain ⟨message, type, nonRetryable⟩ := e
      cases nonRetryable with
      | true => exact iff_of_false (fun hsame => by cases hsame) (by simp)
      | false => exact iff_of_true rfl (.inr rfl)
  · intro h task fn w hfn hescapes hconverter
    refine ⟨_, activity_failure hfn hescapes hconverter, ?_⟩
    cases withConverter with
    | true => exact failureToError_failure _
    | false => rfl

/-- A payment that must not be tried again. -/
def declined : ApplicationError := ⟨"card declined", "PaymentError", true⟩

def declinedWorkflow : WorkflowFn Unit where
  init := ()
  body _ _ := .finish (.applicationError "card declined" "PaymentError" true)

/-- A runner of it, before its first step. -/
def declinedRunner (withConverter : Bool) : Runner Unit :=
  Runner.replay {} false
    { World.plain .tagged with failureConverter := installed installedForBodies withConverter }
    declinedWorkflow [⟨1, .workflowExecutionStarted "Pay" [] []⟩]

def declinedActivities : ActivityTaskHandler Unit where
  identity := "1@host"
  taskQueue := "payments"
  activities _ := some fun ctx _ w =>
    ⟨.error (.applicationError "card declined" "PaymentError" true), ctx, w⟩
  interceptors := []
  failureConverter := none
  stub _ w := (⟨.ok, ""⟩, w)

/-- With the default converter the payment's error survives in the body, and without any in an
activity. -/
theorem applicationErrors_survive_declined :
    (∃ r' f, (declinedRunner true).step = some r' ∧
      r'.terminalCommand = some (.failWorkflowExecution f) ∧ failureToError f.proto = declined) ∧
    ∃ f, (declinedActivities.handle {} ()).attempts =
        [.respondActivityTaskFailed "" "1@host" f] ∧ failureToError f.proto = declined := by
  obtain ⟨r', f, hstep, hcommand, hiff⟩ :=
    (applicationErrors_survive_iff (σ := Unit) (ω := Unit) declined true).1 (declinedRunner true)
      rfl rfl rfl
  exact ⟨⟨r', f, hstep, hcommand, hiff.mpr (.inl rfl)⟩,
    (applicationErrors_survive_iff (σ := Unit) (ω := Unit) declined false).2.1 declinedActivities {}
      _ () rfl rfl rfl⟩

/-- Thrown from a body without a failure converter, it arrives as an error that may be retried. -/
theorem body_drops_nonRetryable :
    ∃ r', (declinedRunner false).step = some r' ∧
      r'.terminalCommand =
        some (.failWorkflowExecution ⟨"card declined", "PaymentError", false⟩) ∧
      failureToError (Failure.proto ⟨"card declined", "PaymentError", false⟩) ≠ declined :=
  ⟨_, rfl, rfl, by decide⟩

end TemporalSdk
