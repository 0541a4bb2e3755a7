import Mathlib.Tactic.IntervalCases
import TemporalSdk.Completion

/-!
The protocol messages of a task. The reply is a concatenation of blocks, one for each update
request in request order, and each request is served in the state that the requests accepted
before it have left.
-/
namespace TemporalSdk

variable {σ : Type}

namespace TaskMessage

/-- The Rejection that names the request. -/
def reject (msg : TaskMessage) (request : UpdateRequest) (what : String) : ReplyMessage :=
  ⟨msg.protocolInstanceId ++ "/reject", msg.protocolInstanceId,
    .rejection msg.id msg.eventId request
      (makeApplicationFailure what "UpdateValidationRejected" false)⟩

/-- The Acceptance of the request. -/
def accept (msg : TaskMessage) (request : UpdateRequest) : ReplyMessage :=
  ⟨msg.protocolInstanceId ++ "/accept", msg.protocolInstanceId,
    .acceptance msg.id msg.eventId request⟩

/-- The Response with the outcome of the request's handler. -/
def respond (msg : TaskMessage) (identity : String) (outcome : Except Failure Payloads) :
    ReplyMessage :=
  ⟨msg.protocolInstanceId ++ "/complete", msg.protocolInstanceId,
    .response msg.protocolInstanceId identity outcome⟩

/-- The block of a request: a Rejection if the validator threw, else an Acceptance and one
Response with the handler's result or failure. -/
def block (msg : TaskMessage) (identity : String) (request : UpdateRequest)
    (validated handled : HandlerExit) : List ReplyMessage :=
  match validated with
  | .threw what => [msg.reject request what]
  | _ =>
    match handled with
    | .threw what =>
      [msg.accept request,
        msg.respond identity (.error (makeApplicationFailure what "UpdateFailed" false))]
    | .returned result => [msg.accept request, msg.respond identity (.ok result)]
    | _ => [msg.accept request]

end TaskMessage

namespace Runner

/-- The validator of a request lets it through. -/
def accepts (fuel : Nat) (r : Runner σ) (u : UpdateRequest) : Bool :=
  match (r.validateUpdate fuel u).2 with
  | .threw _ => false
  | _ => true

/-- The state an accepted request leaves is that of its handler; any other message leaves the
state as it is. -/
def afterMessage (fuel : Nat) (r : Runner σ) (msg : TaskMessage) : Runner σ :=
  match msg.body with
  | none => r
  | some u => if r.accepts fuel u then (r.runUpdate fuel u).1 else r

/-- The reply to a message in a state. -/
def blockOf (fuel : Nat) (identity : String) (r : Runner σ) (msg : TaskMessage) :
    List ReplyMessage :=
  match msg.body with
  | none => []
  | some u => msg.block identity u (r.validateUpdate fuel u).2 (r.runUpdate fuel u).2

/-- The callbacks of a message return or throw a `std::exception`, and its validator leaves the
workflow's state alone. -/
def Behaves (fuel : Nat) (r : Runner σ) (msg : TaskMessage) : Prop :=
  ∀ u, msg.body = some u →
    (r.validateUpdate fuel u).1 = r ∧ (r.validateUpdate fuel u).2.isBack = true ∧
    (r.accepts fuel u = true → (r.runUpdate fuel u).2.isBack = true)

/-- What a request got and what it left behind. -/
protected inductive Served (fuel : Nat) (identity : String) (r : Runner σ) (msg : TaskMessage)
    (u : UpdateRequest) : Prop
  | rejected (what : String) (threw : (r.validateUpdate fuel u).2 = .threw what)
      (block : r.blockOf fuel identity msg = [msg.reject u what])
      (unchanged : r.afterMessage fuel msg = r)
  | succeeded (result : Payloads) (accepted : r.accepts fuel u = true)
      (returned : (r.runUpdate fuel u).2 = .returned result)
      (block : r.blockOf fuel identity msg = [msg.accept u, msg.respond identity (.ok result)])
      (left : r.afterMessage fuel msg = (r.runUpdate fuel u).1)
  | failed (what : String) (accepted : r.accepts fuel u = true)
      (threw : (r.runUpdate fuel u).2 = .threw what)
      (block : r.blockOf fuel identity msg =
        [msg.accept u,
          msg.respond identity (.error (makeApplicationFailure what "UpdateFailed" false))])
      (left : r.afterMessage fuel msg = (r.runUpdate fuel u).1)

theorem Behaves.served {fuel : Nat} (identity : String) {r : Runner σ} {msg : TaskMessage}
    (h : r.Behaves fuel msg) {u : UpdateRequest} (hb : msg.body = some u) :
    r.Served fuel identity msg u := by
  obtain ⟨-, hvalid, hrun⟩ := h u hb
  cases hv : (r.validateUpdate fuel u).2 with
  | escaped =>
    rw [hv] at hvalid
    cases hvalid
  | hung =>
    rw [hv] at hvalid
    cases hvalid
  | threw what =>
    have hrejects : r.accepts fuel u = false := by simp only [accepts, hv]
    exact .rejected what hv (by simp only [blockOf, hb, TaskMessage.block, hv])
      (by simp only [afterMessage, hb, hrejects, Bool.false_eq_true, ↓reduceIte])
  | returned ignored =>
    have haccepts : r.accepts fuel u = true := by simp only [accepts, hv]
    have hleft : r.afterMessage fuel msg = (r.runUpdate fuel u).1 := by
      simp only [afterMessage, hb, haccepts, ↓reduceIte]
    have hback := hrun haccepts
    cases hu : (r.runUpdate fuel u).2 with
    | escaped =>
      rw [hu] at hback
      cases hback
    | hung =>
      rw [hu] at hback
      cases hback
    | threw what =>
      exact .failed what haccepts hu (by simp only [blockOf, hb, TaskMessage.block, hv, hu]) hleft
    | returned result =>
      exact .succeeded result haccepts hu (by simp only [blockOf, hb, TaskMessage.block, hv, hu])
        hleft

end Runner

namespace TaskHandler

variable {h : TaskHandler σ} {remote : Remote} {s : HandlerState σ} {task : WorkflowTask}

end TaskHandler

end TemporalSdk
