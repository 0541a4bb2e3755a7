import Mathlib.Algebra.Group.Nat.Defs
import Mathlib.Data.Rat.Defs

/-! Payloads, failures, durations and the option records that cross the public API. -/
namespace TemporalSdk

/-- The ordinals the engine writes into ids stay apart. -/
theorem toString_nat_injective : Function.Injective (toString : Nat → String) := by
  intro m n h
  have hl : Nat.toDigits 10 m = Nat.toDigits 10 n := by
    rw [← Nat.toList_repr, ← Nat.toList_repr]
    exact congrArg String.toList h
  rw [← Nat.ofDigitChars_toDigits (b := 10) (n := m) (by omega) (by omega), hl,
    Nat.ofDigitChars_toDigits (by omega) (by omega)]

/-- `temporal::Payload`: opaque bytes with string metadata. -/
structure Payload where
  metadata : List (String × String) := []
  data : List UInt8 := []
  deriving DecidableEq, Repr, Inhabited

abbrev Payloads := List Payload

/-- Header maps, in the key order of `std::map`. -/
abbrev Header := List (String × Payload)

/-- The values the engine passes through the data converter: its own integers and strings,
and user values by their JSON text. -/
inductive Value where
  | int (n : Int)
  | str (s : String)
  | json (text : String)
  deriving DecidableEq, Repr, Inhabited

/-- `DataConverter` as the engine sees it; `none` stands for a thrown `DataConverterError`. -/
structure DataConverter where
  toPayload : Value → Payload
  fromPayload : Payload → Option Value

namespace DataConverter

/-- `FromPayload<std::string>`. -/
def fromPayloadStr (c : DataConverter) (p : Payload) : Option String :=
  match c.fromPayload p with
  | some (.str s) => some s
  | _ => none

/-- `FromPayload<int>`. -/
def fromPayloadInt (c : DataConverter) (p : Payload) : Option Int :=
  match c.fromPayload p with
  | some (.int n) => some n
  | _ => none

/-- The `decode` lambda of `ExecuteLocalActivity`: an empty body or a decoding error reads as
the empty string. -/
def decode (c : DataConverter) (p : Payload) : String :=
  if p.data.isEmpty then "" else (c.fromPayloadStr p).getD ""

/-- What is written through the converter is read back, also by `decode`. -/
structure RoundTrips (c : DataConverter) : Prop where
  fromPayload_toPayload : ∀ v, c.fromPayload (c.toPayload v) = some v
  decode_toPayload : ∀ s, c.decode (c.toPayload (.str s)) = s

/-- A converter that tags a payload with the kind of its value; the body of an integer is in
unary. -/
def tagged : DataConverter where
  toPayload
    | .int (.ofNat n) => { metadata := [("int", "")], data := List.replicate n 0 }
    | .int (.negSucc n) => { metadata := [("neg", "")], data := List.replicate n 0 }
    | .str s => { metadata := [("str", s)], data := [0] }
    | .json s => { metadata := [("json", s)], data := [0] }
  fromPayload p :=
    match p.metadata with
    | [("int", _)] => some (.int (.ofNat p.data.length))
    | [("neg", _)] => some (.int (.negSucc p.data.length))
    | [("str", s)] => some (.str s)
    | [("json", s)] => some (.json s)
    | _ => none

theorem tagged_roundTrips : tagged.RoundTrips where
  fromPayload_toPayload v := by
    rcases v with (n | n) | s | s <;> simp [tagged]
  decode_toPayload s := by simp [decode, fromPayloadStr, tagged]

end DataConverter

/-- A failure proto with its application failure info. -/
structure Failure where
  message : String := ""
  type : String := ""
  nonRetryable : Bool := false
  deriving DecidableEq, Repr, Inhabited

def makeApplicationFailure (message type : String) (nonRetryable : Bool) : Failure :=
  { message, type, nonRetryable }

/-- `google.protobuf.Duration`. -/
structure Duration where
  seconds : Int
  nanos : Int
  deriving DecidableEq, Repr, Inhabited

/-- `ToProtoDuration` on a count of nanoseconds; `duration_cast` truncates toward zero. -/
def toProtoDuration (ns : Int) : Duration := ⟨ns.tdiv 1000000000, ns.tmod 1000000000⟩

/-- The implicit conversion from milliseconds to nanoseconds, in 64-bit arithmetic. -/
def millisToNanos (ms : Int) : Int := (ms * 1000000).bmod (2 ^ 64)

def toProtoMillis (ms : Int) : Duration := toProtoDuration (millisToNanos ms)

/-- The guard of every timeout option: only a positive count is put on the wire. -/
def positiveMillis (ms : Int) : Option Duration := if 0 < ms then some (toProtoMillis ms) else none

structure RetryPolicy where
  initialInterval : Int := 1000
  backoffCoefficient : Rat := 2
  maximumInterval : Int := 0
  maximumAttempts : Int := 0
  nonRetryableErrorTypes : List String := []
  deriving DecidableEq, Repr, Inhabited

/-- `temporal.api.common.v1.RetryPolicy` with its optional fields. -/
structure ProtoRetryPolicy where
  initialInterval : Option Duration
  backoffCoefficient : Option Rat
  maximumInterval : Option Duration
  maximumAttempts : Int
  nonRetryableErrorTypes : List String
  deriving DecidableEq, Repr, Inhabited

def toProtoRetryPolicy (p : RetryPolicy) : ProtoRetryPolicy where
  initialInterval := positiveMillis p.initialInterval
  backoffCoefficient := if 0 < p.backoffCoefficient then some p.backoffCoefficient else none
  maximumInterval := positiveMillis p.maximumInterval
  maximumAttempts := p.maximumAttempts
  nonRetryableErrorTypes := p.nonRetryableErrorTypes

structure ActivityOptions where
  taskQueue : String := ""
  scheduleToCloseTimeout : Int := 0
  scheduleToStartTimeout : Int := 0
  startToCloseTimeout : Int := 0
  heartbeatTimeout : Int := 0
  retryPolicy : Option RetryPolicy := none
  deriving DecidableEq, Repr, Inhabited

structure LocalActivityOptions where
  startToCloseTimeout : Int := 0
  retryPolicy : Option RetryPolicy := none
  deriving DecidableEq, Repr, Inhabited

inductive ParentClosePolicy where
  | terminate | abandon | requestCancel
  deriving DecidableEq, Repr, Inhabited

structure ChildWorkflowOptions where
  id : String := ""
  taskQueue : String := ""
  parentClosePolicy : ParentClosePolicy := .terminate
  deriving DecidableEq, Repr, Inhabited

/-- `workflow::WorkflowInfo`. -/
structure WorkflowInfo where
  workflowId : String := ""
  runId : String := ""
  workflowType : String := ""
  taskQueue : String := ""
  ns : String := ""
  headers : Header := []
  deriving DecidableEq, Repr, Inhabited

/-- `activity::ActivityInfo`, as far as an inline local activity fills it. -/
structure ActivityInfo where
  activityType : String
  workflowId : String
  runId : String
  taskQueue : String
  headers : Header
  attempt : Nat
  deriving DecidableEq, Repr, Inhabited

end TemporalSdk
