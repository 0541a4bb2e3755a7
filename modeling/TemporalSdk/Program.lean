import TemporalSdk.Prescan

/-! Workflow code as the engine meets it: a deterministic sequential program that asks for one
operation of `workflow::Context` at a time and continues with the answer. -/
namespace TemporalSdk

/-- `FutureState::Op`. -/
inductive FutureOp where
  | none | timer | activity | childWorkflow | nexusOperation
  deriving DecidableEq, Repr, Inhabited

/-- `internal::FutureState`. -/
structure FutureState where
  ready : Bool := false
  failed : Bool := false
  cancelled : Bool := false
  result : Payloads := []
  failureType : String := ""
  failureMessage : String := ""
  op : FutureOp := .none
  opId : String := ""
  deriving DecidableEq, Repr, Inhabited

/-- How user code ends. -/
inductive Outcome where
  | returned (result : Payloads)
  | continueAsNew (workflowType : String) (input : Payloads)
  | applicationError (message type : String) (nonRetryable : Bool)
  | stdException (what : String)
  | otherException
  deriving DecidableEq, Repr, Inhabited

/-- Exceptions that `catch (const std::exception&)` does not see. -/
def Outcome.escapes : Outcome → Bool
  | .continueAsNew .. | .otherException => true
  | _ => false

/-- What an operation of the context gives back to the code that called it: its value, or the
exception it throws. `σ` is the type of the variables shared by a body and its handlers. -/
inductive Resp (σ : Type) where
  | unit
  | future (addr : Nat)
  | got (result : Payloads)
  | activityError (type message : String)
  | received (payloads : Payloads)
  | notReceived
  | flag (b : Bool)
  | selected (index : Option Nat)
  | value (v : Value)
  | version (v : Int)
  | localResult (result : Payloads)
  | applicationError (message type : String)
  | stdException (what : String)
  | info (i : WorkflowInfo)
  | store (s : σ)
  deriving DecidableEq, Repr

/-- A case of a `Selector`. -/
inductive SelectCase where
  | future (addr : Nat)
  | receive (name : String)
  deriving DecidableEq, Repr, Inhabited

/-- The operations of `workflow::Context`, `Future`, `ReceiveChannel` and `Selector`. Handlers
are programs too: they are called with arguments and ask for operations of their own. -/
inductive Op (σ : Type) where
  | scheduleActivity (activityType : String) (input : Payloads) (options : ActivityOptions)
  | startTimer (duration : Int)
  | startChildWorkflow (workflowType : String) (input : Payloads) (options : ChildWorkflowOptions)
  | scheduleNexusOperation (endpoint service operation : String) (input : Payload)
      (scheduleToClose : Int)
  | cancel (addr : Nat)
  | cancelExternalWorkflow (workflowId : String)
  | signalExternalWorkflow (workflowId signalName : String) (input : Payloads)
  | upsertSearchAttributes (attributes : List (String × Payload))
  | get (addr : Nat)
  | isReady (addr : Nat)
  | receive (name : String)
  | receiveAsync (name : String)
  | hasPending (name : String)
  | select (cases : List SelectCase) (hasDefault : Bool)
  | isCancelled
  | awaitCancellation
  | sideEffect
  | mutableSideEffect (id : String) (equals : Value → Value → Bool)
  | getVersion (changeId : String) (minSupported maxSupported : Int)
  | executeLocalActivity (activityType : String) (input : Payloads)
      (options : LocalActivityOptions)
  | setQueryHandler (name : String) (handler : Payloads → List (Resp σ) → Op σ)
  | setUpdateHandler (name : String) (handler : Payloads → List (Resp σ) → Op σ)
  | setUpdateValidator (name : String) (validator : Payloads → List (Resp σ) → Op σ)
  | getInfo
  | isReplaying
  | readStore
  | writeStore (s : σ)
  | finish (outcome : Outcome)

/-- Sequential code: the next operation as a function of the answers seen so far. -/
abbrev Program (σ : Type) := List (Resp σ) → Op σ

/-- `QueryFn`: a registered query handler, update handler or validator. -/
abbrev Handler (σ : Type) := Payloads → Program σ

/-- The outcome of code that has ended. -/
def Op.outcome? {σ : Type} : Op σ → Option Outcome
  | .finish o => some o
  | _ => none

/-- A registered workflow function; `init` are the shared variables before its first step. -/
structure WorkflowFn (σ : Type) where
  init : σ
  body : Payloads → Program σ

/-- What a registered activity function does when it is run inline. -/
inductive ActivityResult where
  | returned (result : Payloads)
  | applicationError (message type : String) (nonRetryable : Bool)
  | stdException (what : String)
  deriving DecidableEq, Repr, Inhabited

/-- `worker::ActivityFn` of a local activity. The first argument is the ordinal of the call:
an activity may give another result each time it is run. -/
abbrev ActivityFn := Nat → ActivityInfo → Payloads → ActivityResult

/-- A worker interceptor: its workflow-inbound link, and the header its outbound link gives an
activity. -/
structure Interceptor (σ : Type) where
  executeWorkflow : WorkflowFn σ → WorkflowFn σ
  executeActivity : String → ActivityOptions → Payloads → Header → Header

/-- What surrounds a runner. `sideEffectFn k` is what the function passed to the `k`-th
`SideEffect` call does when it is run, an error being a thrown `std::exception`;
`failureConverter` is a custom `ErrorToFailure` if one is installed. -/
structure World (σ : Type) where
  converter : DataConverter
  failureConverter : Option (Outcome → Failure)
  localActivityResolver : Option (String → Option ActivityFn)
  interceptors : List (Interceptor σ)
  sideEffectFn : Nat → Except String Value
  mutableSideEffectFn : String → Nat → Except String Value

/-- A worker without interceptors, local activities or a custom failure encoding. -/
def World.plain {σ : Type} (converter : DataConverter) : World σ where
  converter := converter
  failureConverter := none
  localActivityResolver := none
  interceptors := []
  sideEffectFn _ := .ok (.int 0)
  mutableSideEffectFn _ _ := .ok (.int 0)

end TemporalSdk
