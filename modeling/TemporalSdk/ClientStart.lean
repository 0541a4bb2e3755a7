import TemporalSdk.Interceptors

/-! The two ways a client starts a workflow: `StartWorkflowPayloads`, behind the client's
interceptors, and `SignalWithStartWorkflowPayloads`. -/
namespace TemporalSdk

/-- What a request to start a workflow says about the workflow. An absent submessage is `none`,
and a map without entries is not sent. -/
structure WorkflowStart where
  workflowId : String
  workflowType : String
  taskQueue : String
  input : Option Payloads
  workflowExecutionTimeout : Option Duration
  workflowRunTimeout : Option Duration
  workflowTaskTimeout : Option Duration
  retryPolicy : Option ProtoRetryPolicy
  memo : List (String × Payload)
  searchAttributes : List (String × Payload)
  header : Header
  deriving DecidableEq, Repr

structure StartWorkflowExecutionRequest extends WorkflowStart where
  ns : String
  identity : String
  requestId : String
  deriving DecidableEq, Repr

structure SignalWithStartWorkflowExecutionRequest extends WorkflowStart where
  ns : String
  signalName : String
  signalInput : Option Payloads
  identity : String
  requestId : String
  deriving DecidableEq, Repr

/-- The input field of a request. -/
def inputOf (args : Payloads) : Option Payloads := if args.isEmpty then none else some args

/-- What lies outside a client: the number of UUIDs drawn so far, the inputs and headers on which
the start callback was called, in order, and the rest. -/
structure ClientWorld (υ : Type) where
  drawn : Nat := 0
  started : List (StartWorkflowInput × Header) := []
  rest : υ

/-- A client: `uuids k` is the `k`-th result of `NewUuid`, and the stubs are the server's answers,
with the run id. -/
structure WorkflowClient (υ : Type) where
  ns : String
  identity : String
  interceptors : List (LinkFactory String (ClientWorld υ))
  uuids : Nat → String
  startWorkflowExecution : StartWorkflowExecutionRequest → υ → (GrpcStatus × String) × υ
  signalWithStartWorkflowExecution :
    SignalWithStartWorkflowExecutionRequest → υ → (GrpcStatus × String) × υ

/-- The id and run id of a `WorkflowHandle`. -/
structure HandleIds where
  workflowId : String
  runId : String
  deriving DecidableEq, Repr

namespace WorkflowClient

variable {υ : Type} (c : WorkflowClient υ)

/-- `NewUuid`. -/
def newUuid (w : ClientWorld υ) : String × ClientWorld υ :=
  (c.uuids w.drawn, { w with drawn := w.drawn + 1 })

/-- The id of the workflow to start, drawn if the options name none. -/
def workflowId (options : StartWorkflowOptions) (w : ClientWorld υ) : String × ClientWorld υ :=
  if options.id.isEmpty then c.newUuid w else (options.id, w)

/-- The request `do_start` sends. -/
def startRequest (workflowId requestId : String) (args : StartWorkflowInput) (header : Header) :
    StartWorkflowExecutionRequest where
  ns := c.ns
  workflowId := workflowId
  workflowType := args.workflowType
  taskQueue := args.options.taskQueue
  input := inputOf args.args
  identity := c.identity
  requestId := requestId
  workflowExecutionTimeout := positiveMillis args.options.executionTimeout
  workflowRunTimeout := positiveMillis args.options.runTimeout
  workflowTaskTimeout := positiveMillis args.options.taskTimeout
  retryPolicy := args.options.retryPolicy.map toProtoRetryPolicy
  memo := args.options.memo
  searchAttributes := args.options.searchAttributes
  header := header

/-- `do_start`, the callback of `RootClientOutbound`. -/
def doStart (workflowId : String) : Method (ClientWorld υ) (StartWorkflowInput × Header) String :=
  fun args w =>
    let (requestId, w) := c.newUuid w
    let w := { w with started := w.started ++ [args] }
    let (answer, rest) :=
      c.startWorkflowExecution (c.startRequest workflowId requestId args.1 args.2) w.rest
    { args
      outcome := match unaryCall "StartWorkflowExecution" false "" answer with
        | .ok runId => .ok runId
        | .error e => .error e.thrown
      world := { w with rest } }

/-- `RootClientOutbound`: `base` is the base class, whose other methods need a next link. -/
def rootClientOutbound (base : ClientOutbound (ClientWorld υ)) (workflowId : String) :
    ClientOutbound (ClientWorld υ) :=
  { base with startWorkflow := c.doStart workflowId }

/-- The input and header on which the chain is called. -/
def startArgs (workflowId : String) (options : StartWorkflowOptions) (workflowType : String)
    (input : Payloads) : StartWorkflowInput × Header :=
  ({ workflowType, options := { options with id := workflowId }, args := input }, options.headers)

/-- `StartWorkflowPayloads`. -/
def startWorkflowPayloads (base : ClientOutbound (ClientWorld υ)) (options : StartWorkflowOptions)
    (workflowType : String) (input : Payloads) (w : ClientWorld υ) :
    Except Thrown HandleIds × ClientWorld υ :=
  let (workflowId, w) := c.workflowId options w
  match buildClientOutboundChain c.interceptors (c.rootClientOutbound base workflowId) with
  | .error e => (.error e, w)
  | .ok head =>
    let call := head.startWorkflow (startArgs workflowId options workflowType input) w
    (call.outcome.map fun runId => ⟨workflowId, runId⟩, call.world)

/-- The request `SignalWithStartWorkflowPayloads` sends. -/
def signalWithStartRequest (workflowId requestId : String) (options : StartWorkflowOptions)
    (workflowType signalName : String) (signalInput input : Payloads) :
    SignalWithStartWorkflowExecutionRequest where
  ns := c.ns
  workflowId := workflowId
  workflowType := workflowType
  taskQueue := options.taskQueue
  input := inputOf input
  signalName := signalName
  signalInput := inputOf signalInput
  identity := c.identity
  requestId := requestId
  workflowExecutionTimeout := positiveMillis options.executionTimeout
  workflowRunTimeout := positiveMillis options.runTimeout
  workflowTaskTimeout := positiveMillis options.taskTimeout
  retryPolicy := options.retryPolicy.map toProtoRetryPolicy
  memo := options.memo
  searchAttributes := []
  header := []

/-- `SignalWithStartWorkflowPayloads`. -/
def signalWithStartWorkflowPayloads (options : StartWorkflowOptions)
    (workflowType signalName : String) (signalInput input : Payloads) (w : ClientWorld υ) :
    Except Thrown HandleIds × ClientWorld υ :=
  let (workflowId, w) := c.workflowId options w
  let (requestId, w) := c.newUuid w
  let (answer, rest) := c.signalWithStartWorkflowExecution
    (c.signalWithStartRequest workflowId requestId options workflowType signalName signalInput
      input) w.rest
  (match unaryCall "SignalWithStartWorkflowExecution" false "" answer with
    | .ok runId => .ok ⟨workflowId, runId⟩
    | .error e => .error e.thrown, { w with rest })

section Agreement

variable (base : ClientOutbound (ClientWorld υ)) (options : StartWorkflowOptions)
  (workflowType signalName : String) (signalInput input : Payloads)

theorem inputOf_inj {args args' : Payloads} : inputOf args = inputOf args' ↔ args = args' := by
  constructor
  · intro h
    rcases args with _ | ⟨p, args⟩ <;> rcases args' with _ | ⟨p', args'⟩
    · rfl
    · cases h
    · cases h
    · exact Option.some.inj h
  · intro h
    rw [h]

/-- Every start request that `StartWorkflowPayloads` sends says of the workflow what the request of
`SignalWithStartWorkflowPayloads` does. Both calls find the client in the same state. -/
def StartsSame (w : ClientWorld υ) : Prop :=
  ∀ call ∈ (c.startWorkflowPayloads base options workflowType input w).2.started,
    ∀ requestId requestId',
      (c.startRequest (c.workflowId options w).1 requestId call.1 call.2).toWorkflowStart =
        (c.signalWithStartRequest (c.workflowId options w).1 requestId' options workflowType
          signalName signalInput input).toWorkflowStart

/-- What a call of the start callback must be for signal-with-start to start the same workflow: what
the options, the type and the input say, with neither search attributes nor headers. -/
structure Plain (call : StartWorkflowInput × Header) : Prop where
  workflowType : call.1.workflowType = workflowType
  taskQueue : call.1.options.taskQueue = options.taskQueue
  args : call.1.args = input
  executionTimeout :
    positiveMillis call.1.options.executionTimeout = positiveMillis options.executionTimeout
  runTimeout : positiveMillis call.1.options.runTimeout = positiveMillis options.runTimeout
  taskTimeout : positiveMillis call.1.options.taskTimeout = positiveMillis options.taskTimeout
  retryPolicy : call.1.options.retryPolicy.map toProtoRetryPolicy =
    options.retryPolicy.map toProtoRetryPolicy
  memo : call.1.options.memo = options.memo
  searchAttributes : call.1.options.searchAttributes = []
  header : call.2 = []

theorem startRequest_eq_iff (workflowId requestId requestId' : String)
    (call : StartWorkflowInput × Header) :
    (c.startRequest workflowId requestId call.1 call.2).toWorkflowStart =
        (c.signalWithStartRequest workflowId requestId' options workflowType signalName signalInput
          input).toWorkflowStart ↔
      Plain options workflowType input call := by
  simp only [startRequest, signalWithStartRequest, WorkflowStart.mk.injEq, inputOf_inj, true_and]
  constructor
  · rintro ⟨htype, hqueue, hargs, hexecution, hrun, htask, hretry, hmemo, hsearch, hheader⟩
    exact ⟨htype, hqueue, hargs, hexecution, hrun, htask, hretry, hmemo, hsearch, hheader⟩
  · intro h
    exact ⟨h.workflowType, h.taskQueue, h.args, h.executionTimeout, h.runTimeout, h.taskTimeout,
      h.retryPolicy, h.memo, h.searchAttributes, h.header⟩

/-- A client without interceptors, whose start callback is called on what the caller passes. -/
def bare : WorkflowClient υ := { c with interceptors := [] }

theorem bare_started (w : ClientWorld υ) :
    (c.bare.startWorkflowPayloads base options workflowType input w).2.started =
      w.started ++ [startArgs (c.workflowId options w).1 options workflowType input] := by
  have hid : (c.workflowId options w).2.started = w.started := by
    unfold workflowId newUuid
    split <;> rfl
  rw [← hid]
  rfl

theorem startArgs_plain_iff (workflowId : String) :
    Plain options workflowType input (startArgs workflowId options workflowType input) ↔
      options.searchAttributes = [] ∧ options.headers = [] :=
  ⟨fun h => ⟨h.searchAttributes, h.header⟩,
    fun h => ⟨rfl, rfl, rfl, rfl, rfl, rfl, rfl, rfl, h.1, h.2⟩⟩

/-- Signal-with-start sends neither search attributes nor headers, and no interceptor sees it. It
starts the same workflow as start exactly where the interceptors pass on the caller's options, type
and input, none of them with search attributes or headers. Without interceptors it is exactly where
the options carry neither. -/
theorem signalWithStart_startsSame_iff (drawn : Nat) (rest : υ) :
    (c.StartsSame base options workflowType signalName signalInput input ⟨drawn, [], rest⟩ ↔
      ∀ call ∈ (c.startWorkflowPayloads base options workflowType input ⟨drawn, [], rest⟩).2.started,
        Plain options workflowType input call) ∧
    (c.bare.StartsSame base options workflowType signalName signalInput input ⟨drawn, [], rest⟩ ↔
      options.searchAttributes = [] ∧ options.headers = []) := by
  have hiff : ∀ c : WorkflowClient υ,
      c.StartsSame base options workflowType signalName signalInput input ⟨drawn, [], rest⟩ ↔
        ∀ call ∈ (c.startWorkflowPayloads base options workflowType input
          ⟨drawn, [], rest⟩).2.started, Plain options workflowType input call := by
    intro c
    apply forall₂_congr
    intro call _
    constructor
    · intro h
      exact (c.startRequest_eq_iff options workflowType signalName signalInput input _ "" ""
        call).mp (h "" "")
    · intro h requestId requestId'
      exact (c.startRequest_eq_iff options workflowType signalName signalInput input _ requestId
        requestId' call).mpr h
  refine ⟨hiff c, (hiff c.bare).trans ?_⟩
  rw [bare_started, List.nil_append, List.forall_mem_singleton, startArgs_plain_iff]

/-- Tiered by a search attribute and traced by a header, the workflow is started by
signal-with-start without either. -/
theorem signalWithStart_drops_options :
    let c : WorkflowClient Unit :=
      { ns := "default", identity := "1@host", interceptors := [], uuids := toString
        startWorkflowExecution := fun _ s => ((⟨.ok, ""⟩, "run"), s)
        signalWithStartWorkflowExecution := fun _ s => ((⟨.ok, ""⟩, "run"), s) }
    let base : ClientOutbound (ClientWorld Unit) :=
      ⟨fun a w => ⟨a, .ok "", w⟩, fun a w => ⟨a, .ok (), w⟩, fun a w => ⟨a, .ok [], w⟩⟩
    let options : StartWorkflowOptions :=
      { id := "order-7", taskQueue := "orders", searchAttributes := [("Tier", { data := [1] })]
        headers := [("trace", { data := [2] })] }
    ¬ c.StartsSame base options "Order" "pay" [] [] ⟨0, [], ()⟩ := by
  intro c base options hsame
  have hsent := hsame (startArgs "order-7" options "Order" []) (List.mem_singleton.mpr rfl) "" ""
  have hattributes := congrArg WorkflowStart.searchAttributes hsent
  exact absurd hattributes (List.cons_ne_nil _ _)

end Agreement
end WorkflowClient
end TemporalSdk
