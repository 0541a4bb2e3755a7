import TemporalSdk.ConverterStack
import TemporalSdk.Interceptors
import TemporalSdk.Lib.PartialMap

/-! The tracing interceptor. It puts a span around the calls that pass its links, and the span's
context into the headers of those that leave. -/
namespace TemporalSdk
open OrderedMap

/-- `SpanContext`: the map it carries, in key order. -/
abbrev SpanContext := List (String × String)

structure StartSpanOptions where
  operation : String
  name : String
  parent : Option SpanContext := none
  tags : List (String × String) := []
  deriving DecidableEq, Repr

/-- `Span`: what its tracer knows it by, and its own context. -/
structure Span (κ : Type) where
  ref : κ
  context : SpanContext
  deriving DecidableEq, Repr

/-- `Tracer`, with the state its methods work on. -/
structure Tracer (τ κ : Type) where
  startSpan : StartSpanOptions → τ → Span κ × τ
  endSpan : Span κ → Bool → τ → τ
  inject : Span κ → τ → SpanContext
  extract : List (String × String) → τ → Option SpanContext

/-- `NoopTracer`. -/
def noopTracer : Tracer Unit Unit where
  startSpan _ t := (⟨(), []⟩, t)
  endSpan _ _ t := t
  inject _ _ := []
  extract _ _ := none

/-- The JSON of headers: the text of an object of strings, and the members of the object that a text
is, each with its value if that is a string. -/
structure HeaderJson where
  dump : List (String × String) → List UInt8
  parse : List UInt8 → Option (List (String × Option String))

def kDefaultTracerHeaderKey : String := "_tracer-data"

/-- Where in the world the tracer is, and the `WorkflowSpanSlot`s of the workflow links. -/
structure TracingCells (τ ω : Type) where
  tracer : ω → τ
  setTracer : τ → ω → ω
  current : Nat → ω → Option SpanContext
  setCurrent : Nat → Option SpanContext → ω → ω

/-- `TracingInterceptor`, with the cells it works on. -/
structure TracingInterceptor (τ κ ω : Type) where
  tracer : Tracer τ κ
  json : HeaderJson
  headerKey : String := kDefaultTracerHeaderKey
  cells : TracingCells τ ω

namespace TracingInterceptor

variable {ν τ κ ω α β : Type} (x : TracingInterceptor τ κ ω)

/-- `WriteToHeader`, for texts that are UTF-8: on any other `j.dump()` throws. -/
def writeToHeader (data : SpanContext) (header : Header) : Header :=
  if data.isEmpty then header
  else assign header x.headerKey
    { metadata := [(kEncoding, "json/plain")], data := x.json.dump data }

/-- `ReadFromHeader`: empty if there is no object of strings. -/
def readFromHeader (header : Header) : SpanContext :=
  match find? header x.headerKey with
  | none => []
  | some payload =>
    match x.json.parse payload.data with
    | none => []
    | some members => members.filterMap fun m => m.2.map (m.1, ·)

/-- `ExtractParent`. -/
def extractParent (header : Header) (w : ω) : Option SpanContext :=
  x.tracer.extract (x.readFromHeader header) (x.cells.tracer w)

def startSpan (opts : StartSpanOptions) (w : ω) : Span κ × ω :=
  let (span, tracer) := x.tracer.startSpan opts (x.cells.tracer w)
  (span, x.cells.setTracer tracer w)

def endSpan (span : Span κ) (error : Bool) (w : ω) : ω :=
  x.cells.setTracer (x.tracer.endSpan span error (x.cells.tracer w)) w

/-- `StartAndInject`. -/
def startAndInject (opts : StartSpanOptions) (header : Header) (w : ω) :
    Span κ × Header × ω :=
  let (span, w') := x.startSpan opts w
  (span, x.writeToHeader (x.tracer.inject span (x.cells.tracer w')) header, w')

/-- A call that leaves. The span of one that throws is destroyed without being ended. -/
def calling (opts : α → ω → StartSpanOptions)
    (next : Method ω (α × Header) β) : Method ω (α × Header) β :=
  fun args w =>
    let (span, header, w') := x.startAndInject (opts args.1 w) args.2 w
    let called := next (args.1, header) w'
    match called.outcome with
    | .ok _ => { called with world := x.endSpan span false called.world }
    | .error _ => called

/-- A call that comes in, under the span it was sent from. -/
def running (opts : α → ω → StartSpanOptions)
    (next : Method ω (α × Header) β) : Method ω (α × Header) β :=
  fun args w =>
    let (span, w') := x.startSpan { opts args.1 w with parent := x.extractParent args.2 w } w
    let called := next args w'
    { called with world := x.endSpan span (!called.outcome.isOk) called.world }

def kWorkflowIdTag : String := "temporalWorkflowID"
def kRunIdTag : String := "temporalRunID"
def kActivityIdTag : String := "temporalActivityID"

section Links

variable (getInfo : ω → WorkflowInfo) (slot : Nat)

/-- The span of a call out of a workflow is under the one in the slot. -/
def outboundOptions (operation name : String) (w : ω) : StartSpanOptions where
  operation := operation
  name := name
  parent := x.cells.current slot w
  tags := [(kRunIdTag, (getInfo w).runId), (kWorkflowIdTag, (getInfo w).workflowId)]

/-- `TracingInterceptor::WorkflowOutbound`. -/
def workflowOutbound (next : WorkflowOutbound ω) : WorkflowOutbound ω :=
  { next with
    executeActivity := x.calling
      (fun i => x.outboundOptions getInfo slot "StartActivity" i.activityType) next.executeActivity
    executeChildWorkflow := x.calling
      (fun i => x.outboundOptions getInfo slot "StartChildWorkflow" i.workflowType)
      next.executeChildWorkflow
    signalExternalWorkflow := x.calling
      (fun i => x.outboundOptions getInfo slot "SignalExternalWorkflow" i.signalName)
      next.signalExternalWorkflow }

def runWorkflowOptions (header : Header) (w : ω) : StartSpanOptions where
  operation := "RunWorkflow"
  name := (getInfo w).workflowType
  parent := x.extractParent header w
  tags := [(kRunIdTag, (getInfo w).runId), (kWorkflowIdTag, (getInfo w).workflowId)]

/-- `WorkflowInbound::ExecuteWorkflow`: the span is in the slot while the workflow runs. -/
def executeWorkflow (next : Method ω (ExecuteWorkflowInput × Header) Payloads) :
    Method ω (ExecuteWorkflowInput × Header) Payloads :=
  fun args w =>
    let (span, w') := x.startSpan (x.runWorkflowOptions getInfo args.2 w) w
    let called := next args (x.cells.setCurrent slot (some span.context) w')
    let left := x.cells.setCurrent slot none called.world
    { called with world := x.endSpan span (!called.outcome.isOk) left }

/-- `TracingInterceptor::WorkflowInbound`. -/
def workflowInbound (next : WorkflowInbound ω) : WorkflowInbound ω where
  init outbound := next.init (x.workflowOutbound getInfo slot outbound)
  executeWorkflow := x.executeWorkflow getInfo slot next.executeWorkflow
  handleSignal := x.running (fun i _ => { operation := "HandleSignal", name := i.signalName })
    next.handleSignal
  handleQuery := x.running (fun i _ => { operation := "HandleQuery", name := i.queryType })
    next.handleQuery

/-- `TracingInterceptor::ActivityInbound`. -/
def activityInbound (next : ExecuteActivity ω) : ExecuteActivity ω :=
  fun ctx args header w =>
    let (span, w') := x.startSpan
      { operation := "RunActivity"
        name := ctx.info.activityType
        parent := x.extractParent header w
        tags := [(kActivityIdTag, ctx.info.activityId), (kRunIdTag, ctx.info.runId),
          (kWorkflowIdTag, ctx.info.workflowId)] } w
    let called := next ctx args header w'
    { called with world := x.endSpan span (!called.outcome.isOk) called.world }

/-- `TracingInterceptor::ClientOutbound`. -/
def clientOutbound (next : ClientOutbound ω) : ClientOutbound ω where
  startWorkflow := x.calling (fun i _ =>
    { operation := "StartWorkflow", name := i.workflowType
      tags := [(kWorkflowIdTag, i.options.id)] }) next.startWorkflow
  signalWorkflow := x.calling (fun i _ =>
    { operation := "SignalWorkflow", name := i.signalName
      tags := [(kWorkflowIdTag, i.workflowId)] }) next.signalWorkflow
  queryWorkflow := x.calling (fun i _ =>
    { operation := "QueryWorkflow", name := i.queryType
      tags := [(kWorkflowIdTag, i.workflowId)] }) next.queryWorkflow

/-- The interceptor as a factory; `slot` is the one its next workflow link allocates. -/
def factory (name : ν) : LinkFactory ν ω where
  name := name
  interceptWorkflow next := .ok (some (x.workflowInbound getInfo slot next))
  interceptActivity next := .ok (some (x.activityInbound next))
  interceptClient next := .ok (some (x.clientOutbound next))

end Links

end TracingInterceptor

/-- `InMemoryTracer::Record`. -/
structure SpanRecord where
  operation : String
  name : String
  traceId : String
  spanId : String
  parentSpanId : String
  tags : List (String × String)
  ended : Bool := false
  error : Bool := false
  deriving DecidableEq, Repr

structure InMemoryTracer where
  records : List SpanRecord := []
  nextTraceId : Nat := 1
  nextSpanId : Nat := 1
  deriving DecidableEq, Repr

namespace InMemoryTracer

def kTraceIdKey : String := "trace_id"
def kSpanIdKey : String := "span_id"

/-- The context of a span, in key order. -/
def contextOf (traceId spanId : String) : SpanContext :=
  [(kSpanIdKey, spanId), (kTraceIdKey, traceId)]

def startSpan (options : StartSpanOptions) (t : InMemoryTracer) : Span Nat × InMemoryTracer :=
  let data := options.parent.getD []
  let inherited := (find? data kTraceIdKey).getD ""
  let traceId := if inherited.isEmpty then "t" ++ toString t.nextTraceId else inherited
  let spanId := "s" ++ toString t.nextSpanId
  (⟨t.records.length, contextOf traceId spanId⟩,
    { records := t.records ++
        [{ operation := options.operation
           name := options.name
           traceId := traceId
           spanId := spanId
           parentSpanId := (find? data kSpanIdKey).getD ""
           tags := options.tags }]
      nextTraceId := if inherited.isEmpty then t.nextTraceId + 1 else t.nextTraceId
      nextSpanId := t.nextSpanId + 1 })

/-- `MemSpan::End`. -/
def endSpan (span : Span Nat) (error : Bool) (t : InMemoryTracer) : InMemoryTracer :=
  { t with records := t.records.modify span.ref fun r => { r with ended := true, error := error } }

/-- `Extract`: a context has both ids. -/
def extract (data : List (String × String)) : Option SpanContext :=
  if (find? data kTraceIdKey).isNone || (find? data kSpanIdKey).isNone then none else some data

/-- `InMemoryTracer` as a `Tracer`. -/
def asTracer : Tracer InMemoryTracer Nat where
  startSpan := startSpan
  endSpan := endSpan
  inject span _ := span.context
  extract data _ := extract data

end InMemoryTracer

/-- A tracing interceptor with a tracer in memory. -/
def TracingInterceptor.inMemory {ω : Type} (json : HeaderJson) (headerKey : String)
    (cells : TracingCells InMemoryTracer ω) : TracingInterceptor InMemoryTracer Nat ω where
  tracer := InMemoryTracer.asTracer
  json := json
  headerKey := headerKey
  cells := cells

/-- The JSON text of a context without characters to escape. -/
def SpanContext.text (data : SpanContext) : List UInt8 :=
  let members := data.map fun e => "\"" ++ e.1 ++ "\":\"" ++ e.2 ++ "\""
  ("\x7b" ++ ",".intercalate members ++ "\x7d").toList.map fun c => UInt8.ofNat c.toNat

/-- The JSON of these contexts, with the texts that the library gives them. -/
def HeaderJson.ofContexts (contexts : List SpanContext) : HeaderJson where
  dump := SpanContext.text
  parse read := (contexts.find? fun data => data.text = read).map fun data =>
    data.map fun e => (e.1, some e.2)

/-- A world with a tracer of its own. -/
structure Traced (τ ω : Type) where
  tracer : τ
  current : Nat → Option SpanContext := fun _ => none
  rest : ω

def Traced.cells {τ ω : Type} : TracingCells τ (Traced τ ω) where
  tracer := Traced.tracer
  setTracer tracer w := { w with tracer }
  current slot w := w.current slot
  setCurrent slot context w := { w with current := Function.update w.current slot context }

end TemporalSdk
