import TemporalSdk.Lib.Forest
import TemporalSdk.Tracing

/-! Traces are trees. The spans of clients, workflows and activities that share a tracer in memory
are linked as the calls were made, whatever goes on at the same time. -/
namespace TemporalSdk
open OrderedMap

namespace InMemoryTracer

/-- The context of a span that was started. -/
def contextAt (t : InMemoryTracer) (i : Nat) : Option SpanContext :=
  t.records[i]?.map fun r => contextOf r.traceId r.spanId

variable {t : InMemoryTracer} {options : StartSpanOptions}

theorem find?_contextOf_trace (traceId spanId : String) :
    find? (contextOf traceId spanId) kTraceIdKey = some traceId := by
  unfold contextOf
  have hne : kSpanIdKey ≠ kTraceIdKey := by decide
  rw [find?_cons_of_ne hne, find?_cons_self rfl]

theorem find?_contextOf_span (traceId spanId : String) :
    find? (contextOf traceId spanId) kSpanIdKey = some spanId := by
  unfold contextOf
  rw [find?_cons_self rfl]

theorem extract_contextOf (traceId spanId : String) :
    extract (contextOf traceId spanId) = some (contextOf traceId spanId) := by
  unfold extract
  rw [find?_contextOf_trace, find?_contextOf_span]
  rfl

/-- The record of a span that starts a trace. -/
def rootRecord (options : StartSpanOptions) (t : InMemoryTracer) : SpanRecord where
  operation := options.operation
  name := options.name
  traceId := "t" ++ toString t.nextTraceId
  spanId := "s" ++ toString t.nextSpanId
  parentSpanId := ""
  tags := options.tags

/-- The record of a span under another. -/
def childRecord (options : StartSpanOptions) (traceId parentSpanId : String) (t : InMemoryTracer) :
    SpanRecord where
  operation := options.operation
  name := options.name
  traceId := traceId
  spanId := "s" ++ toString t.nextSpanId
  parentSpanId := parentSpanId
  tags := options.tags

theorem startSpan_root (h : options.parent = none) :
    t.startSpan options = (⟨t.records.length,
        contextOf (t.rootRecord options).traceId (t.rootRecord options).spanId⟩,
      { records := t.records ++ [t.rootRecord options]
        nextTraceId := t.nextTraceId + 1
        nextSpanId := t.nextSpanId + 1 }) := by
  unfold startSpan
  rw [h]
  rfl

theorem startSpan_child {traceId parentSpanId : String}
    (h : options.parent = some (contextOf traceId parentSpanId))
    (htrace : traceId.isEmpty = false) :
    t.startSpan options = (⟨t.records.length,
        contextOf traceId (t.childRecord options traceId parentSpanId).spanId⟩,
      { records := t.records ++ [t.childRecord options traceId parentSpanId]
        nextTraceId := t.nextTraceId
        nextSpanId := t.nextSpanId + 1 }) := by
  unfold startSpan
  rw [h]
  simp only [Option.getD_some, find?_contextOf_trace, find?_contextOf_span, htrace]
  rfl

/-- The records are linked as the callers say. -/
structure Linked (t : InMemoryTracer) (callers : List (Option Nat)) : Prop where
  length : t.records.length = callers.length
  grown : Forest.Grown callers
  nextSpan : t.nextSpanId = t.records.length + 1
  spanIds : ∀ (i : Nat) r, t.records[i]? = some r → r.spanId = "s" ++ toString (i + 1)
  traceIds : ∀ r ∈ t.records, ∃ k < t.nextTraceId, r.traceId = "t" ++ toString k
  roots : ∀ (i : Nat) r, t.records[i]? = some r → callers[i]? = some none → r.parentSpanId = ""
  under : ∀ (i j : Nat) r, t.records[i]? = some r → callers[i]? = some (some j) →
    ∃ q, t.records[j]? = some q ∧ r.parentSpanId = q.spanId ∧ r.traceId = q.traceId
  apart : ∀ (i j : Nat) r q, t.records[i]? = some r → t.records[j]? = some q →
    callers[i]? = some none → callers[j]? = some none → r.traceId = q.traceId → i = j

theorem linked_empty : Linked {} [] where
  length := rfl
  grown := Forest.grown_nil
  nextSpan := rfl
  spanIds := by
    intro i r h
    simp at h
  traceIds := by
    intro r h
    simp at h
  roots := by
    intro i r h
    simp at h
  under := by
    intro i j r h
    simp at h
  apart := by
    intro i j r q h
    simp at h

/-- A record is linked to what called it. -/
def LinkedTo (t : InMemoryTracer) (r : SpanRecord) : Option Nat → Prop
  | none => r.parentSpanId = "" ∧ ∀ q ∈ t.records, q.traceId ≠ r.traceId
  | some j => ∃ q, t.records[j]? = some q ∧ r.parentSpanId = q.spanId ∧ r.traceId = q.traceId

variable {callers : List (Option Nat)}

/-- The tracer with one more record. -/
def record (t : InMemoryTracer) (r : SpanRecord) (nextTraceId : Nat) : InMemoryTracer where
  records := t.records ++ [r]
  nextTraceId := nextTraceId
  nextSpanId := t.nextSpanId + 1

theorem Linked.record (h : Linked t callers) {r : SpanRecord} {caller : Option Nat} {m : Nat}
    (hspan : r.spanId = "s" ++ toString t.nextSpanId) (hm : t.nextTraceId ≤ m)
    (htrace : ∃ k < m, r.traceId = "t" ++ toString k) (hr : t.LinkedTo r caller) :
    Linked (t.record r m) (callers ++ [caller]) where
  length := by
    show (t.records ++ [r]).length = _
    rw [List.length_append, List.length_append, h.length]
    rfl
  grown := by
    apply h.grown.append
    rintro j rfl
    obtain ⟨q, hq, -⟩ := hr
    rw [← h.length]
    exact (List.getElem?_eq_some_iff.mp hq).1
  nextSpan := by
    show t.nextSpanId + 1 = (t.records ++ [r]).length + 1
    rw [h.nextSpan, List.length_append]
    rfl
  spanIds := by
    intro i r' hi
    rcases Forest.getElem?_concat_eq_some.mp hi with hi | ⟨rfl, rfl⟩
    · exact h.spanIds i r' hi
    · rw [hspan, h.nextSpan]
  traceIds := by
    intro r' hmem
    rcases List.mem_append.mp hmem with hold | hnew
    · obtain ⟨k, hk, heq⟩ := h.traceIds r' hold
      exact ⟨k, Nat.lt_of_lt_of_le hk hm, heq⟩
    · obtain rfl := List.mem_singleton.mp hnew
      exact htrace
  roots := by
    intro i r' hi hc
    rcases Forest.getElem?_concat_both h.length hi hc with ⟨hi, hc⟩ | ⟨-, rfl, rfl⟩
    · exact h.roots i r' hi hc
    · exact hr.1
  under := by
    intro i j r' hi hc
    rcases Forest.getElem?_concat_both h.length hi hc with ⟨hi, hc⟩ | ⟨-, rfl, rfl⟩
    · obtain ⟨q, hq, hlinks⟩ := h.under i j r' hi hc
      exact ⟨q, Forest.getElem?_concat_eq_some.mpr (.inl hq), hlinks⟩
    · obtain ⟨q, hq, hlinks⟩ := hr
      exact ⟨q, Forest.getElem?_concat_eq_some.mpr (.inl hq), hlinks⟩
  apart := by
    intro i j r' q hi hj hci hcj htraces
    rcases Forest.getElem?_concat_both h.length hi hci with ⟨hi, hci⟩ | ⟨rfl, rfl, rfl⟩
    · rcases Forest.getElem?_concat_both h.length hj hcj with ⟨hj, hcj⟩ | ⟨-, rfl, rfl⟩
      · exact h.apart i j r' q hi hj hci hcj htraces
      · exact absurd htraces (hr.2 r' (List.mem_of_getElem? hi))
    · rcases Forest.getElem?_concat_both h.length hj hcj with ⟨hj, -⟩ | ⟨rfl, -, -⟩
      · exact absurd htraces.symm (hr.2 q (List.mem_of_getElem? hj))
      · rfl

/-- Every trace so far has one of the ids handed out. -/
theorem Linked.traceId_ne (h : Linked t callers) {r : SpanRecord} (hr : r ∈ t.records) :
    r.traceId ≠ "t" ++ toString t.nextTraceId := by
  intro heq
  obtain ⟨k, hk, htrace⟩ := h.traceIds r hr
  have hid := toString_nat_injective ((String.append_right_inj _).mp (htrace.symm.trans heq))
  omega

/-- Starting a span under the context of a record, or under none, links its record so. -/
theorem Linked.startSpan (h : Linked t callers) {caller : Option Nat}
    (hcaller : ∀ j, caller = some j → j < t.records.length)
    (hparent : options.parent = caller.bind t.contextAt) :
    Linked (t.startSpan options).2 (callers ++ [caller]) := by
  cases caller with
  | none =>
    rw [startSpan_root hparent]
    apply h.record (r := t.rootRecord options) (m := t.nextTraceId + 1) rfl (Nat.le_succ _)
      ⟨t.nextTraceId, Nat.lt_succ_self _, rfl⟩
    exact ⟨rfl, fun q hq => h.traceId_ne hq⟩
  | some j =>
    have hj := hcaller j rfl
    have hget : t.records[j]? = some t.records[j] := List.getElem?_eq_getElem hj
    have hctx : t.contextAt j = some (contextOf t.records[j].traceId t.records[j].spanId) := by
      rw [contextAt, hget, Option.map_some]
    obtain ⟨k, hk, htrace⟩ := h.traceIds _ (List.getElem_mem hj)
    have hnonempty : t.records[j].traceId.isEmpty = false := by
      rw [htrace]
      simp
    rw [startSpan_child (hparent.trans hctx) hnonempty]
    exact h.record (r := t.childRecord options t.records[j].traceId t.records[j].spanId) rfl
      (Nat.le_refl _) ⟨k, hk, htrace⟩ ⟨_, hget, rfl, rfl⟩

/-- The ids in a record. -/
def ids (r : SpanRecord) : String × String × String := (r.traceId, r.spanId, r.parentSpanId)

/-- Ending a span changes no ids. -/
theorem map_ids_endSpan (span : Span Nat) (error : Bool) :
    (t.endSpan span error).records.map ids = t.records.map ids := by
  apply List.ext_getElem?
  intro j
  unfold endSpan
  simp only [List.getElem?_map, List.getElem?_modify]
  cases t.records[j]? with
  | none => simp
  | some r =>
    simp only [Option.map_some]
    split <;> rfl

theorem getElem?_of_ids {records records' : List SpanRecord}
    (h : records'.map ids = records.map ids) {i : Nat} {r : SpanRecord}
    (hr : records'[i]? = some r) :
    ∃ q, records[i]? = some q ∧ q.traceId = r.traceId ∧ q.spanId = r.spanId ∧
      q.parentSpanId = r.parentSpanId := by
  have hids := congrArg (·[i]?) h
  simp only [List.getElem?_map, hr, Option.map_some] at hids
  obtain ⟨q, hq, heq⟩ := Option.map_eq_some_iff.mp hids.symm
  simp only [ids, Prod.mk.injEq] at heq
  exact ⟨q, hq, heq⟩

/-- Only the ids count. -/
theorem Linked.of_ids {t' : InMemoryTracer} (h : Linked t callers)
    (hids : t'.records.map ids = t.records.map ids) (htrace : t'.nextTraceId = t.nextTraceId)
    (hspan : t'.nextSpanId = t.nextSpanId) : Linked t' callers where
  length := by
    rw [← h.length, ← List.length_map, hids, List.length_map]
  grown := h.grown
  nextSpan := by
    rw [hspan, h.nextSpan, ← List.length_map, ← hids, List.length_map]
  spanIds := by
    intro i r hi
    obtain ⟨q, hq, -, heq, -⟩ := getElem?_of_ids hids hi
    rw [← heq]
    exact h.spanIds i q hq
  traceIds := by
    intro r hr
    obtain ⟨i, hi⟩ := List.mem_iff_getElem?.mp hr
    obtain ⟨q, hq, heq, -⟩ := getElem?_of_ids hids hi
    rw [← heq, htrace]
    exact h.traceIds q (List.mem_of_getElem? hq)
  roots := by
    intro i r hi hc
    obtain ⟨q, hq, -, -, heq⟩ := getElem?_of_ids hids hi
    rw [← heq]
    exact h.roots i q hq hc
  under := by
    intro i j r hi hc
    obtain ⟨q, hq, htraceId, -, hparent⟩ := getElem?_of_ids hids hi
    obtain ⟨p, hp, hspanId, htraceId'⟩ := h.under i j q hq hc
    obtain ⟨p', hp', htraceId'', hspanId', -⟩ := getElem?_of_ids hids.symm hp
    exact ⟨p', hp', by rw [← hparent, hspanId, hspanId'],
      by rw [← htraceId, htraceId', htraceId'']⟩
  apart := by
    intro i j r q hi hj hci hcj heq
    obtain ⟨r', hr', htraceId, -⟩ := getElem?_of_ids hids hi
    obtain ⟨q', hq', htraceId', -⟩ := getElem?_of_ids hids hj
    exact h.apart i j r' q' hr' hq' hci hcj (by rw [htraceId, htraceId', heq])

theorem contextAt_of_ids {t' : InMemoryTracer} (hids : t'.records.map ids = t.records.map ids)
    (i : Nat) : t'.contextAt i = t.contextAt i := by
  have hcontext (t : InMemoryTracer) : t.contextAt i =
      (t.records.map ids)[i]?.map fun d => contextOf d.1 d.2.1 := by
    rw [contextAt, List.getElem?_map, Option.map_map]
    rfl
  rw [hcontext, hcontext, hids]

theorem length_startSpan : (t.startSpan options).2.records.length = t.records.length + 1 := by
  unfold startSpan
  rw [List.length_append]
  rfl

theorem contextAt_lt {i : Nat} {context : SpanContext} (h : t.contextAt i = some context) :
    i < t.records.length := by
  obtain ⟨r, hr, -⟩ := Option.map_eq_some_iff.mp h
  exact (List.getElem?_eq_some_iff.mp hr).1

/-- The span that starts has the context of the new record. -/
theorem contextAt_startSpan_self :
    (t.startSpan options).2.contextAt t.records.length = some (t.startSpan options).1.context := by
  unfold contextAt startSpan
  rw [List.getElem?_concat_length]
  rfl

theorem contextAt_startSpan {i : Nat} (hi : i < t.records.length) :
    (t.startSpan options).2.contextAt i = t.contextAt i := by
  unfold contextAt startSpan
  rw [List.getElem?_append_left hi]

theorem contextAt_eq_contextOf {i : Nat} {context : SpanContext}
    (h : t.contextAt i = some context) : ∃ traceId spanId, context = contextOf traceId spanId := by
  obtain ⟨r, -, rfl⟩ := Option.map_eq_some_iff.mp h
  exact ⟨_, _, rfl⟩

end InMemoryTracer

/-- The calls that have been made: the call each span was started in, the headers that were sent and
by which, and the run in each slot. -/
structure CallGraph where
  callers : List (Option Nat) := []
  wire : List (Header × Nat) := []
  running : Nat → Option Nat := fun _ => none

namespace CallGraph

/-- A span starts. -/
def started (g : CallGraph) (caller : Option Nat) : CallGraph :=
  { g with callers := g.callers ++ [caller] }

/-- A call starts a span and sends a header. -/
def sent (g : CallGraph) (caller : Option Nat) (header : Header) : CallGraph :=
  { g.started caller with wire := g.wire ++ [(header, g.callers.length)] }

/-- A run starts a span, which stays in the slot. -/
def entered (g : CallGraph) (caller : Option Nat) (slot : Nat) : CallGraph :=
  { g.started caller with running := Function.update g.running slot (some g.callers.length) }

/-- The run in the slot comes back. -/
def left (g : CallGraph) (slot : Nat) : CallGraph :=
  { g with running := Function.update g.running slot none }

variable (g : CallGraph) (caller : Option Nat) {slot slot' : Nat}

@[simp] theorem running_entered_self :
    (g.entered caller slot).running slot = some g.callers.length := by
  simp [entered]

@[simp] theorem running_entered_of_ne (h : slot' ≠ slot) :
    (g.entered caller slot).running slot' = g.running slot' := by
  simp [entered, started, h]

@[simp] theorem running_left_self : (g.left slot).running slot = none := by
  simp [left]

@[simp] theorem running_left_of_ne (h : slot' ≠ slot) :
    (g.left slot).running slot' = g.running slot' := by
  simp [left, h]

end CallGraph

section Traces

variable {ω : Type}

/-- The header comes from this call: it has the entry that the call sent. Or it comes from none, and
has no entry from which a context can be read. -/
def CallGraph.Brings (x : TracingInterceptor InMemoryTracer Nat ω) (g : CallGraph)
    (header : Header) : Option Nat → Prop
  | some i => ∃ sent, (sent, i) ∈ g.wire ∧ find? header x.headerKey = find? sent x.headerKey
  | none => InMemoryTracer.extract (x.readFromHeader header) = none

variable (x : TracingInterceptor InMemoryTracer Nat (Traced InMemoryTracer ω))

/-- What clients, workflows and activities that share the tracer do to it, in any order: calls of a
client, calls out of the workflow in a slot, runs of activities and of handlers, runs of workflows,
the ends of spans, and anything that does not concern the tracer. A call of the tracer is over
before the next one begins: it takes no lock, and two calls of `StartSpan` at once could be given
one span id. -/
inductive Traces : Traced InMemoryTracer ω → CallGraph → Prop
  | start (rest : ω) : Traces ⟨{}, fun _ => none, rest⟩ {}
  | call {w : Traced InMemoryTracer ω} {g : CallGraph} (h : Traces w g) (opts : StartSpanOptions)
      (hparent : opts.parent = none) (header : Header) :
      Traces (x.startAndInject opts header w).2.2 (g.sent none (x.startAndInject opts header w).2.1)
  | callFrom {w : Traced InMemoryTracer ω} {g : CallGraph} (h : Traces w g)
      (getInfo : Traced InMemoryTracer ω → WorkflowInfo) (slot : Nat) (operation name : String)
      (header : Header) :
      Traces (x.startAndInject (x.outboundOptions getInfo slot operation name w) header w).2.2
        (g.sent (g.running slot)
          (x.startAndInject (x.outboundOptions getInfo slot operation name w) header w).2.1)
  | run {w : Traced InMemoryTracer ω} {g : CallGraph} (h : Traces w g) (opts : StartSpanOptions)
      (header : Header) {caller : Option Nat} (hbrings : g.Brings x header caller) :
      Traces (x.startSpan { opts with parent := x.extractParent header w } w).2 (g.started caller)
  | enter {w : Traced InMemoryTracer ω} {g : CallGraph} (h : Traces w g)
      (getInfo : Traced InMemoryTracer ω → WorkflowInfo) (slot : Nat) (header : Header)
      {caller : Option Nat} (hbrings : g.Brings x header caller) :
      Traces (x.cells.setCurrent slot
          (some (x.startSpan (x.runWorkflowOptions getInfo header w) w).1.context)
          (x.startSpan (x.runWorkflowOptions getInfo header w) w).2)
        (g.entered caller slot)
  | leave {w : Traced InMemoryTracer ω} {g : CallGraph} (h : Traces w g) (slot : Nat) :
      Traces (x.cells.setCurrent slot none w) (g.left slot)
  | endSpan {w : Traced InMemoryTracer ω} {g : CallGraph} (h : Traces w g) (span : Span Nat)
      (error : Bool) : Traces (x.endSpan span error w) g
  | elsewhere {w : Traced InMemoryTracer ω} {g : CallGraph} (h : Traces w g) (rest : ω) :
      Traces { w with rest := rest } g

section Links

variable {x} {w : Traced InMemoryTracer ω} {g : CallGraph} {α β : Type} {a : α} {header : Header}

/-- What is behind a link does nothing to the tracer but what is traced. -/
def TracedFrom (w w' : Traced InMemoryTracer ω) : Prop :=
  ∀ g, Traces x w g → ∃ g', Traces x w' g'

/-- A method that, whatever it is given, does what is traced. -/
def MethodTraced (m : Method (Traced InMemoryTracer ω) (α × Header) β) : Prop :=
  ∀ args w, TracedFrom (x := x) w (m args w).world

/-- A method that does what is traced when it is given a header that a call has sent, or one without
a context. -/
def MethodTracedIn (m : Method (Traced InMemoryTracer ω) (α × Header) β) : Prop :=
  ∀ a header w g caller, CallGraph.Brings x g header caller → Traces x w g →
    ∃ g', Traces x (m (a, header) w).world g'

/-- The span of a call that comes back is ended, and that of one that throws is not. -/
theorem Traces.called {opts : α → Traced InMemoryTracer ω → StartSpanOptions}
    {next : Method (Traced InMemoryTracer ω) (α × Header) β}
    (h : ∃ g', Traces x (next (a, (x.startAndInject (opts a w) header w).2.1)
      (x.startAndInject (opts a w) header w).2.2).world g') :
    ∃ g', Traces x (x.calling opts next (a, header) w).world g' := by
  obtain ⟨g', hg⟩ := h
  unfold TracingInterceptor.calling
  dsimp only
  split
  · exact ⟨g', hg.endSpan _ false⟩
  · exact ⟨g', hg⟩

/-- A link of a client traces its call. -/
theorem MethodTraced.calling {next : Method (Traced InMemoryTracer ω) (α × Header) β}
    (hnext : MethodTraced (x := x) next) {opts : α → Traced InMemoryTracer ω → StartSpanOptions}
    (hroot : ∀ a w, (opts a w).parent = none) : MethodTraced (x := x) (x.calling opts next) := by
  rintro ⟨a, header⟩ w g h
  apply Traces.called
  exact hnext _ _ _ (h.call (opts a w) (hroot a w) header)

/-- So does the outbound link of a workflow. -/
theorem MethodTraced.callingFrom {next : Method (Traced InMemoryTracer ω) (α × Header) β}
    (hnext : MethodTraced (x := x) next) (getInfo : Traced InMemoryTracer ω → WorkflowInfo)
    (slot : Nat) (operation : String) (name : α → String) : MethodTraced (x := x)
      (x.calling (fun i => x.outboundOptions getInfo slot operation (name i)) next) := by
  rintro ⟨a, header⟩ w g h
  apply Traces.called
  exact hnext _ _ _ (h.callFrom getInfo slot operation (name a) header)

/-- A link that a call comes in by traces the run. -/
theorem MethodTraced.running {next : Method (Traced InMemoryTracer ω) (α × Header) β}
    (hnext : MethodTraced (x := x) next)
    (opts : α → Traced InMemoryTracer ω → StartSpanOptions) :
    MethodTracedIn (x := x) (x.running opts next) := by
  intro a header w g caller hbrings h
  obtain ⟨g', hg⟩ := hnext _ _ _ (h.run (opts a w) header hbrings)
  exact ⟨g', hg.endSpan _ _⟩

/-- What the tracing client does to the tracer is traced, if what it calls does nothing else. -/
theorem clientOutbound_traced {next : ClientOutbound (Traced InMemoryTracer ω)}
    (hstart : MethodTraced (x := x) next.startWorkflow)
    (hsignal : MethodTraced (x := x) next.signalWorkflow)
    (hquery : MethodTraced (x := x) next.queryWorkflow) :
    MethodTraced (x := x) (x.clientOutbound next).startWorkflow ∧
      MethodTraced (x := x) (x.clientOutbound next).signalWorkflow ∧
      MethodTraced (x := x) (x.clientOutbound next).queryWorkflow :=
  ⟨hstart.calling fun _ _ => rfl, hsignal.calling fun _ _ => rfl, hquery.calling fun _ _ => rfl⟩

/-- So are the calls out of a workflow. -/
theorem workflowOutbound_traced (getInfo : Traced InMemoryTracer ω → WorkflowInfo) (slot : Nat)
    {next : WorkflowOutbound (Traced InMemoryTracer ω)}
    (hactivity : MethodTraced (x := x) next.executeActivity)
    (hchild : MethodTraced (x := x) next.executeChildWorkflow)
    (hsignal : MethodTraced (x := x) next.signalExternalWorkflow) :
    MethodTraced (x := x) (x.workflowOutbound getInfo slot next).executeActivity ∧
      MethodTraced (x := x) (x.workflowOutbound getInfo slot next).executeChildWorkflow ∧
      MethodTraced (x := x) (x.workflowOutbound getInfo slot next).signalExternalWorkflow :=
  ⟨hactivity.callingFrom getInfo slot _ _, hchild.callingFrom getInfo slot _ _,
    hsignal.callingFrom getInfo slot _ _⟩

/-- So is a run of a workflow, with its span in the slot until it comes back, and of a handler. -/
theorem workflowInbound_traced (getInfo : Traced InMemoryTracer ω → WorkflowInfo) (slot : Nat)
    {next : WorkflowInbound (Traced InMemoryTracer ω)}
    (hexecute : MethodTraced (x := x) next.executeWorkflow)
    (hsignal : MethodTraced (x := x) next.handleSignal)
    (hquery : MethodTraced (x := x) next.handleQuery) :
    MethodTracedIn (x := x) (x.workflowInbound getInfo slot next).executeWorkflow ∧
      MethodTracedIn (x := x) (x.workflowInbound getInfo slot next).handleSignal ∧
      MethodTracedIn (x := x) (x.workflowInbound getInfo slot next).handleQuery := by
  refine ⟨fun input header w g caller hbrings h => ?_, hsignal.running _, hquery.running _⟩
  obtain ⟨g', hg⟩ := hexecute _ _ _ (h.enter getInfo slot header hbrings)
  exact ⟨_, (hg.leave slot).endSpan _ _⟩

/-- And one of an activity. -/
theorem activityInbound_traced {next : ExecuteActivity (Traced InMemoryTracer ω)}
    (hnext : ∀ ctx args header w, TracedFrom (x := x) w (next ctx args header w).world)
    (ctx : ActivityContext) (args : Payloads) {caller : Option Nat}
    (hbrings : g.Brings x header caller) (h : Traces x w g) :
    ∃ g', Traces x (x.activityInbound next ctx args header w).world g' := by
  obtain ⟨g', hg⟩ := hnext ctx args header _ _ (h.run
    { operation := "RunActivity"
      name := ctx.info.activityType
      tags := [(TracingInterceptor.kActivityIdTag, ctx.info.activityId),
        (TracingInterceptor.kRunIdTag, ctx.info.runId),
        (TracingInterceptor.kWorkflowIdTag, ctx.info.workflowId)] } header hbrings)
  exact ⟨g', hg.endSpan _ _⟩

end Links

/-- The JSON text of the context is read back. -/
def HeaderJson.Inverts (json : HeaderJson) (context : SpanContext) : Prop :=
  json.parse (json.dump context) = some (context.map fun e => (e.1, some e.2))

/-- The tracer knows the calls: its records are linked as they were made, the headers carry the
contexts of the calls that sent them, and the slots hold those of the runs. -/
structure Knows (w : Traced InMemoryTracer ω) (g : CallGraph) : Prop where
  linked : w.tracer.Linked g.callers
  wire : ∀ header i, (header, i) ∈ g.wire → ∃ context, w.tracer.contextAt i = some context ∧
    find? header x.headerKey =
      some { metadata := [(kEncoding, "json/plain")], data := x.json.dump context }
  running : ∀ slot i, g.running slot = some i → i < w.tracer.records.length
  slots : ∀ slot, w.current slot = (g.running slot).bind w.tracer.contextAt

variable {x} {json : HeaderJson} {key : String} {w : Traced InMemoryTracer ω} {g : CallGraph}
  {opts : StartSpanOptions} {header : Header} {caller : Option Nat}

/-- The tracing interceptor of the tracer in memory. -/
abbrev tracing (ω : Type) (json : HeaderJson) (key : String) :
    TracingInterceptor InMemoryTracer Nat (Traced InMemoryTracer ω) :=
  .inMemory json key Traced.cells

theorem readFromHeader_stamp {context : SpanContext} (hjson : x.json.Inverts context)
    (hheader : find? header x.headerKey =
      some { metadata := [(kEncoding, "json/plain")], data := x.json.dump context }) :
    x.readFromHeader header = context := by
  unfold TracingInterceptor.readFromHeader
  rw [hheader]
  dsimp only
  rw [hjson]
  dsimp only
  rw [List.filterMap_map]
  exact List.filterMap_some

theorem find?_writeToHeader {context : SpanContext} (hne : context ≠ []) :
    find? (x.writeToHeader context header) x.headerKey =
      some { metadata := [(kEncoding, "json/plain")], data := x.json.dump context } := by
  unfold TracingInterceptor.writeToHeader
  rw [List.isEmpty_eq_false_iff.mpr hne]
  exact find?_assign_self _ _ _

/-- A header that comes from a call gives the context of the call. -/
theorem Knows.extractParent (h : Knows (tracing ω json key) w g)
    (hjson : ∀ i context, w.tracer.contextAt i = some context → json.Inverts context)
    (hbrings : g.Brings (tracing ω json key) header caller) :
    (tracing ω json key).extractParent header w = caller.bind w.tracer.contextAt := by
  cases caller with
  | none => exact hbrings
  | some i =>
    obtain ⟨sent, hsent, hentry⟩ := hbrings
    obtain ⟨context, hcontext, hstamp⟩ := h.wire sent i hsent
    obtain ⟨traceId, spanId, rfl⟩ := InMemoryTracer.contextAt_eq_contextOf hcontext
    show InMemoryTracer.extract _ = w.tracer.contextAt i
    rw [readFromHeader_stamp (x := tracing ω json key) (hjson i _ hcontext) (hentry.trans hstamp),
      InMemoryTracer.extract_contextOf, hcontext]

/-- A span that is started in a call is linked to it. -/
theorem Knows.startSpan (h : Knows (tracing ω json key) w g)
    (hcaller : ∀ i, caller = some i → i < w.tracer.records.length)
    (hparent : opts.parent = caller.bind w.tracer.contextAt) :
    Knows (tracing ω json key) ((tracing ω json key).startSpan opts w).2 (g.started caller) where
  linked := h.linked.startSpan hcaller hparent
  wire := by
    intro header i hmem
    obtain ⟨context, hcontext, hstamp⟩ := h.wire header i hmem
    refine ⟨context, ?_, hstamp⟩
    show (w.tracer.startSpan opts).2.contextAt i = _
    rw [InMemoryTracer.contextAt_startSpan (InMemoryTracer.contextAt_lt hcontext), hcontext]
  running := by
    intro slot i hi
    show i < (w.tracer.startSpan opts).2.records.length
    rw [InMemoryTracer.length_startSpan]
    exact Nat.lt_succ_of_lt (h.running slot i hi)
  slots := by
    intro slot
    show w.current slot = (g.running slot).bind _
    rw [h.slots]
    cases hslot : g.running slot with
    | none => rfl
    | some i =>
      exact (InMemoryTracer.contextAt_startSpan (h.running slot i hslot)).symm

/-- A call that starts a span sends the context of its span. -/
theorem Knows.startAndInject (h : Knows (tracing ω json key) w g)
    (hcaller : ∀ i, caller = some i → i < w.tracer.records.length)
    (hparent : opts.parent = caller.bind w.tracer.contextAt) :
    Knows (tracing ω json key) ((tracing ω json key).startAndInject opts header w).2.2
      (g.sent caller ((tracing ω json key).startAndInject opts header w).2.1) where
  linked := (h.startSpan hcaller hparent).linked
  wire := by
    intro header' i hmem
    rcases List.mem_append.mp hmem with hold | hnew
    · exact (h.startSpan hcaller hparent).wire header' i hold
    · obtain ⟨rfl, rfl⟩ := Prod.mk.inj (List.mem_singleton.mp hnew)
      rw [← h.linked.length]
      refine ⟨_, InMemoryTracer.contextAt_startSpan_self, ?_⟩
      have hne : (w.tracer.startSpan opts).1.context ≠ [] := List.cons_ne_nil _ _
      exact find?_writeToHeader (x := tracing ω json key) hne
  running := (h.startSpan hcaller hparent).running
  slots := (h.startSpan hcaller hparent).slots

/-- A run that starts a span holds it in its slot. -/
theorem Knows.enter (h : Knows (tracing ω json key) w g) (slot : Nat)
    (hcaller : ∀ i, caller = some i → i < w.tracer.records.length)
    (hparent : opts.parent = caller.bind w.tracer.contextAt) :
    Knows (tracing ω json key) ((tracing ω json key).cells.setCurrent slot
        (some ((tracing ω json key).startSpan opts w).1.context)
        ((tracing ω json key).startSpan opts w).2) (g.entered caller slot) where
  linked := (h.startSpan hcaller hparent).linked
  wire := (h.startSpan hcaller hparent).wire
  running := by
    intro slot' i hi
    by_cases heq : slot' = slot
    · subst heq
      rw [g.running_entered_self] at hi
      cases hi
      show _ < (w.tracer.startSpan opts).2.records.length
      rw [InMemoryTracer.length_startSpan, h.linked.length]
      exact Nat.lt_succ_self _
    · rw [g.running_entered_of_ne caller heq] at hi
      exact (h.startSpan hcaller hparent).running slot' i hi
  slots := by
    intro slot'
    show Function.update w.current slot _ slot' = _
    by_cases heq : slot' = slot
    · subst heq
      rw [Function.update_self, g.running_entered_self, ← h.linked.length]
      exact InMemoryTracer.contextAt_startSpan_self.symm
    · rw [Function.update_of_ne heq, g.running_entered_of_ne caller heq]
      exact (h.startSpan hcaller hparent).slots slot'

theorem Knows.leave (h : Knows (tracing ω json key) w g) (slot : Nat) :
    Knows (tracing ω json key) ((tracing ω json key).cells.setCurrent slot none w)
      (g.left slot) where
  linked := h.linked
  wire := h.wire
  running := by
    intro slot' i hi
    by_cases heq : slot' = slot
    · subst heq
      rw [g.running_left_self] at hi
      cases hi
    · rw [g.running_left_of_ne heq] at hi
      exact h.running slot' i hi
  slots := by
    intro slot'
    show Function.update w.current slot none slot' = _
    by_cases heq : slot' = slot
    · subst heq
      rw [Function.update_self, g.running_left_self]
      rfl
    · rw [Function.update_of_ne heq, g.running_left_of_ne heq]
      exact h.slots slot'

theorem Knows.endSpan (h : Knows (tracing ω json key) w g) (span : Span Nat) (error : Bool) :
    Knows (tracing ω json key) ((tracing ω json key).endSpan span error w) g := by
  have hids := InMemoryTracer.map_ids_endSpan (t := w.tracer) span error
  have hcontext (i : Nat) : (w.tracer.endSpan span error).contextAt i = w.tracer.contextAt i :=
    InMemoryTracer.contextAt_of_ids hids i
  have hlength : (w.tracer.endSpan span error).records.length = w.tracer.records.length := by
    rw [← List.length_map, hids, List.length_map]
  refine ⟨h.linked.of_ids hids rfl rfl, ?_, ?_, ?_⟩
  · intro header i hmem
    obtain ⟨context, hold, hstamp⟩ := h.wire header i hmem
    exact ⟨context, (hcontext i).trans hold, hstamp⟩
  · intro slot i hi
    exact Nat.lt_of_lt_of_eq (h.running slot i hi) hlength.symm
  · intro slot
    show w.current slot = (g.running slot).bind (w.tracer.endSpan span error).contextAt
    rw [funext hcontext]
    exact h.slots slot

theorem Knows.caller_lt (h : Knows (tracing ω json key) w g)
    (hbrings : g.Brings (tracing ω json key) header caller) (i : Nat) (hi : caller = some i) :
    i < w.tracer.records.length := by
  subst hi
  obtain ⟨sent, hsent, -⟩ := hbrings
  obtain ⟨context, hcontext, -⟩ := h.wire sent i hsent
  exact InMemoryTracer.contextAt_lt hcontext

theorem contextAt_mono {i : Nat} {context : SpanContext}
    (h : w.tracer.contextAt i = some context) :
    (w.tracer.startSpan opts).2.contextAt i = some context := by
  rw [InMemoryTracer.contextAt_startSpan (InMemoryTracer.contextAt_lt h), h]

/-- However the calls interleave, the tracer knows them. The induction is on what was done. -/
theorem Traces.knows (h : Traces (tracing ω json key) w g)
    (hjson : ∀ i context, w.tracer.contextAt i = some context → json.Inverts context) :
    Knows (tracing ω json key) w g := by
  induction h with
  | start rest =>
    refine ⟨InMemoryTracer.linked_empty, ?_, ?_, ?_⟩
    · intro header i hmem
      cases hmem
    · intro slot i hi
      cases hi
    · intro slot
      rfl
  | call h opts hparent header ih =>
    apply (ih fun i context hi => hjson i context (contextAt_mono hi)).startAndInject
    · intro i hi
      cases hi
    · exact hparent
  | callFrom h getInfo slot operation name header ih =>
    have hknows := ih fun i context hi => hjson i context (contextAt_mono hi)
    exact hknows.startAndInject (hknows.running slot) (hknows.slots slot)
  | run h opts header hbrings ih =>
    have hjson' := fun i context hi => hjson i context (contextAt_mono hi)
    exact (ih hjson').startSpan ((ih hjson').caller_lt hbrings)
      ((ih hjson').extractParent hjson' hbrings)
  | enter h getInfo slot header hbrings ih =>
    have hjson' := fun i context hi => hjson i context (contextAt_mono hi)
    exact (ih hjson').enter slot ((ih hjson').caller_lt hbrings)
      ((ih hjson').extractParent hjson' hbrings)
  | leave h slot ih => exact (ih hjson).leave slot
  | @endSpan w g h span error ih =>
    have hids := InMemoryTracer.map_ids_endSpan (t := w.tracer) span error
    exact (ih fun i context hi => hjson i context
      ((InMemoryTracer.contextAt_of_ids hids i).trans hi)).endSpan span error
  | elsewhere h rest ih =>
    have hknows := ih hjson
    exact ⟨hknows.linked, hknows.wire, hknows.running, hknows.slots⟩

/-- The records are the calls: each has the ids of the call it was made in, and two are of one trace
if the calls above both began as one. -/
structure CallForest (records : List SpanRecord) (callers : List (Option Nat)) : Prop where
  length : records.length = callers.length
  grown : Forest.Grown callers
  distinct : (records.map SpanRecord.spanId).Nodup
  roots : ∀ (i : Nat) r, records[i]? = some r → callers[i]? = some none → r.parentSpanId = ""
  under : ∀ (i j : Nat) r, records[i]? = some r → callers[i]? = some (some j) →
    ∃ q, records[j]? = some q ∧ r.parentSpanId = q.spanId ∧ r.traceId = q.traceId
  traces : ∀ (i j : Nat) r q, records[i]? = some r → records[j]? = some q →
    (r.traceId = q.traceId ↔
      ∃ root, Forest.RootOf callers i root ∧ Forest.RootOf callers j root)

theorem InMemoryTracer.Linked.distinct {t : InMemoryTracer} {callers : List (Option Nat)}
    (h : t.Linked callers) : (t.records.map SpanRecord.spanId).Nodup := by
  rw [List.nodup_iff_getElem?_ne_getElem?]
  intro i j hij hj heq
  rw [List.length_map] at hj
  have hi : i < t.records.length := hij.trans hj
  rw [List.getElem?_map, List.getElem?_map, List.getElem?_eq_getElem hi,
    List.getElem?_eq_getElem hj] at heq
  have hspan := Option.some.inj heq
  rw [h.spanIds i _ (List.getElem?_eq_getElem hi), h.spanIds j _ (List.getElem?_eq_getElem hj)]
    at hspan
  have hid := toString_nat_injective ((String.append_right_inj _).mp hspan)
  omega

/-- Traces are trees of calls. Whatever clients, workflows and activities do at the same time, the
records of their tracer are the calls that were made, and a trace is all that one call led to. -/
theorem Traces.call_forest (h : Traces (tracing ω json key) w g)
    (hjson : ∀ i context, w.tracer.contextAt i = some context → json.Inverts context) :
    CallForest w.tracer.records g.callers := by
  have hlinked := (h.knows hjson).linked
  refine ⟨hlinked.length, hlinked.grown, hlinked.distinct, hlinked.roots, hlinked.under, ?_⟩
  intro i j r q hi hj
  let label (i : Nat) : Option String := w.tracer.records[i]?.map SpanRecord.traceId
  have hlabel : r.traceId = q.traceId ↔ label i = label j := by
    simp only [label, hi, hj, Option.map_some, Option.some.injEq]
  have hlt {i : Nat} {r : SpanRecord} (hi : w.tracer.records[i]? = some r) :
      i < g.callers.length := hlinked.length ▸ (List.getElem?_eq_some_iff.mp hi).1
  have hrecord {i : Nat} {caller : Option Nat} (hc : g.callers[i]? = some caller) :
      ∃ r, w.tracer.records[i]? = some r := by
    have hi : i < w.tracer.records.length := by
      rw [hlinked.length]
      exact (List.getElem?_eq_some_iff.mp hc).1
    exact ⟨_, List.getElem?_eq_getElem hi⟩
  rw [hlabel]
  apply hlinked.grown.label_eq_iff label _ _ (hlt hi) (hlt hj)
  · intro i j hc
    obtain ⟨r, hr⟩ := hrecord hc
    obtain ⟨q, hq, -, htrace⟩ := hlinked.under i j r hr hc
    simp only [label, hq, hr, Option.map_some, htrace]
  · intro i j hci hcj heq
    obtain ⟨r, hr⟩ := hrecord hci
    obtain ⟨q, hq⟩ := hrecord hcj
    simp only [label, hr, hq, Option.map_some, Option.some.injEq] at heq
    exact hlinked.apart i j r q hr hq hci hcj heq

end Traces

section Greeting

open TracingInterceptor

/-- The JSON of a greeting's spans. -/
def greetJson : HeaderJson :=
  .ofContexts [InMemoryTracer.contextOf "t1" "s1", InMemoryTracer.contextOf "t1" "s2",
    InMemoryTracer.contextOf "t2" "s3", InMemoryTracer.contextOf "t1" "s4",
    InMemoryTracer.contextOf "t1" "s5"]

def greetTracing : TracingInterceptor InMemoryTracer Nat (Traced InMemoryTracer Unit) :=
  tracing Unit greetJson kDefaultTracerHeaderKey

def greetRunInfo (_ : Traced InMemoryTracer Unit) : WorkflowInfo where
  workflowId := "greet-1"
  runId := "run-1"
  workflowType := "Greet"

/-- A client starts the greeting. -/
def greetStarted : Span Nat × Header × Traced InMemoryTracer Unit :=
  greetTracing.startAndInject
    { operation := "StartWorkflow", name := "Greet", tags := [(kWorkflowIdTag, "greet-1")] } []
    ⟨{}, fun _ => none, ()⟩

/-- A worker runs it. -/
def greetEntered : Traced InMemoryTracer Unit :=
  let (span, w) := greetTracing.startSpan
    (greetTracing.runWorkflowOptions greetRunInfo greetStarted.2.1 greetStarted.2.2)
    greetStarted.2.2
  greetTracing.cells.setCurrent 0 (some span.context) w

/-- Another workflow is started meanwhile. -/
def otherStarted : Span Nat × Header × Traced InMemoryTracer Unit :=
  greetTracing.startAndInject { operation := "StartWorkflow", name := "Other" } [] greetEntered

/-- The greeting calls an activity. -/
def composeCalled : Span Nat × Header × Traced InMemoryTracer Unit :=
  greetTracing.startAndInject
    (greetTracing.outboundOptions greetRunInfo 0 "StartActivity" "Compose" otherStarted.2.2)
    greetStarted.2.1 otherStarted.2.2

/-- A worker runs the activity. -/
def composeRun : Span Nat × Traced InMemoryTracer Unit :=
  greetTracing.startSpan
    { operation := "RunActivity"
      name := "Compose"
      parent := greetTracing.extractParent composeCalled.2.1 composeCalled.2.2 } composeCalled.2.2

theorem greetJson_inverts (i : Nat) (context : SpanContext)
    (h : composeRun.2.tracer.contextAt i = some context) : greetJson.Inverts context := by
  have hall : ∀ i < 5, ∀ context ∈ composeRun.2.tracer.contextAt i,
      greetJson.parse (greetJson.dump context) = some (context.map fun e => (e.1, some e.2)) := by
    decide +kernel
  have hlength : composeRun.2.tracer.records.length = 5 := by decide +kernel
  exact hall i (hlength ▸ InMemoryTracer.contextAt_lt h) context h

/-- Start, run, call and run of the activity are one path. -/
theorem greet_call_forest :
    CallForest composeRun.2.tracer.records [none, some 0, none, some 1, some 3] := by
  have hstarted := (Traces.start (x := greetTracing) ()).call
    { operation := "StartWorkflow", name := "Greet", tags := [(kWorkflowIdTag, "greet-1")] } rfl []
  have hentered := hstarted.enter greetRunInfo 0 greetStarted.2.1
    (show CallGraph.Brings _ _ _ (some 0) from
      ⟨greetStarted.2.1, List.mem_singleton.mpr rfl, rfl⟩)
  have hother := hentered.call { operation := "StartWorkflow", name := "Other" } rfl []
  have hcalled := hother.callFrom greetRunInfo 0 "StartActivity" "Compose" greetStarted.2.1
  have hrun := hcalled.run { operation := "RunActivity", name := "Compose" } composeCalled.2.1
    (show CallGraph.Brings _ _ _ (some 3) from
      ⟨composeCalled.2.1, List.mem_append_right _ (List.mem_singleton.mpr rfl), rfl⟩)
  exact Traces.call_forest hrun greetJson_inverts

end Greeting

end TemporalSdk
