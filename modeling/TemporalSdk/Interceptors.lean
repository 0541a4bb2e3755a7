import TemporalSdk.Lib.Chain
import TemporalSdk.ActivityHandler

/-! The interceptors of a worker and of a client: the links of their chains, and the order in
which a call enters them. `ω` is everything a call can change, the workflow context included. -/
namespace TemporalSdk

/-- A call that has ended: what is left in its arguments, which are references, what it returned
or threw, and the state it leaves behind. -/
structure Invoked (ω α β : Type) where
  args : α
  outcome : Except Thrown β
  world : ω

abbrev Method (ω α β : Type) := α → ω → Invoked ω α β

structure ExecuteWorkflowInput where
  args : Payloads
  deriving DecidableEq, Repr

structure HandleSignalInput where
  signalName : String
  args : Payloads
  deriving DecidableEq, Repr

structure HandleQueryInput where
  queryType : String
  args : Payloads
  deriving DecidableEq, Repr

structure ExecuteActivityOutboundInput where
  activityType : String
  options : ActivityOptions
  args : Payloads
  deriving DecidableEq, Repr

structure ExecuteChildWorkflowInput where
  workflowType : String
  options : ChildWorkflowOptions
  args : Payloads
  deriving DecidableEq, Repr

structure SignalExternalWorkflowInput where
  workflowId : String
  runId : String
  signalName : String
  args : Payloads
  deriving DecidableEq, Repr

structure CancelExternalWorkflowInput where
  workflowId : String
  runId : String
  deriving DecidableEq, Repr

structure UpsertSearchAttributesInput where
  attributes : List (String × Payload)
  deriving DecidableEq, Repr

/-- `StartWorkflowOptions`; its maps are in the key order of `std::map`. -/
structure StartWorkflowOptions where
  id : String := ""
  taskQueue : String := ""
  executionTimeout : Int := 0
  runTimeout : Int := 0
  taskTimeout : Int := 0
  retryPolicy : Option RetryPolicy := none
  memo : List (String × Payload) := []
  searchAttributes : List (String × Payload) := []
  headers : Header := []
  deriving DecidableEq, Repr

structure StartWorkflowInput where
  workflowType : String
  options : StartWorkflowOptions
  args : Payloads
  deriving DecidableEq, Repr

structure SignalWorkflowInput where
  workflowId : String
  runId : String
  signalName : String
  args : Payloads
  deriving DecidableEq, Repr

structure QueryWorkflowInput where
  workflowId : String
  runId : String
  queryType : String
  args : Payloads
  deriving DecidableEq, Repr

/-- `WorkflowOutboundInterceptor`. -/
structure WorkflowOutbound (ω : Type) where
  executeActivity : Method ω (ExecuteActivityOutboundInput × Header) Unit
  executeChildWorkflow : Method ω (ExecuteChildWorkflowInput × Header) Unit
  signalExternalWorkflow : Method ω (SignalExternalWorkflowInput × Header) Unit
  cancelExternalWorkflow : Method ω CancelExternalWorkflowInput Unit
  upsertSearchAttributes : Method ω UpsertSearchAttributesInput Unit

/-- The state of `Init`: the interceptor its terminal has captured, and the rest. -/
abbrev InitState (ω : Type) := Option (WorkflowOutbound ω) × ω

/-- `WorkflowInboundInterceptor`. -/
structure WorkflowInbound (ω : Type) where
  init : Method (InitState ω) (WorkflowOutbound ω) Unit
  executeWorkflow : Method ω (ExecuteWorkflowInput × Header) Payloads
  handleSignal : Method ω (HandleSignalInput × Header) Unit
  handleQuery : Method ω (HandleQueryInput × Header) Payloads

/-- `ClientOutboundInterceptor`. -/
structure ClientOutbound (ω : Type) where
  startWorkflow : Method ω (StartWorkflowInput × Header) String
  signalWorkflow : Method ω (SignalWorkflowInput × Header) Unit
  queryWorkflow : Method ω (QueryWorkflowInput × Header) Payloads

abbrev InterceptWorkflow (ω : Type) :=
  WorkflowInbound ω → Except Thrown (Option (WorkflowInbound ω))

abbrev InterceptClient (ω : Type) := ClientOutbound ω → Except Thrown (Option (ClientOutbound ω))

/-- `interceptor::Interceptor`, a factory of links; `name` tells its links from others. -/
structure LinkFactory (ν ω : Type) where
  name : ν
  interceptWorkflow : InterceptWorkflow ω := fun _ => .ok none
  interceptActivity : InterceptActivity ω := fun _ => .ok none
  interceptClient : InterceptClient ω := fun _ => .ok none

/-- `BuildWorkflowInboundChain`. -/
def buildWorkflowInboundChain {ν ω : Type} (factories : List (LinkFactory ν ω))
    (terminal : WorkflowInbound ω) : Except Thrown (WorkflowInbound ω) :=
  Chain.build LinkFactory.interceptWorkflow factories terminal

/-- `BuildClientOutboundChain`. -/
def buildClientOutboundChain {ν ω : Type} (factories : List (LinkFactory ν ω))
    (terminal : ClientOutbound ω) : Except Thrown (ClientOutbound ω) :=
  Chain.build LinkFactory.interceptClient factories terminal

/-- `BuildActivityInboundChain` builds in the same way. -/
theorem buildActivityInboundChain_eq_build {ν ω : Type} (factories : List (LinkFactory ν ω))
    (terminal : ExecuteActivity ω) :
    buildActivityInboundChain (factories.map LinkFactory.interceptActivity) terminal =
      Chain.build LinkFactory.interceptActivity factories terminal := by
  rw [buildActivityInboundChain, Chain.build, ← List.map_reverse, List.foldlM_map]
  rfl

/-- `RootWorkflowOutbound`. -/
def rootWorkflowOutbound (ω : Type) : WorkflowOutbound ω where
  executeActivity args w := ⟨args, .ok (), w⟩
  executeChildWorkflow args w := ⟨args, .ok (), w⟩
  signalExternalWorkflow args w := ⟨args, .ok (), w⟩
  cancelExternalWorkflow args w := ⟨args, .ok (), w⟩
  upsertSearchAttributes args w := ⟨args, .ok (), w⟩

/-- `RootWorkflowInbound`: `base` is the base class, whose other methods need a next link. -/
def rootWorkflowInbound {ω : Type} (base : WorkflowInbound ω)
    (fn : Payloads → ω → Except Thrown Payloads × ω) : WorkflowInbound ω :=
  { base with
    init := fun outbound s => ⟨outbound, .ok (), some outbound, s.2⟩
    executeWorkflow := fun args w => ⟨args, (fn args.1.args w).1, (fn args.1.args w).2⟩ }

/-- The start of `RunBody`: the head of the inbound chain, and the outbound interceptor that the
root captures. -/
def wireChains {ν ω : Type} (factories : List (LinkFactory ν ω)) (root : WorkflowInbound ω)
    (w : ω) : Except Thrown (WorkflowInbound ω × Option (WorkflowOutbound ω)) := do
  let head ← buildWorkflowInboundChain factories root
  return (head, (head.init (rootWorkflowOutbound ω) (none, w)).world.1)

section Visits

variable {ν ω : Type} (log : ω → List ν)

namespace Method

variable {α β : Type}

/-- A call of the method enters these links. -/
def Visits (m : Method ω α β) (vs : List ν) : Prop :=
  Chain.Visits log (fun a w => (m a w).world) vs

/-- A call of the method enters `v` and calls through to `next` once. -/
def CallsThrough (v : ν) (m next : Method ω α β) : Prop :=
  Chain.CallsThrough log v (fun a w => (m a w).world) fun a w => (next a w).world

variable {log} {v : ν} {m next : Method ω α β} {vs : List ν}

theorem CallsThrough.visits (h : CallsThrough log v m next) (hnext : next.Visits log vs) :
    m.Visits log (v :: vs) :=
  Chain.CallsThrough.visits h hnext

end Method

structure WorkflowOutbound.Visits (o : WorkflowOutbound ω) (vs : List ν) : Prop where
  executeActivity : Method.Visits log o.executeActivity vs
  executeChildWorkflow : Method.Visits log o.executeChildWorkflow vs
  signalExternalWorkflow : Method.Visits log o.signalExternalWorkflow vs
  cancelExternalWorkflow : Method.Visits log o.cancelExternalWorkflow vs
  upsertSearchAttributes : Method.Visits log o.upsertSearchAttributes vs

structure WorkflowOutbound.CallsThrough (v : ν) (o next : WorkflowOutbound ω) : Prop where
  executeActivity : Method.CallsThrough log v o.executeActivity next.executeActivity
  executeChildWorkflow : Method.CallsThrough log v o.executeChildWorkflow next.executeChildWorkflow
  signalExternalWorkflow :
    Method.CallsThrough log v o.signalExternalWorkflow next.signalExternalWorkflow
  cancelExternalWorkflow :
    Method.CallsThrough log v o.cancelExternalWorkflow next.cancelExternalWorkflow
  upsertSearchAttributes :
    Method.CallsThrough log v o.upsertSearchAttributes next.upsertSearchAttributes

theorem WorkflowOutbound.CallsThrough.visits {v : ν} {o next : WorkflowOutbound ω} {vs : List ν}
    (h : o.CallsThrough log v next) (hnext : next.Visits log vs) : o.Visits log (v :: vs) where
  executeActivity := h.executeActivity.visits hnext.executeActivity
  executeChildWorkflow := h.executeChildWorkflow.visits hnext.executeChildWorkflow
  signalExternalWorkflow := h.signalExternalWorkflow.visits hnext.signalExternalWorkflow
  cancelExternalWorkflow := h.cancelExternalWorkflow.visits hnext.cancelExternalWorkflow
  upsertSearchAttributes := h.upsertSearchAttributes.visits hnext.upsertSearchAttributes

/-- The log of the state `Init` runs in. -/
def initLog (s : InitState ω) : List ν := log s.2

structure WorkflowInbound.Visits (i : WorkflowInbound ω) (vs : List ν) : Prop where
  init : Method.Visits (initLog log) i.init vs
  executeWorkflow : Method.Visits log i.executeWorkflow vs
  handleSignal : Method.Visits log i.handleSignal vs
  handleQuery : Method.Visits log i.handleQuery vs

structure WorkflowInbound.CallsThrough (v : ν) (i next : WorkflowInbound ω) : Prop where
  init : Method.CallsThrough (initLog log) v i.init next.init
  executeWorkflow : Method.CallsThrough log v i.executeWorkflow next.executeWorkflow
  handleSignal : Method.CallsThrough log v i.handleSignal next.handleSignal
  handleQuery : Method.CallsThrough log v i.handleQuery next.handleQuery

/-- `Init` hands down the outbound interceptor it receives, wrapped as `v` or as it is, and leaves
the terminal's capture alone. -/
def WorkflowInbound.HandsDown (v : ν) (wraps : Bool) (i next : WorkflowInbound ω) : Prop :=
  ∀ o s, ∃ o' s', (i.init o s).world.1 = (next.init o' s').world.1 ∧
    if wraps then o'.CallsThrough log v o else o' = o

structure ClientOutbound.Visits (c : ClientOutbound ω) (vs : List ν) : Prop where
  startWorkflow : Method.Visits log c.startWorkflow vs
  signalWorkflow : Method.Visits log c.signalWorkflow vs
  queryWorkflow : Method.Visits log c.queryWorkflow vs

structure ClientOutbound.CallsThrough (v : ν) (c next : ClientOutbound ω) : Prop where
  startWorkflow : Method.CallsThrough log v c.startWorkflow next.startWorkflow
  signalWorkflow : Method.CallsThrough log v c.signalWorkflow next.signalWorkflow
  queryWorkflow : Method.CallsThrough log v c.queryWorkflow next.queryWorkflow

/-- The state after a call of `ExecuteActivity`. -/
def runActivity (link : ExecuteActivity ω) (a : ActivityContext × Payloads × Header) (w : ω) : ω :=
  (link a.1 a.2.1 a.2.2 w).world

/-- A factory either wraps the link it is shown, once, or leaves it unwrapped. -/
structure LinkFactory.WrapsOnce (f : LinkFactory ν ω) : Prop where
  workflow : ∀ next, ∃ wrapper, f.interceptWorkflow next = .ok wrapper ∧
    ∀ link ∈ wrapper, link.CallsThrough log f.name next
  activity : ∀ next, ∃ wrapper, f.interceptActivity next = .ok wrapper ∧
    ∀ link ∈ wrapper, Chain.CallsThrough log f.name (runActivity link) (runActivity next)
  client : ∀ next, ∃ wrapper, f.interceptClient next = .ok wrapper ∧
    ∀ link ∈ wrapper, link.CallsThrough log f.name next

end Visits

section Order

variable {ν ω : Type} {log : ω → List ν} {factories wrapping : List (LinkFactory ν ω)}

theorem workflowInbound_visits {root head : WorkflowInbound ω} {vs : List ν}
    (h : Chain.Links LinkFactory.interceptWorkflow root factories wrapping head)
    (hf : ∀ f ∈ factories, f.WrapsOnce log) (hroot : root.Visits log vs) :
    head.Visits log (wrapping.map LinkFactory.name ++ vs) := by
  have hwrap : ∀ f ∈ factories, ∀ next link, f.interceptWorkflow next = .ok (some link) →
      link.CallsThrough log f.name next := by
    intro f hmem next link hlink
    obtain ⟨wrapper, hwrapper, hthrough⟩ := (hf f hmem).workflow next
    rw [hwrapper] at hlink
    exact hthrough link (Except.ok.inj hlink)
  refine ⟨?_, ?_, ?_, ?_⟩
  · exact h.visits (fun i o s => (WorkflowInbound.init i o s).world)
      (fun f hmem next link hlink => (hwrap f hmem next link hlink).init) hroot.init
  · exact h.visits (fun i a w => (WorkflowInbound.executeWorkflow i a w).world)
      (fun f hmem next link hlink => (hwrap f hmem next link hlink).executeWorkflow)
      hroot.executeWorkflow
  · exact h.visits (fun i a w => (WorkflowInbound.handleSignal i a w).world)
      (fun f hmem next link hlink => (hwrap f hmem next link hlink).handleSignal) hroot.handleSignal
  · exact h.visits (fun i a w => (WorkflowInbound.handleQuery i a w).world)
      (fun f hmem next link hlink => (hwrap f hmem next link hlink).handleQuery) hroot.handleQuery

theorem activityInbound_visits {root head : ExecuteActivity ω} {vs : List ν}
    (h : Chain.Links LinkFactory.interceptActivity root factories wrapping head)
    (hf : ∀ f ∈ factories, f.WrapsOnce log) (hroot : Chain.Visits log (runActivity root) vs) :
    Chain.Visits log (runActivity head) (wrapping.map LinkFactory.name ++ vs) := by
  refine h.visits runActivity (fun f hmem next link hlink => ?_) hroot
  obtain ⟨wrapper, hwrapper, hthrough⟩ := (hf f hmem).activity next
  rw [hwrapper] at hlink
  exact hthrough link (Except.ok.inj hlink)

theorem clientOutbound_visits {root head : ClientOutbound ω} {vs : List ν}
    (h : Chain.Links LinkFactory.interceptClient root factories wrapping head)
    (hf : ∀ f ∈ factories, f.WrapsOnce log) (hroot : root.Visits log vs) :
    head.Visits log (wrapping.map LinkFactory.name ++ vs) := by
  have hwrap : ∀ f ∈ factories, ∀ next link, f.interceptClient next = .ok (some link) →
      link.CallsThrough log f.name next := by
    intro f hmem next link hlink
    obtain ⟨wrapper, hwrapper, hthrough⟩ := (hf f hmem).client next
    rw [hwrapper] at hlink
    exact hthrough link (Except.ok.inj hlink)
  refine ⟨?_, ?_, ?_⟩
  · exact h.visits (fun c a w => (ClientOutbound.startWorkflow c a w).world)
      (fun f hmem next link hlink => (hwrap f hmem next link hlink).startWorkflow)
      hroot.startWorkflow
  · exact h.visits (fun c a w => (ClientOutbound.signalWorkflow c a w).world)
      (fun f hmem next link hlink => (hwrap f hmem next link hlink).signalWorkflow)
      hroot.signalWorkflow
  · exact h.visits (fun c a w => (ClientOutbound.queryWorkflow c a w).world)
      (fun f hmem next link hlink => (hwrap f hmem next link hlink).queryWorkflow)
      hroot.queryWorkflow

/-- The outbound interceptor that reaches the root is entered at the wrapper of the last link. -/
theorem captured_visits {root head : WorkflowInbound ω}
    (h : Chain.Links LinkFactory.interceptWorkflow root factories wrapping head)
    {wraps : LinkFactory ν ω → Bool}
    (hpass : ∀ f ∈ factories, ∀ next link, f.interceptWorkflow next = .ok (some link) →
      link.HandsDown log f.name (wraps f) next)
    (hroot : ∀ o s, (root.init o s).world.1 = some o) {outbound : WorkflowOutbound ω} {vs : List ν}
    (ho : outbound.Visits log vs) (s : InitState ω) :
    ∃ captured, (head.init outbound s).world.1 = some captured ∧
      captured.Visits log (((wrapping.filter wraps).map LinkFactory.name).reverse ++ vs) :=
  h.handed (fun i o s => (WorkflowInbound.init i o s).world) Prod.fst
    (fun o vs => WorkflowOutbound.Visits log o vs)
    (fun v o next => WorkflowOutbound.CallsThrough log v o next)
    (fun hwrap hnext => hwrap.visits log hnext) hpass hroot ho s

/-- A call enters the links of the interceptors in list order and then the terminal, on each of the
three chains. An outbound call of a workflow goes the other way: it enters the outbound wrappers in
reverse list order, and then the outbound terminal. -/
theorem interceptors_in_order (factories : List (LinkFactory ν ω))
    (hf : ∀ f ∈ factories, f.WrapsOnce log) (terminal : ν)
    (inbound : WorkflowInbound ω) (hinbound : inbound.Visits log [terminal])
    (activity : ExecuteActivity ω) (hactivity : Chain.Visits log (runActivity activity) [terminal])
    (client : ClientOutbound ω) (hclient : client.Visits log [terminal]) :
    (∃ wrapping head, buildWorkflowInboundChain factories inbound = .ok head ∧
      Chain.Links LinkFactory.interceptWorkflow inbound factories wrapping head ∧
      head.Visits log (wrapping.map LinkFactory.name ++ [terminal]) ∧
      ∀ wraps : LinkFactory ν ω → Bool,
        (∀ f ∈ factories, ∀ next link, f.interceptWorkflow next = .ok (some link) →
          link.HandsDown log f.name (wraps f) next) →
        (∀ o s, (inbound.init o s).world.1 = some o) →
        ∀ (outbound : WorkflowOutbound ω) (last : ν), outbound.Visits log [last] → ∀ w,
          ∃ captured, (head.init outbound (none, w)).world.1 = some captured ∧
            captured.Visits log
              (((wrapping.filter wraps).map LinkFactory.name).reverse ++ [last])) ∧
    (∃ wrapping head,
      buildActivityInboundChain (factories.map LinkFactory.interceptActivity) activity = .ok head ∧
      Chain.Links LinkFactory.interceptActivity activity factories wrapping head ∧
      Chain.Visits log (runActivity head) (wrapping.map LinkFactory.name ++ [terminal])) ∧
    ∃ wrapping head, buildClientOutboundChain factories client = .ok head ∧
      Chain.Links LinkFactory.interceptClient client factories wrapping head ∧
      head.Visits log (wrapping.map LinkFactory.name ++ [terminal]) := by
  refine ⟨?_, ?_, ?_⟩
  · obtain ⟨wrapping, head, hbuild, hlinks⟩ := Chain.exists_links inbound
      fun f hmem next => ((hf f hmem).workflow next).imp fun _ h => h.1
    exact ⟨wrapping, head, hbuild, hlinks, workflowInbound_visits hlinks hf hinbound,
      fun wraps hpass hroot outbound last ho w => captured_visits hlinks hpass hroot ho _⟩
  · obtain ⟨wrapping, head, hbuild, hlinks⟩ := Chain.exists_links activity
      fun f hmem next => ((hf f hmem).activity next).imp fun _ h => h.1
    rw [buildActivityInboundChain_eq_build]
    exact ⟨wrapping, head, hbuild, hlinks, activityInbound_visits hlinks hf hactivity⟩
  · obtain ⟨wrapping, head, hbuild, hlinks⟩ := Chain.exists_links client
      fun f hmem next => ((hf f hmem).client next).imp fun _ h => h.1
    exact ⟨wrapping, head, hbuild, hlinks, clientOutbound_visits hlinks hf hclient⟩

end Order

section Spies

/-- A method that logs its entry and calls through. -/
def Method.spy {α β : Type} (v : String) (next : Method (List String) α β) :
    Method (List String) α β :=
  fun args w => next args (w ++ [v])

theorem Method.spy_callsThrough {α β : Type} (v : String) (next : Method (List String) α β) :
    Method.CallsThrough id v (Method.spy v next) next :=
  fun args w => ⟨args, w ++ [v], rfl, rfl⟩

def WorkflowOutbound.spy (v : String) (next : WorkflowOutbound (List String)) :
    WorkflowOutbound (List String) where
  executeActivity := Method.spy v next.executeActivity
  executeChildWorkflow := Method.spy v next.executeChildWorkflow
  signalExternalWorkflow := Method.spy v next.signalExternalWorkflow
  cancelExternalWorkflow := Method.spy v next.cancelExternalWorkflow
  upsertSearchAttributes := Method.spy v next.upsertSearchAttributes

def WorkflowInbound.spy (v : String) (next : WorkflowInbound (List String)) :
    WorkflowInbound (List String) where
  init outbound s := next.init (outbound.spy v) (s.1, s.2 ++ [v])
  executeWorkflow := Method.spy v next.executeWorkflow
  handleSignal := Method.spy v next.handleSignal
  handleQuery := Method.spy v next.handleQuery

def ClientOutbound.spy (v : String) (next : ClientOutbound (List String)) :
    ClientOutbound (List String) where
  startWorkflow := Method.spy v next.startWorkflow
  signalWorkflow := Method.spy v next.signalWorkflow
  queryWorkflow := Method.spy v next.queryWorkflow

/-- An interceptor whose links log their entries. -/
def LinkFactory.spy (v : String) : LinkFactory String (List String) where
  name := v
  interceptWorkflow next := .ok (some (next.spy v))
  interceptActivity next := .ok (some fun ctx args header w => next ctx args header (w ++ [v]))
  interceptClient next := .ok (some (next.spy v))

theorem LinkFactory.spy_wrapsOnce (v : String) : (LinkFactory.spy v).WrapsOnce id where
  workflow next := by
    refine ⟨_, rfl, fun link hlink => ?_⟩
    cases hlink
    exact ⟨fun o s => ⟨o.spy v, (s.1, s.2 ++ [v]), rfl, rfl⟩, Method.spy_callsThrough v _,
      Method.spy_callsThrough v _, Method.spy_callsThrough v _⟩
  activity next := by
    refine ⟨_, rfl, fun link hlink => ?_⟩
    cases hlink
    exact fun a w => ⟨a, w ++ [v], rfl, rfl⟩
  client next := by
    refine ⟨_, rfl, fun link hlink => ?_⟩
    cases hlink
    exact ⟨Method.spy_callsThrough v _, Method.spy_callsThrough v _, Method.spy_callsThrough v _⟩

theorem LinkFactory.spy_handsDown {v : String} {next link : WorkflowInbound (List String)}
    (h : (LinkFactory.spy v).interceptWorkflow next = .ok (some link)) :
    link.HandsDown id v true next := by
  intro o s
  cases h
  exact ⟨o.spy v, (s.1, s.2 ++ [v]), rfl, Method.spy_callsThrough v _, Method.spy_callsThrough v _,
    Method.spy_callsThrough v _, Method.spy_callsThrough v _, Method.spy_callsThrough v _⟩

/-- An interceptor that wraps nothing. -/
def LinkFactory.idle (v : String) : LinkFactory String (List String) where
  name := v

theorem LinkFactory.idle_wrapsOnce (v : String) : (LinkFactory.idle v).WrapsOnce id where
  workflow _ := ⟨none, rfl, fun _ h => absurd h (Option.not_mem_none _)⟩
  activity _ := ⟨none, rfl, fun _ h => absurd h (Option.not_mem_none _)⟩
  client _ := ⟨none, rfl, fun _ h => absurd h (Option.not_mem_none _)⟩

/-- An end of a chain that logs its entry. -/
def Method.stop {α β : Type} (v : String) (result : β) : Method (List String) α β :=
  fun args w => ⟨args, .ok result, w ++ [v]⟩

theorem Method.stop_visits {α β : Type} (v : String) (result : β) :
    Method.Visits id (Method.stop v result : Method (List String) α β) [v] := fun _ _ => rfl

def WorkflowOutbound.stop (v : String) : WorkflowOutbound (List String) where
  executeActivity := Method.stop v ()
  executeChildWorkflow := Method.stop v ()
  signalExternalWorkflow := Method.stop v ()
  cancelExternalWorkflow := Method.stop v ()
  upsertSearchAttributes := Method.stop v ()

def WorkflowInbound.stop (v : String) : WorkflowInbound (List String) where
  init outbound s := ⟨outbound, .ok (), some outbound, s.2 ++ [v]⟩
  executeWorkflow := Method.stop v []
  handleSignal := Method.stop v ()
  handleQuery := Method.stop v []

def ClientOutbound.stop (v : String) : ClientOutbound (List String) where
  startWorkflow := Method.stop v ""
  signalWorkflow := Method.stop v ()
  queryWorkflow := Method.stop v []

/-- Two wrappers around an interceptor that wraps nothing: the workflow's function is reached
through `A` and then `C`, an outbound call leaves through `C` and then `A`. -/
theorem interceptors_in_order_spies :
    ∃ head captured,
      buildWorkflowInboundChain [.spy "A", .idle "B", .spy "C"] (.stop "workflow") = .ok head ∧
      (∀ args w, (head.executeWorkflow args w).world = w ++ ["A", "C", "workflow"]) ∧
      (head.init (.stop "command") (none, [])).world.1 = some captured ∧
      ∀ args w, (captured.executeActivity args w).world = w ++ ["C", "A", "command"] := by
  have hf : ∀ f ∈ [LinkFactory.spy "A", .idle "B", .spy "C"], f.WrapsOnce id := by
    simp only [List.forall_mem_cons]
    exact ⟨LinkFactory.spy_wrapsOnce "A", LinkFactory.idle_wrapsOnce "B",
      LinkFactory.spy_wrapsOnce "C", fun _ h => absurd h List.not_mem_nil⟩
  obtain ⟨⟨wrapping, head, hbuild, hlinks, hvisits, hcaptured⟩, -, -⟩ :=
    interceptors_in_order _ hf "workflow" (.stop "workflow")
      ⟨fun _ _ => rfl, Method.stop_visits _ _, Method.stop_visits _ _, Method.stop_visits _ _⟩
      (fun ctx _ _ w => ⟨.ok [], ctx, w ++ ["workflow"]⟩) (fun _ _ => rfl) (.stop "workflow")
      ⟨Method.stop_visits _ _, Method.stop_visits _ _, Method.stop_visits _ _⟩
  have hwrapping := hlinks.wrapping_eq_filter (fun f => f.name != "B") (by
    simp only [List.forall_mem_cons]
    refine ⟨?_, ?_, ?_, fun _ h => absurd h List.not_mem_nil⟩ <;>
      exact fun _ _ h => by cases h; rfl)
  obtain ⟨captured, hcapture, houtbound⟩ := hcaptured (fun _ => true) (by
    simp only [List.forall_mem_cons]
    refine ⟨?_, ?_, ?_, fun _ h => absurd h List.not_mem_nil⟩
    · exact fun _ _ h => LinkFactory.spy_handsDown h
    · exact fun _ _ h => by cases h
    · exact fun _ _ h => LinkFactory.spy_handsDown h) (fun _ _ => rfl) (.stop "command") "command"
    ⟨Method.stop_visits _ _, Method.stop_visits _ _, Method.stop_visits _ _,
      Method.stop_visits _ _, Method.stop_visits _ _⟩ []
  subst hwrapping
  exact ⟨head, captured, hbuild, hvisits.executeWorkflow, hcapture, houtbound.executeActivity⟩

end Spies
end TemporalSdk
