import Mathlib.Data.List.Forall2
import TemporalSdk.ClientStart
import TemporalSdk.Tracing

/-! Tracing shows nowhere. With a tracing interceptor among its interceptors, a worker or a client
does what it does without it, to whoever does not look at the tracer's entry in the headers. -/
namespace TemporalSdk
open OrderedMap

section Relations

variable {ω α β : Type} (H : Header → Header → Prop) (W : ω → ω → Prop)

/-- On related arguments and in related worlds the methods have the same outcome, and leave related
arguments and worlds. -/
def Method.Related (A : α → α → Prop) (W : ω → ω → Prop) (m m' : Method ω α β) : Prop :=
  ∀ a a' w w', A a a' → W w w' → A (m a w).args (m' a' w').args ∧
    (m a w).outcome = (m' a' w').outcome ∧ W (m a w).world (m' a' w').world

/-- The same arguments, with related headers. -/
def SameButHeader (a a' : α × Header) : Prop := a.1 = a'.1 ∧ H a.2 a'.2

structure WorkflowOutbound.Related (o o' : WorkflowOutbound ω) : Prop where
  executeActivity : Method.Related (SameButHeader H) W o.executeActivity o'.executeActivity
  executeChildWorkflow :
    Method.Related (SameButHeader H) W o.executeChildWorkflow o'.executeChildWorkflow
  signalExternalWorkflow :
    Method.Related (SameButHeader H) W o.signalExternalWorkflow o'.signalExternalWorkflow
  cancelExternalWorkflow : Method.Related Eq W o.cancelExternalWorkflow o'.cancelExternalWorkflow
  upsertSearchAttributes : Method.Related Eq W o.upsertSearchAttributes o'.upsertSearchAttributes

/-- Related interceptors captured, if any, and related worlds. -/
def InitState.Related (s s' : InitState ω) : Prop :=
  Option.Rel (WorkflowOutbound.Related H W) s.1 s'.1 ∧ W s.2 s'.2

structure WorkflowInbound.Related (i i' : WorkflowInbound ω) : Prop where
  init : Method.Related (WorkflowOutbound.Related H W) (InitState.Related H W) i.init i'.init
  executeWorkflow : Method.Related (SameButHeader H) W i.executeWorkflow i'.executeWorkflow
  handleSignal : Method.Related (SameButHeader H) W i.handleSignal i'.handleSignal
  handleQuery : Method.Related (SameButHeader H) W i.handleQuery i'.handleQuery

structure ClientOutbound.Related (c c' : ClientOutbound ω) : Prop where
  startWorkflow : Method.Related (SameButHeader H) W c.startWorkflow c'.startWorkflow
  signalWorkflow : Method.Related (SameButHeader H) W c.signalWorkflow c'.signalWorkflow
  queryWorkflow : Method.Related (SameButHeader H) W c.queryWorkflow c'.queryWorkflow

def ExecuteActivity.Related (e e' : ExecuteActivity ω) : Prop :=
  ∀ ctx args header header' w w', H header header' → W w w' →
    (e ctx args header w).outcome = (e' ctx args header' w').outcome ∧
      (e ctx args header w).context = (e' ctx args header' w').context ∧
        W (e ctx args header w).world (e' ctx args header' w').world

/-- The links of the factory do not tell related links, headers and worlds apart. -/
structure LinkFactory.Respects {ν : Type} (f : LinkFactory ν ω) : Prop where
  workflow : Chain.Keeps LinkFactory.interceptWorkflow (WorkflowInbound.Related H W) f
  activity : Chain.Keeps LinkFactory.interceptActivity (ExecuteActivity.Related H W) f
  client : Chain.Keeps LinkFactory.interceptClient (ClientOutbound.Related H W) f

theorem rootWorkflowOutbound_related :
    (rootWorkflowOutbound ω).Related H W (rootWorkflowOutbound ω) where
  executeActivity := fun _ _ _ _ ha hw => ⟨ha, rfl, hw⟩
  executeChildWorkflow := fun _ _ _ _ ha hw => ⟨ha, rfl, hw⟩
  signalExternalWorkflow := fun _ _ _ _ ha hw => ⟨ha, rfl, hw⟩
  cancelExternalWorkflow := fun _ _ _ _ ha hw => ⟨ha, rfl, hw⟩
  upsertSearchAttributes := fun _ _ _ _ ha hw => ⟨ha, rfl, hw⟩

variable {H W}

/-- The outbound interceptors that related heads hand to the root are related. -/
theorem wireChains_related {ν : Type} {factories factories' : List (LinkFactory ν ω)}
    {root root' : WorkflowInbound ω} {w w' : ω}
    (h : Chain.Agree (WorkflowInbound.Related H W) (buildWorkflowInboundChain factories root)
      (buildWorkflowInboundChain factories' root')) (hw : W w w') :
    Chain.Agree (fun wired wired' => WorkflowInbound.Related H W wired.1 wired'.1 ∧
      Option.Rel (WorkflowOutbound.Related H W) wired.2 wired'.2)
      (wireChains factories root w) (wireChains factories' root' w') := by
  unfold wireChains
  generalize buildWorkflowInboundChain factories root = made at h
  generalize buildWorkflowInboundChain factories' root' = made' at h
  cases h with
  | error e => exact .error e
  | ok h =>
    refine .ok ⟨h, ?_⟩
    exact (h.init _ _ (none, w) (none, w') (rootWorkflowOutbound_related H W)
      ⟨.none, hw⟩).2.2.1

end Relations

namespace TracingInterceptor

variable {ν τ κ ω α β : Type} {x : TracingInterceptor τ κ ω} {H : Header → Header → Prop}
  {W : ω → ω → Prop}

/-- What the tracer writes into a header or a cell does not show. -/
structure Hides (x : TracingInterceptor τ κ ω) (H : Header → Header → Prop) (W : ω → ω → Prop) :
    Prop where
  header : ∀ span t header header', H header header' →
    H (x.writeToHeader (x.tracer.inject span t) header) header'
  tracer : ∀ t w w', W w w' → W (x.cells.setTracer t w) w'
  current : ∀ slot context w w', W w w' → W (x.cells.setCurrent slot context w) w'

theorem calling_related (hx : x.Hides H W) {opts : α → ω → StartSpanOptions}
    {next next' : Method ω (α × Header) β}
    (h : Method.Related (SameButHeader H) W next next') :
    Method.Related (SameButHeader H) W (x.calling opts next) next' := by
  intro a a' w w' ha hw
  let started := x.startAndInject (opts a.1 w) a.2 w
  have hargs : SameButHeader H (a.1, started.2.1) a' := ⟨ha.1, hx.header _ _ _ _ ha.2⟩
  obtain ⟨hleft, hout, hworld⟩ :=
    h (a.1, started.2.1) a' started.2.2 w' hargs (hx.tracer _ w w' hw)
  unfold calling
  dsimp only
  split
  · exact ⟨hleft, hout, hx.tracer _ _ _ hworld⟩
  · exact ⟨hleft, hout, hworld⟩

theorem running_related (hx : x.Hides H W) {opts : α → ω → StartSpanOptions}
    {next next' : Method ω (α × Header) β}
    (h : Method.Related (SameButHeader H) W next next') :
    Method.Related (SameButHeader H) W (x.running opts next) next' := by
  intro a a' w w' ha hw
  let started := x.startSpan { opts a.1 w with parent := x.extractParent a.2 w } w
  obtain ⟨hleft, hout, hworld⟩ := h a a' started.2 w' ha (hx.tracer _ w w' hw)
  exact ⟨hleft, hout, hx.tracer _ _ _ hworld⟩

variable {getInfo : ω → WorkflowInfo} {slot : Nat}

theorem workflowOutbound_related (hx : x.Hides H W) {next next' : WorkflowOutbound ω}
    (h : next.Related H W next') :
    (x.workflowOutbound getInfo slot next).Related H W next' where
  executeActivity := calling_related hx h.executeActivity
  executeChildWorkflow := calling_related hx h.executeChildWorkflow
  signalExternalWorkflow := calling_related hx h.signalExternalWorkflow
  cancelExternalWorkflow := h.cancelExternalWorkflow
  upsertSearchAttributes := h.upsertSearchAttributes

theorem executeWorkflow_related (hx : x.Hides H W)
    {next next' : Method ω (ExecuteWorkflowInput × Header) Payloads}
    (h : Method.Related (SameButHeader H) W next next') :
    Method.Related (SameButHeader H) W (x.executeWorkflow getInfo slot next) next' := by
  intro a a' w w' ha hw
  let started := x.startSpan (x.runWorkflowOptions getInfo a.2 w) w
  let entered := x.cells.setCurrent slot (some started.1.context) started.2
  obtain ⟨hleft, hout, hworld⟩ :=
    h a a' entered w' ha (hx.current _ _ _ _ (hx.tracer _ w w' hw))
  exact ⟨hleft, hout, hx.tracer _ _ _ (hx.current _ _ _ _ hworld)⟩

/-- A wrapper hands down a wrapped outbound interceptor, which is related to the plain one. -/
theorem workflowInbound_related (hx : x.Hides H W) {next next' : WorkflowInbound ω}
    (h : next.Related H W next') :
    (x.workflowInbound getInfo slot next).Related H W next' where
  init := by
    intro o o' s s' ho hs
    exact h.init _ o' s s' (workflowOutbound_related hx ho) hs
  executeWorkflow := executeWorkflow_related hx h.executeWorkflow
  handleSignal := running_related hx h.handleSignal
  handleQuery := running_related hx h.handleQuery

theorem activityInbound_related (hx : x.Hides H W) {next next' : ExecuteActivity ω}
    (h : ExecuteActivity.Related H W next next') :
    ExecuteActivity.Related H W (x.activityInbound next) next' := by
  intro ctx args header header' w w' hheader hw
  obtain ⟨hout, hctx, hworld⟩ := h ctx args header header' _ w' hheader (hx.tracer _ w w' hw)
  exact ⟨hout, hctx, hx.tracer _ _ _ hworld⟩

theorem clientOutbound_related (hx : x.Hides H W) {next next' : ClientOutbound ω}
    (h : next.Related H W next') : (x.clientOutbound next).Related H W next' where
  startWorkflow := calling_related hx h.startWorkflow
  signalWorkflow := calling_related hx h.signalWorkflow
  queryWorkflow := calling_related hx h.queryWorkflow

section Chains

variable {name : ν} {front back : List (LinkFactory ν ω)}

theorem workflowInbound_transparent (hx : x.Hides H W)
    (hothers : ∀ f ∈ front ++ back, f.Respects H W) {root root' : WorkflowInbound ω}
    (hroot : root.Related H W root') :
    Chain.Agree (WorkflowInbound.Related H W)
      (buildWorkflowInboundChain (front ++ x.factory getInfo slot name :: back) root)
      (buildWorkflowInboundChain (front ++ back) root') := by
  apply Chain.build_insert (fun f hf => (hothers f hf).workflow) _ hroot
  intro next next' hnext
  exact ⟨_, rfl, workflowInbound_related hx hnext⟩

theorem activityInbound_transparent (hx : x.Hides H W)
    (hothers : ∀ f ∈ front ++ back, f.Respects H W) {root root' : ExecuteActivity ω}
    (hroot : ExecuteActivity.Related H W root root') :
    Chain.Agree (ExecuteActivity.Related H W)
      (buildActivityInboundChain ((front ++ x.factory getInfo slot name :: back).map
        LinkFactory.interceptActivity) root)
      (buildActivityInboundChain ((front ++ back).map LinkFactory.interceptActivity) root') := by
  rw [buildActivityInboundChain_eq_build, buildActivityInboundChain_eq_build]
  apply Chain.build_insert (fun f hf => (hothers f hf).activity) _ hroot
  intro next next' hnext
  exact ⟨_, rfl, activityInbound_related hx hnext⟩

theorem clientOutbound_transparent (hx : x.Hides H W)
    (hothers : ∀ f ∈ front ++ back, f.Respects H W) {root root' : ClientOutbound ω}
    (hroot : root.Related H W root') :
    Chain.Agree (ClientOutbound.Related H W)
      (buildClientOutboundChain (front ++ x.factory getInfo slot name :: back) root)
      (buildClientOutboundChain (front ++ back) root') := by
  apply Chain.build_insert (fun f hf => (hothers f hf).client) _ hroot
  intro next next' hnext
  exact ⟨_, rfl, clientOutbound_related hx hnext⟩

end Chains

end TracingInterceptor

/-- The entries of the other keys are the same. -/
def SameBut (key : String) (header header' : Header) : Prop :=
  ∀ k, k ≠ key → find? header k = find? header' k

theorem SameBut.assign {key : String} {header header' : Header} (h : SameBut key header header')
    (k : String) (p : Payload) :
    SameBut key (OrderedMap.assign header k p) (OrderedMap.assign header' k p) := by
  intro j hj
  by_cases hjk : j = k
  · rw [hjk, find?_assign_self, find?_assign_self]
  · rw [find?_assign_of_ne _ hjk, find?_assign_of_ne _ hjk]
    exact h j hj

namespace TracingInterceptor

variable {ν τ κ ω : Type} {x : TracingInterceptor τ κ ω} {W : ω → ω → Prop}

/-- The entry of a tracer is hidden from whoever looks at the others. -/
theorem hides_sameBut (htracer : ∀ t w w', W w w' → W (x.cells.setTracer t w) w')
    (hcurrent : ∀ slot context w w', W w w' → W (x.cells.setCurrent slot context w) w') :
    x.Hides (SameBut x.headerKey) W where
  header := by
    intro span t header header' h k hk
    unfold writeToHeader
    split
    · exact h k hk
    · rw [find?_assign_of_ne _ hk]
      exact h k hk
  tracer := htracer
  current := hcurrent

/-- A tracer that injects nothing leaves the headers as they are. -/
theorem hides_eq (hinject : ∀ span t, x.tracer.inject span t = [])
    (htracer : ∀ t w w', W w w' → W (x.cells.setTracer t w) w')
    (hcurrent : ∀ slot context w w', W w w' → W (x.cells.setCurrent slot context w) w') :
    x.Hides Eq W where
  header := by
    intro span t header header' h
    rw [hinject]
    exact h
  tracer := htracer
  current := hcurrent

/-- So does `NoopTracer`: who looks at every entry sees none of it. -/
theorem noopTracer_hides {x : TracingInterceptor Unit Unit ω} (hx : x.tracer = noopTracer)
    (htracer : ∀ t w w', W w w' → W (x.cells.setTracer t w) w')
    (hcurrent : ∀ slot context w w', W w w' → W (x.cells.setCurrent slot context w) w') :
    x.Hides Eq W := by
  apply hides_eq _ htracer hcurrent
  intro span t
  rw [hx]
  rfl

end TracingInterceptor

/-- The calls of the handler attempt the same responses, let the same through, and leave related
worlds. -/
structure Answered.Related {R ω : Type} (W : ω → ω → Prop) (a a' : Answered R ω) : Prop where
  attempts : a.attempts = a'.attempts
  escaped : a.escaped = a'.escaped
  world : W a.world a'.world

section Activities

namespace ActivityTaskHandler

variable {ν ω : Type} {h : ActivityTaskHandler ω} {H : Header → Header → Prop}
  {W : ω → ω → Prop} {task : ActivityTask}

/-- The handler of a worker with these interceptors. -/
def intercepted (h : ActivityTaskHandler ω) (factories : List (LinkFactory ν ω)) :
    ActivityTaskHandler ω :=
  { h with interceptors := factories.map LinkFactory.interceptActivity }

/-- Neither the registered functions nor the server tell related worlds apart. -/
structure Respects (h : ActivityTaskHandler ω) (W : ω → ω → Prop) : Prop where
  function : ∀ type fn, h.activities type = some fn → ∀ ctx args w w', W w w' →
    (fn ctx args w).outcome = (fn ctx args w').outcome ∧
      (fn ctx args w).context = (fn ctx args w').context ∧
        W (fn ctx args w).world (fn ctx args w').world
  stub : ∀ response w w', W w w' → (h.stub response w).1 = (h.stub response w').1 ∧
    W (h.stub response w).2 (h.stub response w').2

theorem Respects.send (hh : h.Respects W) (response : ActivityResponse) {w w' : ω}
    (hw : W w w') : (h.send response w).Related W (h.send response w') := by
  obtain ⟨hstatus, hleft⟩ := hh.stub response w w' hw
  constructor
  · rfl
  · unfold ActivityTaskHandler.send Answered.call
    rw [hstatus]
  · exact hleft

theorem Respects.complete (hh : h.Respects W) {run run' : Execution ω}
    (hout : run.outcome = run'.outcome) (hctx : run.context = run'.context)
    (hworld : W run.world run'.world) :
    (h.complete task run).Related W (h.complete task run') := by
  unfold ActivityTaskHandler.complete
  rw [hout, hctx]
  split
  · exact ⟨rfl, rfl, hworld⟩
  · split
    · exact ⟨rfl, rfl, hworld⟩
    · exact hh.send _ hworld

theorem Respects.report (hh : h.Respects W) (fallback : Failure) (e : Thrown) {w w' : ω}
    (hw : W w w') : (h.report task fallback e w).Related W (h.report task fallback e w') := by
  unfold ActivityTaskHandler.report
  split
  · exact ⟨rfl, rfl, hw⟩
  · exact hh.send _ hw

theorem Respects.fail (hh : h.Respects W) (e : Thrown) {w w' : ω} (hw : W w w') :
    (h.fail task e w).Related W (h.fail task e w') := by
  unfold ActivityTaskHandler.fail
  split
  · exact hh.report _ _ hw
  · exact hh.report _ _ hw
  · exact ⟨rfl, rfl, hw⟩

variable {factories factories' : List (LinkFactory ν ω)}

/-- The chains that the handler builds around a function agree. -/
def ChainsAgree (h : ActivityTaskHandler ω) (H : Header → Header → Prop) (W : ω → ω → Prop)
    (factories factories' : List (LinkFactory ν ω)) : Prop :=
  ∀ type fn, h.activities type = some fn → Chain.Agree (ExecuteActivity.Related H W)
    (buildActivityInboundChain (h.intercepted factories).interceptors (rootActivityInbound fn))
    (buildActivityInboundChain (h.intercepted factories').interceptors (rootActivityInbound fn))

theorem ChainsAgree.execute (hchains : h.ChainsAgree H W factories factories')
    (hH : ∀ header, H header header) {fn : RemoteActivityFn ω}
    (hfn : h.activities task.activityType = some fn) {w w' : ω} (hw : W w w') :
    ((h.intercepted factories).execute task fn w).outcome =
        ((h.intercepted factories').execute task fn w').outcome ∧
      ((h.intercepted factories).execute task fn w).context =
        ((h.intercepted factories').execute task fn w').context ∧
      W ((h.intercepted factories).execute task fn w).world
        ((h.intercepted factories').execute task fn w').world := by
  have hagree := hchains _ fn hfn
  unfold ActivityTaskHandler.execute
  generalize buildActivityInboundChain (h.intercepted factories).interceptors
    (rootActivityInbound fn) = made at hagree
  generalize buildActivityInboundChain (h.intercepted factories').interceptors
    (rootActivityInbound fn) = made' at hagree
  cases hagree with
  | error e => exact ⟨rfl, rfl, hw⟩
  | ok hheads => exact hheads _ _ _ _ w w' (hH _) hw

/-- Handlers whose chains agree answer a task alike. -/
theorem Respects.handle (hh : h.Respects W) (hH : ∀ header, H header header)
    (hchains : h.ChainsAgree H W factories factories') {w w' : ω} (hw : W w w') :
    ((h.intercepted factories).handle task w).Related W
      ((h.intercepted factories').handle task w') := by
  have hsame (fs : List (LinkFactory ν ω)) : (h.intercepted fs).activities = h.activities := rfl
  unfold ActivityTaskHandler.handle
  rw [hsame, hsame]
  cases hfn : h.activities task.activityType with
  | none => exact hh.send _ hw
  | some fn =>
    obtain ⟨hout, hctx, hworld⟩ := hchains.execute hH hfn hw
    have htried : ((h.intercepted factories).complete task
        ((h.intercepted factories).execute task fn w)).Related W
          ((h.intercepted factories').complete task
            ((h.intercepted factories').execute task fn w')) := hh.complete hout hctx hworld
    dsimp only
    rw [htried.escaped]
    split
    · exact htried
    · next e _ =>
      have hcaught : ((h.intercepted factories).fail task e _).Related W
        ((h.intercepted factories').fail task e _) := hh.fail e htried.world
      exact ⟨congrArg₂ _ htried.attempts hcaught.attempts, hcaught.escaped, hcaught.world⟩

end ActivityTaskHandler

end Activities

section Worker

variable {ν τ κ ω : Type} {x : TracingInterceptor τ κ ω} {H : Header → Header → Prop}
  {W : ω → ω → Prop} {getInfo : ω → WorkflowInfo} {slot : Nat} {name : ν}
  {front back : List (LinkFactory ν ω)}

theorem rootWorkflowInbound_related {base : WorkflowInbound ω}
    {fn : Payloads → ω → Except Thrown Payloads × ω} (hbase : base.Related H W base)
    (hfn : ∀ args w w', W w w' → (fn args w).1 = (fn args w').1 ∧ W (fn args w).2 (fn args w').2) :
    (rootWorkflowInbound base fn).Related H W (rootWorkflowInbound base fn) where
  init := fun _ _ _ _ ho hs => ⟨ho, rfl, .some ho, hs.2⟩
  executeWorkflow := by
    intro a a' w w' ha hw
    show SameButHeader H a a' ∧ (fn a.1.args w).1 = (fn a'.1.args w').1 ∧
      W (fn a.1.args w).2 (fn a'.1.args w').2
    rw [← ha.1]
    exact ⟨ha, hfn a.1.args w w' hw⟩
  handleSignal := hbase.handleSignal
  handleQuery := hbase.handleQuery

/-- A worker that traces is no different. The chain of a workflow, and the outbound interceptor that
its body is handed, do what they do without the tracing interceptor; and an activity task is
answered with the same responses. -/
theorem TracingInterceptor.worker_transparent (hx : x.Hides H W) (hH : ∀ header, H header header)
    (hothers : ∀ f ∈ front ++ back, f.Respects H W) {h : ActivityTaskHandler ω}
    (hh : h.Respects W) {w w' : ω} (hw : W w w') :
    (∀ base fn, base.Related H W base →
      (∀ args w w', W w w' → (fn args w).1 = (fn args w').1 ∧ W (fn args w).2 (fn args w').2) →
      Chain.Agree (fun wired wired' => WorkflowInbound.Related H W wired.1 wired'.1 ∧
          Option.Rel (WorkflowOutbound.Related H W) wired.2 wired'.2)
        (wireChains (front ++ x.factory getInfo slot name :: back) (rootWorkflowInbound base fn) w)
        (wireChains (front ++ back) (rootWorkflowInbound base fn) w')) ∧
    ∀ task, ((h.intercepted (front ++ x.factory getInfo slot name :: back)).handle task w).Related W
      ((h.intercepted (front ++ back)).handle task w') := by
  constructor
  · intro base fn hbase hfn
    apply wireChains_related _ hw
    exact workflowInbound_transparent hx hothers (rootWorkflowInbound_related hbase hfn)
  · intro task
    apply hh.handle hH _ hw
    intro type fn hfn
    apply activityInbound_transparent hx hothers
    exact fun ctx args _ _ w w' _ hw => hh.function type fn hfn ctx args w w' hw

/-- A link that refuses activities without a tenant. -/
def tenantOnly {ω : Type} (next : ExecuteActivity ω) : ExecuteActivity ω :=
  fun ctx args header w =>
    if (find? header "tenant").isSome then next ctx args header w
    else ⟨.error (.stdException "no tenant"), ctx, w⟩

/-- An interceptor that puts a tenant on what is started and refuses activities without one. -/
def tenancy {ω : Type} : LinkFactory String ω where
  name := "tenancy"
  interceptActivity next := .ok (some (tenantOnly next))
  interceptClient next := .ok (some { next with
    startWorkflow := fun args w => next.startWorkflow (args.1, assign args.2 "tenant" {}) w })

theorem tenancy_respects {ω : Type} {key : String} (hkey : "tenant" ≠ key)
    (W : ω → ω → Prop) : tenancy.Respects (SameBut key) W where
  workflow := fun _ _ hnext => .ok hnext
  activity := by
    intro next next' hnext
    refine .ok (?_ : ExecuteActivity.Related _ _ (tenantOnly next) (tenantOnly next'))
    intro ctx args header header' w w' hheader hw
    unfold tenantOnly
    rw [hheader "tenant" hkey]
    split
    · exact hnext ctx args header header' w w' hheader hw
    · exact ⟨rfl, rfl, hw⟩
  client := by
    intro next next' hnext
    refine .ok ⟨?_, hnext.signalWorkflow, hnext.queryWorkflow⟩
    intro a a' w w' ha hw
    exact hnext.startWorkflow _ _ w w' ⟨ha.1, ha.2.assign "tenant" {}⟩ hw

/-- A worker with an activity that gives its input back; the server keeps the responses. -/
def echoWorker : ActivityTaskHandler (Traced InMemoryTracer (List ActivityResponse)) where
  identity := "worker-1"
  taskQueue := "queue"
  activities type := if type = "Echo" then some fun ctx args w => ⟨.ok args, ctx, w⟩ else none
  interceptors := []
  failureConverter := none
  stub response w := (⟨.ok, ""⟩, { w with rest := w.rest ++ [response] })

/-- A task of a tenant, called under the first span of a trace. -/
def echoTask : ActivityTask where
  taskToken := "token"
  activityType := "Echo"
  headers := [(kDefaultTracerHeaderKey, { data := SpanContext.text [("span_id", "s1"),
    ("trace_id", "t1")] }), ("tenant", {})]
  input := [{ data := [1] }]

def echoWorld : Traced InMemoryTracer (List ActivityResponse) where
  tracer := {}
  rest := []

theorem echoWorker_respects : echoWorker.Respects fun w w' => w.rest = w'.rest where
  function := by
    intro type fn hfn ctx args w w' hw
    obtain ⟨-, hecho⟩ := Option.ite_none_right_eq_some.mp hfn
    cases hecho
    exact ⟨rfl, rfl, hw⟩
  stub := fun response _ _ hw => ⟨rfl, congrArg (· ++ [response]) hw⟩

/-- It knows the span the task was called under. -/
def echoTracing : TracingInterceptor InMemoryTracer Nat
    (Traced InMemoryTracer (List ActivityResponse)) :=
  .inMemory (.ofContexts [[("span_id", "s1"), ("trace_id", "t1")]]) kDefaultTracerHeaderKey
    Traced.cells

/-- Behind the guard, a tracer that puts a span of its own under the caller's. -/
theorem echo_transparent :
    ((echoWorker.intercepted [tenancy, echoTracing.factory (fun _ => {}) 0 "tracing"]).handle
      echoTask echoWorld).Related (fun w w' => w.rest = w'.rest)
        ((echoWorker.intercepted [tenancy]).handle echoTask echoWorld) := by
  have hx : echoTracing.Hides (SameBut kDefaultTracerHeaderKey) fun w w' => w.rest = w'.rest :=
    TracingInterceptor.hides_sameBut (fun _ _ _ hw => hw) (fun _ _ _ _ hw => hw)
  have hothers : ∀ f ∈ [tenancy] ++ [], f.Respects (SameBut kDefaultTracerHeaderKey)
      fun (w w' : Traced InMemoryTracer (List ActivityResponse)) => w.rest = w'.rest := by
    intro f hf
    obtain rfl := List.mem_singleton.mp hf
    exact tenancy_respects (by decide) _
  exact (TracingInterceptor.worker_transparent hx (fun _ _ _ => rfl) hothers echoWorker_respects
    rfl).2 echoTask

end Worker

section Client

variable {υ τ κ : Type} {H : Header → Header → Prop} {U : υ → υ → Prop}

/-- As many UUIDs drawn, the same starts asked for but for their headers, and related servers. -/
structure ClientWorld.Related (H : Header → Header → Prop) (U : υ → υ → Prop)
    (w w' : ClientWorld υ) : Prop where
  drawn : w.drawn = w'.drawn
  started : List.Forall₂ (SameButHeader H) w.started w'.started
  rest : U w.rest w'.rest

namespace WorkflowClient

variable {c : WorkflowClient υ}

/-- The client with these interceptors. -/
def intercepted (c : WorkflowClient υ) (factories : List (LinkFactory String (ClientWorld υ))) :
    WorkflowClient υ :=
  { c with interceptors := factories }

/-- The server does not tell related headers and worlds apart. -/
def Respects (c : WorkflowClient υ) (H : Header → Header → Prop) (U : υ → υ → Prop) : Prop :=
  ∀ (req : StartWorkflowExecutionRequest) header header' s s', H header header' → U s s' →
    (c.startWorkflowExecution { req with header := header } s).1 =
        (c.startWorkflowExecution { req with header := header' } s').1 ∧
      U (c.startWorkflowExecution { req with header := header } s).2
        (c.startWorkflowExecution { req with header := header' } s').2

theorem Respects.doStart (hc : c.Respects H U) (workflowId : String) :
    Method.Related (SameButHeader H) (ClientWorld.Related H U) (c.doStart workflowId)
      (c.doStart workflowId) := by
  intro a a' w w' ha hw
  obtain ⟨input, header⟩ := a
  obtain ⟨input', header'⟩ := a'
  obtain ⟨drawn, started, rest⟩ := w
  obtain ⟨drawn', started', rest'⟩ := w'
  obtain ⟨rfl, hheader⟩ : input = input' ∧ H header header' := ha
  obtain ⟨rfl, hstarted, hrest⟩ := hw
  have hserver := hc (c.startRequest workflowId (c.uuids drawn) input header) header header' rest
    rest' hheader hrest
  have hanswer : (c.startWorkflowExecution
      (c.startRequest workflowId (c.uuids drawn) input header) rest).1 =
        (c.startWorkflowExecution
          (c.startRequest workflowId (c.uuids drawn) input header') rest').1 := hserver.1
  refine ⟨⟨rfl, hheader⟩, ?_, rfl, List.rel_append hstarted (.cons ⟨rfl, hheader⟩ .nil),
    hserver.2⟩
  simp only [WorkflowClient.doStart, newUuid, hanswer]

/-- What a start makes of the head of the chain. -/
def startWith (options : StartWorkflowOptions) (type : String) (input : Payloads) (id : String)
    (w : ClientWorld υ) :
    Except Thrown (ClientOutbound (ClientWorld υ)) → Except Thrown HandleIds × ClientWorld υ
  | .error e => (.error e, w)
  | .ok head =>
    let call := head.startWorkflow (startArgs id options type input) w
    (call.outcome.map fun runId => ⟨id, runId⟩, call.world)

theorem intercepted_start {factories : List (LinkFactory String (ClientWorld υ))}
    {base : ClientOutbound (ClientWorld υ)} {options : StartWorkflowOptions} {type : String}
    {input : Payloads} {w : ClientWorld υ} :
    (c.intercepted factories).startWorkflowPayloads base options type input w =
      startWith options type input (c.workflowId options w).1 (c.workflowId options w).2
        (buildClientOutboundChain factories
          (c.rootClientOutbound base (c.workflowId options w).1)) := by
  unfold startWorkflowPayloads startWith
  rfl

theorem startWith_related {made made' : Except Thrown (ClientOutbound (ClientWorld υ))}
    (hmade : Chain.Agree (ClientOutbound.Related H (ClientWorld.Related H U)) made made')
    (hH : ∀ header, H header header) (options : StartWorkflowOptions) (type : String)
    (input : Payloads) (id : String) {w w' : ClientWorld υ} (hw : w.Related H U w') :
    (startWith options type input id w made).1 = (startWith options type input id w' made').1 ∧
      (startWith options type input id w made).2.Related H U
        (startWith options type input id w' made').2 := by
  cases hmade with
  | error e => exact ⟨rfl, hw⟩
  | @ok head head' hheads =>
    obtain ⟨-, hout, hleft⟩ := hheads.startWorkflow (startArgs id options type input)
      (startArgs id options type input) w w' ⟨rfl, hH _⟩ hw
    exact ⟨congrArg (Except.map _) hout, hleft⟩

theorem Respects.start (hc : c.Respects H U) (hH : ∀ header, H header header)
    {factories factories' : List (LinkFactory String (ClientWorld υ))}
    {base : ClientOutbound (ClientWorld υ)} (hbase : base.Related H (ClientWorld.Related H U) base)
    (hchains : ∀ root root', root.Related H (ClientWorld.Related H U) root' →
      Chain.Agree (ClientOutbound.Related H (ClientWorld.Related H U))
        (buildClientOutboundChain factories root) (buildClientOutboundChain factories' root'))
    (options : StartWorkflowOptions) (type : String) (input : Payloads) {w w' : ClientWorld υ}
    (hw : w.Related H U w') :
    ((c.intercepted factories).startWorkflowPayloads base options type input w).1 =
        ((c.intercepted factories').startWorkflowPayloads base options type input w').1 ∧
      ((c.intercepted factories).startWorkflowPayloads base options type input w).2.Related H U
        ((c.intercepted factories').startWorkflowPayloads base options type input w').2 := by
  obtain ⟨hid, hdrawn⟩ : (c.workflowId options w).1 = (c.workflowId options w').1 ∧
      (c.workflowId options w).2.Related H U (c.workflowId options w').2 := by
    unfold workflowId newUuid
    rw [hw.drawn]
    split
    · exact ⟨rfl, rfl, hw.started, hw.rest⟩
    · exact ⟨rfl, hw⟩
  have hroot : (c.rootClientOutbound base (c.workflowId options w).1).Related H
      (ClientWorld.Related H U) (c.rootClientOutbound base (c.workflowId options w').1) := by
    rw [hid]
    exact ⟨hc.doStart _, hbase.signalWorkflow, hbase.queryWorkflow⟩
  have hstarted := startWith_related (hchains _ _ hroot) hH options type input
    (c.workflowId options w).1 hdrawn
  rw [intercepted_start, intercepted_start, ← hid]
  rw [← hid] at hstarted
  exact hstarted

end WorkflowClient

/-- A client that traces is no different. A start returns the same handle or throws the same, and
the server was asked for the same, but for what is hidden in the headers. -/
theorem TracingInterceptor.client_transparent {x : TracingInterceptor τ κ (ClientWorld υ)}
    (hx : x.Hides H (ClientWorld.Related H U)) (hH : ∀ header, H header header)
    {getInfo : ClientWorld υ → WorkflowInfo} {slot : Nat} {name : String}
    {front back : List (LinkFactory String (ClientWorld υ))}
    (hothers : ∀ f ∈ front ++ back, f.Respects H (ClientWorld.Related H U)) {c : WorkflowClient υ}
    (hc : c.Respects H U) {base : ClientOutbound (ClientWorld υ)}
    (hbase : base.Related H (ClientWorld.Related H U) base) (options : StartWorkflowOptions)
    (type : String) (input : Payloads) {w w' : ClientWorld υ} (hw : w.Related H U w') :
    ((c.intercepted (front ++ x.factory getInfo slot name :: back)).startWorkflowPayloads base
        options type input w).1 =
      ((c.intercepted (front ++ back)).startWorkflowPayloads base options type input w').1 ∧
    ((c.intercepted (front ++ x.factory getInfo slot name :: back)).startWorkflowPayloads base
        options type input w).2.Related H U
      ((c.intercepted (front ++ back)).startWorkflowPayloads base options type input w').2 := by
  apply hc.start hH hbase _ options type input hw
  intro root root' hroot
  exact clientOutbound_transparent hx hothers hroot

/-- The tracer of a client is with its server. -/
def ClientWorld.cells (m : TracingCells τ υ) : TracingCells τ (ClientWorld υ) where
  tracer w := m.tracer w.rest
  setTracer tracer w := { w with rest := m.setTracer tracer w.rest }
  current slot w := m.current slot w.rest
  setCurrent slot context w := { w with rest := m.setCurrent slot context w.rest }

/-- The requests ask for the same, but for headers that differ in an entry of this key. -/
def AskSame (key : String) (req req' : StartWorkflowExecutionRequest) : Prop :=
  { req with header := [] } = { req' with header := [] } ∧ SameBut key req.header req'.header

/-- A client whose server accepts everything and keeps the requests. -/
def echoClient : WorkflowClient (Traced InMemoryTracer (List StartWorkflowExecutionRequest)) where
  ns := "default"
  identity := "client-1"
  interceptors := []
  uuids n := toString n
  startWorkflowExecution req w := ((⟨.ok, ""⟩, "run-1"), { w with rest := w.rest ++ [req] })
  signalWithStartWorkflowExecution _ w := ((⟨.ok, ""⟩, "run-1"), w)

/-- The rest of a client's chain, which nothing here calls. -/
def silentBase {ω : Type} : ClientOutbound ω where
  startWorkflow args w := ⟨args, .ok "", w⟩
  signalWorkflow args w := ⟨args, .ok (), w⟩
  queryWorkflow args w := ⟨args, .ok [], w⟩

def echoClientWorld : ClientWorld (Traced InMemoryTracer (List StartWorkflowExecutionRequest)) where
  rest := { tracer := {}, rest := [] }

def echoClientTracing : TracingInterceptor InMemoryTracer Nat
    (ClientWorld (Traced InMemoryTracer (List StartWorkflowExecutionRequest))) :=
  .inMemory (HeaderJson.ofContexts []) kDefaultTracerHeaderKey (ClientWorld.cells Traced.cells)

/-- The handle and what the server keeps, with a tracer and a tenant or with a tenant only. -/
def AskedAlike {ε : Type} (traced plain : Except ε HandleIds ×
    ClientWorld (Traced InMemoryTracer (List StartWorkflowExecutionRequest))) : Prop :=
  traced.1 = plain.1 ∧
    List.Forall₂ (AskSame kDefaultTracerHeaderKey) traced.2.rest.rest plain.2.rest.rest

/-- Started by a client that traces and stamps a tenant. -/
theorem echo_started_transparent :
    AskedAlike
      ((echoClient.intercepted [tenancy, echoClientTracing.factory (fun _ => {}) 0 "tracing"])
        |>.startWorkflowPayloads silentBase {} "Echo" [] echoClientWorld)
      ((echoClient.intercepted [tenancy]).startWorkflowPayloads silentBase {} "Echo" []
        echoClientWorld) := by
  let U (w w' : Traced InMemoryTracer (List StartWorkflowExecutionRequest)) : Prop :=
    List.Forall₂ (AskSame kDefaultTracerHeaderKey) w.rest w'.rest
  have hx : echoClientTracing.Hides (SameBut kDefaultTracerHeaderKey) (ClientWorld.Related
      (SameBut kDefaultTracerHeaderKey) U) :=
    TracingInterceptor.hides_sameBut (fun _ _ _ hw => ⟨hw.drawn, hw.started, hw.rest⟩)
      (fun _ _ _ _ hw => ⟨hw.drawn, hw.started, hw.rest⟩)
  have hothers : ∀ f ∈ [tenancy] ++ [], f.Respects (SameBut kDefaultTracerHeaderKey)
      (ClientWorld.Related (SameBut kDefaultTracerHeaderKey) U) := by
    intro f hf
    obtain rfl := List.mem_singleton.mp hf
    exact tenancy_respects (by decide) _
  have hc : echoClient.Respects (SameBut kDefaultTracerHeaderKey) U := by
    intro req header header' s s' hheader hs
    exact ⟨rfl, List.rel_append hs (.cons ⟨rfl, hheader⟩ .nil)⟩
  have hbase : silentBase.Related (SameBut kDefaultTracerHeaderKey) (ClientWorld.Related
      (SameBut kDefaultTracerHeaderKey) U) silentBase :=
    ⟨fun _ _ _ _ ha hw => ⟨ha, rfl, hw⟩, fun _ _ _ _ ha hw => ⟨ha, rfl, hw⟩,
      fun _ _ _ _ ha hw => ⟨ha, rfl, hw⟩⟩
  have hw : echoClientWorld.Related (SameBut kDefaultTracerHeaderKey) U echoClientWorld :=
    ⟨rfl, .nil, List.Forall₂.nil⟩
  obtain ⟨hids, hworld⟩ := TracingInterceptor.client_transparent hx (fun _ _ _ => rfl) hothers hc
    hbase {} "Echo" [] hw
  exact ⟨hids, hworld.rest⟩

end Client

end TemporalSdk
