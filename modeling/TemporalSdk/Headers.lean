import TemporalSdk.Emitted

/-! Context headers. They travel with the start event into every runner of a workflow, and from
there into the activities it starts; a child workflow gets none. -/
namespace TemporalSdk

variable {σ : Type}

/-- The header a command gives to what it starts; `EmitStartChildWorkflow` sets none. -/
def Command.header : Command → Header
  | .scheduleActivityTask a => a.header
  | _ => []

/-- The outbound chain, whose last interceptor runs first, never takes this entry away. -/
def KeptBy (entry : String × Payload) (type : String) (options : ActivityOptions)
    (input : Payloads) (header : Header) : List (Interceptor σ) → Prop
  | [] => True
  | i :: is =>
    let inner := is.foldr (fun i h => i.executeActivity type options input h) header
    KeptBy entry type options input header is ∧
      (entry ∈ inner → entry ∈ i.executeActivity type options input inner)

theorem KeptBy.mem {entry : String × Payload} {type : String} {options : ActivityOptions}
    {input : Payloads} {header : Header} {is : List (Interceptor σ)}
    (h : KeptBy entry type options input header is) (hmem : entry ∈ header) :
    entry ∈ is.foldr (fun i h => i.executeActivity type options input h) header := by
  induction is with
  | nil => exact hmem
  | cons i is ih => exact h.2 (ih h.1)

namespace Runner

/-- An operation whose schedule event is on record adds nothing. -/
theorem openOperation_commands (r : Runner σ) (op : FutureOp) (id : String)
    (outcome : Option OpOutcome) (c : Command) :
    (r.openOperation op id outcome c).commands =
      r.commands ++ if (outcome.filter (·.scheduled)).isSome then [] else [c] := by
  unfold openOperation
  cases outcome.filter (·.scheduled) with
  | none => rfl
  | some o => exact (List.append_nil _).symm

theorem emitted_scheduleActivity (r : Runner σ) (type : String) (input : Payloads)
    (options : ActivityOptions) :
    r.emitted (.scheduleActivity type input options) =
      if ((r.scan.activities (toString r.activitySeq)).filter (·.scheduled)).isSome then []
      else [r.scheduleActivityCommand (toString r.activitySeq) type input options] :=
  emitted_of_commands rfl (openOperation_commands _ _ _ _ _)

/-- The child's schedule event is on record. -/
def recordsChild (r : Runner σ) (options : ChildWorkflowOptions) : Bool :=
  ((r.scan.children (r.childId options)).filter (·.scheduled)).isSome

theorem emitted_startChildWorkflow (r : Runner σ) (type : String) (input : Payloads)
    (options : ChildWorkflowOptions) :
    r.emitted (.startChildWorkflow type input options) =
      if r.recordsChild options then []
      else [.startChildWorkflowExecution r.info.ns (r.childId options) type
        (r.queueOr options.taskQueue) input options.parentClosePolicy] :=
  emitted_of_commands rfl (openOperation_commands _ _ _ _ _)

/-- No outbound interceptor takes this entry away from what the operation starts. No interceptor
is asked about a child. -/
def Keeps (r : Runner σ) (entry : String × Payload) : Op σ → Prop
  | .scheduleActivity type input options =>
    KeptBy entry type options input r.info.headers r.world.interceptors
  | _ => True

/-- What the operation starts gets every entry of `H` that no interceptor takes away, and an
activity it runs inline gets `H`: the activity would do the same if it were given `H` anew. -/
structure PassesOn (H : Header) (r : Runner σ) (op : Op σ) : Prop where
  commands : ∀ c ∈ r.emitted op, c.call = .activity ∨ c.call = .child →
    ∀ entry ∈ H, r.Keeps entry op → entry ∈ c.header
  inlined : ∀ type input options, op = .executeLocalActivity type input options →
    ∀ fn ordinal, runLocalActivity r.info fn ordinal type input options =
      runLocalActivity r.info (fun n info => fn n { info with headers := H }) ordinal type input
        options

/-- The operation starts no child, or one that is on record already. -/
def StartsNoChild (r : Runner σ) (op : Op σ) : Prop :=
  ∀ type input options, op = .startChildWorkflow type input options → r.recordsChild options = true

/-- An activity's command carries what the interceptors leave of the workflow's headers. -/
theorem scheduleActivity_carries (r : Runner σ) {type : String} {input : Payloads}
    {options : ActivityOptions} {c : Command}
    (hc : c ∈ r.emitted (.scheduleActivity type input options)) {entry : String × Payload}
    (hmem : entry ∈ r.info.headers) (hkept : r.Keeps entry (.scheduleActivity type input options)) :
    entry ∈ c.header := by
  rw [emitted_scheduleActivity] at hc
  split at hc
  · cases hc
  · rw [List.mem_singleton.mp hc]
    exact KeptBy.mem hkept hmem

/-- Of all operations only one that starts a child does not pass the headers on. -/
theorem passesOn_iff {H : Header} {r : Runner σ} (hH : r.info.headers = H) (op : Op σ) :
    r.PassesOn H op ↔ H = [] ∨ r.StartsNoChild op := by
  subst hH
  have hinlined : ∀ type input options, op = .executeLocalActivity type input options →
      ∀ fn ordinal, runLocalActivity r.info fn ordinal type input options =
        runLocalActivity r.info (fun n info => fn n { info with headers := r.info.headers }) ordinal
          type input options := fun _ _ _ _ _ _ => rfl
  constructor
  · intro h
    rcases hheaders : r.info.headers with _ | ⟨entry, rest⟩
    · exact .inl rfl
    · right
      rintro type input options rfl
      by_contra hrec
      have hemit := r.emitted_startChildWorkflow type input options
      rw [if_neg hrec] at hemit
      have hentry := h.commands _ (hemit ▸ List.mem_singleton_self _) (.inr rfl) entry
        (hheaders ▸ List.mem_cons_self) trivial
      cases hentry
  · intro h
    refine ⟨?_, hinlined⟩
    intro c hc hstarts entry hmem hkept
    have hcall := call_of_emitted hc
    cases op with
    | scheduleActivity type input options => exact r.scheduleActivity_carries hc hmem hkept
    | startChildWorkflow type input options =>
      rcases h with hnil | hrec
      · rw [hnil] at hmem
        cases hmem
      · rw [emitted_startChildWorkflow, if_pos (hrec type input options rfl)] at hc
        cases hc
    | _ =>
      rcases hstarts with hstarts | hstarts <;> rw [hstarts] at hcall <;> cases hcall

section Info

variable {fuel : Nat}

theorem applyEvents_info (r : Runner σ) (evs : History) : (r.applyEvents evs).info = r.info := by
  obtain ⟨scan, futures, he⟩ := r.applyEvents_touches evs
  rw [he]

theorem applyAndResume_info (fuel : Nat) (r : Runner σ) (evs : History) :
    (r.applyAndResume fuel evs).info = r.info := by
  have happlied := applyEvents_info { r with commands := [], producedCommands := [] } evs
  unfold applyAndResume
  dsimp only
  split
  · exact (Grows.resumeCoroutine fuel _).info.trans happlied
  · exact happlied

theorem continueAsks_info {r : Runner σ} {evs : History} {x : Runner σ × Op σ}
    (hx : x ∈ r.continueAsks fuel evs) : x.1.info = r.info := by
  unfold continueAsks at hx
  dsimp only at hx
  split at hx
  · exact (bodyAsks_info hx).trans (applyEvents_info _ _)
  · cases hx

theorem invoke_info (fuel : Nat) (r : Runner σ) (p : Program σ) :
    (r.invoke fuel p).1.info = r.info := by
  unfold invoke
  split
  · rfl
  · next hrun => exact (runHandler_frame hrun).info

theorem callOf_info {r : Runner σ} {handler : Option (Handler σ)} {args : Payloads}
    {c : Runner σ × Program σ} (hc : c ∈ r.callOf handler args) : c.1.info = r.info := by
  obtain ⟨p, -, rfl⟩ := mem_callOf.mp hc
  rfl

/-- Callbacks leave the identity of the run alone. -/
theorem invoke_infoIs (fuel : Nat) (info : WorkflowInfo) (r : Runner σ) (p : Program σ)
    (hr : r.info = info) : (r.invoke fuel p).1.info = info :=
  (invoke_info fuel r p).trans hr

theorem messageCalls_info {r : Runner σ} {msg : TaskMessage} {c : Runner σ × Program σ}
    (hc : c ∈ r.messageCalls fuel msg) : c.1.info = r.info := by
  unfold messageCalls at hc
  split at hc
  · cases hc
  · next u _ =>
    rcases List.mem_append.mp hc with hc | hc
    · exact callOf_info hc
    · have hvalidate := validateUpdate_keeps (invoke_infoIs fuel r.info) rfl u
      split at hc
      · next hv =>
        rw [hv] at hvalidate
        exact (callOf_info hc).trans hvalidate
      · cases hc

theorem messagesCalls_info {identity : String} {msgs : List TaskMessage} {r : Runner σ}
    {c : Runner σ × Program σ} (hc : c ∈ r.messagesCalls fuel identity msgs) :
    c.1.info = r.info := by
  induction msgs generalizing r with
  | nil => cases hc
  | cons msg msgs ih =>
    rcases List.mem_append.mp hc with hc | hc
    · exact messageCalls_info hc
    · have hmessage :=
        processMessage_keeps (invoke_infoIs fuel r.info) rfl identity msg
      split at hc
      · next hm =>
        rw [hm] at hmessage
        exact (ih hc).trans hmessage
      · cases hc

theorem queryCalls_info {r : Runner σ} {q : WorkflowQuery} {c : Runner σ × Program σ}
    (hc : c ∈ r.queryCalls q) : c.1.info = r.info := by
  unfold queryCalls at hc
  split at hc
  · cases hc
  · exact callOf_info hc

theorem queriesCalls_info {qs : List (String × WorkflowQuery)} {r : Runner σ}
    {c : Runner σ × Program σ} (hc : c ∈ r.queriesCalls fuel qs) : c.1.info = r.info := by
  induction qs generalizing r with
  | nil => cases hc
  | cons q qs ih =>
    rcases List.mem_append.mp hc with hc | hc
    · exact queryCalls_info hc
    · have hanswer := answerQuery_keeps (invoke_infoIs fuel r.info) rfl q.2
      split at hc
      · next ha =>
        rw [ha] at hanswer
        exact (ih hc).trans hanswer
      · cases hc

theorem replayCalls_info {r : Runner σ} {c : Runner σ × Program σ} (hc : c ∈ r.replayCalls fuel) :
    c.1.info = r.info := by
  have htimeline : ∀ (steps : List ReplayStep) (q : Runner σ), c ∈ timelineCalls fuel q steps →
      c.1.info = q.info := by
    intro steps
    induction steps with
    | nil => exact fun q hq => absurd hq List.not_mem_nil
    | cons s steps ih =>
      intro q hq
      rcases List.mem_append.mp hq with hq | hq
      · unfold stepCalls at hq
        split at hq
        · cases hq
        · split at hq
          · exact callOf_info hq
          · cases hq
      · exact (ih _ hq).trans (Grows.reapplyStep fuel q s).info
  exact (htimeline _ _ hc).trans (Grows.resumeCoroutine fuel _).info

end Info
end Runner

/-- The history of a workflow that was started with these headers. -/
def StartedWith (H : Header) (events : History) : Prop :=
  ∃ eventId type input rest, events = ⟨eventId, .workflowExecutionStarted type input H⟩ :: rest ∧
    ∀ e ∈ rest, e.attributes.isStarted = false

theorem scanHistory_headers {H : Header} {events : History} (h : StartedWith H events) :
    (scanHistory events).headers = H := by
  obtain ⟨eventId, type, input, rest, rfl, hrest⟩ := h
  have hkept : ∀ (evs : History) (s : Prescan × Bool), (∀ e ∈ evs, e.attributes.isStarted = false) →
      (evs.foldl scanStep s).1.headers = s.1.headers := by
    intro evs
    induction evs with
    | nil => exact fun _ _ => rfl
    | cons e evs ih =>
      intro s hevs
      obtain ⟨he, hevs⟩ := List.forall_mem_cons.mp hevs
      rw [List.foldl_cons, ih _ hevs, scanStep]
      split
      · rfl
      · exact (Prescan.scanEvent_input _ he).2
  exact hkept rest _ hrest

namespace TaskHandler

variable (h : TaskHandler σ) (headersOf : String → Header) (remote : Remote) (s : HandlerState σ)
  (task : WorkflowTask)

/-- The histories that reach the worker for a task are of a workflow started with the headers of
the task's run. -/
structure ServesHeaders : Prop where
  polled : ∀ events, assembleHistory remote.stub h.ns task.workflowId task.runId remote.pageFuel
    task.page = some (.ok events) → isFullHistory events = true →
    StartedWith (headersOf task.runId) events
  fetched : ∀ full, queryHistory remote.stub h.ns task.workflowId task.runId remote.pageFuel =
    some (.ok full) → StartedWith (headersOf task.runId) full

/-- The operations that a call of `Handle` carries out, each with its runner: those of the body and
of the callbacks. -/
inductive Asked : Runner σ × Op σ → Prop
  | replayed {fn : WorkflowFn σ} {events : History} {x : Runner σ × Op σ}
      (hfn : h.workflows task.workflowType = some fn)
      (hpage : assembleHistory remote.stub h.ns task.workflowId task.runId remote.pageFuel
        task.page = some (.ok events))
      (hquery : task.query = none) (hfull : isFullHistory events = true)
      (hx : x ∈ (Runner.replay (h.info task) (0 < task.previousStartedEventId) h.world fn
        events).runAsks h.fuel) : Asked x
  | continued {fn : WorkflowFn σ} {events : History} {addr : Nat} {r : Runner σ}
      {x : Runner σ × Op σ} (hfn : h.workflows task.workflowType = some fn)
      (hpage : assembleHistory remote.stub h.ns task.workflowId task.runId remote.pageFuel
        task.page = some (.ok events))
      (hquery : task.query = none) (hpart : isFullHistory events = false)
      (hfit : Fits s task events addr r) (hx : x ∈ r.continueAsks h.fuel events) : Asked x
  | rebuilt {fn : WorkflowFn σ} {full : History} {x : Runner σ × Op σ}
      (hfn : h.workflows task.workflowType = some fn) (hquery : task.query.isSome = true)
      (hfetch : queryHistory remote.stub h.ns task.workflowId task.runId remote.pageFuel =
        some (.ok full))
      (hx : x ∈ (Runner.replay (h.info task) true h.queryWorld fn full).runAsks h.fuel) : Asked x
  | callback {c x : _} (hc : h.Invokes remote s task c)
      (hx : x ∈ Runner.handlerAsks c.2 h.fuel c.1 []) : Asked x

/-- Everything a call of `Handle` starts gets the headers of the workflow. -/
def PassesHeaders : Prop :=
  ∀ x, h.Asked remote s task x → x.1.PassesOn (headersOf task.runId) x.2

/-- A workflow with headers starts no child. -/
def ChildlessIfHeaded : Prop :=
  ∀ x, h.Asked remote s task x → headersOf task.runId = [] ∨ x.1.StartsNoChild x.2

variable {h headersOf remote s task}

theorem replay_headers {info : WorkflowInfo} {isReplaying : Bool} {world : World σ}
    {fn : WorkflowFn σ} {events : History} {H : Header} (hstart : StartedWith H events) :
    (Runner.replay info isReplaying world fn events).info.headers = H :=
  scanHistory_headers hstart

theorem run_headers {info : WorkflowInfo} {isReplaying : Bool} {world : World σ}
    {fn : WorkflowFn σ} {events : History} {H : Header} (hstart : StartedWith H events)
    (fuel : Nat) :
    ((Runner.replay info isReplaying world fn events).run fuel).info.headers = H :=
  (congrArg WorkflowInfo.headers (Runner.Grows.run fuel _).info).trans
    (scanHistory_headers hstart)

/-- The headers of every runner that gets to a callback. -/
theorem Progresses.headers {r : Runner σ}
    (hs : s.Cached fun runId q => q.info.headers = headersOf runId)
    (hserves : h.ServesHeaders headersOf remote task) (hr : h.Progresses remote s task r) :
    r.info.headers = headersOf task.runId := by
  cases hr with
  | replayed _ hpage _ hfull => exact run_headers (hserves.polled _ hpage hfull) h.fuel
  | continued _ _ _ _ hfit =>
    obtain ⟨q, hq, hheaders⟩ := hs.holds _ _ hfit.1
    obtain rfl : _ = q := Option.some.inj (hfit.2.1.symm.trans hq)
    rw [Runner.applyAndResume_info]
    exact hheaders

theorem AskedOn.headers {fn : WorkflowFn σ} {events : History} {r : Runner σ}
    (hs : s.Cached fun runId q => q.info.headers = headersOf runId)
    (hserves : h.ServesHeaders headersOf remote task) (hr : h.AskedOn remote s task fn events r) :
    r.info.headers = headersOf task.runId := by
  cases hr with
  | cached hcached =>
    unfold cachedFor at hcached
    split at hcached
    · cases hcached
    · obtain ⟨addr, haddr, hrunner⟩ := Option.bind_eq_some_iff.mp hcached
      obtain ⟨q, hq, hheaders⟩ := hs.holds _ _ (Option.filter_eq_some_iff.mp haddr).1
      obtain rfl : r = q := Option.some.inj (hrunner.symm.trans hq)
      exact hheaders
  | rebuilt _ hrebuilt =>
    unfold buildRunnerForQuery at hrebuilt
    split at hrebuilt
    · cases hrebuilt
    · cases hrebuilt
    · next full hfetch =>
      dsimp only at hrebuilt
      split_ifs at hrebuilt
      obtain rfl := Option.some.inj (Except.ok.inj hrebuilt)
      exact run_headers (hserves.fetched full hfetch) h.fuel

theorem Invokes.headers {c : Runner σ × Program σ}
    (hs : s.Cached fun runId q => q.info.headers = headersOf runId)
    (hserves : h.ServesHeaders headersOf remote task) (hc : h.Invokes remote s task c) :
    c.1.info.headers = headersOf task.runId := by
  cases hc with
  | replay _ hpage _ hfull hc =>
    rw [Runner.replayCalls_info hc]
    exact replay_headers (hserves.polled _ hpage hfull)
  | rebuild _ _ _ _ hfetch hc =>
    rw [Runner.replayCalls_info hc]
    exact replay_headers (hserves.fetched _ hfetch)
  | directQuery _ _ _ hr hc =>
    rw [Runner.queryCalls_info hc]
    exact hr.headers hs hserves
  | message hr hc =>
    rw [Runner.messagesCalls_info hc]
    exact hr.headers hs hserves
  | query hr hm hc =>
    rename_i r _ _
    have hmessages := Runner.processMessages_keeps
      (Runner.invoke_infoIs h.fuel r.info) rfl h.identity task.messages
    rw [hm] at hmessages
    rw [Runner.queriesCalls_info hc, hmessages]
    exact hr.headers hs hserves

/-- Every operation is carried out on a runner with the headers of the run. -/
theorem Asked.headers {x : Runner σ × Op σ}
    (hs : s.Cached fun runId q => q.info.headers = headersOf runId)
    (hserves : h.ServesHeaders headersOf remote task) (hx : h.Asked remote s task x) :
    x.1.info.headers = headersOf task.runId := by
  cases hx with
  | replayed _ hpage _ hfull hx =>
    rw [Runner.runAsks_info hx]
    exact replay_headers (hserves.polled _ hpage hfull)
  | continued _ _ _ _ hfit hx =>
    obtain ⟨q, hq, hheaders⟩ := hs.holds _ _ hfit.1
    obtain rfl : _ = q := Option.some.inj (hfit.2.1.symm.trans hq)
    rw [Runner.continueAsks_info hx]
    exact hheaders
  | rebuilt _ _ hfetch hx =>
    rw [Runner.runAsks_info hx]
    exact replay_headers (hserves.fetched _ hfetch)
  | callback hc hx =>
    rw [Runner.handlerAsks_info hx]
    exact hc.headers hs hserves

theorem handle_headers (hs : s.Cached fun runId q => q.info.headers = headersOf runId)
    (hserves : h.ServesHeaders headersOf remote task) :
    (h.handle remote s task).state.Cached fun runId q => q.info.headers = headersOf runId := by
  refine handle_cached (fun k r p hr => ?_) hs (fun fn events hpage hfull _ => ?_)
    fun events r _ _ _ hr _ => ?_
  · rw [Runner.invoke_info]
    exact hr
  · exact run_headers (hserves.polled events hpage hfull) h.fuel
  · rw [Runner.applyAndResume_info]
    exact hr

/-- The commands of a completed response, less the one that ends the workflow, were added by
operations of the call. -/
theorem mem_emitted_of_completed {req : TaskCompleted} {r : Runner σ}
    (hr : h.Progresses remote s task r)
    (hsent : .workflowTaskCompleted req ∈ (h.handle remote s task).sent) {c : Command}
    (hc : c ∈ req.commands) :
    c ∈ r.terminalCommand.toList ∨ ∃ x, h.Asked remote s task x ∧ c ∈ x.1.emitted x.2 := by
  rw [hr.commands_eq hsent] at hc
  refine (List.mem_append.mp hc).symm.imp_right fun hc => ?_
  obtain ⟨asks, hbody, hcommands⟩ := hr.bodyAsks
  rw [hcommands] at hc
  obtain ⟨x, hx, hemitted⟩ := List.mem_flatMap.mp hc
  refine ⟨x, ?_, hemitted⟩
  cases hbody with
  | replayed hfn hpage hquery hfull => exact .replayed hfn hpage hquery hfull hx
  | continued hfn hpage hquery hpart hfit => exact .continued hfn hpage hquery hpart hfit hx

theorem EachTask.congr {P Q : Remote → HandlerState σ → WorkflowTask → Prop}
    {tasks : List (Remote × WorkflowTask)}
    (hpq : h.EachTask (fun remote s task => P remote s task ↔ Q remote s task) s tasks) :
    h.EachTask P s tasks ↔ h.EachTask Q s tasks := by
  induction tasks generalizing s with
  | nil => exact Iff.rfl
  | cons t tasks ih => exact and_congr hpq.1 (ih hpq.2)

theorem eachTask_passesOn_iff {tasks : List (Remote × WorkflowTask)}
    (hserves : ∀ t ∈ tasks, h.ServesHeaders headersOf t.1 t.2)
    (hs : s.Cached fun runId q => q.info.headers = headersOf runId) :
    h.EachTask (fun remote s task => ∀ x, h.Asked remote s task x →
      (x.1.PassesOn (headersOf task.runId) x.2 ↔
        headersOf task.runId = [] ∨ x.1.StartsNoChild x.2)) s tasks := by
  induction tasks generalizing s with
  | nil => trivial
  | cons t tasks ih =>
    obtain ⟨ht, hrest⟩ := List.forall_mem_cons.mp hserves
    exact ⟨fun x hx => Runner.passesOn_iff (hx.headers hs ht) x.2, ih hrest (handle_headers hs ht)⟩

/-- Over any sequence of tasks from the start of the worker, an operation passes the headers of its
workflow on unless it starts a child, and everything that is started gets them exactly if no
workflow with headers starts a child. -/
theorem headers_passed_on_iff (h : TaskHandler σ) (headersOf : String → Header) (capacity : Nat)
    (tasks : List (Remote × WorkflowTask))
    (hserves : ∀ t ∈ tasks, h.ServesHeaders headersOf t.1 t.2) :
    h.EachTask (fun remote s task => ∀ x, h.Asked remote s task x →
        (x.1.PassesOn (headersOf task.runId) x.2 ↔
          headersOf task.runId = [] ∨ x.1.StartsNoChild x.2)) { cache := .empty capacity } tasks ∧
      (h.EachTask (h.PassesHeaders headersOf) { cache := .empty capacity } tasks ↔
        h.EachTask (h.ChildlessIfHeaded headersOf) { cache := .empty capacity } tasks) := by
  have heach := eachTask_passesOn_iff hserves (.empty capacity)
  exact ⟨heach, EachTask.congr (EachTask.mono h (fun _ _ _ hx => forall₂_congr hx) heach)⟩

end TaskHandler

/-- A workflow that starts a child and returns. -/
def spawnWorkflow : WorkflowFn Unit where
  init := ()
  body _ := fun
    | [] => .startChildWorkflow "Child" [] {}
    | _ => .finish (.returned [])

def spawnHandler : TaskHandler Unit where
  workflows name := if name = "Spawn" then some spawnWorkflow else none
  world := .plain .tagged
  fuel := 10

/-- The headers of a traced run. -/
def traceHeader : Header := [("trace", { data := [7] })]

def spawnTask : WorkflowTask :=
  { statusTask "Spawn" [] [] with
    page := { events := [⟨1, .workflowExecutionStarted "Spawn" [] traceHeader⟩, ⟨2, .other⟩,
      ⟨3, .other⟩] } }

/-- The trace of the parent does not reach the child it starts. -/
theorem child_gets_no_headers :
    (spawnHandler.handle .accepting { cache := .empty 0 } spawnTask).sent.map
        (fun
          | .workflowTaskCompleted req => req.commands.map fun c => (c.call, c.header)
          | _ => []) = [[(.child, []), (.ending, [])]] ∧
      ¬ spawnHandler.EachTask (spawnHandler.PassesHeaders fun _ => traceHeader)
        { cache := .empty 0 } [(.accepting, spawnTask)] := by
  refine ⟨by decide +kernel, fun hall => ?_⟩
  have hasked : spawnHandler.Asked .accepting { cache := .empty 0 } spawnTask (_, _) :=
    .replayed rfl rfl rfl rfl (List.mem_append_left _ (List.mem_append_left _
      (List.mem_map.mpr ⟨.startChildWorkflow "Child" [] {}, List.mem_singleton_self _, rfl⟩)))
  have hlost := (hall.1 _ hasked).commands
    (.startChildWorkflowExecution _ _ _ _ _ _) (by
      rw [Runner.emitted_startChildWorkflow]
      exact List.mem_singleton_self _) (.inr rfl) _ List.mem_cons_self trivial
  cases hlost

/-- A workflow that has an activity run and returns. -/
def errandWorkflow : WorkflowFn Unit where
  init := ()
  body _ := fun
    | [] => .scheduleActivity "Run" [] {}
    | _ => .finish (.returned [])

def errandHandler : TaskHandler Unit :=
  { spawnHandler with workflows := fun name =>
      if name = "Errand" then some errandWorkflow else none }

def errandTask : WorkflowTask :=
  { statusTask "Errand" [] [] with
    page := { events := [⟨1, .workflowExecutionStarted "Errand" [] traceHeader⟩, ⟨2, .other⟩,
      ⟨3, .other⟩] } }

theorem errandTask_servesHeaders :
    errandHandler.ServesHeaders (fun _ => traceHeader) .accepting errandTask where
  polled events hpage _ := by
    obtain rfl : errandTask.page.events = events := Except.ok.inj (Option.some.inj hpage)
    exact ⟨1, "Errand", [], [⟨2, .other⟩, ⟨3, .other⟩], rfl, by decide⟩
  fetched full hfetch := by cases hfetch

/-- The errand starts no child, and no callback runs in its task. -/
theorem errandTask_childless :
    errandHandler.ChildlessIfHeaded (fun _ => traceHeader) .accepting { cache := .empty 0 }
      errandTask := by
  rintro x hx
  right
  cases hx with
  | replayed hfn hpage _ _ hx =>
    obtain rfl : errandWorkflow = _ := Option.some.inj hfn
    obtain rfl : errandTask.page.events = _ := Except.ok.inj (Option.some.inj hpage)
    have hops : ((Runner.replay (errandHandler.info errandTask)
        (0 < errandTask.previousStartedEventId) errandHandler.world errandWorkflow
        errandTask.page.events).runAsks errandHandler.fuel).map Prod.snd =
          [.scheduleActivity "Run" [] {}] := rfl
    have hop := List.mem_map_of_mem (f := Prod.snd) hx
    rw [hops, List.mem_singleton] at hop
    intro type input options hchild
    rw [hop] at hchild
    cases hchild
  | continued _ hpage _ hpart =>
    obtain rfl : errandTask.page.events = _ := Except.ok.inj (Option.some.inj hpage)
    cases hpart
  | rebuilt _ hquery => cases hquery
  | callback hc =>
    cases hc with
    | replay hfn hpage _ _ hc =>
      obtain rfl : errandWorkflow = _ := Option.some.inj hfn
      obtain rfl : errandTask.page.events = _ := Except.ok.inj (Option.some.inj hpage)
      cases hc
    | rebuild _ _ hquery => cases hquery
    | directQuery _ _ hquery => cases hquery
    | message _ hc => cases hc
    | query _ _ hc => cases hc

/-- The trace reaches the activity, and nothing else is started. -/
theorem errand_passes_headers :
    (errandHandler.handle .accepting { cache := .empty 0 } errandTask).sent.map
        (fun
          | .workflowTaskCompleted req => req.commands.map fun c => (c.call, c.header)
          | _ => []) = [[(.activity, traceHeader), (.ending, [])]] ∧
      errandHandler.EachTask (errandHandler.PassesHeaders fun _ => traceHeader)
        { cache := .empty 0 } [(.accepting, errandTask)] :=
  ⟨by decide +kernel, (TaskHandler.headers_passed_on_iff errandHandler (fun _ => traceHeader) 0
    [(.accepting, errandTask)] (List.forall_mem_singleton.mpr errandTask_servesHeaders)).2.mpr
      ⟨errandTask_childless, trivial⟩⟩

end TemporalSdk
