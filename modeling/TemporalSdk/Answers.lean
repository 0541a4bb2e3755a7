import TemporalSdk.QueryRebuild

/-! One task, one answer. Every way through `Handle` sends one response, provided the calls to the
server succeed and the user's callbacks come back; which one depends on the case the task is. -/
namespace TemporalSdk

variable {σ : Type}

/-- The calls a task can be answered with. -/
inductive ResponseRpc where
  | respondWorkflowTaskCompleted | respondWorkflowTaskFailed | respondQueryTaskCompleted
  deriving DecidableEq, Repr, Inhabited

namespace Response

def rpc : Response → ResponseRpc
  | .workflowTaskCompleted _ => .respondWorkflowTaskCompleted
  | .workflowTaskFailed .. => .respondWorkflowTaskFailed
  | .queryTaskCompleted .. => .respondQueryTaskCompleted

def taskToken : Response → String
  | .workflowTaskCompleted req => req.taskToken
  | .workflowTaskFailed token _ _ _ => token
  | .queryTaskCompleted token _ => token

/-- The keys of `query_results`, a field only a completed task has. -/
def queryIds : Response → List String
  | .workflowTaskCompleted req => req.queryResults.map Prod.fst
  | _ => []

end Response

/-- The cases of `Handle`. -/
inductive TaskCase where
  | unregistered | directQuery | stickyMiss | deadlocked | nondeterministic | progress
  deriving DecidableEq, Repr, Inhabited

/-- The call a case is answered with. -/
def TaskCase.rpc (policy : PanicPolicy) : TaskCase → ResponseRpc
  | .unregistered | .stickyMiss | .deadlocked => .respondWorkflowTaskFailed
  | .directQuery => .respondQueryTaskCompleted
  | .nondeterministic =>
    match policy with
    | .failWorkflow => .respondWorkflowTaskCompleted
    | .blockWorkflow => .respondWorkflowTaskFailed
  | .progress => .respondWorkflowTaskCompleted

namespace Runner

/-- A callback, if it is called, returns or throws a `std::exception`. -/
def Settles (fuel : Nat) (r : Runner σ) (handler : Option (Program σ)) : Prop :=
  ∀ p, handler = some p →
    ∃ r' o, runHandler p fuel r [] = some (r', o) ∧ o.escapes = false

theorem settles_iff {fuel : Nat} {r : Runner σ} {handler : Option (Program σ)} :
    Settles fuel r handler ↔
      ∀ p ∈ handler, (runHandler p fuel r []).any (fun x => !x.2.escapes) = true := by
  refine forall_congr' fun p => imp_congr Iff.rfl ?_
  cases runHandler p fuel r [] with
  | none => simp
  | some x =>
    obtain ⟨r', o⟩ := x
    simp

instance (fuel : Nat) (r : Runner σ) (handler : Option (Program σ)) :
    Decidable (Settles fuel r handler) := decidable_of_iff _ settles_iff.symm

/-- The handlers of the updates that are applied again. -/
def SettlesTimeline (fuel : Nat) (r : Runner σ) : List ReplayStep → Prop
  | [] => True
  | s :: steps =>
    (r.halted = false → ∀ name args, s = .update name args →
      Settles fuel r ((r.updateHandlers name).map (· args))) ∧
    SettlesTimeline fuel (reapplyStep fuel r s) steps

def SettlesReplay (fuel : Nat) (r : Runner σ) : Prop :=
  SettlesTimeline fuel (r.firstResume fuel) (r.firstResume fuel).scan.postUpdateTimeline

/-- The validators and handlers of the update requests among `msgs`. -/
def SettlesMessages (fuel : Nat) (identity : String) (r : Runner σ) : List TaskMessage → Prop
  | [] => True
  | msg :: msgs =>
    (∀ u, msg.body = some u →
      Settles fuel r ((r.updateValidators u.name).map (· u.args)) ∧
      ∀ result, (r.validateUpdate fuel u).2 = .returned result →
        Settles fuel (r.validateUpdate fuel u).1
          (((r.validateUpdate fuel u).1.updateHandlers u.name).map (· u.args))) ∧
    SettlesMessages fuel identity (r.processMessage fuel identity msg).1 msgs

/-- The handler of a query, which a finished workflow is not asked. -/
def SettlesQuery (fuel : Nat) (r : Runner σ) (q : WorkflowQuery) : Prop :=
  r.isDone = false → Settles fuel r ((r.queryHandlers q.queryType).map (· q.queryArgs))

instance (fuel : Nat) (r : Runner σ) (q : WorkflowQuery) : Decidable (SettlesQuery fuel r q) :=
  inferInstanceAs (Decidable (_ → _))

def SettlesQueries (fuel : Nat) (r : Runner σ) : List (String × WorkflowQuery) → Prop
  | [] => True
  | (_, q) :: qs => SettlesQuery fuel r q ∧ SettlesQueries fuel (r.answerQuery fuel q).1 qs

end Runner

/-- The callback has come back to `Handle`. -/
def HandlerExit.isBack : HandlerExit → Bool
  | .returned _ | .threw _ => true
  | .escaped | .hung => false

namespace Runner

theorem handlerExit_isBack {o : Outcome} (h : o.escapes = false) :
    (handlerExit o).isBack = true := by
  cases o with
  | continueAsNew type input => cases h
  | otherException => cases h
  | _ => rfl

section Callbacks

variable {fuel : Nat} {r : Runner σ}

theorem Settles.invoke {p : Program σ} (h : Settles fuel r (some p)) :
    (r.invoke fuel p).2.isBack = true := by
  obtain ⟨r', o, hrun, ho⟩ := h p rfl
  unfold Runner.invoke
  rw [hrun]
  exact handlerExit_isBack ho

theorem Settles.validateUpdate {u : UpdateRequest}
    (h : Settles fuel r ((r.updateValidators u.name).map (· u.args))) :
    (r.validateUpdate fuel u).2.isBack = true := by
  unfold Runner.validateUpdate
  cases hv : r.updateValidators u.name with
  | none => rfl
  | some v =>
    rw [hv] at h
    exact h.invoke

theorem Settles.runUpdate {u : UpdateRequest}
    (h : Settles fuel r ((r.updateHandlers u.name).map (· u.args))) :
    (r.runUpdate fuel u).2.isBack = true := by
  unfold Runner.runUpdate
  cases hu : r.updateHandlers u.name with
  | none => rfl
  | some p =>
    rw [hu] at h
    exact h.invoke

theorem Settles.runQuery {q : WorkflowQuery}
    (h : Settles fuel r ((r.queryHandlers q.queryType).map (· q.queryArgs))) :
    (r.runQuery fuel q).2.isBack = true := by
  unfold Runner.runQuery
  cases hq : r.queryHandlers q.queryType with
  | none => rfl
  | some p =>
    rw [hq] at h
    exact h.invoke

theorem settles_of_invoke {handler : Option (Program σ)}
    (h : ∀ p, handler = some p → (r.invoke fuel p).2.isBack = true) : Settles fuel r handler := by
  intro p hp
  have hback := h p hp
  unfold Runner.invoke at hback
  cases hrun : runHandler p fuel r [] with
  | none =>
    rw [hrun] at hback
    cases hback
  | some x =>
    obtain ⟨r', o⟩ := x
    rw [hrun] at hback
    refine ⟨r', o, rfl, ?_⟩
    cases o <;> first | rfl | cases hback

theorem settles_of_validateUpdate {u : UpdateRequest}
    (h : (r.validateUpdate fuel u).2.isBack = true) :
    Settles fuel r ((r.updateValidators u.name).map (· u.args)) := by
  refine settles_of_invoke fun p hp => ?_
  obtain ⟨v, hv, rfl⟩ := Option.map_eq_some_iff.mp hp
  simpa only [Runner.validateUpdate, hv] using h

theorem settles_of_runUpdate {u : UpdateRequest} (h : (r.runUpdate fuel u).2.isBack = true) :
    Settles fuel r ((r.updateHandlers u.name).map (· u.args)) := by
  refine settles_of_invoke fun p hp => ?_
  obtain ⟨v, hv, rfl⟩ := Option.map_eq_some_iff.mp hp
  simpa only [Runner.runUpdate, hv] using h

theorem settles_of_runQuery {q : WorkflowQuery} (h : (r.runQuery fuel q).2.isBack = true) :
    Settles fuel r ((r.queryHandlers q.queryType).map (· q.queryArgs)) := by
  refine settles_of_invoke fun p hp => ?_
  obtain ⟨v, hv, rfl⟩ := Option.map_eq_some_iff.mp hp
  simpa only [Runner.runQuery, hv] using h

/-- A message whose callbacks come back does not end the call. -/
theorem processMessage_settles {identity : String} {msg : TaskMessage} {msgs : List TaskMessage}
    (h : SettlesMessages fuel identity r (msg :: msgs)) :
    (r.processMessage fuel identity msg).2.2 = none := by
  unfold processMessage
  cases hb : msg.body with
  | none => rfl
  | some u =>
    obtain ⟨hvalid, hupdate⟩ := h.1 u hb
    have hv := hvalid.validateUpdate
    dsimp only
    generalize r.validateUpdate fuel u = x at hv hupdate
    obtain ⟨r₁, exit⟩ := x
    cases exit with
    | returned result =>
      have hu := (hupdate result rfl).runUpdate
      dsimp only at hu ⊢
      generalize r₁.runUpdate fuel u = y at hu
      obtain ⟨r₂, exit'⟩ := y
      cases exit' with
      | returned result' => rfl
      | threw what => rfl
      | escaped => cases hu
      | hung => cases hu
    | threw what => rfl
    | escaped => cases hv
    | hung => cases hv

theorem processMessages_settles {identity : String} {msgs : List TaskMessage}
    (h : SettlesMessages fuel identity r msgs) :
    (r.processMessages fuel identity msgs).2.2 = none := by
  induction msgs generalizing r with
  | nil => rfl
  | cons msg msgs ih =>
    have hone := processMessage_settles h
    have hrest := ih h.2
    unfold processMessages
    generalize r.processMessage fuel identity msg = x at hone hrest
    obtain ⟨r₁, replies, exit⟩ := x
    cases hone
    exact hrest

theorem settlesMessages_of_processMessage {identity : String} {msg : TaskMessage}
    (h : (r.processMessage fuel identity msg).2.2 = none) :
    SettlesMessages fuel identity r [msg] := by
  refine ⟨fun u hu => ?_, trivial⟩
  have hvalid : (r.validateUpdate fuel u).2.isBack = true →
      Settles fuel r ((r.updateValidators u.name).map (· u.args)) := settles_of_validateUpdate
  have hupdate : ((r.validateUpdate fuel u).1.runUpdate fuel u).2.isBack = true →
      Settles fuel (r.validateUpdate fuel u).1
        (((r.validateUpdate fuel u).1.updateHandlers u.name).map (· u.args)) :=
    settles_of_runUpdate
  unfold processMessage at h
  rw [hu] at h
  dsimp only at h
  generalize r.validateUpdate fuel u = x at h hvalid hupdate
  obtain ⟨r₁, exit⟩ := x
  cases exit with
  | hung => cases h
  | escaped => cases h
  | threw what => exact ⟨hvalid rfl, nofun⟩
  | returned ignored =>
    refine ⟨hvalid rfl, fun _ _ => hupdate ?_⟩
    dsimp only at h ⊢
    generalize r₁.runUpdate fuel u = y at h
    obtain ⟨r₂, exit'⟩ := y
    cases exit' with
    | returned result => rfl
    | threw what => rfl
    | hung => cases h
    | escaped => cases h

/-- The loop over the messages gets to its end exactly if the callbacks it calls come back. -/
theorem settlesMessages_iff {identity : String} {msgs : List TaskMessage} :
    SettlesMessages fuel identity r msgs ↔ (r.processMessages fuel identity msgs).2.2 = none := by
  refine ⟨processMessages_settles, fun h => ?_⟩
  induction msgs generalizing r with
  | nil => trivial
  | cons msg msgs ih =>
    have hone : (r.processMessage fuel identity msg).2.2 = none ∧
        ((r.processMessage fuel identity msg).1.processMessages fuel identity msgs).2.2 = none := by
      unfold processMessages at h
      generalize r.processMessage fuel identity msg = x at h
      obtain ⟨r₁, replies, exit⟩ := x
      cases exit with
      | some exit => cases h
      | none => exact ⟨rfl, h⟩
    exact ⟨(settlesMessages_of_processMessage hone.1).1, ih hone.2⟩

/-- A query whose handler comes back is answered. -/
theorem answerQuery_settles {q : WorkflowQuery} (h : SettlesQuery fuel r q) :
    ∃ result, (r.answerQuery fuel q).2 = .ok result := by
  unfold answerQuery
  split
  · exact ⟨_, rfl⟩
  · next hd =>
    have hq := (h (Bool.eq_false_iff.mpr hd)).runQuery
    generalize r.runQuery fuel q = x at hq
    obtain ⟨r', exit⟩ := x
    cases exit with
    | returned answer => exact ⟨_, rfl⟩
    | threw what => exact ⟨_, rfl⟩
    | escaped => cases hq
    | hung => cases hq

/-- The results have the ids of the queries, in their order. -/
theorem answerQueries_settles {qs : List (String × WorkflowQuery)}
    (h : SettlesQueries fuel r qs) :
    ∃ results, (r.answerQueries fuel qs).2 = .ok results ∧
      results.map Prod.fst = qs.map Prod.fst := by
  induction qs generalizing r with
  | nil => exact ⟨[], rfl, rfl⟩
  | cons x qs ih =>
    obtain ⟨id, q⟩ := x
    obtain ⟨result, hone⟩ := answerQuery_settles h.1
    obtain ⟨results, hrest, hids⟩ := ih h.2
    unfold answerQueries
    generalize r.answerQuery fuel q = x at hone hrest
    obtain ⟨r₁, e⟩ := x
    cases hone
    dsimp only at hrest ⊢
    generalize r₁.answerQueries fuel qs = y at hrest
    obtain ⟨r₂, e'⟩ := y
    cases hrest
    exact ⟨(id, result) :: results, rfl, congrArg (id :: ·) hids⟩

/-- A finished workflow turns every query down. -/
theorem answerQueries_of_isDone (fuel : Nat) (hdone : r.isDone = true)
    (qs : List (String × WorkflowQuery)) :
    r.answerQueries fuel qs =
      (r, .ok (qs.map fun x => (x.1, .failed "cannot query a completed workflow"))) := by
  induction qs with
  | nil => rfl
  | cons x qs ih =>
    obtain ⟨id, q⟩ := x
    simp only [answerQueries, answerQuery, hdone, if_true, ih, List.map_cons]

theorem settlesQuery_of_answerQuery {q : WorkflowQuery} {result : QueryResult}
    (h : (r.answerQuery fuel q).2 = .ok result) : SettlesQuery fuel r q := by
  intro hdone
  have hquery : (r.runQuery fuel q).2.isBack = true →
      Settles fuel r ((r.queryHandlers q.queryType).map (· q.queryArgs)) := settles_of_runQuery
  unfold answerQuery at h
  rw [if_neg (Bool.eq_false_iff.mp hdone)] at h
  generalize r.runQuery fuel q = x at h hquery
  obtain ⟨r', exit⟩ := x
  cases exit with
  | returned answer => exact hquery rfl
  | threw what => exact hquery rfl
  | escaped => cases h
  | hung => cases h

/-- And so does the loop over the queries. -/
theorem settlesQueries_iff {qs : List (String × WorkflowQuery)} :
    SettlesQueries fuel r qs ↔ ∃ results, (r.answerQueries fuel qs).2 = .ok results := by
  refine ⟨fun h => (answerQueries_settles h).imp fun _ hr => hr.1, fun h => ?_⟩
  induction qs generalizing r with
  | nil => trivial
  | cons x qs ih =>
    obtain ⟨id, q⟩ := x
    obtain ⟨results, h⟩ := h
    have hone : (∃ result, (r.answerQuery fuel q).2 = .ok result) ∧
        ∃ more, ((r.answerQuery fuel q).1.answerQueries fuel qs).2 = .ok more := by
      unfold answerQueries at h
      generalize r.answerQuery fuel q = x at h
      obtain ⟨r₁, e⟩ := x
      cases e with
      | error exit => cases h
      | ok result =>
        refine ⟨⟨result, rfl⟩, ?_⟩
        dsimp only at h ⊢
        generalize r₁.answerQueries fuel qs = y at h
        obtain ⟨r₂, e'⟩ := y
        cases e' with
        | error exit => cases h
        | ok more => exact ⟨more, rfl⟩
    obtain ⟨⟨result, hresult⟩, hmore⟩ := hone
    exact ⟨settlesQuery_of_answerQuery hresult, ih hmore⟩

theorem reapplyUpdate_settles {name : String} {args : Payloads}
    (h : Settles fuel r ((r.updateHandlers name).map (· args))) :
    (r.reapplyUpdate fuel name args).hung = r.hung ∧
      (r.reapplyUpdate fuel name args).escaped = r.escaped := by
  unfold reapplyUpdate
  cases hu : r.updateHandlers name with
  | none => exact ⟨rfl, rfl⟩
  | some p =>
    obtain ⟨r', o, hrun, ho⟩ := h (p args) (by rw [hu]; rfl)
    have hf := runHandler_frame hrun
    dsimp only
    rw [hrun]
    dsimp only
    rw [ho]
    exact ⟨hf.hung, hf.escaped⟩

theorem step_flags {r' : Runner σ} (h : r.step = some r') :
    r'.hung = r.hung ∧ r'.escaped = r.escaped := by
  unfold step at h
  split at h
  · cases h
  · split at h
    · next o ho =>
      cases h
      cases o <;> exact ⟨rfl, rfl⟩
    · obtain ⟨x, hx, rfl⟩ := Option.map_eq_some_iff.mp h
      have hf := r.exec_frame hx
      exact ⟨hf.hung, hf.escaped⟩

/-- Nothing the body does hangs the caller. -/
theorem resumeCoroutine_flags (fuel : Nat) (r : Runner σ) :
    (r.resumeCoroutine fuel).hung = r.hung ∧ (r.resumeCoroutine fuel).escaped = r.escaped := by
  unfold resumeCoroutine
  split
  · next r' hrun =>
    refine Parking.runFor_preserves (fun c d hs hc => ?_) hrun
      (P := fun q => q.hung = r.hung ∧ q.escaped = r.escaped) ⟨rfl, rfl⟩
    obtain ⟨hh, he⟩ := step_flags hs
    exact ⟨hh.trans hc.1, he.trans hc.2⟩
  · exact ⟨rfl, rfl⟩

theorem reapplyStep_settles {s : ReplayStep} {steps : List ReplayStep}
    (h : SettlesTimeline fuel r (s :: steps)) :
    (reapplyStep fuel r s).hung = r.hung ∧ (reapplyStep fuel r s).escaped = r.escaped := by
  rw [reapplyStep_eq]
  by_cases hr : r.halted = true
  · rw [if_pos hr]
    exact ⟨rfl, rfl⟩
  · rw [if_neg hr]
    have hbefore : (r.beforeResume fuel s).hung = r.hung ∧
        (r.beforeResume fuel s).escaped = r.escaped := by
      cases s with
      | event ev =>
        obtain ⟨scan, futures, he⟩ := r.applyEventToState_touches ev
        rw [beforeResume, he]
        exact ⟨rfl, rfl⟩
      | update name args =>
        exact reapplyUpdate_settles (h.1 (Bool.eq_false_iff.mpr hr) name args rfl)
    split_ifs
    · exact hbefore
    · have hbody := (r.beforeResume fuel s).resumeCoroutine_flags fuel
      exact ⟨hbody.1.trans hbefore.1, hbody.2.trans hbefore.2⟩

theorem timeline_settles {steps : List ReplayStep} (h : SettlesTimeline fuel r steps) :
    (steps.foldl (reapplyStep fuel) r).hung = r.hung ∧
      (steps.foldl (reapplyStep fuel) r).escaped = r.escaped := by
  induction steps generalizing r with
  | nil => exact ⟨rfl, rfl⟩
  | cons s steps ih =>
    have hone := reapplyStep_settles h
    have hrest := ih h.2
    exact ⟨hrest.1.trans hone.1, hrest.2.trans hone.2⟩

/-- A replay whose update handlers come back does so too. -/
theorem run_settles (h : SettlesReplay fuel r) :
    (r.run fuel).hung = r.hung ∧ (r.run fuel).escaped = r.escaped := by
  have hfirst := resumeCoroutine_flags fuel
    { r with commands := [], producedCommands := [], started := true }
  have hrest := timeline_settles h
  exact ⟨hrest.1.trans hfirst.1, hrest.2.trans hfirst.2⟩

end Callbacks

end Runner

namespace TaskHandler

variable (h : TaskHandler σ)

/-- The cached runner a task finds. -/
def cachedFor (s : HandlerState σ) (task : WorkflowTask) (events : History) : Option (Runner σ) :=
  if isFullHistory events then none
  else ((s.cache.peek task.runId).filter (Serves s events task.query.isSome)).bind s.runners

/-- The runner a task without a direct query is carried out on, as `Run` or `ApplyAndResume`
leaves it. -/
def driven (s : HandlerState σ) (fn : WorkflowFn σ) (task : WorkflowTask) (events : History) :
    Option (Runner σ) :=
  if isFullHistory events then some (h.replayed fn task events)
  else (cachedFor s task events).map (·.applyAndResume h.fuel events)

/-- Which case a task is. -/
def caseOf (s : HandlerState σ) (task : WorkflowTask) (events : History) : TaskCase :=
  match h.workflows task.workflowType with
  | none => .unregistered
  | some fn =>
    if task.query.isSome then .directQuery
    else
      match h.driven s fn task events with
      | none => .stickyMiss
      | some r =>
        if r.deadlocked then .deadlocked
        else if isFullHistory events && r.checkDeterminism.isSome then .nondeterministic
        else .progress

/-- Every call to the server succeeds; `full` is the history a query without cached state is
rebuilt from. -/
structure RpcsSucceed (remote : Remote) (task : WorkflowTask) (events full : History) : Prop where
  respond : ∀ resp, remote.respond resp = .ok ()
  page : (h.workflows task.workflowType).isSome →
    assembleHistory remote.stub h.ns task.workflowId task.runId remote.pageFuel task.page =
      some (.ok events)
  fetch : task.query.isSome →
    queryHistory remote.stub h.ns task.workflowId task.runId remote.pageFuel = some (.ok full)

/-- The callbacks that are called for a task return or throw a `std::exception`, and a body that
is rebuilt for a query gets to its next suspension. -/
structure UserCode (s : HandlerState σ) (fn : WorkflowFn σ) (task : WorkflowTask)
    (events full : History) : Prop where
  replay : task.query = none → isFullHistory events = true →
    (Runner.replay (h.info task) (0 < task.previousStartedEventId) h.world fn
      events).SettlesReplay h.fuel
  messages : task.query = none → ∀ r, h.driven s fn task events = some r →
    h.caseOf s task events = .progress → r.SettlesMessages h.fuel h.identity task.messages
  queries : task.query = none → ∀ r, h.driven s fn task events = some r →
    h.caseOf s task events = .progress →
    (r.processMessages h.fuel h.identity task.messages).1.SettlesQueries h.fuel task.queries
  rebuild : task.query.isSome → cachedFor s task events = none →
    (Runner.replay (h.info task) true h.queryWorld fn full).SettlesReplay h.fuel ∧
      (h.queryRunner fn task full).deadlocked = false
  query : ∀ q, task.query = some q →
    ((cachedFor s task events).getD (h.queryRunner fn task full)).SettlesQuery h.fuel q

/-- A call that has sent one response, the one its case calls for. -/
def Answers (task : WorkflowTask) (c : TaskCase) (out : Handled σ) : Prop :=
  ∃ resp, out.sent = [resp] ∧ out.exit = .returned ∧ resp.taskToken = task.taskToken ∧
    resp.rpc = c.rpc h.panicPolicy ∧
    (c = .progress → resp.queryIds = task.queries.map Prod.fst)

variable {h} {remote : Remote} {s : HandlerState σ} {task : WorkflowTask} {fn : WorkflowFn σ}
  {events full : History}

theorem answers_respond (hok : ∀ resp, remote.respond resp = .ok ()) {c : TaskCase}
    {resp : Response} (htoken : resp.taskToken = task.taskToken)
    (hrpc : resp.rpc = c.rpc h.panicPolicy) (hc : c ≠ .progress) :
    h.Answers task c (respond remote s resp) := by
  refine ⟨resp, (respond_sent remote s resp).1, ?_, htoken, hrpc, fun hp => absurd hp hc⟩
  unfold respond
  rw [hok]

theorem complete_answers (hok : ∀ resp, remote.respond resp = .ok ()) {addr : Nat} {r : Runner σ}
    (hm : r.SettlesMessages h.fuel h.identity task.messages)
    (hq : (r.processMessages h.fuel h.identity task.messages).1.SettlesQueries h.fuel
      task.queries) : h.Answers task .progress (h.complete remote s task addr r) := by
  have hmessages := Runner.processMessages_settles hm
  obtain ⟨results, hresults, hids⟩ := Runner.answerQueries_settles hq
  unfold complete
  generalize r.processMessages h.fuel h.identity task.messages = x at hmessages hresults
  obtain ⟨r₁, messages, exit⟩ := x
  cases hmessages
  dsimp only at hresults ⊢
  generalize r₁.answerQueries h.fuel task.queries = y at hresults
  obtain ⟨r₂, e⟩ := y
  cases hresults
  dsimp only
  rw [hok]
  exact ⟨_, rfl, rfl, rfl, rfl, fun _ => hids⟩

theorem failNondeterministic_answers (hok : ∀ resp, remote.respond resp = .ok ())
    (mismatch : String) :
    h.Answers task .nondeterministic (h.failNondeterministic remote s task mismatch) := by
  unfold failNondeterministic
  dsimp only
  split
  · next hp => exact answers_respond hok rfl (by simp only [TaskCase.rpc, hp]; rfl) nofun
  · next hp => exact answers_respond hok rfl (by simp only [TaskCase.rpc, hp]; rfl) nofun

theorem abortDeadlock_answers (hok : ∀ resp, remote.respond resp = .ok ()) :
    h.Answers task .deadlocked (h.abortDeadlock remote s task) :=
  answers_respond hok rfl rfl nofun

theorem answerDirectQuery_answers (hok : ∀ resp, remote.respond resp = .ok ()) {q : WorkflowQuery}
    {addr : Nat} {r : Runner σ} (hr : s.runners addr = some r) (hq : r.SettlesQuery h.fuel q) :
    h.Answers task .directQuery (h.answerDirectQuery remote s task q (some addr)) := by
  obtain ⟨result, hresult⟩ := Runner.answerQuery_settles hq
  unfold answerDirectQuery
  dsimp only
  rw [hr]
  dsimp only
  generalize r.answerQuery h.fuel q = x at hresult
  obtain ⟨r', e⟩ := x
  cases hresult
  exact answers_respond hok rfl rfl nofun

theorem caseOf_of_query (hw : h.workflows task.workflowType = some fn)
    (hq : task.query.isSome = true) : h.caseOf s task events = .directQuery := by
  simp only [caseOf, hw, hq, if_true]

theorem caseOf_of_driven (hw : h.workflows task.workflowType = some fn) (hq : task.query = none)
    {r : Runner σ} (hr : h.driven s fn task events = some r) :
    h.caseOf s task events = if r.deadlocked then .deadlocked
      else if isFullHistory events && r.checkDeterminism.isSome then .nondeterministic
      else .progress := by
  simp only [caseOf, hw, hq, hr, Option.isSome_none, Bool.false_eq_true, if_false]

theorem replayTask_answers (hok : ∀ resp, remote.respond resp = .ok ())
    (hu : h.UserCode s fn task events full) (hw : h.workflows task.workflowType = some fn)
    (hq : task.query = none) (hf : isFullHistory events = true) {s' : HandlerState σ} :
    h.Answers task (h.caseOf s task events) (h.replayTask remote s' fn task events) := by
  have hdriven : h.driven s fn task events = some (h.replayed fn task events) := if_pos hf
  have hsettles := Runner.run_settles (hu.replay hq hf)
  have hhung : (h.replayed fn task events).hung = false := hsettles.1
  have hescaped : (h.replayed fn task events).escaped = false := hsettles.2
  have hcase := caseOf_of_driven hw hq hdriven
  rw [replayTask_eq]
  by_cases hd : (h.replayed fn task events).deadlocked = true
  · rw [hcase, if_pos hd, if_pos hd]
    exact abortDeadlock_answers hok
  · rw [if_neg hd, if_neg (Bool.eq_false_iff.mp hhung), if_neg (Bool.eq_false_iff.mp hescaped)]
    rw [if_neg hd, hf, Bool.true_and] at hcase
    split
    · next mismatch hm =>
      rw [hcase, hm]
      exact failNondeterministic_answers hok mismatch
    · next hm =>
      rw [hm] at hcase
      rw [hcase]
      exact complete_answers hok (hu.messages hq _ hdriven hcase) (hu.queries hq _ hdriven hcase)

theorem continueTask_answers (hok : ∀ resp, remote.respond resp = .ok ())
    (hu : h.UserCode s fn task events full) (hw : h.workflows task.workflowType = some fn)
    (hq : task.query = none) (hf : isFullHistory events = false) {s' : HandlerState σ} {addr : Nat}
    {r : Runner σ} (hr : cachedFor s task events = some r) :
    h.Answers task (h.caseOf s task events) (h.continueTask remote s' task addr r events) := by
  have hdriven : h.driven s fn task events = some (r.applyAndResume h.fuel events) := by
    simp [driven, hf, hr]
  have hcase := caseOf_of_driven hw hq hdriven
  unfold continueTask
  dsimp only
  by_cases hd : (r.applyAndResume h.fuel events).deadlocked = true
  · rw [hcase, if_pos hd, if_pos hd]
    exact abortDeadlock_answers hok
  · rw [if_neg hd]
    rw [if_neg hd, hf, Bool.false_and, if_neg Bool.false_ne_true] at hcase
    rw [hcase]
    exact complete_answers hok (hu.messages hq _ hdriven hcase) (hu.queries hq _ hdriven hcase)

/-- What the lookup comes to. -/
theorem lookupCached_cases (s : HandlerState σ) (task : WorkflowTask) (events : History) :
    (cachedFor s task events = none ∧
      (lookupCached s task.runId events task.query.isSome).1 = none) ∨
    (isFullHistory events = false ∧ ∃ addr r, cachedFor s task events = some r ∧
      (lookupCached s task.runId events task.query.isSome).1 = some addr ∧
      (lookupCached s task.runId events task.query.isSome).2.runners addr = some r) := by
  unfold cachedFor
  cases hf : isFullHistory events with
  | true => exact .inl ⟨rfl, by rw [lookupCached_of_full hf]⟩
  | false =>
    rw [lookupCached_of_continuation hf]
    dsimp only
    cases hc : (s.cache.peek task.runId).filter (Serves s events task.query.isSome) with
    | none => exact .inl ⟨rfl, rfl⟩
    | some addr =>
      have hserves := (Option.filter_eq_some_iff.mp hc).2
      cases hr : s.runners addr with
      | none => simp [Serves, hr] at hserves
      | some r => exact .inr ⟨rfl, addr, r, by simp [hr], rfl, hr⟩

theorem route_answers (hrpc : h.RpcsSucceed remote task events full)
    (hu : h.UserCode s fn task events full) (hw : h.workflows task.workflowType = some fn) :
    h.Answers task (h.caseOf s task events) (h.route remote s fn task events) := by
  have hlookup := lookupCached_cases s task events
  unfold route
  generalize lookupCached s task.runId events task.query.isSome = x at hlookup
  obtain ⟨found, s'⟩ := x
  obtain ⟨hnone, hfound⟩ | ⟨hf, addr, r, hcached, hfound, hr⟩ := hlookup
  · cases hfound
    dsimp only
    cases hq : task.query with
    | some q =>
      have hasked : task.query.isSome = true := by rw [hq]; rfl
      rw [caseOf_of_query hw hasked]
      obtain ⟨hreplay, hyields⟩ := hu.rebuild hasked hnone
      have hback := Runner.run_settles hreplay
      have hbuild := buildRunnerForQuery_of_history h fn task (hrpc.fetch hasked) hyields
        hback.1 hback.2
      have hsettles := hu.query q hq
      rw [hnone, Option.getD_none] at hsettles
      dsimp only
      rw [hbuild]
      exact answerDirectQuery_answers hrpc.respond (by simp [HandlerState.allocate]) hsettles
    | none =>
      dsimp only
      split
      · next hf => exact replayTask_answers hrpc.respond hu hw hq hf
      · next hf =>
        have hcase : h.caseOf s task events = .stickyMiss := by
          simp [caseOf, hw, hq, driven, hf, hnone]
        rw [hcase]
        exact answers_respond hrpc.respond rfl rfl fun h => by cases h
  · cases hfound
    dsimp only at hr ⊢
    cases hq : task.query with
    | some q =>
      have hasked : task.query.isSome = true := by rw [hq]; rfl
      rw [caseOf_of_query hw hasked]
      have hsettles := hu.query q hq
      rw [hcached, Option.getD_some] at hsettles
      exact answerDirectQuery_answers hrpc.respond hr hsettles
    | none =>
      dsimp only
      rw [hr]
      exact continueTask_answers hrpc.respond hu hw hq hf hcached

theorem handle_answers (hrpc : h.RpcsSucceed remote task events full)
    (hu : ∀ fn, h.workflows task.workflowType = some fn → h.UserCode s fn task events full) :
    h.Answers task (h.caseOf s task events) (h.handle remote s task) := by
  unfold handle
  cases hw : h.workflows task.workflowType with
  | none =>
    have hcase : h.caseOf s task events = .unregistered := by simp only [caseOf, hw]
    rw [hcase]
    exact answers_respond hrpc.respond rfl rfl nofun
  | some fn =>
    dsimp only
    rw [hrpc.page (by rw [hw]; rfl)]
    exact route_answers hrpc (hu fn hw) hw

end TaskHandler

/-- A task with embedded queries. -/
def statusTask (workflowType : String) (more : History) (queries : List (String × WorkflowQuery)) :
    WorkflowTask where
  taskToken := "token"
  workflowId := "status-1"
  runId := "run-1"
  workflowType := workflowType
  page := { events := [⟨1, .workflowExecutionStarted workflowType [] []⟩, ⟨2, .other⟩, ⟨3, .other⟩]
    ++ more }
  queries := queries

end TemporalSdk
