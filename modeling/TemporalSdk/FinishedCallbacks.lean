import TemporalSdk.FinishedBody

/-!
Callbacks of a body that is done. Direct queries, embedded queries and replayed updates check for
the end of the body before they call; the loop over update messages does not, so a handler is run
on a finished body exactly when a task carries an update for one that it had registered.
-/
namespace TemporalSdk

variable {σ : Type}

/-- The reply turns its request down. -/
def UpdateReply.isRefusal : UpdateReply → Bool
  | .rejection .. => true
  | .acceptance .. => false
  | .response _ _ (.error _) => true
  | .response _ _ (.ok _) => false

def UpdateReply.isSuccess : UpdateReply → Bool
  | .response _ _ (.ok _) => true
  | _ => false

/-- The block of a request for an update that is not registered. -/
def TaskMessage.unknownUpdate (msg : TaskMessage) (identity : String) : List ReplyMessage :=
  match msg.body with
  | none => []
  | some u =>
    [msg.accept u, msg.respond identity
      (.error (makeApplicationFailure ("unknown update: " ++ u.name) "UpdateFailed" false))]

namespace Runner

variable {fuel : Nat} {identity : String} {r : Runner σ}

/-- Neither a validator nor a handler is registered for any update the messages ask for. -/
def Unregistered (r : Runner σ) (msgs : List TaskMessage) : Prop :=
  ∀ msg ∈ msgs, ∀ u, msg.body = some u →
    r.updateValidators u.name = none ∧ r.updateHandlers u.name = none

theorem callOf_fst {handler : Option (Handler σ)} {args : Payloads} {c : Runner σ × Program σ}
    (hc : c ∈ r.callOf handler args) : c.1 = r := by
  obtain ⟨p, -, rfl⟩ := mem_callOf.mp hc
  rfl

theorem validateUpdate_isDone (fuel : Nat) (r : Runner σ) (u : UpdateRequest) :
    (r.validateUpdate fuel u).1.isDone = r.isDone := by
  unfold validateUpdate
  split
  · rfl
  · exact (r.invoke_ending fuel _).2

theorem messageCalls_isDone {msg : TaskMessage} {c : Runner σ × Program σ}
    (hc : c ∈ r.messageCalls fuel msg) : c.1.isDone = r.isDone := by
  unfold messageCalls at hc
  split at hc
  · cases hc
  · next u _ =>
    rcases List.mem_append.mp hc with hc | hc
    · rw [callOf_fst hc]
    · split at hc
      · next r₁ result hvalid =>
        have hkeeps := r.validateUpdate_isDone fuel u
        rw [hvalid] at hkeeps
        rw [callOf_fst hc]
        exact hkeeps
      · cases hc

/-- The loop over messages calls on the body as it finds it. -/
theorem messagesCalls_isDone {msgs : List TaskMessage} {c : Runner σ × Program σ}
    (hc : c ∈ r.messagesCalls fuel identity msgs) : c.1.isDone = r.isDone := by
  induction msgs generalizing r with
  | nil => cases hc
  | cons msg msgs ih =>
    rcases List.mem_append.mp hc with hc | hc
    · exact messageCalls_isDone hc
    · split at hc
      · next r₁ replies hone =>
        have hkeeps := (r.processMessages_ending fuel identity [msg]).2
        simp only [processMessages, hone] at hkeeps
        exact (ih hc).trans hkeeps
      · cases hc

theorem processMessage_of_unregistered (fuel : Nat) (identity : String) {msg : TaskMessage}
    (h : r.Unregistered [msg]) :
    r.processMessage fuel identity msg = (r, msg.unknownUpdate identity, none) ∧
      r.messageCalls fuel msg = [] := by
  unfold processMessage messageCalls TaskMessage.unknownUpdate
  cases hb : msg.body with
  | none => exact ⟨rfl, rfl⟩
  | some u =>
    obtain ⟨hvalidator, hhandler⟩ := h msg (List.mem_singleton_self msg) u hb
    simp only [validateUpdate, runUpdate, hvalidator, hhandler, callOf, Option.map_none,
      Option.toList_none, List.append_nil]
    exact ⟨rfl, trivial⟩

theorem processMessages_of_unregistered (fuel : Nat) (identity : String)
    {msgs : List TaskMessage} (h : r.Unregistered msgs) :
    r.processMessages fuel identity msgs =
        (r, msgs.flatMap (·.unknownUpdate identity), none) ∧
      r.messagesCalls fuel identity msgs = [] := by
  induction msgs with
  | nil => exact ⟨rfl, rfl⟩
  | cons msg msgs ih =>
    have hmsg : r.Unregistered [msg] := fun m hm =>
      h m (List.mem_singleton.mp hm ▸ List.mem_cons_self)
    obtain ⟨hone, hcalls⟩ := processMessage_of_unregistered fuel identity hmsg
    obtain ⟨hrest, hnone⟩ := ih fun m hm => h m (List.mem_cons_of_mem _ hm)
    constructor
    · rw [processMessages, hone]
      dsimp only
      rw [hrest, List.flatMap_cons]
    · rw [messagesCalls, hcalls, hone]
      exact hnone

/-- On a finished body nothing is called exactly if nothing that is asked for is registered: the
first registered callback that a message names is called. -/
theorem unregistered_of_spared {msgs : List TaskMessage} (hdone : r.isDone = true)
    (h : ∀ c ∈ r.messagesCalls fuel identity msgs, c.1.isDone = false) : r.Unregistered msgs := by
  have hfresh : ∀ (handler : Option (Handler σ)) (args : Payloads),
      (∀ c ∈ r.callOf handler args, c.1.isDone = false) → handler = none := by
    intro handler args hcalls
    cases handler with
    | none => rfl
    | some p =>
      have hcall := hcalls (r, p args) (mem_callOf.mpr ⟨p, rfl, rfl⟩)
      rw [hdone] at hcall
      cases hcall
  induction msgs with
  | nil => exact fun msg hmsg => absurd hmsg List.not_mem_nil
  | cons msg msgs ih =>
    have hfirst : ∀ c ∈ r.messageCalls fuel msg, c.1.isDone = false := fun c hc =>
      h c (List.mem_append_left _ hc)
    have hone : r.Unregistered [msg] := by
      intro m hm u hu
      rw [List.mem_singleton.mp hm] at hu
      unfold messageCalls at hfirst
      simp only [hu] at hfirst
      have hvalidator : r.updateValidators u.name = none := hfresh _ u.args fun c hc =>
        hfirst c (List.mem_append_left _ hc)
      refine ⟨hvalidator, hfresh _ u.args fun c hc => hfirst c ?_⟩
      simp only [validateUpdate, hvalidator]
      exact List.mem_append_right _ hc
    have hrest : r.Unregistered msgs := by
      refine ih fun c hc => h c (List.mem_append_right _ ?_)
      rw [(processMessage_of_unregistered fuel identity hone).1]
      exact hc
    intro m hm u hu
    rcases List.mem_cons.mp hm with rfl | hm
    · exact hone m (List.mem_singleton_self m) u hu
    · exact hrest m hm u hu

theorem queryCalls_isDone {q : WorkflowQuery} {c : Runner σ × Program σ}
    (hc : c ∈ r.queryCalls q) : c.1.isDone = false := by
  unfold queryCalls at hc
  split_ifs at hc with hdone
  · cases hc
  · rw [callOf_fst hc]
    exact Bool.eq_false_iff.mpr hdone

theorem queriesCalls_isDone {qs : List (String × WorkflowQuery)} {c : Runner σ × Program σ}
    (hc : c ∈ r.queriesCalls fuel qs) : c.1.isDone = false := by
  induction qs generalizing r with
  | nil => cases hc
  | cons x qs ih =>
    rcases List.mem_append.mp hc with hc | hc
    · exact queryCalls_isDone hc
    · split at hc
      · exact ih hc
      · cases hc

/-- `ReapplyHistoricalUpdates` calls on running bodies only. -/
theorem timelineCalls_isDone {steps : List ReplayStep} {c : Runner σ × Program σ}
    (hc : c ∈ r.timelineCalls fuel steps) : c.1.isDone = false := by
  induction steps generalizing r with
  | nil => cases hc
  | cons s steps ih =>
    rcases List.mem_append.mp hc with hc | hc
    · unfold stepCalls at hc
      split_ifs at hc with hhalted
      · cases hc
      · cases s with
        | event ev => cases hc
        | update name args =>
          obtain ⟨-, hdone, -⟩ := not_halted_iff.mp (Bool.eq_false_iff.mpr hhalted)
          rw [callOf_fst hc, isDone, hdone, Bool.and_false]
    · exact ih hc

end Runner

namespace TaskHandler

variable (h : TaskHandler σ) (remote : Remote) (s : HandlerState σ) (task : WorkflowTask)

/-- A call spares finished bodies: no callback is run on one, and what is asked of one is turned
down. -/
structure SparesFinished : Prop where
  callbacks : ∀ c, h.Invokes remote s task c → c.1.isDone = false
  directQuery : ∀ fn events q r, h.workflows task.workflowType = some fn →
    assembleHistory remote.stub h.ns task.workflowId task.runId remote.pageFuel task.page =
      some (.ok events) → task.query = some q → h.AskedOn remote s task fn events r →
    r.isDone = true → (h.handle remote s task).sent =
      [.queryTaskCompleted task.taskToken (.failed "cannot query a completed workflow")]
  requests : ∀ r, h.Progresses remote s task r → r.isDone = true →
    ∃ req, (h.handle remote s task).sent = [.workflowTaskCompleted req] ∧
      (req.queryResults =
        task.queries.map fun x => (x.1, .failed "cannot query a completed workflow")) ∧
      (∀ reply ∈ req.messages, reply.body.isSuccess = false) ∧
      ∀ msg ∈ task.messages, msg.body.isSome = true →
        ∃ reply ∈ req.messages, reply.protocolInstanceId = msg.protocolInstanceId ∧
          reply.body.isRefusal = true

/-- No task carries an update for a callback of the body that it finds or leaves finished. -/
def UpdatesUnregistered : Prop :=
  ∀ r, h.Progresses remote s task r → r.isDone = true → r.Unregistered task.messages

variable {h remote s task}

theorem answerDirectQuery_of_isDone {s' : HandlerState σ} {q : WorkflowQuery} {addr : Nat}
    {r : Runner σ} (hr : s'.runners addr = some r) (hdone : r.isDone = true) :
    (h.answerDirectQuery remote s' task q (some addr)).sent =
      [.queryTaskCompleted task.taskToken (.failed "cannot query a completed workflow")] := by
  simp only [answerDirectQuery, hr, Runner.answerQuery, hdone, if_true]
  exact (respond_sent _ _ _).1

/-- A finished workflow turns a direct query down. -/
theorem directQuery_of_isDone {fn : WorkflowFn σ} {events : History} {q : WorkflowQuery}
    {r : Runner σ} (hquery : task.query = some q) (hr : h.AskedOn remote s task fn events r)
    (hdone : r.isDone = true) : (h.route remote s fn task events).sent =
      [.queryTaskCompleted task.taskToken (.failed "cannot query a completed workflow")] := by
  have hlookup := lookupCached_cases s task events
  unfold route
  generalize lookupCached s task.runId events task.query.isSome = x at hlookup
  obtain ⟨found, s'⟩ := x
  obtain ⟨hmiss, hfound⟩ | ⟨-, addr, r', hcached, hfound, hfetched⟩ := hlookup
  · cases hfound
    have hbuild := (askedOn_of_miss hmiss r).mp hr
    simp only [hquery, hbuild]
    exact answerDirectQuery_of_isDone HandlerState.allocate_runners_self hdone
  · cases hfound
    obtain rfl := (askedOn_of_cached hcached r).mp hr
    simp only [hquery]
    exact answerDirectQuery_of_isDone hfetched hdone

/-- Every callback but those of update messages is called on a running body. -/
theorem Invokes.isDone {c : Runner σ × Program σ} (hu : h.UpdatesUnregistered remote s task)
    (hc : h.Invokes remote s task c) : c.1.isDone = false := by
  cases hc with
  | replay hfn hpage hquery hfull hc => exact Runner.timelineCalls_isDone hc
  | rebuild hfn hpage hquery hmiss hfetch hc => exact Runner.timelineCalls_isDone hc
  | directQuery hfn hpage hquery hr hc => exact Runner.queryCalls_isDone hc
  | query hr hm hc => exact Runner.queriesCalls_isDone hc
  | message hr hc =>
    rw [Runner.messagesCalls_isDone hc]
    refine Bool.eq_false_iff.mpr fun hdone => ?_
    have hnone := (Runner.processMessages_of_unregistered h.fuel h.identity (hu _ hr hdone)).2
    rw [hnone] at hc
    cases hc

theorem unknownUpdate_refuses {msgs : List TaskMessage} {identity : String} :
    (∀ reply ∈ msgs.flatMap (·.unknownUpdate identity), reply.body.isSuccess = false) ∧
    ∀ msg ∈ msgs, msg.body.isSome = true →
      ∃ reply ∈ msgs.flatMap (·.unknownUpdate identity),
        reply.protocolInstanceId = msg.protocolInstanceId ∧ reply.body.isRefusal = true := by
  constructor
  · intro reply hreply
    obtain ⟨msg, -, hblock⟩ := List.mem_flatMap.mp hreply
    unfold TaskMessage.unknownUpdate at hblock
    split at hblock
    · cases hblock
    · simp only [List.mem_cons, List.not_mem_nil, or_false] at hblock
      rcases hblock with rfl | rfl <;> rfl
  · intro msg hmsg hbody
    obtain ⟨u, hu⟩ := Option.isSome_iff_exists.mp hbody
    refine ⟨msg.respond identity (.error (makeApplicationFailure ("unknown update: " ++ u.name)
      "UpdateFailed" false)), List.mem_flatMap.mpr ⟨msg, hmsg, ?_⟩, rfl, rfl⟩
    simp [TaskMessage.unknownUpdate, hu]

theorem sparesFinished_iff :
    h.SparesFinished remote s task ↔ h.UpdatesUnregistered remote s task := by
  constructor
  · intro hspares r hr hdone
    exact Runner.unregistered_of_spared hdone fun c hc => hspares.callbacks c (.message hr hc)
  · intro hu
    refine ⟨fun c hc => hc.isDone hu, ?_, ?_⟩
    · intro fn events q r hfn hpage hquery hr hdone
      rw [handle_eq_route hfn hpage]
      exact directQuery_of_isDone hquery hr hdone
    · intro r hr hdone
      have hprocess :=
        (Runner.processMessages_of_unregistered h.fuel h.identity (hu r hr hdone)).1
      have hanswer := Runner.answerQueries_of_isDone h.fuel hdone task.queries
      have hsettles : h.SettlesTask r task := by
        refine ⟨Runner.settlesMessages_iff.mpr (by rw [hprocess]), ?_⟩
        rw [hprocess]
        exact Runner.settlesQueries_iff.mpr ⟨_, by rw [hanswer]⟩
      obtain ⟨req, hsent⟩ := hr.sent_iff.mpr hsettles
      obtain ⟨r₁, messages, r₂, results, hmessages, hqueries, -, hreplies, hresults⟩ :=
        hr.completed_eq (hsent ▸ List.mem_singleton_self _)
      rw [hprocess, Prod.mk.injEq, Prod.mk.injEq] at hmessages
      obtain ⟨rfl, rfl, -⟩ := hmessages
      rw [hanswer, Prod.mk.injEq, Except.ok.injEq] at hqueries
      refine ⟨req, hsent, by rw [hresults, ← hqueries.2], ?_⟩
      rw [hreplies]
      exact unknownUpdate_refuses

/-- Over any sequence of tasks, no callback is run on a finished body, and what is asked of one is
turned down, exactly if no task carries an update for a callback of a finished body. -/
theorem finished_bodies_spared_iff (h : TaskHandler σ) (s : HandlerState σ)
    (tasks : List (Remote × WorkflowTask)) :
    h.EachTask h.SparesFinished s tasks ↔ h.EachTask h.UpdatesUnregistered s tasks :=
  ⟨EachTask.mono h fun _ _ _ => sparesFinished_iff.mp,
    EachTask.mono h fun _ _ _ => sparesFinished_iff.mpr⟩

end TaskHandler

/-- A workflow that registers an update and returns. -/
def briefWorkflow : WorkflowFn Unit where
  init := ()
  body _ := fun
    | [] => .setUpdateHandler "poke" fun _ _ => .finish (.returned [])
    | _ => .finish (.returned [])

def briefHandler : TaskHandler Unit where
  workflows name := if name = "Brief" then some briefWorkflow else none
  world := .plain .tagged
  fuel := 10

/-- The task in which the body returns, with an update for the handler it had registered. -/
def pokeTask : WorkflowTask :=
  { statusTask "Brief" [] [] with messages := [⟨"m1", "u1", 2, some ⟨"poke", []⟩⟩] }

/-- The handler is run on the finished body, and the update is reported as a success. -/
theorem update_runs_on_finished_body :
    (briefHandler.handle .accepting { cache := .empty 0 } pokeTask).exit = .returned ∧
      (briefHandler.handle .accepting { cache := .empty 0 } pokeTask).sent.map
        (fun
          | .workflowTaskCompleted req => req.messages.map (·.body.isSuccess)
          | _ => []) = [[false, true]] ∧
      ¬ briefHandler.EachTask briefHandler.SparesFinished { cache := .empty 0 }
        [(.accepting, pokeTask)] := by
  refine ⟨by decide +kernel, by decide +kernel, fun hall => ?_⟩
  have hprogresses : briefHandler.Progresses .accepting { cache := .empty 0 } pokeTask
      (briefHandler.replayed briefWorkflow pokeTask pokeTask.page.events) :=
    .replayed rfl rfl rfl rfl (by decide +kernel) (by decide +kernel) (by decide +kernel)
      (by decide +kernel)
  have hunregistered := TaskHandler.sparesFinished_iff.mp hall.1 _ hprogresses (by decide +kernel)
  have hnone := (hunregistered _ List.mem_cons_self _ rfl).2
  have hsome : ((briefHandler.replayed briefWorkflow pokeTask
      pokeTask.page.events).updateHandlers "poke").isSome = true := by decide +kernel
  rw [hnone] at hsome
  cases hsome

end TemporalSdk
