import TemporalSdk.Callbacks
import TemporalSdk.UpdateMessages

/-!
Exceptions of registered callbacks. Every call site catches `std::exception` and nothing else, so
`Handle` is left by an exception exactly when a callback throws something else, such as the
request `Context::ContinueAsNew` raises.
-/
namespace TemporalSdk

variable {σ : Type}

namespace TaskHandler

variable (h : TaskHandler σ) (remote : Remote) (s : HandlerState σ) (task : WorkflowTask)

/-- The runner a direct query is asked: the cached one, or one rebuilt for it. -/
inductive AskedOn (fn : WorkflowFn σ) (events : History) : Runner σ → Prop
  | cached {r : Runner σ} (hr : cachedFor s task events = some r) : AskedOn fn events r
  | rebuilt {r : Runner σ} (hmiss : cachedFor s task events = none)
      (hr : h.buildRunnerForQuery remote fn task = .ok (some r)) : AskedOn fn events r

/-- The call of `Handle` calls this callback on this runner. -/
inductive Invokes : Runner σ × Program σ → Prop
  | replay {fn : WorkflowFn σ} {events : History} {c : Runner σ × Program σ}
      (hfn : h.workflows task.workflowType = some fn)
      (hpage : assembleHistory remote.stub h.ns task.workflowId task.runId remote.pageFuel
        task.page = some (.ok events))
      (hquery : task.query = none) (hfull : isFullHistory events = true)
      (hc : c ∈ (Runner.replay (h.info task) (0 < task.previousStartedEventId) h.world fn
        events).replayCalls h.fuel) : Invokes c
  | rebuild {fn : WorkflowFn σ} {events full : History} {c : Runner σ × Program σ}
      (hfn : h.workflows task.workflowType = some fn)
      (hpage : assembleHistory remote.stub h.ns task.workflowId task.runId remote.pageFuel
        task.page = some (.ok events))
      (hquery : task.query.isSome = true) (hmiss : cachedFor s task events = none)
      (hfetch : queryHistory remote.stub h.ns task.workflowId task.runId remote.pageFuel =
        some (.ok full))
      (hc : c ∈ (Runner.replay (h.info task) true h.queryWorld fn full).replayCalls h.fuel) :
      Invokes c
  | directQuery {fn : WorkflowFn σ} {events : History} {q : WorkflowQuery} {r : Runner σ}
      {c : Runner σ × Program σ} (hfn : h.workflows task.workflowType = some fn)
      (hpage : assembleHistory remote.stub h.ns task.workflowId task.runId remote.pageFuel
        task.page = some (.ok events))
      (hquery : task.query = some q) (hr : h.AskedOn remote s task fn events r)
      (hc : c ∈ r.queryCalls q) : Invokes c
  | message {r : Runner σ} {c : Runner σ × Program σ} (hr : h.Progresses remote s task r)
      (hc : c ∈ r.messagesCalls h.fuel h.identity task.messages) : Invokes c
  | query {r r₁ : Runner σ} {messages : List ReplyMessage} {c : Runner σ × Program σ}
      (hr : h.Progresses remote s task r)
      (hm : r.processMessages h.fuel h.identity task.messages = (r₁, messages, none))
      (hc : c ∈ r₁.queriesCalls h.fuel task.queries) : Invokes c

variable {h remote s task}

theorem respond_exit_ne_escaped (s : HandlerState σ) (resp : Response) :
    (respond remote s resp).exit ≠ .escaped := by
  unfold respond
  split <;> simp

theorem failNondeterministic_exit_ne_escaped (s : HandlerState σ) (mismatch : String) :
    (h.failNondeterministic remote s task mismatch).exit ≠ .escaped := by
  unfold failNondeterministic
  dsimp only
  split <;> exact respond_exit_ne_escaped _ _

theorem complete_escaped_iff {s' : HandlerState σ} {addr : Nat} {r : Runner σ} :
    (h.complete remote s' task addr r).exit = .escaped ↔
      (∃ c ∈ r.messagesCalls h.fuel h.identity task.messages, Runner.Escapes h.fuel c) ∨
      ∃ r₁ messages, r.processMessages h.fuel h.identity task.messages = (r₁, messages, none) ∧
        ∃ c ∈ r₁.queriesCalls h.fuel task.queries, Runner.Escapes h.fuel c := by
  rw [← Runner.processMessages_escaped_iff]
  unfold complete
  generalize r.processMessages h.fuel h.identity task.messages = x
  obtain ⟨r₁, messages, exit⟩ := x
  cases exit with
  | some exit => simp
  | none =>
    have hqueries : (∃ r₁' messages', (r₁, messages, (none : Option Exit)) =
        (r₁', messages', none) ∧
          ∃ c ∈ r₁'.queriesCalls h.fuel task.queries, Runner.Escapes h.fuel c) ↔
        (r₁.answerQueries h.fuel task.queries).2 = .error .escaped := by
      rw [Runner.answerQueries_escaped_iff]
      constructor
      · rintro ⟨_, _, heq, hc⟩
        cases heq
        exact hc
      · exact fun hc => ⟨_, _, rfl, hc⟩
    rw [hqueries]
    simp only [reduceCtorEq, false_or]
    generalize r₁.answerQueries h.fuel task.queries = y
    obtain ⟨r₂, e⟩ := y
    cases e with
    | error exit => simp
    | ok results =>
      dsimp only
      split <;> simp

theorem answerDirectQuery_escaped_iff {s' : HandlerState σ} {q : WorkflowQuery} {addr : Nat}
    {r : Runner σ} (hr : s'.runners addr = some r) :
    (h.answerDirectQuery remote s' task q (some addr)).exit = .escaped ↔
      ∃ c ∈ r.queryCalls q, Runner.Escapes h.fuel c := by
  rw [← Runner.answerQuery_escaped_iff]
  unfold answerDirectQuery
  simp only [hr]
  generalize r.answerQuery h.fuel q = x
  obtain ⟨r', e⟩ := x
  cases e with
  | error exit => simp
  | ok result => simpa using respond_exit_ne_escaped _ _

theorem askedOn_of_cached {fn : WorkflowFn σ} {events : History} {r : Runner σ}
    (hcached : cachedFor s task events = some r) (r' : Runner σ) :
    h.AskedOn remote s task fn events r' ↔ r' = r := by
  constructor
  · intro hr
    cases hr with
    | cached hr => exact Option.some.inj (hr.symm.trans hcached)
    | rebuilt hmiss _ => simp [hcached] at hmiss
  · rintro rfl
    exact .cached hcached

theorem askedOn_of_miss {fn : WorkflowFn σ} {events : History}
    (hmiss : cachedFor s task events = none) (r' : Runner σ) :
    h.AskedOn remote s task fn events r' ↔
      h.buildRunnerForQuery remote fn task = .ok (some r') := by
  constructor
  · intro hr
    cases hr with
    | cached hr => simp [hmiss] at hr
    | rebuilt _ hr => exact hr
  · exact .rebuilt hmiss

/-- The exit of a call that is asked a direct query. -/
theorem route_query_escaped_iff {fn : WorkflowFn σ} {events : History} {q : WorkflowQuery}
    (hquery : task.query = some q) :
    (h.route remote s fn task events).exit = .escaped ↔
      (∃ r, h.AskedOn remote s task fn events r ∧
        ∃ c ∈ r.queryCalls q, Runner.Escapes h.fuel c) ∨
      cachedFor s task events = none ∧
        h.buildRunnerForQuery remote fn task = .error .escaped := by
  have hlookup := lookupCached_cases s task events
  unfold route
  generalize lookupCached s task.runId events task.query.isSome = x at hlookup
  obtain ⟨found, s'⟩ := x
  obtain ⟨hmiss, hfound⟩ | ⟨-, addr, r, hcached, hfound, hr⟩ := hlookup
  · cases hfound
    simp only [hquery, hmiss, true_and, askedOn_of_miss hmiss]
    cases h.buildRunnerForQuery remote fn task with
    | error exit => simp
    | ok found =>
      cases found with
      | none =>
        refine iff_of_false (respond_exit_ne_escaped _ _) ?_
        simp
      | some r =>
        refine (answerDirectQuery_escaped_iff HandlerState.allocate_runners_self).trans ?_
        simp
  · cases hfound
    have hfound : ({ s' with cacheHits := s'.cacheHits + 1 } : HandlerState σ).runners addr =
        some r := hr
    simp only [hquery, askedOn_of_cached hcached, exists_eq_left]
    refine (answerDirectQuery_escaped_iff hfound).trans ?_
    simp [hcached]

/-- The transient runner of a query lets an exception through exactly if one of its replayed
handlers throws one. -/
theorem buildRunnerForQuery_escaped_iff {fn : WorkflowFn σ} :
    h.buildRunnerForQuery remote fn task = .error .escaped ↔
      ∃ full, queryHistory remote.stub h.ns task.workflowId task.runId remote.pageFuel =
          some (.ok full) ∧
        ∃ c ∈ (Runner.replay (h.info task) true h.queryWorld fn full).replayCalls h.fuel,
          Runner.Escapes h.fuel c := by
  unfold buildRunnerForQuery
  cases queryHistory remote.stub h.ns task.workflowId task.runId remote.pageFuel with
  | none => simp
  | some fetched =>
    cases fetched with
    | error e => simp
    | ok full =>
      have hrun := Runner.run_broken h.fuel
        (r := Runner.replay (h.info task) true h.queryWorld fn full) rfl
      simp only [Option.some.injEq, Except.ok.injEq, exists_eq_left']
      by_cases hcalls : ∃ c ∈ (Runner.replay (h.info task) true h.queryWorld fn
          full).replayCalls h.fuel, Runner.Escapes h.fuel c
      · obtain ⟨hescaped, hhung, hdead⟩ := hrun.1 hcalls
        refine iff_of_true ?_ hcalls
        simp [hescaped, hhung, hdead]
      · have hescaped := hrun.2 fun c hc he => hcalls ⟨c, hc, he⟩
        refine iff_of_false ?_ hcalls
        simp only [hescaped, Bool.false_eq_true, ↓reduceIte]
        split <;> simp

/-- An exception that no catch clause of a call site sees leaves `Handle`. -/
theorem handle_escaped_of_invokes {c : Runner σ × Program σ} (hc : h.Invokes remote s task c)
    (he : Runner.Escapes h.fuel c) : (h.handle remote s task).exit = .escaped := by
  cases hc with
  | replay hfn hpage hquery hfull hc =>
    obtain ⟨hescaped, hhung, hdead⟩ := (Runner.run_broken h.fuel rfl).1 ⟨c, hc, he⟩
    rw [handle_eq_route hfn hpage, h.route_full hfull hquery, replayTask_eq]
    unfold replayed
    rw [hdead, hhung, hescaped]
    rfl
  | rebuild hfn hpage hquery hmiss hfetch hc =>
    obtain ⟨q, hq⟩ := Option.isSome_iff_exists.mp hquery
    rw [handle_eq_route hfn hpage, route_query_escaped_iff hq]
    exact .inr ⟨hmiss, buildRunnerForQuery_escaped_iff.mpr ⟨_, hfetch, c, hc, he⟩⟩
  | directQuery hfn hpage hquery hr hc =>
    rw [handle_eq_route hfn hpage, route_query_escaped_iff hquery]
    exact .inl ⟨_, hr, c, hc, he⟩
  | message hr hc =>
    obtain ⟨s', addr, hhandle⟩ := hr.handle_eq
    rw [hhandle, complete_escaped_iff]
    exact .inl ⟨c, hc, he⟩
  | query hr hm hc =>
    obtain ⟨s', addr, hhandle⟩ := hr.handle_eq
    rw [hhandle, complete_escaped_iff]
    exact .inr ⟨_, _, hm, c, hc, he⟩

/-- Whoever escapes from a call that progresses is a message's or a query's callback. -/
theorem Progresses.exists_invokes {r : Runner σ} (hr : h.Progresses remote s task r)
    (hexit : (h.handle remote s task).exit = .escaped) :
    ∃ c, h.Invokes remote s task c ∧ Runner.Escapes h.fuel c := by
  obtain ⟨s', addr, hhandle⟩ := hr.handle_eq
  rw [hhandle, complete_escaped_iff] at hexit
  rcases hexit with ⟨c, hc, he⟩ | ⟨r₁, messages, hm, c, hc, he⟩
  · exact ⟨c, .message hr hc, he⟩
  · exact ⟨c, .query hr hm hc, he⟩

theorem exists_invokes_of_escaped (hexit : (h.handle remote s task).exit = .escaped) :
    ∃ c, h.Invokes remote s task c ∧ Runner.Escapes h.fuel c := by
  cases hfn : h.workflows task.workflowType with
  | none =>
    simp only [handle, hfn] at hexit
    exact absurd hexit (respond_exit_ne_escaped _ _)
  | some fn =>
    cases hpage : assembleHistory remote.stub h.ns task.workflowId task.runId remote.pageFuel
        task.page with
    | none => simp [handle, hfn, hpage] at hexit
    | some page =>
      cases page with
      | error e => simp [handle, hfn, hpage] at hexit
      | ok events =>
        have hroute := hexit
        rw [handle_eq_route hfn hpage] at hroute
        cases hquery : task.query with
        | some q =>
          rcases (route_query_escaped_iff hquery).mp hroute with ⟨r, hr, c, hc, he⟩ |
            ⟨hmiss, hbuild⟩
          · exact ⟨c, .directQuery hfn hpage hquery hr hc, he⟩
          · obtain ⟨full, hfetch, c, hc, he⟩ := buildRunnerForQuery_escaped_iff.mp hbuild
            exact ⟨c, .rebuild hfn hpage (by rw [hquery]; rfl) hmiss hfetch hc, he⟩
        | none =>
          cases hf : isFullHistory events with
          | true =>
            by_cases hcalls : ∃ c ∈ (Runner.replay (h.info task)
                (0 < task.previousStartedEventId) h.world fn events).replayCalls h.fuel,
                  Runner.Escapes h.fuel c
            · obtain ⟨c, hc, he⟩ := hcalls
              exact ⟨c, .replay hfn hpage hquery hf hc, he⟩
            · have hescaped : (h.replayed fn task events).escaped = false :=
                (Runner.run_broken h.fuel rfl).2 fun c hc he => hcalls ⟨c, hc, he⟩
              rw [h.route_full hf hquery, replayTask_eq,
                if_neg (Bool.eq_false_iff.mp hescaped)] at hroute
              split_ifs at hroute with hdead hhung
              · exact absurd hroute (respond_exit_ne_escaped _ _)
              · cases hcheck : (h.replayed fn task events).checkDeterminism with
                | some mismatch =>
                  rw [hcheck] at hroute
                  exact absurd hroute (failNondeterministic_exit_ne_escaped _ _)
                | none =>
                  exact (Progresses.replayed hfn hpage hquery hf (by simpa using hdead)
                    (by simpa using hhung) hescaped hcheck).exists_invokes hexit
          | false =>
            by_cases hfit : ∃ addr r, Fits s task events addr r
            · obtain ⟨addr, r, hfit⟩ := hfit
              cases hdead : (r.applyAndResume h.fuel events).deadlocked with
              | true =>
                rw [h.route_continuation hf hquery hfit, continueTask, hdead] at hroute
                exact absurd hroute (respond_exit_ne_escaped _ _)
              | false =>
                exact (Progresses.continued hfn hpage hquery hf hfit hdead).exists_invokes hexit
            · rw [h.route_reset hf hquery fun addr r hx => hfit ⟨addr, r, hx⟩] at hroute
              exact absurd hroute (respond_exit_ne_escaped _ _)

/-- `Handle` is left by an exception exactly if a callback it calls throws one that is no
`std::exception`. -/
theorem handle_escaped_iff : (h.handle remote s task).exit = .escaped ↔
    ∃ c, h.Invokes remote s task c ∧ Runner.Escapes h.fuel c :=
  ⟨exists_invokes_of_escaped, fun ⟨_, hc, he⟩ => handle_escaped_of_invokes hc he⟩

end TaskHandler

namespace Runner

variable {fuel : Nat} {r : Runner σ}

/-- The replies to a list of messages whose callbacks all return or throw a `std::exception`: a
failure is an outcome like any other, and the rest is answered in the state it leaves. -/
inductive AnswersMessages (fuel : Nat) (identity : String) :
    Runner σ → List TaskMessage → List ReplyMessage → Runner σ → Prop
  | nil {r : Runner σ} : AnswersMessages fuel identity r [] [] r
  | other {r r' : Runner σ} {msg : TaskMessage} {msgs : List TaskMessage}
      {replies : List ReplyMessage} (hbody : msg.body = none)
      (hrest : AnswersMessages fuel identity r msgs replies r') :
      AnswersMessages fuel identity r (msg :: msgs) replies r'
  | rejected {r r₁ r' : Runner σ} {msg : TaskMessage} {msgs : List TaskMessage}
      {replies : List ReplyMessage} {u : UpdateRequest} {what : String}
      (hbody : msg.body = some u) (hvalid : r.validateUpdate fuel u = (r₁, .threw what))
      (hrest : AnswersMessages fuel identity r₁ msgs replies r') :
      AnswersMessages fuel identity r (msg :: msgs) (msg.reject u what :: replies) r'
  | failed {r r₁ r₂ r' : Runner σ} {msg : TaskMessage} {msgs : List TaskMessage}
      {replies : List ReplyMessage} {u : UpdateRequest} {ignored : Payloads} {what : String}
      (hbody : msg.body = some u) (hvalid : r.validateUpdate fuel u = (r₁, .returned ignored))
      (hrun : r₁.runUpdate fuel u = (r₂, .threw what))
      (hrest : AnswersMessages fuel identity r₂ msgs replies r') :
      AnswersMessages fuel identity r (msg :: msgs) (msg.accept u ::
        msg.respond identity (.error (makeApplicationFailure what "UpdateFailed" false)) ::
          replies) r'
  | succeeded {r r₁ r₂ r' : Runner σ} {msg : TaskMessage} {msgs : List TaskMessage}
      {replies : List ReplyMessage} {u : UpdateRequest} {ignored result : Payloads}
      (hbody : msg.body = some u) (hvalid : r.validateUpdate fuel u = (r₁, .returned ignored))
      (hrun : r₁.runUpdate fuel u = (r₂, .returned result))
      (hrest : AnswersMessages fuel identity r₂ msgs replies r') :
      AnswersMessages fuel identity r (msg :: msgs)
        (msg.accept u :: msg.respond identity (.ok result) :: replies) r'

/-- The results of a list of queries whose handlers all return or throw a `std::exception`. -/
inductive AnswersQueries (fuel : Nat) :
    Runner σ → List (String × WorkflowQuery) → List (String × QueryResult) → Runner σ → Prop
  | nil {r : Runner σ} : AnswersQueries fuel r [] [] r
  | finished {r r' : Runner σ} {id : String} {q : WorkflowQuery}
      {qs : List (String × WorkflowQuery)} {results : List (String × QueryResult)}
      (hdone : r.isDone = true) (hrest : AnswersQueries fuel r qs results r') :
      AnswersQueries fuel r ((id, q) :: qs)
        ((id, .failed "cannot query a completed workflow") :: results) r'
  | answered {r r₁ r' : Runner σ} {id : String} {q : WorkflowQuery}
      {qs : List (String × WorkflowQuery)} {results : List (String × QueryResult)}
      {answer : Payloads} (hdone : r.isDone = false)
      (hrun : r.runQuery fuel q = (r₁, .returned answer))
      (hrest : AnswersQueries fuel r₁ qs results r') :
      AnswersQueries fuel r ((id, q) :: qs) ((id, .answered answer) :: results) r'
  | failed {r r₁ r' : Runner σ} {id : String} {q : WorkflowQuery}
      {qs : List (String × WorkflowQuery)} {results : List (String × QueryResult)}
      {what : String} (hdone : r.isDone = false)
      (hrun : r.runQuery fuel q = (r₁, .threw what))
      (hrest : AnswersQueries fuel r₁ qs results r') :
      AnswersQueries fuel r ((id, q) :: qs) ((id, .failed what) :: results) r'

theorem answersMessages_of_processMessages {identity : String} {msgs : List TaskMessage}
    {r' : Runner σ} {replies : List ReplyMessage}
    (h : r.processMessages fuel identity msgs = (r', replies, none)) :
    AnswersMessages fuel identity r msgs replies r' := by
  induction msgs generalizing r replies with
  | nil =>
    cases h
    exact .nil
  | cons msg msgs ih =>
    unfold processMessages at h
    split at h
    · cases h
    · next r₁ block hone =>
      generalize hmore : r₁.processMessages fuel identity msgs = x at h
      obtain ⟨r₂, more, exit⟩ := x
      simp only [Prod.mk.injEq] at h
      obtain ⟨rfl, rfl, rfl⟩ := h
      have hrest := ih hmore
      unfold processMessage at hone
      cases hbody : msg.body with
      | none =>
        rw [hbody] at hone
        cases hone
        exact .other hbody hrest
      | some u =>
        rw [hbody] at hone
        dsimp only at hone
        generalize hvalid : r.validateUpdate fuel u = y at hone
        obtain ⟨r₃, exit⟩ := y
        cases exit with
        | hung => cases hone
        | escaped => cases hone
        | threw what =>
          cases hone
          exact .rejected hbody hvalid hrest
        | returned ignored =>
          dsimp only at hone
          generalize hrun : r₃.runUpdate fuel u = z at hone
          obtain ⟨r₄, exit'⟩ := z
          cases exit' with
          | hung => cases hone
          | escaped => cases hone
          | threw what =>
            cases hone
            exact .failed hbody hvalid hrun hrest
          | returned result =>
            cases hone
            exact .succeeded hbody hvalid hrun hrest

theorem answersQueries_of_answerQueries {qs : List (String × WorkflowQuery)} {r' : Runner σ}
    {results : List (String × QueryResult)}
    (h : r.answerQueries fuel qs = (r', .ok results)) : AnswersQueries fuel r qs results r' := by
  induction qs generalizing r results with
  | nil =>
    cases h
    exact .nil
  | cons x qs ih =>
    obtain ⟨id, q⟩ := x
    unfold answerQueries at h
    split at h
    · cases h
    · next r₁ result hone =>
      split at h
      · cases h
      · next r₂ more hmore =>
        cases h
        have hrest := ih hmore
        unfold answerQuery at hone
        split at hone
        · next hdone =>
          cases hone
          exact .finished hdone hrest
        · next hdone =>
          have hlive := Bool.eq_false_iff.mpr hdone
          generalize hrun : r.runQuery fuel q = y at hone
          obtain ⟨r₃, exit⟩ := y
          cases exit with
          | hung => cases hone
          | escaped => cases hone
          | threw what =>
            cases hone
            exact .failed hlive hrun hrest
          | returned answer =>
            cases hone
            exact .answered hlive hrun hrest

/-- The callback comes back: it returns or throws a `std::exception`. -/
def ComesBack (fuel : Nat) (c : Runner σ × Program σ) : Prop :=
  ∃ r' o, runHandler c.2 fuel c.1 [] = some (r', o) ∧ o.escapes = false

theorem settles_of_callOf {handler : Option (Handler σ)} {args : Payloads}
    (h : ∀ c ∈ r.callOf handler args, ComesBack fuel c) :
    Settles fuel r (handler.map (· args)) := by
  intro p hp
  obtain ⟨f, hf, rfl⟩ := Option.map_eq_some_iff.mp hp
  exact h (r, f args) (mem_callOf.mpr ⟨f, hf, rfl⟩)

theorem settlesMessages_of_calls {identity : String} {msgs : List TaskMessage}
    (h : ∀ c ∈ r.messagesCalls fuel identity msgs, ComesBack fuel c) :
    SettlesMessages fuel identity r msgs := by
  induction msgs generalizing r with
  | nil => trivial
  | cons msg msgs ih =>
    have hone : ∀ u, msg.body = some u →
        Settles fuel r ((r.updateValidators u.name).map (· u.args)) ∧
        ∀ result, (r.validateUpdate fuel u).2 = .returned result →
          Settles fuel (r.validateUpdate fuel u).1
            (((r.validateUpdate fuel u).1.updateHandlers u.name).map (· u.args)) := by
      intro u hu
      have hcalls : ∀ c ∈ r.messageCalls fuel msg, ComesBack fuel c := fun c hc =>
        h c (List.mem_append_left _ hc)
      unfold messageCalls at hcalls
      rw [hu] at hcalls
      refine ⟨settles_of_callOf fun c hc => hcalls c (List.mem_append_left _ hc), ?_⟩
      intro result hvalid
      refine settles_of_callOf fun c hc => hcalls c (List.mem_append_right _ ?_)
      generalize r.validateUpdate fuel u = x at hvalid hc
      obtain ⟨r₁, exit⟩ := x
      cases hvalid
      exact hc
    refine ⟨hone, ih fun c hc => ?_⟩
    have hsettles : SettlesMessages fuel identity r [msg] := ⟨hone, trivial⟩
    have hexit := processMessage_settles hsettles
    refine h c ?_
    unfold messagesCalls
    generalize r.processMessage fuel identity msg = x at hexit hc
    obtain ⟨r₁, replies, exit⟩ := x
    cases hexit
    exact List.mem_append_right _ hc

theorem settlesQuery_of_calls {q : WorkflowQuery} (h : ∀ c ∈ r.queryCalls q, ComesBack fuel c) :
    SettlesQuery fuel r q := by
  intro hdone
  refine settles_of_callOf fun c hc => h c ?_
  unfold queryCalls
  rw [if_neg (Bool.eq_false_iff.mp hdone)]
  exact hc

theorem settlesQueries_of_calls {qs : List (String × WorkflowQuery)}
    (h : ∀ c ∈ r.queriesCalls fuel qs, ComesBack fuel c) : SettlesQueries fuel r qs := by
  induction qs generalizing r with
  | nil => trivial
  | cons x qs ih =>
    obtain ⟨id, q⟩ := x
    have hone : SettlesQuery fuel r q :=
      settlesQuery_of_calls fun c hc => h c (List.mem_append_left _ hc)
    refine ⟨hone, ih fun c hc => h c ?_⟩
    obtain ⟨result, hresult⟩ := answerQuery_settles hone
    unfold queriesCalls
    generalize r.answerQuery fuel q = x at hresult hc
    obtain ⟨r₁, e⟩ := x
    cases hresult
    exact List.mem_append_right _ hc

theorem settlesTimeline_of_calls {steps : List ReplayStep}
    (h : ∀ c ∈ r.timelineCalls fuel steps, ComesBack fuel c) : SettlesTimeline fuel r steps := by
  induction steps generalizing r with
  | nil => trivial
  | cons s steps ih =>
    refine ⟨?_, ih fun c hc => h c (List.mem_append_right _ hc)⟩
    rintro hr name args rfl
    refine settles_of_callOf fun c hc => h c (List.mem_append_left _ ?_)
    unfold stepCalls
    rw [if_neg (Bool.eq_false_iff.mp hr)]
    exact hc

end Runner

namespace TaskHandler

variable (h : TaskHandler σ) (remote : Remote) (s : HandlerState σ) (task : WorkflowTask)

/-- Nobody keeps the call waiting: every callback ends, in whatever way, and a body that is
rebuilt for a query gets to its next suspension. -/
structure NothingHangs (events full : History) : Prop where
  callbacks : ∀ c, h.Invokes remote s task c → (Runner.runHandler c.2 h.fuel c.1 []).isSome = true
  rebuilt : ∀ fn, h.workflows task.workflowType = some fn → task.query.isSome = true →
    cachedFor s task events = none → (h.queryRunner fn task full).deadlocked = false

/-- The exceptions of the callbacks stay inside: the call is not left by one, every failing
update or query gets its failure while the rest is answered after it, and the response is sent. -/
structure ContainsErrors : Prop where
  exit : (h.handle remote s task).exit ≠ .escaped
  outcomes : ∀ r req, h.Progresses remote s task r →
    .workflowTaskCompleted req ∈ (h.handle remote s task).sent →
    ∃ r₁ r₂, Runner.AnswersMessages h.fuel h.identity r task.messages req.messages r₁ ∧
      Runner.AnswersQueries h.fuel r₁ task.queries req.queryResults r₂
  answered : ∀ events full, h.RpcsSucceed remote task events full →
    h.NothingHangs remote s task events full →
    ∃ resp, (h.handle remote s task).sent = [resp] ∧ (h.handle remote s task).exit = .returned

variable {h remote s task}

theorem comesBack_of_contained {c : Runner σ × Program σ}
    (hends : (Runner.runHandler c.2 h.fuel c.1 []).isSome = true)
    (hc : ¬ Runner.Escapes h.fuel c) : Runner.ComesBack h.fuel c := by
  obtain ⟨⟨r', o⟩, hrun⟩ := Option.isSome_iff_exists.mp hends
  refine ⟨r', o, hrun, Bool.eq_false_iff.mpr fun ho => hc ⟨r', o, hrun, ho⟩⟩

theorem fits_of_cachedFor {events : History} {r : Runner σ} (hquery : task.query = none)
    (hr : cachedFor s task events = some r) :
    isFullHistory events = false ∧ ∃ addr, Fits s task events addr r := by
  unfold cachedFor at hr
  cases hf : isFullHistory events with
  | true =>
    rw [hf] at hr
    cases hr
  | false =>
    rw [hf, hquery] at hr
    obtain ⟨addr, hfound, hrunner⟩ := Option.bind_eq_some_iff.mp hr
    obtain ⟨hpeek, hserves⟩ := Option.filter_eq_some_iff.mp hfound
    refine ⟨rfl, addr, hpeek, hrunner, ?_⟩
    simpa [Serves, hrunner] using hserves

/-- A task in the progress case progresses on the runner it drives, if the replay of its updates
came back. -/
theorem progresses_of_driven {fn : WorkflowFn σ} {events : History} {r : Runner σ}
    (hfn : h.workflows task.workflowType = some fn)
    (hpage : assembleHistory remote.stub h.ns task.workflowId task.runId remote.pageFuel
      task.page = some (.ok events))
    (hquery : task.query = none)
    (hreplay : isFullHistory events = true → (h.replayed fn task events).hung = false ∧
      (h.replayed fn task events).escaped = false)
    (hdriven : h.driven s fn task events = some r) (hcase : h.caseOf s task events = .progress) :
    h.Progresses remote s task r := by
  rw [caseOf_of_driven hfn hquery hdriven] at hcase
  unfold driven at hdriven
  cases hf : isFullHistory events with
  | true =>
    rw [hf, if_pos rfl] at hdriven
    cases hdriven
    obtain ⟨hhung, hescaped⟩ := hreplay hf
    split_ifs at hcase with hdead hcheck
    refine .replayed hfn hpage hquery hf (by simpa using hdead) hhung hescaped ?_
    simpa [hf] using hcheck
  | false =>
    rw [hf, if_neg Bool.false_ne_true] at hdriven
    obtain ⟨r₀, hcached, rfl⟩ := Option.map_eq_some_iff.mp hdriven
    obtain ⟨-, addr, hfit⟩ := fits_of_cachedFor hquery hcached
    split_ifs at hcase with hdead hcheck
    exact .continued hfn hpage hquery hf hfit (by simpa using hdead)

/-- When no callback lets an exception through and nothing hangs, the user's code is as the
answer to a task needs it. -/
theorem userCode_of_contained {events full : History} {fn : WorkflowFn σ}
    (hfn : h.workflows task.workflowType = some fn)
    (hrpc : h.RpcsSucceed remote task events full)
    (hhangs : h.NothingHangs remote s task events full)
    (hc : ∀ c, h.Invokes remote s task c → ¬ Runner.Escapes h.fuel c) :
    h.UserCode s fn task events full := by
  have hback : ∀ c, h.Invokes remote s task c → Runner.ComesBack h.fuel c := fun c hcall =>
    comesBack_of_contained (hhangs.callbacks c hcall) (hc c hcall)
  have hpage := hrpc.page (by rw [hfn]; rfl)
  have hreplay : task.query = none → isFullHistory events = true →
      (Runner.replay (h.info task) (0 < task.previousStartedEventId) h.world fn
        events).SettlesReplay h.fuel := fun hquery hf =>
    Runner.settlesTimeline_of_calls fun c hcall => hback c (.replay hfn hpage hquery hf hcall)
  have hprogress : task.query = none → ∀ r, h.driven s fn task events = some r →
      h.caseOf s task events = .progress → h.Progresses remote s task r := fun hquery r hr hcase =>
    progresses_of_driven hfn hpage hquery (fun hf => Runner.run_settles (hreplay hquery hf)) hr
      hcase
  have hmessages : task.query = none → ∀ r, h.driven s fn task events = some r →
      h.caseOf s task events = .progress → r.SettlesMessages h.fuel h.identity task.messages :=
    fun hquery r hr hcase => Runner.settlesMessages_of_calls fun c hcall =>
      hback c (.message (hprogress hquery r hr hcase) hcall)
  refine ⟨hreplay, hmessages, fun hquery r hr hcase => ?_, fun hquery hmiss => ⟨?_, ?_⟩, ?_⟩
  · have hloop : r.processMessages h.fuel h.identity task.messages =
        ((r.processMessages h.fuel h.identity task.messages).1,
          (r.processMessages h.fuel h.identity task.messages).2.1, none) := by
      rw [← Runner.processMessages_settles (hmessages hquery r hr hcase)]
    exact Runner.settlesQueries_of_calls fun c hcall => hback c
      (.query (hprogress hquery r hr hcase) hloop hcall)
  · exact Runner.settlesTimeline_of_calls fun c hcall =>
      hback c (.rebuild hfn hpage hquery hmiss (hrpc.fetch hquery) hcall)
  · exact hhangs.rebuilt fn hfn hquery hmiss
  · intro q hquery
    have hasked : task.query.isSome = true := by rw [hquery]; rfl
    refine Runner.settlesQuery_of_calls fun c hcall => hback c
      (.directQuery hfn hpage hquery ?_ hcall)
    cases hcached : cachedFor s task events with
    | some r => exact .cached hcached
    | none =>
      have hsettles := Runner.run_settles (Runner.settlesTimeline_of_calls fun c hcall =>
        hback c (.rebuild hfn hpage hasked hcached (hrpc.fetch hasked) hcall))
      exact .rebuilt hcached (buildRunnerForQuery_of_history h fn task (hrpc.fetch hasked)
        (hhangs.rebuilt fn hfn hasked hcached) hsettles.1 hsettles.2)

/-- The exceptions of the callbacks are contained exactly if none of the callbacks that are called
throws something other than a `std::exception`. -/
theorem containsErrors_iff : h.ContainsErrors remote s task ↔
    ∀ c, h.Invokes remote s task c → ¬ Runner.Escapes h.fuel c := by
  constructor
  · intro hcontains c hc he
    exact hcontains.exit (handle_escaped_of_invokes hc he)
  · intro hc
    refine ⟨fun hexit => ?_, ?_, ?_⟩
    · obtain ⟨c, hcall, he⟩ := exists_invokes_of_escaped hexit
      exact hc c hcall he
    · intro r req hr hsent
      obtain ⟨s', addr, hhandle⟩ := hr.handle_eq
      rw [hhandle] at hsent
      obtain ⟨r₁, messages, r₂, results, hmessages, hqueries, -, hm, hq⟩ := complete_sent hsent
      rw [hm, hq]
      exact ⟨r₁, r₂, Runner.answersMessages_of_processMessages hmessages,
        Runner.answersQueries_of_answerQueries hqueries⟩
    · intro events full hrpc hhangs
      obtain ⟨resp, hsent, hexit, -⟩ := handle_answers hrpc fun fn hfn =>
        userCode_of_contained hfn hrpc hhangs hc
      exact ⟨resp, hsent, hexit⟩

end TaskHandler

/-- A workflow whose status query asks to continue as new. -/
def restlessWorkflow : WorkflowFn Unit where
  init := ()
  body _ := fun
    | [] => .setQueryHandler "status" fun _ _ => .finish (.continueAsNew "Restless" [])
    | _ => .receive "done"

def restlessHandler : TaskHandler Unit where
  workflows name := if name = "Restless" then some restlessWorkflow else none
  world := .plain .tagged
  fuel := 10

/-- The request of a query handler to continue as new leaves `Handle`, and no response is sent. -/
theorem continueAsNew_leaves_handle :
    (restlessHandler.handle .accepting { cache := .empty 0 }
        (statusTask "Restless" [] [("q1", ⟨"status", []⟩)])).exit = .escaped ∧
      (restlessHandler.handle .accepting { cache := .empty 0 }
        (statusTask "Restless" [] [("q1", ⟨"status", []⟩)])).sent.length = 0 ∧
      ¬ restlessHandler.ContainsErrors .accepting { cache := .empty 0 }
        (statusTask "Restless" [] [("q1", ⟨"status", []⟩)]) := by
  have hexit : (restlessHandler.handle .accepting { cache := .empty 0 }
      (statusTask "Restless" [] [("q1", ⟨"status", []⟩)])).exit = .escaped := by decide +kernel
  exact ⟨hexit, by decide +kernel, fun hcontains => hcontains.exit hexit⟩

end TemporalSdk
