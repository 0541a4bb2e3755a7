import TemporalSdk.StickyCache

/-! A worker as its runs see it: every run has at most one resident runner, and a task is served
from the resident runner of its own run alone. `Handle`, with its heap of runners and its bounded
cache, does just that, except that it may drop the resident runners of other runs. -/
namespace TemporalSdk

/-- What a task makes of its run: the runner that stays resident, the responses tried, and how the
call ends. -/
structure RunServed (σ : Type) where
  resident : Option (Runner σ)
  sent : List Response
  exit : Exit

namespace TaskHandler

variable {σ : Type} (h : TaskHandler σ)

/-- The last step of a call. -/
def settle (remote : Remote) (resident : Option (Runner σ)) (resp : Response) : RunServed σ :=
  match remote.respond resp with
  | .ok _ => ⟨resident, [resp], .returned⟩
  | .error e => ⟨resident, [resp], .rpc e⟩

/-- A direct query to a runner, which stays resident as `keep` says. -/
def serveQuery (remote : Remote) (task : WorkflowTask) (q : WorkflowQuery)
    (keep : Runner σ → Option (Runner σ)) (r : Runner σ) : RunServed σ :=
  match r.answerQuery h.fuel q with
  | (r', .error exit) => ⟨keep r', [], exit⟩
  | (r', .ok result) => settle remote (keep r') (.queryTaskCompleted task.taskToken result)

/-- The answer to a task that made progress; a finished run has no resident runner. -/
def serveCompletion (remote : Remote) (task : WorkflowTask) (r : Runner σ) : RunServed σ :=
  match r.processMessages h.fuel h.identity task.messages with
  | (r₁, _, some exit) => ⟨some r₁, [], exit⟩
  | (r₁, messages, none) =>
    match r₁.answerQueries h.fuel task.queries with
    | (r₂, .error exit) => ⟨some r₂, [], exit⟩
    | (r₂, .ok queryResults) =>
      let req : TaskCompleted :=
        { taskToken := task.taskToken
          identity := h.identity
          sticky := h.stickyAttributes
          commands := r.commands ++ r₁.terminalCommand.toList
          messages := messages
          queryResults := queryResults }
      match remote.respond (.workflowTaskCompleted req) with
      | .error e => ⟨some r₂, [.workflowTaskCompleted req], .rpc e⟩
      | .ok _ =>
        ⟨if r₂.isDone then none else some r₂, [.workflowTaskCompleted req], .returned⟩

def deadlockFailure (task : WorkflowTask) : Response :=
  .workflowTaskFailed task.taskToken h.identity .unspecified
    (some (makeApplicationFailure
      "workflow task deadlocked (exceeded deadlock_detection_timeout)" "WorkflowDeadlock" false))

def mismatchFailure (task : WorkflowTask) (mismatch : String) : Response :=
  let failure := makeApplicationFailure mismatch "NonDeterministicError" false
  match h.panicPolicy with
  | .failWorkflow =>
    .workflowTaskCompleted
      { taskToken := task.taskToken, identity := h.identity
        commands := [.failWorkflowExecution failure] }
  | .blockWorkflow =>
    .workflowTaskFailed task.taskToken h.identity .nonDeterministicError (some failure)

/-- A full history: the fresh runner takes the place of the resident one if the replay passes. -/
def serveReplay (remote : Remote) (resident : Option (Runner σ)) (fn : WorkflowFn σ)
    (task : WorkflowTask) (events : History) : RunServed σ :=
  let r := h.replayed fn task events
  if r.deadlocked then settle remote none (h.deadlockFailure task)
  else if r.hung then ⟨resident, [], .hung⟩
  else if r.escaped then ⟨resident, [], .escaped⟩
  else
    match r.checkDeterminism with
    | some mismatch => settle remote resident (h.mismatchFailure task mismatch)
    | none => h.serveCompletion remote task r

def serveContinuation (remote : Remote) (task : WorkflowTask) (r : Runner σ) (events : History) :
    RunServed σ :=
  let r := r.applyAndResume h.fuel events
  if r.deadlocked then settle remote none (h.deadlockFailure task)
  else h.serveCompletion remote task r

/-- The resident runner that a task can be served from. -/
def fitting (resident : Option (Runner σ)) (events : History) (isQuery : Bool) :
    Option (Runner σ) :=
  if isFullHistory events then none
  else resident.filter fun r => isQuery || firstEventId events = r.lastEventId + 1

/-- A task whose history is assembled. -/
def serveEvents (remote : Remote) (resident : Option (Runner σ)) (fn : WorkflowFn σ)
    (task : WorkflowTask) (events : History) : RunServed σ :=
  match fitting resident events task.query.isSome, task.query with
  | some r, some q => h.serveQuery remote task q some r
  | some r, none => h.serveContinuation remote task r events
  | none, some q =>
    match h.buildRunnerForQuery remote fn task with
    | .error exit => ⟨resident, [], exit⟩
    | .ok none => settle remote resident (.queryTaskCompleted task.taskToken
        (.failed "could not load workflow state to answer query"))
    | .ok (some r) => h.serveQuery remote task q (fun _ => resident) r
  | none, none =>
    if isFullHistory events then h.serveReplay remote resident fn task events
    else settle remote resident
      (.workflowTaskFailed task.taskToken h.identity .resetStickyTaskQueue none)

/-- A task of a run, given the run's resident runner. -/
def serve (remote : Remote) (resident : Option (Runner σ)) (task : WorkflowTask) : RunServed σ :=
  match h.workflows task.workflowType with
  | none =>
    settle remote resident (.workflowTaskFailed task.taskToken h.identity .unspecified
      (some (makeApplicationFailure ("no workflow registered for type: " ++ task.workflowType)
        "NotRegisteredError" false)))
  | some fn =>
    match assembleHistory remote.stub h.ns task.workflowId task.runId remote.pageFuel task.page with
    | none => ⟨resident, [], .hung⟩
    | some (.error e) => ⟨resident, [], .rpc e⟩
    | some (.ok events) => h.serveEvents remote resident fn task events

section Residents

variable {h} {remote : Remote} {resident : Option (Runner σ)} {task : WorkflowTask} {r : Runner σ}

theorem settle_resident (resp : Response) : (settle remote resident resp).resident = resident := by
  unfold settle
  split <;> rfl

theorem settle_sent (resp : Response) : (settle remote resident resp).sent = [resp] := by
  unfold settle
  split <;> rfl

/-- The cached runner serves a task that is no query if its events come next. -/
theorem fitting_eq_some {events : History} :
    fitting resident events false = some r ↔
      isFullHistory events = false ∧ resident = some r ∧
        firstEventId events = r.lastEventId + 1 := by
  unfold fitting
  cases isFullHistory events <;> simp [Option.filter_eq_some_iff]

theorem mem_of_fitting {events : History} {isQuery : Bool}
    (hfit : fitting resident events isQuery = some r) : r ∈ resident := by
  unfold fitting at hfit
  split at hfit
  · cases hfit
  · exact (Option.filter_eq_some_iff.mp hfit).1

/-- A task that made progress leaves the runner behind as its messages or its queries left it. -/
theorem mem_serveCompletion {r' : Runner σ}
    (hr : r' ∈ (h.serveCompletion remote task r).resident) :
    r' = (r.processMessages h.fuel h.identity task.messages).1 ∨
      r' = ((r.processMessages h.fuel h.identity task.messages).1.answerQueries h.fuel
        task.queries).1 := by
  unfold serveCompletion at hr
  generalize r.processMessages h.fuel h.identity task.messages = processed at hr
  obtain ⟨r₁, messages, _ | exit⟩ := processed
  case some => exact .inl (Option.some.inj hr).symm
  dsimp only at hr ⊢
  generalize r₁.answerQueries h.fuel task.queries = answered at hr
  obtain ⟨r₂, exit | results⟩ := answered
  case error => exact .inr (Option.some.inj hr).symm
  dsimp only at hr
  split at hr
  · exact .inr (Option.some.inj hr).symm
  · dsimp only at hr
    split at hr
    · cases hr
    · exact .inr (Option.some.inj hr).symm

theorem mem_serveReplay {fn : WorkflowFn σ} {events : History}
    (hr : r ∈ (h.serveReplay remote resident fn task events).resident) :
    r ∈ resident ∨ r ∈ (h.serveCompletion remote task (h.replayed fn task events)).resident := by
  unfold serveReplay at hr
  dsimp only at hr
  split at hr
  · rw [settle_resident] at hr
    cases hr
  · split at hr
    · exact .inl hr
    · split at hr
      · exact .inl hr
      · split at hr
        · rw [settle_resident] at hr
          exact .inl hr
        · exact .inr hr

theorem mem_serveContinuation {events : History} {r' : Runner σ}
    (hr : r' ∈ (h.serveContinuation remote task r events).resident) :
    r' ∈ (h.serveCompletion remote task (r.applyAndResume h.fuel events)).resident := by
  unfold serveContinuation at hr
  dsimp only at hr
  split at hr
  · rw [settle_resident] at hr
    cases hr
  · exact hr

/-- A query leaves the runner behind that it was put to. -/
theorem mem_serveQuery {q : WorkflowQuery} {keep : Runner σ → Option (Runner σ)} {r' : Runner σ}
    (hr : r' ∈ (h.serveQuery remote task q keep r).resident) :
    r' ∈ keep (r.answerQuery h.fuel q).1 := by
  unfold serveQuery at hr
  generalize r.answerQuery h.fuel q = answered at hr
  obtain ⟨r₁, exit | result⟩ := answered
  case error => exact hr
  dsimp only at hr
  rw [settle_resident] at hr
  exact hr

/-- Where the runner comes from that a task leaves behind: it is the one from before, as it was or
as a direct query left it, or a replay or a continuation made progress with it. -/
theorem mem_serve (hr : r ∈ (h.serve remote resident task).resident) :
    r ∈ resident ∨
    (∃ q r₀, r₀ ∈ resident ∧ task.query = some q ∧ r = (r₀.answerQuery h.fuel q).1) ∨
    ∃ fn events r₀, h.workflows task.workflowType = some fn ∧ task.query = none ∧
      assembleHistory remote.stub h.ns task.workflowId task.runId remote.pageFuel task.page =
        some (.ok events) ∧
      (r₀ = h.replayed fn task events ∨ ∃ r₁ ∈ resident,
        firstEventId events = r₁.lastEventId + 1 ∧ r₀ = r₁.applyAndResume h.fuel events) ∧
      r ∈ (h.serveCompletion remote task r₀).resident := by
  unfold serve at hr
  cases hfn : h.workflows task.workflowType with
  | none =>
    rw [hfn] at hr
    dsimp only at hr
    rw [settle_resident] at hr
    exact .inl hr
  | some fn =>
  rw [hfn] at hr
  cases hev : assembleHistory remote.stub h.ns task.workflowId task.runId remote.pageFuel
      task.page with
  | none =>
    rw [hev] at hr
    exact .inl hr
  | some x =>
  rw [hev] at hr
  cases x with
  | error e => exact .inl hr
  | ok events =>
    dsimp only [serveEvents] at hr
    cases hq : task.query with
    | none =>
      rw [hq] at hr
      cases hfit : fitting resident events false with
      | none =>
        simp only [Option.isSome_none, hfit] at hr
        split at hr
        · exact (mem_serveReplay hr).imp_right fun hr =>
            .inr ⟨fn, events, _, rfl, rfl, rfl, .inl rfl, hr⟩
        · rw [settle_resident] at hr
          exact .inl hr
      | some r₁ =>
        simp only [Option.isSome_none, hfit] at hr
        obtain ⟨-, hres, hnext⟩ := fitting_eq_some.mp hfit
        exact .inr (.inr ⟨fn, events, _, rfl, rfl, rfl, .inr ⟨r₁, hres, hnext, rfl⟩,
          mem_serveContinuation hr⟩)
    | some q =>
      rw [hq] at hr
      cases hfit : fitting resident events true with
      | none =>
        simp only [Option.isSome_some, hfit] at hr
        split at hr
        · exact .inl hr
        · rw [settle_resident] at hr
          exact .inl hr
        · exact .inl (mem_serveQuery hr)
      | some r₀ =>
        simp only [Option.isSome_some, hfit] at hr
        exact .inr (.inl ⟨q, r₀, mem_of_fitting hfit, rfl,
          (Option.some.inj (mem_serveQuery hr)).symm⟩)

end Residents

end TaskHandler

namespace LruCache

variable {K V : Type} [DecidableEq K]

def capacity (c : LruCache K V) : Nat := c.raw.capacity

@[simp] theorem capacity_get (c : LruCache K V) (key : K) :
    (c.get key).2.capacity = c.capacity :=
  RawLru.call_capacity c.raw (.get key)

@[simp] theorem capacity_put (c : LruCache K V) (key : K) (value : V) :
    (c.put key value).capacity = c.capacity :=
  RawLru.call_capacity c.raw (.put key value)

@[simp] theorem capacity_erase (c : LruCache K V) (key : K) :
    (c.erase key).capacity = c.capacity :=
  RawLru.call_capacity c.raw (.erase key)

/-- An unbounded cache evicts nothing. -/
theorem peek_put_of_unbounded (c : LruCache K V) {key j : K} (hj : j ≠ key) (value : V)
    (hc : c.capacity = 0) : (c.put key value).peek j = c.peek j := by
  change (c.raw.put key value).entries.lookup j = c.raw.entries.lookup j
  have hne : (j == key) = false := beq_eq_false_iff_ne.mpr hj
  have hc : c.raw.capacity = 0 := hc
  rw [(c.coherent.put key value).2]
  simp only [hc, if_true, List.lookup_cons, hne, lookup_filter_ne, hj, if_false]

end LruCache

namespace HandlerState

variable {σ : Type} {s : HandlerState σ}

/-- The runner that the cache holds for a run. -/
def resident (s : HandlerState σ) (run : String) : Option (Runner σ) :=
  (s.cache.peek run).bind s.runners

/-- The pointers of the cache lead to runners, each run to its own. -/
abbrev Sound (s : HandlerState σ) : Prop := s.Cached fun _ _ => True

theorem resident_of_peek {run : String} {addr : Nat} {r : Runner σ}
    (hc : s.cache.peek run = some addr) (hr : s.runners addr = some r) :
    s.resident run = some r := by
  rw [resident, hc, Option.bind_some, hr]

@[simp] theorem resident_touch (run k : String) : (s.touch run).resident k = s.resident k := by
  simp only [resident, touch, LruCache.peek_get]

theorem resident_erase (run k : String) :
    (s.erase run).resident k = if k = run then none else s.resident k := by
  simp only [resident, erase, LruCache.peek_erase]
  split <;> rfl

theorem Sound.resident_allocate (hs : s.Sound) (r : Runner σ) (k : String) :
    (s.allocate r).resident k = s.resident k := by
  unfold resident
  change (s.cache.peek k).bind _ = _
  cases hc : s.cache.peek k with
  | none => rfl
  | some addr => exact allocate_runners_of_ne (Nat.ne_of_lt (hs.lt_nextRunner hc))

/-- A runner that nothing caches can change unseen. -/
theorem resident_setRunner_of_uncached {addr : Nat} (hn : ∀ k, s.cache.peek k ≠ some addr)
    (r : Runner σ) (k : String) : (s.setRunner addr r).resident k = s.resident k := by
  unfold resident
  change (s.cache.peek k).bind _ = _
  cases hc : s.cache.peek k with
  | none => rfl
  | some a => exact setRunner_runners_of_ne fun ha => hn k (ha ▸ hc)

/-- A runner is written for the one run that caches it. -/
theorem Sound.resident_setRunner (hs : s.Sound) {run : String} {addr : Nat}
    (hc : s.cache.peek run = some addr) (r : Runner σ) (k : String) :
    (s.setRunner addr r).resident k = if k = run then some r else s.resident k := by
  unfold resident
  change (s.cache.peek k).bind _ = _
  by_cases hk : k = run
  · rw [hk, hc, if_pos rfl]
    exact setRunner_runners_self
  · rw [if_neg hk]
    cases hk' : s.cache.peek k with
    | none => rfl
    | some a =>
      refine setRunner_runners_of_ne fun ha => hk (hs.apart k run addr ?_ hc)
      rw [← ha, hk']

/-- Other runs keep their resident runner, or lose it to a cache that is full. -/
structure KeepsOthers (run : String) (s s' : HandlerState σ) : Prop where
  capacity : s'.cache.capacity = s.cache.capacity
  resident : ∀ k ≠ run, s'.resident k = s.resident k ∨
    s.cache.capacity ≠ 0 ∧ s'.resident k = none

namespace KeepsOthers

variable {run : String} {s' s'' : HandlerState σ}

theorem of_eq (hc : s'.cache.capacity = s.cache.capacity)
    (hr : ∀ k ≠ run, s'.resident k = s.resident k) : KeepsOthers run s s' :=
  ⟨hc, fun k hk => .inl (hr k hk)⟩

theorem rfl : KeepsOthers run s s := of_eq (Eq.refl _) fun _ _ => Eq.refl _

theorem trans (h : KeepsOthers run s s') (h' : KeepsOthers run s' s'') :
    KeepsOthers run s s'' where
  capacity := h'.capacity.trans h.capacity
  resident k hk := by
    rcases h'.resident k hk with he | ⟨hc, hn⟩
    · rw [he]
      exact h.resident k hk
    · exact .inr ⟨h.capacity ▸ hc, hn⟩

end KeepsOthers

theorem keepsOthers_erase (s : HandlerState σ) (run : String) : KeepsOthers run s (s.erase run) :=
  .of_eq (s.cache.capacity_erase run) fun k hk => by rw [resident_erase, if_neg hk]

theorem Sound.keepsOthers_setRunner (hs : s.Sound) {run : String} {addr : Nat}
    (hc : s.cache.peek run = some addr) (r : Runner σ) :
    KeepsOthers run s (s.setRunner addr r) :=
  .of_eq rfl fun k hk => by rw [hs.resident_setRunner hc, if_neg hk]

/-- A new runner takes the place of the run's old one. -/
theorem Sound.resident_put (hs : s.Sound) (run : String) (r : Runner σ) :
    { s.allocate r with cache := s.cache.put run s.nextRunner }.resident run = some r ∧
      KeepsOthers run s { s.allocate r with cache := s.cache.put run s.nextRunner } := by
  refine ⟨resident_of_peek (LruCache.peek_put_self _ _ _) allocate_runners_self,
    s.cache.capacity_put _ _, fun k hk => ?_⟩
  have hlive : ∀ a, s.cache.peek k = some a → (s.allocate r).runners a = s.runners a :=
    fun a ha => allocate_runners_of_ne (Nat.ne_of_lt (hs.lt_nextRunner ha))
  simp only [resident]
  cases hput : (s.cache.put run s.nextRunner).peek k with
  | some a =>
    have hold := s.cache.peek_put_of_ne hk _ _ hput
    left
    rw [hold, Option.bind_some, Option.bind_some, hlive a hold]
  | none =>
    by_cases hc : s.cache.capacity = 0
    · rw [s.cache.peek_put_of_unbounded hk _ hc] at hput
      left
      rw [hput]
      rfl
    · exact .inr ⟨hc, rfl⟩

end HandlerState

namespace TaskHandler

variable {σ : Type} {h : TaskHandler σ} {s s' : HandlerState σ} {remote : Remote}
  {task : WorkflowTask}

/-- A call does to the run what serving it does, and to other runs nothing but evicting them. -/
structure Refines (run : String) (s : HandlerState σ) (out : Handled σ) (x : RunServed σ) :
    Prop where
  sent : out.sent = x.sent
  exit : out.exit = x.exit
  resident : out.state.resident run = x.resident
  others : HandlerState.KeepsOthers run s out.state

namespace Refines

variable {run : String} {out : Handled σ} {x : RunServed σ}

theorem after (h : Refines run s' out x) (hs : HandlerState.KeepsOthers run s s') :
    Refines run s out x :=
  ⟨h.sent, h.exit, h.resident, hs.trans h.others⟩

theorem respond {resident : Option (Runner σ)} {resp : Response}
    (hr : s.resident run = resident) :
    Refines run s (TaskHandler.respond remote s resp) (settle remote resident resp) := by
  unfold TaskHandler.respond settle
  cases remote.respond resp with
  | ok _ => exact ⟨rfl, rfl, hr, .rfl⟩
  | error e => exact ⟨rfl, rfl, hr, .rfl⟩

end Refines

/-- What the shared pointer of a cached runner says of it. -/
theorem complete_refines {addr : Nat} (hs : s.Sound) (hc : s.cache.peek task.runId = some addr)
    (r : Runner σ) :
    Refines task.runId s (h.complete remote s task addr r) (h.serveCompletion remote task r) := by
  have hset (q : Runner σ) : (s.setRunner addr q).resident task.runId = some q ∧
      HandlerState.KeepsOthers task.runId s (s.setRunner addr q) :=
    ⟨by rw [hs.resident_setRunner hc, if_pos rfl], hs.keepsOthers_setRunner hc q⟩
  unfold complete serveCompletion
  generalize r.processMessages h.fuel h.identity task.messages = processed
  obtain ⟨r₁, messages, _ | exit⟩ := processed
  case some => exact ⟨rfl, rfl, (hset r₁).1, (hset r₁).2⟩
  dsimp only
  generalize r₁.answerQueries h.fuel task.queries = answered
  obtain ⟨r₂, exit | results⟩ := answered
  case error => exact ⟨rfl, rfl, (hset r₂).1, (hset r₂).2⟩
  dsimp only
  cases remote.respond _ with
  | error e => exact ⟨rfl, rfl, (hset r₂).1, (hset r₂).2⟩
  | ok _ =>
    cases hd : r₂.isDone with
    | false => exact ⟨rfl, rfl, (hset r₂).1, (hset r₂).2⟩
    | true =>
      refine ⟨rfl, rfl, ?_, (hset r₂).2.trans (HandlerState.keepsOthers_erase _ _)⟩
      exact (HandlerState.resident_erase _ _).trans (if_pos rfl)

theorem abortDeadlock_refines :
    Refines task.runId s (h.abortDeadlock remote s task)
      (settle remote none (h.deadlockFailure task)) := by
  refine (Refines.respond ?_).after (HandlerState.keepsOthers_erase s task.runId)
  rw [HandlerState.resident_erase, if_pos rfl]

theorem failNondeterministic_refines {resident : Option (Runner σ)} {mismatch : String}
    (hr : s.resident task.runId = resident) :
    Refines task.runId s (h.failNondeterministic remote s task mismatch)
      (settle remote resident (h.mismatchFailure task mismatch)) := by
  unfold failNondeterministic mismatchFailure
  cases h.panicPolicy with
  | blockWorkflow => exact .respond hr
  | failWorkflow => exact .respond hr

theorem replayTask_refines (hs : s.Sound) (fn : WorkflowFn σ) (events : History) :
    Refines task.runId s (h.replayTask remote s fn task events)
      (h.serveReplay remote (s.resident task.runId) fn task events) := by
  have hcount : { s with replays := s.replays + 1 }.Sound := hs.congr rfl rfl fun _ => rfl
  have hall : ∀ k, (h.withReplayed s fn task events).resident k = s.resident k :=
    hcount.resident_allocate _
  have hkeeps : HandlerState.KeepsOthers task.runId s (h.withReplayed s fn task events) :=
    .of_eq rfl fun k _ => hall k
  rw [replayTask_eq]
  unfold serveReplay
  dsimp only
  cases (h.replayed fn task events).deadlocked with
  | true => exact abortDeadlock_refines.after hkeeps
  | false =>
  cases (h.replayed fn task events).hung with
  | true => exact ⟨rfl, rfl, hall _, hkeeps⟩
  | false =>
  cases (h.replayed fn task events).escaped with
  | true => exact ⟨rfl, rfl, hall _, hkeeps⟩
  | false =>
  cases (h.replayed fn task events).checkDeterminism with
  | some mismatch => exact (failNondeterministic_refines (hall _)).after hkeeps
  | none =>
    have hcounted : HandlerState.KeepsOthers task.runId s { s with replays := s.replays + 1 } :=
      .of_eq rfl fun _ _ => rfl
    have hput := hcounted.trans (hcount.resident_put task.runId (h.replayed fn task events)).2
    have hnew : ∀ k, s.cache.peek k ≠ some s.nextRunner := fun k hk =>
      absurd (hs.lt_nextRunner hk) (Nat.lt_irrefl _)
    refine (complete_refines ?_ (LruCache.peek_put_self _ _ _) _).after hput
    exact (hcount.allocate _).put HandlerState.allocate_runners_self trivial hnew

theorem continueTask_refines {addr : Nat} (hs : s.Sound)
    (hc : s.cache.peek task.runId = some addr) (r : Runner σ) (events : History) :
    Refines task.runId s (h.continueTask remote s task addr r events)
      (h.serveContinuation remote task r events) := by
  have hcount : { s with cacheHits := s.cacheHits + 1 }.Sound := hs.congr rfl rfl fun _ => rfl
  have hcounted : HandlerState.KeepsOthers task.runId s { s with cacheHits := s.cacheHits + 1 } :=
    .of_eq rfl fun _ _ => rfl
  have hset := hcounted.trans
    (hcount.keepsOthers_setRunner hc (r.applyAndResume h.fuel events))
  unfold continueTask serveContinuation
  dsimp only
  cases (r.applyAndResume h.fuel events).deadlocked with
  | true => exact abortDeadlock_refines.after hset
  | false =>
    exact (complete_refines (hcount.setRunner (hs.lt_nextRunner hc) fun _ _ => trivial) hc
      _).after hset

theorem answerDirectQuery_refines {addr : Nat} {r : Runner σ} {q : WorkflowQuery}
    {keep : Runner σ → Option (Runner σ)} (hr : s.runners addr = some r)
    (hkeep : ∀ r', (s.setRunner addr r').resident task.runId = keep r')
    (hothers : ∀ r', HandlerState.KeepsOthers task.runId s (s.setRunner addr r')) :
    Refines task.runId s (h.answerDirectQuery remote s task q (some addr))
      (h.serveQuery remote task q keep r) := by
  unfold answerDirectQuery serveQuery
  dsimp only
  rw [hr]
  dsimp only
  generalize r.answerQuery h.fuel q = answered
  obtain ⟨r', exit | result⟩ := answered
  case error => exact ⟨rfl, rfl, hkeep r', hothers r'⟩
  case ok => exact (Refines.respond (hkeep r')).after (hothers r')

/-- The lookup finds the resident runner if it fits the task. -/
theorem lookupCached_fitting (hs : s.Sound) (task : WorkflowTask) (events : History)
    (isQuery : Bool) :
    match lookupCached s task.runId events isQuery with
    | (none, _) => fitting (s.resident task.runId) events isQuery = none
    | (some addr, s') => ∃ r, fitting (s.resident task.runId) events isQuery = some r ∧
        s'.cache.peek task.runId = some addr ∧ s'.runners addr = some r := by
  unfold fitting
  cases hf : isFullHistory events with
  | true =>
    rw [lookupCached_of_full hf]
    rfl
  | false =>
    rw [lookupCached_of_continuation hf]
    cases hc : s.cache.peek task.runId with
    | none =>
      rw [HandlerState.resident, hc]
      rfl
    | some addr =>
      obtain ⟨r, hr, -⟩ := hs.holds task.runId addr hc
      rw [HandlerState.resident_of_peek hc hr]
      simp only [Option.filter, Serves, hr, Option.any_some, Bool.false_eq_true, if_false]
      by_cases hfit : (isQuery || decide (firstEventId events = r.lastEventId + 1)) = true
      · rw [if_pos hfit]
        exact ⟨r, if_pos hfit, (s.cache.peek_get _ _).trans hc, hr⟩
      · rw [if_neg hfit]
        exact if_neg hfit

/-- A lookup moves the run to the front of the cache at most. -/
theorem lookupCached_state (s : HandlerState σ) (runId : String) (events : History)
    (isQuery : Bool) : (lookupCached s runId events isQuery).2 = s ∨
      (lookupCached s runId events isQuery).2 = s.touch runId := by
  cases hf : isFullHistory events with
  | true => exact .inl (by rw [lookupCached_of_full hf])
  | false => exact .inr (by rw [lookupCached_of_continuation hf]; rfl)

theorem route_refines (hs : s.Sound) (fn : WorkflowFn σ) (events : History) :
    Refines task.runId s (h.route remote s fn task events)
      (h.serveEvents remote (s.resident task.runId) fn task events) := by
  have hfound := lookupCached_fitting hs task events task.query.isSome
  obtain ⟨hkeeps, hsound, hsame⟩ :
      HandlerState.KeepsOthers task.runId s
          (lookupCached s task.runId events task.query.isSome).2 ∧
        (lookupCached s task.runId events task.query.isSome).2.Sound ∧
        (lookupCached s task.runId events task.query.isSome).2.resident task.runId =
          s.resident task.runId := by
    rcases lookupCached_state s task.runId events task.query.isSome with he | he <;> rw [he]
    · exact ⟨.rfl, hs, rfl⟩
    · exact ⟨.of_eq (s.cache.capacity_get _) fun k _ => s.resident_touch _ k,
        hs.congr rfl rfl fun k => s.cache.peek_get _ k, s.resident_touch _ _⟩
  unfold route serveEvents
  generalize lookupCached s task.runId events task.query.isSome = found at *
  obtain ⟨_ | addr, s'⟩ := found <;> dsimp only at hkeeps hsound hsame hfound
  · rw [hfound, ← hsame]
    refine Refines.after ?_ hkeeps
    cases task.query with
    | none =>
      dsimp only
      cases isFullHistory events with
      | true => exact replayTask_refines hsound fn events
      | false => exact .respond rfl
    | some q =>
      dsimp only
      cases h.buildRunnerForQuery remote fn task with
      | error exit => exact ⟨rfl, rfl, rfl, .rfl⟩
      | ok built =>
      cases built with
      | none => exact .respond rfl
      | some r =>
        have hall : ∀ k, (s'.allocate r).resident k = s'.resident k := hsound.resident_allocate r
        have hset (r' : Runner σ) (k : String) :
            ((s'.allocate r).setRunner s'.nextRunner r').resident k = s'.resident k :=
          (HandlerState.resident_setRunner_of_uncached (s := s'.allocate r) (fun k hk =>
            absurd (hsound.lt_nextRunner hk) (Nat.lt_irrefl _)) r' k).trans (hall k)
        have hkept : HandlerState.KeepsOthers task.runId s' (s'.allocate r) :=
          .of_eq rfl fun k _ => hall k
        refine Refines.after ?_ hkept
        apply answerDirectQuery_refines HandlerState.allocate_runners_self
        · intro r'
          exact hset r' _
        · intro r'
          exact .of_eq rfl fun k _ => (hset r' k).trans (hall k).symm
  · obtain ⟨r, hfit, hc, hr⟩ := hfound
    rw [hfit]
    refine Refines.after ?_ hkeeps
    cases task.query with
    | none =>
      dsimp only
      rw [hr]
      exact continueTask_refines hsound hc r events
    | some q =>
      have hcount : { s' with cacheHits := s'.cacheHits + 1 }.Sound :=
        hsound.congr rfl rfl fun _ => rfl
      have hkept : HandlerState.KeepsOthers task.runId s'
          { s' with cacheHits := s'.cacheHits + 1 } :=
        .of_eq rfl fun _ _ => rfl
      have hlive : { s' with cacheHits := s'.cacheHits + 1 }.runners addr = some r := hr
      refine Refines.after ?_ hkept
      apply answerDirectQuery_refines hlive
      · intro r'
        rw [hcount.resident_setRunner hc, if_pos rfl]
      · intro r'
        exact hcount.keepsOthers_setRunner hc r'

/-- `Handle` refines the server of single runs. -/
theorem handle_refines (remote : Remote) (task : WorkflowTask) (hs : s.Sound) :
    Refines task.runId s (h.handle remote s task)
      (h.serve remote (s.resident task.runId) task) := by
  unfold handle serve
  cases h.workflows task.workflowType with
  | none => exact .respond rfl
  | some fn =>
    dsimp only
    generalize assembleHistory remote.stub h.ns task.workflowId task.runId remote.pageFuel
      task.page = assembled
    obtain _ | e | events := assembled
    · exact ⟨rfl, rfl, rfl, .rfl⟩
    · exact ⟨rfl, rfl, rfl, .rfl⟩
    · exact route_refines hs fn events

theorem handle_sound (remote : Remote) (task : WorkflowTask) (hs : s.Sound) :
    (h.handle remote s task).state.Sound :=
  handle_cached (fun _ _ _ _ => trivial) hs (fun _ _ _ _ _ => trivial) fun _ _ _ _ _ _ _ => trivial

/-- What the server sees of consecutive tasks, each under the run it is a task of. -/
def answers (h : TaskHandler σ) : HandlerState σ → List (Remote × WorkflowTask) →
    List (String × List Response × Exit)
  | _, [] => []
  | s, (remote, task) :: tasks =>
    let out := h.handle remote s task
    (task.runId, out.sent, out.exit) :: answers h out.state tasks

/-- What it sees of the tasks of one run served on its own. `evicted n` says that the resident
runner was dropped before the `n`-th of them. -/
def answersAlone (h : TaskHandler σ) (evicted : Nat → Bool) :
    Option (Runner σ) → List (Remote × WorkflowTask) → List (List Response × Exit)
  | _, [] => []
  | resident, (remote, task) :: tasks =>
    let x := h.serve remote (if evicted 0 then none else resident) task
    (x.sent, x.exit) :: answersAlone h (fun n => evicted (n + 1)) x.resident tasks

/-- The resident runner of a run, unless the cache has dropped it. -/
def Keeps (s : HandlerState σ) (run : String) (resident : Option (Runner σ)) : Prop :=
  s.resident run = resident ∨ s.cache.capacity ≠ 0 ∧ s.resident run = none

theorem Keeps.handle_other {run : String} {resident : Option (Runner σ)} (hs : s.Sound)
    (hk : Keeps s run resident) (hrun : run ≠ task.runId) :
    Keeps (h.handle remote s task).state run resident := by
  obtain ⟨hcap, hothers⟩ := (h.handle_refines remote task hs).others
  unfold Keeps
  rw [hcap]
  rcases hothers run hrun with he | ⟨hc, hn⟩
  · rw [he]
    exact hk
  · exact .inr ⟨hc, hn⟩

theorem answers_isolated_from (hs : s.Sound) (tasks : List (Remote × WorkflowTask)) (run : String)
    (resident : Option (Runner σ)) (hk : Keeps s run resident) :
    ∃ evicted : Nat → Bool, (s.cache.capacity = 0 → ∀ n, evicted n = false) ∧
      ((h.answers s tasks).filter (·.1 = run)).map Prod.snd =
        h.answersAlone evicted resident (tasks.filter (·.2.runId = run)) := by
  induction tasks generalizing s resident with
  | nil => exact ⟨fun _ => false, fun _ _ => rfl, rfl⟩
  | cons t tasks ih =>
    obtain ⟨remote, task⟩ := t
    have href := h.handle_refines remote task hs
    have hsound := h.handle_sound remote task hs
    by_cases hrun : task.runId = run
    · subst hrun
      obtain ⟨evicted, hfew, hrest⟩ := ih hsound _ (.inl href.resident)
      rw [href.others.capacity] at hfew
      -- the runner was dropped before this task, or was there
      obtain ⟨lost, hlost, hkept⟩ : ∃ lost : Bool, (s.cache.capacity = 0 → lost = false) ∧
          s.resident task.runId = if lost then none else resident := by
        rcases hk with hk | ⟨hc, hk⟩
        · exact ⟨false, fun _ => rfl, hk⟩
        · exact ⟨true, fun h => absurd h hc, hk⟩
      refine ⟨fun n => n.casesOn lost evicted, fun hc n => ?_, ?_⟩
      · cases n with
        | zero => exact hlost hc
        | succ n => exact hfew hc n
      · simp only [answers, List.filter_cons, decide_true, if_true, List.map_cons, hrest,
          answersAlone, href.sent, href.exit]
        rw [hkept]
        rfl
    · obtain ⟨evicted, hfew, hrest⟩ := ih hsound resident (hk.handle_other hs (Ne.symm hrun))
      rw [href.others.capacity] at hfew
      refine ⟨evicted, hfew, ?_⟩
      simpa only [answers, List.filter_cons, hrun, decide_false, Bool.false_eq_true, if_false]
        using hrest

/-- However the tasks of several runs are mixed on a worker, those of each run are answered as if
the worker had served no other run, except that its resident runner may be dropped in between; and
an unbounded cache drops none. -/
theorem answers_isolated (h : TaskHandler σ) (capacity : Nat)
    (tasks : List (Remote × WorkflowTask)) (run : String) :
    ∃ evicted : Nat → Bool, (capacity = 0 → ∀ n, evicted n = false) ∧
      ((h.answers { cache := .empty capacity } tasks).filter (·.1 = run)).map Prod.snd =
        h.answersAlone evicted none (tasks.filter (·.2.runId = run)) :=
  answers_isolated_from (.empty capacity) tasks run none (.inl rfl)

end TaskHandler
end TemporalSdk
