import TemporalSdk.Agreement
import TemporalSdk.Reporting
import TemporalSdk.RunInvariant

/-! Coherence of the sticky cache: a cached runner has absorbed exactly the events of its own
run up to its position, whatever sequence of tasks the handler has served. -/
namespace TemporalSdk

/-- The id of the last event, 0 when there is none. -/
def History.lastId (h : History) : Nat := (h.getLast?.map HistoryEvent.eventId).getD 0

@[simp] theorem History.lastId_concat (h : History) (e : HistoryEvent) :
    History.lastId (h ++ [e]) = e.eventId := by
  simp [History.lastId]

theorem scanHistory_lastEventId (h : History) : (scanHistory h).lastEventId = h.lastId := by
  induction h using List.reverseRecOn with
  | nil => rfl
  | append_singleton h e _ =>
    rw [scanHistory, List.foldl_append, List.foldl_cons, List.foldl_nil, History.lastId_concat,
      scanStep]
    dsimp only
    split
    · rfl
    · exact Prescan.scanEvent_lastEventId _ e

namespace Runner

variable {σ : Type}

theorem invoke_scan (fuel : Nat) (r : Runner σ) (p : Program σ) :
    (r.invoke fuel p).1.scan = r.scan := by
  unfold invoke
  split
  · rfl
  · next h => exact (runHandler_frame h).scan

theorem applyEventToState_lastEventId (r : Runner σ) (e : HistoryEvent) :
    (r.applyEventToState e).scan.lastEventId = r.scan.lastEventId := by
  obtain ⟨eid, a⟩ := e
  cases a with
  | workflowExecutionCancelRequested =>
    have hs := congrArg Prescan.lastEventId (Runner.foldl_setFuture_scan r.cancelFutures
      { r with scan := { r.scan with cancelRequested := true } })
    exact hs
  | _ => first
    | rfl
    | exact congrArg Prescan.lastEventId (r.resolveFuture_scan _ _)
    | (simp only [applyEventToState, Prescan.onActivity]; split <;> rfl)

theorem lastEventId_runInvariant (n : Nat) :
    RunInvariant fun r : Runner σ => r.scan.lastEventId = n where
  step _ _ hs h := by rw [step_scan hs, h]
  exec _ _ _ _ _ hx h := by rw [(Runner.exec_frame _ hx).scan, h]
  applied r ev h := by rw [r.applyEventToState_lastEventId ev, h]
  deadlocked _ h := h
  hung _ h := h
  escaped _ h := h

/-- A replay leaves the runner at the end of the history it was built on. -/
theorem replay_run_lastEventId (fuel : Nat) (info : WorkflowInfo) (isReplaying : Bool)
    (world : World σ) (fn : WorkflowFn σ) (h : History) :
    ((replay info isReplaying world fn h).run fuel).lastEventId = h.lastId :=
  (lastEventId_runInvariant h.lastId).run fuel (scanHistory_lastEventId h)

section Handlers

-- What every call of a handler keeps, the handling of messages and queries keeps.
variable {Q : Runner σ → Prop} {fuel : Nat} (hQ : ∀ r p, Q r → Q (r.invoke fuel p).1)
include hQ

theorem runQuery_keeps {r : Runner σ} (hr : Q r) (q : WorkflowQuery) : Q (r.runQuery fuel q).1 := by
  unfold runQuery
  split
  · exact hr
  · exact hQ _ _ hr

theorem runUpdate_keeps {r : Runner σ} (hr : Q r) (u : UpdateRequest) :
    Q (r.runUpdate fuel u).1 := by
  unfold runUpdate
  split
  · exact hr
  · exact hQ _ _ hr

theorem validateUpdate_keeps {r : Runner σ} (hr : Q r) (u : UpdateRequest) :
    Q (r.validateUpdate fuel u).1 := by
  unfold validateUpdate
  split
  · exact hr
  · exact hQ _ _ hr

theorem processMessage_keeps {r : Runner σ} (hr : Q r) (identity : String) (msg : TaskMessage) :
    Q (r.processMessage fuel identity msg).1 := by
  unfold processMessage
  split
  · exact hr
  · next u hu =>
    have hv := validateUpdate_keeps hQ hr u
    dsimp only
    split
    · next hx => rw [hx] at hv; exact hv
    · next hx => rw [hx] at hv; exact hv
    · next hx => rw [hx] at hv; exact hv
    · next hx =>
      rw [hx] at hv
      have hrun := runUpdate_keeps hQ hv u
      split <;> next hy => rw [hy] at hrun; exact hrun

theorem processMessages_keeps {r : Runner σ} (hr : Q r) (identity : String)
    (msgs : List TaskMessage) : Q (r.processMessages fuel identity msgs).1 := by
  induction msgs generalizing r with
  | nil => exact hr
  | cons msg msgs ih =>
    have hm := processMessage_keeps hQ hr identity msg
    unfold processMessages
    split
    · next hx => rw [hx] at hm; exact hm
    · next hx =>
      rw [hx] at hm
      exact ih hm

theorem answerQuery_keeps {r : Runner σ} (hr : Q r) (q : WorkflowQuery) :
    Q (r.answerQuery fuel q).1 := by
  have hq := runQuery_keeps hQ hr q
  unfold answerQuery
  split
  · exact hr
  · split <;> next hx => rw [hx] at hq; exact hq

theorem answerQueries_keeps {r : Runner σ} (hr : Q r) (qs : List (String × WorkflowQuery)) :
    Q (r.answerQueries fuel qs).1 := by
  induction qs generalizing r with
  | nil => exact hr
  | cons x qs ih =>
    obtain ⟨id, q⟩ := x
    have hm := answerQuery_keeps hQ hr q
    unfold answerQueries
    split
    · next hx => rw [hx] at hm; exact hm
    · next hx =>
      rw [hx] at hm
      have hrest := ih hm
      split <;> next hy => rw [hy] at hrest; exact hrest

end Handlers

end Runner

/-- The runner is what replaying a part of `evs` from scratch and then applying each later
event once, in order, makes of it; between events its coroutine is resumed and handlers are
called. -/
inductive Absorbed {σ : Type} (h : TaskHandler σ) : Runner σ → History → Prop
  | replayed (info : WorkflowInfo) (isReplaying : Bool) (fn : WorkflowFn σ) (evs : History) :
    Absorbed h ((Runner.replay info isReplaying h.world fn evs).run h.fuel) evs
  | applied {r : Runner σ} {evs : History} {e : HistoryEvent} :
    Absorbed h r evs → r.lastEventId < e.eventId → Absorbed h (r.applyOne e) (evs ++ [e])
  | cleared {r : Runner σ} {evs : History} :
    Absorbed h r evs → Absorbed h { r with commands := [], producedCommands := [] } evs
  | resumed {r : Runner σ} {evs : History} :
    Absorbed h r evs → Absorbed h (r.resumeCoroutine h.fuel) evs
  | invoked {r : Runner σ} {evs : History} (p : Program σ) :
    Absorbed h r evs → Absorbed h (r.invoke h.fuel p).1 evs

namespace Absorbed

variable {σ : Type} {h : TaskHandler σ} {r : Runner σ} {evs : History}

theorem lastEventId (ha : Absorbed h r evs) : r.lastEventId = evs.lastId := by
  induction ha with
  | replayed info isReplaying fn evs => exact Runner.replay_run_lastEventId ..
  | applied ha _ ih => rw [History.lastId_concat]; rfl
  | cleared ha ih => exact ih
  | @resumed r evs ha ih =>
    change (r.resumeCoroutine h.fuel).scan.lastEventId = _
    rw [Runner.resumeCoroutine_scan]
    exact ih
  | @invoked r evs p ha ih =>
    change (r.invoke h.fuel p).1.scan.lastEventId = _
    rw [Runner.invoke_scan]
    exact ih

/-- Events with increasing ids above the position are absorbed in order. -/
theorem applyEvents (ha : Absorbed h r evs) {more : History}
    (hinc : more.Pairwise fun a b => a.eventId < b.eventId)
    (hlt : ∀ e ∈ more, r.lastEventId < e.eventId) :
    Absorbed h (r.applyEvents more) (evs ++ more) := by
  induction more generalizing r evs with
  | nil =>
    rw [List.append_nil]
    exact ha
  | cons e more ih =>
    have he : r.scan.lastEventId < e.eventId := hlt e List.mem_cons_self
    obtain ⟨hfirst, hrest⟩ := List.pairwise_cons.mp hinc
    rw [r.applyEvents_cons_new he, show evs ++ e :: more = (evs ++ [e]) ++ more by simp]
    exact ih (ha.applied he) hrest fun x hx => hfirst x hx

theorem applyAndResume (ha : Absorbed h r evs) {more : History}
    (hinc : more.Pairwise fun a b => a.eventId < b.eventId)
    (hlt : ∀ e ∈ more, r.lastEventId < e.eventId) :
    Absorbed h (r.applyAndResume h.fuel more) (evs ++ more) := by
  have happ := ha.cleared.applyEvents hinc hlt
  unfold Runner.applyAndResume
  dsimp only
  split
  · exact happ.resumed
  · exact happ

end Absorbed

namespace HandlerState

variable {σ : Type} {s : HandlerState σ} {addr : Nat} {r : Runner σ}

/-- The state after a lookup in the cache. -/
def touch (s : HandlerState σ) (runId : String) : HandlerState σ :=
  { s with cache := (s.cache.get runId).2 }

@[simp] theorem setRunner_runners_self : (s.setRunner addr r).runners addr = some r :=
  PartialMap.insert_self _ _ _

theorem setRunner_runners_of_ne {a : Nat} (h : a ≠ addr) :
    (s.setRunner addr r).runners a = s.runners a :=
  PartialMap.insert_of_ne _ h _

@[simp] theorem allocate_runners_self : (s.allocate r).runners s.nextRunner = some r :=
  PartialMap.insert_self _ _ _

theorem allocate_runners_of_ne {a : Nat} (h : a ≠ s.nextRunner) :
    (s.allocate r).runners a = s.runners a :=
  PartialMap.insert_of_ne _ h _

end HandlerState

/-- Every cached pointer leads to a runner of its own, which satisfies `P` for its run. -/
structure HandlerState.Cached {σ : Type} (P : String → Runner σ → Prop) (s : HandlerState σ) :
    Prop where
  allocated : ∀ addr r, s.runners addr = some r → addr < s.nextRunner
  holds : ∀ runId addr, s.cache.peek runId = some addr →
    ∃ r, s.runners addr = some r ∧ P runId r
  apart : ∀ a b addr, s.cache.peek a = some addr → s.cache.peek b = some addr → a = b

namespace HandlerState.Cached

variable {σ : Type} {P : String → Runner σ → Prop} {s : HandlerState σ}

theorem empty (capacity : Nat) : Cached P { cache := .empty capacity } where
  allocated _ _ h := by cases h
  holds _ _ h := by cases h
  apart _ _ _ h := by cases h

/-- Only the runners, the next address and what is cached matter. -/
theorem congr {s' : HandlerState σ} (hs : s.Cached P) (hr : s'.runners = s.runners)
    (hn : s'.nextRunner = s.nextRunner) (hc : ∀ k, s'.cache.peek k = s.cache.peek k) :
    s'.Cached P where
  allocated addr r h := by
    rw [hr] at h
    rw [hn]
    exact hs.allocated addr r h
  holds runId addr h := by
    rw [hr]
    exact hs.holds runId addr (hc runId ▸ h)
  apart a b addr ha hb := hs.apart a b addr (hc a ▸ ha) (hc b ▸ hb)

theorem lt_nextRunner (hs : s.Cached P) {runId : String} {addr : Nat}
    (h : s.cache.peek runId = some addr) : addr < s.nextRunner := by
  obtain ⟨r, hr, -⟩ := hs.holds runId addr h
  exact hs.allocated addr r hr

/-- Changing a runner in place, when it still satisfies `P` for the run that caches it. -/
theorem setRunner (hs : s.Cached P) {addr : Nat} {r : Runner σ} (hlt : addr < s.nextRunner)
    (hP : ∀ runId, s.cache.peek runId = some addr → P runId r) :
    (s.setRunner addr r).Cached P where
  allocated a q h := by
    by_cases ha : a = addr
    · exact ha ▸ hlt
    · rw [setRunner_runners_of_ne ha] at h
      exact hs.allocated a q h
  holds runId a h := by
    by_cases ha : a = addr
    · subst ha
      exact ⟨r, PartialMap.insert_self _ _ _, hP runId h⟩
    · rw [setRunner_runners_of_ne ha]
      exact hs.holds runId a h
  apart := hs.apart

theorem allocate (hs : s.Cached P) (r : Runner σ) : (s.allocate r).Cached P where
  allocated a q h := by
    by_cases ha : a = s.nextRunner
    · simp [HandlerState.allocate, ha]
    · rw [allocate_runners_of_ne ha] at h
      exact Nat.lt_succ_of_lt (hs.allocated a q h)
  holds runId a h := by
    have ha : a ≠ s.nextRunner := Nat.ne_of_lt (hs.lt_nextRunner h)
    rw [allocate_runners_of_ne ha]
    exact hs.holds runId a h
  apart := hs.apart

theorem erase (hs : s.Cached P) (runId : String) : (s.erase runId).Cached P := by
  have hpeek : ∀ {k addr}, (s.erase runId).cache.peek k = some addr →
      s.cache.peek k = some addr := by
    intro k addr h
    rw [HandlerState.erase, LruCache.peek_erase] at h
    split at h
    · cases h
    · exact h
  exact ⟨hs.allocated, fun k addr h => hs.holds k addr (hpeek h),
    fun a b addr ha hb => hs.apart a b addr (hpeek ha) (hpeek hb)⟩

/-- Changing the runner of a run that is dropped. -/
theorem setRunner_erase (hs : s.Cached P) {runId : String} {addr : Nat} (r : Runner σ)
    (hrun : s.cache.peek runId = some addr) : ((s.setRunner addr r).erase runId).Cached P := by
  have hset : (s.setRunner addr r).Cached fun k q => k ≠ runId → P k q := by
    have hweak : s.Cached fun k q => k ≠ runId → P k q :=
      ⟨hs.allocated, fun k a hk => (hs.holds k a hk).imp fun _ hq => ⟨hq.1, fun _ => hq.2⟩,
        hs.apart⟩
    exact hweak.setRunner (hs.lt_nextRunner hrun) fun k hk hne =>
      absurd (hs.apart k runId addr hk hrun) hne
  have herased := hset.erase runId
  refine ⟨herased.allocated, fun k a hk => ?_, herased.apart⟩
  obtain ⟨q, hq, hP⟩ := herased.holds k a hk
  refine ⟨q, hq, hP ?_⟩
  rintro rfl
  simp [HandlerState.erase, LruCache.peek_erase] at hk

/-- Caching a runner under its run, at an address nothing else is cached at. -/
theorem put (hs : s.Cached P) {runId : String} {addr : Nat} {r : Runner σ}
    (hr : s.runners addr = some r) (hP : P runId r)
    (hnew : ∀ k, s.cache.peek k ≠ some addr) :
    { s with cache := s.cache.put runId addr }.Cached P := by
  have hself : ∀ a, (s.cache.put runId addr).peek runId = some a → a = addr := by
    intro a h
    rw [LruCache.peek_put_self, Option.some.injEq] at h
    exact h.symm
  refine ⟨hs.allocated, fun k a h => ?_, fun j k a hj hk => ?_⟩
  · by_cases hrun : k = runId
    · subst hrun
      rw [hself a h]
      exact ⟨r, hr, hP⟩
    · exact hs.holds k a (s.cache.peek_put_of_ne hrun _ _ h)
  · by_cases hjr : j = runId <;> by_cases hkr : k = runId
    · rw [hjr, hkr]
    · subst hjr
      have hold := s.cache.peek_put_of_ne hkr _ _ hk
      rw [hself a hj] at hold
      exact absurd hold (hnew k)
    · subst hkr
      have hold := s.cache.peek_put_of_ne hjr _ _ hj
      rw [hself a hk] at hold
      exact absurd hold (hnew j)
    · exact hs.apart j k a (s.cache.peek_put_of_ne hjr _ _ hj) (s.cache.peek_put_of_ne hkr _ _ hk)

end HandlerState.Cached

namespace TaskHandler

variable {σ : Type} {h : TaskHandler σ} {P : String → Runner σ → Prop} {s : HandlerState σ}
  {remote : Remote} {task : WorkflowTask}

/-- The cached runner of the task's run stands right before the task's first event. -/
def Fits (s : HandlerState σ) (task : WorkflowTask) (events : History) (addr : Nat)
    (r : Runner σ) : Prop :=
  s.cache.peek task.runId = some addr ∧ s.runners addr = some r ∧
    firstEventId events = r.lastEventId + 1

theorem lookupCached_of_fits {events : History} {addr : Nat} {r : Runner σ}
    (hf : isFullHistory events = false) (hfit : Fits s task events addr r) :
    lookupCached s task.runId events false = (some addr, s.touch task.runId) := by
  obtain ⟨hc, hr, hid⟩ := hfit
  have hserves : Serves s events false addr = true := by simp [Serves, hr, hid]
  simp only [lookupCached_of_continuation hf, hc, Option.filter, hserves, if_true,
    HandlerState.touch]

theorem lookupCached_of_not_fits {events : History} (hf : isFullHistory events = false)
    (hfit : ∀ addr r, ¬ Fits s task events addr r) :
    lookupCached s task.runId events false = (none, s.touch task.runId) := by
  have hnone : (s.cache.peek task.runId).filter (Serves s events false) = none := by
    rw [Option.filter_eq_none_iff]
    intro addr hc hserves
    cases hr : s.runners addr with
    | none => simp [Serves, hr] at hserves
    | some r => exact hfit addr r ⟨hc, hr, by simpa [Serves, hr] using hserves⟩
  rw [lookupCached_of_continuation hf, hnone, HandlerState.touch]

theorem route_full {fn : WorkflowFn σ} {events : History} (hf : isFullHistory events = true)
    (hq : task.query = none) :
    h.route remote s fn task events = h.replayTask remote s fn task events := by
  simp only [route, hq, lookupCached_of_full hf, hf, if_true]

theorem route_continuation {fn : WorkflowFn σ} {events : History} {addr : Nat} {r : Runner σ}
    (hf : isFullHistory events = false) (hq : task.query = none)
    (hfit : Fits s task events addr r) :
    h.route remote s fn task events =
      h.continueTask remote (s.touch task.runId) task addr r events := by
  have hr : (s.touch task.runId).runners addr = some r := hfit.2.1
  simp only [route, hq, Option.isSome_none, lookupCached_of_fits hf hfit, hr]

theorem route_reset {fn : WorkflowFn σ} {events : History} (hf : isFullHistory events = false)
    (hq : task.query = none) (hfit : ∀ addr r, ¬ Fits s task events addr r) :
    h.route remote s fn task events = respond remote (s.touch task.runId)
      (.workflowTaskFailed task.taskToken h.identity .resetStickyTaskQueue none) := by
  simp only [route, hq, Option.isSome_none, lookupCached_of_not_fits hf hfit, hf,
    Bool.false_eq_true, if_false]

/-- A query is answered by some runner, or not at all. -/
theorem route_query {fn : WorkflowFn σ} {events : History} {q : WorkflowQuery}
    (hq : task.query = some q) :
    ∃ s', (s' = s ∨ s' = s.touch task.runId) ∧
      ((∃ exit, h.route remote s fn task events = ⟨s', [], exit⟩) ∨
        (∃ addr, h.route remote s fn task events = h.answerDirectQuery remote
          { s' with cacheHits := s'.cacheHits + 1 } task q addr) ∨
        (h.route remote s fn task events = h.answerDirectQuery remote s' task q none) ∨
        ∃ r, h.route remote s fn task events =
          h.answerDirectQuery remote (s'.allocate r) task q (some s'.nextRunner)) := by
  have hlookup : ∃ addr s', (s' = s ∨ s' = s.touch task.runId) ∧
      lookupCached s task.runId events true = (addr, s') := by
    cases hf : isFullHistory events with
    | true => exact ⟨none, s, .inl rfl, lookupCached_of_full hf⟩
    | false => exact ⟨_, _, .inr rfl, lookupCached_of_continuation hf⟩
  obtain ⟨addr, s', hs', hl⟩ := hlookup
  refine ⟨s', hs', ?_⟩
  simp only [route, hq, Option.isSome_some, hl]
  cases addr with
  | some addr => exact .inr (.inl ⟨addr, rfl⟩)
  | none =>
    cases h.buildRunnerForQuery remote fn task with
    | error exit => exact .inl ⟨exit, rfl⟩
    | ok x =>
      cases x with
      | none => exact .inr (.inr (.inl rfl))
      | some r => exact .inr (.inr (.inr ⟨r, rfl⟩))

theorem respond_cached {resp : Response} (hs : s.Cached P) :
    (respond remote s resp).state.Cached P := by
  rw [(respond_sent remote s resp).2]
  exact hs

section Invariant

-- `P` survives the calls of handlers.
variable (hP : ∀ k r p, P k r → P k (r.invoke h.fuel p).1)
include hP

theorem answerDirectQuery_cached {q : WorkflowQuery} {addr : Option Nat} (hs : s.Cached P) :
    (h.answerDirectQuery remote s task q addr).state.Cached P := by
  unfold answerDirectQuery
  split
  · exact respond_cached hs
  · next addr =>
    split
    · exact hs
    · next r hr =>
      have hset : (s.setRunner addr (r.answerQuery h.fuel q).1).Cached P := by
        refine hs.setRunner (hs.allocated addr r hr) fun k hk => ?_
        obtain ⟨r', hr', hPr⟩ := hs.holds k addr hk
        rw [hr, Option.some.injEq] at hr'
        subst hr'
        exact Runner.answerQuery_keeps (hP k) hPr q
      split
      · next hx => rw [hx] at hset; exact hset
      · next hx => rw [hx] at hset; exact respond_cached hset

theorem complete_cached {addr : Nat} {r : Runner σ} (hs : s.Cached P) (hlt : addr < s.nextRunner)
    (hr : ∀ k, s.cache.peek k = some addr → P k r) :
    (h.complete remote s task addr r).state.Cached P := by
  have hm := fun k hk => Runner.processMessages_keeps (hP k) (hr k hk) h.identity task.messages
  unfold complete
  split
  · next hx => rw [hx] at hm; exact hs.setRunner hlt hm
  · next r₁ messages hx =>
    rw [hx] at hm
    have hq := fun k hk => Runner.answerQueries_keeps (hP k) (hm k hk) task.queries
    split
    · next hy => rw [hy] at hq; exact hs.setRunner hlt hq
    · next r₂ results hy =>
      rw [hy] at hq
      have hset := hs.setRunner hlt hq
      dsimp only
      split
      · exact hset
      · dsimp only
        split
        · exact hset.erase _
        · exact hset

theorem replayTask_cached {fn : WorkflowFn σ} {events : History} (hs : s.Cached P)
    (hr : (h.replayed fn task events).deadlocked = false →
      P task.runId (h.replayed fn task events)) :
    (h.replayTask remote s fn task events).state.Cached P := by
  have hall : (h.withReplayed s fn task events).Cached P := by
    apply HandlerState.Cached.allocate
    exact hs.congr rfl rfl fun _ => rfl
  have hnew : ∀ k, s.cache.peek k ≠ some s.nextRunner := fun k hk =>
    absurd (hs.lt_nextRunner hk) (Nat.lt_irrefl _)
  by_cases hdead : (h.replayed fn task events).deadlocked = true
  · rw [replayTask_eq, if_pos hdead]
    exact respond_cached (hall.erase _)
  · have hr := hr (Bool.eq_false_iff.mpr hdead)
    rcases h.replayTask_cases remote s fn task events with
      ht | ⟨exit, ht⟩ | ⟨mismatch, -, ht⟩ | ⟨-, ht⟩ <;> rw [ht]
    · exact respond_cached (hall.erase _)
    · exact hall
    · unfold failNondeterministic
      dsimp only
      split <;> exact respond_cached hall
    · have hput := hall.put HandlerState.allocate_runners_self hr hnew
      refine complete_cached hP hput (Nat.lt_succ_self _) fun k hk => ?_
      rw [hput.apart k task.runId _ hk (LruCache.peek_put_self _ _ _)]
      exact hr

theorem continueTask_cached {addr : Nat} {r : Runner σ} {events : History} (hs : s.Cached P)
    (hrun : s.cache.peek task.runId = some addr)
    (hr : (r.applyAndResume h.fuel events).deadlocked = false →
      P task.runId (r.applyAndResume h.fuel events)) :
    (h.continueTask remote s task addr r events).state.Cached P := by
  have hhit : { s with cacheHits := s.cacheHits + 1 }.Cached P := hs.congr rfl rfl fun _ => rfl
  unfold continueTask
  dsimp only
  split
  · exact respond_cached (hhit.setRunner_erase _ hrun)
  · next hdead =>
    have hr := hr (Bool.eq_false_iff.mpr hdead)
    have hruns : ∀ k, s.cache.peek k = some addr → P k (r.applyAndResume h.fuel events) := by
      intro k hk
      rw [hs.apart k task.runId addr hk hrun]
      exact hr
    have hlt := hs.lt_nextRunner hrun
    exact complete_cached hP (hhit.setRunner hlt hruns) hlt hruns

/-- A call keeps `P` of the cached runners if the runner of a full history satisfies it and a
continuation that fits keeps it; a runner that deadlocks is not cached any more. -/
theorem handle_cached (hs : s.Cached P)
    (hreplay : ∀ fn events, assembleHistory remote.stub h.ns task.workflowId task.runId
        remote.pageFuel task.page = some (.ok events) → isFullHistory events = true →
      (h.replayed fn task events).deadlocked = false → P task.runId (h.replayed fn task events))
    (hcontinue : ∀ events r, assembleHistory remote.stub h.ns task.workflowId task.runId
        remote.pageFuel task.page = some (.ok events) → isFullHistory events = false →
      firstEventId events = r.lastEventId + 1 → P task.runId r →
      (r.applyAndResume h.fuel events).deadlocked = false →
      P task.runId (r.applyAndResume h.fuel events)) :
    (h.handle remote s task).state.Cached P := by
  unfold handle
  split
  · exact respond_cached hs
  · next fn hw =>
    split
    · exact hs
    · exact hs
    · next events ha =>
      have hget : (s.touch task.runId).Cached P :=
        hs.congr rfl rfl fun k => s.cache.peek_get _ k
      cases hq : task.query with
      | some q =>
        obtain ⟨s', hs', hcases⟩ := h.route_query hq
        have hc : s'.Cached P := by
          rcases hs' with rfl | rfl
          · exact hs
          · exact hget
        rcases hcases with ⟨exit, hx⟩ | ⟨addr, hx⟩ | hx | ⟨r, hx⟩ <;> rw [hx]
        · exact hc
        · exact answerDirectQuery_cached hP (hc.congr rfl rfl fun _ => rfl)
        · exact answerDirectQuery_cached hP hc
        · exact answerDirectQuery_cached hP (hc.allocate r)
      | none =>
        cases hf : isFullHistory events with
        | true =>
          rw [h.route_full hf hq]
          exact replayTask_cached hP hs (hreplay fn events ha hf)
        | false =>
          by_cases hfit : ∃ addr r, Fits s task events addr r
          · obtain ⟨addr, r, hfit⟩ := hfit
            rw [h.route_continuation hf hq hfit]
            obtain ⟨q, hq, hPq⟩ := hs.holds task.runId addr hfit.1
            rw [hfit.2.1, Option.some.injEq] at hq
            subst hq
            exact continueTask_cached hP hget ((s.cache.peek_get _ _).trans hfit.1)
              (hcontinue events r ha hf hfit.2.2 hPq)
          · rw [h.route_reset hf hq fun addr r hx => hfit ⟨addr, r, hx⟩]
            exact respond_cached hget

end Invariant
end TaskHandler

/-- The history a server keeps of one run: numbered from 1, with one started event. -/
structure RunHistory where
  events : History
  numbered : ∀ i e, events[i]? = some e → e.eventId = i + 1
  startedFirst : ∀ i, TaskHandler.isFullHistory (events.drop i) = true → i = 0

namespace RunHistory

variable (H : RunHistory)

/-- A contiguous part, as a task delivers it. -/
def block (i n : Nat) : History := (H.events.drop i).take n

theorem getElem?_block {i n j : Nat} {e : HistoryEvent} (h : (H.block i n)[j]? = some e) :
    j < n ∧ e.eventId = i + j + 1 := by
  rw [block, List.getElem?_take] at h
  split at h
  · next hj =>
    rw [List.getElem?_drop] at h
    exact ⟨hj, H.numbered _ e h⟩
  · cases h

theorem block_increasing (i n : Nat) :
    (H.block i n).Pairwise fun a b => a.eventId < b.eventId := by
  rw [List.pairwise_iff_getElem]
  intro a b ha hb hab
  have h₁ := (H.getElem?_block (List.getElem?_eq_getElem ha)).2
  have h₂ := (H.getElem?_block (List.getElem?_eq_getElem hb)).2
  omega

theorem lt_of_mem_block {i n : Nat} {e : HistoryEvent} (h : e ∈ H.block i n) : i < e.eventId := by
  obtain ⟨j, hj⟩ := List.getElem?_of_mem h
  have hid := (H.getElem?_block hj).2
  omega

theorem lastId_take (n : Nat) : History.lastId (H.events.take n) = min n H.events.length := by
  rw [History.lastId, List.getLast?_eq_getElem?, List.length_take]
  by_cases h0 : min n H.events.length = 0
  · have hnil : H.events.take n = [] := List.eq_nil_of_length_eq_zero (by rw [List.length_take, h0])
    rw [hnil, h0]
    rfl
  · have hlt : min n H.events.length - 1 < H.events.length := by omega
    rw [List.getElem?_take, if_pos (by omega), List.getElem?_eq_getElem hlt, Option.map_some,
      Option.getD_some, H.numbered _ _ (List.getElem?_eq_getElem hlt)]
    omega

theorem take_lastId (n : Nat) :
    H.events.take (History.lastId (H.events.take n)) = H.events.take n := by
  rw [H.lastId_take, List.take_eq_take_iff]
  omega

/-- A part that starts with the started event is a front of the history. -/
theorem block_of_full {i n : Nat} (h : TaskHandler.isFullHistory (H.block i n) = true) :
    H.block i n = H.events.take n := by
  have hi : i = 0 := by
    apply H.startedFirst
    unfold TaskHandler.isFullHistory at h ⊢
    cases n with
    | zero => simp [block] at h
    | succ n =>
      rw [block, List.head?_take, if_neg (by omega)] at h
      exact h
  rw [block, hi, List.drop_zero]

theorem eq_of_firstEventId_block {i n m : Nat}
    (h : TaskHandler.firstEventId (H.block i n) = m + 1) : i = m := by
  rw [TaskHandler.firstEventId, List.head?_eq_getElem?] at h
  cases he : (H.block i n)[0]? with
  | none => simp [he] at h
  | some e =>
    have hid := (H.getElem?_block he).2
    simp only [he, Option.map_some, Option.getD_some] at h
    omega

end RunHistory

namespace TaskHandler

variable {σ : Type} (h : TaskHandler σ)

/-- The runner has absorbed the events of the run up to its position. -/
def AtPosition (hist : String → RunHistory) (runId : String) (r : Runner σ) : Prop :=
  Absorbed h r ((hist runId).events.take r.lastEventId)

/-- What a task delivers is a contiguous part of its run's history. -/
def Delivers (hist : String → RunHistory) (remote : Remote) (task : WorkflowTask) : Prop :=
  ∀ events, assembleHistory remote.stub h.ns task.workflowId task.runId remote.pageFuel task.page =
    some (.ok events) → ∃ i n, events = (hist task.runId).block i n

variable {h} {hist : String → RunHistory} {remote : Remote} {s : HandlerState σ}
  {task : WorkflowTask}

theorem AtPosition.of_absorbed {runId : String} {r : Runner σ} {n : Nat}
    (ha : Absorbed h r ((hist runId).events.take n)) : h.AtPosition hist runId r := by
  unfold AtPosition
  rw [ha.lastEventId, (hist runId).take_lastId]
  exact ha

theorem AtPosition.invoke {runId : String} {r : Runner σ} (hr : h.AtPosition hist runId r)
    (p : Program σ) : h.AtPosition hist runId (r.invoke h.fuel p).1 :=
  .of_absorbed (Absorbed.invoked p hr)

theorem AtPosition.applyAndResume {runId : String} {r : Runner σ} {i n : Nat}
    (hr : h.AtPosition hist runId r)
    (hfirst : firstEventId ((hist runId).block i n) = r.lastEventId + 1) :
    h.AtPosition hist runId (r.applyAndResume h.fuel ((hist runId).block i n)) := by
  obtain rfl := (hist runId).eq_of_firstEventId_block hfirst
  refine .of_absorbed (n := r.lastEventId + n) ?_
  rw [List.take_add]
  exact Absorbed.applyAndResume hr ((hist runId).block_increasing _ n)
    fun e he => (hist runId).lt_of_mem_block he

theorem handle_atPosition (hd : h.Delivers hist remote task)
    (hs : s.Cached (h.AtPosition hist)) :
    (h.handle remote s task).state.Cached (h.AtPosition hist) := by
  refine handle_cached (fun _ _ p hr => hr.invoke p) hs ?_ ?_
  · intro fn events ha hf _
    obtain ⟨i, n, rfl⟩ := hd events ha
    rw [(hist task.runId).block_of_full hf]
    exact .of_absorbed (Absorbed.replayed _ _ fn _)
  · intro events r ha _ hfirst hr _
    obtain ⟨i, n, rfl⟩ := hd events ha
    exact hr.applyAndResume hfirst

/-- Nothing is cached, evicted or moved to another position. -/
def SamePositions (s s' : HandlerState σ) : Prop :=
  (∀ k, s'.cache.peek k = s.cache.peek k) ∧
    ∀ addr r, s.runners addr = some r →
      ∃ r', s'.runners addr = some r' ∧ r'.lastEventId = r.lastEventId

theorem SamePositions.of_runners {s' : HandlerState σ}
    (hc : ∀ k, s'.cache.peek k = s.cache.peek k) (hr : s'.runners = s.runners) :
    SamePositions s s' :=
  ⟨hc, fun addr r h => ⟨r, by rw [hr, h], rfl⟩⟩

theorem SamePositions.trans {s₁ s₂ s₃ : HandlerState σ} (h₁ : SamePositions s₁ s₂)
    (h₂ : SamePositions s₂ s₃) : SamePositions s₁ s₃ := by
  refine ⟨fun k => (h₂.1 k).trans (h₁.1 k), fun addr r hr => ?_⟩
  obtain ⟨r₂, hr₂, he₂⟩ := h₁.2 addr r hr
  obtain ⟨r₃, hr₃, he₃⟩ := h₂.2 addr r₂ hr₂
  exact ⟨r₃, hr₃, he₃.trans he₂⟩

theorem SamePositions.allocate {P : String → Runner σ → Prop} (hs : s.Cached P) (r : Runner σ) :
    SamePositions s (s.allocate r) := by
  refine ⟨fun _ => rfl, fun addr q hq => ⟨q, ?_, rfl⟩⟩
  have hne : addr ≠ s.nextRunner := Nat.ne_of_lt (hs.allocated addr q hq)
  rw [HandlerState.allocate_runners_of_ne hne, hq]

theorem answerQuery_lastEventId (fuel : Nat) (r : Runner σ) (q : WorkflowQuery) :
    (r.answerQuery fuel q).1.lastEventId = r.lastEventId :=
  Runner.answerQuery_keeps (Q := fun x => x.lastEventId = r.lastEventId)
    (fun x p hx => (congrArg Prescan.lastEventId (x.invoke_scan fuel p)).trans hx) rfl q

theorem answerDirectQuery_samePositions {q : WorkflowQuery} {addr : Option Nat} :
    SamePositions s (h.answerDirectQuery remote s task q addr).state := by
  unfold answerDirectQuery
  split
  · rw [(respond_sent _ _ _).2]
    exact .of_runners (fun _ => rfl) rfl
  · next addr =>
    split
    · exact .of_runners (fun _ => rfl) rfl
    · next r hr =>
      have hset : SamePositions s (s.setRunner addr (r.answerQuery h.fuel q).1) := by
        refine ⟨fun _ => rfl, fun a x hx => ?_⟩
        by_cases ha : a = addr
        · subst ha
          rw [hr, Option.some.injEq] at hx
          subst hx
          exact ⟨_, HandlerState.setRunner_runners_self, answerQuery_lastEventId _ r q⟩
        · exact ⟨x, by rw [HandlerState.setRunner_runners_of_ne ha, hx], rfl⟩
      split
      · next hx => rw [hx] at hset; exact hset
      · next hx => rw [hx] at hset; rw [(respond_sent _ _ _).2]; exact hset

theorem route_query_samePositions {P : String → Runner σ → Prop} {fn : WorkflowFn σ}
    {events : History} {q : WorkflowQuery} (hs : s.Cached P) (hq : task.query = some q) :
    SamePositions s (h.route remote s fn task events).state := by
  have htouch : SamePositions s (s.touch task.runId) :=
    .of_runners (fun k => s.cache.peek_get _ k) rfl
  obtain ⟨s', hs', hcases⟩ := h.route_query hq
  have hsame : SamePositions s s' ∧ s'.Cached P := by
    rcases hs' with rfl | rfl
    · exact ⟨.of_runners (fun _ => rfl) rfl, hs⟩
    · exact ⟨htouch, hs.congr rfl rfl fun k => s.cache.peek_get _ k⟩
  rcases hcases with ⟨exit, hx⟩ | ⟨addr, hx⟩ | hx | ⟨r, hx⟩ <;> rw [hx]
  · exact hsame.1
  · exact hsame.1.trans (.trans (.of_runners (fun _ => rfl) rfl) answerDirectQuery_samePositions)
  · exact hsame.1.trans answerDirectQuery_samePositions
  · exact (hsame.1.trans (.allocate hsame.2 r)).trans answerDirectQuery_samePositions

variable (h) (hist remote s task)

/-- A continuation nothing cached fits changes no runner and is sent back for a full history. -/
def ResetsContinuation : Prop :=
  ∀ events, assembleHistory remote.stub h.ns task.workflowId task.runId remote.pageFuel task.page =
      some (.ok events) →
    task.query = none → isFullHistory events = false →
    (∀ addr r, ¬ Fits s task events addr r) →
      (h.handle remote s task).sent =
          [.workflowTaskFailed task.taskToken h.identity .resetStickyTaskQueue none] ∧
        (h.handle remote s task).state.runners = s.runners

/-- What the sticky cache promises about one call. -/
structure CoherentCall : Prop where
  absorbed : s.Cached (h.AtPosition hist)
  reset : h.workflows task.workflowType ≠ none → h.ResetsContinuation remote s task
  query : task.query ≠ none → SamePositions s (h.handle remote s task).state
  unregistered : h.workflows task.workflowType = none →
    (h.handle remote s task).state = s ∧
      (h.handle remote s task).sent = [.workflowTaskFailed task.taskToken h.identity .unspecified
        (some (makeApplicationFailure ("no workflow registered for type: " ++ task.workflowType)
          "NotRegisteredError" false))]

variable {h hist remote s task}

theorem handle_resetsContinuation (hw : h.workflows task.workflowType ≠ none) :
    h.ResetsContinuation remote s task := by
  intro events ha hq hf hfit
  obtain ⟨fn, hfn⟩ := Option.ne_none_iff_exists'.mp hw
  simp only [handle, hfn, ha, h.route_reset hf hq hfit, respond_sent, true_and]
  rfl

theorem handle_query_samePositions {P : String → Runner σ → Prop} (hs : s.Cached P)
    (hq : task.query ≠ none) : SamePositions s (h.handle remote s task).state := by
  obtain ⟨q, hq⟩ := Option.ne_none_iff_exists'.mp hq
  unfold handle
  split
  · rw [(respond_sent _ _ _).2]
    exact .of_runners (fun _ => rfl) rfl
  · split
    · exact .of_runners (fun _ => rfl) rfl
    · exact .of_runners (fun _ => rfl) rfl
    · exact route_query_samePositions hs hq

theorem handle_coherentCall (hs : s.Cached (h.AtPosition hist)) :
    h.CoherentCall hist remote s task where
  absorbed := hs
  reset := handle_resetsContinuation
  query := handle_query_samePositions hs
  unregistered hw := by
    simp only [handle, hw, respond_sent, true_and]

/-- Over any sequence of tasks, whatever the runs and the capacity, the cached runners stand at
a position of their own run; a continuation that fits nothing is reset, and a query moves
nothing. -/
theorem stickyCache_coherent (hist : String → RunHistory) (capacity : Nat)
    (tasks : List (Remote × WorkflowTask)) (hd : ∀ t ∈ tasks, h.Delivers hist t.1 t.2) :
    h.EachTask (h.CoherentCall hist) { cache := .empty capacity } tasks ∧
      (h.handleAll { cache := .empty capacity } tasks).Cached (h.AtPosition hist) := by
  obtain ⟨heach, hlast⟩ := EachTask.of_invariant h
    (fun t ht s hs => handle_atPosition (hd t ht) hs)
    (HandlerState.Cached.empty (P := h.AtPosition hist) capacity)
  exact ⟨EachTask.mono h (fun _ _ _ hs => handle_coherentCall hs) heach, hlast⟩

end TaskHandler

def orderEvents : History :=
  [⟨1, .workflowExecutionStarted "Order" [] []⟩, ⟨2, .other⟩, ⟨3, .other⟩,
    ⟨4, .workflowExecutionSignaled "done" []⟩, ⟨5, .other⟩, ⟨6, .other⟩]

/-- The server's history of an order that has been signaled. -/
def orderHistory : RunHistory where
  events := orderEvents
  numbered i e h := by
    have hi : i < 6 := (List.getElem?_eq_some_iff.mp h).1
    have hall : ∀ i < 6, orderEvents[i]?.map HistoryEvent.eventId = some (i + 1) := by decide
    have hid := hall i hi
    rw [h, Option.map_some, Option.some.injEq] at hid
    exact hid
  startedFirst i h := by
    by_cases hi : i < 6
    · have hall : ∀ i < 6, TaskHandler.isFullHistory (orderEvents.drop i) = true → i = 0 := by
        decide
      exact hall i hi h
    · rw [List.drop_eq_nil_of_le (Nat.not_lt.mp hi)] at h
      cases h

/-- A task with the events of `orderHistory` from `i` on. -/
def orderContinuation (workflowType : String) (i : Nat) : WorkflowTask :=
  { orderTask [] with workflowType, page := { events := orderHistory.block i 3 } }

theorem delivers_orderContinuation (workflowType : String) (i : Nat) :
    orderHandler.Delivers (fun _ => orderHistory) .accepting
      (orderContinuation workflowType i) := by
  intro events ha
  cases ha
  exact ⟨i, 3, rfl⟩

/-- A continuation of a workflow type that is not registered is not reset. -/
theorem continuation_not_reset_of_unregistered :
    orderHandler.Delivers (fun _ => orderHistory) .accepting (orderContinuation "Refund" 3) ∧
    ¬ orderHandler.EachTask orderHandler.ResetsContinuation { cache := .empty 0 }
        [(.accepting, orderContinuation "Refund" 3)] := by
  refine ⟨delivers_orderContinuation _ _, fun ⟨hreset, _⟩ => ?_⟩
  have hfit : ∀ addr r, ¬ TaskHandler.Fits { cache := .empty 0 } (orderContinuation "Refund" 3)
      (orderHistory.block 3 3) addr (r : Runner Unit) := by
    rintro addr r ⟨hc, -⟩
    cases hc
  obtain ⟨hsent, -⟩ := hreset _ rfl rfl rfl hfit
  cases hsent

theorem stickyCache_coherent_for_order :
    orderHandler.EachTask (orderHandler.CoherentCall fun _ => orderHistory) { cache := .empty 1 }
        [(.accepting, orderContinuation "Order" 0), (.accepting, orderContinuation "Order" 3),
          (.accepting, orderContinuation "Order" 3)] ∧
      (orderHandler.handleAll { cache := .empty 1 }
        [(.accepting, orderContinuation "Order" 0), (.accepting, orderContinuation "Order" 3),
          (.accepting, orderContinuation "Order" 3)]).Cached
        (orderHandler.AtPosition fun _ => orderHistory) := by
  apply TaskHandler.stickyCache_coherent
  intro t ht
  simp only [List.mem_cons, List.not_mem_nil, or_false] at ht
  rcases ht with rfl | rfl | rfl <;> exact delivers_orderContinuation _ _

end TemporalSdk
