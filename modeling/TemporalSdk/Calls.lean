import TemporalSdk.StickyCache

/-! A call of `Handle` taken apart into its steps: the lookup under `cache_mu_`, the stretches in
which the runner's coroutine or one of its handlers runs, and the response. -/
namespace TemporalSdk

/-- What a call does with a runner: it has handed its coroutine the turn, or it runs one of its
handlers on the poller's thread. -/
inductive Use where
  | resume | handler
  deriving DecidableEq, Repr, Inhabited

/-- A stretch of a call on its runner: when it is left out, what is done before the coroutine or
the handler starts, and what that leaves. -/
structure Stretch (σ : Type) where
  use : Use
  skip : Runner σ → Bool
  start : Runner σ → Runner σ
  finish : Runner σ → Runner σ

def Stretch.effect {σ : Type} (r : Runner σ) (x : Stretch σ) : Runner σ :=
  if x.skip r then r else x.finish (x.start r)

/-- The stretch is left out once the coroutine has not yielded in time. -/
def Stretch.Stops {σ : Type} (x : Stretch σ) : Prop :=
  ∀ r : Runner σ, r.deadlocked = true → x.skip r = true

theorem Stretch.foldl_effect_of_deadlocked {σ : Type} {todo : List (Stretch σ)} {r : Runner σ}
    (hstop : ∀ x ∈ todo, x.Stops) (hd : r.deadlocked = true) :
    todo.foldl Stretch.effect r = r := by
  induction todo with
  | nil => rfl
  | cons x rest ih =>
    rw [List.foldl_cons, Stretch.effect, if_pos (hstop x List.mem_cons_self r hd)]
    exact ih fun y hy => hstop y (List.mem_cons_of_mem _ hy)

namespace Runner

variable {σ : Type}

/-- `ApplyAndResume`. -/
def applyStretches (fuel : Nat) (events : History) : List (Stretch σ) :=
  [{ use := .resume
     skip := fun _ => false
     start := fun r => { r with commands := [], producedCommands := [] }.applyEvents events
     finish := fun r => if r.started then r.resumeCoroutine fuel else r }]

/-- One round of the loop of `ReapplyHistoricalUpdates`. -/
def reapplyStretches (fuel : Nat) : ReplayStep → List (Stretch σ)
  | .update name args =>
    [{ use := .handler
       skip := fun r => r.halted || (r.updateHandlers name).isNone
       start := id
       finish := fun r => r.reapplyUpdate fuel name args },
     { use := .resume, skip := halted, start := id, finish := resumeCoroutine fuel }]
  | .event ev =>
    [{ use := .resume
       skip := halted
       start := fun r => r.applyEventToState ev
       finish := fun r => if r.halted then r else r.resumeCoroutine fuel }]

/-- `Run`. -/
def runStretches (fuel : Nat) (timeline : List ReplayStep) : List (Stretch σ) :=
  { use := .resume
    skip := fun _ => false
    start := fun r => { r with commands := [], producedCommands := [], started := true }
    finish := resumeCoroutine fuel } :: timeline.flatMap (reapplyStretches fuel)

theorem applyStretches_effect (fuel : Nat) (events : History) (r : Runner σ) :
    (applyStretches fuel events).foldl Stretch.effect r = r.applyAndResume fuel events := rfl

theorem reapplyStretches_effect (fuel : Nat) (step : ReplayStep) (r : Runner σ) :
    (reapplyStretches fuel step).foldl Stretch.effect r = reapplyStep fuel r step := by
  cases step with
  | event ev => rfl
  | update name args =>
    simp only [reapplyStretches, List.foldl_cons, List.foldl_nil, Stretch.effect, reapplyStep, id]
    by_cases hh : r.halted = true
    · simp [hh]
    · cases hu : r.updateHandlers name with
      | none => simp [hh, hu, reapplyUpdate]
      | some p => simp [hh]

/-- Stretch by stretch a replay is `Run`. -/
theorem runStretches_effect (fuel : Nat) (r : Runner σ) :
    (runStretches fuel r.scan.postUpdateTimeline).foldl Stretch.effect r = r.run fuel := by
  have htail : ∀ (steps : List ReplayStep) (q : Runner σ),
      (steps.flatMap (reapplyStretches fuel)).foldl Stretch.effect q =
        steps.foldl (reapplyStep fuel) q := by
    intro steps
    induction steps with
    | nil => exact fun q => rfl
    | cons x steps ih =>
      intro q
      rw [List.flatMap_cons, List.foldl_append, reapplyStretches_effect, ih, List.foldl_cons]
  rw [runStretches, List.foldl_cons, htail, run, reapplyHistoricalUpdates, resumeCoroutine_scan]
  rfl

theorem runStretches_stops (fuel : Nat) (timeline : List ReplayStep) :
    ∀ x ∈ (runStretches (σ := σ) fuel timeline).tail, x.Stops := by
  intro x hx r hd
  obtain ⟨step, -, hmem⟩ := List.mem_flatMap.mp hx
  cases step with
  | event ev =>
    rw [List.mem_singleton.mp hmem]
    simp [halted, hd]
  | update name args =>
    simp only [reapplyStretches, List.mem_cons, List.not_mem_nil, or_false] at hmem
    rcases hmem with rfl | rfl <;> simp [halted, hd]

end Runner

/-- Why a runner is driven. -/
inductive Stage where
  | replay | continuation | rebuild
  deriving DecidableEq, Repr, Inhabited

/-- Where a call of `Handle` stands, once its history is assembled. `busy` calls are inside the
first of their stretches, or inside the handlers they answer with. -/
inductive Phase (σ : Type) where
  | lookup (fn : WorkflowFn σ) (events : History)
  | driving (stage : Stage) (addr : Nat) (busy : Bool) (todo : List (Stretch σ))
  | answering (addr : Nat) (busy : Bool)

namespace Phase

variable {σ : Type}

/-- The runner the call has a pointer to. -/
def addr? : Phase σ → Option Nat
  | .lookup .. => none
  | .driving _ addr _ _ | .answering addr _ => some addr

/-- The call has the coroutine running or is going to resume it. -/
def mayResume : Phase σ → Bool
  | .driving _ _ busy todo => (busy && todo.isEmpty) || todo.any (·.use = .resume)
  | _ => false

/-- What the call is doing, to which runner. A coroutine that did not yield in time is still
running when the stretches are over. -/
def using? : Phase σ → Option (Nat × Use)
  | .driving _ addr true [] => some (addr, .resume)
  | .driving _ addr true (x :: _) => some (addr, x.use)
  | .answering addr true => some (addr, .handler)
  | _ => none

theorem addr?_of_using? {p : Phase σ} {addr : Nat} {k : Use} (h : p.using? = some (addr, k)) :
    p.addr? = some addr := by
  unfold using? at h
  split at h <;> cases h <;> rfl

theorem mayResume_of_using? {p : Phase σ} {addr : Nat} (h : p.using? = some (addr, .resume)) :
    p.mayResume = true := by
  unfold using? at h
  split at h
  · rfl
  · next x todo =>
    simp only [Option.some.injEq, Prod.mk.injEq] at h
    simp [mayResume, h.2]
  · cases h
  · cases h

end Phase

/-- A call in flight. -/
structure Call (σ : Type) where
  remote : Remote
  task : WorkflowTask
  phase : Phase σ

namespace TaskHandler

variable {σ : Type} (h : TaskHandler σ)

/-- The start of `Handle`, up to the lookup; `none` when it ends before. -/
def begin (remote : Remote) (task : WorkflowTask) : Option (Call σ) :=
  match h.workflows task.workflowType with
  | none => none
  | some fn =>
    match assembleHistory remote.stub h.ns task.workflowId task.runId remote.pageFuel task.page with
    | some (.ok events) => some ⟨remote, task, .lookup fn events⟩
    | _ => none

/-- Answering the task may call a handler of the runner. -/
def callsHandler (task : WorkflowTask) (r : Runner σ) : Bool :=
  match task.query with
  | some q => !r.isDone && (r.queryHandlers q.queryType).isSome
  | none => task.messages.any (·.body.isSome) || (!task.queries.isEmpty && !r.isDone)

/-- Take the runner from the cache or make one. -/
def lookupStep (s : HandlerState σ) (remote : Remote) (task : WorkflowTask) (fn : WorkflowFn σ)
    (events : History) : HandlerState σ × Option (Phase σ) :=
  match lookupCached s task.runId events task.query.isSome with
  | (some addr, s') =>
    ({ s' with cacheHits := s'.cacheHits + 1 },
      some (if task.query.isSome then .answering addr false
        else .driving .continuation addr false (Runner.applyStretches h.fuel events)))
  | (none, s') =>
    if task.query.isSome then
      match queryHistory remote.stub h.ns task.workflowId task.runId remote.pageFuel with
      | some (.ok full) =>
        let r := Runner.replay (h.info task) true h.queryWorld fn full
        (s'.allocate r, some (.driving .rebuild s'.nextRunner false
          (Runner.runStretches h.fuel r.scan.postUpdateTimeline)))
      | _ => (s', none)
    else if isFullHistory events then
      let r := Runner.replay (h.info task) (0 < task.previousStartedEventId) h.world fn events
      ({ s' with replays := s'.replays + 1 }.allocate r, some (.driving .replay s'.nextRunner false
        (Runner.runStretches h.fuel r.scan.postUpdateTimeline)))
    else (s', none)

/-- What follows when the runner has been driven. -/
def drivenStep (s : HandlerState σ) (remote : Remote) (task : WorkflowTask) (stage : Stage)
    (addr : Nat) (r : Runner σ) : HandlerState σ × Option (Phase σ) :=
  match stage with
  | .continuation =>
    if r.deadlocked then ((h.abortDeadlock remote s task).state, none)
    else (s, some (.answering addr false))
  | .rebuild =>
    if r.hung || r.deadlocked || r.escaped then (s, none) else (s, some (.answering addr false))
  | .replay =>
    if r.deadlocked then ((h.abortDeadlock remote s task).state, none)
    else if r.hung || r.escaped then (s, none)
    else
      match r.checkDeterminism with
      | some mismatch => ((h.failNondeterministic remote s task mismatch).state, none)
      | none => ({ s with cache := s.cache.put task.runId addr }, some (.answering addr false))

/-- The next step of a call; `none` when it has returned. -/
def callStep (s : HandlerState σ) (c : Call σ) : HandlerState σ × Option (Phase σ) :=
  match c.phase with
  | .lookup fn events => h.lookupStep s c.remote c.task fn events
  | .driving stage addr busy todo =>
    match s.runners addr with
    | none => (s, none)
    | some r =>
      match todo with
      | [] => h.drivenStep s c.remote c.task stage addr r
      | x :: rest =>
        if busy then
          -- `ResumeFor` has timed out: the coroutine goes on without the call
          if x.use = .resume && (x.finish r).deadlocked then
            (s.setRunner addr (x.finish r), some (.driving stage addr true []))
          else (s.setRunner addr (x.finish r), some (.driving stage addr false rest))
        else if x.skip r then (s, some (.driving stage addr false rest))
        else (s.setRunner addr (x.start r), some (.driving stage addr true (x :: rest)))
  | .answering addr busy =>
    match s.runners addr with
    | none => (s, none)
    | some r =>
      if !busy && callsHandler c.task r then (s, some (.answering addr true))
      else
        match c.task.query with
        | some q => ((h.answerDirectQuery c.remote s c.task q (some addr)).state, none)
        | none => ((h.complete c.remote s c.task addr r).state, none)

/-- What a step does to the pointers: it finds a cached one, makes a new one, or keeps the one
it has, which it may cache, with no more to resume than before. -/
inductive Moves (s : HandlerState σ) (c : Call σ) (s' : HandlerState σ) (p' : Option (Phase σ)) :
    Prop
  | hit (fn : WorkflowFn σ) (events : History) (q : Phase σ) (addr : Nat)
      (hphase : c.phase = .lookup fn events)
      (hl : (lookupCached s c.task.runId events c.task.query.isSome).1 = some addr)
      (hp : p' = some q) (ha : q.addr? = some addr)
      (hresume : q.mayResume = true → c.task.query = none) (hn : s'.nextRunner = s.nextRunner)
      (hcache : ∀ k, s'.cache.peek k = s.cache.peek k)
  | fresh (q : Phase σ) (hp : p' = some q) (ha : q.addr? = some s.nextRunner)
      (hn : s'.nextRunner = s.nextRunner + 1) (hcache : ∀ k, s'.cache.peek k = s.cache.peek k)
  | keep (hp : ∀ q, p' = some q →
        q.addr? = c.phase.addr? ∧ (q.mayResume = true → c.phase.mayResume = true))
      (hn : s'.nextRunner = s.nextRunner)
      (hcache : ∀ k addr, s'.cache.peek k = some addr →
        s.cache.peek k = some addr ∨ c.phase.addr? = some addr)

variable {h} {s : HandlerState σ}

theorem lookupCached_peek (s : HandlerState σ) (runId : String) (events : History)
    (isQuery : Bool) (k : String) :
    (lookupCached s runId events isQuery).2.cache.peek k = s.cache.peek k := by
  cases hf : isFullHistory events with
  | true => rw [lookupCached_of_full hf]
  | false =>
    rw [lookupCached_of_continuation hf]
    exact s.cache.peek_get _ k

theorem lookupCached_nextRunner (s : HandlerState σ) (runId : String) (events : History)
    (isQuery : Bool) : (lookupCached s runId events isQuery).2.nextRunner = s.nextRunner := by
  cases hf : isFullHistory events with
  | true => rw [lookupCached_of_full hf]
  | false => rw [lookupCached_of_continuation hf]

theorem peek_of_lookupCached {runId : String} {events : History} {isQuery : Bool} {addr : Nat}
    (hl : (lookupCached s runId events isQuery).1 = some addr) :
    s.cache.peek runId = some addr := by
  cases hf : isFullHistory events with
  | true =>
    rw [lookupCached_of_full hf] at hl
    cases hl
  | false =>
    rw [lookupCached_of_continuation hf, Option.filter_eq_some_iff] at hl
    exact hl.1

theorem lookupStep_moves {remote : Remote} {task : WorkflowTask} {fn : WorkflowFn σ}
    {events : History} : Moves s ⟨remote, task, .lookup fn events⟩
      (h.lookupStep s remote task fn events).1 (h.lookupStep s remote task fn events).2 := by
  have hpeek := lookupCached_peek s task.runId events task.query.isSome
  have hnext := lookupCached_nextRunner s task.runId events task.query.isSome
  unfold lookupStep
  split
  · next addr s' hl =>
    rw [hl] at hpeek hnext
    refine .hit fn events _ addr rfl (congrArg Prod.fst hl) rfl ?_ ?_ hnext hpeek
    · split <;> rfl
    · cases hq : task.query with
      | none => exact fun _ => rfl
      | some q => exact fun hr => by cases hr
  · next s' hl =>
    rw [hl] at hpeek hnext
    have hnone : ∀ c : Call σ, Moves s c s' none := fun c =>
      .keep (fun q hq => by cases hq) hnext fun k addr hk => .inl (hpeek k ▸ hk)
    split
    · split
      · exact .fresh _ rfl (congrArg some hnext) (congrArg (· + 1) hnext) hpeek
      · exact hnone _
    · split
      · exact .fresh _ rfl (congrArg some hnext) (congrArg (· + 1) hnext) hpeek
      · exact hnone _

/-- A step at the end of a call that allocates and caches nothing. -/
def Settles (s s' : HandlerState σ) : Prop :=
  s'.nextRunner = s.nextRunner ∧
    ∀ k addr, s'.cache.peek k = some addr → s.cache.peek k = some addr

theorem Settles.moves {s' : HandlerState σ} (hs : Settles s s') (c : Call σ) : Moves s c s' none :=
  .keep (fun q hq => by cases hq) hs.1 fun k addr hk => .inl (hs.2 k addr hk)

theorem settles_setRunner (addr : Nat) (r : Runner σ) : Settles s (s.setRunner addr r) :=
  ⟨rfl, fun _ _ hk => hk⟩

theorem settles_erase (runId : String) : Settles s (s.erase runId) := by
  refine ⟨rfl, fun k addr hk => ?_⟩
  rw [HandlerState.erase, LruCache.peek_erase] at hk
  split at hk
  · cases hk
  · exact hk

theorem settles_respond {s' : HandlerState σ} {remote : Remote} {resp : Response}
    (hs : Settles s s') : Settles s (respond remote s' resp).state := by
  rw [(respond_sent _ _ _).2]
  exact hs

theorem settles_answerDirectQuery {remote : Remote} {task : WorkflowTask} {q : WorkflowQuery}
    {addr : Option Nat} : Settles s (h.answerDirectQuery remote s task q addr).state := by
  unfold answerDirectQuery
  split
  · exact settles_respond ⟨rfl, fun _ _ hk => hk⟩
  · split
    · exact ⟨rfl, fun _ _ hk => hk⟩
    · split
      · exact settles_setRunner _ _
      · exact settles_respond (settles_setRunner _ _)

theorem settles_complete {remote : Remote} {task : WorkflowTask} {addr : Nat} {r : Runner σ} :
    Settles s (h.complete remote s task addr r).state := by
  unfold complete
  split
  · exact settles_setRunner _ _
  · split
    · exact settles_setRunner _ _
    · dsimp only
      split
      · exact settles_setRunner _ _
      · dsimp only
        split
        · obtain ⟨hn, hp⟩ := settles_erase (s := s.setRunner addr _) task.runId
          exact ⟨hn, hp⟩
        · exact settles_setRunner _ _

theorem drivenStep_moves {remote : Remote} {task : WorkflowTask} {stage : Stage} {addr : Nat}
    {r : Runner σ} {busy : Bool} : Moves s ⟨remote, task, .driving stage addr busy []⟩
      (h.drivenStep s remote task stage addr r).1 (h.drivenStep s remote task stage addr r).2 := by
  have hanswer : Moves s ⟨remote, task, .driving stage addr busy []⟩ s
      (some (.answering addr false)) := by
    refine .keep (fun q hq => ?_) rfl fun _ _ hk => .inl hk
    cases hq
    exact ⟨rfl, fun hr => by cases hr⟩
  have habort : Settles s (h.abortDeadlock remote s task).state :=
    settles_respond (settles_erase task.runId)
  have hend : Settles s s := ⟨rfl, fun _ _ hk => hk⟩
  unfold drivenStep
  split
  · split
    · exact habort.moves _
    · exact hanswer
  · split
    · exact hend.moves _
    · exact hanswer
  · split
    · exact habort.moves _
    · split
      · exact hend.moves _
      · split
        · unfold failNondeterministic
          dsimp only
          split <;> exact (settles_respond hend).moves _
        · refine .keep (fun q hq => ?_) rfl fun k a hk => ?_
          · cases hq
            exact ⟨rfl, fun hr => by cases hr⟩
          · by_cases hrun : k = task.runId
            · subst hrun
              rw [LruCache.peek_put_self] at hk
              exact .inr hk
            · exact .inl (s.cache.peek_put_of_ne hrun _ _ hk)

/-- What a step of a call does to the pointers. -/
theorem callStep_moves {c : Call σ} :
    Moves s c (h.callStep s c).1 (h.callStep s c).2 := by
  obtain ⟨remote, task, phase⟩ := c
  have hend : Settles s s := ⟨rfl, fun _ _ hk => hk⟩
  cases phase with
  | lookup fn events => exact lookupStep_moves
  | driving stage addr busy todo =>
    unfold callStep
    dsimp only
    split
    · exact hend.moves _
    · next r hr =>
      cases todo with
      | nil => exact drivenStep_moves
      | cons x rest =>
        have hrest : (Phase.driving stage addr false rest).mayResume = true →
            (Phase.driving stage addr busy (x :: rest)).mayResume = true := by
          intro hm
          simp only [Phase.mayResume, Bool.false_and, Bool.false_or] at hm
          simp [Phase.mayResume, hm]
        dsimp only
        split
        · split
          · next hx =>
            rw [Bool.and_eq_true] at hx
            refine .keep (fun q hq => ?_) rfl fun _ _ hk => .inl hk
            cases hq
            exact ⟨rfl, fun _ => by simpa [Phase.mayResume] using Or.inl hx.1⟩
          · exact .keep (fun q hq => by cases hq; exact ⟨rfl, hrest⟩) rfl fun _ _ hk => .inl hk
        · split
          · exact .keep (fun q hq => by cases hq; exact ⟨rfl, hrest⟩) rfl fun _ _ hk => .inl hk
          · refine .keep (fun q hq => ?_) rfl fun _ _ hk => .inl hk
            cases hq
            exact ⟨rfl, fun hm => by simpa [Phase.mayResume] using hm⟩
  | answering addr busy =>
    unfold callStep
    dsimp only
    split
    · exact hend.moves _
    · split
      · exact .keep (fun q hq => by cases hq; exact ⟨rfl, fun hm => by cases hm⟩) rfl
          fun _ _ hk => .inl hk
      · split
        · exact settles_answerDirectQuery.moves _
        · exact settles_complete.moves _

/-- The call takes its steps without interruption and leaves the state `out`. -/
inductive Finishes (h : TaskHandler σ) : HandlerState σ → Call σ → HandlerState σ → Prop
  | last {s : HandlerState σ} {c : Call σ} {out : HandlerState σ}
      (hs : h.callStep s c = (out, none)) :
    Finishes h s c out
  | next {s s' : HandlerState σ} {c : Call σ} {phase : Phase σ} {out : HandlerState σ}
      (hs : h.callStep s c = (s', some phase)) (hrest : Finishes h s' { c with phase } out) :
    Finishes h s c out

theorem setRunner_setRunner (addr : Nat) (x y : Runner σ) :
    (s.setRunner addr x).setRunner addr y = s.setRunner addr y := by
  simp [HandlerState.setRunner, PartialMap.insert]

theorem allocate_setRunner (x y : Runner σ) :
    (s.allocate x).setRunner s.nextRunner y = s.allocate y := by
  simp [HandlerState.setRunner, HandlerState.allocate, PartialMap.insert]

theorem setRunner_of_runners {addr : Nat} {r : Runner σ} (hr : s.runners addr = some r) :
    s.setRunner addr r = s := by
  have hsame : s.runners.insert addr r = s.runners := by
    rw [PartialMap.insert, ← hr, Function.update_eq_self]
  rw [HandlerState.setRunner, hsame]

/-- Driving a runner through its stretches has their effects on it. -/
theorem Finishes.driving {c : Call σ} {stage : Stage} {addr : Nat} {todo : List (Stretch σ)}
    {r : Runner σ} {out : HandlerState σ} (hstop : ∀ x ∈ todo.tail, x.Stops)
    (hdriven : ∀ busy, Finishes h (s.setRunner addr (todo.foldl Stretch.effect r))
      { c with phase := .driving stage addr busy [] } out) :
    Finishes h (s.setRunner addr r) { c with phase := .driving stage addr false todo } out := by
  induction todo generalizing r with
  | nil => exact hdriven false
  | cons x rest ih =>
    rw [List.tail_cons] at hstop
    have hstop' : ∀ y ∈ rest.tail, y.Stops := fun y hy => hstop y (List.mem_of_mem_tail hy)
    rw [List.foldl_cons, Stretch.effect] at hdriven
    by_cases hskip : x.skip r = true
    · rw [if_pos hskip] at hdriven
      refine .next ?_ (ih hstop' hdriven)
      simp [callStep, hskip]
    · rw [if_neg hskip] at hdriven
      have hstart : h.callStep (s.setRunner addr r)
          { c with phase := .driving stage addr false (x :: rest) } =
            (s.setRunner addr (x.start r), some (.driving stage addr true (x :: rest))) := by
        simp [callStep, hskip, setRunner_setRunner]
      by_cases hlate : (x.use = .resume && (x.finish (x.start r)).deadlocked) = true
      · have hfinish : h.callStep (s.setRunner addr (x.start r))
            { c with phase := .driving stage addr true (x :: rest) } =
              (s.setRunner addr (x.finish (x.start r)), some (.driving stage addr true [])) := by
          simp only [callStep, HandlerState.setRunner_runners_self, if_true, hlate,
            setRunner_setRunner]
        have hd : (x.finish (x.start r)).deadlocked = true := (Bool.and_eq_true _ _ ▸ hlate).2
        have hend := hdriven true
        rw [Stretch.foldl_effect_of_deadlocked hstop hd] at hend
        exact .next hstart (.next hfinish hend)
      · have hfinish : h.callStep (s.setRunner addr (x.start r))
            { c with phase := .driving stage addr true (x :: rest) } =
              (s.setRunner addr (x.finish (x.start r)), some (.driving stage addr false rest)) := by
          simp only [callStep, HandlerState.setRunner_runners_self, if_true, hlate,
            setRunner_setRunner, Bool.false_eq_true, if_false]
        exact .next hstart (.next hfinish (ih hstop' hdriven))

theorem Finishes.answering {c : Call σ} {addr : Nat} {r : Runner σ} (hq : c.task.query = none)
    (hr : s.runners addr = some r) :
    Finishes h s { c with phase := .answering addr false }
      (h.complete c.remote s c.task addr r).state := by
  have hlast : Finishes h s { c with phase := .answering addr true }
      (h.complete c.remote s c.task addr r).state := .last (by simp [callStep, hr, hq])
  by_cases hcalls : callsHandler c.task r = true
  · exact .next (by simp [callStep, hr, hcalls]) hlast
  · exact .last (by simp [callStep, hr, hcalls, hq])

section Driven

variable {remote : Remote} {task : WorkflowTask} {addr : Nat} {r : Runner σ}
  (hr : s.runners addr = some r)
include hr

theorem Finishes.ended {stage : Stage} {busy : Bool} {out : HandlerState σ}
    (hd : h.drivenStep s remote task stage addr r = (out, none)) :
    Finishes h s ⟨remote, task, .driving stage addr busy []⟩ out :=
  .last (by simp only [callStep, hr, hd])

theorem Finishes.driven {stage : Stage} {busy : Bool} {s' : HandlerState σ}
    (hq : task.query = none)
    (hr' : s'.runners addr = some r)
    (hd : h.drivenStep s remote task stage addr r = (s', some (.answering addr false))) :
    Finishes h s ⟨remote, task, .driving stage addr busy []⟩
      (h.complete remote s' task addr r).state := by
  have hstep : h.callStep s ⟨remote, task, .driving stage addr busy []⟩ =
      (s', some (.answering addr false)) := by simp only [callStep, hr, hd]
  exact .next hstep
    (Finishes.answering (c := ⟨remote, task, .driving stage addr busy []⟩) hq hr')

end Driven

theorem replayTask_finishes {remote : Remote} {task : WorkflowTask} {fn : WorkflowFn σ}
    {events : History} (hf : isFullHistory events = true) (hq : task.query = none) :
    Finishes h s ⟨remote, task, .lookup fn events⟩
      (h.replayTask remote s fn task events).state := by
  have hlookup : h.callStep s ⟨remote, task, .lookup fn events⟩ =
      ({ s with replays := s.replays + 1 }.allocate
          (.replay (h.info task) (0 < task.previousStartedEventId) h.world fn events),
        some (.driving .replay s.nextRunner false (Runner.runStretches h.fuel
          (scanHistory events).postUpdateTimeline))) := by
    simp only [callStep, lookupStep, lookupCached_of_full hf, hq, hf, Option.isSome_none,
      Bool.false_eq_true, if_false, if_true]
    rfl
  refine .next hlookup ?_
  rw [← setRunner_of_runners (s := HandlerState.allocate _ _) HandlerState.allocate_runners_self]
  refine Finishes.driving (Runner.runStretches_stops h.fuel _) fun busy => ?_
  rw [allocate_setRunner]
  have heffect : (Runner.runStretches h.fuel (scanHistory events).postUpdateTimeline).foldl
      Stretch.effect (.replay (h.info task) (0 < task.previousStartedEventId) h.world fn events) =
        h.replayed fn task events := Runner.runStretches_effect h.fuel _
  rw [heffect]
  change Finishes h (h.withReplayed s fn task events) ⟨remote, task, _⟩ _
  have hr : (h.withReplayed s fn task events).runners s.nextRunner =
      some (h.replayed fn task events) := HandlerState.allocate_runners_self
  rw [replayTask_eq]
  split
  · next hd => exact .ended hr (by simp only [drivenStep, hd, if_true])
  · next hd =>
    split
    · next hh => exact .ended hr (by simp [drivenStep, hd, hh])
    · next hh =>
      split
      · next he => exact .ended hr (by simp [drivenStep, hd, he])
      · next he =>
        split
        · next mismatch hm => exact .ended hr (by simp [drivenStep, hd, hh, he, hm])
        · next hm =>
          refine .driven hr hq hr ?_
          simp [drivenStep, hd, hh, he, hm]
          rfl

theorem continueTask_finishes {remote : Remote} {task : WorkflowTask} {fn : WorkflowFn σ}
    {events : History} {addr : Nat} {r : Runner σ} (hf : isFullHistory events = false)
    (hq : task.query = none) (hfit : Fits s task events addr r) :
    Finishes h s ⟨remote, task, .lookup fn events⟩
      (h.continueTask remote (s.touch task.runId) task addr r events).state := by
  have hlookup : h.callStep s ⟨remote, task, .lookup fn events⟩ =
      ({ s.touch task.runId with cacheHits := s.cacheHits + 1 },
        some (.driving .continuation addr false (Runner.applyStretches h.fuel events))) := by
    simp only [callStep, lookupStep, hq, Option.isSome_none, lookupCached_of_fits hf hfit]
    rfl
  refine .next hlookup ?_
  rw [← setRunner_of_runners
    (s := { s.touch task.runId with cacheHits := s.cacheHits + 1 }) hfit.2.1]
  refine Finishes.driving (fun x hx => by cases hx) fun busy => ?_
  rw [Runner.applyStretches_effect]
  unfold continueTask
  dsimp only
  split
  · next hd => exact .ended HandlerState.setRunner_runners_self (by simp [drivenStep, hd]; rfl)
  · next hd =>
    exact .driven HandlerState.setRunner_runners_self hq HandlerState.setRunner_runners_self
      (by simp [drivenStep, hd]; rfl)

/-- A workflow task served without interruption is served as `Handle` does it. -/
theorem begin_finishes {remote : Remote} {task : WorkflowTask} {c : Call σ}
    (hq : task.query = none) (hb : h.begin remote task = some c) :
    Finishes h s c (h.handle remote s task).state := by
  unfold begin at hb
  split at hb
  · cases hb
  · next fn hw =>
    split at hb
    · next events ha =>
      cases hb
      have hroute : h.handle remote s task = h.route remote s fn task events := by
        simp only [handle, hw, ha]
      rw [hroute]
      cases hf : isFullHistory events with
      | true =>
        rw [h.route_full hf hq]
        exact replayTask_finishes hf hq
      | false =>
        by_cases hfit : ∃ addr r, Fits s task events addr r
        · obtain ⟨addr, r, hfit⟩ := hfit
          rw [h.route_continuation hf hq hfit]
          exact continueTask_finishes hf hq hfit
        · have hmiss : ∀ addr r, ¬ Fits s task events addr r := fun addr r hx => hfit ⟨addr, r, hx⟩
          rw [h.route_reset hf hq hmiss, (respond_sent _ _ _).2]
          refine .last ?_
          simp only [callStep, lookupStep, hq, Option.isSome_none,
            lookupCached_of_not_fits hf hmiss, hf, Bool.false_eq_true, if_false]
    · cases hb

end TaskHandler

end TemporalSdk
