import TemporalSdk.StickyCache

/-! What a call leaves in the cache when the server does not take its response. The runner is
advanced and cached before the response is sent, and nothing undoes that when it fails. -/
namespace TemporalSdk

namespace Runner

variable {σ : Type}

theorem applyEvents_lastEventId_ge (r : Runner σ) (evs : History) :
    r.lastEventId ≤ (r.applyEvents evs).lastEventId := by
  induction evs generalizing r with
  | nil => exact Nat.le_refl _
  | cons e evs ih =>
    by_cases he : e.eventId ≤ r.lastEventId
    · rw [r.applyEvents_cons_stale he]
      exact ih r
    · have hnew : r.lastEventId < e.eventId := Nat.not_le.mp he
      rw [r.applyEvents_cons_new hnew]
      exact (Nat.le_of_lt hnew).trans (ih (r.applyOne e))

theorem lastEventId_lt_applyEvents {r : Runner σ} {events : History}
    (h : TaskHandler.firstEventId events = r.lastEventId + 1) :
    r.lastEventId < (r.applyEvents events).lastEventId := by
  cases events with
  | nil => cases h
  | cons e evs =>
    have he : r.scan.lastEventId < e.eventId := Nat.lt_of_lt_of_eq (Nat.lt_succ_self _) h.symm
    rw [r.applyEvents_cons_new he]
    exact Nat.lt_of_lt_of_le he (applyEvents_lastEventId_ge (r.applyOne e) evs)

/-- A continuation that fits moves the runner on. -/
theorem lastEventId_lt_applyAndResume {fuel : Nat} {r : Runner σ} {events : History}
    (h : TaskHandler.firstEventId events = r.lastEventId + 1) :
    r.lastEventId < (r.applyAndResume fuel events).lastEventId := by
  have happ := lastEventId_lt_applyEvents (r := { r with commands := [], producedCommands := [] }) h
  unfold applyAndResume
  dsimp only
  split
  · exact Nat.lt_of_lt_of_eq happ (congrArg Prescan.lastEventId (resumeCoroutine_scan _ _)).symm
  · exact happ

end Runner

namespace TaskHandler

variable {σ : Type} {h : TaskHandler σ} {s : HandlerState σ} {remote : Remote}
  {task : WorkflowTask}

/-- The entry of the run is gone, or it is the one from before the call, untouched. -/
def LeavesNoAdvancedState (runId : String) (s s' : HandlerState σ) : Prop :=
  ∀ addr, s'.cache.peek runId = some addr →
    s.cache.peek runId = some addr ∧ s'.runners addr = s.runners addr

/-- A call that ends in the middle of answering leaves the runner where the task brought it. -/
theorem complete_of_not_returned {addr : Nat} {r : Runner σ}
    (hx : (h.complete remote s task addr r).exit ≠ .returned) :
    ∃ r', (h.complete remote s task addr r).state = s.setRunner addr r' ∧
      r'.lastEventId = r.lastEventId := by
  have hinvoke : ∀ (x : Runner σ) p, x.lastEventId = r.lastEventId →
      (x.invoke h.fuel p).1.lastEventId = r.lastEventId := fun x p hx =>
    (congrArg Prescan.lastEventId (x.invoke_scan h.fuel p)).trans hx
  have hm := Runner.processMessages_keeps hinvoke rfl h.identity task.messages
  unfold complete at hx ⊢
  split
  · next r₁ _ exit he =>
    rw [he] at hm
    exact ⟨r₁, rfl, hm⟩
  · next r₁ messages he =>
    simp only [he] at hx hm
    have hq := Runner.answerQueries_keeps hinvoke hm task.queries
    split
    · next r₂ exit hy =>
      rw [hy] at hq
      exact ⟨r₂, rfl, hq⟩
    · next r₂ results hy =>
      simp only [hy] at hx hq
      dsimp only
      split
      · exact ⟨r₂, rfl, hq⟩
      · next hr => simp [hr] at hx

theorem continueTask_advances {addr : Nat} {r : Runner σ} {events : History} {req : TaskCompleted}
    (hfit : Fits s task events addr r)
    (hsent : (h.continueTask remote (s.touch task.runId) task addr r events).sent =
      [.workflowTaskCompleted req])
    (hx : (h.continueTask remote (s.touch task.runId) task addr r events).exit ≠ .returned) :
    ¬ LeavesNoAdvancedState task.runId s
      (h.continueTask remote (s.touch task.runId) task addr r events).state := by
  obtain ⟨hc, hr, hid⟩ := hfit
  have hlt : r.lastEventId < (r.applyAndResume h.fuel events).lastEventId :=
    Runner.lastEventId_lt_applyAndResume hid
  unfold continueTask at hsent hx ⊢
  dsimp only at hsent hx ⊢
  split
  · next hd => simp [hd, abortDeadlock, respond_sent] at hsent
  · next hd =>
    simp only [hd, Bool.false_eq_true, if_false] at hx
    obtain ⟨r', hstate, hpos⟩ := complete_of_not_returned hx
    rw [hstate]
    intro hno
    obtain ⟨-, hsame⟩ := hno addr ((s.cache.peek_get _ _).trans hc)
    rw [HandlerState.setRunner_runners_self, hr, Option.some.injEq] at hsame
    rw [hsame] at hpos
    omega

/-- After a replay the entry is untouched exactly when the replay was rejected. -/
theorem replayTask_leavesNoAdvancedState_iff {P : String → Runner σ → Prop} (hs : s.Cached P)
    {fn : WorkflowFn σ} {events : History} {req : TaskCompleted}
    (hsent : (h.replayTask remote s fn task events).sent = [.workflowTaskCompleted req])
    (hx : (h.replayTask remote s fn task events).exit ≠ .returned) :
    LeavesNoAdvancedState task.runId s (h.replayTask remote s fn task events).state ↔
      (h.replayed fn task events).checkDeterminism ≠ none := by
  have hfresh : ∀ addr, s.cache.peek task.runId = some addr → addr ≠ s.nextRunner :=
    fun addr hc => Nat.ne_of_lt (hs.lt_nextRunner hc)
  rcases h.replayTask_cases remote s fn task events with
    ht | ⟨exit, ht⟩ | ⟨mismatch, hm, ht⟩ | ⟨hm, ht⟩ <;> rw [ht] at hsent hx ⊢
  · simp [abortDeadlock, respond_sent] at hsent
  · cases hsent
  · have hstate : (h.failNondeterministic remote (h.withReplayed s fn task events) task
        mismatch).state = h.withReplayed s fn task events := by
      unfold failNondeterministic
      dsimp only
      split <;> exact (respond_sent _ _ _).2
    rw [hm, hstate]
    refine ⟨fun _ => Option.some_ne_none _, fun _ addr hc => ⟨hc, ?_⟩⟩
    exact HandlerState.allocate_runners_of_ne (hfresh addr hc)
  · obtain ⟨r', hstate, -⟩ := complete_of_not_returned hx
    rw [hm, hstate]
    refine ⟨fun hno => ?_, fun hne => absurd rfl hne⟩
    obtain ⟨hc, -⟩ := hno s.nextRunner (LruCache.peek_put_self _ _ _)
    exact absurd rfl (hfresh _ hc)

theorem answerDirectQuery_sent_ne {q : WorkflowQuery} {addr : Option Nat} {req : TaskCompleted} :
    (h.answerDirectQuery remote s task q addr).sent ≠ [.workflowTaskCompleted req] := fun he =>
  h.answerDirectQuery_not_completed req (he ▸ List.mem_singleton_self _)

/-- The task carries a full history that its workflow does not reproduce. -/
def RejectedReplay (h : TaskHandler σ) (remote : Remote) (task : WorkflowTask) : Prop :=
  ∃ fn events, h.workflows task.workflowType = some fn ∧
    assembleHistory remote.stub h.ns task.workflowId task.runId remote.pageFuel task.page =
      some (.ok events) ∧
    isFullHistory events = true ∧ (h.replayed fn task events).checkDeterminism ≠ none

theorem route_leavesNoAdvancedState_iff {P : String → Runner σ → Prop} (hs : s.Cached P)
    {fn : WorkflowFn σ} {events : History} {req : TaskCompleted}
    (hsent : (h.route remote s fn task events).sent = [.workflowTaskCompleted req])
    (hx : (h.route remote s fn task events).exit ≠ .returned) :
    LeavesNoAdvancedState task.runId s (h.route remote s fn task events).state ↔
      isFullHistory events = true ∧ (h.replayed fn task events).checkDeterminism ≠ none := by
  cases hq : task.query with
  | some q =>
    exfalso
    obtain ⟨s', -, hcases⟩ := h.route_query hq
    rcases hcases with ⟨exit, he⟩ | ⟨addr, he⟩ | he | ⟨r, he⟩ <;> rw [he] at hsent
    · cases hsent
    · exact answerDirectQuery_sent_ne hsent
    · exact answerDirectQuery_sent_ne hsent
    · exact answerDirectQuery_sent_ne hsent
  | none =>
    cases hf : isFullHistory events with
    | true =>
      rw [h.route_full hf hq] at hsent hx ⊢
      rw [replayTask_leavesNoAdvancedState_iff hs hsent hx]
      simp
    | false =>
      by_cases hfit : ∃ addr r, Fits s task events addr r
      · obtain ⟨addr, r, hfit⟩ := hfit
        rw [h.route_continuation hf hq hfit] at hsent hx ⊢
        have hadv := continueTask_advances hfit hsent hx
        exact ⟨fun hno => absurd hno hadv, fun hc => by cases hc.1⟩
      · have hmiss : ∀ addr r, ¬ Fits s task events addr r := fun addr r hx => hfit ⟨addr, r, hx⟩
        rw [h.route_reset hf hq hmiss, (respond_sent _ _ _).1] at hsent
        cases hsent

/-- When a completed response fails after any sequence of tasks, the cache is left without the
advanced runner exactly if the task was a rejected replay. -/
theorem leavesNoAdvancedState_iff_rejectedReplay (capacity : Nat)
    (before : List (Remote × WorkflowTask)) (s : HandlerState σ)
    (hs : s = h.handleAll { cache := .empty capacity } before) {req : TaskCompleted}
    {e : RpcError} (hsent : (h.handle remote s task).sent = [.workflowTaskCompleted req])
    (hx : (h.handle remote s task).exit = .rpc e) :
    LeavesNoAdvancedState task.runId s (h.handle remote s task).state ↔
      h.RejectedReplay remote task := by
  have hcached : s.Cached fun _ _ => True := by
    rw [hs]
    refine (EachTask.of_invariant h (fun t _ s hs => ?_) (.empty capacity)).2
    exact handle_cached (fun _ _ _ _ => trivial) hs (fun _ _ _ _ _ => trivial)
      fun _ _ _ _ _ _ _ => trivial
  have hne : (h.handle remote s task).exit ≠ .returned := by
    rw [hx]
    exact Exit.noConfusion
  unfold handle at hsent hne ⊢
  cases hw : h.workflows task.workflowType with
  | none => simp [hw, respond_sent] at hsent
  | some fn =>
    simp only [hw] at hsent hne ⊢
    cases ha : assembleHistory remote.stub h.ns task.workflowId task.runId remote.pageFuel
        task.page with
    | none => simp [ha] at hsent
    | some x =>
      cases x with
      | error e => simp [ha] at hsent
      | ok events =>
        simp only [ha] at hsent hne ⊢
        rw [route_leavesNoAdvancedState_iff hcached hsent hne, RejectedReplay, hw, ha]
        constructor
        · rintro ⟨hf, hd⟩
          exact ⟨fn, events, rfl, rfl, hf, hd⟩
        · rintro ⟨fn', events', hfn, hev, hf, hd⟩
          cases hfn
          cases hev
          exact ⟨hf, hd⟩

end TaskHandler

theorem Response.eq_of_commandCount? {sent : List Response} {n : Nat}
    (h : sent.map Response.commandCount? = [some n]) :
    ∃ req, sent = [.workflowTaskCompleted req] := by
  obtain ⟨resp, rfl⟩ : ∃ resp, sent = [resp] := by
    rw [← List.length_eq_one_iff, ← List.length_map (f := Response.commandCount?), h]
    rfl
  cases resp with
  | workflowTaskCompleted req => exact ⟨req, rfl⟩
  | workflowTaskFailed _ _ _ _ => cases h
  | queryTaskCompleted _ _ => cases h

/-- A remote end that cannot be reached with a response. -/
def Remote.refusing : Remote :=
  { Remote.accepting with
    respond := fun _ => .error (.rpcError "rpc RespondWorkflowTaskCompleted failed: unavailable") }

/-- The response to a first task fails, and its runner stays cached: a query for the run is
then answered from a state the server never recorded. -/
theorem advancedState_left_of_refused_orderTask :
    (orderHandler.handle .refusing { cache := .empty 0 } (orderTask [])).exit =
        .rpc (.rpcError "rpc RespondWorkflowTaskCompleted failed: unavailable") ∧
      (∃ req, (orderHandler.handle .refusing { cache := .empty 0 } (orderTask [])).sent =
        [.workflowTaskCompleted req]) ∧
      ¬ TaskHandler.LeavesNoAdvancedState "run-1" { cache := .empty 0 }
        (orderHandler.handle .refusing { cache := .empty 0 } (orderTask [])).state := by
  refine ⟨by decide +kernel, Response.eq_of_commandCount? (n := 1) (by decide +kernel), ?_⟩
  intro hno
  obtain ⟨hc, -⟩ := hno 0 (by decide +kernel)
  cases hc

def strictOrderHandler : TaskHandler Unit := { orderHandler with panicPolicy := .failWorkflow }

/-- A full history in which the order started a timer where it now reserves. -/
def changedOrderTask : WorkflowTask :=
  { orderTask [] with
    page := { events := (orderTask []).page.events ++ [⟨4, .timerStarted "0"⟩] } }

theorem noAdvancedState_left_of_changedOrderTask :
    strictOrderHandler.RejectedReplay .refusing changedOrderTask ∧
      TaskHandler.LeavesNoAdvancedState "run-1" { cache := .empty 0 }
        (strictOrderHandler.handle .refusing { cache := .empty 0 } changedOrderTask).state := by
  obtain ⟨req, hsent⟩ : ∃ req, (strictOrderHandler.handle .refusing { cache := .empty 0 }
      changedOrderTask).sent = [.workflowTaskCompleted req] :=
    Response.eq_of_commandCount? (n := 1) (by decide +kernel)
  have hrejected : strictOrderHandler.RejectedReplay .refusing changedOrderTask :=
    ⟨orderWorkflow, changedOrderTask.page.events, rfl, rfl, rfl, by decide +kernel⟩
  have hiff := TaskHandler.leavesNoAdvancedState_iff_rejectedReplay 0 [] _ rfl hsent
    (e := .rpcError "rpc RespondWorkflowTaskCompleted failed: unavailable") (by decide +kernel)
  exact ⟨hrejected, hiff.mpr hrejected⟩

end TemporalSdk
