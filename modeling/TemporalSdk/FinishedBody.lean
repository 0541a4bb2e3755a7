import TemporalSdk.Callbacks
import TemporalSdk.Containment
import TemporalSdk.RunInvariant
import TemporalSdk.TaskInvariant

/-!
The end of a body. What it ends with is the one terminal command of its runner, and nothing else
is, except that an exception which is no `std::exception` leaves the runner done with nothing to
report. Callbacks of a finished body are spared everywhere but in the loop over update messages.
-/
namespace TemporalSdk

variable {σ : Type}

namespace Runner

/-- The terminal command of a body that ended this way. -/
def terminalOf (r : Runner σ) : Outcome → Option Command
  | .returned result => some (.completeWorkflowExecution result)
  | .continueAsNew type input => some (.continueAsNewWorkflowExecution type input)
  | .applicationError message type nonRetryable =>
    some (.failWorkflowExecution
      (r.bodyFailure (.applicationError message type nonRetryable) message type))
  | .stdException what =>
    some (.failWorkflowExecution (r.bodyFailure (.stdException what) what "std::exception"))
  | .otherException => none

/-- How the body of a runner that is done has ended. -/
def EndedWith (r : Runner σ) (o : Outcome) : Prop :=
  (r.program r.trace).outcome? = some o

/-- A runner reports the end of its body and nothing before it. -/
structure Closed (r : Runner σ) : Prop where
  running : r.done = false → r.status = .blocked
  ended : r.done = true → ∃ o, r.EndedWith o ∧ r.terminalCommand = r.terminalOf o
  commands : ∀ c ∈ r.commands, c.isTerminal = false

namespace Closed

variable {r r' : Runner σ}

theorem congr (h : Closed r) (hdone : r'.done = r.done) (hstatus : r'.status = r.status)
    (hprogram : r'.program r'.trace = r.program r.trace) (hworld : r'.world = r.world)
    (hterminal : r'.terminalCommand = r.terminalCommand)
    (hcommands : ∀ c ∈ r'.commands, c.isTerminal = false) : Closed r' where
  running hd := hstatus.trans (h.running (hdone ▸ hd))
  ended hd := by
    obtain ⟨o, ho, ht⟩ := h.ended (hdone ▸ hd)
    refine ⟨o, (congrArg Op.outcome? hprogram).trans ho, hterminal.trans (ht.trans ?_)⟩
    cases o <;> simp only [terminalOf, bodyFailure, hworld]
  commands := hcommands

theorem terminalCommand_of_frame (hf : Frame r r') : r'.terminalCommand = r.terminalCommand := by
  simp only [terminalCommand, hf.status, hf.result, hf.failure, hf.continueAsNew]

theorem program_of_frame (hf : Frame r r') : r'.program r'.trace = r.program r.trace := by
  simp only [program, hf.world, hf.workflowFn, hf.input, hf.trace]

/-- No operation emits a terminal command. -/
theorem commands_of_exec (h : Closed r) {op : Op σ} {resp : Resp σ}
    (hx : r.exec op = some (r', resp)) : ∀ c ∈ r'.commands, c.isTerminal = false := by
  rcases (r.exec_emission hx).commands with heq | ⟨c, hcall, heq⟩
  · rw [heq]
    exact h.commands
  · rw [heq]
    intro d hd
    rcases List.mem_append.mp hd with hd | hd
    · exact h.commands d hd
    · rw [List.mem_singleton.mp hd]
      cases c <;> first | rfl | (cases op <;> cases hcall)

theorem exec (h : Closed r) {op : Op σ} {resp : Resp σ} (hx : r.exec op = some (r', resp)) :
    Closed r' := by
  have hf := r.exec_frame hx
  exact h.congr hf.done hf.status (program_of_frame hf) hf.world (terminalCommand_of_frame hf)
    (h.commands_of_exec hx)

theorem finishBody (h : Closed r) {o : Outcome} (hd : r.done = false) (ho : r.EndedWith o) :
    Closed (r.finishBody o) := by
  have hs := h.running hd
  refine ⟨fun hdone => ?_, fun _ => ⟨o, ?_, ?_⟩, ?_⟩
  · cases o <;> cases hdone
  · cases o <;> exact ho
  · cases o <;> first | rfl | simp [terminalCommand, Runner.finishBody, terminalOf, hs]
  · cases o <;> exact h.commands

theorem step (h : Closed r) (hs : r.step = some r') : Closed r' := by
  unfold Runner.step at hs
  split at hs
  · cases hs
  · next hd =>
    have hrunning : r.done = false := Bool.eq_false_iff.mpr hd
    split at hs
    · next o ho =>
      cases hs
      exact h.finishBody hrunning ho
    · obtain ⟨⟨q, resp⟩, hx, rfl⟩ := Option.map_eq_some_iff.mp hs
      have hq := h.exec hx
      have hdone : q.done = false := (r.exec_frame hx).done.trans hrunning
      exact ⟨fun _ => hq.running hdone, fun hd' => absurd (hdone.symm.trans hd') (by simp),
        hq.commands⟩

theorem runHandler (h : Closed r) {handler : Program σ} {fuel : Nat} {answers : List (Resp σ)}
    {o : Outcome} (hrun : Runner.runHandler handler fuel r answers = some (r', o)) : Closed r' := by
  induction fuel generalizing r answers with
  | zero => cases hrun
  | succ fuel ih =>
    unfold Runner.runHandler at hrun
    split at hrun
    · cases hrun
      exact h
    · split at hrun
      · next hx => exact ih (h.exec hx) hrun
      · cases hrun

theorem invoke (h : Closed r) (fuel : Nat) (p : Program σ) : Closed (r.invoke fuel p).1 := by
  unfold Runner.invoke
  split
  · exact ⟨h.running, h.ended, h.commands⟩
  · next hrun => exact h.runHandler hrun

theorem applyEventToState (h : Closed r) (ev : HistoryEvent) :
    Closed (r.applyEventToState ev) := by
  obtain ⟨scan, futures, he⟩ := r.applyEventToState_touches ev
  rw [he]
  exact ⟨h.running, h.ended, h.commands⟩

theorem runInvariant : RunInvariant fun r : Runner σ => r.Closed where
  step _ _ hs h := h.step hs
  exec _ _ _ _ _ hx h := h.exec hx
  applied _ ev h := h.applyEventToState ev
  deadlocked _ h := ⟨h.running, h.ended, h.commands⟩
  hung _ h := ⟨h.running, h.ended, h.commands⟩
  escaped _ h := ⟨h.running, h.ended, h.commands⟩

/-- Every runner is closed after its first task or replay. -/
theorem run (h : Closed r) (fuel : Nat) : Closed (r.run fuel) :=
  runInvariant.run fuel ⟨h.running, h.ended, by simp⟩

theorem applyEvents (h : Closed r) (evs : History) : Closed (r.applyEvents evs) := by
  unfold Runner.applyEvents
  induction evs generalizing r with
  | nil => exact h
  | cons e evs ih =>
    rw [List.foldl_cons]
    apply ih
    split_ifs
    · exact h
    · have he := h.applyEventToState e
      exact ⟨he.running, he.ended, he.commands⟩

/-- And stays so over every continuation. -/
theorem applyAndResume (h : Closed r) (fuel : Nat) (evs : History) :
    Closed (r.applyAndResume fuel evs) := by
  have hstart : Closed { r with commands := [], producedCommands := [] } :=
    ⟨h.running, h.ended, by simp⟩
  have happlied := hstart.applyEvents evs
  unfold Runner.applyAndResume
  dsimp only
  split_ifs
  · exact runInvariant.resumeCoroutine fuel happlied
  · exact happlied

theorem replay (info : WorkflowInfo) (isReplaying : Bool) (world : World σ) (fn : WorkflowFn σ)
    (history : History) : Closed (Runner.replay info isReplaying world fn history) where
  running _ := rfl
  ended hd := absurd hd Bool.false_ne_true
  commands := by simp [Runner.replay, Runner.new]

end Closed

section Back

variable {r r' : Runner σ} {fuel : Nat}

theorem step_keeps_bound (h : r.step = some r') :
    r'.started = r.started ∧ r'.deadlocked = r.deadlocked := by
  unfold step at h
  split at h
  · cases h
  · split at h
    · next o _ =>
      cases h
      cases o <;> exact ⟨rfl, rfl⟩
    · obtain ⟨x, hx, rfl⟩ := Option.map_eq_some_iff.mp h
      have hf := r.exec_frame hx
      exact ⟨hf.started, hf.deadlocked⟩

theorem startedInvariant : RunInvariant fun r : Runner σ => r.started = true where
  step _ _ hs h := (step_keeps_bound hs).1.trans h
  exec _ _ _ _ _ hx h := (exec_frame _ hx).started.trans h
  applied r ev h := by
    obtain ⟨scan, futures, he⟩ := r.applyEventToState_touches ev
    rw [he]
    exact h
  deadlocked _ h := h
  hung _ h := h
  escaped _ h := h

end Back

/-- A runner that is cached: its coroutine has been started and has yielded since. -/
structure Kept (r : Runner σ) : Prop where
  closed : r.Closed
  started : r.started = true
  live : r.deadlocked = false

theorem applyEvents_keeps (r : Runner σ) (evs : History) :
    (r.applyEvents evs).started = r.started ∧ (r.applyEvents evs).deadlocked = r.deadlocked := by
  obtain ⟨scan, futures, he⟩ := r.applyEvents_touches evs
  rw [he]
  exact ⟨rfl, rfl⟩

theorem Kept.invoke {r : Runner σ} (h : r.Kept) (fuel : Nat) (p : Program σ) :
    (r.invoke fuel p).1.Kept := by
  have hclosed := h.closed.invoke fuel p
  unfold Runner.invoke at hclosed ⊢
  split at hclosed
  · exact ⟨hclosed, h.started, h.live⟩
  · next hrun =>
    have hf := runHandler_frame hrun
    exact ⟨hclosed, hf.started.trans h.started, hf.deadlocked.trans h.live⟩

/-- A continuation resumes the coroutine of a cached runner. -/
theorem Kept.applyAndResume_eq {r : Runner σ} (h : r.Kept) (fuel : Nat) (evs : History) :
    r.applyAndResume fuel evs =
      ({ r with commands := [], producedCommands := [] }.applyEvents evs).resumeCoroutine fuel := by
  have happlied := (applyEvents_keeps { r with commands := [], producedCommands := [] } evs).1
  exact if_pos (happlied.trans h.started)

theorem Kept.applyAndResume_started {r : Runner σ} (h : r.Kept) (fuel : Nat) (evs : History) :
    (r.applyAndResume fuel evs).started = true := by
  rw [h.applyAndResume_eq]
  exact startedInvariant.resumeCoroutine fuel ((applyEvents_keeps _ evs).1.trans h.started)

/-- A callback changes neither how the body ended nor what is reported of it. -/
theorem invoke_ending (fuel : Nat) (r : Runner σ) (p : Program σ) :
    (r.invoke fuel p).1.terminalCommand = r.terminalCommand ∧
      (r.invoke fuel p).1.isDone = r.isDone := by
  unfold invoke
  split
  · exact ⟨rfl, rfl⟩
  · next r' o hrun =>
    have hf := runHandler_frame hrun
    refine ⟨Closed.terminalCommand_of_frame hf, ?_⟩
    simp only [isDone, hf.started, hf.done]

theorem processMessages_ending (fuel : Nat) (identity : String) (r : Runner σ)
    (msgs : List TaskMessage) :
    (r.processMessages fuel identity msgs).1.terminalCommand = r.terminalCommand ∧
      (r.processMessages fuel identity msgs).1.isDone = r.isDone := by
  refine processMessages_keeps (Q := fun q => q.terminalCommand = r.terminalCommand ∧
    q.isDone = r.isDone) (fun q p hq => ?_) ⟨rfl, rfl⟩ identity msgs
  obtain ⟨hterminal, hdone⟩ := q.invoke_ending fuel p
  exact ⟨hterminal.trans hq.1, hdone.trans hq.2⟩

end Runner

namespace TaskHandler

variable (h : TaskHandler σ) (remote : Remote) (s : HandlerState σ) (task : WorkflowTask)

/-- The call runs the body of `r` to its next suspension or its end: by a replay, a continuation
or the rebuild of a query. -/
inductive Drives : Runner σ → Prop
  | replayed {fn : WorkflowFn σ} {events : History}
      (hfn : h.workflows task.workflowType = some fn)
      (hpage : assembleHistory remote.stub h.ns task.workflowId task.runId remote.pageFuel
        task.page = some (.ok events))
      (hquery : task.query = none) (hfull : isFullHistory events = true) :
      Drives (h.replayed fn task events)
  | continued {fn : WorkflowFn σ} {events : History} {addr : Nat} {r : Runner σ}
      (hfn : h.workflows task.workflowType = some fn)
      (hpage : assembleHistory remote.stub h.ns task.workflowId task.runId remote.pageFuel
        task.page = some (.ok events))
      (hquery : task.query = none) (hpart : isFullHistory events = false)
      (hfit : Fits s task events addr r) : Drives (r.applyAndResume h.fuel events)
  | rebuilt {fn : WorkflowFn σ} {full : History}
      (hfn : h.workflows task.workflowType = some fn) (hquery : task.query.isSome = true)
      (hfetch : queryHistory remote.stub h.ns task.workflowId task.runId remote.pageFuel =
        some (.ok full)) :
      Drives ((Runner.replay (h.info task) true h.queryWorld fn full).run h.fuel)

variable {h remote s task}

theorem replayed_closed (fn : WorkflowFn σ) (events : History) :
    (h.replayed fn task events).Closed :=
  (Runner.Closed.replay _ _ _ _ _).run h.fuel

theorem replayed_started (fn : WorkflowFn σ) (events : History) :
    (h.replayed fn task events).started = true :=
  Runner.startedInvariant.run h.fuel rfl

/-- The runner that a continuation finds. -/
theorem kept_of_fits {events : History} {addr : Nat} {r : Runner σ}
    (hs : s.Cached fun _ q => q.Kept) (hfit : Fits s task events addr r) : r.Kept := by
  obtain ⟨q, hq, hkept⟩ := hs.holds _ _ hfit.1
  rw [hfit.2.1, Option.some.injEq] at hq
  exact hq ▸ hkept

theorem Drives.closed {r : Runner σ} (hs : s.Cached fun _ q => q.Kept)
    (hr : h.Drives remote s task r) : r.Closed := by
  cases hr with
  | replayed => exact replayed_closed _ _
  | continued hfn hpage hquery hpart hfit =>
    exact (kept_of_fits hs hfit).closed.applyAndResume h.fuel _
  | rebuilt => exact (Runner.Closed.replay _ _ _ _ _).run h.fuel

theorem Progresses.started {r : Runner σ} (hs : s.Cached fun _ q => q.Kept)
    (hr : h.Progresses remote s task r) : r.started = true := by
  cases hr with
  | replayed => exact replayed_started _ _
  | continued hfn hpage hquery hpart hfit =>
    exact (kept_of_fits hs hfit).applyAndResume_started h.fuel _

/-- The commands of a completed response are those of the body and the terminal command. -/
theorem Progresses.commands_eq {r : Runner σ} {req : TaskCompleted}
    (hr : h.Progresses remote s task r)
    (hsent : .workflowTaskCompleted req ∈ (h.handle remote s task).sent) :
    req.commands = r.commands ++ r.terminalCommand.toList := by
  obtain ⟨r₁, messages, r₂, results, hmessages, -, hcommands, -⟩ := hr.completed_eq hsent
  have hending := (r.processMessages_ending h.fuel h.identity task.messages).1
  rw [hmessages] at hending
  rw [hcommands, hending]

end TaskHandler

end TemporalSdk
