import TemporalSdk.Worlds

/-! Observations on replay. `ScanHistory` resolves everything before the body starts, so what an
observation missed in its own task may be there when a fresh runner makes it again. -/
namespace TemporalSdk
open StateTransition (Reaches)

variable {σ : Type}

/-- A body may observe: as long as no later event brings what an observation has missed, a fresh
runner, in whatever world it is built that agrees beyond the record, gives every observation the
answer it had, takes the same case of every `Select`, and reproduces the recorded commands. -/
theorem Runner.observations_replay_stable (info : WorkflowInfo) (world : World σ)
    (fn : WorkflowFn σ)
    (hop : ∀ input answers, ((Runner.chain world fn).body input answers).Replayable world)
    (hc : world.converter.RoundTrips) (batches : List History) (hserved : Served batches.flatten)
    (hu : UpdateFree batches.flatten)
    (hstart : ∀ h ∈ batches.tail, ∀ e ∈ h, e.attributes.isStarted = false) (fuel : Nat)
    (hrec : RecordedBy (Runner.tasks fuel info world fn (fun _ => false) batches) batches)
    (hlive : ∀ r ∈ Runner.tasks fuel info world fn (fun _ => false) batches, r.deadlocked = false)
    (hund : Runner.UndisturbedAll fuel info world fn (fun _ => false) 0 [] none batches)
    (evicted : Nat → Bool) (worlds : Nat → World σ) (hworlds : world.AgreeBeyond worlds batches) :
    ∃ enough, ∀ fuel' ≥ enough,
      List.Forall₂ SameAnswer (Runner.tasks fuel info world fn (fun _ => false) batches)
        (Runner.tasksIn fuel' info fn worlds evicted batches) ∧
      ∀ i r, (Runner.tasksIn fuel' info fn worlds evicted batches)[i]? = some r →
        (i = 0 ∨ evicted i = true) → r.checkDeterminism = none := by
  have hrepeats (n : Nat) (lost : Nat → Bool) :
      Runner.Throughout n info world fn Runner.Repeats lost 0 [] none batches :=
    .of_replayable hop hu
  obtain ⟨enough, henough⟩ := Runner.tasks_agree info world fn hc hserved hu hstart
    ((hrepeats fuel _).imp fun _ => Runner.Repeats.redoes) (.of_repeats (hrepeats fuel _)) hund hrec
    hlive evicted
  exact ⟨enough, fun fuel' hfuel => hworlds.answers hu
    (henough fuel' hfuel ((hrepeats fuel' evicted).imp fun _ => Runner.Repeats.dated))⟩

/-- `Undisturbed`, checked along a run of at most `n` steps. -/
def Runner.undisturbedFor (later : History) : Nat → Runner σ → Bool
  | 0, r => r.step.isNone
  | n + 1, r =>
    match r.step with
    | none => true
    | some d =>
      ((r.program r.trace).missed r.found).all (fun l => !(r.applyEvents later).found l) &&
        undisturbedFor later n d

theorem Runner.undisturbed_of_undisturbedFor {later : History} {n : Nat} {r : Runner σ}
    (h : r.undisturbedFor later n = true) : r.Undisturbed later := by
  induction n generalizing r with
  | zero =>
    intro c d hr hs
    rcases hr.cases_head with rfl | ⟨e, he, -⟩
    · rw [undisturbedFor, hs] at h
      cases h
    · rw [undisturbedFor, show r.step = some e from he] at h
      cases h
  | succ n ih =>
    intro c d hr hs l hl
    rw [undisturbedFor] at h
    rcases hr.cases_head with rfl | ⟨e, he, hec⟩
    · rw [hs, Bool.and_eq_true, List.all_eq_true] at h
      exact Bool.not_eq_true' _ |>.mp (h.1 l hl)
    · rw [show r.step = some e from he, Bool.and_eq_true] at h
      exact ih h.2 c d hec hs l hl

/-- An activity raced against a timer; the timer wins, the body rests once more. -/
def raceThenRest : WorkflowFn Unit where
  init := ()
  body _ answers :=
    match answers with
    | [] => .scheduleActivity "Greet" [] {}
    | [_] => .startTimer 1000000000
    | [_, _] => .select [.future 0, .future 1] false
    | [_, _, .selected (some 1)] => .startTimer 2000000000
    | [_, _, .selected (some 1), _] => .get 2
    | _ => .finish (.returned [])

/-- The two tasks in which the timer wins the race. -/
def raceTasks : List History :=
  [[⟨1, .workflowExecutionStarted "RaceThenRest" [] []⟩, ⟨2, .other⟩, ⟨3, .other⟩],
    [⟨4, .other⟩, ⟨5, .activityTaskScheduled "0" "Greet"⟩, ⟨6, .timerStarted "t0"⟩,
      ⟨7, .timerFired "t0"⟩, ⟨8, .other⟩, ⟨9, .other⟩]]

/-- The activity answers after the race, while the body rests. -/
def lateRace : List History :=
  raceTasks ++
    [[⟨10, .other⟩, ⟨11, .timerStarted "t1"⟩, ⟨12, .activityTaskCompleted 5 []⟩, ⟨13, .other⟩,
      ⟨14, .other⟩]]

/-- A body that rolls a die first; its activity never answers. -/
def rollThenRace : WorkflowFn Unit where
  init := ()
  body _ answers :=
    match answers with
    | [] => .sideEffect
    | [_] => .scheduleActivity "Greet" [] {}
    | [_, _] => .startTimer 1000000000
    | [_, _, _] => .select [.future 0, .future 1] false
    | [_, _, _, .selected (some 1)] => .startTimer 2000000000
    | [_, _, _, .selected (some 1), _] => .get 2
    | _ => .finish (.returned [])

def rollThenRaceTasks : List History :=
  [[⟨1, .workflowExecutionStarted "RollThenRace" [] []⟩, ⟨2, .other⟩, ⟨3, .other⟩],
    [⟨4, .other⟩, ⟨5, rolled 0 (.int 6)⟩, ⟨6, .activityTaskScheduled "0" "Greet"⟩,
      ⟨7, .timerStarted "t0"⟩, ⟨8, .timerFired "t0"⟩, ⟨9, .other⟩, ⟨10, .other⟩],
    [⟨11, .other⟩, ⟨12, .timerStarted "t1"⟩, ⟨13, .timerFired "t1"⟩, ⟨14, .other⟩, ⟨15, .other⟩]]

theorem rollThenRace_replayable (input : Payloads) (answers : List (Resp Unit)) :
    ((Runner.chain (dice fun _ => .ok (.int 6)) rollThenRace).body input answers).Replayable
      (dice fun _ => .ok (.int 6)) := by
  change (rollThenRace.body input answers).Replayable _
  unfold rollThenRace
  dsimp only
  split <;> first
    | trivial
    | exact fun _ => ⟨_, rfl⟩

theorem Runner.undisturbed_of_inits {batches : List History} {n : Nat} {r : Runner σ}
    (h : ∀ pre ∈ batches.inits, r.undisturbedFor pre.flatten n = true) :
    ∀ pre, pre <+: batches → r.Undisturbed pre.flatten :=
  fun pre hpre => undisturbed_of_undisturbedFor (h pre ((List.mem_inits pre batches).mpr hpre))

theorem rollThenRace_replay_stable :
    ∃ enough, ∀ fuel ≥ enough,
      List.Forall₂ SameAnswer
        (Runner.tasks 10 {} (dice fun _ => .ok (.int 6)) rollThenRace (fun _ => false)
          rollThenRaceTasks)
        (Runner.tasksIn fuel {} rollThenRace
          ((dice fun _ => .ok (.int 6)).spentAt rollThenRaceTasks) (fun n => n == 2)
          rollThenRaceTasks) ∧
      ∀ i r, (Runner.tasksIn fuel {} rollThenRace
        ((dice fun _ => .ok (.int 6)).spentAt rollThenRaceTasks) (fun n => n == 2)
        rollThenRaceTasks)[i]? = some r → (i = 0 ∨ (i == 2) = true) →
          r.checkDeterminism = none := by
  have hreports : (Runner.tasks 10 {} (dice fun _ => .ok (.int 6)) rollThenRace (fun _ => false)
      rollThenRaceTasks).map Runner.report =
      [([rolled 0 (.int 6), .activityTaskScheduled "0" "Greet", .timerStarted "t0"], none, false),
        ([.timerStarted "t1"], none, false),
        ([], some (.completeWorkflowExecution []), false)] := by decide +kernel
  have hserved : Served rollThenRaceTasks.flatten :=
    ⟨by decide +kernel, by decide +kernel, by decide +kernel, by decide +kernel⟩
  have hund : Runner.UndisturbedAll 10 {} (dice fun _ => .ok (.int 6)) rollThenRace
      (fun _ => false) 0 [] none rollThenRaceTasks := by
    refine ⟨Runner.undisturbed_of_inits (n := 10) ?_, Runner.undisturbed_of_inits (n := 10) ?_,
      Runner.undisturbed_of_inits (n := 10) ?_, trivial⟩ <;> decide +kernel
  exact Runner.observations_replay_stable {} (dice fun _ => .ok (.int 6)) rollThenRace
    rollThenRace_replayable DataConverter.tagged_roundTrips rollThenRaceTasks hserved
    (by decide +kernel) (by decide +kernel) 10
    (.of_reports hreports (by decide +kernel) (by decide +kernel))
    (Runner.live_of_reports hreports (by decide +kernel)) hund (fun n => n == 2) _
    (World.agreeBeyond_spentAt _ _)

/-- The body saw the timer win; a fresh runner sees the activity, and its commands are no longer
those on record. -/
theorem lateRace_replay_differs :
    RecordedBy (Runner.tasks 10 {} (.plain .tagged) raceThenRest (fun _ => false) lateRace)
        lateRace ∧
      Served lateRace.flatten ∧ UpdateFree lateRace.flatten ∧
      ((Runner.tasks 10 {} (.plain .tagged) raceThenRest (fun _ => false) lateRace)[2]?.map
        fun r => (r.trace[2]?, r.deadlocked)) = some (some (.selected (some 1)), false) ∧
      ((Runner.tasks 10 {} (.plain .tagged) raceThenRest (fun n => n == 2) lateRace)[2]?.map
        fun r => (r.trace[2]?, r.deadlocked, r.checkDeterminism)) =
          some (some (.selected (some 0)), false,
            some ("[TMPRL1100] nondeterministic workflow: at command #2 history recorded " ++
              "StartTimer/t1 but replay produced CompleteWorkflowExecution")) := by
  have hreports : (Runner.tasks 10 {} (.plain .tagged) raceThenRest (fun _ => false)
      lateRace).map Runner.report =
      [([.activityTaskScheduled "0" "Greet", .timerStarted "t0"], none, false),
        ([.timerStarted "t1"], none, false), ([], none, false)] := by decide +kernel
  exact ⟨.of_reports hreports (by decide +kernel) (by decide +kernel),
    ⟨by decide +kernel, by decide +kernel, by decide +kernel, by decide +kernel⟩,
    by decide +kernel, by decide +kernel, by decide +kernel⟩

end TemporalSdk
