import TemporalSdk.VersionReplay

/-! `GetVersion` and the loss of cached runners: the first call for a change takes the highest
version it supports on every runner but one that was built again for a task in which the change is
new. -/
namespace TemporalSdk
open StateTransition (Reaches)

variable {σ : Type}

/-- A call for a change is answered by the highest version it supports. -/
def TakesMax : Op σ → Resp σ → Prop
  | .getVersion _ _ hi, resp => resp = .version hi
  | _, _ => True

namespace Runner

/-- If a runner is asked for a change it does not know, it answers with the highest version the
call supports, and records it. -/
def FirstTakesMax (r : Runner σ) : Prop :=
  ∀ id lo hi, r.program r.trace = .getVersion id lo hi → r.changeVersions id = none →
    ∃ q, r.exec (.getVersion id lo hi) = some (q, .version hi) ∧
      q.commands = r.commands ++
        [.recordMarker "Version" (versionDetails r.world.converter id hi)]

theorem firstTakesMax_iff_dated (r : Runner σ) : r.FirstTakesMax ↔ r.Dated := by
  constructor
  · rintro h ⟨id, hi⟩ hx hr
    cases hop : r.program r.trace with
    | getVersion changeId lo maxSupported =>
      rw [hop] at hx
      cases hx
      by_contra hnone
      rw [Option.not_isSome_iff_eq_none] at hnone
      obtain ⟨q, hq, hcmds⟩ := h id lo hi hop hnone
      -- on a runner that replays the call leaves nothing behind
      have hkept : q.commands = r.commands := by
        have hexec : some (r.getVersion id lo hi) = some (q, .version hi) := hq
        simp only [getVersion, hnone, hr, if_true] at hexec
        cases hexec
        rfl
      rw [hkept] at hcmds
      exact absurd hcmds (by simp)
    | _ =>
      rw [hop] at hx
      cases hx
  · intro h id lo hi hop hnone
    have hr : r.isReplaying = false := by
      cases hr : r.isReplaying with
      | false => rfl
      | true =>
        have hsome := h (id, hi) (by rw [hop]; rfl) hr
        rw [hnone] at hsome
        cases hsome
    refine ⟨(r.getVersion id lo hi).1, ?_, ?_⟩
    · simp only [exec, getVersion, hnone, hr, Bool.false_eq_true, if_false]
    · simp only [getVersion, hnone, hr, Bool.false_eq_true, if_false]
      rfl

/-- Every call for a version so far was the first for its change, took the highest version it
supports, and is on record or about to be recorded by one marker. -/
structure VersionsTaken (c : DataConverter) (past : History) (r : Runner σ) : Prop where
  answered : r.program.Answered TakesMax r.trace
  once : (r.asked.map Prod.fst).Nodup
  marked : r.versionMarks (History.commandEvents past) = r.asked.map (encodeVersion c)

end Runner

section Courses

variable {info : WorkflowInfo} {world : World σ} {fn : WorkflowFn σ} {s : Setting σ} {S : Prescan}

theorem Progress.step_takesMax {b b' : Progress σ} (h : s.program.Answered TakesMax b.trace)
    (hs : b.step s S = some b') : s.program.Answered TakesMax b'.trace := by
  unfold Progress.step at hs
  split at hs
  · cases hs
  · split at hs
    · cases hs
      exact h
    · obtain ⟨⟨q, resp⟩, hx, rfl⟩ := Option.map_eq_some_iff.mp hs
      refine h.concat ?_
      cases hop : s.program b.trace with
      | getVersion id lo hi =>
        simp only [hop, Progress.exec, Option.ite_none_right_eq_some, Option.some.injEq,
          Prod.mk.injEq] at hx
        exact hx.2.2.symm
      | _ => trivial

theorem Progress.reaches_takesMax {b b' : Progress σ} (h : s.program.Answered TakesMax b.trace)
    (hr : Reaches (Progress.step s S) b b') : s.program.Answered TakesMax b'.trace := by
  induction hr with
  | refl => exact h
  | tail _ hs ih => exact Progress.step_takesMax ih hs

theorem Course.takesMax {past : History} {b : Progress σ} {hs : List History}
    {bs : List (Progress σ)} (h : Course info world fn s past b hs bs)
    (hb : s.program.Answered TakesMax b.trace) :
    ∀ b' ∈ bs, s.program.Answered TakesMax b'.trace := by
  induction h with
  | nil past b => nofun
  | cons _ _ _ _ _ _ _ _ _ waits _ ih =>
    have hnext := Progress.reaches_takesMax hb (StateTransition.mem_eval.mp waits).1
    exact List.forall_mem_cons.mpr ⟨hnext, ih hnext⟩

/-- Along the course of a body every runner has taken the versions the body asked for. -/
theorem Course.versionsTaken {hs : List History} {bs : List (Progress σ)} {rs : List (Runner σ)}
    (h : Course info world fn s [] s.start hs bs) {evicted : Nat → Bool}
    (hall : ServesAll s evicted 0 true [] s.start hs bs rs)
    (hc : s.world.converter.RoundTrips) {i : Nat} {r : Runner σ} (hr : rs[i]? = some r) :
    r.VersionsTaken s.world.converter (hs.take (i + 1)).flatten := by
  obtain ⟨b, hb, hcached, hregular, hevents, -⟩ :=
    h.arrivesAt hall hc (Progress.start_regular s) hr
  obtain ⟨_, _, hcar⟩ := hcached.carries
  have hanswered := h.takesMax (Program.answered_nil _ _) b (List.mem_of_getElem? hb)
  have hasked : r.asked = s.program.versions b.trace := by
    rw [Runner.asked, hcar.program, hcar.trace]
  refine ⟨?_, ?_, ?_⟩
  · rw [hcar.program, hcar.trace]
    exact hanswered
  · rw [hasked]
    exact hregular.toVersioned.once
  · rw [List.nil_append] at hevents
    rw [Runner.versionMarks, ← hevents, hregular.toVersioned.markers, hasked]

end Courses

variable {info : WorkflowInfo} {world : World σ} {fn : WorkflowFn σ}

/-- In another world with the same code the same versions are taken. -/
theorem Runner.VersionsTaken.rewired {c : DataConverter} {past : History} {r q : Runner σ}
    (h : r.VersionsTaken c past) (hq : r.Rewired q) : q.VersionsTaken c past := by
  have hasked : q.asked = r.asked := by rw [Runner.asked, Runner.asked, hq.program, hq.trace]
  refine ⟨?_, ?_, ?_⟩
  · rw [hq.program, hq.trace]
    exact h.answered
  · rw [hasked]
    exact h.once
  · rw [hasked, ← h.marked, hq.same]
    rfl

/-- A first call for a change takes the highest version and leaves its marker throughout the tasks
of an execution exactly when it never comes on a runner that was built again and does not find the
change on record. Executions that differ in the runners they lose, and in the worlds these are built
in again, and are like that, get the same versions and emit the same commands, each version once. -/
theorem Runner.versions_survive_eviction (hc : world.converter.RoundTrips) {batches : List History}
    (hserved : Served batches.flatten) (hu : UpdateFree batches.flatten)
    (hstart : ∀ h ∈ batches.tail, ∀ e ∈ h, e.attributes.isStarted = false) {fuel : Nat}
    {evicted : Nat → Bool} :
    (∀ worlds,
      Runner.ThroughoutIn fuel info fn Runner.FirstTakesMax worlds evicted 0 [] none batches ↔
        Runner.ThroughoutIn fuel info fn Runner.Dated worlds evicted 0 [] none batches) ∧
    (Runner.Throughout fuel info world fn Runner.Repeats evicted 0 [] none batches →
      Runner.UndisturbedAll fuel info world fn evicted 0 [] none batches →
      RecordedBy (Runner.tasks fuel info world fn evicted batches) batches →
      (∀ r ∈ Runner.tasks fuel info world fn evicted batches, r.deadlocked = false) →
      ∀ evicted' worlds, world.AgreeBeyond worlds batches → ∃ enough, ∀ fuel' ≥ enough,
        Runner.ThroughoutIn fuel' info fn Runner.Dated worlds evicted' 0 [] none batches →
        List.Forall₂ SameAnswer (Runner.tasks fuel info world fn evicted batches)
          (Runner.tasksIn fuel' info fn worlds evicted' batches) ∧
        (∀ (i : Nat) (r : Runner σ),
          (Runner.tasks fuel info world fn evicted batches)[i]? = some r ∨
            (Runner.tasksIn fuel' info fn worlds evicted' batches)[i]? = some r →
          r.VersionsTaken world.converter (batches.take (i + 1)).flatten) ∧
        ∀ i r, (Runner.tasksIn fuel' info fn worlds evicted' batches)[i]? = some r →
          (i = 0 ∨ evicted' i = true) → r.checkDeterminism = none) := by
  refine ⟨fun worlds => ⟨fun h => h.imp fun r => r.firstTakesMax_iff_dated.mp,
    fun h => h.imp fun r => r.firstTakesMax_iff_dated.mpr⟩, ?_⟩
  intro hop hund hrec hlive evicted' worlds hworlds
  obtain ⟨bs, hcourse, hall, enough, henough⟩ := Runner.tasks_course info world fn hc hserved hu
    hstart (hop.imp fun _ => Runner.Repeats.redoes) (.of_repeats hop) hund hrec hlive evicted' rfl
  refine ⟨enough, fun fuel' hfuel hdated => ?_⟩
  obtain ⟨hall', hdet⟩ := henough fuel' hfuel ((hworlds.dated_iff hu).mp hdated)
  obtain ⟨hsame, hdet'⟩ := hworlds.answers hu ⟨hall.sameAnswers hall', hdet⟩
  refine ⟨hsame, fun i q hq => ?_, hdet'⟩
  rcases hq with hq | hq
  · exact hcourse.versionsTaken hall hc hq
  · obtain ⟨r, hr, hrew⟩ := exists_of_forall₂ (hworlds.rewired hu fuel' info fn evicted') hq
    exact (hcourse.versionsTaken hall' hc hr).rewired hrew

section Changes

/-- A body that was changed before its two rests, and rolls a die there. -/
def changeThenRest : WorkflowFn Unit where
  init := ()
  body _ answers :=
    match answers with
    | [] => .getVersion "pricing" 1 2
    | [_] => .sideEffect
    | [_, _] => .startTimer 1000000000
    | [_, _, _] => .get 0
    | [_, _, _, _] => .startTimer 1000000000
    | [_, _, _, _, _] => .get 1
    | _ => .finish (.returned [])

def changeThenRestTasks : List History :=
  [[⟨1, .workflowExecutionStarted "ChangeThenRest" [] []⟩, ⟨2, .other⟩, ⟨3, .other⟩],
    [⟨4, .other⟩, ⟨5, versioned "pricing" 2⟩, ⟨6, rolled 0 (.int 6)⟩, ⟨7, .timerStarted "t0"⟩,
      ⟨8, .timerFired "t0"⟩, ⟨9, .other⟩, ⟨10, .other⟩],
    [⟨11, .other⟩, ⟨12, .timerStarted "t1"⟩, ⟨13, .timerFired "t1"⟩, ⟨14, .other⟩, ⟨15, .other⟩]]

theorem changeThenRest_survives_eviction :
    ∃ fuel, List.Forall₂ SameAnswer
        (Runner.tasks 10 {} (dice fun _ => .ok (.int 6)) changeThenRest (fun n => n == 1)
          changeThenRestTasks)
        (Runner.tasksIn fuel {} changeThenRest
          ((dice fun _ => .ok (.int 6)).spentAt changeThenRestTasks) (fun n => n == 2)
          changeThenRestTasks) ∧
      ∀ r, (Runner.tasksIn fuel {} changeThenRest
        ((dice fun _ => .ok (.int 6)).spentAt changeThenRestTasks) (fun n => n == 2)
        changeThenRestTasks)[2]? = some r →
          r.VersionsTaken .tagged changeThenRestTasks.flatten ∧ r.checkDeterminism = none := by
  have hreports : (Runner.tasks 10 {} (dice fun _ => .ok (.int 6)) changeThenRest
      (fun n => n == 1) changeThenRestTasks).map Runner.report =
      [([versioned "pricing" 2, rolled 0 (.int 6), .timerStarted "t0"], none, false),
        ([.timerStarted "t1"], none, false),
        ([], some (.completeWorkflowExecution []), false)] := by decide +kernel
  have hserved : Served changeThenRestTasks.flatten :=
    ⟨by decide +kernel, by decide +kernel, by decide +kernel, by decide +kernel⟩
  have hu : UpdateFree changeThenRestTasks.flatten := by decide +kernel
  have hworlds := (dice fun _ => .ok (.int 6)).agreeBeyond_spentAt changeThenRestTasks
  obtain ⟨enough, henough⟩ := (Runner.versions_survive_eviction DataConverter.tagged_roundTrips
    hserved hu (by decide +kernel)).2 (.of_holds (by decide +kernel))
    (.of_waiting (.of_holds (by decide +kernel)))
    (.of_reports hreports (by decide +kernel) (by decide +kernel))
    (Runner.live_of_reports hreports (by decide +kernel)) (fun n => n == 2) _ hworlds
  have hdated : Runner.Throughout 10 {} (dice fun _ => .ok (.int 6)) changeThenRest Runner.Dated
      (fun n => n == 2) 0 [] none changeThenRestTasks := .of_holds (by decide +kernel)
  obtain ⟨hsame, htaken, hdet⟩ := henough (max enough 10) (le_max_left enough 10)
    ((hworlds.dated_iff hu).mpr (.mono (le_max_right enough 10) hu
      (Runner.live_of_all (by decide +kernel)) hdated))
  exact ⟨_, hsame, fun r hr => ⟨htaken 2 r (.inr hr), hdet 2 r hr (.inr rfl)⟩⟩

/-- A body that was changed after its rest. -/
def restThenChange : WorkflowFn Unit where
  init := ()
  body _ answers :=
    match answers with
    | [] => .startTimer 1000000000
    | [_] => .get 0
    | [_, _] => .getVersion "pricing" 1 2
    | _ => .finish (.returned [])

def restThenChangeTasks : List History :=
  [[⟨1, .workflowExecutionStarted "RestThenChange" [] []⟩, ⟨2, .other⟩, ⟨3, .other⟩],
    [⟨4, .other⟩, ⟨5, .timerStarted "t0"⟩, ⟨6, .timerFired "t0"⟩, ⟨7, .other⟩, ⟨8, .other⟩]]

/-- The cached runner gives the new branch and records it; one built again for the same task gives
the old branch, outside the range of the call, and records nothing. -/
theorem restThenChange_depends_on_eviction :
    (∀ evicted : Nat → Bool, (evicted = fun _ => false) ∨ (evicted = fun n => n == 1) →
      RecordedBy (Runner.tasks 10 {} (World.plain .tagged) restThenChange evicted
        restThenChangeTasks) restThenChangeTasks) ∧
    (Runner.tasks 10 {} (World.plain .tagged) restThenChange (fun _ => false)
        restThenChangeTasks).map (fun r => (r.trace[2]?, r.commands.map Command.event)) =
      [(none, [.timerStarted "t0"]), (some (.version 2), [versioned "pricing" 2])] ∧
    (Runner.tasks 10 {} (World.plain .tagged) restThenChange (fun n => n == 1)
        restThenChangeTasks).map (fun r => (r.trace[2]?, r.commands.map Command.event)) =
      [(none, [.timerStarted "t0"]), (some (.version (-1)), [])] := by
  refine ⟨?_, by decide +kernel, by decide +kernel⟩
  have hcached : (Runner.tasks 10 {} (World.plain .tagged) restThenChange (fun _ => false)
      restThenChangeTasks).map Runner.report =
      [([.timerStarted "t0"], none, false),
        ([versioned "pricing" 2], some (.completeWorkflowExecution []), false)] := by
    decide +kernel
  have hrebuilt : (Runner.tasks 10 {} (World.plain .tagged) restThenChange (fun n => n == 1)
      restThenChangeTasks).map Runner.report =
      [([.timerStarted "t0"], none, false),
        ([], some (.completeWorkflowExecution []), false)] := by decide +kernel
  rintro evicted (rfl | rfl)
  · exact .of_reports hcached (by decide +kernel) (by decide +kernel)
  · exact .of_reports hrebuilt (by decide +kernel) (by decide +kernel)

end Changes
end TemporalSdk
