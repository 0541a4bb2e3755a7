import TemporalSdk.Identity

/-! Answering a query from history. `BuildRunnerForQuery` gives its runner fewer collaborators
than the task path does: no interceptors, no local activities and no deadlock timeout. -/
namespace TemporalSdk

variable {σ : Type}

/-- The same surroundings without interceptors and local activities. -/
def World.bare (w : World σ) : World σ :=
  { w with localActivityResolver := none, interceptors := [] }

/-- A call of a local activity. -/
def Op.localCall? : Op σ → Option (String × Payloads × LocalActivityOptions)
  | .executeLocalActivity type input options => some (type, input, options)
  | _ => none

namespace Runner

/-- The runner as the query path builds it. The commands it would send are never used. -/
def rebuilt (r : Runner σ) (cs : List Command) : Runner σ :=
  { r with world := r.world.bare, commands := cs }

/-- What can be seen of the workflow from inside: where its body is and what it has seen, its
variables, its handlers, its futures and its signals. -/
def view (r : Runner σ) : Runner σ := r.rebuilt []

/-- `q` is `r` on the query path. -/
def Rebuilt (r q : Runner σ) : Prop := ∃ cs, q = r.rebuilt cs

theorem Rebuilt.ite {c : Prop} [Decidable c] {r r' q q' : Runner σ} (h : Rebuilt r q)
    (h' : Rebuilt r' q') : Rebuilt (if c then r else r') (if c then q else q') := by
  by_cases hc : c
  · rwa [if_pos hc, if_pos hc]
  · rwa [if_neg hc, if_neg hc]

/-- The error of a local activity on a worker that has none. -/
def unavailable : Resp σ :=
  .applicationError "local activities are not available on this worker" "LocalActivityError"

/-- The operation does without the worker's local activities: its outcome is in history, or it
fails as if there were none. -/
def AnsweredBare (r : Runner σ) (op : Op σ) : Prop :=
  ∀ c ∈ op.localCall?, (r.scan.localActivities[r.localActivitySeq]?).isSome ∨
    (r.executeLocalActivity c.1 c.2.1 c.2.2).2 = unavailable

instance [DecidableEq σ] (r : Runner σ) (op : Op σ) : Decidable (r.AnsweredBare op) :=
  inferInstanceAs (Decidable (∀ c ∈ op.localCall?, _))

section Operations

variable (r : Runner σ) (cs : List Command)

theorem scheduleActivity_rebuilt (type : String) (input : Payloads) (options : ActivityOptions) :
    Rebuilt (r.scheduleActivity type input options)
      ((r.rebuilt cs).scheduleActivity type input options) := by
  unfold scheduleActivity openOperation
  dsimp only [rebuilt]
  split <;> exact ⟨_, rfl⟩

theorem startTimer_rebuilt (duration : Int) :
    Rebuilt (r.startTimer duration) ((r.rebuilt cs).startTimer duration) := by
  unfold startTimer
  dsimp only [rebuilt]
  split <;> exact ⟨_, rfl⟩

theorem startChildWorkflow_rebuilt (type : String) (input : Payloads)
    (options : ChildWorkflowOptions) : Rebuilt (r.startChildWorkflow type input options)
      ((r.rebuilt cs).startChildWorkflow type input options) := by
  have hid : (r.rebuilt cs).childId options = r.childId options := rfl
  unfold startChildWorkflow openOperation
  rw [hid]
  dsimp only [rebuilt]
  split <;> exact ⟨_, rfl⟩

theorem scheduleNexusOperation_rebuilt (endpoint service operation : String) (input : Payload)
    (close : Int) : Rebuilt (r.scheduleNexusOperation endpoint service operation input close)
      ((r.rebuilt cs).scheduleNexusOperation endpoint service operation input close) := by
  unfold scheduleNexusOperation openOperation
  dsimp only [rebuilt]
  split <;> exact ⟨_, rfl⟩

theorem requestCancelExternal_rebuilt (id : String) (childOnly : Bool) :
    Rebuilt (r.requestCancelExternal id childOnly)
      ((r.rebuilt cs).requestCancelExternal id childOnly) := by
  unfold requestCancelExternal
  dsimp only [rebuilt]
  split <;> exact ⟨_, rfl⟩

theorem cancel_rebuilt (addr : Nat) : Rebuilt (r.cancel addr) ((r.rebuilt cs).cancel addr) := by
  unfold cancel
  dsimp only [rebuilt]
  split
  · exact ⟨_, rfl⟩
  · split
    · split <;> exact ⟨_, rfl⟩
    · split
      · exact ⟨_, rfl⟩
      · split <;> exact ⟨_, rfl⟩
    · exact r.requestCancelExternal_rebuilt cs _ _
    · exact ⟨_, rfl⟩
    · exact ⟨_, rfl⟩

theorem signalExternalWorkflow_rebuilt (id name : String) (input : Payloads) :
    Rebuilt (r.signalExternalWorkflow id name input)
      ((r.rebuilt cs).signalExternalWorkflow id name input) := by
  unfold signalExternalWorkflow
  dsimp only [rebuilt]
  exact Rebuilt.ite ⟨_, rfl⟩ ⟨_, rfl⟩

theorem upsertSearchAttributes_rebuilt (attributes : List (String × Payload)) :
    Rebuilt (r.upsertSearchAttributes attributes)
      ((r.rebuilt cs).upsertSearchAttributes attributes) := by
  unfold upsertSearchAttributes
  dsimp only [rebuilt]
  exact Rebuilt.ite ⟨_, rfl⟩ ⟨_, rfl⟩

theorem awaitCancellation_rebuilt :
    Rebuilt r.awaitCancellation (r.rebuilt cs).awaitCancellation := by
  unfold awaitCancellation
  dsimp only [rebuilt]
  exact Rebuilt.ite ⟨_, rfl⟩ ⟨_, rfl⟩

/-- An operation that always answers gives the same answer on the query path. -/
def AnswersAlike (x y : Runner σ × Resp σ) : Prop := Rebuilt x.1 y.1 ∧ y.2 = x.2

theorem AnswersAlike.ite {c : Prop} [Decidable c] {x x' y y' : Runner σ × Resp σ}
    (h : AnswersAlike x y) (h' : AnswersAlike x' y') :
    AnswersAlike (if c then x else x') (if c then y else y') := by
  by_cases hc : c
  · rwa [if_pos hc, if_pos hc]
  · rwa [if_neg hc, if_neg hc]

theorem sideEffect_rebuilt : AnswersAlike r.sideEffect (r.rebuilt cs).sideEffect := by
  unfold sideEffect
  dsimp only [rebuilt, World.bare]
  split
  · split <;> exact ⟨⟨_, rfl⟩, rfl⟩
  · split <;> exact ⟨⟨_, rfl⟩, rfl⟩

theorem getVersion_rebuilt (changeId : String) (lo hi : Int) :
    AnswersAlike (r.getVersion changeId lo hi) ((r.rebuilt cs).getVersion changeId lo hi) := by
  unfold getVersion
  dsimp only [rebuilt, World.bare]
  split
  · split <;> exact ⟨⟨_, rfl⟩, rfl⟩
  · exact AnswersAlike.ite ⟨⟨_, rfl⟩, rfl⟩ ⟨⟨_, rfl⟩, rfl⟩

theorem mutableSideEffect_rebuilt (id : String) (equals : Value → Value → Bool) :
    AnswersAlike (r.mutableSideEffect id equals) ((r.rebuilt cs).mutableSideEffect id equals) := by
  unfold mutableSideEffect
  dsimp only [rebuilt, World.bare]
  repeat' split
  all_goals exact ⟨⟨_, rfl⟩, rfl⟩

/-- The ordinal and the produced command are the same, whoever answers the call. -/
theorem executeLocalActivity_rebuilt (type : String) (input : Payloads)
    (options : LocalActivityOptions)
    (h : r.AnsweredBare (.executeLocalActivity type input options)) :
    AnswersAlike (r.executeLocalActivity type input options)
      ((r.rebuilt cs).executeLocalActivity type input options) := by
  cases hrec : r.scan.localActivities[r.localActivitySeq]? with
  | some rec =>
    simp only [executeLocalActivity, rebuilt, hrec]
    split <;> exact ⟨⟨_, rfl⟩, rfl⟩
  | none =>
    have hanswer : (r.executeLocalActivity type input options).2 = unavailable := by
      simpa [hrec] using h (type, input, options) rfl
    have hstate : Rebuilt (r.executeLocalActivity type input options).1
        ((r.rebuilt cs).executeLocalActivity type input options).1 := by
      simp only [executeLocalActivity, rebuilt, World.bare, hrec]
      repeat' split
      all_goals exact ⟨_, rfl⟩
    refine ⟨hstate, ?_⟩
    rw [hanswer]
    simp only [executeLocalActivity, rebuilt, World.bare, hrec]
    rfl

theorem tryConsumeSignal_rebuilt (name : String) : (r.rebuilt cs).tryConsumeSignal name =
    (r.tryConsumeSignal name).map fun x => (x.1.rebuilt cs, x.2) := by
  unfold tryConsumeSignal
  dsimp only [rebuilt]
  split
  · rfl
  · split <;> rfl

end Operations

/-- The two runners park together, and otherwise answer alike. -/
theorem exec_rebuilt {r : Runner σ} {op : Op σ} (h : r.AnsweredBare op) (cs : List Command) :
    Option.Rel AnswersAlike (r.exec op) ((r.rebuilt cs).exec op) := by
  cases op with
  | scheduleActivity type input options =>
    exact .some ⟨r.scheduleActivity_rebuilt cs type input options, rfl⟩
  | startTimer duration => exact .some ⟨r.startTimer_rebuilt cs duration, rfl⟩
  | startChildWorkflow type input options =>
    exact .some ⟨r.startChildWorkflow_rebuilt cs type input options, rfl⟩
  | scheduleNexusOperation e s o i close =>
    exact .some ⟨r.scheduleNexusOperation_rebuilt cs e s o i close, rfl⟩
  | cancel addr => exact .some ⟨r.cancel_rebuilt cs addr, rfl⟩
  | cancelExternalWorkflow id => exact .some ⟨r.requestCancelExternal_rebuilt cs id false, rfl⟩
  | signalExternalWorkflow id name input =>
    exact .some ⟨r.signalExternalWorkflow_rebuilt cs id name input, rfl⟩
  | upsertSearchAttributes attributes =>
    exact .some ⟨r.upsertSearchAttributes_rebuilt cs attributes, rfl⟩
  | get addr =>
    have hfutures : (r.rebuilt cs).futures = r.futures := rfl
    unfold exec
    dsimp only
    rw [hfutures]
    split
    · exact .some ⟨⟨_, rfl⟩, rfl⟩
    · exact .none
  | receive name =>
    simp only [exec, tryConsumeSignal_rebuilt]
    cases r.tryConsumeSignal name with
    | none => exact .none
    | some x => exact .some ⟨⟨_, rfl⟩, rfl⟩
  | receiveAsync name =>
    simp only [exec, tryConsumeSignal_rebuilt]
    cases r.tryConsumeSignal name with
    | none => exact .some ⟨⟨_, rfl⟩, rfl⟩
    | some x => exact .some ⟨⟨_, rfl⟩, rfl⟩
  | select cases hasDefault =>
    have hready : (r.rebuilt cs).caseReady = r.caseReady := rfl
    unfold exec
    dsimp only
    rw [hready]
    split
    · exact .some ⟨⟨_, rfl⟩, rfl⟩
    · split
      · exact .some ⟨⟨_, rfl⟩, rfl⟩
      · exact .none
  | awaitCancellation => exact .some ⟨r.awaitCancellation_rebuilt cs, rfl⟩
  | sideEffect => exact .some (r.sideEffect_rebuilt cs)
  | mutableSideEffect id equals => exact .some (r.mutableSideEffect_rebuilt cs id equals)
  | getVersion changeId lo hi => exact .some (r.getVersion_rebuilt cs changeId lo hi)
  | executeLocalActivity type input options =>
    exact .some (r.executeLocalActivity_rebuilt cs type input options h)
  | finish outcome => exact .none
  | _ => exact .some ⟨⟨_, rfl⟩, rfl⟩

/-- All of these operations do without the worker's local activities. -/
def AllBare (asks : List (Runner σ × Op σ)) : Prop := ∀ x ∈ asks, x.1.AnsweredBare x.2

namespace AllBare

theorem left {xs ys : List (Runner σ × Op σ)} (h : AllBare (xs ++ ys)) : AllBare xs :=
  fun x hx => h x (List.mem_append_left _ hx)

theorem right {xs ys : List (Runner σ × Op σ)} (h : AllBare (xs ++ ys)) : AllBare ys :=
  fun x hx => h x (List.mem_append_right _ hx)

theorem asked {r : Runner σ} (h : AllBare (r.asked?.toList.map (r, ·))) :
    ∀ op, r.asked? = some op → r.AnsweredBare op := fun op ho => h (r, op) (by simp [ho])

end AllBare

theorem applyEventToState_rebuilt (r : Runner σ) (cs : List Command) (ev : HistoryEvent) :
    (r.rebuilt cs).applyEventToState ev = (r.applyEventToState ev).rebuilt cs := by
  obtain ⟨eid, a⟩ := ev
  have hresolve (addr : Option Nat) (f : FutureState → FutureState) :
      (r.rebuilt cs).resolveFuture addr f = (r.resolveFuture addr f).rebuilt cs := by
    cases addr <;> rfl
  cases a with
  | workflowExecutionCancelRequested =>
    have hfold : ∀ (as : List Nat) (q : Runner σ),
        as.foldl (fun r a => r.setFuture a { r.futures a with ready := true }) (q.rebuilt cs) =
          (as.foldl (fun r a =>
            r.setFuture a { r.futures a with ready := true }) q).rebuilt cs := by
      intro as
      induction as with
      | nil => exact fun q => rfl
      | cons a as ih => exact fun q => ih (q.setFuture a { q.futures a with ready := true })
    exact hfold r.cancelFutures { r with scan := { r.scan with cancelRequested := true } }
  | timerFired id => exact hresolve (r.timerFutures id) fun f => { f with ready := true }
  | timerCanceled id =>
    exact hresolve (r.timerFutures id) fun f => { f with ready := true, cancelled := true }
  | _ => first
    | rfl
    | exact hresolve _ _

theorem rel_cases {α β : Type} {R : α → β → Prop} {x : Option α} {y : Option β}
    (h : Option.Rel R x y) :
    (x = none ∧ y = none) ∨ ∃ a b, x = some a ∧ y = some b ∧ R a b := by
  cases h with
  | none => exact .inl ⟨rfl, rfl⟩
  | some h => exact .inr ⟨_, _, rfl, rfl, h⟩

/-- `q` is `r` on the query path, and the interceptors leave the workflow function alone. -/
structure Mirrors (r q : Runner σ) : Prop where
  rebuilt : Rebuilt r q
  program : r.program = r.workflowFn.body r.input

namespace Mirrors

theorem frame {r r' q' : Runner σ} (h : r.program = r.workflowFn.body r.input)
    (hworld : r'.world = r.world) (hfn : r'.workflowFn = r.workflowFn)
    (hinput : r'.input = r.input) (hq : Rebuilt r' q') : Mirrors r' q' := by
  refine ⟨hq, ?_⟩
  rw [Runner.program, hworld, hfn, hinput]
  exact h

variable {r q : Runner σ}

theorem asked?_eq (h : Mirrors r q) : q.asked? = r.asked? := by
  obtain ⟨⟨cs, rfl⟩, hprog⟩ := h
  have hbare : (r.rebuilt cs).program = r.program := hprog.symm
  unfold asked?
  rw [hbare]
  rfl

theorem finishBody (h : Mirrors r q) (o : Outcome) : Mirrors (r.finishBody o) (q.finishBody o) := by
  obtain ⟨⟨cs, rfl⟩, hprog⟩ := h
  cases o <;> exact frame hprog rfl rfl rfl ⟨cs, rfl⟩

/-- One step of the body. -/
theorem step (h : Mirrors r q) (ha : ∀ op, r.asked? = some op → r.AnsweredBare op) :
    Option.Rel Mirrors r.step q.step := by
  have hasked := h.asked?_eq
  cases hr : r.asked? with
  | some op =>
    rw [step_of_asked? hr, step_of_asked? (hasked.trans hr)]
    obtain ⟨⟨cs, rfl⟩, hprog⟩ := h
    obtain ⟨he, hq⟩ | ⟨x, y, he, hq, ⟨cs', hy⟩, hresp⟩ := rel_cases (exec_rebuilt (ha op hr) cs)
    · rw [he, hq]
      exact .none
    · have hf := r.exec_frame he
      rw [he, hq, Option.map_some, Option.map_some, hy, hresp]
      exact .some (frame hprog hf.world hf.workflowFn hf.input ⟨cs', rfl⟩)
  | none =>
    by_cases hd : r.done = true
    · obtain ⟨⟨cs, rfl⟩, -⟩ := h
      have hd' : (r.rebuilt cs).done = true := hd
      simp only [Runner.step, if_pos hd, if_pos hd']
      exact .none
    · cases ho : (r.program r.trace).outcome? with
      | none => simp [asked?, hd, ho] at hr
      | some o =>
        have hend := h.finishBody o
        obtain ⟨⟨cs, rfl⟩, hprog⟩ := h
        have hd' : ¬ (r.rebuilt cs).done = true := hd
        have hbare : (r.rebuilt cs).program = r.program := hprog.symm
        have ho' : ((r.rebuilt cs).program (r.rebuilt cs).trace).outcome? = some o := by
          rw [hbare]
          exact ho
        simp only [Runner.step, if_neg hd, if_neg hd', ho, ho']
        exact .some hend

theorem runFor {fuel : Nat} (h : Mirrors r q) (ha : AllBare (bodyAsks fuel r)) :
    Option.Rel Mirrors (Parking.runFor Runner.step fuel r)
      (Parking.runFor Runner.step fuel q) := by
  induction fuel generalizing r q with
  | zero =>
    obtain ⟨hr, hq⟩ | ⟨x, y, hr, hq, -⟩ := rel_cases (h.step ha.asked)
    · simp only [Parking.runFor, hr, hq]
      exact .some h
    · simp only [Parking.runFor, hr, hq]
      exact .none
  | succ fuel ih =>
    obtain ⟨hr, hq⟩ | ⟨x, y, hr, hq, hxy⟩ := rel_cases (h.step (AllBare.asked ha.left))
    · simp only [Parking.runFor, hr, hq]
      exact .some h
    · have hrest := ha.right
      rw [hr] at hrest
      simp only [Parking.runFor, hr, hq]
      exact ih hxy hrest

/-- The body is resumed. -/
theorem resumeCoroutine {fuel : Nat} (h : Mirrors r q) (ha : AllBare (bodyAsks fuel r)) :
    Mirrors (r.resumeCoroutine fuel) (q.resumeCoroutine fuel) := by
  unfold Runner.resumeCoroutine
  obtain ⟨hr, hq⟩ | ⟨x, y, hr, hq, hxy⟩ := rel_cases (h.runFor ha)
  · rw [hr, hq]
    obtain ⟨⟨cs, rfl⟩, hprog⟩ := h
    exact frame hprog rfl rfl rfl ⟨cs, rfl⟩
  · rw [hr, hq]
    exact hxy

theorem runHandler {handler : Program σ} {fuel : Nat} {answers : List (Resp σ)}
    (h : Mirrors r q) (ha : AllBare (handlerAsks handler fuel r answers)) :
    Option.Rel (fun x y => Mirrors x.1 y.1 ∧ y.2 = x.2) (runHandler handler fuel r answers)
      (runHandler handler fuel q answers) := by
  induction fuel generalizing r q answers with
  | zero => exact .none
  | succ fuel ih =>
    cases ho : (handler answers).outcome? with
    | some o =>
      simp only [Runner.runHandler, ho]
      exact .some ⟨h, rfl⟩
    | none =>
      simp only [handlerAsks, ho, Option.isSome_none, Bool.false_eq_true, if_false] at ha
      obtain ⟨⟨cs, rfl⟩, hprog⟩ := h
      have hx := exec_rebuilt (ha (r, handler answers) List.mem_cons_self) cs
      obtain ⟨hr, hq⟩ | ⟨x, y, hr, hq, hy, hresp⟩ := rel_cases hx
      · simp only [Runner.runHandler, ho, hr, hq]
        exact .none
      · have hf := r.exec_frame hr
        have hrest : AllBare (handlerAsks handler fuel x.1 (answers ++ [x.2])) :=
          fun z hz => ha z (List.mem_cons_of_mem _ (by simpa [hr] using hz))
        simp only [Runner.runHandler, ho, hr, hq, hresp]
        exact ih (frame hprog hf.world hf.workflowFn hf.input hy) hrest

/-- The handler of an accepted update is run again. -/
theorem reapplyUpdate {fuel : Nat} {name : String} {args : Payloads} (h : Mirrors r q)
    (ha : AllBare (r.updateAsks fuel name args)) :
    Mirrors (r.reapplyUpdate fuel name args) (q.reapplyUpdate fuel name args) := by
  have hsame : q.updateHandlers = r.updateHandlers := by
    obtain ⟨⟨cs, rfl⟩, -⟩ := h
    rfl
  unfold Runner.reapplyUpdate
  rw [hsame]
  cases hu : r.updateHandlers name with
  | none => exact h
  | some p =>
    have hp : AllBare (handlerAsks (p args) fuel r []) := by simpa [updateAsks, hu] using ha
    dsimp only
    obtain ⟨hr, hq⟩ | ⟨⟨r', o⟩, ⟨q', o'⟩, hr, hq, ⟨⟨cs', hq'⟩, hprog'⟩, ho⟩ :=
      rel_cases (h.runHandler hp)
    · rw [hr, hq]
      obtain ⟨⟨cs, rfl⟩, hprog⟩ := h
      exact frame hprog rfl rfl rfl ⟨cs, rfl⟩
    · cases ho
      cases hq'
      rw [hr, hq]
      dsimp only
      split
      · exact frame hprog' rfl rfl rfl ⟨cs', rfl⟩
      · exact ⟨⟨cs', rfl⟩, hprog'⟩

/-- An event is applied. -/
theorem applyEventToState (h : Mirrors r q) (ev : HistoryEvent) :
    Mirrors (r.applyEventToState ev) (q.applyEventToState ev) := by
  obtain ⟨⟨cs, rfl⟩, hprog⟩ := h
  obtain ⟨scan, futures, hr⟩ := r.applyEventToState_touches ev
  refine frame hprog (by rw [hr]) (by rw [hr]) (by rw [hr]) ⟨cs, ?_⟩
  exact r.applyEventToState_rebuilt cs ev

theorem beforeResume {fuel : Nat} {s : ReplayStep} (h : Mirrors r q)
    (ha : AllBare (r.stepAsks fuel s)) :
    Mirrors (r.beforeResume fuel s) (q.beforeResume fuel s) := by
  cases s with
  | event ev => exact h.applyEventToState ev
  | update name args => exact h.reapplyUpdate ha.left

theorem halted_eq (h : Mirrors r q) : q.halted = r.halted := by
  obtain ⟨⟨cs, rfl⟩, -⟩ := h
  rfl

/-- One step of the timeline. -/
theorem reapplyStep {fuel : Nat} {s : ReplayStep} (h : Mirrors r q)
    (ha : AllBare (if r.halted then [] else r.stepAsks fuel s)) :
    Mirrors (reapplyStep fuel r s) (reapplyStep fuel q s) := by
  rw [reapplyStep_eq, reapplyStep_eq, h.halted_eq]
  by_cases hr : r.halted = true
  · simp only [if_pos hr]
    exact h
  · rw [if_neg hr] at ha
    have hb := h.beforeResume ha
    simp only [if_neg hr]
    rw [hb.halted_eq]
    by_cases hh : (r.beforeResume fuel s).halted = true
    · simp only [if_pos hh]
      exact hb
    · have hbody := ha.right
      simp only [if_neg hh] at hbody ⊢
      exact hb.resumeCoroutine hbody

theorem timeline {fuel : Nat} {steps : List ReplayStep} (h : Mirrors r q)
    (ha : AllBare (timelineAsks fuel r steps)) :
    Mirrors (steps.foldl (Runner.reapplyStep fuel) r)
      (steps.foldl (Runner.reapplyStep fuel) q) := by
  induction steps generalizing r q with
  | nil => exact h
  | cons s steps ih => exact ih (h.reapplyStep ha.left) ha.right

/-- The whole replay. -/
theorem run {fuel : Nat} (h : Mirrors r q) (ha : AllBare (r.runAsks fuel)) :
    Mirrors (r.run fuel) (q.run fuel) := by
  have hstart : Mirrors { r with commands := [], producedCommands := [], started := true }
      { q with commands := [], producedCommands := [], started := true } := by
    obtain ⟨⟨cs, rfl⟩, hprog⟩ := h
    exact frame hprog rfl rfl rfl ⟨[], rfl⟩
  have hfirst : Mirrors (r.firstResume fuel) (q.firstResume fuel) :=
    hstart.resumeCoroutine ha.left
  have htimeline : (q.firstResume fuel).scan = (r.firstResume fuel).scan := by
    obtain ⟨⟨cs, hq⟩, -⟩ := hfirst
    rw [hq]
    rfl
  change Mirrors ((r.firstResume fuel).scan.postUpdateTimeline.foldl _ (r.firstResume fuel))
    ((q.firstResume fuel).scan.postUpdateTimeline.foldl _ (q.firstResume fuel))
  rw [htimeline]
  exact hfirst.timeline ha.right

end Mirrors

section Fuel

variable {f g : Nat} {r : Runner σ}

theorem runHandler_mono {handler : Program σ} {answers : List (Resp σ)} {x : Runner σ × Outcome}
    (h : runHandler handler f r answers = some x) (hfg : f ≤ g) :
    runHandler handler g r answers = some x := by
  induction f generalizing g r answers with
  | zero => cases h
  | succ f ih =>
    obtain ⟨k, rfl⟩ := Nat.exists_eq_add_of_lt hfg
    unfold runHandler at h ⊢
    split at h
    · exact h
    · split at h
      · exact ih h (Nat.le_add_right f k)
      · cases h

theorem beforeResume_mono {s : ReplayStep} (hh : (r.beforeResume f s).hung = false) (hfg : f ≤ g) :
    r.beforeResume g s = r.beforeResume f s := by
  cases s with
  | event ev => rfl
  | update name args =>
    simp only [beforeResume, reapplyUpdate] at hh ⊢
    cases hu : r.updateHandlers name with
    | none => rfl
    | some p =>
      simp only [hu] at hh ⊢
      cases hrun : runHandler (p args) f r [] with
      | none => simp [hrun] at hh
      | some x => rw [runHandler_mono hrun hfg]

theorem reapplyStep_mono {s : ReplayStep} (hd : (reapplyStep f r s).deadlocked = false)
    (hh : (reapplyStep f r s).hung = false) (hfg : f ≤ g) :
    reapplyStep g r s = reapplyStep f r s := by
  by_cases hr : r.halted = true
  · rw [reapplyStep_eq, reapplyStep_eq, if_pos hr, if_pos hr]
  · have hup := (reapplyStep_grows f s (Bool.eq_false_iff.mpr hr)).hung
    have hbefore : r.beforeResume g s = r.beforeResume f s := by
      refine beforeResume_mono (Bool.eq_false_iff.mpr fun hb => ?_) hfg
      rw [hup hb] at hh
      cases hh
    rw [reapplyStep_eq, if_neg hr] at hd
    rw [reapplyStep_eq, reapplyStep_eq, if_neg hr, if_neg hr, hbefore]
    by_cases hb : (r.beforeResume f s).halted = true
    · rw [if_pos hb, if_pos hb]
    · rw [if_neg hb] at hd
      rw [if_neg hb, if_neg hb, resumeCoroutine_mono hd hfg]

theorem timeline_mono {steps : List ReplayStep}
    (hd : (steps.foldl (reapplyStep f) r).deadlocked = false)
    (hh : (steps.foldl (reapplyStep f) r).hung = false) (hfg : f ≤ g) :
    steps.foldl (reapplyStep g) r = steps.foldl (reapplyStep f) r := by
  induction steps generalizing r with
  | nil => rfl
  | cons s steps ih =>
    have hgrows := Grows.timeline f steps (reapplyStep f r s)
    rw [List.foldl_cons] at hd hh ⊢
    rw [reapplyStep_mono (Bool.eq_false_iff.mpr fun h => by simp [hgrows.deadlocked h] at hd)
      (Bool.eq_false_iff.mpr fun h => by simp [hgrows.hung h] at hh) hfg]
    exact ih hd hh

/-- A replay that ends does the same with any more time. -/
theorem run_mono (hd : (r.run f).deadlocked = false) (hh : (r.run f).hung = false)
    (hfg : f ≤ g) : r.run g = r.run f := by
  have hgrows : Grows (r.firstResume f) (r.run f) := Grows.timeline f _ _
  have hfirst : r.firstResume g = r.firstResume f :=
    resumeCoroutine_mono (Bool.eq_false_iff.mpr fun h => by simp [hgrows.deadlocked h] at hd) hfg
  change (r.firstResume g).scan.postUpdateTimeline.foldl (reapplyStep g) (r.firstResume g) = _
  rw [hfirst]
  exact timeline_mono hd hh hfg

end Fuel

end Runner

namespace TaskHandler

variable (h : TaskHandler σ) (fn : WorkflowFn σ) (task : WorkflowTask) (history : History)

/-- The runner of the task path, for a task with a previous started event. -/
def taskRunner : Runner σ := (Runner.replay (h.info task) true h.world fn history).run h.fuel

/-- The runner of the query path. -/
def queryRunner : Runner σ := (Runner.replay (h.info task) true h.queryWorld fn history).run h.fuel

/-- Whenever a task with this history gets a runner, a query gets one that looks the same from
inside. `patience` stands for the missing deadlock timeout. -/
def RebuildsForQuery : Prop :=
  ∀ (remote : Remote) (patience : Nat), h.fuel ≤ patience →
    queryHistory remote.stub h.ns task.workflowId task.runId remote.pageFuel = some (.ok history) →
    (h.taskRunner fn task history).deadlocked = false →
    (h.taskRunner fn task history).hung = false →
    (h.taskRunner fn task history).escaped = false →
    ∃ q, { h with fuel := patience }.buildRunnerForQuery remote fn task = .ok (some q) ∧
      q.view = (h.taskRunner fn task history).view

/-- Nothing the query path leaves out has a part in this replay: the interceptors leave the
workflow function alone on the input of the run, and every local activity that is asked for has
its marker in history or fails as if there were none. -/
structure Undisturbed : Prop where
  init : (Runner.chain h.world fn).init = fn.init
  body : (Runner.chain h.world fn).body (scanHistory history).input =
    fn.body (scanHistory history).input
  activities :
    Runner.AllBare ((Runner.replay (h.info task) true h.world fn history).runAsks h.fuel)

variable {h fn task history}

theorem Undisturbed.mirrors (hu : h.Undisturbed fn task history) :
    Runner.Mirrors (Runner.replay (h.info task) true h.world fn history)
      (Runner.replay (h.info task) true h.queryWorld fn history) := by
  refine ⟨⟨[], ?_⟩, hu.body⟩
  simp only [Runner.replay, Runner.new, Runner.rebuilt, hu.init]
  rfl

theorem buildRunnerForQuery_of_history (h : TaskHandler σ) (fn : WorkflowFn σ)
    (task : WorkflowTask) {remote : Remote}
    (hhistory : queryHistory remote.stub h.ns task.workflowId task.runId remote.pageFuel =
      some (.ok history))
    (hd : (h.queryRunner fn task history).deadlocked = false)
    (hh : (h.queryRunner fn task history).hung = false)
    (he : (h.queryRunner fn task history).escaped = false) :
    h.buildRunnerForQuery remote fn task = .ok (some (h.queryRunner fn task history)) := by
  unfold queryRunner at hd hh he ⊢
  unfold buildRunnerForQuery
  simp only [hhistory, hd, hh, he]
  rfl

/-- The query path rebuilds what the task path replays when nothing it leaves out has a part in
the replay. -/
theorem rebuildsForQuery_of_undisturbed (hu : h.Undisturbed fn task history) :
    h.RebuildsForQuery fn task history := by
  intro remote patience hpatience hhistory hd hh he
  obtain ⟨⟨cs, hq⟩, -⟩ := hu.mirrors.run hu.activities
  change _ = (h.taskRunner fn task history).rebuilt cs at hq
  have hd' : (h.queryRunner fn task history).deadlocked = false := by rwa [queryRunner, hq]
  have hh' : (h.queryRunner fn task history).hung = false := by rwa [queryRunner, hq]
  have hquery : { h with fuel := patience }.queryRunner fn task history =
      (h.taskRunner fn task history).rebuilt cs := (Runner.run_mono hd' hh' hpatience).trans hq
  have hbuild := buildRunnerForQuery_of_history { h with fuel := patience } fn task hhistory
  rw [hquery] at hbuild
  exact ⟨_, hbuild hd hh he, rfl⟩

theorem not_rebuildsForQuery_of_store {h : TaskHandler σ} {fn : WorkflowFn σ} {task : WorkflowTask}
    {history : History} (remote : Remote) {x : σ}
    (hhistory : queryHistory remote.stub h.ns task.workflowId task.runId remote.pageFuel =
      some (.ok history)) (hd : (h.taskRunner fn task history).deadlocked = false)
    (hh : (h.taskRunner fn task history).hung = false)
    (he : (h.taskRunner fn task history).escaped = false)
    (hstore : (h.buildRunnerForQuery remote fn task).map (Option.map Runner.store) = .ok (some x))
    (hx : (h.taskRunner fn task history).store ≠ x) : ¬ h.RebuildsForQuery fn task history := by
  intro hall
  obtain ⟨q, hq, hview⟩ := hall remote h.fuel le_rfl hhistory hd hh he
  have hq' : q.store = x := by
    have heq := (congrArg (Except.map (Option.map Runner.store)) hq).symm.trans hstore
    simpa [Except.map] using heq
  have hsame := congrArg Runner.store hview
  exact hx (hsame.symm.trans hq')

/-- A worker with one local activity, which counts. -/
def counting : TaskHandler Nat where
  workflows := fun _ => none
  world := { (World.plain .tagged : World Nat) with
    localActivityResolver := some fun type =>
      if type = "Count" then some fun _ _ _ => .returned [] else none }
  fuel := 9

/-- A worker with an interceptor that sets the variables before the body runs. -/
def prepared : TaskHandler Nat where
  workflows := fun _ => none
  world := { (World.plain .tagged : World Nat) with
    interceptors := [{ executeWorkflow := fun fn => { fn with init := 1 }
                       executeActivity := fun _ _ _ header => header }] }
  fuel := 9

/-- A body that counts when it is told to, and an error of the activity ends it. -/
def countOnce : WorkflowFn Nat where
  init := 0
  body _ := fun
    | [] => .receive "go"
    | [_] => .executeLocalActivity "Count" [] {}
    | [_, .applicationError message type] => .finish (.applicationError message type false)
    | [_, _] => .writeStore 1
    | _ => .receive "stop"

/-- The first task has been completed, and the signal has come since. -/
def toldToCount : History :=
  [⟨1, .workflowExecutionStarted "CountOnce" [] []⟩, ⟨2, .other⟩, ⟨3, .other⟩, ⟨4, .other⟩,
    ⟨5, .workflowExecutionSignaled "go" []⟩, ⟨6, .other⟩, ⟨7, .other⟩]

/-- A history whose local activity has its marker. -/
def counted : History :=
  toldToCount ++ [⟨8, .other⟩, ⟨9, .markerRecorded "LocalActivity" [("result", [])]⟩]

def queryTask : WorkflowTask where
  taskToken := "token"
  workflowId := "w"
  runId := "r"
  workflowType := "CountOnce"
  page := {}
  query := some ⟨"count", []⟩

def serving (history : History) : Remote where
  stub _ _ := (⟨.ok, ""⟩, ⟨history, ""⟩)
  pageFuel := 2
  respond _ := .ok ()

theorem counted_rebuilt : counting.Undisturbed countOnce queryTask counted ∧
    (counting.taskRunner countOnce queryTask counted).store = 1 ∧
    counting.RebuildsForQuery countOnce queryTask counted := by
  have hu : counting.Undisturbed countOnce queryTask counted := by
    refine ⟨rfl, rfl, ?_⟩
    unfold Runner.AllBare
    decide +kernel
  exact ⟨hu, by decide +kernel, rebuildsForQuery_of_undisturbed hu⟩

/-- Without its local activities the body fails where the task path counts; without its
interceptors it starts with other variables. -/
theorem query_rebuild_differs :
    ¬ counting.RebuildsForQuery countOnce queryTask toldToCount ∧
      ¬ prepared.RebuildsForQuery countOnce queryTask toldToCount :=
  ⟨not_rebuildsForQuery_of_store (serving toldToCount) (x := 0) (by decide +kernel)
    (by decide +kernel) (by decide +kernel) (by decide +kernel) (by decide +kernel)
    (by decide +kernel),
  not_rebuildsForQuery_of_store (serving toldToCount) (x := 0) (by decide +kernel)
    (by decide +kernel) (by decide +kernel) (by decide +kernel) (by decide +kernel)
    (by decide +kernel)⟩

end TaskHandler
end TemporalSdk
