import TemporalSdk.Frame
import TemporalSdk.StickyCache

/-! Whose run a runner replays. The operations that get to see the identity of the run, what
the others do under another identity, and what becomes of a child whose id is taken from it. -/
namespace TemporalSdk

/-- A child that gets its id from the parent's. -/
def Op.generatesId {σ : Type} : Op σ → Bool
  | .startChildWorkflow _ _ options => options.id.isEmpty
  | _ => false

namespace Runner

variable {σ : Type}

/-- The runner as the replayer identifies it. -/
def offline (r : Runner σ) : Runner σ :=
  { r with info := { r.info with workflowId := "replay", runId := "" } }

/-- An operation that gets to see the run's identity: `Context::Info`, or a local activity that
is run and not replayed from its marker. -/
def readsInfo (r : Runner σ) : Op σ → Bool
  | .getInfo => true
  | .executeLocalActivity .. => (r.scan.localActivities[r.localActivitySeq]?).isNone
  | _ => false

/-- The operation does the same under the replayer's identity. -/
def Portable (r : Runner σ) (op : Op σ) : Prop :=
  r.readsInfo op = false ∧ (op.generatesId = true → r.info.workflowId = "replay")

section Operations

variable (r : Runner σ)

theorem startTimer_offline (duration : Int) :
    r.offline.startTimer duration = (r.startTimer duration).offline := by
  unfold startTimer
  dsimp only [offline]
  split <;> rfl

theorem startChildWorkflow_offline (type : String) (input : Payloads)
    {options : ChildWorkflowOptions} (hid : r.offline.childId options = r.childId options) :
    r.offline.startChildWorkflow type input options =
      (r.startChildWorkflow type input options).offline := by
  unfold startChildWorkflow
  rw [hid]
  dsimp only [offline]
  unfold openOperation
  split <;> rfl

theorem scheduleActivity_offline (type : String) (input : Payloads) (options : ActivityOptions) :
    r.offline.scheduleActivity type input options =
      (r.scheduleActivity type input options).offline := by
  unfold scheduleActivity openOperation
  dsimp only [offline]
  split <;> rfl

theorem scheduleNexusOperation_offline (endpoint service operation : String) (input : Payload)
    (close : Int) : r.offline.scheduleNexusOperation endpoint service operation input close =
      (r.scheduleNexusOperation endpoint service operation input close).offline := by
  unfold scheduleNexusOperation openOperation
  dsimp only [offline]
  split <;> rfl

theorem requestCancelExternal_offline (id : String) (childOnly : Bool) :
    r.offline.requestCancelExternal id childOnly =
      (r.requestCancelExternal id childOnly).offline := by
  unfold requestCancelExternal
  dsimp only [offline]
  split <;> rfl

theorem cancel_offline (addr : Nat) : r.offline.cancel addr = (r.cancel addr).offline := by
  unfold cancel
  dsimp only [offline]
  split
  · rfl
  · split
    · split <;> rfl
    · split
      · rfl
      · split <;> rfl
    · exact r.requestCancelExternal_offline _ _
    · rfl
    · rfl

theorem signalExternalWorkflow_offline (id name : String) (input : Payloads) :
    r.offline.signalExternalWorkflow id name input =
      (r.signalExternalWorkflow id name input).offline := by
  unfold signalExternalWorkflow
  rw [apply_ite offline]
  rfl

theorem upsertSearchAttributes_offline (attributes : List (String × Payload)) :
    r.offline.upsertSearchAttributes attributes =
      (r.upsertSearchAttributes attributes).offline := by
  unfold upsertSearchAttributes
  rw [apply_ite offline]
  rfl

theorem sideEffect_offline :
    r.offline.sideEffect = (r.sideEffect.1.offline, r.sideEffect.2) := by
  unfold sideEffect
  dsimp only [offline]
  split
  · split <;> rfl
  · split <;> rfl

theorem getVersion_offline (changeId : String) (lo hi : Int) :
    r.offline.getVersion changeId lo hi =
      ((r.getVersion changeId lo hi).1.offline, (r.getVersion changeId lo hi).2) := by
  unfold getVersion
  dsimp only [offline]
  split
  · split <;> rfl
  · by_cases hr : r.isReplaying = true
    · simp only [hr, if_true]
    · simp [hr, produce, recordMarker, emit]

theorem mutableSideEffect_offline (id : String) (equals : Value → Value → Bool) :
    r.offline.mutableSideEffect id equals =
      ((r.mutableSideEffect id equals).1.offline, (r.mutableSideEffect id equals).2) := by
  unfold mutableSideEffect
  dsimp only [offline]
  repeat' split
  all_goals rfl

theorem executeLocalActivity_offline (type : String) (input : Payloads)
    (options : LocalActivityOptions)
    (hrec : (r.scan.localActivities[r.localActivitySeq]?).isNone = false) :
    r.offline.executeLocalActivity type input options =
      ((r.executeLocalActivity type input options).1.offline,
        (r.executeLocalActivity type input options).2) := by
  unfold executeLocalActivity
  dsimp only [offline]
  split
  · split <;> rfl
  · next hn => simp [hn] at hrec

theorem tryConsumeSignal_offline (name : String) :
    r.offline.tryConsumeSignal name =
      (r.tryConsumeSignal name).map fun x => (x.1.offline, x.2) := by
  unfold tryConsumeSignal
  dsimp only [offline]
  split
  · rfl
  · split <;> rfl

theorem awaitCancellation_offline : r.offline.awaitCancellation = r.awaitCancellation.offline := by
  unfold awaitCancellation
  rw [apply_ite offline]
  rfl

end Operations

/-- Portable operations do not see whose runner they are carried out on. -/
theorem exec_offline {r : Runner σ} {op : Op σ} (hp : r.Portable op) :
    r.offline.exec op = (r.exec op).map fun x => (x.1.offline, x.2) := by
  obtain ⟨hread, hgen⟩ := hp
  cases op with
  | scheduleActivity type input options =>
    exact congrArg (fun x => some (x, _)) (r.scheduleActivity_offline type input options)
  | startTimer duration => exact congrArg (fun x => some (x, _)) (r.startTimer_offline duration)
  | startChildWorkflow type input options =>
    refine congrArg (fun x => some (x, _)) (r.startChildWorkflow_offline type input ?_)
    unfold childId
    split
    · next hid => rw [hgen hid]; rfl
    · rfl
  | scheduleNexusOperation e s o i close =>
    exact congrArg (fun x => some (x, _)) (r.scheduleNexusOperation_offline e s o i close)
  | cancel addr => exact congrArg (fun x => some (x, _)) (r.cancel_offline addr)
  | cancelExternalWorkflow id =>
    exact congrArg (fun x => some (x, _)) (r.requestCancelExternal_offline id false)
  | signalExternalWorkflow id name input =>
    exact congrArg (fun x => some (x, _)) (r.signalExternalWorkflow_offline id name input)
  | upsertSearchAttributes attributes =>
    exact congrArg (fun x => some (x, _)) (r.upsertSearchAttributes_offline attributes)
  | get addr =>
    by_cases hr : (r.futures addr).ready = true
    · simp [exec, offline, hr]
    · simp [exec, offline, hr]
  | receive name =>
    simp only [exec, tryConsumeSignal_offline]
    cases r.tryConsumeSignal name <;> rfl
  | receiveAsync name =>
    simp only [exec, tryConsumeSignal_offline]
    cases r.tryConsumeSignal name <;> rfl
  | select cases hasDefault =>
    have hready : r.offline.caseReady = r.caseReady := rfl
    unfold exec
    dsimp only
    rw [hready]
    split
    · rfl
    · split <;> rfl
  | awaitCancellation => exact congrArg (fun x => some (x, _)) r.awaitCancellation_offline
  | sideEffect => exact congrArg some r.sideEffect_offline
  | mutableSideEffect id equals => exact congrArg some (r.mutableSideEffect_offline id equals)
  | getVersion changeId lo hi => exact congrArg some (r.getVersion_offline changeId lo hi)
  | executeLocalActivity type input options =>
    exact congrArg some (r.executeLocalActivity_offline type input options hread)
  | getInfo => cases hread
  | _ => rfl

/-- The operation the body asks for next. -/
def asked? (r : Runner σ) : Option (Op σ) :=
  if r.done || ((r.program r.trace).outcome?).isSome then none else some (r.program r.trace)

/-- The operations the body asks for while it is resumed, each with the runner it is asked of. -/
def bodyAsks : Nat → Runner σ → List (Runner σ × Op σ)
  | 0, r => r.asked?.toList.map (r, ·)
  | fuel + 1, r => r.asked?.toList.map (r, ·) ++ (r.step.map (bodyAsks fuel)).getD []

/-- The operations a handler asks for. -/
def handlerAsks (handler : Program σ) : Nat → Runner σ → List (Resp σ) → List (Runner σ × Op σ)
  | 0, _, _ => []
  | fuel + 1, r, answers =>
    if ((handler answers).outcome?).isSome then []
    else (r, handler answers) ::
      ((r.exec (handler answers)).map fun x =>
        handlerAsks handler fuel x.1 (answers ++ [x.2])).getD []

def updateAsks (fuel : Nat) (r : Runner σ) (name : String) (args : Payloads) :
    List (Runner σ × Op σ) :=
  ((r.updateHandlers name).map fun h => handlerAsks (h args) fuel r []).getD []

/-- A step of the timeline up to the resume that follows it. -/
def beforeResume (fuel : Nat) (r : Runner σ) : ReplayStep → Runner σ
  | .update name args => r.reapplyUpdate fuel name args
  | .event ev => r.applyEventToState ev

def stepAsks (fuel : Nat) (r : Runner σ) (s : ReplayStep) : List (Runner σ × Op σ) :=
  (match s with
    | .update name args => r.updateAsks fuel name args
    | .event _ => []) ++
  if (r.beforeResume fuel s).halted then [] else bodyAsks fuel (r.beforeResume fuel s)

/-- Only steps that are reached ask for something. -/
def timelineAsks (fuel : Nat) : Runner σ → List ReplayStep → List (Runner σ × Op σ)
  | _, [] => []
  | r, s :: steps =>
    (if r.halted then [] else r.stepAsks fuel s) ++ timelineAsks fuel (reapplyStep fuel r s) steps

/-- `Run` up to the first suspension. -/
def firstResume (fuel : Nat) (r : Runner σ) : Runner σ :=
  { r with commands := [], producedCommands := [], started := true }.resumeCoroutine fuel

/-- Every operation that is asked for in a replay. -/
def runAsks (fuel : Nat) (r : Runner σ) : List (Runner σ × Op σ) :=
  bodyAsks fuel { r with commands := [], producedCommands := [], started := true } ++
    timelineAsks fuel (r.firstResume fuel) (r.firstResume fuel).scan.postUpdateTimeline

theorem step_of_asked? {r : Runner σ} {op : Op σ} (h : r.asked? = some op) :
    r.step = (r.exec op).map fun x => { x.1 with trace := r.trace ++ [x.2] } := by
  unfold asked? at h
  split at h
  · cases h
  · next hn =>
    simp only [Bool.or_eq_true, not_or, Bool.not_eq_true, Option.isSome_eq_false_iff,
      Option.isNone_iff_eq_none] at hn
    cases h
    simp only [step, hn.1, hn.2, Bool.false_eq_true, if_false]

/-- A step of the body that is no operation ends it. -/
theorem step_of_not_asked {r q : Runner σ} (ha : r.asked? = none) (hs : r.step = some q) :
    ∃ o, q = r.finishBody o := by
  unfold step at hs
  split at hs
  · cases hs
  · next hd =>
    split at hs
    · next o _ => exact ⟨o, (Option.some.inj hs).symm⟩
    · next ho => simp [asked?, hd, ho] at ha

theorem finishBody_offline (r : Runner σ) (o : Outcome) :
    r.offline.finishBody o = (r.finishBody o).offline := by
  cases o <;> rfl

theorem step_offline {r : Runner σ} (hp : ∀ op, r.asked? = some op → r.Portable op) :
    r.offline.step = r.step.map offline := by
  cases ha : r.asked? with
  | some op =>
    have ha' : r.offline.asked? = some op := ha
    rw [step_of_asked? ha', step_of_asked? ha, exec_offline (hp op ha), Option.map_map,
      Option.map_map]
    rfl
  | none =>
    by_cases hd : r.done = true
    · have hd' : r.offline.done = true := hd
      simp [step, hd, hd']
    · have hd' : ¬ r.offline.done = true := hd
      have hprog : r.offline.program r.offline.trace = r.program r.trace := rfl
      cases ho : (r.program r.trace).outcome? with
      | none => simp [asked?, hd, ho] at ha
      | some o => simp [step, hd, hd', hprog, ho, finishBody_offline]

theorem reapplyStep_eq (fuel : Nat) (r : Runner σ) (s : ReplayStep) :
    reapplyStep fuel r s =
      if r.halted then r
      else if (r.beforeResume fuel s).halted then r.beforeResume fuel s
      else (r.beforeResume fuel s).resumeCoroutine fuel := by
  cases s <;> rfl

section Lockstep

/-- All of these operations are portable. -/
def AllPortable (asks : List (Runner σ × Op σ)) : Prop := ∀ x ∈ asks, x.1.Portable x.2

theorem AllPortable.left {xs ys : List (Runner σ × Op σ)} (h : AllPortable (xs ++ ys)) :
    AllPortable xs := fun x hx => h x (List.mem_append_left _ hx)

theorem AllPortable.right {xs ys : List (Runner σ × Op σ)} (h : AllPortable (xs ++ ys)) :
    AllPortable ys := fun x hx => h x (List.mem_append_right _ hx)

theorem AllPortable.asked {r : Runner σ} (h : AllPortable (r.asked?.toList.map (r, ·))) :
    ∀ op, r.asked? = some op → r.Portable op := fun op ho => h (r, op) (by simp [ho])

theorem runFor_offline {fuel : Nat} {r : Runner σ} (h : AllPortable (bodyAsks fuel r)) :
    Parking.runFor step fuel r.offline = (Parking.runFor step fuel r).map offline := by
  induction fuel generalizing r with
  | zero =>
    simp only [Parking.runFor, step_offline h.asked, Option.isNone_map]
    split <;> rfl
  | succ fuel ih =>
    have hs := step_offline (AllPortable.asked h.left)
    cases hr : r.step with
    | none => simp [Parking.runFor, hs, hr]
    | some r' =>
      have hrest : AllPortable (bodyAsks fuel r') := by
        have := h.right
        rwa [hr] at this
      simp only [Parking.runFor, hs, hr, Option.map_some]
      exact ih hrest

theorem resumeCoroutine_offline {fuel : Nat} {r : Runner σ} (h : AllPortable (bodyAsks fuel r)) :
    r.offline.resumeCoroutine fuel = (r.resumeCoroutine fuel).offline := by
  unfold resumeCoroutine
  rw [runFor_offline h]
  cases Parking.runFor step fuel r <;> rfl

theorem runHandler_offline {handler : Program σ} {fuel : Nat} {r : Runner σ}
    {answers : List (Resp σ)} (h : AllPortable (handlerAsks handler fuel r answers)) :
    runHandler handler fuel r.offline answers =
      (runHandler handler fuel r answers).map fun x => (x.1.offline, x.2) := by
  induction fuel generalizing r answers with
  | zero => rfl
  | succ fuel ih =>
    cases ho : (handler answers).outcome? with
    | some o => simp [runHandler, ho]
    | none =>
      simp only [handlerAsks, ho, Option.isSome_none, Bool.false_eq_true, if_false] at h
      have hx := exec_offline (h (r, handler answers) List.mem_cons_self)
      cases he : r.exec (handler answers) with
      | none => simp [runHandler, ho, hx, he]
      | some x =>
        have hrest : AllPortable (handlerAsks handler fuel x.1 (answers ++ [x.2])) :=
          fun y hy => h y (List.mem_cons_of_mem _ (by simpa [he] using hy))
        simp only [runHandler, ho, hx, he, Option.map_some]
        exact ih hrest

theorem reapplyUpdate_offline {fuel : Nat} {r : Runner σ} {name : String} {args : Payloads}
    (h : AllPortable (r.updateAsks fuel name args)) :
    r.offline.reapplyUpdate fuel name args = (r.reapplyUpdate fuel name args).offline := by
  have hu' : r.offline.updateHandlers name = r.updateHandlers name := rfl
  unfold reapplyUpdate
  rw [hu']
  cases hu : r.updateHandlers name with
  | none => rfl
  | some p =>
    have hp : AllPortable (handlerAsks (p args) fuel r []) := by simpa [updateAsks, hu] using h
    dsimp only
    rw [runHandler_offline hp]
    cases runHandler (p args) fuel r [] with
    | none => rfl
    | some x =>
      dsimp only [Option.map_some]
      rw [apply_ite offline]
      rfl

theorem resolveFuture_offline (r : Runner σ) (addr : Option Nat)
    (f : FutureState → FutureState) :
    r.offline.resolveFuture addr f = (r.resolveFuture addr f).offline := by
  cases addr <;> rfl

theorem applyEventToState_offline (r : Runner σ) (ev : HistoryEvent) :
    r.offline.applyEventToState ev = (r.applyEventToState ev).offline := by
  obtain ⟨eid, a⟩ := ev
  cases a with
  | workflowExecutionCancelRequested =>
    have hfold : ∀ (as : List Nat) (q : Runner σ),
        as.foldl (fun r a => r.setFuture a { r.futures a with ready := true }) q.offline =
          (as.foldl (fun r a => r.setFuture a { r.futures a with ready := true }) q).offline := by
      intro as
      induction as with
      | nil => exact fun q => rfl
      | cons a as ih => exact fun q => ih (q.setFuture a { q.futures a with ready := true })
    exact hfold r.cancelFutures { r with scan := { r.scan with cancelRequested := true } }
  | timerFired id =>
    exact r.resolveFuture_offline (r.timerFutures id) fun f => { f with ready := true }
  | timerCanceled id =>
    exact r.resolveFuture_offline (r.timerFutures id)
      fun f => { f with ready := true, cancelled := true }
  | _ => first
    | rfl
    | exact r.resolveFuture_offline _ _

theorem beforeResume_offline {fuel : Nat} {r : Runner σ} {s : ReplayStep}
    (h : AllPortable (r.stepAsks fuel s)) :
    r.offline.beforeResume fuel s = (r.beforeResume fuel s).offline := by
  cases s with
  | event ev => exact r.applyEventToState_offline ev
  | update name args => exact reapplyUpdate_offline h.left

theorem reapplyStep_offline {fuel : Nat} {r : Runner σ} {s : ReplayStep}
    (h : AllPortable (if r.halted then [] else r.stepAsks fuel s)) :
    reapplyStep fuel r.offline s = (reapplyStep fuel r s).offline := by
  have hhalt : ∀ q : Runner σ, q.offline.halted = q.halted := fun _ => rfl
  rw [reapplyStep_eq, reapplyStep_eq, hhalt]
  by_cases hr : r.halted = true
  · simp only [if_pos hr]
  · rw [if_neg hr] at h
    simp only [if_neg hr]
    rw [beforeResume_offline h, hhalt]
    by_cases hb : (r.beforeResume fuel s).halted = true
    · simp only [if_pos hb]
    · have hbody := h.right
      simp only [if_neg hb] at hbody ⊢
      exact resumeCoroutine_offline hbody

theorem timeline_offline {fuel : Nat} {steps : List ReplayStep} {r : Runner σ}
    (h : AllPortable (timelineAsks fuel r steps)) :
    steps.foldl (reapplyStep fuel) r.offline = (steps.foldl (reapplyStep fuel) r).offline := by
  induction steps generalizing r with
  | nil => rfl
  | cons s steps ih =>
    rw [List.foldl_cons, List.foldl_cons, reapplyStep_offline h.left]
    exact ih h.right

/-- A replay that asks for portable operations only is the same replay under any identity. -/
theorem run_offline {fuel : Nat} {r : Runner σ} (h : AllPortable (r.runAsks fuel)) :
    r.offline.run fuel = (r.run fuel).offline := by
  have hfirst : r.offline.firstResume fuel = (r.firstResume fuel).offline :=
    resumeCoroutine_offline h.left
  change (r.offline.firstResume fuel).scan.postUpdateTimeline.foldl (reapplyStep fuel)
    (r.offline.firstResume fuel) = _
  rw [hfirst]
  exact timeline_offline h.right

end Lockstep

/-- `r'` comes later in the same replay: what was produced stays, and so does what went wrong. -/
structure Grows (r r' : Runner σ) : Prop where
  info : r'.info = r.info
  recorded : r'.scan.commands = r.scan.commands
  deadlocked : r.deadlocked = true → r'.deadlocked = true
  hung : r.hung = true → r'.hung = true
  escaped : r.escaped = true → r'.escaped = true
  producedCommands : r.producedCommands <+: r'.producedCommands

namespace Grows

theorem refl (r : Runner σ) : Grows r r := ⟨rfl, rfl, id, id, id, List.prefix_rfl⟩

theorem trans {r₁ r₂ r₃ : Runner σ} (h : Grows r₁ r₂) (h' : Grows r₂ r₃) : Grows r₁ r₃ :=
  ⟨h'.info.trans h.info, h'.recorded.trans h.recorded, h'.deadlocked ∘ h.deadlocked,
    h'.hung ∘ h.hung, h'.escaped ∘ h.escaped, h.producedCommands.trans h'.producedCommands⟩

theorem of_frame {r r' : Runner σ} (h : Frame r r') : Grows r r' :=
  ⟨h.info, congrArg Prescan.commands h.scan, fun hd => h.deadlocked.trans hd,
    fun hh => h.hung.trans hh, fun he => h.escaped.trans he, h.producedCommands⟩

theorem finishBody (r : Runner σ) (o : Outcome) : Grows r (r.finishBody o) := by
  cases o with
  | otherException => exact ⟨rfl, rfl, id, id, id, List.prefix_rfl⟩
  | _ => exact ⟨rfl, rfl, id, id, id, List.prefix_append _ _⟩

theorem step {r r' : Runner σ} (h : r.step = some r') : Grows r r' := by
  unfold Runner.step at h
  split at h
  · cases h
  · split at h
    · cases h
      exact finishBody r _
    · obtain ⟨x, hx, rfl⟩ := Option.map_eq_some_iff.mp h
      have hf := of_frame (r.exec_frame hx)
      exact ⟨hf.info, hf.recorded, hf.deadlocked, hf.hung, hf.escaped, hf.producedCommands⟩

theorem runFor {fuel : Nat} {r r' : Runner σ} (h : Parking.runFor Runner.step fuel r = some r') :
    Grows r r' := by
  induction fuel generalizing r with
  | zero =>
    simp only [Parking.runFor, Option.ite_none_right_eq_some, Option.some.injEq] at h
    exact h.2 ▸ refl r
  | succ fuel ih =>
    simp only [Parking.runFor] at h
    cases hs : r.step with
    | none =>
      simp only [hs, Option.some.injEq] at h
      exact h ▸ refl r
    | some q =>
      simp only [hs] at h
      exact (step hs).trans (ih h)

theorem resumeCoroutine (fuel : Nat) (r : Runner σ) : Grows r (r.resumeCoroutine fuel) := by
  unfold Runner.resumeCoroutine
  split
  · next h => exact runFor h
  · exact ⟨rfl, rfl, fun _ => rfl, id, id, List.prefix_rfl⟩

theorem reapplyUpdate (fuel : Nat) (r : Runner σ) (name : String) (args : Payloads) :
    Grows r (r.reapplyUpdate fuel name args) := by
  unfold Runner.reapplyUpdate
  split
  · exact refl r
  · split
    · exact ⟨rfl, rfl, id, fun _ => rfl, id, List.prefix_rfl⟩
    · next r' o h =>
      have hf := of_frame (runHandler_frame h)
      split
      · exact ⟨hf.info, hf.recorded, hf.deadlocked, hf.hung, fun _ => rfl, hf.producedCommands⟩
      · exact hf

theorem foldl_setFuture (as : List Nat) (r : Runner σ) :
    Grows r (as.foldl (fun r a => r.setFuture a { r.futures a with ready := true }) r) := by
  induction as generalizing r with
  | nil => exact refl r
  | cons a as ih => exact (of_frame (r.setFuture_frame a _)).trans (ih _)

theorem resolveFuture (r : Runner σ) (addr : Option Nat) (f : FutureState → FutureState) :
    Grows r (r.resolveFuture addr f) := by
  cases addr with
  | none => exact refl r
  | some a => exact of_frame (r.setFuture_frame a _)

theorem applyEventToState (r : Runner σ) (ev : HistoryEvent) :
    Grows r (r.applyEventToState ev) := by
  obtain ⟨eid, a⟩ := ev
  cases a with
  | workflowExecutionCancelRequested =>
    have hf := foldl_setFuture r.cancelFutures
      { r with scan := { r.scan with cancelRequested := true } }
    exact ⟨hf.info, hf.recorded, hf.deadlocked, hf.hung, hf.escaped, hf.producedCommands⟩
  | activityTaskCancelRequested sid =>
    refine ⟨rfl, ?_, id, id, id, List.prefix_rfl⟩
    simp only [Runner.applyEventToState, Prescan.onActivity]
    split <;> rfl
  | timerFired id => exact resolveFuture r (r.timerFutures id) fun f => { f with ready := true }
  | timerCanceled id =>
    exact resolveFuture r (r.timerFutures id) fun f => { f with ready := true, cancelled := true }
  | _ => first
    | exact resolveFuture r _ _
    | exact ⟨rfl, rfl, id, id, id, List.prefix_rfl⟩

theorem beforeResume (fuel : Nat) (r : Runner σ) (s : ReplayStep) :
    Grows r (r.beforeResume fuel s) := by
  cases s with
  | event ev => exact applyEventToState r ev
  | update name args => exact reapplyUpdate fuel r name args

theorem reapplyStep (fuel : Nat) (r : Runner σ) (s : ReplayStep) :
    Grows r (Runner.reapplyStep fuel r s) := by
  rw [reapplyStep_eq]
  split
  · exact refl r
  · split
    · exact beforeResume fuel r s
    · exact (beforeResume fuel r s).trans (resumeCoroutine fuel _)

theorem timeline (fuel : Nat) (steps : List ReplayStep) (r : Runner σ) :
    Grows r (steps.foldl (Runner.reapplyStep fuel) r) := by
  induction steps generalizing r with
  | nil => exact refl r
  | cons s steps ih => exact (reapplyStep fuel r s).trans (ih _)

theorem run (fuel : Nat) (r : Runner σ) :
    Grows { r with commands := [], producedCommands := [], started := true } (r.run fuel) :=
  (resumeCoroutine fuel _).trans (timeline fuel _ _)

end Grows

section Info

variable {fuel : Nat} {x : Runner σ × Op σ}

theorem bodyAsks_info {r : Runner σ} (h : x ∈ bodyAsks fuel r) : x.1.info = r.info := by
  have hnow : ∀ q : Runner σ, x ∈ q.asked?.toList.map (q, ·) → x.1.info = q.info := by
    intro q hx
    obtain ⟨op, -, rfl⟩ := List.mem_map.mp hx
    rfl
  induction fuel generalizing r with
  | zero => exact hnow r h
  | succ fuel ih =>
    rcases List.mem_append.mp h with hx | hx
    · exact hnow r hx
    · cases hs : r.step with
      | none => simp [hs] at hx
      | some r' =>
        rw [hs, Option.map_some, Option.getD_some] at hx
        exact (ih hx).trans (Grows.step hs).info

theorem handlerAsks_info {handler : Program σ} {r : Runner σ} {answers : List (Resp σ)}
    (h : x ∈ handlerAsks handler fuel r answers) : x.1.info = r.info := by
  induction fuel generalizing r answers with
  | zero => cases h
  | succ fuel ih =>
    unfold handlerAsks at h
    split at h
    · cases h
    · rcases List.mem_cons.mp h with rfl | hx
      · rfl
      · cases he : r.exec (handler answers) with
        | none => simp [he] at hx
        | some y =>
          rw [he, Option.map_some, Option.getD_some] at hx
          exact (ih hx).trans (r.exec_frame he).info

theorem stepAsks_info {r : Runner σ} {s : ReplayStep} (h : x ∈ r.stepAsks fuel s) :
    x.1.info = r.info := by
  rcases List.mem_append.mp h with hx | hx
  · cases s with
    | event ev => cases hx
    | update name args =>
      simp only [updateAsks] at hx
      cases hu : r.updateHandlers name with
      | none => simp [hu] at hx
      | some p =>
        rw [hu, Option.map_some, Option.getD_some] at hx
        exact handlerAsks_info hx
  · split at hx
    · cases hx
    · exact (bodyAsks_info hx).trans (Grows.beforeResume fuel r s).info

theorem timelineAsks_info {steps : List ReplayStep} {r : Runner σ}
    (h : x ∈ timelineAsks fuel r steps) : x.1.info = r.info := by
  induction steps generalizing r with
  | nil => cases h
  | cons s steps ih =>
    rcases List.mem_append.mp h with hx | hx
    · split at hx
      · cases hx
      · exact stepAsks_info hx
    · exact (ih hx).trans (Grows.reapplyStep fuel r s).info

/-- Every operation of a replay is asked under the same identity. -/
theorem runAsks_info {r : Runner σ} (h : x ∈ r.runAsks fuel) : x.1.info = r.info := by
  rcases List.mem_append.mp h with hx | hx
  · have hinfo := bodyAsks_info hx
    exact hinfo
  · exact (timelineAsks_info hx).trans (Grows.resumeCoroutine fuel _).info

end Info

theorem Grows.getElem?_producedCommands {r r' : Runner σ} (h : Grows r r') {i : Nat}
    {p : CommandEvent} (hp : r.producedCommands[i]? = some p) :
    r'.producedCommands[i]? = some p := by
  obtain ⟨hi, -⟩ := List.getElem?_eq_some_iff.mp hp
  rw [List.prefix_iff_getElem?.mp h.producedCommands i hi, ← hp, List.getElem?_eq_getElem hi]

/-- The replay has gone through so far, and every command it produced is the recorded one. -/
structure Reproduces (E : List CommandEvent) (r : Runner σ) : Prop where
  deadlocked : r.deadlocked = false
  hung : r.hung = false
  escaped : r.escaped = false
  commands : ∀ (i : Nat) p, r.producedCommands[i]? = some p →
    ∃ e, E[i]? = some e ∧ commandMatchesEvent p e = true

/-- The replay can no longer end well. -/
def Fails (E : List CommandEvent) (r : Runner σ) : Prop :=
  r.deadlocked = true ∨ r.hung = true ∨ r.escaped = true ∨
    ∃ (i : Nat) (p e : CommandEvent), r.producedCommands[i]? = some p ∧ E[i]? = some e ∧
      commandMatchesEvent p e = false

theorem Reproduces.of_grows {E : List CommandEvent} {r r' : Runner σ} (h : Reproduces E r')
    (hg : Grows r r') : Reproduces E r where
  deadlocked := by
    by_contra hd
    rw [Bool.not_eq_false] at hd
    exact absurd (hg.deadlocked hd) (by simp [h.deadlocked])
  hung := by
    by_contra hd
    rw [Bool.not_eq_false] at hd
    exact absurd (hg.hung hd) (by simp [h.hung])
  escaped := by
    by_contra hd
    rw [Bool.not_eq_false] at hd
    exact absurd (hg.escaped hd) (by simp [h.escaped])
  commands i p hp := h.commands i p (hg.getElem?_producedCommands hp)

theorem Fails.of_grows {E : List CommandEvent} {r r' : Runner σ} (h : Fails E r)
    (hg : Grows r r') : Fails E r' := by
  rcases h with hd | hh | he | ⟨i, p, e, hp, hrec, hm⟩
  · exact .inl (hg.deadlocked hd)
  · exact .inr (.inl (hg.hung hh))
  · exact .inr (.inr (.inl (hg.escaped he)))
  · exact .inr (.inr (.inr ⟨i, p, e, hg.getElem?_producedCommands hp, hrec, hm⟩))

section Divergence

theorem startChildWorkflow_producedCommands (r : Runner σ) (type : String) (input : Payloads)
    (options : ChildWorkflowOptions) :
    (r.startChildWorkflow type input options).producedCommands =
      r.producedCommands ++ [⟨.childWorkflow, r.childId options, type⟩] := by
  unfold startChildWorkflow openOperation
  dsimp only
  split <;> rfl

/-- A generated id that is recorded under the run's identity is not reproduced under the
replayer's. -/
theorem exec_offline_fails {E : List CommandEvent} {r r' : Runner σ} {op : Op σ} {resp : Resp σ}
    (hgen : op.generatesId = true) (hid : r.info.workflowId ≠ "replay")
    (hx : r.exec op = some (r', resp)) (hr : Reproduces E r') :
    ∃ q, r.offline.exec op = some (q, resp) ∧ Fails E q := by
  cases op with
  | startChildWorkflow type input options =>
    have hauto : options.id.isEmpty = true := hgen
    cases hx
    refine ⟨_, rfl, .inr (.inr (.inr ?_))⟩
    have hp := r.startChildWorkflow_producedCommands type input options
    have hp' := r.offline.startChildWorkflow_producedCommands type input options
    obtain ⟨e, he, hm⟩ := hr.commands r.producedCommands.length
      ⟨.childWorkflow, r.childId options, type⟩ (by rw [hp]; simp)
    refine ⟨r.producedCommands.length, ⟨.childWorkflow, r.offline.childId options, type⟩, e,
      by rw [hp']; simp [offline], he, ?_⟩
    have hne : r.offline.childId options ≠ r.childId options := by
      simp only [childId, hauto, if_true, offline, ne_eq, String.append_left_inj]
      exact fun h => hid h.symm
    by_contra hm'
    rw [Bool.not_eq_false] at hm'
    simp only [commandMatchesEvent] at hm hm'
    split at hm
    · cases hm
    · next hk =>
      simp only [hk, if_false, Bool.and_eq_true, beq_iff_eq] at hm hm'
      exact hne (hm'.1.trans hm.1.symm)
  | _ => cases hgen

/-- No operation sees the run's identity, and one of them takes an id from it. -/
def Diverges (asks : List (Runner σ × Op σ)) : Prop :=
  (∀ x ∈ asks, x.1.readsInfo x.2 = false) ∧ ∃ x ∈ asks, x.2.generatesId = true

theorem Diverges.cases {xs ys : List (Runner σ × Op σ)} (h : Diverges (xs ++ ys)) :
    Diverges xs ∨ (AllPortable xs ∧ Diverges ys) := by
  by_cases hx : ∃ x ∈ xs, x.2.generatesId = true
  · exact .inl ⟨fun x hm => h.1 x (List.mem_append_left _ hm), hx⟩
  · refine .inr ⟨fun x hm => ⟨h.1 x (List.mem_append_left _ hm), fun hg => ?_⟩,
      fun x hm => h.1 x (List.mem_append_right _ hm), ?_⟩
    · exact absurd ⟨x, hm, hg⟩ hx
    · obtain ⟨x, hm, hg⟩ := h.2
      rcases List.mem_append.mp hm with hm | hm
      · exact absurd ⟨x, hm, hg⟩ hx
      · exact ⟨x, hm, hg⟩

theorem not_diverges_nil : ¬ Diverges ([] : List (Runner σ × Op σ)) := by
  rintro ⟨-, x, hx, -⟩
  cases hx

/-- The body is about to take an id from the run. -/
theorem step_offline_fails {E : List CommandEvent} {r r' : Runner σ}
    (hd : Diverges (r.asked?.toList.map (r, ·))) (hid : r.info.workflowId ≠ "replay")
    (hs : r.step = some r') (hr : Reproduces E r') :
    ∃ q, r.offline.step = some q ∧ Fails E q := by
  obtain ⟨-, x, hx, hgen⟩ := hd
  obtain ⟨op, hop, rfl⟩ := List.mem_map.mp hx
  have ha : r.asked? = some op := by simpa using hop
  have ha' : r.offline.asked? = some op := ha
  rw [step_of_asked? ha] at hs
  obtain ⟨⟨r₁, resp⟩, hx, rfl⟩ := Option.map_eq_some_iff.mp hs
  obtain ⟨q, hq, hf⟩ := exec_offline_fails hgen hid hx
    ⟨hr.deadlocked, hr.hung, hr.escaped, hr.commands⟩
  exact ⟨{ q with trace := r.trace ++ [resp] }, by rw [step_of_asked? ha', hq]; rfl, hf⟩

theorem step_of_diverges {r : Runner σ} (hd : Diverges (r.asked?.toList.map (r, ·))) :
    ∃ r', r.step = some r' := by
  obtain ⟨-, x, hx, hgen⟩ := hd
  obtain ⟨op, hop, rfl⟩ := List.mem_map.mp hx
  have ha : r.asked? = some op := by simpa using hop
  rw [step_of_asked? ha]
  cases op with
  | startChildWorkflow type input options => exact ⟨_, rfl⟩
  | _ => cases hgen

theorem runFor_offline_fails {E : List CommandEvent} {fuel : Nat} {r r' : Runner σ}
    (hd : Diverges (bodyAsks fuel r)) (hid : r.info.workflowId ≠ "replay")
    (hs : Parking.runFor step fuel r = some r') (hr : Reproduces E r') :
    ∀ q, Parking.runFor step fuel r.offline = some q → Fails E q := by
  induction fuel generalizing r with
  | zero =>
    obtain ⟨q, hq⟩ := step_of_diverges hd
    simp [Parking.runFor, hq] at hs
  | succ fuel ih =>
    intro q hq
    rcases hd.cases with hnow | ⟨hport, hlater⟩
    · obtain ⟨r₁, h₁⟩ := step_of_diverges hnow
      simp only [Parking.runFor, h₁] at hs
      obtain ⟨q₁, hq₁, hf⟩ := step_offline_fails hnow hid h₁ (hr.of_grows (.runFor hs))
      simp only [Parking.runFor, hq₁] at hq
      exact hf.of_grows (.runFor hq)
    · cases h₁ : r.step with
      | none =>
        rw [h₁] at hlater
        exact absurd hlater not_diverges_nil
      | some r₁ =>
        rw [h₁] at hlater
        simp only [Parking.runFor, h₁] at hs
        simp only [Parking.runFor, step_offline hport.asked, h₁, Option.map_some] at hq
        exact ih hlater (by rw [(Grows.step h₁).info]; exact hid) hs q hq

theorem resumeCoroutine_offline_fails {E : List CommandEvent} {fuel : Nat} {r : Runner σ}
    (hd : Diverges (bodyAsks fuel r)) (hid : r.info.workflowId ≠ "replay")
    (hr : Reproduces E (r.resumeCoroutine fuel)) : Fails E (r.offline.resumeCoroutine fuel) := by
  unfold resumeCoroutine at hr ⊢
  split at hr
  · next r' hs =>
    split
    · next q hq => exact runFor_offline_fails hd hid hs hr q hq
    · exact .inl rfl
  · cases hr.deadlocked

theorem runHandler_offline_fails {E : List CommandEvent} {handler : Program σ} {fuel : Nat}
    {r r' : Runner σ} {answers : List (Resp σ)} {o : Outcome}
    (hd : Diverges (handlerAsks handler fuel r answers)) (hid : r.info.workflowId ≠ "replay")
    (hs : runHandler handler fuel r answers = some (r', o)) (hr : Reproduces E r') :
    ∀ q o', runHandler handler fuel r.offline answers = some (q, o') → Fails E q := by
  induction fuel generalizing r answers with
  | zero => cases hs
  | succ fuel ih =>
    intro q o' hq
    cases ho : (handler answers).outcome? with
    | some out =>
      simp only [handlerAsks, ho, Option.isSome_some, if_true] at hd
      exact absurd hd not_diverges_nil
    | none =>
      simp only [handlerAsks, ho, Option.isSome_none, Bool.false_eq_true, if_false] at hd
      simp only [runHandler, ho] at hs hq
      cases hx : r.exec (handler answers) with
      | none => simp [hx] at hs
      | some x =>
        obtain ⟨r₁, resp⟩ := x
        simp only [hx, Option.map_some, Option.getD_some] at hs hd
        have hframe := Grows.of_frame (r.exec_frame hx)
        have hsplit : Diverges ([(r, handler answers)] ++
            handlerAsks handler fuel r₁ (answers ++ [resp])) := hd
        rcases hsplit.cases with hnow | ⟨hport, hlater⟩
        · obtain ⟨-, y, hy, hgen⟩ := hnow
          rw [List.mem_singleton.mp hy] at hgen
          obtain ⟨q₁, hq₁, hf⟩ := exec_offline_fails hgen hid hx
            (hr.of_grows (.of_frame (runHandler_frame hs)))
          simp only [hq₁] at hq
          exact hf.of_grows (.of_frame (runHandler_frame hq))
        · have hp := exec_offline (hport _ (List.mem_singleton_self _))
          simp only [hp, hx, Option.map_some] at hq
          exact ih hlater (by rw [hframe.info]; exact hid) hs q o' hq

theorem reapplyUpdate_offline_fails {E : List CommandEvent} {fuel : Nat} {r : Runner σ}
    {name : String} {args : Payloads} (hd : Diverges (r.updateAsks fuel name args))
    (hid : r.info.workflowId ≠ "replay") (hr : Reproduces E (r.reapplyUpdate fuel name args)) :
    Fails E (r.offline.reapplyUpdate fuel name args) := by
  have hu' : r.offline.updateHandlers name = r.updateHandlers name := rfl
  unfold reapplyUpdate at hr ⊢
  rw [hu']
  cases hu : r.updateHandlers name with
  | none =>
    rw [updateAsks, hu] at hd
    exact absurd hd not_diverges_nil
  | some p =>
    rw [updateAsks, hu] at hd
    simp only [hu] at hr
    cases hs : runHandler (p args) fuel r [] with
    | none =>
      simp only [hs] at hr
      cases hr.hung
    | some x =>
      obtain ⟨r', o⟩ := x
      simp only [hs] at hr
      have hr' : Reproduces E r' := by
        split at hr
        · cases hr.escaped
        · exact hr
      dsimp only
      split
      · exact .inr (.inl rfl)
      · next q o' hq =>
        have hf := runHandler_offline_fails hd hid hs hr' q o' hq
        split
        · exact .inr (.inr (.inl rfl))
        · exact hf

theorem reapplyStep_grows (fuel : Nat) {r : Runner σ} (s : ReplayStep) (hh : r.halted = false) :
    Grows (r.beforeResume fuel s) (reapplyStep fuel r s) := by
  rw [reapplyStep_eq, hh]
  simp only [Bool.false_eq_true, if_false]
  split
  · exact .refl _
  · exact .resumeCoroutine fuel _

theorem reapplyStep_offline_fails {E : List CommandEvent} {fuel : Nat} {r : Runner σ}
    {s : ReplayStep} (hd : Diverges (if r.halted then [] else r.stepAsks fuel s))
    (hid : r.info.workflowId ≠ "replay") (hr : Reproduces E (reapplyStep fuel r s)) :
    Fails E (reapplyStep fuel r.offline s) := by
  by_cases hh : r.halted = true
  · rw [if_pos hh] at hd
    exact absurd hd not_diverges_nil
  · rw [if_neg hh] at hd
    have hh : r.halted = false := Bool.not_eq_true _ ▸ hh
    have hh' : r.offline.halted = false := hh
    rcases hd.cases with hnow | ⟨hport, hlater⟩
    · cases s with
      | event ev => exact absurd hnow not_diverges_nil
      | update name args =>
        have hrep := hr.of_grows (reapplyStep_grows fuel (.update name args) hh)
        have hf := reapplyUpdate_offline_fails hnow hid hrep
        exact hf.of_grows (reapplyStep_grows fuel (.update name args) hh')
    · have hbefore : r.offline.beforeResume fuel s = (r.beforeResume fuel s).offline := by
        cases s with
        | event ev => exact r.applyEventToState_offline ev
        | update name args => exact reapplyUpdate_offline hport
      by_cases hb : (r.beforeResume fuel s).halted = true
      · rw [if_pos hb] at hlater
        exact absurd hlater not_diverges_nil
      · have hb' : ¬ (r.beforeResume fuel s).offline.halted = true := hb
        rw [if_neg hb] at hlater
        rw [reapplyStep_eq, hh, if_neg (by simp), if_neg hb] at hr
        rw [reapplyStep_eq, hh', if_neg (by simp), hbefore, if_neg hb']
        exact resumeCoroutine_offline_fails hlater
          (by rw [(Grows.beforeResume fuel r s).info]; exact hid) hr

theorem timeline_offline_fails {E : List CommandEvent} {fuel : Nat} {steps : List ReplayStep}
    {r : Runner σ} (hd : Diverges (timelineAsks fuel r steps))
    (hid : r.info.workflowId ≠ "replay")
    (hr : Reproduces E (steps.foldl (reapplyStep fuel) r)) :
    Fails E (steps.foldl (reapplyStep fuel) r.offline) := by
  induction steps generalizing r with
  | nil => exact absurd hd not_diverges_nil
  | cons s steps ih =>
    rw [List.foldl_cons] at hr ⊢
    rcases hd.cases with hnow | ⟨hport, hlater⟩
    · have hf := reapplyStep_offline_fails hnow hid (hr.of_grows (.timeline fuel steps _))
      exact hf.of_grows (.timeline fuel steps _)
    · rw [reapplyStep_offline hport]
      exact ih hlater (by rw [(Grows.reapplyStep fuel r s).info]; exact hid) hr

theorem run_offline_fails {E : List CommandEvent} {fuel : Nat} {r : Runner σ}
    (hd : Diverges (r.runAsks fuel)) (hid : r.info.workflowId ≠ "replay")
    (hr : Reproduces E (r.run fuel)) : Fails E (r.offline.run fuel) := by
  change Reproduces E ((r.firstResume fuel).scan.postUpdateTimeline.foldl (reapplyStep fuel)
    (r.firstResume fuel)) at hr
  change Fails E ((r.offline.firstResume fuel).scan.postUpdateTimeline.foldl (reapplyStep fuel)
    (r.offline.firstResume fuel))
  rcases hd.cases with hnow | ⟨hport, hlater⟩
  · have hf : Fails E (r.offline.firstResume fuel) :=
      resumeCoroutine_offline_fails hnow hid (hr.of_grows (.timeline fuel _ _))
    exact hf.of_grows (.timeline fuel _ _)
  · have hfirst : r.offline.firstResume fuel = (r.firstResume fuel).offline :=
      resumeCoroutine_offline hport
    rw [hfirst]
    refine timeline_offline_fails hlater ?_ hr
    have hinfo : (r.firstResume fuel).info = r.info := (Grows.resumeCoroutine fuel _).info
    rw [hinfo]
    exact hid

end Divergence

end Runner

end TemporalSdk
