import TemporalSdk.Eviction

/-! The world a lost runner is built again in. Its side effects and local activities may come out
differently there; what they once did is on record, and no runner built from the record runs them
again. -/
namespace TemporalSdk
open StateTransition (Reaches)

variable {σ : Type}

section Rewiring

/-- The same code and encodings; side effects and local activities may come out differently. -/
structure World.SameCode (w w' : World σ) : Prop where
  converter : w'.converter = w.converter
  failureConverter : w'.failureConverter = w.failureConverter
  interceptors : w'.interceptors = w.interceptors

/-- The activities that `LocalActivityResolver` finds for the call with this ordinal. -/
def World.localActivity (w : World σ) (ordinal : Nat) :
    Option (String → Option (ActivityInfo → Payloads → ActivityResult)) :=
  w.localActivityResolver.map fun resolve type => (resolve type).map fun fn => fn ordinal

def Runner.inWorld (w : World σ) (r : Runner σ) : Runner σ := { r with world := w }

/-- The operation is answered from the record, or by a function that is the same in `w`. -/
def Runner.AlikeIn (w : World σ) (r : Runner σ) : Op σ → Prop
  | .sideEffect =>
    (r.scan.sideEffects[r.sideEffectSeq]?).isSome = true ∨
      w.sideEffectFn r.sideEffectSeq = r.world.sideEffectFn r.sideEffectSeq
  | .executeLocalActivity .. =>
    (r.scan.localActivities[r.localActivitySeq]?).isSome = true ∨
      w.localActivity r.localActivitySeq = r.world.localActivity r.localActivitySeq
  | .mutableSideEffect id _ =>
    (((r.mseRecorded id).getD [])[(r.mseCursor id).getD 0]?).isSome = true ∨
      w.mutableSideEffectFn id ((r.mseCallCount id).getD 0) =
        r.world.mutableSideEffectFn id ((r.mseCallCount id).getD 0)
  | _ => True

variable {w : World σ} {r : Runner σ}

theorem Runner.program_inWorld (hw : r.world.SameCode w) : (r.inWorld w).program = r.program := by
  simp only [Runner.program, Runner.inWorld, Runner.chain, hw.interceptors]

theorem Runner.openOperation_inWorld (r : Runner σ) (w : World σ) (op : FutureOp) (id : String)
    (outcome : Option OpOutcome) (c : Command) :
    (r.inWorld w).openOperation op id outcome c = (r.openOperation op id outcome c).inWorld w := by
  unfold Runner.openOperation
  split <;> rfl

theorem Runner.cancel_inWorld (r : Runner σ) (w : World σ) (addr : Nat) :
    (r.inWorld w).cancel addr = (r.cancel addr).inWorld w := by
  unfold Runner.cancel Runner.requestCancelExternal Runner.inWorld
  dsimp only
  repeat' split
  all_goals rfl

theorem Runner.tryConsumeSignal_inWorld (r : Runner σ) (w : World σ) (name : String) :
    (r.inWorld w).tryConsumeSignal name =
      (r.tryConsumeSignal name).map fun x => (x.1.inWorld w, x.2) := by
  unfold Runner.tryConsumeSignal Runner.inWorld
  dsimp only
  cases r.scan.signals name with
  | none => rfl
  | some buffered =>
    dsimp only
    cases buffered[(r.signalCursor name).getD 0]? <;> rfl

theorem Runner.getVersion_inWorld (hw : r.world.SameCode w) (changeId : String) (lo hi : Int) :
    (r.inWorld w).getVersion changeId lo hi =
      ((r.getVersion changeId lo hi).1.inWorld w, (r.getVersion changeId lo hi).2) := by
  unfold Runner.getVersion Runner.inWorld
  dsimp only
  rw [hw.converter]
  repeat' split
  all_goals rfl

theorem Runner.sideEffect_inWorld (hw : r.world.SameCode w) (h : r.AlikeIn w .sideEffect) :
    (r.inWorld w).sideEffect = (r.sideEffect.1.inWorld w, r.sideEffect.2) := by
  cases hp : r.scan.sideEffects[r.sideEffectSeq]? with
  | some p =>
    simp only [Runner.sideEffect, Runner.inWorld, hp, hw.converter]
    cases r.world.converter.fromPayload p <;> rfl
  | none =>
    have hfn : w.sideEffectFn r.sideEffectSeq = r.world.sideEffectFn r.sideEffectSeq :=
      h.resolve_left fun hsome => by
        rw [hp] at hsome
        cases hsome
    simp only [Runner.sideEffect, Runner.inWorld, hp, hfn, hw.converter]
    cases r.world.sideEffectFn r.sideEffectSeq <;> rfl

theorem Runner.executeLocalActivity_inWorld (hw : r.world.SameCode w) {type : String}
    {input : Payloads} {options : LocalActivityOptions}
    (h : r.AlikeIn w (.executeLocalActivity type input options)) :
    (r.inWorld w).executeLocalActivity type input options =
      ((r.executeLocalActivity type input options).1.inWorld w,
        (r.executeLocalActivity type input options).2) := by
  cases hm : r.scan.localActivities[r.localActivitySeq]? with
  | some m =>
    rw [r.executeLocalActivity_recorded type input options hm,
      (r.inWorld w).executeLocalActivity_recorded type input options hm]
    simp only [Runner.inWorld, hw.converter]
    rfl
  | none =>
    have hfn : w.localActivity r.localActivitySeq = r.world.localActivity r.localActivitySeq :=
      h.resolve_left fun hsome => by
        rw [hm] at hsome
        cases hsome
    unfold World.localActivity at hfn
    simp only [Runner.executeLocalActivity, Runner.inWorld, hm, hw.converter]
    cases hl : r.world.localActivityResolver with
    | none =>
      rw [hl, Option.map_none, Option.map_eq_none_iff] at hfn
      simp only [hfn]
      rfl
    | some resolve =>
      obtain ⟨resolve', hl', hresolve⟩ := Option.map_eq_some_iff.mp (hl ▸ hfn)
      have htype : (resolve' type).map (fun fn => fn r.localActivitySeq) =
          (resolve type).map fun fn => fn r.localActivitySeq := congrFun hresolve type
      simp only [hl']
      cases hf : resolve type with
      | none =>
        rw [hf, Option.map_none, Option.map_eq_none_iff] at htype
        simp only [htype]
        rfl
      | some fn =>
        obtain ⟨fn', hf', hfns⟩ := Option.map_eq_some_iff.mp (hf ▸ htype)
        simp only [hf', Runner.runLocalActivity, hfns]
        rfl

theorem Runner.mutableSideEffect_inWorld (hw : r.world.SameCode w) {id : String}
    {equals : Value → Value → Bool} (h : r.AlikeIn w (.mutableSideEffect id equals)) :
    (r.inWorld w).mutableSideEffect id equals =
      ((r.mutableSideEffect id equals).1.inWorld w, (r.mutableSideEffect id equals).2) := by
  rcases h with h | h
  · obtain ⟨p, hp⟩ := Option.isSome_iff_exists.mp h
    cases hl : r.mseRecorded id with
    | none => simp [hl] at hp
    | some l =>
      rw [hl, Option.getD_some] at hp
      simp only [Runner.mutableSideEffect, Runner.inWorld, hl, hp, hw.converter]
      repeat' split
      all_goals rfl
  · simp only [Runner.mutableSideEffect, Runner.inWorld, h, hw.converter]
    repeat' split
    all_goals rfl

/-- An operation is answered alike in every world with the same code that answers it from the
record, or by the same function. -/
theorem Runner.exec_inWorld (hw : r.world.SameCode w) {op : Op σ} (h : r.AlikeIn w op) :
    (r.inWorld w).exec op = (r.exec op).map fun x => (x.1.inWorld w, x.2) := by
  cases op with
  | scheduleActivity type input options =>
    have hcmd : (r.inWorld w).scheduleActivityCommand (toString r.activitySeq) type input options =
        r.scheduleActivityCommand (toString r.activitySeq) type input options := by
      simp only [Runner.scheduleActivityCommand, Runner.activityHeader, Runner.inWorld,
        hw.interceptors]
      rfl
    have ho := Runner.openOperation_inWorld ({ r with activitySeq := r.activitySeq + 1 }.produce
      .activity (toString r.activitySeq) type) w .activity (toString r.activitySeq)
      (r.scan.activities (toString r.activitySeq))
      (r.scheduleActivityCommand (toString r.activitySeq) type input options)
    rw [← hcmd] at ho
    have hs : (r.inWorld w).scheduleActivity type input options =
        (r.scheduleActivity type input options).inWorld w := by
      rw [Runner.scheduleActivity, Runner.scheduleActivity, ← hcmd]
      exact congrArg (fun q : Runner σ => { q with
        activityFutures := r.activityFutures.insert (toString r.activitySeq) r.futureCount }) ho
    exact congrArg (fun q => some (q, Resp.future r.futureCount)) hs
  | startTimer duration =>
    have hs : (r.inWorld w).startTimer duration = (r.startTimer duration).inWorld w := by
      unfold Runner.startTimer Runner.inWorld
      dsimp only
      split <;> rfl
    exact congrArg (fun q => some (q, Resp.future r.futureCount)) hs
  | startChildWorkflow type input options =>
    have ho := Runner.openOperation_inWorld ({ r with childSeq := r.childSeq + 1 }.produce
      .childWorkflow (r.childId options) type) w .childWorkflow (r.childId options)
      (r.scan.children (r.childId options)) (.startChildWorkflowExecution r.info.ns
        (r.childId options) type (r.queueOr options.taskQueue) input options.parentClosePolicy)
    exact congrArg (fun q : Runner σ => some ({ q with
      childFutures := r.childFutures.insert (r.childId options) r.futureCount },
      Resp.future r.futureCount)) ho
  | scheduleNexusOperation endpoint service operation input close =>
    have ho := Runner.openOperation_inWorld ({ r with nexusSeq := r.nexusSeq + 1 }.produce
      .nexusOperation (toString r.nexusSeq) "") w .nexusOperation (toString r.nexusSeq)
      (r.scan.nexusOps (toString r.nexusSeq)) (.scheduleNexusOperation endpoint service operation
        input (if 0 < close then some (toProtoDuration close) else none))
    exact congrArg (fun q : Runner σ => some ({ q with
      nexusFutures := r.nexusFutures.insert (toString r.nexusSeq) r.futureCount },
      Resp.future r.futureCount)) ho
  | cancel addr => exact congrArg (fun q => some (q, Resp.unit)) (r.cancel_inWorld w addr)
  | cancelExternalWorkflow id =>
    have hs : (r.inWorld w).cancelExternalWorkflow id =
        (r.cancelExternalWorkflow id).inWorld w := by
      unfold Runner.cancelExternalWorkflow Runner.requestCancelExternal Runner.inWorld
      dsimp only
      split <;> rfl
    exact congrArg (fun q => some (q, Resp.unit)) hs
  | signalExternalWorkflow id name input =>
    have hs : (r.inWorld w).signalExternalWorkflow id name input =
        (r.signalExternalWorkflow id name input).inWorld w := by
      unfold Runner.signalExternalWorkflow Runner.inWorld
      dsimp only
      split <;> rfl
    exact congrArg (fun q => some (q, Resp.unit)) hs
  | upsertSearchAttributes attributes =>
    have hs : (r.inWorld w).upsertSearchAttributes attributes =
        (r.upsertSearchAttributes attributes).inWorld w := by
      unfold Runner.upsertSearchAttributes Runner.inWorld
      dsimp only
      split <;> rfl
    exact congrArg (fun q => some (q, Resp.unit)) hs
  | get addr =>
    unfold Runner.exec Runner.inWorld
    dsimp only
    split <;> rfl
  | receive name =>
    simp only [Runner.exec, r.tryConsumeSignal_inWorld w name, Option.map_map]
    rfl
  | receiveAsync name =>
    simp only [Runner.exec, r.tryConsumeSignal_inWorld w name]
    cases r.tryConsumeSignal name <;> rfl
  | select cases hasDefault =>
    have hready : (r.inWorld w).caseReady = r.caseReady := by
      funext c
      cases c <;> rfl
    simp only [Runner.exec, hready]
    repeat' split
    all_goals rfl
  | awaitCancellation =>
    have hs : (r.inWorld w).awaitCancellation = r.awaitCancellation.inWorld w := by
      unfold Runner.awaitCancellation Runner.inWorld
      dsimp only
      split <;> rfl
    exact congrArg (fun q => some (q, Resp.future r.futureCount)) hs
  | sideEffect => exact congrArg some (Runner.sideEffect_inWorld hw h)
  | mutableSideEffect id equals =>
    exact congrArg some (Runner.mutableSideEffect_inWorld hw h)
  | getVersion changeId lo hi =>
    exact congrArg some (Runner.getVersion_inWorld hw changeId lo hi)
  | executeLocalActivity type input options =>
    exact congrArg some (Runner.executeLocalActivity_inWorld hw h)
  | _ => rfl

theorem Runner.step_inWorld (hw : r.world.SameCode w) (h : r.AlikeIn w (r.program r.trace)) :
    (r.inWorld w).step = r.step.map (Runner.inWorld w) := by
  unfold Runner.step
  rw [Runner.program_inWorld hw, show (r.inWorld w).trace = r.trace from rfl,
    show (r.inWorld w).done = r.done from rfl, Runner.exec_inWorld hw h]
  split
  · rfl
  · cases (r.program r.trace).outcome? with
    | some o =>
      cases o <;> simp only [Runner.finishBody, Runner.bodyFailure, Runner.inWorld,
        hw.failureConverter, Option.map_some] <;> rfl
    | none =>
      cases r.exec (r.program r.trace) <;> rfl

end Rewiring

section Agreeing

/-- `w'` runs the same code as `w`, and what is not on record in `S` comes out alike in both: the
side effects and local activities of the calls that have no marker, and the mutable side effects of
the calls after the last change of their id. -/
structure World.AgreesBeyond (S : Prescan) (w w' : World σ) : Prop extends w.SameCode w' where
  sideEffects : ∀ k, S.sideEffects.length ≤ k → w'.sideEffectFn k = w.sideEffectFn k
  localActivities : ∀ k, S.localActivities.length ≤ k → w'.localActivity k = w.localActivity k
  mutableSideEffects : ∀ id (n : Nat),
    (∀ p ∈ Runner.changes w.converter id S.mutableSideEffectMarkers, p.1 < (n : Int)) →
      w'.mutableSideEffectFn id n = w.mutableSideEffectFn id n

/-- The world in which every function whose outcome is on record in `S` fails. -/
def World.spent (S : Prescan) (w : World σ) : World σ :=
  { w with
    sideEffectFn := fun k =>
      if k < S.sideEffects.length then .error "run again" else w.sideEffectFn k
    localActivityResolver := w.localActivityResolver.map fun resolve type =>
      (resolve type).map fun fn k =>
        if k < S.localActivities.length then fun _ _ => .stdException "run again" else fn k
    mutableSideEffectFn := fun id n =>
      if (Runner.changes w.converter id S.mutableSideEffectMarkers).any (fun p => n ≤ p.1) then
        .error "run again"
      else w.mutableSideEffectFn id n }

theorem World.agreesBeyond_spent (S : Prescan) (w : World σ) : w.AgreesBeyond S (w.spent S) where
  converter := rfl
  failureConverter := rfl
  interceptors := rfl
  sideEffects k hk := if_neg (Nat.not_lt.mpr hk)
  localActivities k hk := by
    unfold World.localActivity World.spent
    rw [Option.map_map]
    refine congrArg (fun f => w.localActivityResolver.map f) (funext fun resolve => ?_)
    refine funext fun type => ?_
    rw [Function.comp_apply, Option.map_map]
    refine congrArg (fun f => (resolve type).map f) (funext fun fn => ?_)
    exact if_neg (Nat.not_lt.mpr hk)
  mutableSideEffects id n hn := by
    refine if_neg fun hany => ?_
    obtain ⟨p, hp, hle⟩ := List.any_eq_true.mp hany
    have := hn p hp
    have := of_decide_eq_true hle
    omega

/-- The record is what a scan has of the outcomes of functions. -/
structure Prescan.SameOutcomes (S S' : Prescan) : Prop where
  sideEffects : S'.sideEffects = S.sideEffects
  localActivities : S'.localActivities = S.localActivities
  mutableSideEffects : S'.mutableSideEffectMarkers = S.mutableSideEffectMarkers

theorem World.AgreesBeyond.of_sameOutcomes {S S' : Prescan} {w w' : World σ}
    (h : w.AgreesBeyond S w') (hs : S.SameOutcomes S') : w.AgreesBeyond S' w' where
  toSameCode := h.toSameCode
  sideEffects k hk := h.sideEffects k (hs.sideEffects ▸ hk)
  localActivities k hk := h.localActivities k (hs.localActivities ▸ hk)
  mutableSideEffects id n hn := h.mutableSideEffects id n (hs.mutableSideEffects ▸ hn)

/-- The cursor of a mutable side effect has passed only changes that earlier calls made. -/
structure Runner.Passes (r : Runner σ) : Prop where
  recorded : r.mseRecorded =
    recordedMutable r.world.converter r.scan.mutableSideEffectMarkers
  passed : ∀ id i p, i < (r.mseCursor id).getD 0 → ((r.mseRecorded id).getD [])[i]? = some p →
    p.1 < ((r.mseCallCount id).getD 0 : Int)

variable {r r' : Runner σ} {w : World σ}

theorem Runner.Passes.of_memory (h : r.Passes) (hm : r'.memory = r.memory) (hs : r'.scan = r.scan)
    (hw : r'.world = r.world) : r'.Passes := by
  have hrec : r'.mseRecorded = r.mseRecorded := congrArg Memory.mseRecorded hm
  have hcur : r'.mseCursor = r.mseCursor := congrArg Memory.mseCursor hm
  have hcount : r'.mseCallCount = r.mseCallCount := congrArg Memory.mseCallCount hm
  constructor
  · rw [hrec, hs, hw, h.recorded]
  · rw [hrec, hcur, hcount]
    exact h.passed

/-- What a call of a mutable side effect writes of what decides whether its function is run. -/
theorem Runner.mutableSideEffect_moves (r : Runner σ) (id : String)
    (equals : Value → Value → Bool) :
    (r.mutableSideEffect id equals).1.scan = r.scan ∧
      (r.mutableSideEffect id equals).1.world = r.world ∧
      (r.mutableSideEffect id equals).1.mseRecorded = r.mseRecorded ∧
      (r.mutableSideEffect id equals).1.mseCallCount =
        r.mseCallCount.insert id ((r.mseCallCount id).getD 0 + 1) ∧
      ((r.mutableSideEffect id equals).1.mseCursor = r.mseCursor ∨
        (∃ data, ((r.mseRecorded id).getD [])[(r.mseCursor id).getD 0]? =
          some (((r.mseCallCount id).getD 0 : Int), data)) ∧
        (r.mutableSideEffect id equals).1.mseCursor =
          r.mseCursor.insert id ((r.mseCursor id).getD 0 + 1)) := by
  cases hl : ((r.mseRecorded id).getD [])[(r.mseCursor id).getD 0]? with
  | none =>
    unfold Runner.mutableSideEffect
    cases hrec : r.mseRecorded id with
    | none =>
      dsimp only
      repeat' split
      all_goals exact ⟨rfl, rfl, rfl, rfl, .inl rfl⟩
    | some list =>
      rw [hrec, Option.getD_some] at hl
      simp only [hl]
      repeat' split
      all_goals exact ⟨rfl, rfl, rfl, rfl, .inl rfl⟩
  | some p =>
    obtain ⟨change, data⟩ := p
    cases hrec : r.mseRecorded id with
    | none => simp [hrec] at hl
    | some list =>
      rw [hrec, Option.getD_some] at hl
      unfold Runner.mutableSideEffect
      simp only [hrec, hl]
      by_cases hidx : change = ((r.mseCallCount id).getD 0 : Int)
      · subst hidx
        rw [if_pos rfl]
        split <;> exact ⟨rfl, rfl, rfl, rfl, .inr ⟨⟨data, rfl⟩, rfl⟩⟩
      · rw [if_neg hidx]
        split <;> exact ⟨rfl, rfl, rfl, rfl, .inl rfl⟩

theorem Runner.Passes.mutableSideEffect (h : r.Passes) (id : String)
    (equals : Value → Value → Bool) : (r.mutableSideEffect id equals).1.Passes := by
  obtain ⟨hscan, hworld, hrec, hcalls, hcursor⟩ := r.mutableSideEffect_moves id equals
  have hle (j : String) : (r.mseCallCount j).getD 0 ≤
      ((r.mseCallCount.insert id ((r.mseCallCount id).getD 0 + 1)) j).getD 0 := by
    by_cases hj : j = id
    · subst hj
      rw [PartialMap.insert_self]
      exact Nat.le_succ _
    · rw [PartialMap.insert_of_ne _ hj]
  have hkept (j : String) (i : Nat) (p : Int × Payload) (hi : i < (r.mseCursor j).getD 0)
      (hp : ((r.mseRecorded j).getD [])[i]? = some p) :
      p.1 < (((r.mseCallCount.insert id ((r.mseCallCount id).getD 0 + 1)) j).getD 0 : Int) :=
    (h.passed j i p hi hp).trans_le (Int.ofNat_le.mpr (hle j))
  refine ⟨by rw [hrec, hworld, hscan, h.recorded], fun j i p hi hp => ?_⟩
  rw [hrec] at hp
  rw [hcalls]
  rcases hcursor with hcursor | ⟨⟨data, hdata⟩, hcursor⟩
  · exact hkept j i p (hcursor ▸ hi) hp
  · by_cases hj : j = id
    · subst hj
      rw [hcursor, PartialMap.insert_self, Option.getD_some] at hi
      rcases Nat.lt_succ_iff_lt_or_eq.mp hi with hi | rfl
      · exact hkept j i p hi hp
      · -- the change of this call
        rw [hdata, Option.some.injEq] at hp
        rw [← hp, PartialMap.insert_self, Option.getD_some]
        exact Int.ofNat_lt.mpr (Nat.lt_succ_self _)
    · rw [hcursor, PartialMap.insert_of_ne _ hj] at hi
      exact hkept j i p hi hp

theorem Runner.Passes.exec (h : r.Passes) {op : Op σ} {resp : Resp σ}
    (hx : r.exec op = some (r', resp)) : r'.Passes := by
  by_cases hm : ∃ id equals, op = .mutableSideEffect id equals
  · obtain ⟨id, equals, rfl⟩ := hm
    have hr' : (r.mutableSideEffect id equals).1 = r' := congrArg Prod.fst (Option.some.inj hx)
    exact hr' ▸ h.mutableSideEffect id equals
  · have hframe := r.exec_frame hx
    by_cases hv : ∃ id lo hi, op = .getVersion id lo hi
    · obtain ⟨id, lo, hi, rfl⟩ := hv
      have hr' : (r.getVersion id lo hi).1 = r' := congrArg Prod.fst (Option.some.inj hx)
      rw [← hr']
      unfold Runner.getVersion
      dsimp only
      repeat' split
      all_goals exact ⟨h.recorded, h.passed⟩
    · exact h.of_memory (r.exec_memory (fun id lo hi ho => hv ⟨id, lo, hi, ho⟩)
        (fun id equals ho => hm ⟨id, equals, ho⟩) hx) hframe.scan hframe.world

/-- Beyond the record a function is the same in both worlds, and on record none is run. -/
theorem World.AgreesBeyond.alikeIn (hw : r.world.AgreesBeyond r.scan w) (hp : r.Passes)
    (op : Op σ) : r.AlikeIn w op := by
  cases op with
  | sideEffect =>
    rcases Nat.lt_or_ge r.sideEffectSeq r.scan.sideEffects.length with hlt | hle
    · exact .inl (by rw [List.getElem?_eq_getElem hlt]; rfl)
    · exact .inr (hw.sideEffects _ hle)
  | executeLocalActivity type input options =>
    rcases Nat.lt_or_ge r.localActivitySeq r.scan.localActivities.length with hlt | hle
    · exact .inl (by rw [List.getElem?_eq_getElem hlt]; rfl)
    · exact .inr (hw.localActivities _ hle)
  | mutableSideEffect id equals =>
    rcases Nat.lt_or_ge ((r.mseCursor id).getD 0) ((r.mseRecorded id).getD []).length with
      hlt | hle
    · exact .inl (by rw [List.getElem?_eq_getElem hlt]; rfl)
    · refine .inr (hw.mutableSideEffects _ _ fun p hmem => ?_)
      rw [Runner.changes, ← hp.recorded] at hmem
      obtain ⟨i, hi, rfl⟩ := List.mem_iff_getElem.mp hmem
      exact hp.passed id i _ (hi.trans_le hle) (List.getElem?_eq_getElem hi)
  | _ => trivial

/-- The events of a continuation bring a runner no recorded outcomes. -/
theorem Runner.applyOne_outcomes (r : Runner σ) (e : HistoryEvent) :
    (r.applyOne e).scan.sideEffects = r.scan.sideEffects ∧
      (r.applyOne e).scan.localActivities = r.scan.localActivities := by
  change (r.applyEventToState e).scan.sideEffects = _ ∧
    (r.applyEventToState e).scan.localActivities = _
  obtain ⟨eid, a⟩ := e
  cases a with
  | activityTaskCancelRequested sid =>
    simp only [Runner.applyEventToState, Prescan.onActivity]
    split <;> exact ⟨rfl, rfl⟩
  | workflowExecutionCancelRequested =>
    simp only [Runner.applyEventToState, Runner.foldl_setFuture_scan, and_self]
  | _ => first
    | exact ⟨rfl, rfl⟩
    | (change (Runner.resolveFuture _ _ _).scan.sideEffects = _ ∧
        (Runner.resolveFuture _ _ _).scan.localActivities = _
       rw [Runner.resolveFuture_scan]
       exact ⟨rfl, rfl⟩)

/-- `q` is `r` in another world, which agrees with that of `r` beyond what `r` has on record. -/
structure Runner.Rewired (r q : Runner σ) : Prop where
  same : q = r.inWorld q.world
  agrees : r.world.AgreesBeyond r.scan q.world
  passes : r.Passes

namespace Runner.Rewired

variable {q : Runner σ}

theorem program (h : r.Rewired q) : q.program = r.program := by
  rw [h.same]
  exact program_inWorld h.agrees.toSameCode

theorem trace (h : r.Rewired q) : q.trace = r.trace := by
  rw [h.same]
  rfl

/-- They take the same step. -/
theorem step (h : r.Rewired q) : Option.Rel Rewired r.step q.step := by
  have hq : q.step = r.step.map (inWorld q.world) := by
    rw [h.same]
    exact step_inWorld h.agrees.toSameCode (h.agrees.alikeIn h.passes _)
  rw [hq]
  cases hs : r.step with
  | none => exact .none
  | some r' =>
    have hscan := step_scan hs
    have hkeeps : r'.world = r.world ∧ r'.Passes := by
      rcases step_cases hs with ⟨o, rfl⟩ | ⟨q', resp, hx, rfl⟩
      · cases o <;> exact ⟨rfl, h.passes.recorded, h.passes.passed⟩
      · have hp := h.passes.exec hx
        exact ⟨(r.exec_frame hx).world, hp.recorded, hp.passed⟩
    refine .some ⟨rfl, ?_, hkeeps.2⟩
    rw [hkeeps.1, hscan]
    exact h.agrees

theorem lockstep : Parking.Lockstep Runner.step Runner.step (@Rewired σ) :=
  .of_rel fun _ _ h => h.step

theorem reaches (h : r.Rewired q) (hr : Reaches Runner.step r r') :
    ∃ q', Reaches Runner.step q q' ∧ r'.Rewired q' := by
  induction hr with
  | refl => exact ⟨q, .refl, h⟩
  | @tail x y _ hxy ih =>
    obtain ⟨q', hq', hx⟩ := ih
    have hrel := hx.step
    rw [show x.step = some y from hxy] at hrel
    generalize hs : q'.step = z at hrel
    cases hrel with
    | some hy => exact ⟨_, hq'.tail hs, hy⟩

theorem dated_iff (h : r.Rewired q) : q.Dated ↔ r.Dated := by
  have hreplaying : q.isReplaying = r.isReplaying := by
    rw [h.same]
    rfl
  have hversions : q.changeVersions = r.changeVersions := by
    rw [h.same]
    rfl
  unfold Runner.Dated
  rw [h.program, h.trace, hreplaying, hversions]

theorem sameAnswer (h : r.Rewired q) : SameAnswer r q := by
  rw [h.same]
  exact ⟨rfl, rfl, rfl, rfl, rfl⟩

theorem checkDeterminism (h : r.Rewired q) : q.checkDeterminism = r.checkDeterminism := by
  rw [h.same]
  rfl

theorem resumeCoroutine (h : r.Rewired q) (fuel : Nat) :
    (r.resumeCoroutine fuel).Rewired (q.resumeCoroutine fuel) := by
  have hrun := lockstep.runFor fuel h
  unfold Runner.resumeCoroutine
  generalize Parking.runFor Runner.step fuel r = x at hrun ⊢
  generalize Parking.runFor Runner.step fuel q = y at hrun ⊢
  cases hrun with
  | none =>
    refine ⟨?_, h.agrees, h.passes.recorded, h.passes.passed⟩
    dsimp only
    rw [h.same]
    rfl
  | some h => exact h

end Runner.Rewired

end Agreeing

section Serving

theorem Runner.resolveFuture_inWorld (r : Runner σ) (w : World σ) (addr : Option Nat)
    (f : FutureState → FutureState) :
    (r.inWorld w).resolveFuture addr f = (r.resolveFuture addr f).inWorld w := by
  cases addr <;> rfl

/-- What events do to a runner does not depend on its world. -/
theorem Runner.applyEventToState_inWorld (r : Runner σ) (w : World σ) (e : HistoryEvent) :
    (r.inWorld w).applyEventToState e = (r.applyEventToState e).inWorld w := by
  have hcancels (as : List Nat) (q : Runner σ) :
      as.foldl (fun r a => r.setFuture a { r.futures a with ready := true }) (q.inWorld w) =
        (as.foldl (fun r a => r.setFuture a { r.futures a with ready := true }) q).inWorld w := by
    induction as generalizing q with
    | nil => rfl
    | cons a as ih => exact ih (q.setFuture a { q.futures a with ready := true })
  obtain ⟨eid, a⟩ := e
  cases a with
  | workflowExecutionCancelRequested =>
    exact hcancels r.cancelFutures { r with scan := { r.scan with cancelRequested := true } }
  | timerFired id =>
    exact r.resolveFuture_inWorld w (r.timerFutures id) fun f => { f with ready := true }
  | timerCanceled id =>
    exact r.resolveFuture_inWorld w (r.timerFutures id)
      fun f => { f with ready := true, cancelled := true }
  | _ => first
    | rfl
    | exact Runner.resolveFuture_inWorld r w _ _

theorem Runner.applyEvents_inWorld (r : Runner σ) (w : World σ) (evs : History) :
    (r.inWorld w).applyEvents evs = (r.applyEvents evs).inWorld w := by
  induction evs generalizing r with
  | nil => rfl
  | cons e evs ih =>
    by_cases hst : e.eventId ≤ r.scan.lastEventId
    · rw [r.applyEvents_cons_stale hst, (r.inWorld w).applyEvents_cons_stale hst]
      exact ih r
    · have hlt := Nat.lt_of_not_le hst
      rw [r.applyEvents_cons_new hlt, (r.inWorld w).applyEvents_cons_new hlt, ← ih]
      congr 1
      rw [Runner.applyOne, Runner.applyOne, r.applyEventToState_inWorld]
      rfl

theorem Runner.applyEvents_outcomes (r : Runner σ) (evs : History) :
    r.scan.SameOutcomes (r.applyEvents evs).scan := by
  have hmarkers := congrArg MarkerLists.mutables (r.applyEvents_markers evs)
  suffices hout : (r.applyEvents evs).scan.sideEffects = r.scan.sideEffects ∧
      (r.applyEvents evs).scan.localActivities = r.scan.localActivities from
    ⟨hout.1, hout.2, hmarkers⟩
  clear hmarkers
  induction evs generalizing r with
  | nil => exact ⟨rfl, rfl⟩
  | cons e evs ih =>
    by_cases hst : e.eventId ≤ r.scan.lastEventId
    · rw [r.applyEvents_cons_stale hst]
      exact ih r
    · rw [r.applyEvents_cons_new (Nat.lt_of_not_le hst)]
      obtain ⟨hside, hlocal⟩ := r.applyOne_outcomes e
      rw [← hside, ← hlocal]
      exact ih (r.applyOne e)

variable {fuel : Nat} {info : WorkflowInfo} {world w : World σ} {fn : WorkflowFn σ}
  {past batch : History} {cached cached' : Option (Runner σ)}

/-- A runner that is built in another world differs from one built in this by the world. -/
theorem Runner.Rewired.replay (isReplaying : Bool) {h : History} (hu : UpdateFree h)
    (hw : world.AgreesBeyond (scanAll h) w) :
    Rewired { Runner.replay info isReplaying world fn h with
        commands := [], producedCommands := [], started := true }
      { Runner.replay info isReplaying w fn h with
        commands := [], producedCommands := [], started := true } := by
  refine ⟨?_, ?_, rfl, fun _ _ _ hi => absurd hi (Nat.not_lt_zero _)⟩
  · simp only [Runner.replay, Runner.new, Runner.inWorld, Runner.chain, hw.converter,
      hw.interceptors]
  · rw [← scanHistory_of_updateFree hu] at hw
    exact hw

/-- New events are the same in every world. -/
theorem Runner.Rewired.applyEvents {r q : Runner σ} (h : r.Rewired q) (evs : History) :
    Rewired (({ r with commands := [], producedCommands := [] } : Runner σ).applyEvents evs)
      (({ q with commands := [], producedCommands := [] } : Runner σ).applyEvents evs) := by
  set r₀ : Runner σ := { r with commands := [], producedCommands := [] } with hr₀
  have hq : ({ q with commands := [], producedCommands := [] } : Runner σ).applyEvents evs =
      (r₀.applyEvents evs).inWorld q.world := by
    rw [← r₀.applyEvents_inWorld, h.same]
    rfl
  have hout := r₀.applyEvents_outcomes evs
  rw [hq]
  obtain ⟨scan, futures, ht⟩ := r₀.applyEvents_touches evs
  rw [ht] at hout ⊢
  refine ⟨rfl, h.agrees.of_sameOutcomes hout, ?_, h.passes.passed⟩
  change r.mseRecorded = recordedMutable r.world.converter scan.mutableSideEffectMarkers
  rw [hout.mutableSideEffects]
  exact h.passes.recorded

theorem Runner.Rewired.applyAndResume {r q : Runner σ} (h : r.Rewired q) (fuel : Nat)
    (evs : History) : Rewired (r.applyAndResume fuel evs) (q.applyAndResume fuel evs) := by
  have happly := h.applyEvents evs
  have hstarted : (({ q with commands := [], producedCommands := [] } : Runner σ).applyEvents
      evs).started = (({ r with commands := [], producedCommands := [] } : Runner σ).applyEvents
        evs).started := by
    rw [happly.same]
    rfl
  unfold Runner.applyAndResume
  dsimp only
  rw [hstarted]
  split
  · exact happly.resumeCoroutine fuel
  · exact happly

theorem Runner.Rewired.atTask (h : Option.Rel Rewired cached cached')
    (hu : UpdateFree (past ++ batch))
    (hw : world.AgreesBeyond (scanAll (past ++ batch)) w) :
    Rewired (Runner.atTask info world fn cached past batch)
      (Runner.atTask info w fn cached' past batch) := by
  cases h with
  | none => exact .replay (!past.isEmpty) hu hw
  | some h => exact h.applyEvents batch

theorem Runner.Rewired.serve (h : Option.Rel Rewired cached cached')
    (hu : UpdateFree (past ++ batch))
    (hw : world.AgreesBeyond (scanAll (past ++ batch)) w) :
    Rewired (Runner.serve fuel info world fn cached past batch)
      (Runner.serve fuel info w fn cached' past batch) := by
  cases h with
  | none =>
    rw [Runner.serve_eq hu rfl, Runner.serve_eq hu rfl]
    exact (Rewired.atTask .none hu hw).resumeCoroutine fuel
  | some h => exact h.applyAndResume fuel batch

end Serving

section Running

variable {fuel : Nat} {info : WorkflowInfo} {world : World σ} {worlds : Nat → World σ}
  {fn : WorkflowFn σ} {evicted : Nat → Bool}

/-- Wherever a runner may be built, its world agrees with `world` beyond the record it is built
from. -/
def World.AgreeBeyond (world : World σ) (worlds : Nat → World σ) (batches : List History) : Prop :=
  ∀ n < batches.length, world.AgreesBeyond (scanAll (batches.take (n + 1)).flatten) (worlds n)

/-- The tasks of an execution whose runners live in worlds of their own are those of the execution
in one world, but for the worlds. -/
theorem Runner.serveAllIn_rewired {n : Nat} {past : History} {cached cached' : Option (Runner σ)}
    {hs : List History} (h : Option.Rel Rewired cached cached')
    (hu : UpdateFree (past ++ hs.flatten))
    (hw : ∀ i < hs.length, world.AgreesBeyond
      (scanAll (past ++ (hs.take (i + 1)).flatten)) (worlds (n + i))) :
    List.Forall₂ Rewired (Runner.serveAll fuel info world fn evicted n past cached hs)
      (Runner.serveAllIn fuel info fn worlds evicted n past cached' hs) := by
  induction hs generalizing n past cached cached' with
  | nil => exact .nil
  | cons batch hs ih =>
    rw [List.flatten_cons, ← List.append_assoc] at hu
    have hkept : Option.Rel Rewired (if evicted n then none else cached)
        (if evicted n then none else cached') := by
      split
      · exact .none
      · exact h
    have hfirst := hw 0 (Nat.zero_lt_succ _)
    rw [List.take_succ_cons, List.take_zero, List.flatten_singleton] at hfirst
    have hserve : Rewired
        (serve fuel info world fn (if evicted n then none else cached) past batch)
        (serve fuel info (worlds n) fn (if evicted n then none else cached') past batch) :=
      .serve hkept hu.left hfirst
    refine .cons hserve (ih (.some hserve) hu fun i hi => ?_)
    have hnext := hw (i + 1) (Nat.succ_lt_succ hi)
    rw [List.take_succ_cons, List.flatten_cons, ← List.append_assoc] at hnext
    rw [Nat.add_right_comm]
    exact hnext

/-- Whether the versions a body is asked for are known does not depend on its world. -/
theorem Runner.ThroughoutIn.dated_iff {n : Nat} {past : History}
    {cached cached' : Option (Runner σ)} {hs : List History} (h : Option.Rel Rewired cached cached')
    (hu : UpdateFree (past ++ hs.flatten))
    (hw : ∀ i < hs.length, world.AgreesBeyond
      (scanAll (past ++ (hs.take (i + 1)).flatten)) (worlds (n + i))) :
    Runner.ThroughoutIn fuel info fn Runner.Dated worlds evicted n past cached' hs ↔
      Runner.Throughout fuel info world fn Runner.Dated evicted n past cached hs := by
  induction hs generalizing n past cached cached' with
  | nil => exact .rfl
  | cons batch hs ih =>
    rw [List.flatten_cons, ← List.append_assoc] at hu
    have hkept : Option.Rel Rewired (if evicted n then none else cached)
        (if evicted n then none else cached') := by
      split
      · exact .none
      · exact h
    have hfirst := hw 0 (Nat.zero_lt_succ _)
    rw [List.take_succ_cons, List.take_zero, List.flatten_singleton] at hfirst
    have hat : Rewired
        (atTask info world fn (if evicted n then none else cached) past batch)
        (atTask info (worlds n) fn (if evicted n then none else cached') past batch) :=
      .atTask hkept hu.left hfirst
    refine and_congr ⟨fun hd q hq => ?_, fun hd q hq => ?_⟩
      (ih (.some (.serve hkept hu.left hfirst)) hu fun i hi => ?_)
    · obtain ⟨q', hq', hrew⟩ := hat.reaches hq
      exact hrew.dated_iff.mp (hd q' hq')
    · obtain ⟨r, hr, hrew⟩ := Rewired.lockstep.exists_reaches hat hq
      exact hrew.dated_iff.mpr (hd r hr)
    · have hnext := hw (i + 1) (Nat.succ_lt_succ hi)
      rw [List.take_succ_cons, List.flatten_cons, ← List.append_assoc] at hnext
      rw [Nat.add_right_comm]
      exact hnext

theorem forall₂_comp {α β γ : Type} {R : α → β → Prop} {S : β → γ → Prop} {T : α → γ → Prop}
    (hT : ∀ a b c, R a b → S b c → T a c) {as : List α} {bs : List β} {cs : List γ}
    (h : List.Forall₂ R as bs) (h' : List.Forall₂ S bs cs) : List.Forall₂ T as cs := by
  induction h generalizing cs with
  | nil =>
    cases h'
    exact .nil
  | cons hR _ ih =>
    cases h' with
    | cons hS htail => exact .cons (hT _ _ _ hR hS) (ih htail)

theorem exists_of_forall₂ {α β : Type} {R : α → β → Prop} {as : List α} {bs : List β}
    (h : List.Forall₂ R as bs) {i : Nat} {b : β} (hb : bs[i]? = some b) :
    ∃ a, as[i]? = some a ∧ R a b := by
  obtain ⟨hlen, hall⟩ := List.forall₂_iff_get.mp h
  obtain ⟨hi, rfl⟩ := List.getElem?_eq_some_iff.mp hb
  exact ⟨_, List.getElem?_eq_getElem (hlen ▸ hi), hall i (hlen ▸ hi) hi⟩

theorem SameAnswer.symm {r q : Runner σ} (h : SameAnswer r q) : SameAnswer q r :=
  ⟨h.commands.symm, h.terminalCommand.symm, h.trace.symm, h.store.symm, h.isDone.symm⟩

theorem SameAnswer.trans {r q p : Runner σ} (h : SameAnswer r q) (h' : SameAnswer q p) :
    SameAnswer r p where
  commands := h.commands.trans h'.commands
  terminalCommand := h.terminalCommand.trans h'.terminalCommand
  trace := h.trace.trans h'.trace
  store := h.store.trans h'.store
  isDone := h.isDone.trans h'.isDone

variable {batches : List History}

theorem World.AgreeBeyond.rewired (hw : world.AgreeBeyond worlds batches)
    (hu : UpdateFree batches.flatten) (fuel : Nat) (info : WorkflowInfo) (fn : WorkflowFn σ)
    (evicted : Nat → Bool) :
    List.Forall₂ Runner.Rewired (Runner.tasks fuel info world fn evicted batches)
      (Runner.tasksIn fuel info fn worlds evicted batches) := by
  refine Runner.serveAllIn_rewired .none hu fun i hi => ?_
  rw [List.nil_append, Nat.zero_add]
  exact hw i hi

theorem World.AgreeBeyond.dated_iff (hw : world.AgreeBeyond worlds batches)
    (hu : UpdateFree batches.flatten) :
    Runner.ThroughoutIn fuel info fn Runner.Dated worlds evicted 0 [] none batches ↔
      Runner.Throughout fuel info world fn Runner.Dated evicted 0 [] none batches := by
  refine Runner.ThroughoutIn.dated_iff .none hu fun i hi => ?_
  rw [List.nil_append, Nat.zero_add]
  exact hw i hi

theorem RecordedBy.of_rewired {rs qs : List (Runner σ)} (h : List.Forall₂ Runner.Rewired rs qs)
    (hq : RecordedBy qs batches) : RecordedBy rs batches where
  first := hq.first
  next i r h' hr hh' := by
    obtain ⟨hlen, hall⟩ := List.forall₂_iff_get.mp h
    obtain ⟨hi, rfl⟩ := List.getElem?_eq_some_iff.mp hr
    have hsame := (hall i hi (hlen ▸ hi)).sameAnswer
    obtain ⟨hterm, hcmds⟩ := hq.next i _ h' (List.getElem?_eq_getElem (hlen ▸ hi)) hh'
    exact ⟨hsame.terminalCommand.trans hterm, hcmds.trans (congrArg _ hsame.commands.symm)⟩

theorem Runner.live_of_rewired {rs qs : List (Runner σ)} (h : List.Forall₂ Runner.Rewired rs qs)
    (hq : ∀ q ∈ qs, q.deadlocked = false) : ∀ r ∈ rs, r.deadlocked = false := by
  induction h with
  | nil => exact fun r hr => absurd hr List.not_mem_nil
  | cons hrew _ ih =>
    obtain ⟨hfirst, hrest⟩ := List.forall_mem_cons.mp hq
    rw [hrew.same] at hfirst
    exact List.forall_mem_cons.mpr ⟨hfirst, ih hrest⟩

/-- What holds of the answers of an execution in one world holds of them in worlds that agree
beyond the record. -/
theorem World.AgreeBeyond.answers (hw : world.AgreeBeyond worlds batches)
    (hu : UpdateFree batches.flatten) {rs : List (Runner σ)}
    (h : List.Forall₂ SameAnswer rs (Runner.tasks fuel info world fn evicted batches) ∧
      ∀ i r, (Runner.tasks fuel info world fn evicted batches)[i]? = some r →
        (i = 0 ∨ evicted i = true) → r.checkDeterminism = none) :
    List.Forall₂ SameAnswer rs (Runner.tasksIn fuel info fn worlds evicted batches) ∧
      ∀ i r, (Runner.tasksIn fuel info fn worlds evicted batches)[i]? = some r →
        (i = 0 ∨ evicted i = true) → r.checkDeterminism = none := by
  have hrewired := hw.rewired hu fuel info fn evicted
  refine ⟨forall₂_comp (fun _ _ _ h h' => h.trans h'.sameAnswer) h.1 hrewired,
    fun i q hq hi => ?_⟩
  obtain ⟨r, hr, hrew⟩ := exists_of_forall₂ hrewired hq
  rw [hrew.checkDeterminism]
  exact h.2 i r hr hi

/-- Eviction is transparent to a body that only waits: however its history is cut into tasks and
whichever of them are served by the cached runner or a fresh one, each task is answered with the
same commands, the body has seen the same, and every replay passes the determinism check. What is
on record is not run again: each runner may be built in a world of its own, where side effects and
local activities come out as in `world` only as far as there is no marker of them yet. -/
theorem Runner.tasks_transparent (info : WorkflowInfo) (world : World σ) (fn : WorkflowFn σ)
    (hbody : ∀ input answers, ((Runner.chain world fn).body input answers).Waiting world)
    (hc : world.converter.RoundTrips) (batches : List History) (hserved : Served batches.flatten)
    (hu : UpdateFree batches.flatten)
    (hstart : ∀ h ∈ batches.tail, ∀ e ∈ h, e.attributes.isStarted = false)
    (fuel : Nat) (evicted : Nat → Bool) (worlds : Nat → World σ)
    (hworlds : world.AgreeBeyond worlds batches)
    (hrec : RecordedBy (Runner.tasksIn fuel info fn worlds evicted batches) batches)
    (hlive : ∀ r ∈ Runner.tasksIn fuel info fn worlds evicted batches, r.deadlocked = false)
    (evicted' : Nat → Bool) (worlds' : Nat → World σ)
    (hworlds' : world.AgreeBeyond worlds' batches) :
    ∃ enough, ∀ fuel' ≥ enough,
      List.Forall₂ SameAnswer (Runner.tasksIn fuel info fn worlds evicted batches)
        (Runner.tasksIn fuel' info fn worlds' evicted' batches) ∧
      ∀ i r, (Runner.tasksIn fuel' info fn worlds' evicted' batches)[i]? = some r →
        (i = 0 ∨ evicted' i = true) → r.checkDeterminism = none := by
  have hop : ∀ input answers, ((Runner.chain world fn).body input answers).Replayable world :=
    fun input answers => (hbody input answers).1
  have hlooks : Runner.Throughout fuel info world fn
      (fun q => (q.program q.trace).isObservation = false) evicted 0 [] none batches := by
    refine .of_body (fun q hq => ?_) hu (fun r hr => absurd hr (Option.not_mem_none r))
    rw [hq.program]
    exact (hbody q.input q.trace).2
  have hrepeats (n : Nat) (lost : Nat → Bool) :
      Runner.Throughout n info world fn Runner.Repeats lost 0 [] none batches :=
    .of_replayable hop hu
  -- what was recorded is recorded in one world, and what holds there holds in the worlds
  have hrewired := hworlds.rewired hu fuel info fn evicted
  obtain ⟨enough, henough⟩ := Runner.tasks_agree info world fn hc hserved hu hstart
    ((hrepeats fuel evicted).imp fun _ => Runner.Repeats.redoes)
    (.of_repeats (hrepeats fuel evicted)) (.of_waiting hlooks) (.of_rewired hrewired hrec)
    (live_of_rewired hrewired hlive) evicted'
  refine ⟨enough, fun fuel' hfuel => ?_⟩
  obtain ⟨hsame, hdet⟩ := hworlds'.answers hu
    (henough fuel' hfuel ((hrepeats fuel' evicted').imp fun _ => Runner.Repeats.dated))
  exact ⟨forall₂_comp (fun _ _ _ h h' => h.sameAnswer.symm.trans h') hrewired.flip hsame, hdet⟩

/-- The worlds in which nothing that is on record can be had again. -/
def World.spentAt (w : World σ) (batches : List History) (n : Nat) : World σ :=
  w.spent (scanAll (batches.take (n + 1)).flatten)

theorem World.agreeBeyond_spentAt (w : World σ) (batches : List History) :
    w.AgreeBeyond (w.spentAt batches) batches :=
  fun _ _ => w.agreesBeyond_spent _

end Running

section Dice

def dice (roll : Nat → Except String Value) : World Unit :=
  { World.plain .tagged with sideEffectFn := roll }

def rolled (ordinal : Nat) (v : Value) : EventAttributes :=
  .markerRecorded "SideEffect" (Runner.sideEffectDetails .tagged ordinal v)

def quote : ActivityFn
  | 1, _, _ => .applicationError "sold out" "SoldOut" true
  | _, _, _ => .returned [{ data := [7] }]

def sells (type : String) : Option ActivityFn := if type = "Quote" then some quote else none

def quoted (outcome : Except (String × String) Payloads) : EventAttributes :=
  .markerRecorded "LocalActivity" (Runner.localActivityDetails .tagged outcome)

/-- A body that rolls a die and rests, asks for a quote and rests again. -/
def rollThenQuote : WorkflowFn Unit where
  init := ()
  body _ answers :=
    match answers with
    | [] => .sideEffect
    | [_] => .startTimer 1000000000
    | [_, _] => .get 0
    | [_, _, _] => .executeLocalActivity "Quote" [] {}
    | [_, _, _, _] => .startTimer 2000000000
    | [_, _, _, _, _] => .get 1
    | _ => .finish (.returned [])

/-- Its history, cut into the three tasks that served it. -/
def rollThenQuoteTasks : List History :=
  [[⟨1, .workflowExecutionStarted "RollThenQuote" [] []⟩, ⟨2, .other⟩, ⟨3, .other⟩],
    [⟨4, .other⟩, ⟨5, rolled 0 (.int 6)⟩, ⟨6, .timerStarted "t0"⟩, ⟨7, .timerFired "t0"⟩,
      ⟨8, .other⟩, ⟨9, .other⟩],
    [⟨10, .other⟩, ⟨11, quoted (.ok [{ data := [7] }])⟩, ⟨12, .timerStarted "t1"⟩,
      ⟨13, .timerFired "t1"⟩, ⟨14, .other⟩, ⟨15, .other⟩]]

def rollThenQuoteWorld : World Unit :=
  { dice fun _ => .ok (.int 6) with localActivityResolver := some sells }

theorem rollThenQuote_waiting (input : Payloads) (answers : List (Resp Unit)) :
    ((Runner.chain rollThenQuoteWorld rollThenQuote).body input answers).Waiting
      rollThenQuoteWorld := by
  change (rollThenQuote.body input answers).Waiting _
  unfold rollThenQuote
  dsimp only
  split <;> first
    | exact ⟨trivial, rfl⟩
    | exact ⟨fun _ => ⟨_, rfl⟩, rfl⟩
    | exact ⟨⟨_, rfl⟩, rfl⟩

/-- The runner is lost before the second or before the third task, and built again where neither
the die nor the shop answers any more. -/
theorem rollThenQuote_transparent :
    ∃ enough, ∀ fuel ≥ enough,
      List.Forall₂ SameAnswer
        (Runner.tasksIn 10 {} rollThenQuote (rollThenQuoteWorld.spentAt rollThenQuoteTasks)
          (fun n => n == 1) rollThenQuoteTasks)
        (Runner.tasksIn fuel {} rollThenQuote (rollThenQuoteWorld.spentAt rollThenQuoteTasks)
          (fun n => n == 2) rollThenQuoteTasks) ∧
      ∀ i r, (Runner.tasksIn fuel {} rollThenQuote (rollThenQuoteWorld.spentAt rollThenQuoteTasks)
        (fun n => n == 2) rollThenQuoteTasks)[i]? = some r → (i = 0 ∨ (i == 2) = true) →
          r.checkDeterminism = none := by
  have hreports : (Runner.tasksIn 10 {} rollThenQuote
      (rollThenQuoteWorld.spentAt rollThenQuoteTasks) (fun n => n == 1)
      rollThenQuoteTasks).map Runner.report =
      [([rolled 0 (.int 6), .timerStarted "t0"], none, false),
        ([quoted (.ok [{ data := [7] }]), .timerStarted "t1"], none, false),
        ([], some (.completeWorkflowExecution []), false)] := by decide +kernel
  have hserved : Served rollThenQuoteTasks.flatten :=
    ⟨by decide +kernel, by decide +kernel, by decide +kernel, by decide +kernel⟩
  exact Runner.tasks_transparent {} rollThenQuoteWorld rollThenQuote rollThenQuote_waiting
    DataConverter.tagged_roundTrips rollThenQuoteTasks hserved (by decide +kernel)
    (by decide +kernel) 10 (fun n => n == 1) _ (rollThenQuoteWorld.agreeBeyond_spentAt _)
    (.of_reports hreports (by decide +kernel) (by decide +kernel))
    (Runner.live_of_reports hreports (by decide +kernel)) (fun n => n == 2) _
    (rollThenQuoteWorld.agreeBeyond_spentAt _)

end Dice

end TemporalSdk
