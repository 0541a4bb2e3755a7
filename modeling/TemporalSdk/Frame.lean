import TemporalSdk.Execution

/-! What an operation leaves alone. Commands are only ever appended, and the scan, the
identity of the run and the state of its coroutine belong to the engine. -/
namespace TemporalSdk

/-- The calls that start an operation or make one ready. -/
def Op.touchesFutures {σ : Type} : Op σ → Bool
  | .scheduleActivity .. | .startTimer _ | .startChildWorkflow .. | .scheduleNexusOperation ..
  | .awaitCancellation | .cancel _ => true
  | _ => false

namespace Runner

variable {σ : Type}

/-- `r'` comes from `r` by operations of the context. -/
structure Frame (r r' : Runner σ) : Prop where
  info : r'.info = r.info
  isReplaying : r'.isReplaying = r.isReplaying
  scan : r'.scan = r.scan
  world : r'.world = r.world
  workflowFn : r'.workflowFn = r.workflowFn
  input : r'.input = r.input
  trace : r'.trace = r.trace
  started : r'.started = r.started
  done : r'.done = r.done
  deadlocked : r'.deadlocked = r.deadlocked
  hung : r'.hung = r.hung
  escaped : r'.escaped = r.escaped
  status : r'.status = r.status
  result : r'.result = r.result
  failure : r'.failure = r.failure
  continueAsNew : r'.continueAsNew = r.continueAsNew
  commands : r.commands <+: r'.commands
  producedCommands : r.producedCommands <+: r'.producedCommands

namespace Frame

variable {r r' r'' : Runner σ}

theorem rfl (r : Runner σ) : Frame r r :=
  ⟨.refl _, .refl _, .refl _, .refl _, .refl _, .refl _, .refl _, .refl _, .refl _, .refl _,
    .refl _, .refl _, .refl _, .refl _, .refl _, .refl _, List.prefix_rfl, List.prefix_rfl⟩

theorem trans (h : Frame r r') (h' : Frame r' r'') : Frame r r'' where
  info := h'.info.trans h.info
  isReplaying := h'.isReplaying.trans h.isReplaying
  scan := h'.scan.trans h.scan
  world := h'.world.trans h.world
  workflowFn := h'.workflowFn.trans h.workflowFn
  input := h'.input.trans h.input
  trace := h'.trace.trans h.trace
  started := h'.started.trans h.started
  done := h'.done.trans h.done
  deadlocked := h'.deadlocked.trans h.deadlocked
  hung := h'.hung.trans h.hung
  escaped := h'.escaped.trans h.escaped
  status := h'.status.trans h.status
  result := h'.result.trans h.result
  failure := h'.failure.trans h.failure
  continueAsNew := h'.continueAsNew.trans h.continueAsNew
  commands := h.commands.trans h'.commands
  producedCommands := h.producedCommands.trans h'.producedCommands

end Frame

theorem emit_frame (r : Runner σ) (c : Command) : Frame r (r.emit c) :=
  { Frame.rfl r with commands := List.prefix_append .. }

theorem produce_frame (r : Runner σ) (kind : CommandKind) (id name : String) :
    Frame r (r.produce kind id name) :=
  { Frame.rfl r with producedCommands := List.prefix_append .. }

theorem allocate_frame (r : Runner σ) (f : FutureState) : Frame r (r.allocate f) :=
  { Frame.rfl r with }

theorem setFuture_frame (r : Runner σ) (a : Nat) (f : FutureState) : Frame r (r.setFuture a f) :=
  { Frame.rfl r with }

theorem openOperation_frame (r : Runner σ) (op : FutureOp) (id : String)
    (outcome : Option OpOutcome) (c : Command) : Frame r (r.openOperation op id outcome c) := by
  unfold openOperation
  split
  · exact r.allocate_frame _
  · exact (r.emit_frame c).trans (allocate_frame _ _)

section Operations

variable (r : Runner σ)

theorem scheduleActivity_frame (type : String) (input : Payloads) (options : ActivityOptions) :
    Frame r (r.scheduleActivity type input options) := by
  have h : Frame r ({ r with activitySeq := r.activitySeq + 1 }.produce .activity
      (toString r.activitySeq) type) := { produce_frame _ _ _ _ with }
  exact { h.trans (openOperation_frame _ .activity _ _ _) with }

theorem startTimer_frame (duration : Int) : Frame r (r.startTimer duration) := by
  have h : Frame r ({ r with timerSeq := r.timerSeq + 1 }.produce .timer
      ("t" ++ toString r.timerSeq) "") := { produce_frame _ _ _ _ with }
  unfold startTimer
  dsimp only
  split
  · exact { h with }
  · exact { h.trans (emit_frame _ (.startTimer _ (toProtoDuration duration))) with }

theorem startChildWorkflow_frame (type : String) (input : Payloads)
    (options : ChildWorkflowOptions) : Frame r (r.startChildWorkflow type input options) := by
  have h : Frame r ({ r with childSeq := r.childSeq + 1 }.produce .childWorkflow
      (r.childId options) type) := { produce_frame _ _ _ _ with }
  exact { h.trans (openOperation_frame _ .childWorkflow _ _ _) with }

theorem scheduleNexusOperation_frame (endpoint service operation : String) (input : Payload)
    (close : Int) : Frame r (r.scheduleNexusOperation endpoint service operation input close) := by
  have h : Frame r ({ r with nexusSeq := r.nexusSeq + 1 }.produce .nexusOperation
      (toString r.nexusSeq) "") := { produce_frame _ _ _ _ with }
  exact { h.trans (openOperation_frame _ .nexusOperation _ _ _) with }

theorem requestCancelExternal_frame (id : String) (childOnly : Bool) :
    Frame r (r.requestCancelExternal id childOnly) := by
  have h := r.produce_frame .requestCancelExternalWorkflow id ""
  unfold requestCancelExternal
  dsimp only
  split
  · exact h
  · exact h.trans (emit_frame _ _)

theorem cancel_frame (addr : Nat) : Frame r (r.cancel addr) := by
  unfold cancel
  dsimp only
  split
  · exact Frame.rfl r
  · split
    · have h := r.produce_frame .cancelTimer (r.futures addr).opId ""
      split
      · exact h.trans (setFuture_frame _ _ _)
      · exact (h.trans (emit_frame _ _)).trans (setFuture_frame _ _ _)
    · split
      · exact Frame.rfl r
      · next sid _ =>
        have h := r.produce_frame .requestCancelActivity (toString sid) ""
        split
        · exact h
        · exact h.trans (emit_frame _ _)
    · exact r.requestCancelExternal_frame _ _
    · exact Frame.rfl r
    · exact Frame.rfl r

theorem signalExternalWorkflow_frame (id name : String) (input : Payloads) :
    Frame r (r.signalExternalWorkflow id name input) := by
  have h : Frame r ({ r with extSignalSeq := r.extSignalSeq + 1 }.produce .signalExternalWorkflow
      id "") := { produce_frame _ _ _ _ with }
  unfold signalExternalWorkflow
  dsimp only
  split
  · exact h.trans (emit_frame _ _)
  · exact h

theorem upsertSearchAttributes_frame (attributes : List (String × Payload)) :
    Frame r (r.upsertSearchAttributes attributes) := by
  have h : Frame r ({ r with upsertSeq := r.upsertSeq + 1 }.produce .upsertSearchAttributes
      "" "") := { produce_frame _ _ _ _ with }
  unfold upsertSearchAttributes
  dsimp only
  split
  · exact h.trans (emit_frame _ _)
  · exact h

theorem sideEffect_frame : Frame r r.sideEffect.1 := by
  have h : Frame r ({ r with sideEffectSeq := r.sideEffectSeq + 1 }.produce .marker
      "SideEffect" "") := { produce_frame _ _ _ _ with }
  unfold sideEffect
  dsimp only
  split
  · split <;> exact h
  · split
    · exact h
    · exact h.trans (emit_frame _ _)

theorem getVersion_frame (changeId : String) (lo hi : Int) :
    Frame r (r.getVersion changeId lo hi).1 := by
  have h := r.produce_frame .marker "Version" ""
  unfold getVersion
  split
  · dsimp only
    split <;> exact h
  · split
    · exact { Frame.rfl r with }
    · exact { h.trans (emit_frame _ _) with }

theorem mutableSideEffect_frame (id : String) (equals : Value → Value → Bool) :
    Frame r (r.mutableSideEffect id equals).1 := by
  have h := r.produce_frame .marker "MutableSideEffect" ""
  unfold mutableSideEffect
  dsimp only
  repeat' split
  all_goals first
    | exact { Frame.rfl r with }
    | exact { h with }
    | exact { h.trans (emit_frame _ _) with }

theorem executeLocalActivity_frame (type : String) (input : Payloads)
    (options : LocalActivityOptions) : Frame r (r.executeLocalActivity type input options).1 := by
  have h : Frame r ({ r with localActivitySeq := r.localActivitySeq + 1 }.produce .marker
      "LocalActivity" "") := { produce_frame _ _ _ _ with }
  unfold executeLocalActivity
  dsimp only
  split
  · split <;> exact h
  · split
    · exact h
    · split
      · exact h
      · exact h.trans (emit_frame _ _)

theorem tryConsumeSignal_frame {name : String} {r' : Runner σ} {p : Payloads}
    (h : r.tryConsumeSignal name = some (r', p)) : Frame r r' := by
  unfold tryConsumeSignal at h
  split at h
  · cases h
  · dsimp only at h
    split at h
    · cases h
    · cases h
      exact { Frame.rfl r with }

theorem awaitCancellation_frame : Frame r r.awaitCancellation := by
  unfold awaitCancellation
  split
  · exact r.allocate_frame _
  · exact { Frame.rfl r with }

/-- Every operation keeps the frame. -/
theorem exec_frame {op : Op σ} {r' : Runner σ} {resp : Resp σ}
    (h : r.exec op = some (r', resp)) : Frame r r' := by
  cases op with
  | scheduleActivity type input options => cases h; exact r.scheduleActivity_frame ..
  | startTimer duration => cases h; exact r.startTimer_frame _
  | startChildWorkflow type input options => cases h; exact r.startChildWorkflow_frame ..
  | scheduleNexusOperation e s o i close => cases h; exact r.scheduleNexusOperation_frame ..
  | cancel addr => cases h; exact r.cancel_frame _
  | cancelExternalWorkflow id => cases h; exact r.requestCancelExternal_frame _ _
  | signalExternalWorkflow id name input => cases h; exact r.signalExternalWorkflow_frame ..
  | upsertSearchAttributes attributes => cases h; exact r.upsertSearchAttributes_frame _
  | get addr =>
    simp only [exec, Option.ite_none_right_eq_some, Option.some.injEq, Prod.mk.injEq] at h
    exact h.2.1 ▸ Frame.rfl r
  | receive name =>
    obtain ⟨x, hx, he⟩ := Option.map_eq_some_iff.mp h
    cases he
    exact r.tryConsumeSignal_frame hx
  | receiveAsync name =>
    simp only [exec] at h
    split at h
    · next hc => cases h; exact r.tryConsumeSignal_frame hc
    · cases h; exact Frame.rfl r
  | select cases hasDefault =>
    simp only [exec] at h
    split at h
    · cases h; exact Frame.rfl r
    · split at h
      · cases h; exact Frame.rfl r
      · cases h
  | awaitCancellation => cases h; exact r.awaitCancellation_frame
  | sideEffect =>
    have := r.sideEffect_frame
    rw [Option.some.inj h] at this
    exact this
  | mutableSideEffect id equals =>
    have := r.mutableSideEffect_frame id equals
    rw [Option.some.inj h] at this
    exact this
  | getVersion changeId lo hi =>
    have := r.getVersion_frame changeId lo hi
    rw [Option.some.inj h] at this
    exact this
  | executeLocalActivity type input options =>
    have := r.executeLocalActivity_frame type input options
    rw [Option.some.inj h] at this
    exact this
  | finish outcome => cases h
  | _ => cases h; exact { Frame.rfl r with }

end Operations

section Remembered

/-- What a runner remembers of versions and mutable side effects. -/
structure Memory where
  changeVersions : PartialMap String Int
  mseRecorded : PartialMap String (List (Int × Payload))
  mseCallCount : PartialMap String Nat
  mseCursor : PartialMap String Nat
  mseCurrent : PartialMap String Payload

def memory (r : Runner σ) : Memory :=
  ⟨r.changeVersions, r.mseRecorded, r.mseCallCount, r.mseCursor, r.mseCurrent⟩

variable (r : Runner σ)

theorem openOperation_memory (op : FutureOp) (id : String) (outcome : Option OpOutcome)
    (c : Command) : (r.openOperation op id outcome c).memory = r.memory := by
  unfold openOperation
  split <;> rfl

theorem cancel_memory (addr : Nat) : (r.cancel addr).memory = r.memory := by
  unfold cancel requestCancelExternal
  dsimp only
  repeat' split
  all_goals rfl

theorem tryConsumeSignal_memory {name : String} {r' : Runner σ} {p : Payloads}
    (h : r.tryConsumeSignal name = some (r', p)) : r'.memory = r.memory := by
  simp only [tryConsumeSignal] at h
  repeat' split at h
  all_goals cases h
  rfl

/-- Only `GetVersion` and `MutableSideEffect` write what is remembered. -/
theorem exec_memory {op : Op σ} (hv : ∀ id lo hi, op ≠ .getVersion id lo hi)
    (hm : ∀ id equals, op ≠ .mutableSideEffect id equals) {r' : Runner σ} {resp : Resp σ}
    (h : r.exec op = some (r', resp)) : r'.memory = r.memory := by
  cases op with
  | scheduleActivity type input options => cases h; exact openOperation_memory _ ..
  | startTimer duration =>
    cases h
    unfold startTimer
    dsimp only
    split <;> rfl
  | startChildWorkflow type input options => cases h; exact openOperation_memory _ ..
  | scheduleNexusOperation e s o i close => cases h; exact openOperation_memory _ ..
  | cancel addr => cases h; exact r.cancel_memory addr
  | cancelExternalWorkflow id =>
    cases h
    unfold cancelExternalWorkflow requestCancelExternal
    dsimp only
    split <;> rfl
  | signalExternalWorkflow id name input =>
    cases h
    unfold signalExternalWorkflow
    dsimp only
    split <;> rfl
  | upsertSearchAttributes attributes =>
    cases h
    unfold upsertSearchAttributes
    dsimp only
    split <;> rfl
  | get addr =>
    simp only [exec, Option.ite_none_right_eq_some, Option.some.injEq, Prod.mk.injEq] at h
    rw [← h.2.1]
  | receive name =>
    obtain ⟨⟨q, p⟩, hx, he⟩ := Option.map_eq_some_iff.mp h
    cases he
    exact r.tryConsumeSignal_memory hx
  | receiveAsync name =>
    simp only [exec] at h
    split at h
    · next hc => cases h; exact r.tryConsumeSignal_memory hc
    · cases h; rfl
  | select cases hasDefault =>
    simp only [exec] at h
    repeat' split at h
    all_goals cases h
    all_goals rfl
  | awaitCancellation =>
    cases h
    unfold awaitCancellation
    split <;> rfl
  | sideEffect =>
    simp only [exec, sideEffect, Option.some.injEq] at h
    repeat' split at h
    all_goals cases h
    all_goals rfl
  | executeLocalActivity type input options =>
    simp only [exec, executeLocalActivity, Option.some.injEq] at h
    repeat' split at h
    all_goals cases h
    all_goals rfl
  | getVersion id lo hi => exact absurd rfl (hv id lo hi)
  | mutableSideEffect id equals => exact absurd rfl (hm id equals)
  | finish outcome => cases h
  | _ => cases h; rfl

/-- Only `GetVersion` writes the versions. -/
theorem exec_changeVersions {op : Op σ} (hv : ∀ id lo hi, op ≠ .getVersion id lo hi)
    {r' : Runner σ} {resp : Resp σ} (h : r.exec op = some (r', resp)) :
    r'.changeVersions = r.changeVersions := by
  by_cases hm : ∃ id equals, op = .mutableSideEffect id equals
  · obtain ⟨id, equals, rfl⟩ := hm
    simp only [exec, mutableSideEffect, Option.some.injEq] at h
    repeat' split at h
    all_goals cases h
    all_goals rfl
  · have hmem := r.exec_memory hv (fun id equals ho => hm ⟨id, equals, ho⟩) h
    exact congrArg Memory.changeVersions hmem

end Remembered

section Started

/-- The operations a runner has started, with their futures. -/
structure Operations where
  futures : Nat → FutureState
  futureCount : Nat
  activityFutures : PartialMap String Nat
  timerFutures : PartialMap String Nat
  childFutures : PartialMap String Nat
  nexusFutures : PartialMap String Nat
  cancelFutures : List Nat
  activitySeq : Nat
  timerSeq : Nat
  nexusSeq : Nat

def operations (r : Runner σ) : Operations :=
  ⟨r.futures, r.futureCount, r.activityFutures, r.timerFutures, r.childFutures, r.nexusFutures,
    r.cancelFutures, r.activitySeq, r.timerSeq, r.nexusSeq⟩

variable (r : Runner σ)

theorem requestCancelExternal_operations (id : String) (childOnly : Bool) :
    (r.requestCancelExternal id childOnly).operations = r.operations := by
  unfold requestCancelExternal
  dsimp only
  split <;> rfl

theorem tryConsumeSignal_operations {name : String} {r' : Runner σ} {p : Payloads}
    (h : r.tryConsumeSignal name = some (r', p)) : r'.operations = r.operations := by
  simp only [tryConsumeSignal] at h
  repeat' split at h
  all_goals cases h
  rfl

theorem mutableSideEffect_operations (id : String) (equals : Value → Value → Bool) :
    (r.mutableSideEffect id equals).1.operations = r.operations := by
  unfold mutableSideEffect
  dsimp only
  repeat' split
  all_goals rfl

theorem exec_operations {op : Op σ} (ho : op.touchesFutures = false) {r' : Runner σ}
    {resp : Resp σ} (h : r.exec op = some (r', resp)) : r'.operations = r.operations := by
  cases op with
  | scheduleActivity type input options => cases ho
  | startTimer duration => cases ho
  | startChildWorkflow type input options => cases ho
  | scheduleNexusOperation e s o i close => cases ho
  | awaitCancellation => cases ho
  | cancel addr => cases ho
  | cancelExternalWorkflow id => cases h; exact r.requestCancelExternal_operations id false
  | signalExternalWorkflow id name input =>
    cases h
    unfold signalExternalWorkflow
    dsimp only
    split <;> rfl
  | upsertSearchAttributes attributes =>
    cases h
    unfold upsertSearchAttributes
    dsimp only
    split <;> rfl
  | get addr =>
    simp only [exec, Option.ite_none_right_eq_some, Option.some.injEq, Prod.mk.injEq] at h
    rw [← h.2.1]
  | receive name =>
    obtain ⟨⟨q, p⟩, hx, he⟩ := Option.map_eq_some_iff.mp h
    cases he
    exact r.tryConsumeSignal_operations hx
  | receiveAsync name =>
    simp only [exec] at h
    split at h
    · next hc => cases h; exact r.tryConsumeSignal_operations hc
    · cases h; rfl
  | select cases hasDefault =>
    simp only [exec] at h
    repeat' split at h
    all_goals cases h
    all_goals rfl
  | sideEffect =>
    simp only [exec, sideEffect, Option.some.injEq] at h
    repeat' split at h
    all_goals cases h
    all_goals rfl
  | executeLocalActivity type input options =>
    simp only [exec, executeLocalActivity, Option.some.injEq] at h
    repeat' split at h
    all_goals cases h
    all_goals rfl
  | getVersion id lo hi =>
    simp only [exec, getVersion, Option.some.injEq] at h
    repeat' split at h
    all_goals cases h
    all_goals rfl
  | mutableSideEffect id equals =>
    have hops := r.mutableSideEffect_operations id equals
    rw [Option.some.inj h] at hops
    exact hops
  | finish outcome => cases h
  | _ => cases h; rfl

end Started

/-- A handler keeps the frame of the runner it shares. -/
theorem runHandler_frame {handler : Program σ} {fuel : Nat} {r r' : Runner σ}
    {answers : List (Resp σ)} {o : Outcome}
    (h : runHandler handler fuel r answers = some (r', o)) : Frame r r' := by
  induction fuel generalizing r answers with
  | zero => cases h
  | succ fuel ih =>
    unfold runHandler at h
    split at h
    · cases h
      exact Frame.rfl _
    · split at h
      · next hx => exact (exec_frame _ hx).trans (ih h)
      · cases h

section Events

variable (r : Runner σ)

theorem resolveFuture_touches (addr : Option Nat) (f : FutureState → FutureState) :
    ∃ futures, r.resolveFuture addr f = { r with futures := futures } := by
  cases addr <;> exact ⟨_, rfl⟩

theorem foldl_setFuture_touches (as : List Nat) :
    ∃ futures, as.foldl (fun r a => r.setFuture a { r.futures a with ready := true }) r =
      { r with futures := futures } := by
  induction as generalizing r with
  | nil => exact ⟨_, rfl⟩
  | cons a as ih =>
    obtain ⟨futures, h⟩ := ih (r.setFuture a { r.futures a with ready := true })
    exact ⟨futures, h⟩

/-- An event reaches the scan and the futures, and nothing else. -/
theorem applyEventToState_touches (ev : HistoryEvent) :
    ∃ scan futures, r.applyEventToState ev = { r with scan := scan, futures := futures } := by
  have hresolve (addr : Option Nat) (f : FutureState → FutureState) :
      ∃ scan futures, r.resolveFuture addr f = { r with scan := scan, futures := futures } := by
    obtain ⟨futures, h⟩ := r.resolveFuture_touches addr f
    exact ⟨r.scan, futures, h⟩
  obtain ⟨eid, a⟩ := ev
  cases a with
  | workflowExecutionCancelRequested =>
    obtain ⟨futures, h⟩ := foldl_setFuture_touches
      { r with scan := { r.scan with cancelRequested := true } } r.cancelFutures
    exact ⟨_, futures, h⟩
  | timerFired id => exact hresolve (r.timerFutures id) fun f => { f with ready := true }
  | timerCanceled id =>
    exact hresolve (r.timerFutures id) fun f => { f with ready := true, cancelled := true }
  | _ => first
    | exact ⟨_, _, rfl⟩
    | exact hresolve _ _

end Events

section Resuming

theorem finishBody_scan (r : Runner σ) (o : Outcome) : (r.finishBody o).scan = r.scan := by
  cases o <;> rfl

/-- One step of a body is one operation and its answer, or the end. -/
theorem step_cases {r r' : Runner σ} (h : r.step = some r') :
    (∃ o, r' = r.finishBody o) ∨
      ∃ q resp, r.exec (r.program r.trace) = some (q, resp) ∧
        r' = { q with trace := r.trace ++ [resp] } := by
  unfold step at h
  split at h
  · cases h
  · split at h
    · next o _ => exact .inl ⟨o, (Option.some.inj h).symm⟩
    · obtain ⟨⟨q, resp⟩, hx, rfl⟩ := Option.map_eq_some_iff.mp h
      exact .inr ⟨q, resp, hx, rfl⟩

theorem step_scan {r r' : Runner σ} (h : r.step = some r') : r'.scan = r.scan := by
  rcases step_cases h with ⟨o, rfl⟩ | ⟨q, resp, hx, rfl⟩
  · exact r.finishBody_scan o
  · exact (r.exec_frame hx).scan

theorem runFor_scan {fuel : Nat} {r r' : Runner σ} (h : Parking.runFor step fuel r = some r') :
    r'.scan = r.scan := by
  refine Parking.runFor_preserves (P := fun q => q.scan = r.scan) (fun c d hs hc => ?_) h rfl
  exact (step_scan hs).trans hc

theorem resumeCoroutine_scan (fuel : Nat) (r : Runner σ) :
    (r.resumeCoroutine fuel).scan = r.scan := by
  unfold resumeCoroutine
  split
  · next h => exact runFor_scan h
  · rfl

end Resuming

end Runner
end TemporalSdk
