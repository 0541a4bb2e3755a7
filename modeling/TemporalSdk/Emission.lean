import TemporalSdk.Frame

/-! What an operation adds: at most one command and at most one entry for the determinism check,
both of its own kind, and one to its own counter. -/
namespace TemporalSdk

/-- The call of the context a command comes from. -/
inductive CallKind where
  | activity | timer | child | nexus | cancel | cancelExternal | signalExternal | upsert
  | marker (name : String) | ending
  deriving DecidableEq, Repr

def Command.call : Command → CallKind
  | .scheduleActivityTask _ => .activity
  | .requestCancelActivityTask _ | .cancelTimer _ => .cancel
  | .startTimer .. => .timer
  | .startChildWorkflowExecution .. => .child
  | .requestCancelExternalWorkflowExecution _ _ childWorkflowOnly =>
    if childWorkflowOnly then .cancel else .cancelExternal
  | .signalExternalWorkflowExecution .. => .signalExternal
  | .upsertWorkflowSearchAttributes _ => .upsert
  | .scheduleNexusOperation .. => .nexus
  | .recordMarker name _ => .marker name
  | .completeWorkflowExecution _ | .failWorkflowExecution _
  | .continueAsNewWorkflowExecution .. => .ending

def Op.call? {σ : Type} : Op σ → Option CallKind
  | .scheduleActivity .. => some .activity
  | .startTimer _ => some .timer
  | .startChildWorkflow .. => some .child
  | .scheduleNexusOperation .. => some .nexus
  | .cancel _ => some .cancel
  | .cancelExternalWorkflow _ => some .cancelExternal
  | .signalExternalWorkflow .. => some .signalExternal
  | .upsertSearchAttributes _ => some .upsert
  | .sideEffect => some (.marker "SideEffect")
  | .mutableSideEffect .. => some (.marker "MutableSideEffect")
  | .getVersion .. => some (.marker "Version")
  | .executeLocalActivity .. => some (.marker "LocalActivity")
  | _ => none

namespace Runner

variable {σ : Type}

/-- What `op` has added to `r`. -/
structure Emission (op : Op σ) (r r' : Runner σ) : Prop where
  commands : r'.commands = r.commands ∨
    ∃ c, op.call? = some c.call ∧ r'.commands = r.commands ++ [c]
  entries : r'.producedCommands = r.producedCommands ∨
    ∃ e : CommandEvent, (e.kind = .marker → op.call? = some (.marker e.id)) ∧
      r'.producedCommands = r.producedCommands ++ [e]
  sideEffectSeq : r'.sideEffectSeq = r.sideEffectSeq ∨
    op.call? = some (.marker "SideEffect") ∧ r'.sideEffectSeq = r.sideEffectSeq + 1
  localActivitySeq : r'.localActivitySeq = r.localActivitySeq ∨
    op.call? = some (.marker "LocalActivity") ∧ r'.localActivitySeq = r.localActivitySeq + 1

theorem Emission.nothing {op : Op σ} {r r' : Runner σ} (hc : r'.commands = r.commands)
    (he : r'.producedCommands = r.producedCommands) (hs : r'.sideEffectSeq = r.sideEffectSeq)
    (hl : r'.localActivitySeq = r.localActivitySeq) : Emission op r r' :=
  ⟨.inl hc, .inl he, .inl hs, .inl hl⟩

/-- An operation with an entry of its own, and the command unless it is on record. -/
theorem Emission.entered {op : Op σ} {r r' : Runner σ} (e : CommandEvent)
    (he : r'.producedCommands = r.producedCommands ++ [e])
    (hm : e.kind = .marker → op.call? = some (.marker e.id))
    (hc : r'.commands = r.commands ∨
      ∃ c, op.call? = some c.call ∧ r'.commands = r.commands ++ [c])
    (hs : r'.sideEffectSeq = r.sideEffectSeq) (hl : r'.localActivitySeq = r.localActivitySeq) :
    Emission op r r' :=
  ⟨hc, .inr ⟨e, hm, he⟩, .inl hs, .inl hl⟩

section Operations

variable (r : Runner σ)

theorem openOperation_emits (op : FutureOp) (id : String) (outcome : Option OpOutcome)
    (c : Command) :
    (r.openOperation op id outcome c).producedCommands = r.producedCommands ∧
      (r.openOperation op id outcome c).sideEffectSeq = r.sideEffectSeq ∧
      (r.openOperation op id outcome c).localActivitySeq = r.localActivitySeq ∧
      ((r.openOperation op id outcome c).commands = r.commands ∨
        (r.openOperation op id outcome c).commands = r.commands ++ [c]) := by
  unfold openOperation
  split
  · exact ⟨rfl, rfl, rfl, .inl rfl⟩
  · exact ⟨rfl, rfl, rfl, .inr rfl⟩

theorem requestCancelExternal_emission {op : Op σ} (id : String) (childOnly : Bool)
    (hop : op.call? = some (if childOnly then .cancel else .cancelExternal)) :
    Emission op r (r.requestCancelExternal id childOnly) := by
  refine .entered ⟨.requestCancelExternalWorkflow, id, ""⟩ ?_ nofun ?_ ?_ ?_ <;>
    unfold requestCancelExternal <;> dsimp only <;> split <;> first
    | rfl
    | exact .inl rfl
    | exact .inr ⟨.requestCancelExternalWorkflowExecution r.info.ns id childOnly, hop, rfl⟩

theorem cancel_emission (addr : Nat) : Emission (.cancel addr) r (r.cancel addr) := by
  unfold cancel
  dsimp only
  split
  · exact .nothing rfl rfl rfl rfl
  · split
    · refine .entered ⟨.cancelTimer, (r.futures addr).opId, ""⟩ ?_ nofun ?_ ?_ ?_ <;>
        split <;> first
        | rfl
        | exact .inl rfl
        | exact .inr ⟨_, rfl, rfl⟩
    · split
      · exact .nothing rfl rfl rfl rfl
      · next sid _ =>
        refine .entered ⟨.requestCancelActivity, toString sid, ""⟩ ?_ nofun ?_ ?_ ?_ <;>
          split <;> first
          | rfl
          | exact .inl rfl
          | exact .inr ⟨_, rfl, rfl⟩
    · exact r.requestCancelExternal_emission _ true rfl
    · exact .nothing rfl rfl rfl rfl
    · exact .nothing rfl rfl rfl rfl

theorem tryConsumeSignal_emission {op : Op σ} {name : String} {r' : Runner σ} {p : Payloads}
    (h : r.tryConsumeSignal name = some (r', p)) : Emission op r r' := by
  simp only [tryConsumeSignal] at h
  repeat' split at h
  all_goals cases h
  exact .nothing rfl rfl rfl rfl

theorem sideEffect_emission : Emission .sideEffect r r.sideEffect.1 := by
  refine ⟨?_, .inr ⟨⟨.marker, "SideEffect", ""⟩, fun _ => rfl, ?_⟩, .inr ⟨rfl, ?_⟩, .inl ?_⟩ <;>
    unfold sideEffect <;> dsimp only <;> repeat' split
  all_goals first
    | rfl
    | exact .inl rfl
    | exact .inr ⟨_, rfl, rfl⟩

theorem executeLocalActivity_emission (type : String) (input : Payloads)
    (options : LocalActivityOptions) :
    Emission (.executeLocalActivity type input options) r
      (r.executeLocalActivity type input options).1 := by
  refine ⟨?_, .inr ⟨⟨.marker, "LocalActivity", ""⟩, fun _ => rfl, ?_⟩, .inl ?_, .inr ⟨rfl, ?_⟩⟩ <;>
    unfold executeLocalActivity <;> dsimp only <;> repeat' split
  all_goals first
    | rfl
    | exact .inl rfl
    | exact .inr ⟨_, rfl, rfl⟩

theorem getVersion_emission (changeId : String) (lo hi : Int) :
    Emission (.getVersion changeId lo hi) r (r.getVersion changeId lo hi).1 := by
  refine ⟨?_, ?_, .inl ?_, .inl ?_⟩ <;> unfold getVersion <;> dsimp only <;> repeat' split
  all_goals first
    | rfl
    | exact .inl rfl
    | exact .inr ⟨_, rfl, rfl⟩
    | exact .inr ⟨⟨.marker, "Version", ""⟩, fun _ => rfl, rfl⟩

theorem mutableSideEffect_emission (id : String) (equals : Value → Value → Bool) :
    Emission (.mutableSideEffect id equals) r (r.mutableSideEffect id equals).1 := by
  refine ⟨?_, ?_, .inl ?_, .inl ?_⟩ <;> unfold mutableSideEffect <;> dsimp only <;> repeat' split
  all_goals first
    | rfl
    | exact .inl rfl
    | exact .inr ⟨_, rfl, rfl⟩
    | exact .inr ⟨⟨.marker, "MutableSideEffect", ""⟩, fun _ => rfl, rfl⟩

/-- Every operation adds what its call stands for, and nothing else. -/
theorem exec_emission {op : Op σ} {r' : Runner σ} {resp : Resp σ}
    (h : r.exec op = some (r', resp)) : Emission op r r' := by
  cases op with
  | scheduleActivity type input options =>
    cases h
    obtain ⟨he, hs, hl, hc⟩ := openOperation_emits
      ({ r with activitySeq := r.activitySeq + 1 }.produce .activity (toString r.activitySeq) type)
      .activity (toString r.activitySeq) (r.scan.activities (toString r.activitySeq))
      (r.scheduleActivityCommand (toString r.activitySeq) type input options)
    exact .entered ⟨.activity, toString r.activitySeq, type⟩ he nofun
      (hc.imp_right fun hc => ⟨_, rfl, hc⟩) hs hl
  | startTimer duration =>
    cases h
    refine .entered ⟨.timer, "t" ++ toString r.timerSeq, ""⟩ ?_ nofun ?_ ?_ ?_ <;>
      unfold startTimer <;> dsimp only <;> split <;> first
      | rfl
      | exact .inl rfl
      | exact .inr ⟨_, rfl, rfl⟩
  | startChildWorkflow type input options =>
    cases h
    obtain ⟨he, hs, hl, hc⟩ := openOperation_emits
      ({ r with childSeq := r.childSeq + 1 }.produce .childWorkflow (r.childId options) type)
      .childWorkflow (r.childId options) (r.scan.children (r.childId options))
      (.startChildWorkflowExecution r.info.ns (r.childId options) type
        (r.queueOr options.taskQueue) input options.parentClosePolicy)
    exact .entered ⟨.childWorkflow, r.childId options, type⟩ he nofun
      (hc.imp_right fun hc => ⟨_, rfl, hc⟩) hs hl
  | scheduleNexusOperation endpoint service operation input close =>
    cases h
    obtain ⟨he, hs, hl, hc⟩ := openOperation_emits
      ({ r with nexusSeq := r.nexusSeq + 1 }.produce .nexusOperation (toString r.nexusSeq) "")
      .nexusOperation (toString r.nexusSeq) (r.scan.nexusOps (toString r.nexusSeq))
      (.scheduleNexusOperation endpoint service operation input
        (if 0 < close then some (toProtoDuration close) else none))
    exact .entered ⟨.nexusOperation, toString r.nexusSeq, ""⟩ he nofun
      (hc.imp_right fun hc => ⟨_, rfl, hc⟩) hs hl
  | cancel addr => cases h; exact r.cancel_emission addr
  | cancelExternalWorkflow id =>
    cases h
    exact r.requestCancelExternal_emission id false rfl
  | signalExternalWorkflow id name input =>
    cases h
    refine .entered ⟨.signalExternalWorkflow, id, ""⟩ ?_ nofun ?_ ?_ ?_ <;>
      unfold signalExternalWorkflow <;> dsimp only <;> split <;> first
      | rfl
      | exact .inl rfl
      | exact .inr ⟨_, rfl, rfl⟩
  | upsertSearchAttributes attributes =>
    cases h
    refine .entered ⟨.upsertSearchAttributes, "", ""⟩ ?_ nofun ?_ ?_ ?_ <;>
      unfold upsertSearchAttributes <;> dsimp only <;> split <;> first
      | rfl
      | exact .inl rfl
      | exact .inr ⟨_, rfl, rfl⟩
  | get addr =>
    simp only [exec, Option.ite_none_right_eq_some, Option.some.injEq, Prod.mk.injEq] at h
    rw [← h.2.1]
    exact .nothing rfl rfl rfl rfl
  | receive name =>
    obtain ⟨x, hx, he⟩ := Option.map_eq_some_iff.mp h
    cases he
    exact r.tryConsumeSignal_emission hx
  | receiveAsync name =>
    simp only [exec] at h
    split at h
    · next hc => cases h; exact r.tryConsumeSignal_emission hc
    · cases h; exact .nothing rfl rfl rfl rfl
  | select cases hasDefault =>
    simp only [exec] at h
    repeat' split at h
    all_goals cases h
    all_goals exact .nothing rfl rfl rfl rfl
  | awaitCancellation =>
    cases h
    unfold awaitCancellation
    split <;> exact .nothing rfl rfl rfl rfl
  | sideEffect =>
    have he := r.sideEffect_emission
    rw [Option.some.inj h] at he
    exact he
  | mutableSideEffect id equals =>
    have he := r.mutableSideEffect_emission id equals
    rw [Option.some.inj h] at he
    exact he
  | getVersion changeId lo hi =>
    have he := r.getVersion_emission changeId lo hi
    rw [Option.some.inj h] at he
    exact he
  | executeLocalActivity type input options =>
    have he := r.executeLocalActivity_emission type input options
    rw [Option.some.inj h] at he
    exact he
  | finish outcome => cases h
  | _ => cases h; exact .nothing rfl rfl rfl rfl

end Operations
end Runner
end TemporalSdk
