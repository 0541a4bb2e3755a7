import TemporalSdk.Identity
import TemporalSdk.Issued
import TemporalSdk.Records
import TemporalSdk.RunInvariant

/-! The determinism check on closed histories. The entry for the end of a body is the last one its
runner produces, so a check that finds it in its place has nothing left to allow. -/
namespace TemporalSdk

/-- The entries for the end of a workflow. -/
def CommandKind.isTerminal : CommandKind → Bool
  | .completeWorkflow | .failWorkflow | .continueAsNew => true
  | _ => false

/-- The kind a closing event is recorded as. -/
def EventAttributes.closingKind? : EventAttributes → Option CommandKind
  | .workflowExecutionCompleted _ => some .completeWorkflow
  | .workflowExecutionFailed _ => some .failWorkflow
  | .workflowExecutionContinuedAsNew .. => some .continueAsNew
  | _ => none

theorem EventAttributes.entry_of_closingKind {a : EventAttributes} {kind : CommandKind}
    (h : a.closingKind? = some kind) (n : Nat) :
    (a.entry n).kind = kind ∧ kind.isTerminal = true := by
  cases a <;> first
    | (cases h; exact ⟨rfl, rfl⟩)
    | cases h

namespace Runner

variable {σ : Type} {r r' : Runner σ}

/-- `r'` has produced one more entry than `r` at most, and no terminal one. -/
def Enters (r r' : Runner σ) : Prop :=
  r'.producedCommands = r.producedCommands ∨
    ∃ e : CommandEvent, e.kind.isTerminal = false ∧
      r'.producedCommands = r.producedCommands ++ [e]

theorem enters_one (e : CommandEvent) (he : e.kind.isTerminal = false)
    (h : r'.producedCommands = r.producedCommands ++ [e]) : Enters r r' := .inr ⟨e, he, h⟩

section Operations

variable (r)

theorem requestCancelExternal_enters (id : String) (childOnly : Bool) :
    Enters r (r.requestCancelExternal id childOnly) := by
  apply enters_one ⟨.requestCancelExternalWorkflow, id, ""⟩ rfl
  unfold requestCancelExternal
  dsimp only
  split <;> rfl

theorem signalExternalWorkflow_enters (id name : String) (input : Payloads) :
    Enters r (r.signalExternalWorkflow id name input) := by
  apply enters_one ⟨.signalExternalWorkflow, id, ""⟩ rfl
  unfold signalExternalWorkflow
  dsimp only
  split <;> rfl

theorem upsertSearchAttributes_enters (attributes : List (String × Payload)) :
    Enters r (r.upsertSearchAttributes attributes) := by
  apply enters_one ⟨.upsertSearchAttributes, "", ""⟩ rfl
  unfold upsertSearchAttributes
  dsimp only
  split <;> rfl

theorem cancel_enters (addr : Nat) : Enters r (r.cancel addr) := by
  have heffect := r.cancel_effect addr
  generalize r.cancel addr = q at heffect ⊢
  cases heffect with
  | nothing => exact .inl rfl
  | _ => exact enters_one _ rfl rfl

theorem sideEffect_enters : Enters r r.sideEffect.1 := by
  apply enters_one ⟨.marker, "SideEffect", ""⟩ rfl
  unfold sideEffect
  dsimp only
  repeat' split
  all_goals rfl

theorem getVersion_enters (id : String) (lo hi : Int) : Enters r (r.getVersion id lo hi).1 := by
  unfold getVersion
  dsimp only
  repeat' split
  all_goals first
    | exact .inl rfl
    | exact enters_one ⟨.marker, "Version", ""⟩ rfl rfl

theorem mutableSideEffect_enters (id : String) (equals : Value → Value → Bool) :
    Enters r (r.mutableSideEffect id equals).1 := by
  unfold mutableSideEffect
  dsimp only
  repeat' split
  all_goals first
    | exact .inl rfl
    | exact enters_one ⟨.marker, "MutableSideEffect", ""⟩ rfl rfl

theorem executeLocalActivity_enters (type : String) (input : Payloads)
    (options : LocalActivityOptions) :
    Enters r (r.executeLocalActivity type input options).1 := by
  apply enters_one ⟨.marker, "LocalActivity", ""⟩ rfl
  unfold executeLocalActivity
  dsimp only
  repeat' split
  all_goals rfl

theorem tryConsumeSignal_enters {name : String} {p : Payloads}
    (h : r.tryConsumeSignal name = some (r', p)) : Enters r r' := by
  simp only [tryConsumeSignal] at h
  repeat' split at h
  all_goals cases h
  exact .inl rfl

/-- No operation of the context produces the entry for an end. -/
theorem exec_enters {op : Op σ} {resp : Resp σ} (h : r.exec op = some (r', resp)) :
    Enters r r' := by
  cases op with
  | scheduleActivity type input options =>
    cases h
    rw [scheduleActivity_eq]
    exact enters_one _ rfl rfl
  | startTimer duration =>
    cases h
    rw [startTimer_eq]
    exact enters_one _ rfl rfl
  | startChildWorkflow type input options =>
    cases h
    rw [startChildWorkflow_eq]
    exact enters_one _ rfl rfl
  | scheduleNexusOperation endpoint service operation input close =>
    cases h
    rw [scheduleNexusOperation_eq]
    exact enters_one _ rfl rfl
  | cancel addr =>
    cases h
    exact r.cancel_enters addr
  | cancelExternalWorkflow id =>
    cases h
    exact r.requestCancelExternal_enters id false
  | signalExternalWorkflow id name input =>
    cases h
    exact r.signalExternalWorkflow_enters id name input
  | upsertSearchAttributes attributes =>
    cases h
    exact r.upsertSearchAttributes_enters attributes
  | get addr =>
    simp only [exec, Option.ite_none_right_eq_some, Option.some.injEq, Prod.mk.injEq] at h
    rw [← h.2.1]
    exact .inl rfl
  | receive name =>
    obtain ⟨x, hx, he⟩ := Option.map_eq_some_iff.mp h
    cases he
    exact r.tryConsumeSignal_enters hx
  | receiveAsync name =>
    simp only [exec] at h
    split at h
    · next hc =>
      cases h
      exact r.tryConsumeSignal_enters hc
    · cases h
      exact .inl rfl
  | select cases hasDefault =>
    simp only [exec] at h
    repeat' split at h
    all_goals cases h
    all_goals exact .inl rfl
  | awaitCancellation =>
    cases h
    unfold awaitCancellation
    split <;> exact .inl rfl
  | sideEffect =>
    have he := r.sideEffect_enters
    rwa [Option.some.inj h] at he
  | mutableSideEffect id equals =>
    have he := r.mutableSideEffect_enters id equals
    rwa [Option.some.inj h] at he
  | getVersion changeId lo hi =>
    have he := r.getVersion_enters changeId lo hi
    rwa [Option.some.inj h] at he
  | executeLocalActivity type input options =>
    have he := r.executeLocalActivity_enters type input options
    rwa [Option.some.inj h] at he
  | finish outcome => cases h
  | _ =>
    cases h
    exact .inl rfl

end Operations

/-- Before the end of the body no entry is terminal, after it only the last one can be. -/
structure EndsLast (r : Runner σ) : Prop where
  running : r.done = false → ∀ e ∈ r.producedCommands, e.kind.isTerminal = false
  last : ∀ e ∈ r.producedCommands.dropLast, e.kind.isTerminal = false

namespace EndsLast

theorem of_running (h : ∀ e ∈ r.producedCommands, e.kind.isTerminal = false) : EndsLast r where
  running _ := h
  last e he := h e (List.mem_of_mem_dropLast he)

/-- What is done elsewhere does not matter. -/
theorem congr (h : EndsLast r) (hdone : r'.done = r.done)
    (hproduced : r'.producedCommands = r.producedCommands) : EndsLast r' where
  running hd := by
    rw [hproduced]
    exact h.running (hdone.symm.trans hd)
  last := by
    rw [hproduced]
    exact h.last

theorem exec (h : EndsLast r) (hd : r.done = false) {op : Op σ} {resp : Resp σ}
    (hx : r.exec op = some (r', resp)) : EndsLast r' := by
  have hold := h.running hd
  rcases r.exec_enters hx with heq | ⟨e, he, heq⟩
  · exact h.congr (r.exec_frame hx).done heq
  · apply of_running
    rw [heq]
    intro f hf
    rcases List.mem_append.mp hf with hf | hf
    · exact hold f hf
    · rwa [List.mem_singleton.mp hf]

theorem finishBody (h : EndsLast r) (hd : r.done = false) (o : Outcome) :
    EndsLast (r.finishBody o) := by
  have hold := h.running hd
  have hone : ∀ kind, EndsLast { r.finishBody o with
      producedCommands := r.producedCommands ++ [⟨kind, "", ""⟩] } := by
    intro kind
    constructor
    · intro hrunning
      cases o <;> cases hrunning
    · rw [List.dropLast_concat]
      exact hold
  cases o with
  | returned result => exact hone .completeWorkflow
  | continueAsNew type input => exact hone .continueAsNew
  | applicationError message type nonRetryable => exact hone .failWorkflow
  | stdException what => exact hone .failWorkflow
  | otherException => exact of_running hold

theorem step (h : EndsLast r) (hs : r.step = some r') : EndsLast r' := by
  unfold Runner.step at hs
  split at hs
  · cases hs
  · next hd =>
    have hrunning : r.done = false := Bool.eq_false_iff.mpr hd
    split at hs
    · cases hs
      exact h.finishBody hrunning _
    · obtain ⟨x, hx, rfl⟩ := Option.map_eq_some_iff.mp hs
      exact (h.exec hrunning hx).congr rfl rfl

theorem runInvariant : RunInvariant fun r : Runner σ => r.EndsLast where
  step _ _ hs h := h.step hs
  exec _ _ _ _ hd hx h := h.exec hd hx
  applied r ev h := by
    obtain ⟨scan, futures, he⟩ := r.applyEventToState_touches ev
    rw [he]
    exact h.congr rfl rfl
  deadlocked _ h := h.congr rfl rfl
  hung _ h := h.congr rfl rfl
  escaped _ h := h.congr rfl rfl

/-- Every runner ends with its terminal entry, if it has one. -/
theorem run (fuel : Nat) (r : Runner σ) : EndsLast (r.run fuel) :=
  runInvariant.run fuel (of_running (by simp))

end EndsLast

/-- A check that a closed history passes has met the end of the body, and there are no entries
beyond it. -/
theorem EndsLast.closes (h : EndsLast r) (hcheck : r.checkDeterminism = none)
    {recorded : List CommandEvent} {e : CommandEvent}
    (hrecorded : r.scan.commands = recorded ++ [e]) (he : e.kind.isTerminal = true) :
    r.producedCommands.length = recorded.length + 1 ∧
      ∃ p, r.producedCommands.getLast? = some p ∧ p.kind = e.kind := by
  obtain ⟨hlen, hmatch⟩ := matchReplayCommands_eq_none_iff.mp hcheck
  rw [hrecorded, List.length_append, List.length_singleton] at hlen hmatch
  obtain ⟨p, f, hp, hf, hm⟩ := hmatch recorded.length (Nat.lt_succ_self _)
  rw [List.getElem?_concat_length] at hf
  obtain rfl := Option.some.inj hf
  have hkind := commandMatchesEvent_kind hm
  have hends : r.producedCommands.length = recorded.length + 1 := by
    by_contra hne
    have hinner : r.producedCommands.dropLast[recorded.length]? = some p := by
      rw [List.getElem?_dropLast, if_pos (by omega)]
      exact hp
    have hnot := h.last p (List.mem_of_getElem? hinner)
    rw [hkind, he] at hnot
    cases hnot
  refine ⟨hends, p, ?_, hkind⟩
  rw [List.getLast?_eq_getElem?, hends]
  exact hp

/-- What the check compares with is what the history has recorded. -/
theorem run_recorded (info : WorkflowInfo) (isReplaying : Bool) (world : World σ)
    (fn : WorkflowFn σ) (history : History) (fuel : Nat) :
    ((replay info isReplaying world fn history).run fuel).scan.commands =
      entriesFrom 0 (History.commandEvents history) := by
  rw [(Grows.run fuel _).recorded]
  exact (scanHistory_recorded history).commands

end Runner

/-- The check accepts exactly the replays that match every recorded command, and otherwise tells of
the first it does not match. On a history whose last command event closes the workflow, a replay
from scratch that it accepts has produced one entry for each command event, the last of them, and
no other, for the end that was recorded. -/
theorem determinism_check_exact {σ : Type} :
    (∀ produced expected : List CommandEvent,
      (matchReplayCommands produced expected = none ↔
        expected.length ≤ produced.length ∧
          ∀ i < expected.length, MatchesAt produced expected i) ∧
      ∀ message, matchReplayCommands produced expected = some message →
        ∃ i e, expected[i]? = some e ∧ (∀ j < i, MatchesAt produced expected j) ∧
          ¬ MatchesAt produced expected i ∧ message = divergence i e produced[i]?) ∧
    ∀ (info : WorkflowInfo) (isReplaying : Bool) (world : World σ) (fn : WorkflowFn σ)
      (history : History) (fuel : Nat) (closing : EventAttributes) (kind : CommandKind),
      (History.commandEvents history).getLast? = some closing →
      closing.closingKind? = some kind →
      ((Runner.replay info isReplaying world fn history).run fuel).checkDeterminism = none →
      ∃ before p, ((Runner.replay info isReplaying world fn history).run fuel).producedCommands =
          before ++ [p] ∧
        before.length + 1 = (History.commandEvents history).length ∧
        p.kind = kind ∧ kind.isTerminal = true ∧ ∀ e ∈ before, e.kind.isTerminal = false := by
  constructor
  · intro produced expected
    refine ⟨matchReplayCommands_eq_none_iff, ?_⟩
    intro message h
    obtain ⟨i, e, he, hbefore, hfail, hmessage⟩ := matchReplayCommandsFrom_eq_some h
    rw [Nat.zero_add] at hmessage
    exact ⟨i, e, he, hbefore, hfail, hmessage⟩
  · intro info isReplaying world fn history fuel closing kind hlast hclosing hcheck
    obtain ⟨events, hevents⟩ := List.getLast?_eq_some_iff.mp hlast
    have hrecorded := Runner.run_recorded info isReplaying world fn history fuel
    have hends := Runner.EndsLast.run fuel (Runner.replay info isReplaying world fn history)
    rw [hevents, entriesFrom_concat] at hrecorded
    obtain ⟨hentry, hterminal⟩ :=
      EventAttributes.entry_of_closingKind hclosing (0 + events.countP EventAttributes.isNexus)
    obtain ⟨hlen, p, hp, hkind⟩ := hends.closes hcheck hrecorded (by rw [hentry]; exact hterminal)
    obtain ⟨before, hbefore⟩ := List.getLast?_eq_some_iff.mp hp
    rw [length_entriesFrom] at hlen
    refine ⟨before, p, hbefore, ?_, hkind.trans hentry, hterminal, ?_⟩
    · rw [hbefore, List.length_append, List.length_singleton] at hlen
      rw [hlen, hevents, List.length_append, List.length_singleton]
    · have hinner := hends.last
      rwa [hbefore, List.dropLast_concat] at hinner

/-- Code whose update handler starts a timer, and that ends on a signal. -/
def pokedWorkflow : WorkflowFn Unit where
  init := ()
  body _ answers :=
    match answers with
    | [] => .setUpdateHandler "poke" fun _ replies =>
        match replies with
        | [] => .startTimer 1000000000
        | _ => .finish (.returned [])
    | [_] => .receive "go"
    | _ => .finish (.returned [])

def pokedHistory : History :=
  [⟨1, .workflowExecutionStarted "Poked" [] []⟩, ⟨2, .other⟩, ⟨3, .other⟩,
    ⟨4, .workflowExecutionUpdateAccepted "poke" []⟩, ⟨5, .timerStarted "t0"⟩,
    ⟨6, .workflowExecutionSignaled "go" []⟩, ⟨7, .other⟩, ⟨8, .workflowExecutionCompleted []⟩]

/-- Its replay is accepted, with the timer of the handler and the end of the body. -/
theorem poked_replay_closes :
    ((Runner.replay {} true (.plain .tagged) pokedWorkflow pokedHistory).run 10).deadlocked =
      false ∧
    ∃ before p, ((Runner.replay {} true (.plain .tagged) pokedWorkflow pokedHistory).run
        10).producedCommands = before ++ [p] ∧
      before.length + 1 = 2 ∧ p.kind = .completeWorkflow ∧
      CommandKind.completeWorkflow.isTerminal = true ∧
      ∀ e ∈ before, e.kind.isTerminal = false :=
  ⟨by decide +kernel, determinism_check_exact.2 {} true (.plain .tagged) pokedWorkflow pokedHistory
    10 (.workflowExecutionCompleted []) .completeWorkflow (by decide +kernel) rfl
    (by decide +kernel)⟩

end TemporalSdk
