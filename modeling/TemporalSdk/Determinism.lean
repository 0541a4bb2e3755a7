import TemporalSdk.History

/-! Non-determinism detection (`internal/determinism.h`): the commands a replay produces are
matched in order against the command events history recorded. -/
namespace TemporalSdk

inductive CommandKind where
  | activity | requestCancelActivity | timer | cancelTimer | childWorkflow
  | requestCancelExternalWorkflow | signalExternalWorkflow | upsertSearchAttributes
  | nexusOperation | marker | completeWorkflow | failWorkflow | continueAsNew
  deriving DecidableEq, Repr, Inhabited

/-- `kCommandKindNames`. -/
def commandKindName : CommandKind → String
  | .activity => "ScheduleActivity"
  | .requestCancelActivity => "RequestCancelActivity"
  | .timer => "StartTimer"
  | .cancelTimer => "CancelTimer"
  | .childWorkflow => "StartChildWorkflow"
  | .requestCancelExternalWorkflow => "RequestCancelExternalWorkflowExecution"
  | .signalExternalWorkflow => "SignalExternalWorkflowExecution"
  | .upsertSearchAttributes => "UpsertWorkflowSearchAttributes"
  | .nexusOperation => "ScheduleNexusOperation"
  | .marker => "RecordMarker"
  | .completeWorkflow => "CompleteWorkflowExecution"
  | .failWorkflow => "FailWorkflowExecution"
  | .continueAsNew => "ContinueAsNewWorkflowExecution"

/-- One orchestration command, as the workflow produced it or as history recorded it. -/
structure CommandEvent where
  kind : CommandKind
  id : String
  name : String
  deriving DecidableEq, Repr, Inhabited

def commandMatchesEvent (produced expected : CommandEvent) : Bool :=
  if produced.kind ≠ expected.kind then false
  else
    match produced.kind with
    | .activity | .childWorkflow => produced.id == expected.id && produced.name == expected.name
    | .requestCancelActivity | .requestCancelExternalWorkflow | .signalExternalWorkflow
    | .upsertSearchAttributes | .timer | .cancelTimer | .nexusOperation | .marker =>
      produced.id == expected.id
    | .completeWorkflow | .failWorkflow | .continueAsNew => true

def describe (c : CommandEvent) : String :=
  let s := commandKindName c.kind
  let s := if c.id.isEmpty then s else s ++ "/" ++ c.id
  if c.name.isEmpty then s else s ++ "/" ++ c.name

/-- The loop of `MatchReplayCommands` from index `i` on. -/
def matchReplayCommandsFrom (i : Nat) : List CommandEvent → List CommandEvent → Option String
  | _, [] => none
  | [], e :: _ =>
    some ("[TMPRL1100] nondeterministic workflow: missing replay command for history " ++
      describe e)
  | p :: produced, e :: expected =>
    if commandMatchesEvent p e then matchReplayCommandsFrom (i + 1) produced expected
    else
      some ("[TMPRL1100] nondeterministic workflow: at command #" ++ toString i ++
        " history recorded " ++ describe e ++ " but replay produced " ++ describe p)

def matchReplayCommands (produced expected : List CommandEvent) : Option String :=
  matchReplayCommandsFrom 0 produced expected

@[simp] theorem commandMatchesEvent_refl (c : CommandEvent) : commandMatchesEvent c c = true := by
  simp only [commandMatchesEvent, ne_eq, not_true_eq_false, ↓reduceIte, beq_self_eq_true,
    Bool.and_self]
  split <;> rfl

/-- A replay is accepted when it produces a matching command for every recorded one. -/
theorem matchReplayCommandsFrom_eq_none_iff {produced expected : List CommandEvent} {i : Nat} :
    matchReplayCommandsFrom i produced expected = none ↔
      expected.length ≤ produced.length ∧ ∀ (j : Nat) p e, produced[j]? = some p →
        expected[j]? = some e → commandMatchesEvent p e = true := by
  induction expected generalizing produced i with
  | nil => simp [matchReplayCommandsFrom]
  | cons e expected ih =>
    cases produced with
    | nil => simp [matchReplayCommandsFrom]
    | cons p produced =>
      simp only [matchReplayCommandsFrom, List.length_cons, Nat.add_le_add_iff_right]
      by_cases hm : commandMatchesEvent p e = true
      · rw [if_pos hm, ih]
        refine and_congr_right fun _ => ⟨fun h j q f hq hf => ?_, fun h j q f hq hf => ?_⟩
        · cases j with
          | zero =>
            cases hq
            cases hf
            exact hm
          | succ j => exact h j q f hq hf
        · exact h (j + 1) q f hq hf
      · rw [if_neg hm]
        constructor
        · intro h
          cases h
        · intro h
          exact absurd (h.2 0 p e rfl rfl) hm

/-- A replay that starts with what history recorded is accepted; trailing commands are
forward progress. -/
theorem matchReplayCommandsFrom_append (expected rest : List CommandEvent) (i : Nat) :
    matchReplayCommandsFrom i (expected ++ rest) expected = none := by
  induction expected generalizing i with
  | nil => simp [matchReplayCommandsFrom]
  | cons e expected ih =>
    simp only [List.cons_append, matchReplayCommandsFrom, commandMatchesEvent_refl, ↓reduceIte]
    exact ih (i + 1)

theorem matchReplayCommands_of_isPrefix {produced expected : List CommandEvent}
    (h : expected <+: produced) : matchReplayCommands produced expected = none := by
  obtain ⟨rest, rfl⟩ := h
  exact matchReplayCommandsFrom_append expected rest 0

/-- Both lists have an entry at this position, and the two match. -/
def MatchesAt (produced expected : List CommandEvent) (i : Nat) : Prop :=
  ∃ p e, produced[i]? = some p ∧ expected[i]? = some e ∧ commandMatchesEvent p e = true

/-- What is said of the recorded command `e` at position `i`, given what was produced there. -/
def divergence (i : Nat) (e : CommandEvent) : Option CommandEvent → String
  | none =>
    "[TMPRL1100] nondeterministic workflow: missing replay command for history " ++ describe e
  | some p =>
    "[TMPRL1100] nondeterministic workflow: at command #" ++ toString i ++
      " history recorded " ++ describe e ++ " but replay produced " ++ describe p

theorem matchesAt_zero {p e : CommandEvent} {produced expected : List CommandEvent} :
    MatchesAt (p :: produced) (e :: expected) 0 ↔ commandMatchesEvent p e = true := by
  simp [MatchesAt]

theorem matchesAt_succ {p e : CommandEvent} {produced expected : List CommandEvent} {i : Nat} :
    MatchesAt (p :: produced) (e :: expected) (i + 1) ↔ MatchesAt produced expected i := by
  simp [MatchesAt]

/-- A rejection is about the first position without a match. -/
theorem matchReplayCommandsFrom_eq_some {produced expected : List CommandEvent} {i : Nat}
    {message : String} (h : matchReplayCommandsFrom i produced expected = some message) :
    ∃ j e, expected[j]? = some e ∧ (∀ k < j, MatchesAt produced expected k) ∧
      ¬ MatchesAt produced expected j ∧ message = divergence (i + j) e produced[j]? := by
  induction expected generalizing produced i with
  | nil => simp [matchReplayCommandsFrom] at h
  | cons e expected ih =>
    cases produced with
    | nil =>
      refine ⟨0, e, rfl, by simp, ?_, (Option.some.inj h).symm⟩
      simp [MatchesAt]
    | cons p produced =>
      unfold matchReplayCommandsFrom at h
      split at h
      · next hm =>
        obtain ⟨j, f, hf, hbefore, hfail, hmessage⟩ := ih h
        refine ⟨j + 1, f, hf, ?_, ?_, ?_⟩
        · intro k hk
          cases k with
          | zero => exact matchesAt_zero.mpr hm
          | succ k => exact matchesAt_succ.mpr (hbefore k (by omega))
        · rwa [matchesAt_succ]
        · rw [hmessage, List.getElem?_cons_succ]
          congr 1
          omega
      · next hm =>
        refine ⟨0, e, rfl, by simp, ?_, (Option.some.inj h).symm⟩
        rwa [matchesAt_zero]

theorem matchReplayCommands_eq_none_iff {produced expected : List CommandEvent} :
    matchReplayCommands produced expected = none ↔
      expected.length ≤ produced.length ∧ ∀ i < expected.length, MatchesAt produced expected i := by
  rw [matchReplayCommands, matchReplayCommandsFrom_eq_none_iff]
  apply and_congr_right
  intro hle
  constructor
  · intro h i hi
    have hp : produced[i]? = some produced[i] := List.getElem?_eq_getElem (by omega)
    have he : expected[i]? = some expected[i] := List.getElem?_eq_getElem hi
    exact ⟨_, _, hp, he, h i _ _ hp he⟩
  · intro h i p e hp he
    obtain ⟨hi, -⟩ := List.getElem?_eq_some_iff.mp he
    obtain ⟨q, f, hq, hf, hm⟩ := h i hi
    rw [hp] at hq
    rw [he] at hf
    cases hq
    cases hf
    exact hm

theorem commandMatchesEvent_kind {p e : CommandEvent} (h : commandMatchesEvent p e = true) :
    p.kind = e.kind := by
  by_contra hne
  simp [commandMatchesEvent, hne] at h

end TemporalSdk
