import TemporalSdk.Identity

/-! `WorkflowTaskHandler::ReplayHistory`: the offline replayer, which drives a fresh runner
through a history under an identity of its own. -/
namespace TemporalSdk

/-- How a replay that reports nothing ends. -/
inductive ReplayError where
  | applicationError (message type : String)
  | hung
  | escaped
  deriving DecidableEq, Repr, Inhabited

def EventAttributes.startedType? : EventAttributes → Option String
  | .workflowExecutionStarted type _ _ => some type
  | _ => none

/-- The workflow type the first started event names, empty when there is none. -/
def History.workflowType (history : History) : String :=
  (history.findSome? (·.attributes.startedType?)).getD ""

namespace TaskHandler

variable {σ : Type} (h : TaskHandler σ)

/-- The info `ReplayHistory` fills in; the run id stays empty. -/
def replayInfo (workflowType : String) : WorkflowInfo where
  workflowId := "replay"
  runId := ""
  workflowType := workflowType
  taskQueue := h.taskQueue
  ns := h.ns

def replayHistory (history : History) : Except ReplayError (Option String) :=
  if history.workflowType.isEmpty then
    .error (.applicationError "history has no WorkflowExecutionStarted event" "ReplayError")
  else
    match h.workflows history.workflowType with
    | none =>
      .error (.applicationError ("no workflow registered for type: " ++ history.workflowType)
        "ReplayError")
    | some fn =>
      let r := (Runner.replay (h.replayInfo history.workflowType) true h.world fn history).run
        h.fuel
      if r.deadlocked || r.hung then .error .hung
      else if r.escaped then .error .escaped
      else .ok r.checkDeterminism

/-- The replay of `Handle` gets through the history and reproduces it. -/
def PassesReplay (fn : WorkflowFn σ) (task : WorkflowTask) (history : History) : Prop :=
  (h.replayed fn task history).deadlocked = false ∧ (h.replayed fn task history).hung = false ∧
    (h.replayed fn task history).escaped = false ∧
    (h.replayed fn task history).checkDeterminism = none

end TaskHandler

namespace TaskHandler

variable {σ : Type} (h : TaskHandler σ) (fn : WorkflowFn σ) (task : WorkflowTask)
  (history : History)

/-- The runner of a replay under the run's own identity, before it runs. -/
def replayRunner : Runner σ := .replay (h.info task) true h.world fn history

/-- The body or a handler gets to see the run's identity while the history is replayed. -/
def SeesIdentity : Prop :=
  ∃ x ∈ (h.replayRunner fn task history).runAsks h.fuel, x.1.readsInfo x.2 = true

/-- The body or a handler starts a child with a generated id while the history is replayed. -/
def GeneratesChild : Prop :=
  ∃ x ∈ (h.replayRunner fn task history).runAsks h.fuel, x.2.generatesId = true

/-- The replayer decides as the worker does. -/
def ReplayerAgrees : Prop :=
  h.replayHistory history = .ok none ↔ h.PassesReplay fn task history

/-- The history is all that its workflow does: it is reproduced to the end. -/
def CompleteHistory : Prop :=
  h.PassesReplay fn task history ∧
    (h.replayed fn task history).producedCommands.length ≤ (scanHistory history).commands.length

variable {h fn task history}

theorem replayed_eq (hprev : 0 < task.previousStartedEventId) :
    h.replayed fn task history = (h.replayRunner fn task history).run h.fuel := by
  rw [replayed, replayRunner, decide_eq_true hprev]

section Registered

-- The history is one of the task's registered workflow.
variable (hw : h.workflows task.workflowType = some fn)
  (htype : history.workflowType = task.workflowType) (hne : task.workflowType ≠ "")
include hw htype hne

theorem replayHistory_eq_ok_none_iff :
    h.replayHistory history = .ok none ↔
      ((h.replayRunner fn task history).offline.run h.fuel).deadlocked = false ∧
      ((h.replayRunner fn task history).offline.run h.fuel).hung = false ∧
      ((h.replayRunner fn task history).offline.run h.fuel).escaped = false ∧
      ((h.replayRunner fn task history).offline.run h.fuel).checkDeterminism = none := by
  have hempty : ¬ task.workflowType.isEmpty = true := by
    rw [String.isEmpty_iff]
    exact hne
  have hrunner : Runner.replay (h.replayInfo task.workflowType) true h.world fn history =
      (h.replayRunner fn task history).offline := rfl
  unfold replayHistory
  rw [htype, hw, if_neg hempty]
  dsimp only
  rw [hrunner]
  generalize (h.replayRunner fn task history).offline.run h.fuel = r
  cases hd : r.deadlocked <;> cases hh : r.hung <;> cases he : r.escaped <;> simp

/-- The worker and the replayer differ only in what an operation makes of the run's identity. -/
theorem replayerAgrees_of_allPortable (hprev : 0 < task.previousStartedEventId)
    (hp : Runner.AllPortable ((h.replayRunner fn task history).runAsks h.fuel)) :
    h.ReplayerAgrees fn task history := by
  rw [ReplayerAgrees, replayHistory_eq_ok_none_iff hw htype hne, PassesReplay, replayed_eq hprev,
    Runner.run_offline hp]
  rfl

theorem replayerAgrees_of_same_identity (hprev : 0 < task.previousStartedEventId)
    (hid : task.workflowId = "replay") (hrun : task.runId = "") :
    h.ReplayerAgrees fn task history := by
  have hsame : (h.replayRunner fn task history).offline = h.replayRunner fn task history := by
    rw [Runner.offline, replayRunner, Runner.replay, Runner.new]
    simp only [info, hid, hrun]
  rw [ReplayerAgrees, replayHistory_eq_ok_none_iff hw htype hne, PassesReplay, replayed_eq hprev,
    hsame]

theorem not_replayerAgrees_of_diverges (hprev : 0 < task.previousStartedEventId)
    (hc : h.CompleteHistory fn task history)
    (hd : Runner.Diverges ((h.replayRunner fn task history).runAsks h.fuel))
    (hid : task.workflowId ≠ "replay") : ¬ h.ReplayerAgrees fn task history := by
  intro hagree
  obtain ⟨hpass, hlen⟩ := hc
  have hoff := (replayHistory_eq_ok_none_iff hw htype hne).mp (hagree.mpr hpass)
  have hrec : ((h.replayRunner fn task history).run h.fuel).scan.commands =
      (scanHistory history).commands := (Runner.Grows.run h.fuel _).recorded
  have hrec' : ((h.replayRunner fn task history).offline.run h.fuel).scan.commands =
      (scanHistory history).commands := (Runner.Grows.run h.fuel _).recorded
  rw [PassesReplay, replayed_eq hprev] at hpass
  rw [replayed_eq hprev] at hlen
  obtain ⟨hdead, hhung, hescaped, hcheck⟩ := hpass
  rw [Runner.checkDeterminism, hrec, matchReplayCommands,
    matchReplayCommandsFrom_eq_none_iff] at hcheck
  have hreproduces : Runner.Reproduces (scanHistory history).commands
      ((h.replayRunner fn task history).run h.fuel) := by
    refine ⟨hdead, hhung, hescaped, fun i p hp => ?_⟩
    have hi : i < (scanHistory history).commands.length :=
      Nat.lt_of_lt_of_le (List.getElem?_eq_some_iff.mp hp).1 hlen
    exact ⟨_, List.getElem?_eq_getElem hi, hcheck.2 i p _ hp (List.getElem?_eq_getElem hi)⟩
  rw [Runner.checkDeterminism, hrec', matchReplayCommands,
    matchReplayCommandsFrom_eq_none_iff] at hoff
  rcases Runner.run_offline_fails hd hid hreproduces with hf | hf | hf | ⟨i, p, e, hp, he, hm⟩
  · rw [hoff.1] at hf
    cases hf
  · rw [hoff.2.1] at hf
    cases hf
  · rw [hoff.2.2.1] at hf
    cases hf
  · rw [hoff.2.2.2.2 i p e hp he] at hm
    cases hm

/-- The replayer decides as the worker does if the identities agree, or if nothing in the
replay sees the run's identity and no child takes its id from it. On a complete history in which
nothing sees the identity, it does so only then. -/
theorem replayerAgrees_iff (hprev : 0 < task.previousStartedEventId) :
    ((task.workflowId = "replay" ∧ task.runId = "" ∨
        ¬ h.SeesIdentity fn task history ∧
          (task.workflowId = "replay" ∨ ¬ h.GeneratesChild fn task history)) →
      h.ReplayerAgrees fn task history) ∧
    (¬ h.SeesIdentity fn task history → h.CompleteHistory fn task history →
      (h.ReplayerAgrees fn task history ↔
        task.workflowId = "replay" ∨ ¬ h.GeneratesChild fn task history)) := by
  have hblind : ¬ h.SeesIdentity fn task history →
      ∀ x ∈ (h.replayRunner fn task history).runAsks h.fuel, x.1.readsInfo x.2 = false := by
    intro hs x hx
    by_contra hr
    exact hs ⟨x, hx, Bool.not_eq_false _ ▸ hr⟩
  have henough : ¬ h.SeesIdentity fn task history →
      (task.workflowId = "replay" ∨ ¬ h.GeneratesChild fn task history) →
      h.ReplayerAgrees fn task history := by
    intro hs hg
    refine replayerAgrees_of_allPortable hw htype hne hprev fun x hx => ⟨hblind hs x hx, ?_⟩
    intro hgen
    rcases hg with hid | hg
    · rw [Runner.runAsks_info hx]
      exact hid
    · exact absurd ⟨x, hx, hgen⟩ hg
  refine ⟨?_, fun hs hc => ⟨fun hagree => ?_, henough hs⟩⟩
  · rintro (⟨hid, hrun⟩ | ⟨hs, hg⟩)
    · exact replayerAgrees_of_same_identity hw htype hne hprev hid hrun
    · exact henough hs hg
  · by_contra hg
    rw [not_or, not_not] at hg
    exact not_replayerAgrees_of_diverges hw htype hne hprev hc ⟨hblind hs, hg.2⟩ hg.1 hagree

end Registered
end TaskHandler

/-- A workflow that starts a child under the id its options give, and ends with it. -/
def shipWorkflow (childId : String) : WorkflowFn Unit where
  init := ()
  body _ trace :=
    match trace with
    | [] => .startChildWorkflow "Deliver" [] { id := childId }
    | [_] => .get 0
    | _ => .finish (.returned [])

def shipHandler (childId : String) : TaskHandler Unit where
  workflows name := if name = "Ship" then some (shipWorkflow childId) else none
  world := .plain .tagged
  fuel := 10

/-- The history of a run of `shipWorkflow` whose child has this id. -/
def shipHistory (childId : String) : History :=
  [⟨1, .workflowExecutionStarted "Ship" [] []⟩, ⟨2, .other⟩, ⟨3, .other⟩, ⟨4, .other⟩,
    ⟨5, .startChildWorkflowExecutionInitiated childId "Deliver"⟩, ⟨6, .other⟩,
    ⟨7, .childWorkflowExecutionCompleted childId []⟩, ⟨8, .other⟩, ⟨9, .other⟩, ⟨10, .other⟩,
    ⟨11, .workflowExecutionCompleted []⟩]

def shipTask (childId : String) : WorkflowTask where
  taskToken := "token"
  workflowId := "ship-1"
  runId := "run-1"
  workflowType := "Ship"
  page := { events := shipHistory childId }
  previousStartedEventId := 9

/-- The child's generated id is recorded as "ship-1_c0", and the replayer expects "replay_c0". -/
theorem replayer_rejects_generated_child :
    (shipHandler "").CompleteHistory (shipWorkflow "") (shipTask "ship-1_c0")
        (shipHistory "ship-1_c0") ∧
      ¬ (shipHandler "").ReplayerAgrees (shipWorkflow "") (shipTask "ship-1_c0")
        (shipHistory "ship-1_c0") := by
  have hpass : (shipHandler "").PassesReplay (shipWorkflow "") (shipTask "ship-1_c0")
      (shipHistory "ship-1_c0") :=
    ⟨by decide +kernel, by decide +kernel, by decide +kernel, by decide +kernel⟩
  have hreplay :
      ((shipHandler "").replayHistory (shipHistory "ship-1_c0")).toOption ≠ some none := by
    decide +kernel
  refine ⟨⟨hpass, by decide +kernel⟩, fun hagree => hreplay ?_⟩
  rw [hagree.mpr hpass]
  rfl

/-- A child with an id of its own is reproduced under any identity. -/
theorem replayer_accepts_explicit_child :
    (shipHandler "parcel-7").ReplayerAgrees (shipWorkflow "parcel-7") (shipTask "parcel-7")
      (shipHistory "parcel-7") := by
  have hsees : ¬ (shipHandler "parcel-7").SeesIdentity (shipWorkflow "parcel-7")
      (shipTask "parcel-7") (shipHistory "parcel-7") := by
    unfold TaskHandler.SeesIdentity
    decide +kernel
  have hgen : ¬ (shipHandler "parcel-7").GeneratesChild (shipWorkflow "parcel-7")
      (shipTask "parcel-7") (shipHistory "parcel-7") := by
    unfold TaskHandler.GeneratesChild
    decide +kernel
  exact (TaskHandler.replayerAgrees_iff (by rfl) rfl (by decide) (by decide)).1
    (.inr ⟨hsees, .inr hgen⟩)

end TemporalSdk
