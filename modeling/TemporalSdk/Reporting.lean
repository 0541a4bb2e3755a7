import TemporalSdk.Frame
import TemporalSdk.TaskHandler

/-! What the exits of `Handle` send, which runner a task is served on, and sequences of calls. -/
namespace TemporalSdk

def Command.isTerminal : Command → Bool
  | .completeWorkflowExecution _ | .failWorkflowExecution _ | .continueAsNewWorkflowExecution .. =>
    true
  | _ => false

namespace Runner

variable {σ : Type}

theorem terminalCommand_isTerminal {r : Runner σ} {c : Command} (h : r.terminalCommand = some c) :
    c.isTerminal = true := by
  unfold terminalCommand at h
  split at h <;> cases h <;> rfl

end Runner

namespace TaskHandler

variable {σ : Type} (h : TaskHandler σ)

theorem respond_sent (remote : Remote) (s : HandlerState σ) (resp : Response) :
    (respond remote s resp).sent = [resp] ∧ (respond remote s resp).state = s := by
  unfold respond
  split <;> exact ⟨rfl, rfl⟩

/-- The runner of a full-history task. -/
def replayed (fn : WorkflowFn σ) (task : WorkflowTask) (events : History) : Runner σ :=
  (Runner.replay (h.info task) (0 < task.previousStartedEventId) h.world fn events).run h.fuel

/-- The state with the runner of a full-history task. -/
def withReplayed (s : HandlerState σ) (fn : WorkflowFn σ) (task : WorkflowTask)
    (events : History) : HandlerState σ :=
  { s with replays := s.replays + 1 }.allocate (h.replayed fn task events)

theorem replayTask_eq (remote : Remote) (s : HandlerState σ) (fn : WorkflowFn σ)
    (task : WorkflowTask) (events : History) :
    h.replayTask remote s fn task events =
      if (h.replayed fn task events).deadlocked then
        h.abortDeadlock remote (h.withReplayed s fn task events) task
      else if (h.replayed fn task events).hung then ⟨h.withReplayed s fn task events, [], .hung⟩
      else if (h.replayed fn task events).escaped then
        ⟨h.withReplayed s fn task events, [], .escaped⟩
      else
        match (h.replayed fn task events).checkDeterminism with
        | some mismatch =>
          h.failNondeterministic remote (h.withReplayed s fn task events) task mismatch
        | none => h.complete remote { h.withReplayed s fn task events with
            cache := s.cache.put task.runId s.nextRunner } task s.nextRunner
            (h.replayed fn task events) := rfl

/-- How a full-history task can be answered. -/
theorem replayTask_cases (remote : Remote) (s : HandlerState σ) (fn : WorkflowFn σ)
    (task : WorkflowTask) (events : History) :
    h.replayTask remote s fn task events =
        h.abortDeadlock remote (h.withReplayed s fn task events) task ∨
      (∃ exit, h.replayTask remote s fn task events =
        ⟨h.withReplayed s fn task events, [], exit⟩) ∨
      (∃ mismatch, (h.replayed fn task events).checkDeterminism = some mismatch ∧
        h.replayTask remote s fn task events =
          h.failNondeterministic remote (h.withReplayed s fn task events) task mismatch) ∨
      ((h.replayed fn task events).checkDeterminism = none ∧
        h.replayTask remote s fn task events =
          h.complete remote { h.withReplayed s fn task events with
            cache := s.cache.put task.runId s.nextRunner } task s.nextRunner
            (h.replayed fn task events)) := by
  rw [replayTask_eq]
  split
  · exact .inl rfl
  · split
    · exact .inr (.inl ⟨_, rfl⟩)
    · split
      · exact .inr (.inl ⟨_, rfl⟩)
      · split
        · next mismatch hm => exact .inr (.inr (.inl ⟨mismatch, hm, rfl⟩))
        · next hm => exact .inr (.inr (.inr ⟨hm, rfl⟩))

theorem answerDirectQuery_not_completed {remote : Remote} {s : HandlerState σ}
    {task : WorkflowTask} {q : WorkflowQuery} {addr : Option Nat} (req : TaskCompleted) :
    .workflowTaskCompleted req ∉ (h.answerDirectQuery remote s task q addr).sent := by
  unfold answerDirectQuery
  split
  · simp [(respond_sent _ _ _).1]
  · split
    · simp
    · split
      · simp
      · simp [(respond_sent _ _ _).1]

theorem lookupCached_of_full {s : HandlerState σ} {runId : String} {events : History}
    {isQuery : Bool} (hf : isFullHistory events = true) :
    lookupCached s runId events isQuery = (none, s) := by
  simp [lookupCached, hf]

/-- The cached runner serves the task if it is asked a query or stands right before it. -/
def Serves (s : HandlerState σ) (events : History) (isQuery : Bool) (addr : Nat) : Bool :=
  (s.runners addr).any fun r => isQuery || firstEventId events = r.lastEventId + 1

theorem lookupCached_of_continuation {s : HandlerState σ} {runId : String} {events : History}
    {isQuery : Bool} (hf : isFullHistory events = false) :
    lookupCached s runId events isQuery =
      ((s.cache.peek runId).filter (Serves s events isQuery),
        { s with cache := (s.cache.get runId).2 }) := by
  have hslot := s.cache.get_fst runId
  unfold lookupCached Serves
  generalize s.cache.get runId = found at hslot ⊢
  obtain ⟨slot, cache⟩ := found
  simp only [hf, Bool.false_eq_true, if_false, ← hslot]
  cases slot with
  | none => rfl
  | some addr =>
    cases hr : s.runners addr with
    | none => simp [Option.filter, hr]
    | some r =>
      simp only [Option.filter, hr, Option.any_some]
      split <;> rfl

/-- The state after a sequence of calls. -/
def handleAll (s : HandlerState σ) : List (Remote × WorkflowTask) → HandlerState σ
  | [] => s
  | (remote, task) :: rest => handleAll (h.handle remote s task).state rest

/-- `P` holds of every call of a sequence, in the state in which it is made. -/
def EachTask (P : Remote → HandlerState σ → WorkflowTask → Prop) (s : HandlerState σ) :
    List (Remote × WorkflowTask) → Prop
  | [] => True
  | (remote, task) :: rest =>
    P remote s task ∧ EachTask P (h.handle remote s task).state rest

theorem EachTask.mono {P Q : Remote → HandlerState σ → WorkflowTask → Prop}
    (hpq : ∀ remote s task, P remote s task → Q remote s task) {s : HandlerState σ}
    {tasks : List (Remote × WorkflowTask)} (hp : h.EachTask P s tasks) : h.EachTask Q s tasks := by
  induction tasks generalizing s with
  | nil => trivial
  | cons t tasks ih => exact ⟨hpq _ _ _ hp.1, ih hp.2⟩

/-- What every call keeps holds before and after each call of a sequence. -/
theorem EachTask.of_invariant {I : HandlerState σ → Prop} {s : HandlerState σ}
    {tasks : List (Remote × WorkflowTask)}
    (hstep : ∀ t ∈ tasks, ∀ s, I s → I (h.handle t.1 s t.2).state) (hs : I s) :
    h.EachTask (fun _ s _ => I s) s tasks ∧ I (h.handleAll s tasks) := by
  induction tasks generalizing s with
  | nil => exact ⟨trivial, hs⟩
  | cons t tasks ih =>
    obtain ⟨heach, hlast⟩ := ih (fun t ht => hstep t (List.mem_cons_of_mem _ ht))
      (hstep t List.mem_cons_self s hs)
    exact ⟨⟨hs, heach⟩, hlast⟩

end TaskHandler

/-- How many commands a completed response carries. -/
def Response.commandCount? : Response → Option Nat
  | .workflowTaskCompleted req => some req.commands.length
  | _ => none

/-- A remote end that accepts every response. -/
def Remote.accepting : Remote where
  stub _ _ := (⟨.other 0, ""⟩, {})
  pageFuel := 0
  respond _ := .ok ()

/-- A workflow that reserves, waits for a signal and charges on update, each by an activity. -/
def orderWorkflow : WorkflowFn Unit where
  init := ()
  body _ trace :=
    match trace with
    | [] => .setUpdateHandler "charge" fun _ answers =>
        match answers with
        | [] => .scheduleActivity "Charge" [] {}
        | _ => .finish (.returned [])
    | [_] => .scheduleActivity "Reserve" [] {}
    | _ => .receive "done"

def orderHandler : TaskHandler Unit where
  workflows name := if name = "Order" then some orderWorkflow else none
  world := .plain .tagged
  fuel := 10

def orderTask (messages : List TaskMessage) : WorkflowTask where
  taskToken := "token"
  workflowId := "order-1"
  runId := "run-1"
  workflowType := "Order"
  page := { events := [⟨1, .workflowExecutionStarted "Order" [] []⟩, ⟨2, .other⟩, ⟨3, .other⟩] }
  messages := messages

end TemporalSdk
