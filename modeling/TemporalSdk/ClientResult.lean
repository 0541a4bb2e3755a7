import TemporalSdk.FailureConverter
import Mathlib.Data.List.Chain
import Mathlib.Data.Nat.Find

/-! Waiting for the result of a workflow: `WorkflowHandle::ResultPayloads` polls for the close event
of one run after the other. The server is a chain of runs that close one after the other. -/
namespace TemporalSdk

/-- The close event of a run. The four kinds that can have a successor carry its run id, empty if
there is none. -/
inductive CloseEvent where
  | completed (result : Payloads) (newExecutionRunId : String)
  | failed (failure : FailureProto) (newExecutionRunId : String)
  | timedOut (newExecutionRunId : String)
  | continuedAsNew (newExecutionRunId : String)
  | canceled
  | terminated
  deriving DecidableEq, Repr

namespace CloseEvent

/-- `EventType_Name`. -/
def eventTypeName : CloseEvent → String
  | completed .. => "EVENT_TYPE_WORKFLOW_EXECUTION_COMPLETED"
  | failed .. => "EVENT_TYPE_WORKFLOW_EXECUTION_FAILED"
  | timedOut _ => "EVENT_TYPE_WORKFLOW_EXECUTION_TIMED_OUT"
  | continuedAsNew _ => "EVENT_TYPE_WORKFLOW_EXECUTION_CONTINUED_AS_NEW"
  | canceled => "EVENT_TYPE_WORKFLOW_EXECUTION_CANCELED"
  | terminated => "EVENT_TYPE_WORKFLOW_EXECUTION_TERMINATED"

/-- The run that succeeds the closed one. -/
def successor? : CloseEvent → Option String
  | completed _ id | failed _ id | timedOut id => if id.isEmpty then none else some id
  | continuedAsNew id => some id
  | canceled | terminated => none

def isContinuedAsNew : CloseEvent → Bool
  | continuedAsNew _ => true
  | _ => false

end CloseEvent

/-- What a call of the client throws. -/
inductive ClientError where
  | workflowFailed (message type : String)
  | rpc (e : RpcError)
  | nonStd
  deriving DecidableEq, Repr

/-- The part of `WorkflowHandle` behind its result; `failureToError` is the installed failure
converter's. -/
structure WorkflowHandle where
  ns : String
  workflowId : String
  runId : String
  failureToError : Option (FailureProto → Thrown)

/-- The poll for the close event of a run. -/
structure CloseEventRequest where
  ns : String
  workflowId : String
  runId : Option String
  waitNewEvent : Bool := true
  closeEventsOnly : Bool := true
  skipArchival : Bool := true
  deriving DecidableEq, Repr

namespace WorkflowHandle

variable (handle : WorkflowHandle)

def request : CloseEventRequest where
  ns := handle.ns
  workflowId := handle.workflowId
  runId := if handle.runId.isEmpty then none else some handle.runId

/-- The error for a run that failed; the message and type are those of the decoded failure. -/
def failedError (failure : FailureProto) : ClientError :=
  let type := ((failure.applicationFailureInfo.map ApplicationFailureInfo.type).getD "")
  match handle.failureToError with
  | none => .workflowFailed ("workflow failed: " ++ failure.message) type
  | some failureToError =>
    match failureToError failure with
    | .applicationError message type _ => .workflowFailed ("workflow failed: " ++ message) type
    | .stdException message => .workflowFailed ("workflow failed: " ++ message) type
    | .nonStd => .nonStd

/-- What a close event that is not followed returns or throws. -/
def outcomeOf : CloseEvent → Except ClientError Payloads
  | .completed result _ => .ok result
  | .failed failure _ => .error (handle.failedError failure)
  | ev => .error (.workflowFailed
    ("workflow did not complete successfully: " ++ ev.eventTypeName) "")

/-- `ResultPayloads` from its `k`-th poll on, with the handle it leaves behind; `none` if the polls
are not enough. Only the first event of a response is looked at. -/
def resultPayloads (poll : Nat → CloseEventRequest → GrpcStatus × List CloseEvent) :
    Nat → Nat → WorkflowHandle → Option (Except ClientError Payloads × WorkflowHandle)
  | 0, _, _ => none
  | fuel + 1, k, handle =>
    match unaryCall "GetWorkflowExecutionHistory" true [] (poll k handle.request) with
    | .error e => some (.error (.rpc e), handle)
    | .ok [] => resultPayloads poll fuel (k + 1) handle
    | .ok (.continuedAsNew newRunId :: _) =>
      resultPayloads poll fuel (k + 1) { handle with runId := newRunId }
    | .ok (ev :: _) => some (handle.outcomeOf ev, handle)

/-- The wait comes to an end with `x`. -/
def Finishes (poll : Nat → CloseEventRequest → GrpcStatus × List CloseEvent) (k : Nat)
    (handle : WorkflowHandle) (x : Except ClientError Payloads × WorkflowHandle) : Prop :=
  ∃ fuel, resultPayloads poll fuel k handle = some x

variable {poll : Nat → CloseEventRequest → GrpcStatus × List CloseEvent} {fuel k : Nat}
  {handle : WorkflowHandle} {x y : Except ClientError Payloads × WorkflowHandle}

theorem resultPayloads_succ (h : resultPayloads poll fuel k handle = some x) :
    resultPayloads poll (fuel + 1) k handle = some x := by
  induction fuel generalizing k handle with
  | zero => cases h
  | succ fuel ih =>
    rw [resultPayloads] at h ⊢
    split at h <;> simp_all

theorem resultPayloads_mono {fuel' : Nat} (hle : fuel ≤ fuel')
    (h : resultPayloads poll fuel k handle = some x) :
    resultPayloads poll fuel' k handle = some x := by
  induction hle with
  | refl => exact h
  | step _ ih => exact resultPayloads_succ ih

/-- More polls than needed change nothing, so a wait ends in one way at most. -/
theorem Finishes.unique (hx : Finishes poll k handle x) (hy : Finishes poll k handle y) :
    x = y := by
  obtain ⟨n, hn⟩ := hx
  obtain ⟨m, hm⟩ := hy
  have hx := resultPayloads_mono (Nat.le_max_left n m) hn
  have hy := resultPayloads_mono (Nat.le_max_right n m) hm
  exact Option.some.inj (hx.symm.trans hy)

theorem finishes_of_empty
    (h : unaryCall "GetWorkflowExecutionHistory" true [] (poll k handle.request) = .ok [])
    (hx : Finishes poll (k + 1) handle x) : Finishes poll k handle x := by
  obtain ⟨fuel, hfuel⟩ := hx
  exact ⟨fuel + 1, by rw [resultPayloads, h]; exact hfuel⟩

theorem finishes_of_continuedAsNew {id : String} {rest : List CloseEvent}
    (h : unaryCall "GetWorkflowExecutionHistory" true [] (poll k handle.request) =
      .ok (.continuedAsNew id :: rest))
    (hx : Finishes poll (k + 1) { handle with runId := id } x) : Finishes poll k handle x := by
  obtain ⟨fuel, hfuel⟩ := hx
  exact ⟨fuel + 1, by rw [resultPayloads, h]; exact hfuel⟩

theorem finishes_of_close {ev : CloseEvent} {rest : List CloseEvent}
    (h : unaryCall "GetWorkflowExecutionHistory" true [] (poll k handle.request) =
      .ok (ev :: rest))
    (hev : ev.isContinuedAsNew = false) : Finishes poll k handle (handle.outcomeOf ev, handle) := by
  refine ⟨1, ?_⟩
  rw [resultPayloads, h]
  cases ev <;> simp_all [CloseEvent.isContinuedAsNew]

end WorkflowHandle

/-- A run and the event it closes with. -/
structure Run where
  runId : String
  close : CloseEvent
  deriving DecidableEq, Repr

/-- The runs of an execution: each names the next as its successor, and the last names none. -/
structure RunChain where
  runs : List Run
  nonempty : runs ≠ []
  named : ∀ run ∈ runs, run.runId.isEmpty = false
  nodup : (runs.map Run.runId).Nodup
  linked : List.IsChain (fun run next => run.close.successor? = some next.runId) runs
  ends : (runs.getLast nonempty).close.successor? = none

/-- How the server answers one long poll. -/
inductive PollReply where
  /-- The call runs into its deadline. -/
  | deadline
  /-- The call returns without an event. -/
  | nothing
  /-- The requested run has closed, and its close event is returned. -/
  | closed
  deriving DecidableEq, Repr

namespace RunChain

variable (chain : RunChain)

def last : Run := chain.runs.getLast chain.nonempty

/-- The server that answers the `k`-th poll as `reply` says. -/
def serve (reply : Nat → PollReply) (k : Nat) (req : CloseEventRequest) :
    GrpcStatus × List CloseEvent :=
  match reply k with
  | .deadline => (⟨.deadlineExceeded, "Deadline Exceeded"⟩, [])
  | .nothing => (⟨.ok, ""⟩, [])
  | .closed =>
    match chain.runs.find? fun run => some run.runId == req.runId with
    | some run => (⟨.ok, ""⟩, [run.close])
    | none => (⟨.notFound, "workflow execution not found"⟩, [])

end RunChain

/-- The run whose close event the wait acts on: the first that does not continue as new, from `run`
on. -/
def closingRun (run : Run) : List Run → Run
  | [] => run
  | next :: rest => if run.close.isContinuedAsNew then closingRun next rest else run

section

variable {chain : RunChain} {reply : Nat → PollReply} {before after : List Run} {run : Run}
  {k : Nat} {handle : WorkflowHandle}

theorem closingRun_mem (run : Run) (after : List Run) : closingRun run after ∈ run :: after := by
  induction after generalizing run with
  | nil => simp [closingRun]
  | cons next rest ih =>
    rw [closingRun]
    split
    · exact List.mem_cons_of_mem _ (ih next)
    · exact List.mem_cons_self

/-- It is the last run just if all runs before the last continue as new. -/
theorem closingRun_eq_getLast_iff (hnd : (run :: after).Nodup) :
    closingRun run after = (run :: after).getLast (List.cons_ne_nil _ _) ↔
      ∀ r ∈ (run :: after).dropLast, r.close.isContinuedAsNew := by
  induction after generalizing run with
  | nil => simp [closingRun]
  | cons next rest ih =>
    obtain ⟨hrun, hnd⟩ := List.nodup_cons.mp hnd
    rw [closingRun, List.getLast_cons (List.cons_ne_nil _ _),
      List.dropLast_cons_of_ne_nil (List.cons_ne_nil _ _), List.forall_mem_cons]
    split
    case isTrue hcan => rw [ih hnd, and_iff_right hcan]
    case isFalse hcan =>
      apply iff_of_false
      · intro h
        exact hrun (h ▸ List.getLast_mem _)
      · intro h
        exact hcan h.1

/-- The server knows every run by its id. -/
theorem RunChain.serve_closed (hruns : chain.runs = before ++ run :: after)
    (hid : handle.runId = run.runId) (hk : reply k = .closed) :
    chain.serve reply k handle.request = (⟨.ok, ""⟩, [run.close]) := by
  have hmem : run ∈ chain.runs := hruns ▸ by simp
  have hreq : handle.request.runId = some run.runId := by
    simp [WorkflowHandle.request, hid, chain.named run hmem]
  have hfind : chain.runs.find? (fun r => some r.runId == handle.request.runId) = some run := by
    rw [hreq, List.find?_eq_some_iff_append]
    refine ⟨by simp, before, after, hruns, ?_⟩
    intro r hr
    have hnd := chain.nodup
    rw [hruns, List.map_append, List.nodup_append'] at hnd
    have hne : r.runId ≠ run.runId := by
      intro h
      exact hnd.2.2 (List.mem_map_of_mem hr) (by simp [h])
    simpa using hne
  simp [RunChain.serve, hk, hfind]

/-- Empty polls are waited out. -/
theorem WorkflowHandle.finishes_of_later {m : Nat} (hle : k ≤ m)
    (hk : ∀ i, k ≤ i → i < m → reply i ≠ .closed) {x : Except ClientError Payloads × WorkflowHandle}
    (hx : Finishes (chain.serve reply) m handle x) : Finishes (chain.serve reply) k handle x := by
  induction hle using Nat.decreasingInduction with
  | self => exact hx
  | of_succ i hi ih =>
    refine finishes_of_empty ?_ (ih fun j hj => hk j (Nat.le_of_succ_le hj))
    have hne := hk i le_rfl hi
    unfold RunChain.serve unaryCall
    cases hr : reply i <;> simp_all

theorem exists_first_closed (hfair : ∀ n, ∃ m ≥ n, reply m = .closed) (k : Nat) :
    ∃ m ≥ k, reply m = .closed ∧ ∀ i, k ≤ i → i < m → reply i ≠ .closed := by
  classical
  have hex := hfair k
  refine ⟨Nat.find hex, (Nat.find_spec hex).1, (Nat.find_spec hex).2, ?_⟩
  intro i hi hlt h
  exact Nat.find_min hex hlt ⟨hi, h⟩

theorem RunChain.last_eq (hruns : chain.runs = before ++ run :: after) :
    chain.last = (run :: after).getLast (List.cons_ne_nil _ _) := by
  simp only [RunChain.last, hruns]
  exact List.getLast_append_of_ne_nil _ _

/-- A run that continues as new names the next run of the chain. -/
theorem RunChain.successor_eq {next : Run} {rest : List Run}
    (hruns : chain.runs = before ++ run :: next :: rest) :
    run.close.successor? = some next.runId := by
  have hlinked := chain.linked
  rw [hruns] at hlinked
  exact (List.isChain_cons_cons.mp hlinked.right_of_append).1

/-- Wherever the wait starts, it ends at the first run that does not continue as new. The induction
is on the runs that follow. -/
theorem WorkflowHandle.finishes_closingRun (hfair : ∀ n, ∃ m ≥ n, reply m = .closed)
    (hruns : chain.runs = before ++ run :: after) (hid : handle.runId = run.runId) :
    Finishes (chain.serve reply) k handle (handle.outcomeOf (closingRun run after).close,
      { handle with runId := (closingRun run after).runId }) := by
  induction after generalizing before run k handle with
  | nil =>
    obtain ⟨m, hkm, hm, hbefore⟩ := exists_first_closed hfair k
    have hserve := RunChain.serve_closed hruns hid hm
    have hends : run.close.successor? = none := by
      have hlast := chain.ends
      rwa [← RunChain.last, RunChain.last_eq hruns, List.getLast_singleton] at hlast
    have hcan : run.close.isContinuedAsNew = false := by
      cases h : run.close <;> simp_all [CloseEvent.successor?, CloseEvent.isContinuedAsNew]
    rw [closingRun, ← hid]
    exact finishes_of_later hkm hbefore (finishes_of_close (by rw [hserve]; rfl) hcan)
  | cons next rest ih =>
    obtain ⟨m, hkm, hm, hbefore⟩ := exists_first_closed hfair k
    have hserve := RunChain.serve_closed hruns hid hm
    have hnext := RunChain.successor_eq hruns
    refine finishes_of_later hkm hbefore ?_
    rw [closingRun]
    split
    case isFalse hcan =>
      rw [← hid]
      exact finishes_of_close (by rw [hserve]; rfl) (Bool.eq_false_iff.mpr hcan)
    case isTrue hcan =>
      have hclose : run.close = .continuedAsNew next.runId := by
        cases h : run.close <;> simp_all [CloseEvent.successor?, CloseEvent.isContinuedAsNew]
      refine finishes_of_continuedAsNew (by rw [hserve, hclose]; rfl) ?_
      have hrest : chain.runs = (before ++ [run]) ++ next :: rest := by simp [hruns]
      exact ih hrest rfl

/-- A handle to any run of an execution returns, or throws, what the last run closes with, and is
left at that run, just if every run before the last, from the handle's on, continues as new. The
successor of a run that failed, timed out or completed is not followed. -/
theorem WorkflowHandle.result_is_last_iff (chain : RunChain) (before after : List Run) (run : Run)
    (hruns : chain.runs = before ++ run :: after) (reply : Nat → PollReply)
    (hfair : ∀ n, ∃ m ≥ n, reply m = .closed) (handle : WorkflowHandle)
    (hid : handle.runId = run.runId) (k : Nat) :
    Finishes (chain.serve reply) k handle
        (handle.outcomeOf chain.last.close, { handle with runId := chain.last.runId }) ↔
      ∀ r ∈ (run :: after).dropLast, r.close.isContinuedAsNew := by
  have hnames : ((run :: after).map Run.runId).Nodup := by
    have hnd := chain.nodup
    rw [hruns, List.map_append] at hnd
    exact hnd.of_append_right
  have hfin := finishes_closingRun (k := k) hfair hruns hid
  rw [← closingRun_eq_getLast_iff hnames.of_map, ← RunChain.last_eq hruns]
  constructor
  · intro hlast
    have hids := congrArg (fun x => x.2.runId) (hfin.unique hlast)
    apply List.inj_on_of_nodup_map hnames (closingRun_mem run after) _ hids
    rw [RunChain.last_eq hruns]
    exact List.getLast_mem _
  · intro heq
    rwa [heq] at hfin

/-- Two runs continue as new before the third completes, and every third poll is answered. -/
def continued : RunChain where
  runs := [⟨"run-1", .continuedAsNew "run-2"⟩, ⟨"run-2", .continuedAsNew "run-3"⟩,
    ⟨"run-3", .completed [⟨[], [1]⟩] ""⟩]
  nonempty := by decide
  named := by decide
  nodup := by decide
  linked := by decide
  ends := by decide

theorem WorkflowHandle.result_is_last_iff_continued :
    Finishes (continued.serve fun k => if k % 3 = 2 then .closed else .nothing) 0
      ⟨"default", "wf", "run-2", none⟩ (.ok [⟨[], [1]⟩], ⟨"default", "wf", "run-3", none⟩) :=
  (result_is_last_iff continued [⟨"run-1", .continuedAsNew "run-2"⟩] _ _ rfl _
    (fun n => ⟨3 * n + 2, by omega, by rw [if_pos (by omega)]⟩) ⟨"default", "wf", "run-2", none⟩ rfl
    0).mpr (by decide)

/-- The first run fails and the server retries it; the second completes. -/
def retried : RunChain where
  runs := [⟨"run-1", .failed { message := "boom" } "run-2"⟩, ⟨"run-2", .completed [⟨[], [1]⟩] ""⟩]
  nonempty := by decide
  named := by decide
  nodup := by decide
  linked := by decide
  ends := by decide

/-- The handle to the first run throws its failure, though the execution goes on and completes. -/
theorem WorkflowHandle.retry_not_followed :
    let handle : WorkflowHandle := ⟨"default", "wf", "run-1", none⟩
    let poll := retried.serve fun _ => .closed
    Finishes poll 0 handle (.error (.workflowFailed "workflow failed: boom" ""), handle) ∧
      handle.outcomeOf retried.last.close = .ok [⟨[], [1]⟩] ∧
      ∀ left, ¬ Finishes poll 0 handle (handle.outcomeOf retried.last.close, left) := by
  have hthrows : Finishes (retried.serve fun _ => .closed) 0 ⟨"default", "wf", "run-1", none⟩
      (.error (.workflowFailed "workflow failed: boom" ""),
        ⟨"default", "wf", "run-1", none⟩) := ⟨1, rfl⟩
  refine ⟨hthrows, rfl, ?_⟩
  intro left hleft
  have heq := congrArg Prod.fst (hthrows.unique hleft)
  cases heq

end

end TemporalSdk
