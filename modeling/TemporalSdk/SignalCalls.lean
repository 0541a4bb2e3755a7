import TemporalSdk.CallAnswers
import TemporalSdk.ClientStart
import TemporalSdk.ClientResult
import TemporalSdk.Signals
import Mathlib.Data.List.Perm.Subperm

/-! Signals from workflow to workflow and from clients. Each call of `SignalExternalWorkflow` is
sent once, however the tasks of its workflow are cut, and each signal on record is received once. -/
namespace TemporalSdk
open StateTransition (Reaches)

variable {σ τ : Type}

/-- A signal on its way to a workflow. -/
structure Letter where
  workflowId : String
  signalName : String
  input : Payloads
  deriving DecidableEq, Repr

/-- The input of a letter with this address. -/
def Letter.to? (workflowId signalName : String) (l : Letter) : Option Payloads :=
  if l.workflowId = workflowId ∧ l.signalName = signalName then some l.input else none

/-- The letter a command sends. -/
def Command.letter? : Command → Option Letter
  | .signalExternalWorkflowExecution _ id name input => some ⟨id, name, input⟩
  | _ => none

/-- The letter that a call of `SignalExternalWorkflow` is about. -/
def Op.told? : Op σ → Resp σ → Option Letter
  | .signalExternalWorkflow id name input, _ => some ⟨id, name, input⟩
  | _, _ => none

namespace Progress

variable {s : Setting σ} {S : Prescan} {b b' : Progress σ} {op : Op σ} {resp : Resp σ}

/-- An operation sends the letter it is about, and no other. -/
theorem exec_letters (h : b.exec s S op = some (b', resp)) :
    b'.issued.filterMap Command.letter? =
      b.issued.filterMap Command.letter? ++ (op.told? resp).toList := by
  have hquiet : b'.issued = b.issued → op.told? resp = none →
      b'.issued.filterMap Command.letter? =
        b.issued.filterMap Command.letter? ++ (op.told? resp).toList := by
    intro hsame htold
    rw [hsame, htold, Option.toList_none, List.append_nil]
  have hissue (c : Command) : b'.issued = b.issued ++ [c] → c.letter? = op.told? resp →
      b'.issued.filterMap Command.letter? =
        b.issued.filterMap Command.letter? ++ (op.told? resp).toList := by
    intro hissued hletter
    rw [hissued, List.filterMap_append, ← hletter]
    cases hc : c.letter? <;> simp [hc]
  cases op with
  | mutableSideEffect id equals =>
    simp only [exec] at h
    split at h
    · next v _ =>
      obtain rfl : (b.mutable s.world.converter id equals v).1 = b' :=
        congrArg Prod.fst (Option.some.inj h)
      unfold Progress.mutable at hquiet hissue ⊢
      dsimp only at hquiet hissue ⊢
      split
      · next heq =>
        rw [heq] at hquiet
        exact hquiet rfl rfl
      · next heq =>
        rw [heq] at hissue
        exact hissue _ rfl rfl
    · cases h
  | cancel addr =>
    obtain ⟨c, hc, he⟩ := Option.map_eq_some_iff.mp h
    obtain rfl : c = b' := congrArg Prod.fst he
    rcases request_cases hc with rfl | ⟨cmd, rfl, hcmd⟩
    · exact hquiet rfl rfl
    · apply hissue cmd rfl
      have hrequest := hcmd.1
      cases cmd <;> first
        | rfl
        | cases hrequest
  | executeLocalActivity type input options =>
    obtain ⟨fn, -, hfn⟩ := Option.map_eq_some_iff.mp h
    cases hfn
    exact hissue _ rfl rfl
  | receive name =>
    obtain ⟨p, -, hp⟩ := Option.map_eq_some_iff.mp h
    cases hp
    exact hquiet rfl rfl
  | awaitCancellation =>
    cases h
    exact hquiet rfl rfl
  | _ =>
    simp only [exec] at h
    repeat' split at h
    all_goals
      cases h
      try first
        | exact hquiet rfl rfl
        | exact hissue _ rfl rfl

/-- Only an operation that receives moves a cursor. -/
theorem exec_signalCursor (hop : op.consumes = none) (h : b.exec s S op = some (b', resp)) :
    b'.signalCursor = b.signalCursor := by
  cases op with
  | mutableSideEffect id equals =>
    simp only [exec] at h
    split at h
    · next v _ =>
      obtain rfl : (b.mutable s.world.converter id equals v).1 = b' :=
        congrArg Prod.fst (Option.some.inj h)
      unfold Progress.mutable
      dsimp only
      split <;> rfl
    · cases h
  | cancel addr =>
    obtain ⟨c, hc, he⟩ := Option.map_eq_some_iff.mp h
    obtain rfl : c = b' := congrArg Prod.fst he
    rcases request_cases hc with rfl | ⟨cmd, rfl, -⟩ <;> rfl
  | executeLocalActivity type input options =>
    obtain ⟨fn, -, hfn⟩ := Option.map_eq_some_iff.mp h
    cases hfn
    rfl
  | receive name => cases hop
  | receiveAsync name => cases hop
  | _ =>
    simp only [exec] at h
    repeat' split at h
    all_goals
      cases h
      try rfl

def cursor (b : Progress σ) (name : String) : Nat := (b.signalCursor name).getD 0

/-- What an operation receives is the next signal in the buffer, and the cursor moves past it. -/
theorem exec_heard (h : b.exec s S op = some (b', resp)) (name : String) :
    b'.cursor name = b.cursor name + (op.heard? name resp).toList.length ∧
      ∀ p, op.heard? name resp = some p → (S.buffered name)[b.cursor name]? = some p := by
  have hquiet : op.heard? name resp = none → b'.signalCursor = b.signalCursor →
      b'.cursor name = b.cursor name + (op.heard? name resp).toList.length ∧
        ∀ p, op.heard? name resp = some p → (S.buffered name)[b.cursor name]? = some p := by
    intro hnone hsame
    rw [hnone, cursor, cursor, hsame]
    exact ⟨rfl, fun p hp => by cases hp⟩
  have hreceive (n : String) (p : Payloads) : op.consumes = some n → resp = .received p →
      b' = b.consume n → b.nextSignal S n = some p →
      b'.cursor name = b.cursor name + (op.heard? name resp).toList.length ∧
        ∀ p, op.heard? name resp = some p → (S.buffered name)[b.cursor name]? = some p := by
    rintro hop rfl rfl hnext
    by_cases hn : n = name
    · subst hn
      have hp : op.heard? n (.received p) = some p := by simp [Op.heard?, hop]
      rw [hp]
      refine ⟨by simp [cursor, consume], ?_⟩
      rintro p' hp'
      cases hp'
      obtain ⟨ps, hps, hget⟩ := Option.bind_eq_some_iff.mp hnext
      rw [Prescan.buffered, hps]
      exact hget
    · have hnone : op.heard? name (.received p) = none := by simp [Op.heard?, hop, hn]
      rw [hnone]
      refine ⟨?_, fun p hp => by cases hp⟩
      have hne : name ≠ n := fun h => hn h.symm
      simp [cursor, consume, PartialMap.insert_of_ne _ hne]
  cases hop : op.consumes with
  | none =>
    apply hquiet _ (exec_signalCursor hop h)
    cases resp <;> simp [Op.heard?, hop]
  | some n =>
    cases op with
    | receive m =>
      cases hop
      obtain ⟨p, hp, he⟩ := Option.map_eq_some_iff.mp h
      cases he
      exact hreceive n p rfl rfl rfl hp
    | receiveAsync m =>
      cases hop
      simp only [exec] at h
      split at h
      · next p hp =>
        cases h
        exact hreceive n p rfl rfl rfl hp
      · cases h
        exact hquiet rfl rfl
    | _ => cases hop

/-- What a body has sent and received so far. -/
structure Speaks (s : Setting σ) (S : Prescan) (b : Progress σ) : Prop where
  letters : b.issued.filterMap Command.letter? = s.program.log Op.told? b.trace
  cursor : ∀ name, b.cursor name = (s.program.log (Op.heard? name) b.trace).length
  heard : ∀ name, s.program.log (Op.heard? name) b.trace <+: S.buffered name

namespace Speaks

theorem start (s : Setting σ) (S : Prescan) : Speaks s S s.start where
  letters := rfl
  cursor _ := rfl
  heard _ := List.nil_prefix

theorem exec (h : Speaks s S b) (hx : b.exec s S (s.program b.trace) = some (b', resp)) :
    Speaks s S { b' with trace := b.trace ++ [resp] } := by
  constructor
  · change b'.issued.filterMap Command.letter? = _
    rw [exec_letters hx, h.letters, Program.log_concat]
  · intro name
    change b'.cursor name = _
    rw [(exec_heard hx name).1, h.cursor name, Program.log_concat, List.length_append]
  · intro name
    rw [Program.log_concat]
    cases hp : (s.program b.trace).heard? name resp with
    | none =>
      rw [Option.toList_none, List.append_nil]
      exact h.heard name
    | some p =>
      have hnext := (exec_heard hx name).2 p hp
      rw [h.cursor name] at hnext
      exact prefix_concat (h.heard name) hnext

theorem step (h : Speaks s S b) (hb : b.step s S = some b') : Speaks s S b' := by
  unfold Progress.step at hb
  split at hb
  · cases hb
  · cases ho : (s.program b.trace).outcome? with
    | some o =>
      simp only [ho] at hb
      cases hb
      exact ⟨h.letters, h.cursor, h.heard⟩
    | none =>
      simp only [ho] at hb
      obtain ⟨⟨c, resp⟩, hx, rfl⟩ := Option.map_eq_some_iff.mp hb
      exact h.exec hx

theorem reaches (h : Speaks s S b) (hr : Reaches (Progress.step s S) b b') : Speaks s S b' := by
  induction hr with
  | refl => exact h
  | tail _ hs ih => exact ih.step hs

end Speaks
end Progress

/-- The scan has every signal of a history without updates in its buffer. -/
theorem scanAll_buffered (h : History) (name : String) :
    (scanAll h).buffered name = signalsOf name h := by
  induction h using List.reverseRecOn with
  | nil => rfl
  | append_singleton h e ih =>
    rw [scanAll_concat, signalsOf_append, ← ih, Prescan.scanOne, Prescan.scanEvent_buffered,
      signalsOf_cons]
    simp [Prescan.buffered, signalsOf]

namespace Conducted

variable {fuel : Nat} {info : WorkflowInfo} {world : World σ} {fn : WorkflowFn σ}
  {evicted : Nat → Bool} {batches : List History} {r : Runner σ}

/-- The letters an execution has sent are those its body has asked for, each once and in order. -/
theorem letters (h : Conducted fuel info world fn evicted batches)
    (hr : (Runner.tasks fuel info world fn evicted batches).getLast? = some r) :
    ((Runner.tasks fuel info world fn evicted batches).flatMap Runner.commands).filterMap
      Command.letter? = r.program.log Op.told? r.trace := by
  obtain ⟨s, b, base, sent, -, -, hcar, -, hreach, hissued⟩ := h.body hr
  rw [← hissued, hcar.program, hcar.trace]
  exact ((Progress.Speaks.start s _).reaches hreach).letters

/-- What a body has received under a name are the first of the signals on record, each once and in
order. -/
theorem heard (h : Conducted fuel info world fn evicted batches)
    (hr : (Runner.tasks fuel info world fn evicted batches).getLast? = some r) (name : String) :
    r.heard name <+: signalsOf name batches.flatten := by
  obtain ⟨s, b, base, sent, -, -, hcar, -, hreach, -⟩ := h.body hr
  rw [Runner.heard, ← scanAll_buffered, hcar.program, hcar.trace]
  exact ((Progress.Speaks.start s _).reaches hreach).heard name

end Conducted

namespace WorkflowRun

variable (x : WorkflowRun τ)

def history : History := x.batches.flatten

/-- The letters it has sent. -/
def letters : List Letter :=
  ((Runner.tasks x.fuel x.info x.world x.fn x.evicted x.batches).flatMap
    Runner.commands).filterMap Command.letter?

/-- The calls of `SignalExternalWorkflow` that its body has made. -/
def told : List Letter := (x.final?.map fun r => r.program.log Op.told? r.trace).getD []

/-- What its body has received under a name. -/
def heard (name : String) : List Payloads := (x.final?.map (Runner.heard · name)).getD []

variable {x}

theorem letters_eq_told (h : x.Conducted) : x.letters = x.told := by
  cases hr : x.final? with
  | none =>
    have hnone : Runner.tasks x.fuel x.info x.world x.fn x.evicted x.batches = [] :=
      List.getLast?_eq_none_iff.mp hr
    rw [letters, told, hr, hnone]
    rfl
  | some r =>
    rw [letters, told, hr]
    exact TemporalSdk.Conducted.letters h hr

theorem heard_prefix (h : x.Conducted) (name : String) :
    x.heard name <+: signalsOf name x.history := by
  cases hr : x.final? with
  | none =>
    rw [heard, hr]
    exact List.nil_prefix
  | some r =>
    rw [heard, hr]
    exact TemporalSdk.Conducted.heard h hr name

end WorkflowRun

structure SignalWorkflowExecutionRequest where
  ns : String
  workflowId : String
  runId : Option String
  signalName : String
  input : Option Payloads
  identity : String
  requestId : String
  deriving DecidableEq, Repr

def SignalWorkflowExecutionRequest.letter (req : SignalWorkflowExecutionRequest) : Letter where
  workflowId := req.workflowId
  signalName := req.signalName
  input := req.input.getD []

/-- The request of one call of `WorkflowHandle::Signal`. -/
def WorkflowHandle.signal (handle : WorkflowHandle) (identity requestId signalName : String)
    (args : Payloads) : SignalWorkflowExecutionRequest where
  ns := handle.ns
  workflowId := handle.workflowId
  runId := if handle.runId.isEmpty then none else some handle.runId
  signalName := signalName
  input := inputOf args
  identity := identity
  requestId := requestId

/-- A call of `WorkflowHandle::Signal`, with the id that `NewUuid` gives it. -/
structure SignalCall where
  handle : WorkflowHandle
  identity : String
  requestId : String
  signalName : String
  args : Payloads

def SignalCall.request (c : SignalCall) : SignalWorkflowExecutionRequest :=
  c.handle.signal c.identity c.requestId c.signalName c.args

/-- The letter that a call of `Signal` is about. -/
def SignalCall.told (c : SignalCall) : Letter := ⟨c.handle.workflowId, c.signalName, c.args⟩

theorem SignalCall.request_letter (c : SignalCall) : c.request.letter = c.told := by
  obtain ⟨handle, identity, requestId, signalName, args⟩ := c
  cases args <;> rfl

/-- The server puts on record with a workflow what others sent to it, nothing of it twice. -/
def SignalsServed (senders : List (WorkflowRun τ)) (calls : List SignalCall)
    (x : WorkflowRun τ) : Prop :=
  ∀ name, (signalsOf name x.history).Subperm
    ((senders.flatMap WorkflowRun.letters ++ calls.map fun c => c.request.letter).filterMap
      (Letter.to? x.info.workflowId name))

/-- Signals are carried once. What a workflow has sent is what its body has told others; what a body
has heard are the first of the signals on record; and these were told, each by a call of its own. -/
structure CarriedOnce (senders : List (WorkflowRun τ)) (calls : List SignalCall)
    (x : WorkflowRun τ) : Prop where
  sent : ∀ y ∈ senders, y.letters = y.told
  heard : ∀ name, ∃ waiting, x.heard name ++ waiting = signalsOf name x.history ∧
    (x.heard name ++ waiting).Subperm
      ((senders.flatMap WorkflowRun.told ++ calls.map SignalCall.told).filterMap
        (Letter.to? x.info.workflowId name))

/-- However the tasks of the workflows are cut and whichever runners are lost, no signal is lost by
its sender, sent twice, received twice or made up. -/
theorem WorkflowRun.signals_carried_once {senders : List (WorkflowRun τ)}
    {calls : List SignalCall} {x : WorkflowRun τ} (hsenders : ∀ y ∈ senders, y.Conducted)
    (hx : x.Conducted) (hserved : SignalsServed senders calls x) :
    CarriedOnce senders calls x := by
  constructor
  · intro y hy
    exact letters_eq_told (hsenders y hy)
  · intro name
    obtain ⟨waiting, hwaiting⟩ := heard_prefix hx name
    refine ⟨waiting, hwaiting, ?_⟩
    have htold : senders.flatMap WorkflowRun.letters = senders.flatMap WorkflowRun.told :=
      List.flatMap_congr fun y hy => letters_eq_told (hsenders y hy)
    have hcalls : (calls.map fun c => c.request.letter) = calls.map SignalCall.told :=
      List.map_congr_left fun c _ => c.request_letter
    have hrecorded := hserved name
    rwa [htold, hcalls, ← hwaiting] at hrecorded

/-- A body that nudges another workflow before and after a timer. -/
def nudging : WorkflowFn Unit where
  init := ()
  body _ answers :=
    match answers with
    | [] => .signalExternalWorkflow "nudged-1" "nudge" (sevens 1)
    | [_] => .startTimer 1
    | [_, _] => .get 0
    | [_, _, _] => .signalExternalWorkflow "nudged-1" "nudge" (sevens 2)
    | _ => .finish (.returned [])

/-- Its second task is served by a runner that has replayed the first. -/
def nudgingRun : WorkflowRun Unit where
  fuel := 10
  info := { workflowId := "nudging-1", workflowType := "Nudging" }
  world := .plain .tagged
  fn := nudging
  evicted n := n == 1
  batches := [[⟨1, .workflowExecutionStarted "Nudging" [] []⟩, ⟨2, .other⟩, ⟨3, .other⟩],
    [⟨4, .other⟩, ⟨5, .signalExternalWorkflowExecutionInitiated "nudged-1"⟩,
      ⟨6, .timerStarted "t0"⟩, ⟨7, .timerFired "t0"⟩, ⟨8, .other⟩, ⟨9, .other⟩]]

/-- A body that is nudged three times, the last time by a client. -/
def beingNudged : WorkflowFn Unit where
  init := ()
  body _ answers :=
    match answers with
    | [_, _, _] => .finish (.returned [])
    | _ => .receive "nudge"

def nudgedRun : WorkflowRun Unit where
  fuel := 10
  info := { workflowId := "nudged-1", workflowType := "Nudged" }
  world := .plain .tagged
  fn := beingNudged
  evicted n := n == 1
  batches := [[⟨1, .workflowExecutionStarted "Nudged" [] []⟩,
      ⟨2, .workflowExecutionSignaled "nudge" (sevens 1)⟩, ⟨3, .other⟩, ⟨4, .other⟩],
    [⟨5, .other⟩, ⟨6, .workflowExecutionSignaled "nudge" (sevens 3)⟩,
      ⟨7, .workflowExecutionSignaled "nudge" (sevens 2)⟩, ⟨8, .other⟩, ⟨9, .other⟩]]

def nudge : SignalCall where
  handle := ⟨"default", "nudged-1", "", none⟩
  identity := "1@host"
  requestId := "0"
  signalName := "nudge"
  args := sevens 3

theorem nudging_waiting (input : Payloads) (answers : List (Resp Unit)) :
    ((Runner.chain (.plain .tagged) nudging).body input answers).Waiting (.plain .tagged) := by
  change ((nudging.body input answers).Waiting _)
  unfold nudging
  dsimp only
  split <;> exact ⟨trivial, rfl⟩

theorem beingNudged_waiting (input : Payloads) (answers : List (Resp Unit)) :
    ((Runner.chain (.plain .tagged) beingNudged).body input answers).Waiting
      (.plain .tagged) := by
  change ((beingNudged.body input answers).Waiting _)
  unfold beingNudged
  dsimp only
  split <;> exact ⟨trivial, rfl⟩

theorem nudging_conducted : nudgingRun.Conducted := by
  have hreports : (Runner.tasks 10 nudgingRun.info (.plain .tagged) nudging (fun n => n == 1)
      nudgingRun.batches).map Runner.report =
      [([.signalExternalWorkflowExecutionInitiated "nudged-1", .timerStarted "t0"], none, false),
        ([.signalExternalWorkflowExecutionInitiated "nudged-1"],
          some (.completeWorkflowExecution []), false)] := by
    decide +kernel
  have hserved : Served nudgingRun.batches.flatten :=
    ⟨by decide +kernel, by decide +kernel, by decide +kernel, by decide +kernel⟩
  exact .of_waiting nudging_waiting DataConverter.tagged_roundTrips hserved (by decide +kernel)
    (by decide +kernel) (.of_reports hreports (by decide +kernel) (by decide +kernel))
    (Runner.live_of_reports hreports (by decide +kernel))

theorem nudged_conducted : nudgedRun.Conducted := by
  have hreports : (Runner.tasks 10 nudgedRun.info (.plain .tagged) beingNudged (fun n => n == 1)
      nudgedRun.batches).map Runner.report =
      [([], none, false), ([], some (.completeWorkflowExecution []), false)] := by
    decide +kernel
  have hserved : Served nudgedRun.batches.flatten :=
    ⟨by decide +kernel, by decide +kernel, by decide +kernel, by decide +kernel⟩
  exact .of_waiting beingNudged_waiting DataConverter.tagged_roundTrips hserved
    (by decide +kernel) (by decide +kernel)
    (.of_reports hreports (by decide +kernel) (by decide +kernel))
    (Runner.live_of_reports hreports (by decide +kernel))

theorem nudges_served : SignalsServed [nudgingRun] [nudge] nudgedRun := by
  have hletters : nudgingRun.letters =
      [⟨"nudged-1", "nudge", sevens 1⟩, ⟨"nudged-1", "nudge", sevens 2⟩] := by
    decide +kernel
  intro name
  have hsent : ([nudgingRun].flatMap WorkflowRun.letters ++
      [nudge].map fun c => c.request.letter) = [⟨"nudged-1", "nudge", sevens 1⟩,
        ⟨"nudged-1", "nudge", sevens 2⟩, ⟨"nudged-1", "nudge", sevens 3⟩] := by
    rw [List.flatMap_singleton, hletters]
    rfl
  rw [hsent]
  by_cases hname : name = "nudge"
  · subst hname
    decide +kernel
  · have hnone : signalsOf name nudgedRun.history = [] := by
      have hne : ¬ "nudge" = name := fun h => hname h.symm
      simp [signalsOf, WorkflowRun.history, nudgedRun, HistoryEvent.signal?, hne]
    rw [hnone]
    exact List.nil_subperm

theorem nudges_carried_once : CarriedOnce [nudgingRun] [nudge] nudgedRun := by
  apply WorkflowRun.signals_carried_once _ nudged_conducted nudges_served
  intro y hy
  rw [List.mem_singleton.mp hy]
  exact nudging_conducted

end TemporalSdk
