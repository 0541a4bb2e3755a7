import TemporalSdk.Eviction
import TemporalSdk.RunServer

/-! Queries that nobody notices. A query handler shares its runner with the body, so it can change
what the workflow does next; one that only reads does not, and the worker answers everything else as
if it had never been asked. -/
namespace TemporalSdk

variable {σ : Type}

namespace Op

/-- The operations that leave the runner as it is. -/
def reads : Op σ → Bool
  | .get _ | .isReady _ | .hasPending _ | .select .. | .isCancelled | .getInfo | .isReplaying
  | .readStore | .finish _ => true
  | _ => false

/-- The query handlers that the operation registers only read, and so do those registered by the
update handlers and validators it registers. -/
def RegistersReaders : Op σ → Prop
  | .setQueryHandler _ h => ∀ args answers, (h args answers).reads = true
  | .setUpdateHandler _ h => ∀ args answers, (h args answers).RegistersReaders
  | .setUpdateValidator _ v => ∀ args answers, (v args answers).RegistersReaders
  | _ => True

/-- The operations that register a handler. -/
def registers : Op σ → Bool
  | .setQueryHandler .. | .setUpdateHandler .. | .setUpdateValidator .. => true
  | _ => false

end Op

namespace Runner

/-- What a runner has registered. -/
structure Handlers (σ : Type) where
  queryHandlers : PartialMap String (Handler σ)
  updateHandlers : PartialMap String (Handler σ)
  updateValidators : PartialMap String (Handler σ)

def handlers (r : Runner σ) : Handlers σ :=
  ⟨r.queryHandlers, r.updateHandlers, r.updateValidators⟩

section Registering

variable (r : Runner σ)

theorem openOperation_handlers (op : FutureOp) (id : String) (outcome : Option OpOutcome)
    (c : Command) : (r.openOperation op id outcome c).handlers = r.handlers := by
  unfold openOperation
  split <;> rfl

theorem requestCancelExternal_handlers (id : String) (childOnly : Bool) :
    (r.requestCancelExternal id childOnly).handlers = r.handlers := by
  unfold requestCancelExternal
  dsimp only
  split <;> rfl

theorem cancel_handlers (addr : Nat) : (r.cancel addr).handlers = r.handlers := by
  unfold cancel requestCancelExternal
  dsimp only
  repeat' split
  all_goals rfl

theorem tryConsumeSignal_handlers {name : String} {r' : Runner σ} {p : Payloads}
    (h : r.tryConsumeSignal name = some (r', p)) : r'.handlers = r.handlers := by
  simp only [tryConsumeSignal] at h
  repeat' split at h
  all_goals cases h
  rfl

theorem mutableSideEffect_handlers (id : String) (equals : Value → Value → Bool) :
    (r.mutableSideEffect id equals).1.handlers = r.handlers := by
  unfold mutableSideEffect
  dsimp only
  repeat' split
  all_goals rfl

/-- Only the three operations that register a handler do so. -/
theorem exec_handlers {op : Op σ} (ho : op.registers = false) {r' : Runner σ} {resp : Resp σ}
    (h : r.exec op = some (r', resp)) : r'.handlers = r.handlers := by
  cases op with
  | scheduleActivity type input options => cases h; exact openOperation_handlers _ ..
  | startTimer duration =>
    cases h
    unfold startTimer
    dsimp only
    split <;> rfl
  | startChildWorkflow type input options => cases h; exact openOperation_handlers _ ..
  | scheduleNexusOperation e s o i close => cases h; exact openOperation_handlers _ ..
  | cancel addr => cases h; exact r.cancel_handlers addr
  | cancelExternalWorkflow id => cases h; exact r.requestCancelExternal_handlers id false
  | signalExternalWorkflow id name input =>
    cases h
    unfold signalExternalWorkflow
    dsimp only
    split <;> rfl
  | upsertSearchAttributes attributes =>
    cases h
    unfold upsertSearchAttributes
    dsimp only
    split <;> rfl
  | get addr =>
    simp only [exec, Option.ite_none_right_eq_some, Option.some.injEq, Prod.mk.injEq] at h
    rw [← h.2.1]
  | receive name =>
    obtain ⟨⟨q, p⟩, hx, he⟩ := Option.map_eq_some_iff.mp h
    cases he
    exact r.tryConsumeSignal_handlers hx
  | receiveAsync name =>
    simp only [exec] at h
    split at h
    · next hc => cases h; exact r.tryConsumeSignal_handlers hc
    · cases h; rfl
  | select cases hasDefault =>
    simp only [exec] at h
    repeat' split at h
    all_goals cases h
    all_goals rfl
  | awaitCancellation =>
    cases h
    unfold awaitCancellation
    split <;> rfl
  | sideEffect =>
    simp only [exec, sideEffect, Option.some.injEq] at h
    repeat' split at h
    all_goals cases h
    all_goals rfl
  | mutableSideEffect id equals =>
    have hmut := r.mutableSideEffect_handlers id equals
    rw [Option.some.inj h] at hmut
    exact hmut
  | getVersion id lo hi =>
    simp only [exec, getVersion, Option.some.injEq] at h
    repeat' split at h
    all_goals cases h
    all_goals rfl
  | executeLocalActivity type input options =>
    simp only [exec, executeLocalActivity, Option.some.injEq] at h
    repeat' split at h
    all_goals cases h
    all_goals rfl
  | setQueryHandler name h => cases ho
  | setUpdateHandler name h => cases ho
  | setUpdateValidator name h => cases ho
  | finish outcome => cases h
  | _ => cases h; rfl

/-- An operation that only reads leaves the runner as it is. -/
theorem exec_of_reads {op : Op σ} (ho : op.reads = true) {r' : Runner σ} {resp : Resp σ}
    (h : r.exec op = some (r', resp)) : r' = r := by
  cases op with
  | get addr =>
    simp only [exec, Option.ite_none_right_eq_some, Option.some.injEq, Prod.mk.injEq] at h
    exact h.2.1.symm
  | select cases hasDefault =>
    simp only [exec] at h
    repeat' split at h
    all_goals cases h
    all_goals rfl
  | finish outcome => cases h
  | isReady addr => cases h; rfl
  | hasPending name => cases h; rfl
  | isCancelled => cases h; rfl
  | getInfo => cases h; rfl
  | isReplaying => cases h; rfl
  | readStore => cases h; rfl
  | _ => cases ho

theorem runHandler_of_reads {handler : Program σ} (hh : ∀ answers, (handler answers).reads = true)
    {fuel : Nat} {answers : List (Resp σ)} {r' : Runner σ} {o : Outcome}
    (h : runHandler handler fuel r answers = some (r', o)) : r' = r := by
  induction fuel generalizing answers with
  | zero => cases h
  | succ fuel ih =>
    unfold runHandler at h
    split at h
    · cases h
      rfl
    · split at h
      · next q resp hx =>
        rw [r.exec_of_reads (hh answers) hx] at h
        exact ih h
      · cases h

end Registering

/-- Every query handler the runner has, or can come to have, only reads. -/
structure Reading (r : Runner σ) : Prop where
  program : ∀ answers, (r.program answers).RegistersReaders
  queries : ∀ name h, r.queryHandlers name = some h → ∀ args answers, (h args answers).reads = true
  updates : ∀ name h, r.updateHandlers name = some h →
    ∀ args answers, (h args answers).RegistersReaders
  validators : ∀ name v, r.updateValidators name = some v →
    ∀ args answers, (v args answers).RegistersReaders

namespace Reading

variable {r r' : Runner σ}

/-- Only the code and the registered handlers matter. -/
theorem congr (h : r.Reading) (hp : r'.program = r.program) (hh : r'.handlers = r.handlers) :
    r'.Reading where
  program := hp ▸ h.program
  queries := by
    have hq : r'.queryHandlers = r.queryHandlers := congrArg Handlers.queryHandlers hh
    exact hq ▸ h.queries
  updates := by
    have hu : r'.updateHandlers = r.updateHandlers := congrArg Handlers.updateHandlers hh
    exact hu ▸ h.updates
  validators := by
    have hv : r'.updateValidators = r.updateValidators := congrArg Handlers.updateValidators hh
    exact hv ▸ h.validators

theorem exec (h : r.Reading) {op : Op σ} (ho : op.RegistersReaders) {resp : Resp σ}
    (hx : r.exec op = some (r', resp)) : r'.Reading := by
  have hframe := r.exec_frame hx
  have hprogram : r'.program = r.program := by
    rw [Runner.program, Runner.program, hframe.world, hframe.workflowFn, hframe.input]
  cases hreg : op.registers with
  | false => exact h.congr hprogram (r.exec_handlers hreg hx)
  | true =>
    cases op with
    | setQueryHandler name f =>
      cases hx
      exact { h with queries := PartialMap.forall_insert h.queries name ho }
    | setUpdateHandler name f =>
      cases hx
      exact { h with updates := PartialMap.forall_insert h.updates name ho }
    | setUpdateValidator name v =>
      cases hx
      exact { h with validators := PartialMap.forall_insert h.validators name ho }
    | _ => cases hreg

theorem step (h : r.Reading) (hs : r.step = some r') : r'.Reading := by
  unfold Runner.step at hs
  split at hs
  · cases hs
  · split at hs
    · next o _ =>
      cases hs
      cases o <;> exact h.congr rfl rfl
    · obtain ⟨⟨q, resp⟩, hx, rfl⟩ := Option.map_eq_some_iff.mp hs
      exact (h.exec (h.program _) hx).congr rfl rfl

theorem resumeCoroutine (h : r.Reading) (fuel : Nat) : (r.resumeCoroutine fuel).Reading := by
  unfold Runner.resumeCoroutine
  split
  · next r' hr => exact Parking.runFor_preserves (fun _ _ hs hq => hq.step hs) hr h
  · exact h.congr rfl rfl

theorem runHandler (h : r.Reading) {handler : Program σ}
    (hh : ∀ answers, (handler answers).RegistersReaders) {fuel : Nat} {answers : List (Resp σ)}
    {o : Outcome} (hr : Runner.runHandler handler fuel r answers = some (r', o)) :
    r'.Reading := by
  induction fuel generalizing r answers with
  | zero => cases hr
  | succ fuel ih =>
    unfold Runner.runHandler at hr
    split at hr
    · cases hr
      exact h
    · split at hr
      · next q resp hx => exact ih (h.exec (hh answers) hx) hr
      · cases hr

theorem invoke (h : r.Reading) (fuel : Nat) {handler : Program σ}
    (hh : ∀ answers, (handler answers).RegistersReaders) : (r.invoke fuel handler).1.Reading := by
  unfold Runner.invoke
  split
  · exact h.congr rfl rfl
  · next hr => exact h.runHandler hh hr

theorem applyEventToState (h : r.Reading) (ev : HistoryEvent) :
    (r.applyEventToState ev).Reading := by
  obtain ⟨scan, futures, he⟩ := r.applyEventToState_touches ev
  rw [he]
  exact h.congr rfl rfl

theorem reapplyUpdate (h : r.Reading) (fuel : Nat) (name : String) (args : Payloads) :
    (r.reapplyUpdate fuel name args).Reading := by
  unfold Runner.reapplyUpdate
  split
  · exact h
  · next f hf =>
    split
    · exact h.congr rfl rfl
    · next q o hr =>
      have hq := h.runHandler (h.updates name f hf args) hr
      split
      · exact hq.congr rfl rfl
      · exact hq

theorem reapplyStep (h : r.Reading) (fuel : Nat) (s : ReplayStep) :
    (Runner.reapplyStep fuel r s).Reading := by
  have hresume (q : Runner σ) (hq : q.Reading) :
      (if q.halted then q else q.resumeCoroutine fuel).Reading := by
    split
    · exact hq
    · exact hq.resumeCoroutine fuel
  unfold Runner.reapplyStep
  split
  · exact h
  · cases s with
    | update name args => exact hresume _ (h.reapplyUpdate fuel name args)
    | event ev => exact hresume _ (h.applyEventToState ev)

theorem run (h : r.Reading) (fuel : Nat) : (r.run fuel).Reading := by
  have hstart : ({ r with commands := [], producedCommands := [], started := true } :
      Runner σ).Reading := h.congr rfl rfl
  have hfirst := hstart.resumeCoroutine fuel
  unfold Runner.run Runner.reapplyHistoricalUpdates
  generalize Runner.resumeCoroutine fuel _ = q at hfirst
  generalize q.scan.postUpdateTimeline = steps
  induction steps generalizing q with
  | nil => exact hfirst
  | cons s steps ih => exact ih _ (hfirst.reapplyStep fuel s)

theorem applyAndResume (h : r.Reading) (fuel : Nat) (events : History) :
    (r.applyAndResume fuel events).Reading := by
  have hstart : ({ r with commands := [], producedCommands := [] } : Runner σ).Reading :=
    h.congr rfl rfl
  have happlied : (({ r with commands := [], producedCommands := [] } :
      Runner σ).applyEvents events).Reading := by
    obtain ⟨scan, futures, he⟩ := Runner.applyEvents_touches _ events
    rw [he]
    exact hstart.congr rfl rfl
  unfold Runner.applyAndResume
  dsimp only
  split
  · exact happlied.resumeCoroutine fuel
  · exact happlied

/-- An update request runs nothing but what is registered. -/
theorem processMessage (h : r.Reading) (fuel : Nat) (identity : String) (msg : TaskMessage) :
    (r.processMessage fuel identity msg).1.Reading := by
  unfold Runner.processMessage
  split
  · exact h
  · next u _ =>
    have hvalid : (r.validateUpdate fuel u).1.Reading := by
      unfold Runner.validateUpdate
      split
      · exact h
      · next v hv => exact h.invoke fuel (h.validators _ v hv u.args)
    dsimp only
    generalize r.validateUpdate fuel u = x at hvalid
    obtain ⟨r₁, exit⟩ := x
    have hupdate : (r₁.runUpdate fuel u).1.Reading := by
      unfold Runner.runUpdate
      split
      · exact hvalid
      · next f hf => exact hvalid.invoke fuel (hvalid.updates _ f hf u.args)
    cases exit with
    | returned result =>
      dsimp only
      generalize r₁.runUpdate fuel u = y at hupdate
      obtain ⟨r₂, exit'⟩ := y
      cases exit' <;> exact hupdate
    | threw what => exact hvalid
    | escaped => exact hvalid
    | hung => exact hvalid

theorem processMessages (h : r.Reading) (fuel : Nat) (identity : String)
    (msgs : List TaskMessage) : (r.processMessages fuel identity msgs).1.Reading := by
  induction msgs generalizing r with
  | nil => exact h
  | cons msg msgs ih =>
    have hone := h.processMessage fuel identity msg
    unfold Runner.processMessages
    generalize r.processMessage fuel identity msg = x at hone
    obtain ⟨r₁, replies, _ | exit⟩ := x
    · exact ih hone
    · exact hone

/-- A query that comes back has changed nothing. -/
theorem answerQuery (h : r.Reading) (fuel : Nat) (q : WorkflowQuery)
    (hback : (r.answerQuery fuel q).2 ≠ .error .hung) : (r.answerQuery fuel q).1 = r := by
  unfold Runner.answerQuery Runner.runQuery at hback ⊢
  by_cases hd : r.isDone = true
  · rw [if_pos hd]
  · rw [if_neg hd] at hback ⊢
    cases hq : r.queryHandlers q.queryType with
    | none => rfl
    | some f =>
      simp only [hq, Runner.invoke] at hback ⊢
      cases hrun : Runner.runHandler (f q.queryArgs) fuel r [] with
      | none =>
        rw [hrun] at hback
        exact absurd rfl hback
      | some x =>
        obtain ⟨r', o⟩ := x
        rw [r.runHandler_of_reads (h.queries _ f hq q.queryArgs) hrun]
        dsimp only
        cases handlerExit o <;> rfl

theorem answerQueries (h : r.Reading) (fuel : Nat) (qs : List (String × WorkflowQuery))
    (hback : ∀ exit, (r.answerQueries fuel qs).2 ≠ .error exit) :
    (r.answerQueries fuel qs).1 = r := by
  induction qs with
  | nil => rfl
  | cons x qs ih =>
    obtain ⟨id, q⟩ := x
    have hone := h.answerQuery fuel q
    unfold Runner.answerQueries at hback ⊢
    generalize r.answerQuery fuel q = answered at hone hback
    obtain ⟨r₁, exit | result⟩ := answered
    case error => exact absurd rfl (hback exit)
    obtain rfl : r₁ = r := hone fun he => by cases he
    dsimp only at hback ⊢
    generalize hrest : r₁.answerQueries fuel qs = rest at ih hback
    obtain ⟨r₂, exit | results⟩ := rest
    case error => exact absurd rfl (hback exit)
    exact ih fun exit he => by cases he

end Reading
end Runner

theorem Op.registersReaders_of_reads {op : Op σ} (h : op.reads = true) : op.RegistersReaders := by
  cases op with
  | setQueryHandler name f => cases h
  | setUpdateHandler name f => cases h
  | setUpdateValidator name v => cases h
  | _ => trivial

/-- The call has come back to the poll loop. -/
def Exit.isBack : Exit → Bool
  | .returned | .rpc _ => true
  | .escaped | .hung => false

namespace Runner

variable {r : Runner σ} {fuel : Nat}

theorem Reading.afterQuery (h : r.Reading) (fuel : Nat) (q : WorkflowQuery) :
    (r.answerQuery fuel q).1.Reading := by
  have hrun : (r.runQuery fuel q).1.Reading := by
    unfold Runner.runQuery
    split
    · exact h
    · next f hf =>
      exact h.invoke fuel fun answers =>
        Op.registersReaders_of_reads (h.queries _ f hf q.queryArgs answers)
  unfold Runner.answerQuery
  split
  · exact h
  · generalize r.runQuery fuel q = x at hrun
    obtain ⟨r', exit⟩ := x
    cases exit <;> exact hrun

theorem Reading.afterQueries (h : r.Reading) (qs : List (String × WorkflowQuery)) :
    (r.answerQueries fuel qs).1.Reading := by
  induction qs generalizing r with
  | nil => exact h
  | cons x qs ih =>
    have hone := h.afterQuery fuel x.2
    unfold Runner.answerQueries
    generalize r.answerQuery fuel x.2 = answered at hone
    obtain ⟨r₁, exit | result⟩ := answered
    case error => exact hone
    have hrest := ih hone
    dsimp only
    generalize r₁.answerQueries fuel qs = rest at hrest
    obtain ⟨r₂, exit | results⟩ := rest
    case error => exact hrest
    case ok => exact hrest

/-- A query fails the call only by not coming back. -/
theorem answerQuery_error (fuel : Nat) (q : WorkflowQuery) (exit : Exit)
    (h : (r.answerQuery fuel q).2 = .error exit) : exit.isBack = false := by
  unfold answerQuery at h
  split at h
  · cases h
  · generalize r.runQuery fuel q = x at h
    obtain ⟨r', exit'⟩ := x
    cases exit' <;> cases h <;> rfl

theorem answerQueries_error {qs : List (String × WorkflowQuery)} {exit : Exit}
    (h : (r.answerQueries fuel qs).2 = .error exit) : exit.isBack = false := by
  induction qs generalizing r with
  | nil => cases h
  | cons x qs ih =>
    have hone := r.answerQuery_error fuel x.2 exit
    unfold answerQueries at h
    generalize r.answerQuery fuel x.2 = answered at h hone
    obtain ⟨r₁, exit' | result⟩ := answered
    case error => exact hone (congrArg Except.error (Except.error.inj h))
    dsimp only at h
    have hrest := ih (r := r₁)
    generalize r₁.answerQueries fuel qs = rest at h hrest
    obtain ⟨r₂, exit' | results⟩ := rest
    case error => exact hrest (congrArg Except.error (Except.error.inj h))
    case ok => cases h

end Runner

/-- A response but for the results of embedded queries. -/
def Response.withoutResults : Response → Response
  | .workflowTaskCompleted req => .workflowTaskCompleted { req with queryResults := [] }
  | resp => resp

/-- What is served but for the results of embedded queries. -/
def RunServed.withoutResults (x : RunServed σ) : RunServed σ :=
  { x with sent := x.sent.map Response.withoutResults }

/-- A task but for its embedded queries. -/
def WorkflowTask.withoutQueries (task : WorkflowTask) : WorkflowTask := { task with queries := [] }

/-- The server takes a response with or without query results. -/
def Remote.IgnoresResults (remote : Remote) : Prop :=
  ∀ resp, remote.respond resp.withoutResults = remote.respond resp

namespace TaskHandler

variable {h : TaskHandler σ} {remote : Remote} {task : WorkflowTask}
  {resident : Option (Runner σ)}

/-- The query handlers of every registered workflow only read. -/
def RegistersReaders (h : TaskHandler σ) : Prop :=
  ∀ type fn, h.workflows type = some fn →
    ∀ input answers, ((Runner.chain h.world fn).body input answers).RegistersReaders

theorem serveCompletion_reading {r r' : Runner σ} (hr : r.Reading)
    (hmem : r' ∈ (h.serveCompletion remote task r).resident) : r'.Reading := by
  have hm := hr.processMessages h.fuel h.identity task.messages
  rcases mem_serveCompletion hmem with rfl | rfl
  · exact hm
  · exact hm.afterQueries task.queries

theorem serve_reading (hreads : h.RegistersReaders) (hres : ∀ r ∈ resident, r.Reading) :
    ∀ r ∈ (h.serve remote resident task).resident, r.Reading := by
  intro r hr
  rcases mem_serve hr with hr | ⟨q, r₀, hr₀, -, rfl⟩ | ⟨fn, events, r₀, hfn, -, -, hr₀, hr⟩
  · exact hres r hr
  · exact (hres r₀ hr₀).afterQuery _ q
  · refine serveCompletion_reading ?_ hr
    rcases hr₀ with rfl | ⟨r₁, hr₁, -, rfl⟩
    · apply Runner.Reading.run
      exact ⟨fun answers => hreads _ fn hfn _ answers, nofun, nofun, nofun⟩
    · exact (hres r₁ hr₁).applyAndResume h.fuel events

theorem settle_withoutResults {resp : Response} (hresp : resp.withoutResults = resp) :
    (settle remote resident resp).withoutResults = settle remote resident resp := by
  unfold settle RunServed.withoutResults
  cases remote.respond resp <;> simp [hresp]

theorem serveQuery_resident {r : Runner σ} (hr : r.Reading) {q : WorkflowQuery}
    {keep : Runner σ → Option (Runner σ)}
    (hback : (h.serveQuery remote task q keep r).exit.isBack = true) :
    (h.serveQuery remote task q keep r).resident = keep r := by
  have hsame := hr.answerQuery h.fuel q
  have herror : ∀ exit, (r.answerQuery h.fuel q).2 = .error exit → exit.isBack = false :=
    fun _ => Runner.answerQuery_error _ _ _
  unfold serveQuery at hback ⊢
  generalize r.answerQuery h.fuel q = answered at hback hsame herror
  obtain ⟨r', exit | result⟩ := answered
  case error =>
    cases (herror exit rfl).symm.trans hback
  obtain rfl : r' = r := hsame nofun
  exact settle_resident _

/-- A direct query that comes back leaves the run as it was. -/
theorem serve_query {q : WorkflowQuery} (hq : task.query = some q)
    (hres : ∀ r ∈ resident, r.Reading)
    (hback : (h.serve remote resident task).exit.isBack = true) :
    (h.serve remote resident task).resident = resident := by
  revert hback
  unfold serve
  cases h.workflows task.workflowType with
  | none => exact fun _ => settle_resident _
  | some fn =>
  cases assembleHistory remote.stub h.ns task.workflowId task.runId remote.pageFuel task.page with
  | none => exact fun _ => rfl
  | some x =>
  cases x with
  | error e => exact fun _ => rfl
  | ok events =>
    dsimp only [serveEvents]
    rw [hq]
    cases hfit : fitting resident events (some q).isSome with
    | some r =>
      have hr := mem_of_fitting hfit
      intro hback
      exact (serveQuery_resident (hres r hr) hback).trans hr.symm
    | none =>
      intro _
      dsimp only
      split
      · rfl
      · exact settle_resident _
      · unfold serveQuery
        split
        · rfl
        · exact settle_resident _

/-- Embedded queries that come back add their results to the answer and do nothing else. -/
theorem serveCompletion_withoutQueries {r : Runner σ} (hr : r.Reading)
    (hignore : remote.IgnoresResults)
    (hback : task.queries ≠ [] → (h.serveCompletion remote task r).exit.isBack = true) :
    h.serveCompletion remote task.withoutQueries r =
      (h.serveCompletion remote task r).withoutResults := by
  have hm := hr.processMessages h.fuel h.identity task.messages
  unfold serveCompletion at hback ⊢
  dsimp only [WorkflowTask.withoutQueries]
  generalize r.processMessages h.fuel h.identity task.messages = processed at hm hback
  obtain ⟨r₁, messages, _ | exit⟩ := processed
  case some => rfl
  dsimp only at hm hback ⊢
  have hsame := hm.answerQueries h.fuel task.queries
  have herror : ∀ exit, (r₁.answerQueries h.fuel task.queries).2 = .error exit →
      exit.isBack = false := fun _ => Runner.answerQueries_error
  have hnone : task.queries = [] → (r₁.answerQueries h.fuel task.queries).2 = .ok [] :=
    fun he => by rw [he]; rfl
  generalize r₁.answerQueries h.fuel task.queries = answered at hback hsame herror hnone
  obtain ⟨r₂, exit | results⟩ := answered
  case error =>
    by_cases he : task.queries = []
    · cases hnone he
    · cases (herror exit rfl).symm.trans (hback he)
  obtain rfl : r₂ = r₁ := hsame nofun
  have hrespond := hignore (.workflowTaskCompleted
    { taskToken := task.taskToken
      identity := h.identity
      sticky := h.stickyAttributes
      commands := r.commands ++ r₂.terminalCommand.toList
      messages := messages
      queryResults := results })
  dsimp only [Response.withoutResults] at hrespond
  dsimp only [Runner.answerQueries]
  rw [hrespond]
  cases remote.respond _ <;> rfl

theorem mismatchFailure_withoutResults (task : WorkflowTask) (mismatch : String) :
    (h.mismatchFailure task mismatch).withoutResults = h.mismatchFailure task mismatch := by
  unfold mismatchFailure
  cases h.panicPolicy <;> rfl

theorem serveReplay_withoutQueries {fn : WorkflowFn σ} {events : History}
    (hfn : ∀ input answers, ((Runner.chain h.world fn).body input answers).RegistersReaders)
    (hignore : remote.IgnoresResults)
    (hback : task.queries ≠ [] →
      (h.serveReplay remote resident fn task events).exit.isBack = true) :
    h.serveReplay remote resident fn task.withoutQueries events =
      (h.serveReplay remote resident fn task events).withoutResults := by
  have hr : (h.replayed fn task events).Reading := by
    apply Runner.Reading.run
    exact ⟨fun answers => hfn _ answers, nofun, nofun, nofun⟩
  have hsame : h.replayed fn task.withoutQueries events = h.replayed fn task events := rfl
  revert hback
  unfold serveReplay
  dsimp only
  rw [hsame]
  generalize h.replayed fn task events = r at hr
  split
  · exact fun _ => (settle_withoutResults rfl).symm
  · split
    · exact fun _ => rfl
    · split
      · exact fun _ => rfl
      · split
        · exact fun _ => (settle_withoutResults (mismatchFailure_withoutResults task _)).symm
        · exact serveCompletion_withoutQueries hr hignore

/-- A task is served alike with its embedded queries and without. -/
theorem serve_withoutQueries (hreads : h.RegistersReaders) (hq : task.query = none)
    (hres : ∀ r ∈ resident, r.Reading) (hignore : remote.IgnoresResults)
    (hback : task.queries ≠ [] → (h.serve remote resident task).exit.isBack = true) :
    h.serve remote resident task.withoutQueries =
      (h.serve remote resident task).withoutResults := by
  revert hback
  unfold serve
  dsimp only [WorkflowTask.withoutQueries]
  cases hfn : h.workflows task.workflowType with
  | none => exact fun _ => (settle_withoutResults rfl).symm
  | some fn =>
  cases assembleHistory remote.stub h.ns task.workflowId task.runId remote.pageFuel task.page with
  | none => exact fun _ => rfl
  | some x =>
  cases x with
  | error e => exact fun _ => rfl
  | ok events =>
    dsimp only [serveEvents]
    rw [hq]
    cases hfit : fitting resident events (none : Option WorkflowQuery).isSome with
    | some r =>
      have hr := (hres r (mem_of_fitting hfit)).applyAndResume h.fuel events
      dsimp only [serveContinuation]
      generalize r.applyAndResume h.fuel events = r' at hr
      split
      · exact fun _ => (settle_withoutResults rfl).symm
      · exact serveCompletion_withoutQueries hr hignore
    | none =>
      dsimp only
      split
      · exact serveReplay_withoutQueries (hreads _ fn hfn) hignore
      · exact fun _ => (settle_withoutResults rfl).symm

/-- Two states of a worker with an unbounded cache that hold the same runners, which only read when
they are queried. -/
structure Twins (s s' : HandlerState σ) : Prop where
  left : s.Sound
  right : s'.Sound
  unbounded : s.cache.capacity = 0 ∧ s'.cache.capacity = 0
  same : ∀ run, s.resident run = s'.resident run
  reading : ∀ run, ∀ r ∈ s.resident run, r.Reading

namespace Twins

variable {s s' : HandlerState σ}

/-- What a call does to an unbounded cache, it does to its own run. -/
theorem others (hs : s.Sound) (hc : s.cache.capacity = 0) {k : String} (hk : k ≠ task.runId) :
    (h.handle remote s task).state.resident k = s.resident k :=
  ((h.handle_refines remote task hs).others.resident k hk).resolve_right fun hn => hn.1 hc

theorem capacity (hs : s.Sound) (hc : s.cache.capacity = 0) :
    (h.handle remote s task).state.cache.capacity = 0 :=
  (h.handle_refines remote task hs).others.capacity.trans hc

/-- After a direct query on one side the sides still agree. -/
theorem query (ht : Twins s s') {q : WorkflowQuery} (hq : task.query = some q)
    (hback : (h.handle remote s task).exit.isBack = true) :
    Twins (h.handle remote s task).state s' := by
  have href := h.handle_refines remote task ht.left
  have hsame : ∀ run, (h.handle remote s task).state.resident run = s.resident run := by
    intro run
    by_cases hrun : run = task.runId
    · rw [hrun, href.resident]
      apply serve_query hq (ht.reading task.runId)
      rw [← href.exit]
      exact hback
    · exact others ht.left ht.unbounded.1 hrun
  exact
    { left := handle_sound _ _ ht.left
      right := ht.right
      unbounded := ⟨capacity ht.left ht.unbounded.1, ht.unbounded.2⟩
      same := fun run => (hsame run).trans (ht.same run)
      reading := fun run => by
        rw [hsame run]
        exact ht.reading run }

/-- Any other task is answered alike on both sides, but for its embedded queries. -/
theorem other (hreads : h.RegistersReaders) (ht : Twins s s') (hq : task.query = none)
    (hignore : remote.IgnoresResults)
    (hback : task.queries ≠ [] → (h.handle remote s task).exit.isBack = true) :
    Twins (h.handle remote s task).state (h.handle remote s' task.withoutQueries).state ∧
      (h.handle remote s' task.withoutQueries).sent =
        (h.handle remote s task).sent.map Response.withoutResults ∧
      (h.handle remote s' task.withoutQueries).exit = (h.handle remote s task).exit := by
  have href := h.handle_refines remote task ht.left
  have href' := h.handle_refines remote task.withoutQueries ht.right
  rw [href.exit] at hback
  have hserve := serve_withoutQueries hreads hq (ht.reading task.runId) hignore hback
  have hrun : task.withoutQueries.runId = task.runId := rfl
  rw [hrun, ← ht.same, hserve] at href'
  have hresident (run : String) : (h.handle remote s task).state.resident run =
      (h.handle remote s' task.withoutQueries).state.resident run := by
    by_cases hk : run = task.runId
    · rw [hk, href.resident, href'.resident]
      rfl
    · have hk' : run ≠ task.withoutQueries.runId := hk
      rw [others ht.left ht.unbounded.1 hk, others ht.right ht.unbounded.2 hk']
      exact ht.same run
  refine ⟨⟨handle_sound _ _ ht.left, handle_sound _ _ ht.right, ⟨capacity ht.left ht.unbounded.1,
    capacity ht.right ht.unbounded.2⟩, hresident, fun run => ?_⟩, ?_, ?_⟩
  · by_cases hk : run = task.runId
    · rw [hk, href.resident]
      exact serve_reading hreads (ht.reading task.runId)
    · rw [others ht.left ht.unbounded.1 hk]
      exact ht.reading run
  · rw [href.sent]
    exact href'.sent
  · rw [href.exit]
    exact href'.exit

end Twins

/-- The tasks that are no direct queries, without the queries that others embed. -/
def withoutQueries (tasks : List (Remote × WorkflowTask)) : List (Remote × WorkflowTask) :=
  (tasks.filter (·.2.query.isNone)).map fun t => (t.1, t.2.withoutQueries)

/-- The answers to the tasks that are no direct queries, without the results of others. -/
def answersBut (tasks : List (Remote × WorkflowTask))
    (answers : List (String × List Response × Exit)) : List (String × List Response × Exit) :=
  ((tasks.zip answers).filter (·.1.2.query.isNone)).map fun x =>
    (x.2.1, x.2.2.1.map Response.withoutResults, x.2.2.2)

/-- The calls that put a query come back to the poll loop. -/
def QueriesComeBack (h : TaskHandler σ) (remote : Remote) (s : HandlerState σ)
    (task : WorkflowTask) : Prop :=
  task.query ≠ none ∨ task.queries ≠ [] → (h.handle remote s task).exit.isBack = true

theorem Twins.answers_eq (hreads : h.RegistersReaders) {s s' : HandlerState σ} (ht : Twins s s')
    (tasks : List (Remote × WorkflowTask)) (hignore : ∀ t ∈ tasks, t.1.IgnoresResults)
    (hback : h.EachTask h.QueriesComeBack s tasks) :
    h.answers s' (withoutQueries tasks) = answersBut tasks (h.answers s tasks) := by
  induction tasks generalizing s s' with
  | nil => rfl
  | cons t tasks ih =>
    obtain ⟨remote, task⟩ := t
    obtain ⟨hone, hrest⟩ := List.forall_mem_cons.mp hignore
    cases hq : task.query with
    | some q =>
      have hne : task.query ≠ none := by
        rw [hq]
        exact Option.some_ne_none q
      have hquery := ih (ht.query hq (hback.1 (.inl hne))) hrest hback.2
      simpa [withoutQueries, answersBut, TaskHandler.answers, hq] using hquery
    | none =>
      obtain ⟨htwins, hsent, hexit⟩ := ht.other hreads hq hone fun hne => hback.1 (.inr hne)
      have htask := ih htwins hrest hback.2
      have hrun : task.withoutQueries.runId = task.runId := rfl
      simpa [withoutQueries, answersBut, TaskHandler.answers, hq, hsent, hexit, hrun] using htask

/-- Queries are invisible if their handlers only read: a worker with an unbounded cache answers
every other task as if no query had ever been put, be it on its own or along with a task. -/
theorem queries_invisible (h : TaskHandler σ) (hreads : h.RegistersReaders)
    (tasks : List (Remote × WorkflowTask)) (hignore : ∀ t ∈ tasks, t.1.IgnoresResults)
    (hback : h.EachTask h.QueriesComeBack { cache := .empty 0 } tasks) :
    h.answers { cache := .empty 0 } (withoutQueries tasks) =
      answersBut tasks (h.answers { cache := .empty 0 } tasks) := by
  have htwins : Twins ({ cache := .empty 0 } : HandlerState σ) { cache := .empty 0 } :=
    ⟨.empty 0, .empty 0, ⟨rfl, rfl⟩, fun _ => rfl, fun _ _ hr => by cases hr⟩
  exact htwins.answers_eq hreads tasks hignore hback

end TaskHandler

/-- A workflow that can be asked for its state while it waits. -/
def askableWorkflow : WorkflowFn Unit where
  init := ()
  body _ := fun
    | [] => .setQueryHandler "state" fun _ answers =>
        if answers.isEmpty then .readStore else .finish (.returned [])
    | [_] => .receive "go"
    | _ => .finish (.returned [])

def askableWorker : TaskHandler Unit where
  workflows name := if name = "Askable" then some askableWorkflow else none
  world := .plain .tagged
  fuel := 10

def askableTask (events : History) : WorkflowTask where
  taskToken := "token"
  workflowId := "askable-1"
  runId := "run-1"
  workflowType := "Askable"
  page := { events }

/-- The first task comes with a query, another query follows, and then the signal. -/
def askedTasks : List (Remote × WorkflowTask) :=
  [(.accepting, { askableTask [⟨1, .workflowExecutionStarted "Askable" [] []⟩, ⟨2, .other⟩,
      ⟨3, .other⟩] with queries := [("q1", ⟨"state", []⟩)] }),
    (.accepting, { askableTask [] with query := some ⟨"state", []⟩ }),
    (.accepting, askableTask [⟨4, .other⟩, ⟨5, .workflowExecutionSignaled "go" []⟩, ⟨6, .other⟩])]

theorem askable_registersReaders : askableWorker.RegistersReaders := by
  intro type fn hfn input answers
  simp only [askableWorker, Option.ite_none_right_eq_some, Option.some.injEq] at hfn
  obtain ⟨-, rfl⟩ := hfn
  change (askableWorkflow.body input answers).RegistersReaders
  unfold askableWorkflow
  dsimp only
  split
  · intro args answers
    dsimp only
    split <;> rfl
  · trivial
  · trivial

theorem askable_not_disturbed :
    askableWorker.answers { cache := .empty 0 } (TaskHandler.withoutQueries askedTasks) =
      TaskHandler.answersBut askedTasks
        (askableWorker.answers { cache := .empty 0 } askedTasks) := by
  apply TaskHandler.queries_invisible askableWorker askable_registersReaders
  · intro t ht resp
    simp only [askedTasks, List.mem_cons, List.not_mem_nil, or_false] at ht
    rcases ht with rfl | rfl | rfl <;> rfl
  · exact ⟨fun _ => by decide +kernel, fun _ => by decide +kernel, fun _ => by decide +kernel,
      trivial⟩

end TemporalSdk
