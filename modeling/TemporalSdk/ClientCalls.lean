import TemporalSdk.TypedCalls
import TemporalSdk.ClientStart
import TemporalSdk.ClientResult

/-! Workflows as remote calls of a client. `StartWorkflow` sends the arguments, `Result` waits for
what the body made of them, through every run that continues as new. -/
namespace TemporalSdk

namespace WorkflowRun

variable {τ : Type} {x : WorkflowRun τ} {type : String} {input : Payloads} {c : Command}

/-- The run was started with this type and input. -/
def StartsWith (x : WorkflowRun τ) (type : String) (input : Payloads) : Prop :=
  x.info.workflowType = type ∧ ∃ header rest,
    x.batches.flatten = ⟨1, .workflowExecutionStarted type input header⟩ :: rest ∧
      ∀ e ∈ rest, e.attributes.isStarted = false

/-- Its last task was answered with this command. -/
def ClosesWith (x : WorkflowRun τ) (c : Command) : Prop :=
  ∃ r, x.final? = some r ∧ r.terminalCommand = some c

/-- A run that is closed by a command has its body at the end the command reports. -/
theorem ends_of_closesWith (h : x.Conducted) (hs : x.StartsWith type input)
    (hc : x.ClosesWith c) :
    ∃ r o, x.Ends type input r o ∧ o ≠ .otherException ∧
      (r.finishBody o).terminalCommand = some c := by
  obtain ⟨r, hr, hterm⟩ := hc
  obtain ⟨htype, header, rest, hflat, hrest⟩ := hs
  obtain ⟨o, hne, hout, hreport⟩ := Conducted.closed h hr hterm
  exact ⟨r, o, ⟨htype, hr, Conducted.input_eq h hr hflat hrest, hout⟩, hne, hreport⟩

end WorkflowRun

/-- The server conducts an execution that was asked for. Its first run has the type and input of the
request, a run that continues as new is followed by one with those of its command, and a run
completes or fails as its worker said. -/
structure RunChain.Served {τ : Type} (chain : RunChain) (serving : String → WorkflowRun τ)
    (type : String) (input : Payloads) : Prop where
  conducted : ∀ run ∈ chain.runs, (serving run.runId).Conducted
  begins : (serving (chain.runs.head chain.nonempty).runId).StartsWith type input
  continues : chain.runs.IsChain fun run next => run.close.isContinuedAsNew = true →
    ∃ type input,
      (serving run.runId).ClosesWith (.continueAsNewWorkflowExecution type input) ∧
        (serving next.runId).StartsWith type input
  completed : ∀ run ∈ chain.runs, ∀ result id, run.close = .completed result id →
    (serving run.runId).ClosesWith (.completeWorkflowExecution result)
  failed : ∀ run ∈ chain.runs, ∀ failure id, run.close = .failed failure id →
    (serving run.runId).ClosesWith (.failWorkflowExecution failure.failure)

/-- The server closed the run on its own account. -/
def CloseEvent.byServer : CloseEvent → Bool
  | .timedOut _ | .canceled | .terminated => true
  | _ => false

/-- What waiting for a workflow comes to. -/
inductive WorkflowAnswer {τ : Type} (runs : Set (WorkflowRun τ)) (handle : WorkflowHandle) :
    String → Payloads → Except ClientError Payloads → Prop
  | returned {x : WorkflowRun τ} {type : String} {input : Payloads} {r : Runner τ}
      {result : Payloads} (hx : x ∈ runs) (ends : x.Ends type input r (.returned result)) :
      WorkflowAnswer runs handle type input (.ok result)
  | failed {x : WorkflowRun τ} {type : String} {input : Payloads} {r : Runner τ} {o : Outcome}
      {failure : FailureProto} (hx : x ∈ runs) (ends : x.Ends type input r o)
      (reported : (r.finishBody o).terminalCommand =
        some (.failWorkflowExecution failure.failure)) :
      WorkflowAnswer runs handle type input (.error (handle.failedError failure))
  | continued {x : WorkflowRun τ} {type type' : String} {input input' : Payloads} {r : Runner τ}
      {out : Except ClientError Payloads} (hx : x ∈ runs)
      (ends : x.Ends type input r (.continueAsNew type' input'))
      (later : WorkflowAnswer runs handle type' input' out) :
      WorkflowAnswer runs handle type input out
  | closed {type : String} {input : Payloads} {ev : CloseEvent} (hev : ev.byServer = true) :
      WorkflowAnswer runs handle type input (.error (.workflowFailed
        ("workflow did not complete successfully: " ++ ev.eventTypeName) ""))

section Waiting

variable {τ : Type} {chain : RunChain} {serving : String → WorkflowRun τ} {handle : WorkflowHandle}
  {type : String} {input : Payloads} {runs : Set (WorkflowRun τ)}

/-- A run that does not continue as new answers the wait by itself. -/
theorem RunChain.Served.answered (h : chain.Served serving type input) {run : Run}
    (hrun : run ∈ chain.runs) (hmem : serving run.runId ∈ runs)
    (hcan : run.close.isContinuedAsNew = false) {type' : String} {input' : Payloads}
    (hs : (serving run.runId).StartsWith type' input') :
    WorkflowAnswer runs handle type' input' (handle.outcomeOf run.close) := by
  have hcond := h.conducted run hrun
  cases hclose : run.close with
  | completed result id =>
    obtain ⟨r, o, hends, hne, hreport⟩ :=
      WorkflowRun.ends_of_closesWith hcond hs (h.completed run hrun result id hclose)
    cases o with
    | otherException => exact absurd rfl hne
    | returned result' =>
      cases hreport
      exact .returned hmem hends
    | _ => cases hreport
  | failed failure id =>
    obtain ⟨r, o, hends, -, hreport⟩ :=
      WorkflowRun.ends_of_closesWith hcond hs (h.failed run hrun failure id hclose)
    exact .failed hmem hends hreport
  | continuedAsNew id =>
    rw [hclose] at hcan
    cases hcan
  | _ => exact .closed rfl

/-- From any run on, the first that does not continue as new answers the wait. The induction is on
the runs that follow. -/
theorem RunChain.Served.answered_from (h : chain.Served serving type input)
    (hmem : ∀ run ∈ chain.runs, serving run.runId ∈ runs) {before after : List Run} {run : Run}
    (hruns : chain.runs = before ++ run :: after) {type' : String} {input' : Payloads}
    (hs : (serving run.runId).StartsWith type' input') :
    WorkflowAnswer runs handle type' input' (handle.outcomeOf (closingRun run after).close) := by
  have hrun : run ∈ chain.runs := by simp [hruns]
  induction after generalizing before run type' input' with
  | nil =>
    have hends := chain.ends
    rw [← RunChain.last, RunChain.last_eq hruns, List.getLast_singleton] at hends
    apply h.answered hrun (hmem run hrun) _ hs
    cases hclose : run.close <;> simp_all [CloseEvent.successor?, CloseEvent.isContinuedAsNew]
  | cons next rest ih =>
    rw [closingRun]
    split
    case isFalse hcan => exact h.answered hrun (hmem run hrun) (Bool.eq_false_iff.mpr hcan) hs
    case isTrue hcan =>
      have hchain := h.continues
      rw [hruns] at hchain
      obtain ⟨type'', input'', hclose, hnext⟩ :=
        (List.isChain_cons_cons.mp hchain.right_of_append).1 hcan
      obtain ⟨r, o, hends, hne, hreport⟩ :=
        WorkflowRun.ends_of_closesWith (h.conducted run hrun) hs hclose
      have ho : o = .continueAsNew type'' input'' := by
        cases o with
        | otherException => exact absurd rfl hne
        | continueAsNew type input =>
          cases hreport
          rfl
        | _ => cases hreport
      subst ho
      refine .continued (hmem run hrun) hends ?_
      have hruns' : chain.runs = (before ++ [run]) ++ next :: rest := by simp [hruns]
      exact ih hruns' hnext (by simp [hruns])

end Waiting

/-- A call that returns, other than a poll, was answered. -/
theorem unaryCall_ok {Resp : Type} {name : String} {empty resp : Resp}
    {invoked : GrpcStatus × Resp} (h : unaryCall name false empty invoked = .ok resp) :
    invoked.1.code = .ok ∧ invoked.2 = resp := by
  unfold unaryCall at h
  split at h
  · simp only [Bool.false_and, Bool.false_eq_true, if_false] at h
    split at h <;> cases h
  · next hcode => exact ⟨not_not.mp hcode, Except.ok.inj h⟩

/-- Every start that the server accepts is that of an execution it conducts. -/
def WorkflowClient.Trusts {υ τ : Type} (c : WorkflowClient υ) (executions : Set RunChain)
    (serving : String → WorkflowRun τ) : Prop :=
  ∀ req s message runId, (c.startWorkflowExecution req s).1 = (⟨.ok, message⟩, runId) →
    ∃ chain ∈ executions, (chain.runs.head chain.nonempty).runId = runId ∧
      chain.Served serving req.workflowType (req.input.getD [])

/-- The handle that `StartWorkflow` returns; `failureToError` is the client's failure converter. -/
def WorkflowClient.handle {υ : Type} (c : WorkflowClient υ)
    (failureToError : Option (FailureProto → Thrown)) (ids : HandleIds) : WorkflowHandle where
  ns := c.ns
  workflowId := ids.workflowId
  runId := ids.runId
  failureToError := failureToError

section Calling

variable {υ τ : Type} {c : WorkflowClient υ} {executions : Set RunChain}
  {serving : String → WorkflowRun τ} {base : ClientOutbound (ClientWorld υ)}
  {options : StartWorkflowOptions} {type : String} {input : Payloads} {w : ClientWorld υ}
  {ids : HandleIds}

/-- A start that succeeds was accepted, with the type and input of the call. -/
theorem WorkflowClient.accepted (hplain : c.interceptors = [])
    (h : (c.startWorkflowPayloads base options type input w).1 = .ok ids) :
    ∃ req s message, req.workflowType = type ∧ req.input = inputOf input ∧
      (c.startWorkflowExecution req s).1 = (⟨.ok, message⟩, ids.runId) := by
  unfold startWorkflowPayloads buildClientOutboundChain Chain.build at h
  rw [hplain] at h
  dsimp only [List.reverse_nil, List.foldlM_nil, pure, Except.pure, rootClientOutbound, doStart]
    at h
  cases hcall : unaryCall "StartWorkflowExecution" false "" (c.startWorkflowExecution
      (c.startRequest (c.workflowId options w).1 (c.newUuid (c.workflowId options w).2).1
        (startArgs (c.workflowId options w).1 options type input).1
        (startArgs (c.workflowId options w).1 options type input).2)
      (c.newUuid (c.workflowId options w).2).2.rest).1 with
  | error e =>
    rw [hcall] at h
    cases h
  | ok runId =>
    rw [hcall] at h
    cases h
    obtain ⟨hcode, hrun⟩ := unaryCall_ok hcall
    exact ⟨_, _, _, rfl, rfl, Prod.ext (congrArg (GrpcStatus.mk · _) hcode) hrun⟩

/-- Waiting for a workflow that was started ends, with what became of it on the input of the call. -/
theorem WorkflowClient.result_answered (htrusts : c.Trusts executions serving)
    (hplain : c.interceptors = [])
    (h : (c.startWorkflowPayloads base options type input w).1 = .ok ids)
    (failureToError : Option (FailureProto → Thrown)) :
    ∃ chain ∈ executions, ∀ reply, (∀ n, ∃ m ≥ n, reply m = .closed) → ∀ k, ∃ out left,
      WorkflowHandle.Finishes (chain.serve reply) k (c.handle failureToError ids) (out, left) ∧
        WorkflowAnswer {x | ∃ run ∈ chain.runs, serving run.runId = x}
          (c.handle failureToError ids) type input out := by
  obtain ⟨req, s, message, rfl, hinput, hanswer⟩ := accepted hplain h
  obtain ⟨chain, hchain, hfirst, hserved⟩ := htrusts req s message ids.runId hanswer
  have hargs : req.input.getD [] = input := by
    rw [hinput]
    cases input <;> rfl
  rw [hargs] at hserved
  refine ⟨chain, hchain, fun reply hfair k => ?_⟩
  have hruns : chain.runs = [] ++ chain.runs.head chain.nonempty :: chain.runs.tail :=
    (List.cons_head_tail chain.nonempty).symm
  have hid : (c.handle failureToError ids).runId = (chain.runs.head chain.nonempty).runId :=
    hfirst.symm
  refine ⟨_, _, WorkflowHandle.finishes_closingRun hfair hruns hid, ?_⟩
  apply hserved.answered_from _ hruns hserved.begins
  intro run hrun
  exact ⟨run, hrun, rfl⟩

end Calling

section Typed

variable {J : Type}

/-- `what()` of an error of a conversion. -/
def ConversionError.what : ConversionError → String
  | .dataConverterError message => message
  | .other what => what

/-- A workflow function as it is registered, `R fn(workflow::Context&, Args...)`, or the coroutine
that returns `workflow_task<R>`: it goes on by an operation, or has its result. -/
structure TypedWorkflow (σ : Type) (sig : List (JsonType J)) (ret : Option (JsonType J)) where
  init : σ
  body : Args sig → List (Resp σ) → Op σ ⊕ Ret ret
  encodes : ∀ args answers result, body args answers ≠ .inl (.finish (.returned result))

/-- `Worker::MakeWorkflowFn`. -/
def makeWorkflowFn {σ : Type} {sig : List (JsonType J)} {ret : Option (JsonType J)}
    (s : ConverterStack J) (outOfRange : Nat → Nat → String) (fn : TypedWorkflow σ sig ret) :
    WorkflowFn σ where
  init := fn.init
  body input answers :=
    match s.decodeArgs outOfRange input sig 0 with
    | .error e => .finish (.stdException e.what)
    | .ok args =>
      match fn.body args answers with
      | .inl op => op
      | .inr v =>
        match s.encodeResult ret v with
        | .error e => .finish (.stdException e.what)
        | .ok result => .finish (.returned result)

/-- What `WorkflowHandle::Result<R>` throws. -/
inductive ResultError where
  | client (e : ClientError)
  | conversion (e : ConversionError)
  deriving DecidableEq, Repr

/-- `WorkflowHandle::Result<R>` on what `ResultPayloads` returns or throws. -/
def WorkflowHandle.result (s : ConverterStack J) (outOfRange : Nat → Nat → String)
    (ret : Option (JsonType J)) : Except ClientError Payloads → Except ResultError (Ret ret)
  | .error e => .error (.client e)
  | .ok payloads =>
    match ret with
    | none => .ok ()
    | some t => (payloads.at outOfRange 0 >>= s.decode t).mapError .conversion

variable {σ τ υ : Type} {sig : List (JsonType J)} {ret : Option (JsonType J)}
  {s : ConverterStack J} {outOfRange : Nat → Nat → String} {fn : TypedWorkflow τ sig ret}

/-- The result of a body that returned it comes back. -/
theorem WorkflowHandle.result_encodeResult (h : s.Inverts) {v : Ret ret} {result : Payloads}
    (hv : s.encodeResult ret v = .ok result) :
    WorkflowHandle.result s outOfRange ret (.ok result) = .ok v := by
  cases ret with
  | none => rfl
  | some t =>
    cases hp : s.encode t v with
    | error e =>
      rw [ConverterStack.encodeResult, hp] at hv
      cases hv
    | ok p =>
      have hresult : [p] = result := by
        rw [ConverterStack.encodeResult, hp] at hv
        exact Except.ok.inj hv
      subst hresult
      show (s.decode t p).mapError _ = _
      rw [ConverterStack.decode_encode h hp]
      rfl

/-- The body of the run, called with these arguments, has come to this end. -/
structure WorkflowRun.Came (x : WorkflowRun τ) (type : String) (fn : TypedWorkflow τ sig ret)
    (args : Args sig) (r : Runner τ) (out : Op τ ⊕ Ret ret) : Prop where
  type : x.info.workflowType = type
  final : x.final? = some r
  body : fn.body args r.trace = out

/-- What a typed call of a workflow comes to. -/
inductive TypedResult (s : ConverterStack J) (runs : Set (WorkflowRun τ)) (handle : WorkflowHandle)
    (type : String) (fn : TypedWorkflow τ sig ret) :
    Args sig → Except ResultError (Ret ret) → Prop
  | returned {x : WorkflowRun τ} {args : Args sig} {r : Runner τ} {v : Ret ret} (hx : x ∈ runs)
      (came : x.Came type fn args r (.inr v)) : TypedResult s runs handle type fn args (.ok v)
  | failed {x : WorkflowRun τ} {args : Args sig} {r : Runner τ} {o : Outcome}
      {failure : FailureProto} (hx : x ∈ runs) (came : x.Came type fn args r (.inl (.finish o)))
      (reported : (r.finishBody o).terminalCommand =
        some (.failWorkflowExecution failure.failure)) :
      TypedResult s runs handle type fn args (.error (.client (handle.failedError failure)))
  | unencodable {x : WorkflowRun τ} {args : Args sig} {r : Runner τ} {v : Ret ret}
      {e : ConversionError} {failure : FailureProto} (hx : x ∈ runs)
      (came : x.Came type fn args r (.inr v)) (encoding : s.encodeResult ret v = .error e)
      (reported : (r.finishBody (.stdException e.what)).terminalCommand =
        some (.failWorkflowExecution failure.failure)) :
      TypedResult s runs handle type fn args (.error (.client (handle.failedError failure)))
  | continued {x : WorkflowRun τ} {args args' : Args sig} {input : Payloads} {r : Runner τ}
      {out : Except ResultError (Ret ret)} (hx : x ∈ runs)
      (came : x.Came type fn args r (.inl (.finish (.continueAsNew type input))))
      (encoded : s.toPayloads sig args' = .ok input)
      (later : TypedResult s runs handle type fn args' out) :
      TypedResult s runs handle type fn args out
  | closed {args : Args sig} {ev : CloseEvent} (hev : ev.byServer = true) :
      TypedResult s runs handle type fn args (.error (.client (.workflowFailed
        ("workflow did not complete successfully: " ++ ev.eventTypeName) "")))

/-- A run whose worker has the typed function for its type. -/
structure WorkflowRun.Registers (x : WorkflowRun τ) (s : ConverterStack J)
    (outOfRange : Nat → Nat → String) (fn : TypedWorkflow τ sig ret) : Prop where
  conducted : x.Conducted
  registered : x.fn = makeWorkflowFn s outOfRange fn
  plain : x.world.interceptors = []

/-- What the body of such a run did on encoded arguments, the typed function did on them. -/
theorem WorkflowRun.Ends.came {x : WorkflowRun τ} {type : String} {args : Args sig}
    {input : Payloads} {r : Runner τ} {o : Outcome} (h : x.Ends type input r o)
    (hx : x.Registers s outOfRange fn) (hinv : s.Inverts)
    (hin : s.toPayloads sig args = .ok input) :
    (∃ v, x.Came type fn args r (.inr v) ∧
        ((∃ result, s.encodeResult ret v = .ok result ∧ o = .returned result) ∨
          ∃ e, s.encodeResult ret v = .error e ∧ o = .stdException e.what)) ∨
      (x.Came type fn args r (.inl (.finish o)) ∧ ∀ result, o ≠ .returned result) := by
  have hbody := h.outcome
  have hdecode := ConverterStack.decodeArgs_toPayloads outOfRange hinv hin [] []
  rw [List.nil_append, List.append_nil, List.length_nil] at hdecode
  rw [Conducted.program_eq hx.conducted h.final, Runner.chain, hx.plain, h.input,
    hx.registered] at hbody
  simp only [List.foldr_nil, makeWorkflowFn, hdecode] at hbody
  cases hcame : fn.body args r.trace with
  | inl op =>
    right
    simp only [hcame] at hbody
    subst hbody
    refine ⟨⟨h.type, h.final, hcame⟩, ?_⟩
    rintro result rfl
    exact fn.encodes args r.trace result hcame
  | inr v =>
    left
    refine ⟨v, ⟨h.type, h.final, hcame⟩, ?_⟩
    simp only [hcame] at hbody
    cases henc : s.encodeResult ret v with
    | error e =>
      simp only [henc, Op.finish.injEq] at hbody
      exact .inr ⟨e, rfl, hbody.symm⟩
    | ok result =>
      simp only [henc, Op.finish.injEq] at hbody
      exact .inl ⟨result, rfl, hbody.symm⟩

/-- The function continues as new only as itself, by `ContinueAsNew(type, args...)`. -/
def TypedWorkflow.ContinuesAs (fn : TypedWorkflow τ sig ret) (s : ConverterStack J)
    (type : String) : Prop :=
  ∀ args answers type' input, fn.body args answers = .inl (.finish (.continueAsNew type' input)) →
    type' = type ∧ ∃ args', s.toPayloads sig args' = .ok input

/-- An answer to a call with encoded arguments is one of the typed function. The induction is on the
runs that continue as new. -/
theorem WorkflowAnswer.typed {runs : Set (WorkflowRun τ)} {handle : WorkflowHandle}
    {type : String} {input : Payloads} {out : Except ClientError Payloads}
    (h : WorkflowAnswer runs handle type input out) (hinv : s.Inverts)
    (hreg : ∀ x ∈ runs, x.info.workflowType = type → x.Registers s outOfRange fn)
    (hself : fn.ContinuesAs s type) {args : Args sig} (hin : s.toPayloads sig args = .ok input) :
    TypedResult s runs handle type fn args (WorkflowHandle.result s outOfRange ret out) := by
  induction h generalizing args with
  | @returned x type input r result hx ends =>
    rcases ends.came (hreg x hx ends.type) hinv hin with ⟨v, hcame, ho⟩ | ⟨-, hne⟩
    · obtain ⟨result', henc, heq⟩ | ⟨e, -, heq⟩ := ho
      · cases heq
        rw [WorkflowHandle.result_encodeResult hinv henc]
        exact .returned hx hcame
      · cases heq
    · exact absurd rfl (hne result)
  | @failed x type input r o failure hx ends reported =>
    rcases ends.came (hreg x hx ends.type) hinv hin with ⟨v, hcame, ho⟩ | ⟨hcame, -⟩
    · obtain ⟨result', -, rfl⟩ | ⟨e, henc, rfl⟩ := ho
      · cases reported
      · exact .unencodable hx hcame henc reported
    · exact .failed hx hcame reported
  | @continued x type type' input input' r out hx ends later ih =>
    rcases ends.came (hreg x hx ends.type) hinv hin with ⟨v, -, ho⟩ | ⟨hcame, -⟩
    · obtain ⟨result', -, heq⟩ | ⟨e, -, heq⟩ := ho <;> cases heq
    · obtain ⟨rfl, args', hargs⟩ := hself args r.trace type' input' hcame.body
      exact .continued hx hcame hargs (ih hreg hself hargs)
  | closed hev => exact .closed hev

variable {c : WorkflowClient υ} {executions : Set RunChain} {serving : String → WorkflowRun τ}

/-- `StartWorkflow(type, args...)` and then `Result<R>()` is a call of the function that is
registered for the type, on the very arguments: waiting ends, with the value the function returned,
or with an error it ended with, or that of a run the server closed, in the first run that does not
continue as new. -/
theorem WorkflowClient.typed_result_answered (htrusts : c.Trusts executions serving)
    (hplain : c.interceptors = []) (hinv : s.Inverts) {type : String}
    (hreg : ∀ id, (serving id).info.workflowType = type →
      (serving id).Registers s outOfRange fn)
    (hself : fn.ContinuesAs s type) {args : Args sig} {input : Payloads}
    (hin : s.toPayloads sig args = .ok input) {base : ClientOutbound (ClientWorld υ)}
    {options : StartWorkflowOptions} {w : ClientWorld υ} {ids : HandleIds}
    (h : (c.startWorkflowPayloads base options type input w).1 = .ok ids)
    (failureToError : Option (FailureProto → Thrown)) :
    ∃ chain ∈ executions, ∀ reply, (∀ n, ∃ m ≥ n, reply m = .closed) → ∀ k, ∃ out left,
      WorkflowHandle.Finishes (chain.serve reply) k (c.handle failureToError ids) (out, left) ∧
        TypedResult s {x | ∃ run ∈ chain.runs, serving run.runId = x}
          (c.handle failureToError ids) type fn args
          (WorkflowHandle.result s outOfRange ret out) := by
  obtain ⟨chain, hchain, hanswer⟩ := result_answered htrusts hplain h failureToError
  refine ⟨chain, hchain, fun reply hfair k => ?_⟩
  obtain ⟨out, left, hfin, hout⟩ := hanswer reply hfair k
  refine ⟨out, left, hfin, ?_⟩
  apply hout.typed hinv _ hself hin
  rintro _ ⟨run, -, rfl⟩ htype
  exact hreg run.runId htype

end Typed

/-- A function that continues as new until its text is used up. -/
def countdown : TypedWorkflow Unit [textType] (some textType) where
  init := ()
  body (args : List UInt8 × Unit) _ :=
    match args.1 with
    | [] => .inr ([7] : List UInt8)
    | _ :: rest => .inl (.finish (.continueAsNew "Countdown" [encodedText rest]))
  encodes := by
    rintro ⟨_ | ⟨b, rest⟩, _⟩ answers result h <;> cases h

/-- A run of it, which needs one task. -/
def countdownRun (text : List UInt8) : WorkflowRun Unit where
  fuel := 10
  info := { workflowId := "countdown-1", workflowType := "Countdown" }
  world := .plain .tagged
  fn := makeWorkflowFn textStack (fun _ _ => "out of range") countdown
  evicted _ := false
  batches := [[⟨1, .workflowExecutionStarted "Countdown" [encodedText text] []⟩, ⟨2, .other⟩,
    ⟨3, .other⟩]]

def countdownChain : RunChain where
  runs := [⟨"run-1", .continuedAsNew "run-2"⟩, ⟨"run-2", .completed [encodedText [7]] ""⟩]
  nonempty := by decide
  named := by decide
  nodup := by decide
  linked := by decide
  ends := by decide

def countdownServing (runId : String) : WorkflowRun Unit :=
  if runId = "run-1" then countdownRun [1]
  else if runId = "run-2" then countdownRun []
  else { countdownRun [] with info := {} }

def countdownClient : WorkflowClient Unit where
  ns := "default"
  identity := "1@host"
  interceptors := []
  uuids := toString
  startWorkflowExecution req s :=
    if req.workflowType = "Countdown" ∧ req.input = some [encodedText [1]] then
      ((⟨.ok, ""⟩, "run-1"), s)
    else ((⟨.notFound, "unknown"⟩, ""), s)
  signalWithStartWorkflowExecution _ s := ((⟨.notFound, "unknown"⟩, ""), s)

theorem countdown_waiting (input : Payloads) (answers : List (Resp Unit)) :
    ((Runner.chain (.plain .tagged) (makeWorkflowFn textStack (fun _ _ => "out of range")
      countdown)).body input answers).Waiting (.plain .tagged) := by
  change (((makeWorkflowFn textStack (fun _ _ => "out of range") countdown).body input
    answers).Waiting _)
  unfold makeWorkflowFn
  dsimp only
  cases textStack.decodeArgs (fun _ _ => "out of range") input [textType] 0 with
  | error e => exact ⟨trivial, rfl⟩
  | ok args =>
    obtain ⟨_ | ⟨b, rest⟩, _⟩ := args
    · exact ⟨trivial, rfl⟩
    · exact ⟨trivial, rfl⟩

/-- The events of a run say nothing but that it was started. -/
theorem countdownRun_events {text : List UInt8} {e : HistoryEvent}
    (he : e ∈ (countdownRun text).batches.flatten) :
    e = ⟨1, .workflowExecutionStarted "Countdown" [encodedText text] []⟩ ∨
      e.attributes = .other := by
  simp only [countdownRun, List.flatten_cons, List.flatten_nil, List.append_nil, List.mem_cons,
    List.not_mem_nil, or_false] at he
  rcases he with rfl | rfl | rfl
  · exact .inl rfl
  · exact .inr rfl
  · exact .inr rfl

theorem countdownRun_conducted {text : List UInt8} {c : Command}
    (hreports : (Runner.tasks 10 (countdownRun text).info (countdownRun text).world
      (countdownRun text).fn (fun _ => false) (countdownRun text).batches).map Runner.report =
        [([], some c, false)]) : (countdownRun text).Conducted := by
  have hserved : Served (countdownRun text).batches.flatten := by
    constructor
    · simp [countdownRun]
    · simp [countdownRun]
    · exact List.nodup_nil
    · intro i hi k hk
      have hnone : ((countdownRun text).batches.flatten[i]).closes = none := by
        rcases countdownRun_events (List.getElem_mem hi) with he | ho
        · rw [he]
          rfl
        · rw [HistoryEvent.closes, ho]
          rfl
      rw [hnone] at hk
      cases hk
  have hupdates : UpdateFree (countdownRun text).batches.flatten := by
    intro e he
    rcases countdownRun_events he with rfl | ho
    · rfl
    · rw [ho]
      rfl
  refine .of_waiting countdown_waiting DataConverter.tagged_roundTrips hserved hupdates ?_
    (.of_reports hreports ?_ ?_) (Runner.live_of_reports hreports ?_)
  · intro h hh
    cases hh
  · intro h hh
    cases hh
    rfl
  · intro x hx
    cases hx
  · intro x hx
    rw [List.mem_singleton.mp hx]

theorem countdown_first : (countdownRun [1]).ClosesWith
    (.continueAsNewWorkflowExecution "Countdown" [encodedText []]) := by
  have hfinal : ((countdownRun [1]).final?.map Runner.terminalCommand) =
      some (some (.continueAsNewWorkflowExecution "Countdown" [encodedText []])) := by
    decide +kernel
  exact Option.map_eq_some_iff.mp hfinal

theorem countdown_second : (countdownRun []).ClosesWith
    (.completeWorkflowExecution [encodedText [7]]) := by
  have hfinal : ((countdownRun []).final?.map Runner.terminalCommand) =
      some (some (.completeWorkflowExecution [encodedText [7]])) := by
    decide +kernel
  exact Option.map_eq_some_iff.mp hfinal

theorem countdownRun_startsWith (text : List UInt8) :
    (countdownRun text).StartsWith "Countdown" [encodedText text] := by
  refine ⟨rfl, [], [⟨2, .other⟩, ⟨3, .other⟩], rfl, ?_⟩
  decide

theorem countdown_conducted (text : List UInt8) (ht : text = [1] ∨ text = []) :
    (countdownRun text).Conducted := by
  rcases ht with rfl | rfl
  · exact countdownRun_conducted
      (c := .continueAsNewWorkflowExecution "Countdown" [encodedText []]) (by decide +kernel)
  · exact countdownRun_conducted
      (c := .completeWorkflowExecution [encodedText [7]]) (by decide +kernel)

theorem countdown_trusts : countdownClient.Trusts {countdownChain} countdownServing := by
  intro req s message runId hanswer
  refine ⟨countdownChain, rfl, ?_⟩
  simp only [countdownClient] at hanswer
  split at hanswer
  · next hreq =>
    obtain ⟨htype, hinput⟩ := hreq
    cases hanswer
    rw [htype, hinput]
    refine ⟨rfl, ?_, countdownRun_startsWith [1], ?_, ?_, ?_⟩
    · intro run hrun
      simp only [countdownChain, List.mem_cons, List.not_mem_nil, or_false] at hrun
      rcases hrun with rfl | rfl
      · exact countdown_conducted [1] (.inl rfl)
      · exact countdown_conducted [] (.inr rfl)
    · simp only [countdownChain, List.isChain_cons_cons]
      refine ⟨fun _ => ⟨_, _, countdown_first, countdownRun_startsWith []⟩, ?_⟩
      exact List.isChain_singleton _
    · intro run hrun result id hclose
      simp only [countdownChain, List.mem_cons, List.not_mem_nil, or_false] at hrun
      rcases hrun with rfl | rfl
      · cases hclose
      · cases hclose
        exact countdown_second
    · intro run hrun failure id hclose
      simp only [countdownChain, List.mem_cons, List.not_mem_nil, or_false] at hrun
      rcases hrun with rfl | rfl <;> cases hclose
  · cases hanswer

theorem countdown_registers (id : String)
    (h : (countdownServing id).info.workflowType = "Countdown") :
    (countdownServing id).Registers textStack (fun _ _ => "out of range") countdown := by
  unfold countdownServing at h ⊢
  split
  · exact ⟨countdown_conducted [1] (.inl rfl), rfl, rfl⟩
  · next hfirst =>
    rw [if_neg hfirst] at h
    split
    · exact ⟨countdown_conducted [] (.inr rfl), rfl, rfl⟩
    · next hsecond =>
      rw [if_neg hsecond] at h
      exact absurd h (by decide)

theorem countdown_continuesAs : countdown.ContinuesAs textStack "Countdown" := by
  rintro ⟨_ | ⟨b, rest⟩, _⟩ answers type' input h
  · cases h
  · cases h
    exact ⟨rfl, (rest, ()), rfl⟩

/-- The first run continues as new, and the wait goes on to the second. -/
theorem countdown_result_answered : ∃ out left,
    WorkflowHandle.Finishes (countdownChain.serve fun _ => .closed) 0
        (countdownClient.handle none ⟨"countdown-1", "run-1"⟩) (out, left) ∧
      TypedResult textStack {x | ∃ run ∈ countdownChain.runs, countdownServing run.runId = x}
        (countdownClient.handle none ⟨"countdown-1", "run-1"⟩) "Countdown" countdown
        (([1], ()) : List UInt8 × Unit)
        (WorkflowHandle.result textStack (fun _ _ => "out of range") (some textType) out) := by
  have hstarted : (countdownClient.startWorkflowPayloads
      ⟨fun a w => ⟨a, .ok "", w⟩, fun a w => ⟨a, .ok (), w⟩, fun a w => ⟨a, .ok [], w⟩⟩
      { id := "countdown-1" } "Countdown" [encodedText [1]] ⟨0, [], ()⟩).1 =
        .ok ⟨"countdown-1", "run-1"⟩ := rfl
  have hin : textStack.toPayloads [textType] (([1], ()) : List UInt8 × Unit) =
      .ok [encodedText [1]] := rfl
  obtain ⟨chain, hchain, hanswer⟩ := WorkflowClient.typed_result_answered countdown_trusts rfl
    textStack_inverts countdown_registers countdown_continuesAs hin hstarted none
  obtain rfl := Set.mem_singleton_iff.mp hchain
  exact hanswer (fun _ => .closed) (fun n => ⟨n, le_rfl, rfl⟩) 0

end TemporalSdk
