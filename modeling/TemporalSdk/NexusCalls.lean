import TemporalSdk.TypedCalls
import TemporalSdk.NexusRegistry

/-! Nexus operations as remote calls, from end to end. A Nexus task does not say which operation of
which workflow it is for, and the schedule event carries no id: the server tells operations apart by
their schedule events, the workflow by their order. -/
namespace TemporalSdk

namespace NexusTaskHandler

variable {ω : Type} {h : NexusTaskHandler ω} {task : NexusTask} {w : ω}
  {service operation : String} {input : Payload}

/-- A completion that is sent holds what the operation returned. -/
theorem of_completed (hreq : task.request = .startOperation service operation input)
    {ns identity token : String} {result : Payload}
    (hr : .respondNexusTaskCompleted ns identity token result ∈ (h.handle task w).attempts) :
    ∃ fn, h.operations (key service operation) = some fn ∧ (fn input w).1 = .ok result := by
  have hexec : h.execution? task w =
      (h.operations (key service operation)).map fun fn => fn input w := by
    rw [execution?, hreq]
  cases hfn : h.operations (key service operation) with
  | none =>
    unfold handle at hr
    simp only [hreq, hfn] at hr
    cases List.mem_singleton.mp hr
  | some fn =>
    refine ⟨fn, rfl, ?_⟩
    rw [hfn, Option.map_some] at hexec
    cases hout : (fn input w).1 with
    | error e =>
      rw [h.handle_attempts task w hexec] at hr
      simp only [complete, hout, Option.bind_some, List.nil_append] at hr
      cases hwhat : e.what? with
      | none =>
        rw [hwhat] at hr
        cases hr
      | some what =>
        rw [hwhat] at hr
        cases List.mem_singleton.mp hr
    | ok result' =>
      rw [h.attempts_of_returned task w hexec hout] at hr
      split at hr
      · cases List.mem_singleton.mp hr
        rfl
      · simp only [List.mem_cons, List.not_mem_nil, or_false] at hr
        rcases hr with hr | hr <;> cases hr
        rfl

/-- A handler's error that is sent is about a name nobody registered, what the operation threw, or a
completion that did not reach the server. -/
theorem of_failed (hreq : task.request = .startOperation service operation input)
    {ns identity token errorType message : String}
    (hr : .respondNexusTaskFailed ns identity token errorType message ∈
      (h.handle task w).attempts) :
    (h.operations (key service operation) = none ∧ errorType = "NOT_FOUND" ∧
      message = "no Nexus operation registered for service '" ++ service ++ "' operation '" ++
        operation ++ "'") ∨
    errorType = "INTERNAL" ∧ ∃ fn, h.operations (key service operation) = some fn ∧
      ((∃ e, (fn input w).1 = .error e ∧ e.what? = some message) ∨
        ∃ result status, (fn input w).1 = .ok result ∧ status.code ≠ .ok ∧
          message = "rpc RespondNexusTaskCompleted failed: " ++ GrpcStatus.message status) := by
  have hexec : h.execution? task w =
      (h.operations (key service operation)).map fun fn => fn input w := by
    rw [execution?, hreq]
  cases hfn : h.operations (key service operation) with
  | none =>
    unfold handle at hr
    simp only [hreq, hfn] at hr
    injection List.mem_singleton.mp hr with _ _ _ htype hmessage
    exact .inl ⟨rfl, htype, hmessage⟩
  | some fn =>
    right
    rw [hfn, Option.map_some] at hexec
    cases hout : (fn input w).1 with
    | error e =>
      rw [h.handle_attempts task w hexec] at hr
      simp only [complete, hout, Option.bind_some, List.nil_append] at hr
      cases hwhat : e.what? with
      | none =>
        rw [hwhat] at hr
        cases hr
      | some what =>
        rw [hwhat] at hr
        injection List.mem_singleton.mp hr with _ _ _ htype hmessage
        exact ⟨htype, fn, rfl, .inl ⟨e, hout, hmessage ▸ hwhat⟩⟩
    | ok result' =>
      rw [h.attempts_of_returned task w hexec hout] at hr
      split at hr
      · cases List.mem_singleton.mp hr
      · next hlost =>
        simp only [List.mem_cons, List.not_mem_nil, or_false] at hr
        rcases hr with hr | hr
        · cases hr
        · injection hr with _ _ _ htype hmessage
          exact ⟨htype, fn, rfl, .inr ⟨result', _, hout, hlost, hmessage⟩⟩

end NexusTaskHandler

/-- A worker that has been handed a Nexus task, for the operation with this schedule event. -/
structure NexusAttempt (ω : Type) where
  scheduledEventId : Nat
  handler : NexusTaskHandler ω
  task : NexusTask
  world : ω

def NexusAttempt.responses {ω : Type} (t : NexusAttempt ω) : List NexusResponse :=
  (t.handler.handle t.task t.world).attempts

/-- The server records the commands it has accepted in their order, hands out a task for a recorded
operation as its command asks, and closes an operation with a response to its task, or because its
time is up or it was cancelled. `failureOf` is the failure it makes of a handler's error. -/
structure NexusServed {ω : Type} (h : History) (cmds : List Command)
    (attempts : Set (NexusAttempt ω)) (failureOf : String → String → Failure) : Prop where
  handedOut : ∀ t ∈ attempts, ∀ n : Nat,
    (History.nexusEvents h)[n]? = some ⟨t.scheduledEventId, .nexusOperationScheduled⟩ →
      ∃ endpoint service operation input close,
        (nexusCommands cmds)[n]? =
          some (.scheduleNexusOperation endpoint service operation input close) ∧
        t.task.request = .startOperation service operation input
  completed : ∀ e ∈ h, ∀ sid result, e.attributes = .nexusOperationCompleted sid result →
    ∃ t ∈ attempts, t.scheduledEventId = sid ∧ ∃ ns identity token,
      .respondNexusTaskCompleted ns identity token result ∈ t.responses
  failed : ∀ e ∈ h, ∀ sid failure, e.attributes = .nexusOperationFailed sid failure →
    ∃ t ∈ attempts, t.scheduledEventId = sid ∧ ∃ ns identity token errorType message,
      .respondNexusTaskFailed ns identity token errorType message ∈ t.responses ∧
        failure = failureOf errorType message

/-- `Get` throws an `ActivityError` with this failure. -/
def Failure.thrown {σ : Type} (f : Failure) : Resp σ := .activityError f.type f.message

open NexusTaskHandler (key)

/-- What a call of a Nexus operation is answered with. -/
inductive NexusAnswer {σ ω : Type} (attempts : Set (NexusAttempt ω))
    (failureOf : String → String → Failure) (service operation : String) (input : Payload) :
    Resp σ → Prop
  | returned {t : NexusAttempt ω} {fn : NexusOperationFn ω} {result : Payload} (ht : t ∈ attempts)
      (registered : t.handler.operations (key service operation) = some fn)
      (outcome : (fn input t.world).1 = .ok result) :
      NexusAnswer attempts failureOf service operation input (.got [result])
  | threw {t : NexusAttempt ω} {fn : NexusOperationFn ω} {e : Thrown} {what : String}
      (ht : t ∈ attempts) (registered : t.handler.operations (key service operation) = some fn)
      (outcome : (fn input t.world).1 = .error e) (hwhat : e.what? = some what) :
      NexusAnswer attempts failureOf service operation input (failureOf "INTERNAL" what).thrown
  | undelivered {t : NexusAttempt ω} {fn : NexusOperationFn ω} {result : Payload}
      {status : GrpcStatus} (ht : t ∈ attempts)
      (registered : t.handler.operations (key service operation) = some fn)
      (outcome : (fn input t.world).1 = .ok result) (lost : status.code ≠ .ok) :
      NexusAnswer attempts failureOf service operation input (failureOf "INTERNAL"
        ("rpc RespondNexusTaskCompleted failed: " ++ status.message)).thrown
  | unregistered {t : NexusAttempt ω} (ht : t ∈ attempts)
      (missing : t.handler.operations (key service operation) = none) :
      NexusAnswer attempts failureOf service operation input (failureOf "NOT_FOUND"
        ("no Nexus operation registered for service '" ++ service ++ "' operation '" ++ operation ++
          "'")).thrown
  | timedOut : NexusAnswer attempts failureOf service operation input
      (.activityError "TimeoutError" "nexus operation timed out")
  | cancelled : NexusAnswer attempts failureOf service operation input
      (.activityError "CanceledError" "nexus operation cancelled")

theorem EventAttributes.delivery?_nexus {a : EventAttributes} {sid : Nat} {c : Closing}
    (h : a.delivery? = some (.nexus sid c)) :
    (∃ result, a = .nexusOperationCompleted sid result ∧ c = .completed [result]) ∨
    (∃ f, a = .nexusOperationFailed sid f ∧ c = .failed f.type f.message) ∨
    c = .failed "TimeoutError" "nexus operation timed out" ∨
    c = .failed "CanceledError" "nexus operation cancelled" := by
  cases a <;> simp only [delivery?, Option.some.injEq, Delivery.nexus.injEq, reduceCtorEq] at h
  case nexusOperationCompleted sid' result =>
    obtain ⟨rfl, rfl⟩ := h
    exact .inl ⟨result, rfl, rfl⟩
  case nexusOperationFailed sid' f =>
    obtain ⟨rfl, rfl⟩ := h
    exact .inr (.inl ⟨f, rfl, rfl⟩)
  case nexusOperationTimedOut sid' => exact .inr (.inr (.inl h.2.symm))
  case nexusOperationCanceled sid' => exact .inr (.inr (.inr h.2.symm))

section Answering

variable {σ ω : Type} {fuel : Nat} {info : WorkflowInfo} {world : World σ} {fn : WorkflowFn σ}
  {evicted : Nat → Bool} {batches : List History} {r : Runner σ}

/-- What `Get` gives a workflow of a Nexus operation it has called is what a worker made of just
this call. -/
theorem Conducted.nexus_answered (h : Conducted fuel info world fn evicted batches)
    (hr : (Runner.tasks fuel info world fn evicted batches).getLast? = some r)
    {attempts : Set (NexusAttempt ω)} {failureOf : String → String → Failure}
    (hserved : NexusServed batches.flatten
      ((Runner.tasks fuel info world fn evicted batches).flatMap Runner.commands) attempts
        failureOf)
    {i j a : Nat} {endpoint service operation : String} {input : Payload} {close : Int}
    {resp : Resp σ}
    (hcall : r.opAt i = .scheduleNexusOperation endpoint service operation input close)
    (hi : r.trace[i]? = some (.future a)) (hget : r.opAt j = .get a)
    (hj : r.trace[j]? = some resp) :
    NexusAnswer attempts failureOf service operation input resp := by
  obtain ⟨s, k, c, ending, -, hcalls, hc, hend, rfl⟩ :=
    h.call_answered hr (by rw [hcall]; rfl) hi hget hj
  rw [hcall] at hcalls
  cases k with
  | nexus id =>
    obtain ⟨m, hm, hcmd⟩ := hc
    obtain ⟨n, sid, hn, hsched, e, he, hd⟩ := hend
    obtain rfl : m = n := toString_nat_injective (hm.symm.trans hn)
    have hasked {t : NexusAttempt ω} (ht : t ∈ attempts) (hsid : t.scheduledEventId = sid) :
        t.task.request = .startOperation service operation input := by
      subst hsid
      obtain ⟨endpoint', service', operation', input', close', hcmd', hreq⟩ :=
        hserved.handedOut t ht m hsched
      rw [hcmd, hcalls, Option.some.injEq] at hcmd'
      injection hcmd' with _ hservice hoperation hinput _
      rw [hreq, hservice, hoperation, hinput]
    rcases EventAttributes.delivery?_nexus hd with ⟨result, ha, rfl⟩ | ⟨f, ha, rfl⟩ | rfl | rfl
    · obtain ⟨t, ht, hsid, ns, identity, token, hsent⟩ := hserved.completed e he sid result ha
      obtain ⟨f, hf, hout⟩ := NexusTaskHandler.of_completed (hasked ht hsid) hsent
      exact .returned ht hf hout
    · obtain ⟨t, ht, hsid, ns, identity, token, errorType, message, hsent, rfl⟩ :=
        hserved.failed e he sid f ha
      rcases NexusTaskHandler.of_failed (hasked ht hsid) hsent with
        ⟨hnone, rfl, rfl⟩ | ⟨rfl, f, hf, ⟨e, hout, hwhat⟩ | ⟨result, status, hout, hlost, rfl⟩⟩
      · exact .unregistered ht hnone
      · exact .threw ht hf hout hwhat
      · exact .undelivered ht hf hout hlost
    · exact .timedOut
    · exact .cancelled
  | _ => exact hcalls.elim

end Answering

section Typed

variable {J : Type}

/-- `R fn(Arg)`, as it is registered for an operation. -/
abbrev TypedOperation (ω : Type) (arg : JsonType J) (ret : Option (JsonType J)) :=
  arg.T → ω → Except Thrown (Ret ret) × ω

/-- The one payload an operation answers with, an empty one for `void`. -/
def ConverterStack.encodeOne (s : ConverterStack J) :
    (ret : Option (JsonType J)) → Ret ret → Except ConversionError Payload
  | none, _ => .ok { data := [] }
  | some t, v => s.encode t v

/-- `Worker::MakeNexusOperationFn`. -/
def makeNexusOperationFn {ω : Type} {arg : JsonType J} {ret : Option (JsonType J)}
    (s : ConverterStack J) (fn : TypedOperation ω arg ret) : NexusOperationFn ω := fun input w =>
  match s.decode arg input with
  | .error e => (.error e.thrown, w)
  | .ok v =>
    let run := fn v w
    (run.1.bind fun v => (s.encodeOne ret v).mapError ConversionError.thrown, run.2)

variable {σ ω : Type} {arg : JsonType J} {ret : Option (JsonType J)} {s : ConverterStack J}
  {outOfRange : Nat → Nat → String} {fn : TypedOperation ω arg ret}

/-- What a typed call of a Nexus operation comes to. A result that cannot be encoded, or whose
completion does not reach the server, is reported like an exception of the operation. -/
inductive TypedNexusAnswer (s : ConverterStack J) (attempts : Set (NexusAttempt ω))
    (failureOf : String → String → Failure) (fn : TypedOperation ω arg ret) (v : arg.T) :
    Except GetError (Ret ret) → Prop
  | returned {t : NexusAttempt ω} {result : Ret ret} (ht : t ∈ attempts)
      (outcome : (fn v t.world).1 = .ok result) :
      TypedNexusAnswer s attempts failureOf fn v (.ok result)
  | threw {t : NexusAttempt ω} {e : Thrown} {what : String} (ht : t ∈ attempts)
      (outcome : (fn v t.world).1 = .error e) (hwhat : e.what? = some what) :
      TypedNexusAnswer s attempts failureOf fn v (.error (.activityError
        (failureOf "INTERNAL" what).type (failureOf "INTERNAL" what).message))
  | unencodable {t : NexusAttempt ω} {result : Ret ret} {e : ConversionError} {what : String}
      (ht : t ∈ attempts) (outcome : (fn v t.world).1 = .ok result)
      (encoding : s.encodeOne ret result = .error e) (hwhat : e.thrown.what? = some what) :
      TypedNexusAnswer s attempts failureOf fn v (.error (.activityError
        (failureOf "INTERNAL" what).type (failureOf "INTERNAL" what).message))
  | undelivered {t : NexusAttempt ω} {result : Ret ret} {status : GrpcStatus} {what : String}
      (ht : t ∈ attempts) (outcome : (fn v t.world).1 = .ok result) (lost : status.code ≠ .ok)
      (hwhat : what = "rpc RespondNexusTaskCompleted failed: " ++ status.message) :
      TypedNexusAnswer s attempts failureOf fn v (.error (.activityError
        (failureOf "INTERNAL" what).type (failureOf "INTERNAL" what).message))
  | timedOut : TypedNexusAnswer s attempts failureOf fn v
      (.error (.activityError "TimeoutError" "nexus operation timed out"))
  | cancelled : TypedNexusAnswer s attempts failureOf fn v
      (.error (.activityError "CanceledError" "nexus operation cancelled"))

/-- The one payload of a result that was encoded. -/
theorem ConverterStack.get_encodeOne (h : s.Inverts) {v : Ret ret} {p : Payload}
    (hv : s.encodeOne ret v = .ok p) :
    Future.get (σ := σ) s outOfRange ret (.got [p]) = some (.ok v) := by
  cases ret with
  | none => rfl
  | some t =>
    show some ((s.decode t p).mapError _) = _
    rw [decode_encode h hv]
    rfl

/-- The adapted operation on an encoded argument. -/
theorem makeNexusOperationFn_encoded (h : s.Inverts) {v : arg.T} {input : Payload}
    (hin : s.encode arg v = .ok input) (w : ω) :
    (makeNexusOperationFn s fn input w).1 =
      (fn v w).1.bind fun v => (s.encodeOne ret v).mapError ConversionError.thrown := by
  unfold makeNexusOperationFn
  rw [ConverterStack.decode_encode h hin]

/-- An answer that came from the adapted operation is one of the typed operation. -/
theorem NexusAnswer.typed {attempts : Set (NexusAttempt ω)}
    {failureOf : String → String → Failure} {service operation : String} {v : arg.T}
    {input : Payload} {resp : Resp σ}
    (hans : NexusAnswer attempts failureOf service operation input resp) (h : s.Inverts)
    (hin : s.encode arg v = .ok input)
    (hreg : ∀ t ∈ attempts,
      t.handler.operations (key service operation) = some (makeNexusOperationFn s fn)) :
    ∃ x, Future.get s outOfRange ret resp = some x ∧
      TypedNexusAnswer s attempts failureOf fn v x := by
  have hfn {t : NexusAttempt ω} {f : NexusOperationFn ω} (ht : t ∈ attempts)
      (hf : t.handler.operations (key service operation) = some f) :
      (f input t.world).1 =
        (fn v t.world).1.bind fun v => (s.encodeOne ret v).mapError ConversionError.thrown := by
    obtain rfl := Option.some.inj (hf.symm.trans (hreg t ht))
    exact makeNexusOperationFn_encoded h hin t.world
  cases hans with
  | @returned t f result ht registered outcome =>
    rw [hfn ht registered] at outcome
    cases hcall : (fn v t.world).1 with
    | error e =>
      rw [hcall] at outcome
      cases outcome
    | ok value =>
      rw [hcall] at outcome
      cases henc : s.encodeOne ret value with
      | error e =>
        simp only [Except.bind, henc, Except.mapError] at outcome
        cases outcome
      | ok p =>
        simp only [Except.bind, henc, Except.mapError, Except.ok.injEq] at outcome
        subst outcome
        exact ⟨.ok value, ConverterStack.get_encodeOne h henc, .returned ht hcall⟩
  | @threw t f e what ht registered outcome hwhat =>
    rw [hfn ht registered] at outcome
    refine ⟨_, rfl, ?_⟩
    cases hcall : (fn v t.world).1 with
    | error e' =>
      rw [hcall] at outcome
      obtain rfl : e' = e := Except.error.inj outcome
      exact .threw ht hcall hwhat
    | ok value =>
      rw [hcall] at outcome
      cases henc : s.encodeOne ret value with
      | error e' =>
        simp only [Except.bind, henc, Except.mapError, Except.error.injEq] at outcome
        subst outcome
        exact .unencodable ht hcall henc hwhat
      | ok p =>
        simp only [Except.bind, henc, Except.mapError] at outcome
        cases outcome
  | @undelivered t f result status ht registered outcome lost =>
    rw [hfn ht registered] at outcome
    refine ⟨_, rfl, ?_⟩
    cases hcall : (fn v t.world).1 with
    | error e' =>
      rw [hcall] at outcome
      cases outcome
    | ok value => exact .undelivered ht hcall lost rfl
  | @unregistered t ht missing => cases missing.symm.trans (hreg t ht)
  | timedOut => exact ⟨_, rfl, .timedOut⟩
  | cancelled => exact ⟨_, rfl, .cancelled⟩

variable {fuel : Nat} {info : WorkflowInfo} {world : World σ} {body : WorkflowFn σ}
  {evicted : Nat → Bool} {batches : List History} {r : Runner σ}

/-- `ExecuteNexusOperation<R>(endpoint, service, operation, input).Get()` is a call of the operation
that is registered for the pair of names, on the very input: it gives the value the operation
returned, or throws an `ActivityError` for an exception of the operation, a result that could not be
sent, a time-out or a cancellation, and nothing else. -/
theorem Conducted.typed_nexus_answered (h : Conducted fuel info world body evicted batches)
    (hr : (Runner.tasks fuel info world body evicted batches).getLast? = some r)
    {attempts : Set (NexusAttempt ω)} {failureOf : String → String → Failure}
    (hserved : NexusServed batches.flatten
      ((Runner.tasks fuel info world body evicted batches).flatMap Runner.commands) attempts
        failureOf)
    {service operation : String} (hinv : s.Inverts)
    (hreg : ∀ t ∈ attempts,
      t.handler.operations (key service operation) = some (makeNexusOperationFn s fn))
    {v : arg.T} {input : Payload} (hin : s.encode arg v = .ok input) {endpoint : String}
    {close : Int} {i j a : Nat} {resp : Resp σ}
    (hcall : r.opAt i = .scheduleNexusOperation endpoint service operation input close)
    (hi : r.trace[i]? = some (.future a)) (hget : r.opAt j = .get a)
    (hj : r.trace[j]? = some resp) :
    ∃ x, Future.get s outOfRange ret resp = some x ∧
      TypedNexusAnswer s attempts failureOf fn v x := by
  have hans := h.nexus_answered hr hserved hcall hi hget hj
  exact hans.typed hinv hin hreg

end Typed

/-- A body that has the same operation applied twice, and waits for the second call first. -/
def octupling : WorkflowFn Unit where
  init := ()
  body input answers :=
    match answers with
    | [] => .scheduleNexusOperation "maths" "text" "double" (input.headD { data := [] }) 0
    | [_] => .scheduleNexusOperation "maths" "text" "double" (encodedText [8]) 0
    | [_, _] => .get 1
    | [_, _, _] => .get 0
    | [_, _, _, .got result] => .finish (.returned result)
    | _ => .finish (.returned [])

/-- `std::string twice(std::string)`. -/
def twiceOperation : TypedOperation Unit textType (some textType) :=
  fun (text : List UInt8) w => (.ok (text ++ text), w)

def octuplingTasks : List History :=
  [[⟨1, .workflowExecutionStarted "Octupling" [encodedText [7]] []⟩, ⟨2, .other⟩, ⟨3, .other⟩],
    [⟨4, .other⟩, ⟨5, .nexusOperationScheduled⟩, ⟨6, .nexusOperationScheduled⟩,
      ⟨7, .nexusOperationCompleted 6 (encodedText [8, 8])⟩,
      ⟨8, .nexusOperationCompleted 5 (encodedText [7, 7])⟩, ⟨9, .other⟩, ⟨10, .other⟩]]

def twiceNexusHandler : NexusTaskHandler Unit :=
  (NexusTaskHandler.create "default" "1@host" fun _ w => (⟨.ok, ""⟩, w)).register "text" "double"
    (makeNexusOperationFn textStack twiceOperation)

/-- The worker with the task of the operation that was scheduled first, and of the other. -/
def twiceNexusAttempt (sid : Nat) (text : List UInt8) : NexusAttempt Unit where
  scheduledEventId := sid
  handler := twiceNexusHandler
  task := ⟨"token", .startOperation "text" "double" (encodedText text)⟩
  world := ()

def twiceNexusAttempts : Set (NexusAttempt Unit) :=
  {t | t = twiceNexusAttempt 5 [7] ∨ t = twiceNexusAttempt 6 [8]}

theorem octupling_waiting (input : Payloads) (answers : List (Resp Unit)) :
    ((Runner.chain (.plain .tagged) octupling).body input answers).Waiting (.plain .tagged) := by
  change ((octupling.body input answers).Waiting _)
  unfold octupling
  dsimp only
  split <;> exact ⟨trivial, rfl⟩

theorem octupling_conducted :
    Conducted 10 {} (.plain .tagged) octupling (fun n => n == 1) octuplingTasks := by
  have hreports : (Runner.tasks 10 {} (.plain .tagged) octupling (fun n => n == 1)
      octuplingTasks).map Runner.report =
      [([.nexusOperationScheduled, .nexusOperationScheduled], none, false),
        ([], some (.completeWorkflowExecution [encodedText [7, 7]]), false)] := by
    decide +kernel
  have hserved : Served octuplingTasks.flatten :=
    ⟨by decide +kernel, by decide +kernel, by decide +kernel, by decide +kernel⟩
  exact .of_waiting octupling_waiting DataConverter.tagged_roundTrips hserved (by decide +kernel)
    (by decide +kernel) (.of_reports hreports (by decide +kernel) (by decide +kernel))
    (Runner.live_of_reports hreports (by decide +kernel))

theorem twiceNexus_registered : twiceNexusHandler.operations (key "text" "double") =
    some (makeNexusOperationFn textStack twiceOperation) := by
  simp [twiceNexusHandler, NexusTaskHandler.register]

theorem twiceNexus_responses (sid : Nat) (text : List UInt8) :
    (twiceNexusAttempt sid text).responses =
      [.respondNexusTaskCompleted "default" "1@host" "token" (encodedText (text ++ text))] := by
  unfold NexusAttempt.responses twiceNexusAttempt
  rw [NexusTaskHandler.handle_of_some _ _ _ _ _ _ twiceNexus_registered]
  rfl

theorem mem_octuplingTasks {e : HistoryEvent} (he : e ∈ octuplingTasks.flatten) :
    e = ⟨1, .workflowExecutionStarted "Octupling" [encodedText [7]] []⟩ ∨
      e.attributes = .other ∨ e.attributes = .nexusOperationScheduled ∨
      e = ⟨7, .nexusOperationCompleted 6 (encodedText [8, 8])⟩ ∨
      e = ⟨8, .nexusOperationCompleted 5 (encodedText [7, 7])⟩ := by
  revert e
  decide

theorem octupling_served : NexusServed octuplingTasks.flatten
    ((Runner.tasks 10 {} (.plain .tagged) octupling (fun n => n == 1) octuplingTasks).flatMap
      Runner.commands) twiceNexusAttempts fun type message => { message, type } := by
  have hcmds : (Runner.tasks 10 {} (.plain .tagged) octupling (fun n => n == 1)
      octuplingTasks).flatMap Runner.commands =
      [.scheduleNexusOperation "maths" "text" "double" (encodedText [7]) none,
        .scheduleNexusOperation "maths" "text" "double" (encodedText [8]) none] := by
    decide +kernel
  have hevents : History.nexusEvents octuplingTasks.flatten =
      [⟨5, .nexusOperationScheduled⟩, ⟨6, .nexusOperationScheduled⟩] := by
    decide +kernel
  rw [hcmds]
  constructor
  · intro t ht n hn
    rw [hevents] at hn
    rcases ht with rfl | rfl
    · obtain rfl : n = 0 := by
        match n with
        | 0 => rfl
        | 1 => simp [twiceNexusAttempt] at hn
        | n + 2 => simp at hn
      exact ⟨"maths", "text", "double", encodedText [7], none, rfl, rfl⟩
    · obtain rfl : n = 1 := by
        match n with
        | 0 => simp [twiceNexusAttempt] at hn
        | 1 => rfl
        | n + 2 => simp at hn
      exact ⟨"maths", "text", "double", encodedText [8], none, rfl, rfl⟩
  · intro e he sid result ha
    rcases mem_octuplingTasks he with rfl | ho | ho | rfl | rfl
    · cases ha
    · cases ho.symm.trans ha
    · cases ho.symm.trans ha
    · cases ha
      refine ⟨twiceNexusAttempt 6 [8], .inr rfl, rfl, "default", "1@host", "token", ?_⟩
      rw [twiceNexus_responses]
      exact List.mem_singleton_self _
    · cases ha
      refine ⟨twiceNexusAttempt 5 [7], .inl rfl, rfl, "default", "1@host", "token", ?_⟩
      rw [twiceNexus_responses]
      exact List.mem_singleton_self _
  · intro e he sid failure ha
    rcases mem_octuplingTasks he with rfl | ho | ho | rfl | rfl
    · cases ha
    · cases ho.symm.trans ha
    · cases ho.symm.trans ha
    · cases ha
    · cases ha

/-- The answers come in the order of neither the calls nor the waits. -/
theorem octupling_answered : ∃ x,
    Future.get (σ := Unit) textStack (fun _ _ => "out of range") (some textType)
      (.got [encodedText [7, 7]]) = some x ∧
    TypedNexusAnswer textStack twiceNexusAttempts (fun type message => { message, type })
      twiceOperation ([7] : List UInt8) x := by
  have hlast : ((Runner.tasks 10 {} (.plain .tagged) octupling (fun n => n == 1)
      octuplingTasks).getLast?.map fun r => (r.input, r.trace)) = some ([encodedText [7]],
        [.future 0, .future 1, .got [encodedText [8, 8]], .got [encodedText [7, 7]]]) := by
    decide +kernel
  obtain ⟨r, hr, hseen⟩ := Option.map_eq_some_iff.mp hlast
  obtain ⟨hinput, htrace⟩ := Prod.mk.inj hseen
  have hprogram := octupling_conducted.program_eq hr
  have hop (i : Nat) : r.opAt i = octupling.body [encodedText [7]]
      ([.future 0, .future 1, .got [encodedText [8, 8]], .got [encodedText [7, 7]]].take i) := by
    rw [Runner.opAt, hprogram, hinput, htrace]
    rfl
  have hreg : ∀ t ∈ twiceNexusAttempts, t.handler.operations (key "text" "double") =
      some (makeNexusOperationFn textStack twiceOperation) := by
    rintro t (rfl | rfl)
    · exact twiceNexus_registered
    · exact twiceNexus_registered
  have hin : textStack.encode textType ([7] : List UInt8) = .ok (encodedText [7]) := rfl
  exact octupling_conducted.typed_nexus_answered hr octupling_served textStack_inverts hreg hin
    (hop 0) (by rw [htrace]; rfl) (hop 3) (by rw [htrace]; rfl)

end TemporalSdk
