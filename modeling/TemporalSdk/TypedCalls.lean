import TemporalSdk.CallAnswers
import TemporalSdk.ConverterStack

/-! Typed calls of activities. `ExecuteActivity` encodes its arguments, `MakeActivityFn` adapts a
plain function to payloads, and `Future::Get` decodes its result: between them the call is one of
the function itself. -/
namespace TemporalSdk

variable {J : Type}

/-- A C++ type that crosses the public API: how a JSON value is made of it, and `get` reads it. -/
structure JsonType (J : Type) where
  T : Type
  toJson : T → J
  get : J → Except ConversionError T
  get_toJson : ∀ v, get (toJson v) = .ok v

/-- The tuple of the arguments of a signature. -/
def Args : List (JsonType J) → Type
  | [] => Unit
  | t :: ts => t.T × Args ts

/-- The result of a function; no type stands for `void`. -/
def Ret : Option (JsonType J) → Type
  | none => Unit
  | some t => t.T

/-- No error of a conversion is an `ApplicationError`. -/
def ConversionError.thrown : ConversionError → Thrown
  | .dataConverterError message => .stdException message
  | .other what => .stdException what

/-- `Payloads::at`; `outOfRange` is what `std::out_of_range` says of an index and a size. -/
def Payloads.at (outOfRange : Nat → Nat → String) (ps : Payloads) (i : Nat) :
    Except ConversionError Payload :=
  match ps[i]? with
  | some p => .ok p
  | none => .error (.other (outOfRange i ps.length))

namespace ConverterStack

variable (s : ConverterStack J) (outOfRange : Nat → Nat → String)

/-- `ToPayload<T>`. -/
def encode (t : JsonType J) (v : t.T) : Except ConversionError Payload := s.toPayload (t.toJson v)

/-- `FromPayload<T>`. -/
def decode (t : JsonType J) (p : Payload) : Except ConversionError t.T := do
  t.get (← s.fromPayload p)

/-- `ToPayloads`. -/
def toPayloads : (sig : List (JsonType J)) → Args sig → Except ConversionError Payloads
  | [], _ => .ok []
  | t :: ts, (v, vs) => do
    let p ← s.encode t v
    return p :: (← toPayloads ts vs)

/-- `DecodeArgs`, from the `i`-th payload on. -/
def decodeArgs (input : Payloads) :
    (sig : List (JsonType J)) → Nat → Except ConversionError (Args sig)
  | [], _ => .ok ()
  | t :: ts, i => do
    let v ← s.decode t (← input.at outOfRange i)
    return (v, ← decodeArgs input ts (i + 1))

/-- The payloads a function answers with. -/
def encodeResult : (ret : Option (JsonType J)) → Ret ret → Except ConversionError Payloads
  | none, _ => .ok []
  | some t, v => do return [← s.encode t v]

/-- What has been encoded is decoded. -/
def Inverts : Prop := ∀ v p, s.toPayload v = .ok p → s.fromPayload p = .ok v

end ConverterStack

/-- A plain function that has been run. -/
structure TypedExecution (R ω : Type) where
  outcome : Except Thrown R
  context : ActivityContext
  world : ω

/-- A function as it is registered, `R fn(activity::Context&, Args...)`. -/
abbrev TypedActivity (ω : Type) (sig : List (JsonType J)) (ret : Option (JsonType J)) :=
  ActivityContext → Args sig → ω → TypedExecution (Ret ret) ω

/-- `Worker::MakeActivityFn`. -/
def makeActivityFn {ω : Type} {sig : List (JsonType J)} {ret : Option (JsonType J)}
    (s : ConverterStack J) (outOfRange : Nat → Nat → String) (fn : TypedActivity ω sig ret) :
    RemoteActivityFn ω := fun ctx input w =>
  match s.decodeArgs outOfRange input sig 0 with
  | .error e => { outcome := .error e.thrown, context := ctx, world := w }
  | .ok args =>
    let run := fn ctx args w
    { outcome := run.outcome.bind fun v => (s.encodeResult ret v).mapError ConversionError.thrown
      context := run.context
      world := run.world }

/-- What `Future<T>::Get` throws. -/
inductive GetError where
  | activityError (type message : String)
  | conversionError (e : ConversionError)
  deriving DecidableEq, Repr

/-- `Future<T>::Get` on what `Block` has let through. -/
def Future.get {σ : Type} (s : ConverterStack J) (outOfRange : Nat → Nat → String)
    (ret : Option (JsonType J)) : Resp σ → Option (Except GetError (Ret ret))
  | .activityError type message => some (.error (.activityError type message))
  | .got result =>
    match ret with
    | none => some (.ok ())
    | some t => some ((result.at outOfRange 0 >>= s.decode t).mapError .conversionError)
  | _ => none

namespace ConverterStack

variable {s : ConverterStack J} {outOfRange : Nat → Nat → String}

/-- Lawful converters with distinct encodings, under codecs that invert. -/
theorem Inverts.of_lawful (hdistinct : (s.converters.map PayloadConverter.encoding).Nodup)
    (hlawful : ∀ c ∈ s.converters, c.Lawful) (hcodecs : CodecsInvert s.codecs) : s.Inverts := by
  intro v p hp
  have hacc : ∃ c ∈ s.converters, c.Accepts v := by
    by_contra hnone
    have hrefused : ∀ c ∈ s.converters, c.toPayload v = .ok none := by
      intro c hc
      obtain ⟨result, hresult⟩ := (hlawful c hc).returns v
      cases result with
      | none => exact hresult
      | some q => exact absurd ⟨c, hc, q, hresult⟩ hnone
    rw [toPayload, toPayloadJson_of_none hrefused] at hp
    cases hp
  obtain ⟨c, q, hfirst⟩ := exists_firstAccepts (fun c hc => (hlawful c hc).returns v) hacc
  have hc := hlawful c hfirst.mem
  obtain ⟨_, _, _, _, hq⟩ := id hfirst
  have htrip : (s.toPayload v >>= s.fromPayload) = .ok v :=
    hfirst.fromPayload_toPayload (hc.stamps v q hq) (hc.decodes v q hq) hcodecs hfirst.mem hdistinct
  rwa [hp] at htrip

theorem decode_encode (h : s.Inverts) {t : JsonType J} {v : t.T} {p : Payload}
    (hp : s.encode t v = .ok p) : s.decode t p = .ok v := by
  show (do t.get (← s.fromPayload p)) = _
  rw [h _ p hp]
  exact t.get_toJson v

/-- The arguments come back, whatever payloads stand before and after them. -/
theorem decodeArgs_toPayloads (outOfRange : Nat → Nat → String) (h : s.Inverts)
    {sig : List (JsonType J)} {args : Args sig} {input : Payloads}
    (hin : s.toPayloads sig args = .ok input) (before extra : Payloads) :
    s.decodeArgs outOfRange (before ++ input ++ extra) sig before.length = .ok args := by
  induction sig generalizing input before with
  | nil => rfl
  | cons t ts ih =>
    obtain ⟨v, vs⟩ := args
    cases hv : s.encode t v with
    | error e =>
      rw [toPayloads, hv] at hin
      cases hin
    | ok p =>
      cases hvs : s.toPayloads ts vs with
      | error e =>
        rw [toPayloads, hv, hvs] at hin
        cases hin
      | ok rest =>
        have hinput : input = p :: rest := by
          rw [toPayloads, hv, hvs] at hin
          exact (Except.ok.inj hin).symm
        subst hinput
        have hat : (before ++ p :: rest ++ extra).at outOfRange before.length = .ok p := by
          simp [Payloads.at]
        have hrest := ih hvs (before ++ [p])
        rw [List.length_append, List.length_singleton, List.append_assoc before,
          List.singleton_append] at hrest
        rw [decodeArgs, hat]
        show (s.decode t p >>= fun v => do return (v, ← s.decodeArgs outOfRange _ ts _)) = _
        rw [decode_encode h hv, hrest]
        rfl

/-- `Get` gives back the result of a function that returned it. -/
theorem get_encodeResult {σ : Type} (h : s.Inverts) {ret : Option (JsonType J)} {v : Ret ret}
    {result : Payloads} (hv : s.encodeResult ret v = .ok result) :
    Future.get (σ := σ) s outOfRange ret (.got result) = some (.ok v) := by
  cases ret with
  | none => rfl
  | some t =>
    cases hp : s.encode t v with
    | error e =>
      rw [encodeResult, hp] at hv
      cases hv
    | ok p =>
      have hresult : [p] = result := by
        rw [encodeResult, hp] at hv
        exact Except.ok.inj hv
      subst hresult
      show some ((s.decode t p).mapError _) = _
      rw [decode_encode h hp]
      rfl

end ConverterStack

section Answering

variable {σ ω : Type} {sig : List (JsonType J)} {ret : Option (JsonType J)}
  {s : ConverterStack J} {outOfRange : Nat → Nat → String} {fn : TypedActivity ω sig ret}

/-- The worker has called the function on the arguments. -/
def ActivityAttempt.call (t : ActivityAttempt ω) (fn : TypedActivity ω sig ret) (args : Args sig) :
    TypedExecution (Ret ret) ω :=
  fn { info := t.handler.info t.task } args t.world

/-- What a typed call comes to. A result that cannot be encoded, or whose completion does not reach
the server, is reported like an exception of the function. -/
inductive TypedAnswer (s : ConverterStack J) (attempts : Set (ActivityAttempt ω))
    (fn : TypedActivity ω sig ret) (args : Args sig) : Except GetError (Ret ret) → Prop
  | returned {t : ActivityAttempt ω} {v : Ret ret} (ht : t ∈ attempts)
      (outcome : (t.call fn args).outcome = .ok v) : TypedAnswer s attempts fn args (.ok v)
  | threw {t : ActivityAttempt ω} {e : Thrown} {failure : Failure} (ht : t ∈ attempts)
      (outcome : (t.call fn args).outcome = .error e)
      (reported : t.handler.reported e = some failure) :
      TypedAnswer s attempts fn args (.error (.activityError failure.type failure.message))
  | unencodable {t : ActivityAttempt ω} {v : Ret ret} {e : ConversionError} {failure : Failure}
      (ht : t ∈ attempts) (outcome : (t.call fn args).outcome = .ok v)
      (encoding : s.encodeResult ret v = .error e)
      (reported : t.handler.reported e.thrown = some failure) :
      TypedAnswer s attempts fn args (.error (.activityError failure.type failure.message))
  | undelivered {t : ActivityAttempt ω} {v : Ret ret} {status : GrpcStatus} {failure : Failure}
      (ht : t ∈ attempts) (outcome : (t.call fn args).outcome = .ok v)
      (lost : status.code ≠ .ok)
      (reported : t.handler.reported (.ofStatus "RespondActivityTaskCompleted" status) =
        some failure) :
      TypedAnswer s attempts fn args (.error (.activityError failure.type failure.message))
  | timedOut : TypedAnswer s attempts fn args
      (.error (.activityError "TimeoutError" "activity timed out"))
  | cancelled : TypedAnswer s attempts fn args
      (.error (.activityError "CanceledError" "activity cancelled"))

/-- A worker without interceptors that has been handed the call runs the function on the decoded
arguments. -/
theorem ActivityAttempt.Ran.typed {t : ActivityAttempt ω} {type : String} {args : Args sig}
    {input extra : Payloads} {run : Execution ω} (hrun : t.Ran type (input ++ extra) run)
    (h : s.Inverts) (hin : s.toPayloads sig args = .ok input) (hplain : t.handler.interceptors = [])
    (hreg : t.handler.activities type = some (makeActivityFn s outOfRange fn)) :
    run.outcome = (t.call fn args).outcome.bind fun v =>
      (s.encodeResult ret v).mapError ConversionError.thrown := by
  obtain ⟨rfl, hinput, hexec⟩ := hrun
  obtain ⟨f, hf, rfl⟩ := Option.map_eq_some_iff.mp hexec
  obtain rfl := Option.some.inj (hf.symm.trans hreg)
  have hdecode := ConverterStack.decodeArgs_toPayloads outOfRange h hin [] extra
  rw [List.nil_append, List.length_nil] at hdecode
  unfold ActivityTaskHandler.execute
  rw [hplain, hinput]
  show (makeActivityFn s outOfRange fn { info := t.handler.info t.task } (input ++ extra)
    t.world).outcome = _
  unfold makeActivityFn
  rw [hdecode]
  rfl

/-- An answer that came from the registered function is one of the typed function. Arguments beyond
those of its signature are not looked at. -/
theorem ActivityAnswer.typed {attempts : Set (ActivityAttempt ω)} {type : String} {args : Args sig}
    {input extra : Payloads} {resp : Resp σ}
    (hans : ActivityAnswer attempts type (input ++ extra) resp) (h : s.Inverts)
    (hin : s.toPayloads sig args = .ok input)
    (hreg : ∀ t ∈ attempts, t.handler.interceptors = [] ∧
      t.handler.activities type = some (makeActivityFn s outOfRange fn)) :
    ∃ x, Future.get s outOfRange ret resp = some x ∧ TypedAnswer s attempts fn args x := by
  cases hans with
  | @returned t run result ht ran outcome now =>
    obtain ⟨hplain, hfn⟩ := hreg t ht
    rw [ran.typed h hin hplain hfn] at outcome
    cases hcall : (t.call fn args).outcome with
    | error e =>
      rw [hcall] at outcome
      cases outcome
    | ok v =>
      rw [hcall] at outcome
      cases henc : s.encodeResult ret v with
      | error e =>
        simp only [Except.bind, henc, Except.mapError] at outcome
        cases outcome
      | ok result' =>
        simp only [Except.bind, henc, Except.mapError, Except.ok.injEq] at outcome
        subst outcome
        exact ⟨.ok v, ConverterStack.get_encodeResult h henc, .returned ht hcall⟩
  | @threw t run e failure ht ran thrown reported =>
    obtain ⟨hplain, hfn⟩ := hreg t ht
    have houtcome := ran.typed h hin hplain hfn
    refine ⟨_, rfl, ?_⟩
    cases hcall : (t.call fn args).outcome with
    | error e' =>
      rw [hcall] at houtcome
      rcases thrown with hthrew | ⟨result, hreturned, -⟩
      · obtain rfl : e = e' := Except.error.inj (hthrew.symm.trans houtcome)
        exact .threw ht hcall reported
      · cases hreturned.symm.trans houtcome
    | ok v =>
      rw [hcall] at houtcome
      cases henc : s.encodeResult ret v with
      | error e' =>
        simp only [Except.bind, henc, Except.mapError] at houtcome
        rcases thrown with hthrew | ⟨result, hreturned, -⟩
        · obtain rfl : e = e'.thrown := Except.error.inj (hthrew.symm.trans houtcome)
          exact .unencodable ht hcall henc reported
        · cases hreturned.symm.trans houtcome
      | ok result' =>
        simp only [Except.bind, henc, Except.mapError] at houtcome
        rcases thrown with hthrew | ⟨result, -, -, hlost, rfl⟩
        · cases hthrew.symm.trans houtcome
        · exact .undelivered ht hcall hlost reported
  | @unregistered t ht missing =>
    obtain ⟨-, hfn⟩ := hreg t ht
    cases missing.symm.trans hfn
  | timedOut => exact ⟨_, rfl, .timedOut⟩
  | cancelled => exact ⟨_, rfl, .cancelled⟩

variable {fuel : Nat} {info : WorkflowInfo} {world : World σ} {body : WorkflowFn σ}
  {evicted : Nat → Bool} {batches : List History} {r : Runner σ}

/-- `ExecuteActivity<R>(type, args...).Get()` is a call of the function that is registered for the
type, on the very arguments: it gives the value the function returned, or throws an `ActivityError`
for an exception of the function, a result that could not be sent, a time-out or a cancellation, and
nothing else. -/
theorem Conducted.typed_activity_answered (h : Conducted fuel info world body evicted batches)
    (hr : (Runner.tasks fuel info world body evicted batches).getLast? = some r)
    {attempts : Set (ActivityAttempt ω)}
    (hserved : ActivitiesServed batches.flatten
      ((Runner.tasks fuel info world body evicted batches).flatMap Runner.commands) attempts)
    {type : String} (hinv : s.Inverts)
    (hreg : ∀ t ∈ attempts, t.handler.activities type = some (makeActivityFn s outOfRange fn))
    (hplain : ∀ t ∈ attempts, t.handler.interceptors = []) {args : Args sig} {input : Payloads}
    (hin : s.toPayloads sig args = .ok input) (extra : Payloads) {options : ActivityOptions}
    {i j a : Nat} {resp : Resp σ}
    (hcall : r.opAt i = .scheduleActivity type (input ++ extra) options)
    (hi : r.trace[i]? = some (.future a)) (hget : r.opAt j = .get a)
    (hj : r.trace[j]? = some resp) :
    ∃ x, Future.get s outOfRange ret resp = some x ∧ TypedAnswer s attempts fn args x := by
  have hans := h.activity_answered hr hserved hcall hi hget hj
  exact hans.typed hinv hin fun t ht => ⟨hplain t ht, hreg t ht⟩

end Answering

/-- Texts, which are JSON values as they are. -/
def textType : JsonType (List UInt8) where
  T := List UInt8
  toJson := id
  get := .ok
  get_toJson _ := rfl

def textStack : ConverterStack (List UInt8) := ⟨[jsonPayloadConverter .ok .ok], []⟩

/-- `std::string twice(activity::Context&, std::string)`. -/
def twice : TypedActivity Unit [textType] (some textType) :=
  fun ctx (args : List UInt8 × Unit) w =>
    { outcome := .ok (args.1 ++ args.1), context := ctx, world := w }

def encodedText (text : List UInt8) : Payload where
  metadata := [(kEncoding, "json/plain")]
  data := text

def twiceTasks : List History :=
  [[⟨1, .workflowExecutionStarted "Doubling" [encodedText [7]] []⟩, ⟨2, .other⟩, ⟨3, .other⟩],
    [⟨4, .other⟩, ⟨5, .activityTaskScheduled "0" "Double"⟩,
      ⟨6, .activityTaskCompleted 5 [encodedText [7, 7]]⟩, ⟨7, .other⟩, ⟨8, .other⟩]]

def twiceAttempt : ActivityAttempt Unit where
  handler :=
    { identity := "worker"
      taskQueue := "queue"
      activities := fun name =>
        if name = "Double" then some (makeActivityFn textStack (fun _ _ => "out of range") twice)
        else none
      interceptors := []
      failureConverter := none
      stub := fun _ w => (⟨.ok, ""⟩, w) }
  task :=
    { taskToken := "token", activityId := "0", activityType := "Double", workflowId := "doubling-1"
      input := [encodedText [7]] }
  world := ()

theorem textStack_inverts : textStack.Inverts := by
  refine .of_lawful (by decide) ?_ fun _ => rfl
  exact List.forall_mem_singleton.mpr (jsonPayloadConverter_lawful fun _ => ⟨_, rfl, rfl⟩)

theorem twice_conducted :
    Conducted 10 {} (.plain .tagged) doubling (fun n => n == 1) twiceTasks := by
  have hreports : (Runner.tasks 10 {} (.plain .tagged) doubling (fun n => n == 1)
      twiceTasks).map Runner.report =
      [([.activityTaskScheduled "0" "Double"], none, false),
        ([], some (.completeWorkflowExecution [encodedText [7, 7]]), false)] := by
    decide +kernel
  have hserved : Served twiceTasks.flatten :=
    ⟨by decide +kernel, by decide +kernel, by decide +kernel, by decide +kernel⟩
  exact .of_waiting doubling_waiting DataConverter.tagged_roundTrips hserved (by decide +kernel)
    (by decide +kernel) (.of_reports hreports (by decide +kernel) (by decide +kernel))
    (Runner.live_of_reports hreports (by decide +kernel))

theorem mem_twiceTasks {e : HistoryEvent} (he : e ∈ twiceTasks.flatten) :
    e = ⟨1, .workflowExecutionStarted "Doubling" [encodedText [7]] []⟩ ∨ e.attributes = .other ∨
      e = ⟨5, .activityTaskScheduled "0" "Double"⟩ ∨
      e = ⟨6, .activityTaskCompleted 5 [encodedText [7, 7]]⟩ := by
  revert e
  decide

theorem twice_served : ActivitiesServed twiceTasks.flatten
    ((Runner.tasks 10 {} (.plain .tagged) doubling (fun n => n == 1) twiceTasks).flatMap
      Runner.commands) {twiceAttempt} := by
  have hcmds : (Runner.tasks 10 {} (.plain .tagged) doubling (fun n => n == 1)
      twiceTasks).flatMap Runner.commands =
      [(Setting.ofHistory {} (.plain .tagged) doubling
          []).runner.scheduleActivityCommand "0" "Double" [encodedText [7]] {}] := by
    decide +kernel
  rw [hcmds]
  constructor
  · rintro t rfl
    exact ⟨_, List.mem_cons_self, rfl, rfl, rfl, rfl⟩
  · intro e he sid result ha id type hs
    rcases mem_twiceTasks he with rfl | ho | rfl | rfl
    case inr.inl => cases ho.symm.trans ha
    all_goals cases ha
    rcases mem_twiceTasks hs with hs | hs | hs | hs <;> cases hs
    exact ⟨twiceAttempt, rfl, rfl, "token", "worker", some [encodedText [7, 7]],
      List.mem_singleton_self _, rfl⟩
  · intro e he sid failure ha
    rcases mem_twiceTasks he with rfl | ho | rfl | rfl
    case inr.inl => cases ho.symm.trans ha
    all_goals cases ha

theorem twice_answered : ∃ x,
    Future.get (σ := Unit) textStack (fun _ _ => "out of range") (some textType)
      (.got [encodedText [7, 7]]) = some x ∧
    TypedAnswer textStack {twiceAttempt} twice (([7], ()) : List UInt8 × Unit) x := by
  have hlast : ((Runner.tasks 10 {} (.plain .tagged) doubling (fun n => n == 1)
      twiceTasks).getLast?.map fun r => (r.input, r.trace)) =
      some ([encodedText [7]], [.future 0, .got [encodedText [7, 7]]]) := by
    decide +kernel
  obtain ⟨r, hr, hseen⟩ := Option.map_eq_some_iff.mp hlast
  obtain ⟨hinput, htrace⟩ := Prod.mk.inj hseen
  have hprogram := twice_conducted.program_eq hr
  have hop (i : Nat) : r.opAt i = doubling.body [encodedText [7]]
      ([.future 0, .got [encodedText [7, 7]]].take i) := by
    rw [Runner.opAt, hprogram, hinput, htrace]
    rfl
  have hreg : ∀ t ∈ ({twiceAttempt} : Set (ActivityAttempt Unit)), t.handler.activities "Double" =
      some (makeActivityFn textStack (fun _ _ => "out of range") twice) := by
    rintro t rfl
    rfl
  have hplain : ∀ t ∈ ({twiceAttempt} : Set (ActivityAttempt Unit)),
      t.handler.interceptors = [] := by
    rintro t rfl
    rfl
  have hin : textStack.toPayloads [textType] (([7], ()) : List UInt8 × Unit) =
      .ok [encodedText [7]] := rfl
  exact twice_conducted.typed_activity_answered hr twice_served textStack_inverts hreg hplain hin []
    (hop 0) (by rw [htrace]; rfl) (hop 1) (by rw [htrace]; rfl)

end TemporalSdk
