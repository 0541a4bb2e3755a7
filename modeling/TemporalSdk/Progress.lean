import TemporalSdk.Records

/-! The progress of a workflow body with the engine taken away: what the body has seen and asked
for, given what history has revealed so far. Every command is issued here, whether or not a
runner would find it on record. -/
namespace TemporalSdk

/-- What every runner of one execution is built with; the headers are part of `info`. -/
structure Setting (σ : Type) where
  info : WorkflowInfo
  world : World σ
  workflowFn : WorkflowFn σ
  input : Payloads

/-- A runner without a past. -/
def Setting.runner {σ : Type} (s : Setting σ) : Runner σ where
  info := s.info
  isReplaying := false
  scan := {}
  world := s.world
  workflowFn := s.workflowFn
  input := s.input
  store := (Runner.chain s.world s.workflowFn).init

def Setting.program {σ : Type} (s : Setting σ) : Program σ := s.runner.program

/-- How far a body has come. -/
structure Progress (σ : Type) where
  store : σ
  trace : List (Resp σ) := []
  issued : List Command := []
  keys : List Key := []
  signalCursor : PartialMap String Nat := fun _ => none
  queryHandlers : PartialMap String (Handler σ) := fun _ => none
  updateHandlers : PartialMap String (Handler σ) := fun _ => none
  updateValidators : PartialMap String (Handler σ) := fun _ => none
  mseCallCount : PartialMap String Nat := fun _ => none
  mseCurrent : PartialMap String Value := fun _ => none
  outcome : Option Outcome := none

def Setting.start {σ : Type} (s : Setting σ) : Progress σ where
  store := s.runner.store

/-- The change a `GetVersion` asks for, and the version its first call records. -/
def Op.version? {σ : Type} : Op σ → Option (String × Int)
  | .getVersion changeId _ maxSupported => some (changeId, maxSupported)
  | _ => none

/-- The changes a body has asked for on its way. -/
def Program.versions {σ : Type} (p : Program σ) (trace : List (Resp σ)) : List (String × Int) :=
  (List.range trace.length).filterMap fun i => (p (trace.take i)).version?

theorem Program.versions_concat {σ : Type} (p : Program σ) (trace : List (Resp σ))
    (resp : Resp σ) :
    p.versions (trace ++ [resp]) = p.versions trace ++ (p trace).version?.toList := by
  have hlast : [trace.length].filterMap (fun i => (p ((trace ++ [resp]).take i)).version?) =
      (p trace).version?.toList := by
    rw [List.filterMap_cons, List.take_left]
    cases (p trace).version? <;> rfl
  have hinit : (List.range trace.length).filterMap
      (fun i => (p ((trace ++ [resp]).take i)).version?) = p.versions trace := by
    refine List.filterMap_congr fun i hi => ?_
    rw [List.take_append_of_le_length (List.mem_range.mp hi).le]
  rw [versions, List.length_append, List.length_singleton, List.range_succ, List.filterMap_append,
    hinit, hlast]

/-- The details of the marker the first `GetVersion` of a change records. -/
def Runner.versionDetails (c : DataConverter) (changeId : String) (version : Int) :
    List (String × Payloads) :=
  [("change-id", [c.toPayload (.str changeId)]), ("version", [c.toPayload (.int version)])]

/-- The details of the marker of a changed `MutableSideEffect`. -/
def Runner.mutableDetails (c : DataConverter) (id : String) (idx : Nat) (v : Value) :
    List (String × Payloads) :=
  [("id", [c.toPayload (.str id)]), ("mse-call-index", [c.toPayload (.int idx)]),
    ("data", [c.toPayload v])]

namespace Progress

variable {σ : Type}

/-- The events of the commands issued so far. -/
def events (b : Progress σ) : List EventAttributes := b.issued.map Command.event

def activitySeq (b : Progress σ) : Nat := (b.events.filterMap EventAttributes.activityId?).length

def timerSeq (b : Progress σ) : Nat := (b.events.filterMap EventAttributes.timerId?).length

def childSeq (b : Progress σ) : Nat := (b.events.filterMap EventAttributes.childId?).length

def nexusSeq (b : Progress σ) : Nat := b.events.countP EventAttributes.isNexus

def extSignalSeq (b : Progress σ) : Nat := b.events.countP EventAttributes.isExtSignal

def upsertSeq (b : Progress σ) : Nat := b.events.countP EventAttributes.isUpsert

def sideEffectSeq (b : Progress σ) : Nat :=
  (b.events.filterMap EventAttributes.sideEffect?).length

def localActivitySeq (b : Progress σ) : Nat :=
  (b.events.filterMap EventAttributes.localActivity?).length

def issue (b : Progress σ) (c : Command) : Progress σ := { b with issued := b.issued ++ [c] }

/-- Issue a command and hand out its future. -/
def opening (b : Progress σ) (c : Command) (k : Key) : Progress σ :=
  { b.issue c with keys := b.keys ++ [k] }

/-- A future of the body, as far as `S` has revealed it. -/
def future (b : Progress σ) (S : Prescan) (addr : Nat) : FutureState :=
  (b.keys[addr]?.map S.future).getD {}

/-- The signal the body would receive next. -/
def nextSignal (b : Progress σ) (S : Prescan) (name : String) : Option Payloads :=
  (S.signals name).bind fun buffered => buffered[(b.signalCursor name).getD 0]?

def consume (b : Progress σ) (name : String) : Progress σ :=
  { b with signalCursor := b.signalCursor.insert name ((b.signalCursor name).getD 0 + 1) }

def caseReady (b : Progress σ) (S : Prescan) : SelectCase → Bool
  | .future addr => (b.future S addr).ready
  | .receive name => (b.nextSignal S name).isSome

def childId (s : Setting σ) (b : Progress σ) : String :=
  s.info.workflowId ++ "_c" ++ toString b.childSeq

/-- A `MutableSideEffect` whose function gave `v`: the current value stays if it is equal. -/
def mutable (b : Progress σ) (c : DataConverter) (id : String) (equals : Value → Value → Bool)
    (v : Value) : Progress σ × Resp σ :=
  let idx := (b.mseCallCount id).getD 0
  let b' := { b with mseCallCount := b.mseCallCount.insert id (idx + 1) }
  match (b.mseCurrent id).filter (equals · v) with
  | some current => (b', .value current)
  | none =>
    ({ b'.issue (.recordMarker "MutableSideEffect" (Runner.mutableDetails c id idx v)) with
      mseCurrent := b.mseCurrent.insert id v }, .value v)

theorem mutable_calls (b : Progress σ) (c : DataConverter) (id : String)
    (equals : Value → Value → Bool) (v : Value) :
    (b.mutable c id equals v).1.mseCallCount =
      b.mseCallCount.insert id ((b.mseCallCount id).getD 0 + 1) := by
  unfold Progress.mutable
  dsimp only
  split <;> rfl

/-- `Future::Cancel`: the request for an activity names its schedule event, which `S` has to know.
Timers are not followed, their futures would be ready at once; nothing else can be cancelled. -/
def request (s : Setting σ) (S : Prescan) (b : Progress σ) (addr : Nat) : Option (Progress σ) :=
  match b.keys[addr]? with
  | some (.activity id) =>
    (S.activityToSchedEvent id).map fun sid => b.issue (.requestCancelActivityTask sid)
  | some (.child id) => some (b.issue (.requestCancelExternalWorkflowExecution s.info.ns id true))
  | some (.timer _) => none
  | some (.nexus _) | some .cancellation | none => some b

/-- One operation, for the operations of `Op.Redoes`; `none` when it waits. -/
def exec (s : Setting σ) (S : Prescan) (b : Progress σ) : Op σ → Option (Progress σ × Resp σ)
  | .scheduleActivity type input options =>
    let id := toString b.activitySeq
    some (b.opening (s.runner.scheduleActivityCommand id type input options) (.activity id),
      .future b.keys.length)
  | .startTimer duration =>
    let id := "t" ++ toString b.timerSeq
    some (b.opening (.startTimer id (toProtoDuration duration)) (.timer id), .future b.keys.length)
  | .startChildWorkflow type input options =>
    if options.id.isEmpty then
      some (b.opening (.startChildWorkflowExecution s.info.ns (b.childId s) type
        (s.runner.queueOr options.taskQueue) input options.parentClosePolicy)
        (.child (b.childId s)), .future b.keys.length)
    else none
  | .scheduleNexusOperation endpoint service operation input close =>
    some (b.opening (.scheduleNexusOperation endpoint service operation input
      (if 0 < close then some (toProtoDuration close) else none)) (.nexus (toString b.nexusSeq)),
      .future b.keys.length)
  | .signalExternalWorkflow id name input =>
    some (b.issue (.signalExternalWorkflowExecution s.info.ns id name input), .unit)
  | .upsertSearchAttributes attributes =>
    some (b.issue (.upsertWorkflowSearchAttributes attributes), .unit)
  | .get addr =>
    if (b.future S addr).ready then some (b, Runner.futureValue (b.future S addr)) else none
  | .isReady addr => some (b, .flag (b.future S addr).ready)
  | .receive name => (b.nextSignal S name).map fun p => (b.consume name, .received p)
  | .receiveAsync name =>
    match b.nextSignal S name with
    | some p => some (b.consume name, .received p)
    | none => some (b, .notReceived)
  | .hasPending name => some (b, .flag (b.nextSignal S name).isSome)
  | .select cases hasDefault =>
    match cases.findIdx? (b.caseReady S) with
    | some i => some (b, .selected (some i))
    | none => if hasDefault then some (b, .selected none) else none
  | .isCancelled => some (b, .flag S.cancelRequested)
  | .awaitCancellation =>
    some ({ b with keys := b.keys ++ [.cancellation] }, .future b.keys.length)
  | .sideEffect =>
    match s.world.sideEffectFn b.sideEffectSeq with
    | .ok v =>
      some (b.issue (.recordMarker "SideEffect"
        (Runner.sideEffectDetails s.world.converter b.sideEffectSeq v)), .value v)
    | .error _ => none
  | .mutableSideEffect id equals =>
    match s.world.mutableSideEffectFn id ((b.mseCallCount id).getD 0) with
    | .ok v => some (b.mutable s.world.converter id equals v)
    | .error _ => none
  | .getVersion changeId lo hi =>
    if lo ≤ hi ∧ changeId ∉ (s.program.versions b.trace).map Prod.fst then
      some (b.issue (.recordMarker "Version"
        (Runner.versionDetails s.world.converter changeId hi)), .version hi)
    else none
  | .executeLocalActivity type input options =>
    (s.world.localActivityResolver.bind (· type)).map fun fn =>
      let outcome := Runner.runLocalActivity s.info fn b.localActivitySeq type input options
      (b.issue (.recordMarker "LocalActivity"
        (Runner.localActivityDetails s.world.converter outcome)), Runner.localActivityResp outcome)
  | .setQueryHandler name h =>
    some ({ b with queryHandlers := b.queryHandlers.insert name h }, .unit)
  | .setUpdateHandler name h =>
    some ({ b with updateHandlers := b.updateHandlers.insert name h }, .unit)
  | .setUpdateValidator name h =>
    some ({ b with updateValidators := b.updateValidators.insert name h }, .unit)
  | .getInfo => some (b, .info s.info)
  | .readStore => some (b, .store b.store)
  | .writeStore x => some ({ b with store := x }, .unit)
  | .cancel addr => (b.request s S addr).map (·, .unit)
  | .cancelExternalWorkflow id =>
    some (b.issue (.requestCancelExternalWorkflowExecution s.info.ns id false), .unit)
  | .isReplaying | .finish _ => none

/-- One operation of the body. -/
def step (s : Setting σ) (S : Prescan) (b : Progress σ) : Option (Progress σ) :=
  if b.outcome.isSome then none
  else
    match (s.program b.trace).outcome? with
    | some o => some { b with outcome := some o }
    | none =>
      (b.exec s S (s.program b.trace)).map fun x => { x.1 with trace := b.trace ++ [x.2] }

/-- What the determinism check sees of the outcome. -/
def terminalEntry : Outcome → List CommandEvent
  | .returned _ => [⟨.completeWorkflow, "", ""⟩]
  | .continueAsNew .. => [⟨.continueAsNew, "", ""⟩]
  | .applicationError .. | .stdException _ => [⟨.failWorkflow, "", ""⟩]
  | .otherException => []

/-- Everything the body has produced so far. -/
def produced (b : Progress σ) : List CommandEvent :=
  entriesFrom 0 b.events ++ (b.outcome.map terminalEntry).getD []

end Progress

/-- The operations that can be replayed from history alone: no cancellation from inside, child
ids are generated, side effects return and local activities are registered. -/
def Op.Replayable {σ : Type} (w : World σ) : Op σ → Prop
  | .startChildWorkflow _ _ options => options.id.isEmpty = true
  | .sideEffect => ∀ k, ∃ v, w.sideEffectFn k = .ok v
  | .executeLocalActivity type _ _ => ∃ fn, w.localActivityResolver.bind (· type) = some fn
  | .cancel _ | .cancelExternalWorkflow _ | .mutableSideEffect .. | .getVersion ..
  | .isReplaying => False
  | _ => True

/-- The operations that are answered alike whenever they are reached again, at a point where so
many side effects have been run, so many calls made of each mutable one, and these changes asked
for: their functions return, local activities are registered, and no change is asked for twice. -/
def Op.Repeats {σ : Type} (w : World σ) (sideEffects : Nat) (mseCalls : String → Nat)
    (asked : List (String × Int)) : Op σ → Prop
  | .startChildWorkflow _ _ options => options.id.isEmpty = true
  | .sideEffect => ∃ v, w.sideEffectFn sideEffects = .ok v
  | .mutableSideEffect id _ => ∃ v, w.mutableSideEffectFn id (mseCalls id) = .ok v
  | .getVersion changeId lo hi => lo ≤ hi ∧ changeId ∉ asked.map Prod.fst
  | .executeLocalActivity type _ _ => ∃ fn, w.localActivityResolver.bind (· type) = some fn
  | .cancel _ | .cancelExternalWorkflow _ | .isReplaying => False
  | _ => True

instance decidableExistsOk {α ε : Type} (x : Except ε α) : Decidable (∃ v, x = .ok v) :=
  match x with
  | .ok v => isTrue ⟨v, rfl⟩
  | .error _ => isFalse nofun

instance decidableExistsSome {α : Type} (x : Option α) : Decidable (∃ v, x = some v) :=
  match x with
  | some v => isTrue ⟨v, rfl⟩
  | none => isFalse nofun

instance {σ : Type} (w : World σ) (sideEffects : Nat) (mseCalls : String → Nat)
    (asked : List (String × Int)) : DecidablePred (Op.Repeats w sideEffects mseCalls asked) := by
  intro op
  cases op <;> dsimp only [Op.Repeats] <;> infer_instance

theorem Op.Replayable.repeats {σ : Type} {w : World σ} {op : Op σ} (h : op.Replayable w)
    (sideEffects : Nat) (mseCalls : String → Nat) (asked : List (String × Int)) :
    op.Repeats w sideEffects mseCalls asked := by
  cases op with
  | sideEffect => exact h sideEffects
  | mutableSideEffect id equals => exact h.elim
  | getVersion changeId lo hi => exact h.elim
  | _ => exact h

/-- The operations that request a cancellation. -/
def Op.isRequest {σ : Type} : Op σ → Bool
  | .cancel _ | .cancelExternalWorkflow _ => true
  | _ => false

/-- The operations that are asked for alike: those that repeat, and requests to cancel, whose
outcome depends on what is known when they are made. -/
def Op.Redoes {σ : Type} (w : World σ) (sideEffects : Nat) (mseCalls : String → Nat)
    (asked : List (String × Int)) (op : Op σ) : Prop :=
  op.isRequest = true ∨ op.Repeats w sideEffects mseCalls asked

instance {σ : Type} (w : World σ) (sideEffects : Nat) (mseCalls : String → Nat)
    (asked : List (String × Int)) : DecidablePred (Op.Redoes w sideEffects mseCalls asked) :=
  fun op => inferInstanceAs
    (Decidable (op.isRequest = true ∨ op.Repeats w sideEffects mseCalls asked))

/-- The operations that look at futures, signals or the cancel flag without waiting for them. -/
def Op.isObservation {σ : Type} : Op σ → Bool
  | .isReady _ | .receiveAsync _ | .hasPending _ | .select .. | .isCancelled => true
  | _ => false

/-- `S'` has read on in the history that `S` has read. -/
structure Prescan.Later (S S' : Prescan) : Prop where
  future : ∀ k, (S.future k).ready = true → S'.future k = S.future k
  signals : ∀ name ps, S.signals name = some ps → ∃ qs, S'.signals name = some (ps ++ qs)
  cancelRequested : S.cancelRequested = true → S'.cancelRequested = true
  scheduled : ∀ id sid, S.activityToSchedEvent id = some sid → S'.activityToSchedEvent id = some sid

namespace Progress

variable {σ : Type} {S S' : Prescan} {s : Setting σ}

theorem future_later (h : S.Later S') (b : Progress σ) {addr : Nat}
    (hr : (b.future S addr).ready = true) : b.future S' addr = b.future S addr := by
  unfold future at hr ⊢
  cases hk : b.keys[addr]? with
  | none => rfl
  | some k =>
    rw [hk] at hr
    exact h.future k hr

theorem nextSignal_later (h : S.Later S') (b : Progress σ) {name : String} {p : Payloads}
    (hp : b.nextSignal S name = some p) : b.nextSignal S' name = some p := by
  obtain ⟨ps, hps, hget⟩ := Option.bind_eq_some_iff.mp hp
  obtain ⟨qs, hqs⟩ := h.signals name ps hps
  have hlt := (List.getElem?_eq_some_iff.mp hget).1
  rw [nextSignal, hqs, Option.bind_some, List.getElem?_append_left hlt, hget]

theorem request_later (h : S.Later S') (b : Progress σ) {addr : Nat} {b' : Progress σ}
    (hb : b.request s S addr = some b') : b.request s S' addr = some b' := by
  unfold request at hb ⊢
  split at hb
  · obtain ⟨sid, hsid, rfl⟩ := Option.map_eq_some_iff.mp hb
    rw [h.scheduled _ sid hsid]
    rfl
  all_goals exact hb

/-- An operation that waits gets the same answer however much more history is known. -/
theorem exec_later (h : S.Later S') {b : Progress σ} {op : Op σ} (ho : op.isObservation = false)
    {x : Progress σ × Resp σ} (hx : b.exec s S op = some x) : b.exec s S' op = some x := by
  cases op <;> first
    | exact hx
    | exact Bool.noConfusion ho
    | skip
  case get addr =>
    simp only [exec, Option.ite_none_right_eq_some] at hx ⊢
    rwa [b.future_later h hx.1]
  case receive name =>
    obtain ⟨p, hp, rfl⟩ := Option.map_eq_some_iff.mp hx
    simp only [exec, b.nextSignal_later h hp, Option.map_some]
  case cancel addr =>
    obtain ⟨b', hb, rfl⟩ := Option.map_eq_some_iff.mp hx
    simp only [exec, b.request_later h hb, Option.map_some]

/-- What the body asks next is asked for alike whenever it gets here. -/
def Redoes (s : Setting σ) (b : Progress σ) : Prop :=
  (s.program b.trace).Redoes s.world b.sideEffectSeq (fun id => (b.mseCallCount id).getD 0)
    (s.program.versions b.trace)

/-- The body only ever takes steps that it takes again. -/
theorem redoes_of_step {b b' : Progress σ} (h : b.step s S = some b') : b.Redoes s := by
  unfold step at h
  unfold Redoes Op.Redoes
  split at h
  · cases h
  · cases hop : s.program b.trace with
    | cancel addr => exact .inl rfl
    | cancelExternalWorkflow id => exact .inl rfl
    | startChildWorkflow type input options =>
      simp only [hop, Op.outcome?, exec] at h
      split at h
      · next hid => exact .inr hid
      · cases h
    | sideEffect =>
      simp only [hop, Op.outcome?, exec] at h
      split at h
      · next v hv => exact .inr ⟨v, hv⟩
      · cases h
    | mutableSideEffect id equals =>
      simp only [hop, Op.outcome?, exec] at h
      split at h
      · next v hv => exact .inr ⟨v, hv⟩
      · cases h
    | getVersion changeId lo hi =>
      simp only [hop, Op.outcome?, exec] at h
      split at h
      · next hid => exact .inr hid
      · cases h
    | executeLocalActivity type input options =>
      simp only [hop, Op.outcome?, exec, Option.map_map] at h
      obtain ⟨fn, hfn, -⟩ := Option.map_eq_some_iff.mp h
      exact .inr ⟨fn, hfn⟩
    | isReplaying => simp [hop, Op.outcome?, exec] at h
    | _ => exact .inr trivial

end Progress
end TemporalSdk
