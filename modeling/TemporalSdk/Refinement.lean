import TemporalSdk.Markers
import TemporalSdk.Requests

/-! A runner refines the progress of its body: it answers every operation as the body without an
engine is answered, and emits the commands that are not on record. -/
namespace TemporalSdk

variable {σ : Type}

/-- The counters of a runner. -/
@[ext] structure Ordinals where
  activity : Nat
  timer : Nat
  child : Nat
  nexus : Nat
  extSignal : Nat
  upsert : Nat
  sideEffect : Nat
  localActivity : Nat

def Runner.ordinals (r : Runner σ) : Ordinals :=
  ⟨r.activitySeq, r.timerSeq, r.childSeq, r.nexusSeq, r.extSignalSeq, r.upsertSeq,
    r.sideEffectSeq, r.localActivitySeq⟩

def Progress.ordinals (b : Progress σ) : Ordinals :=
  ⟨b.activitySeq, b.timerSeq, b.childSeq, b.nexusSeq, b.extSignalSeq, b.upsertSeq,
    b.sideEffectSeq, b.localActivitySeq⟩

/-- The counters after one more command. -/
def Ordinals.next (o : Ordinals) (a : EventAttributes) : Ordinals where
  activity := o.activity + if a.activityId?.isSome then 1 else 0
  timer := o.timer + if a.timerId?.isSome then 1 else 0
  child := o.child + if a.childId?.isSome then 1 else 0
  nexus := o.nexus + if a.isNexus then 1 else 0
  extSignal := o.extSignal + if a.isExtSignal then 1 else 0
  upsert := o.upsert + if a.isUpsert then 1 else 0
  sideEffect := o.sideEffect + if a.sideEffect?.isSome then 1 else 0
  localActivity := o.localActivity + if a.localActivity?.isSome then 1 else 0

theorem length_filterMap_concat {α β : Type} (f : α → Option β) (l : List α) (a : α) :
    ((l ++ [a]).filterMap f).length = (l.filterMap f).length + if (f a).isSome then 1 else 0 := by
  rw [List.filterMap_append, List.length_append]
  cases h : f a <;> simp [h]

theorem Progress.ordinals_concat {b b' : Progress σ} {a : EventAttributes}
    (h : b'.events = b.events ++ [a]) : b'.ordinals = b.ordinals.next a := by
  ext <;> simp only [Progress.ordinals, Ordinals.next, Progress.activitySeq, Progress.timerSeq,
    Progress.childSeq, Progress.nexusSeq, Progress.extSignalSeq, Progress.upsertSeq,
    Progress.sideEffectSeq, Progress.localActivitySeq, h, length_filterMap_concat,
    List.countP_append, List.countP_singleton]

namespace Progress

variable {s : Setting σ} {S : Prescan} {b b' : Progress σ}

/-- Commands are only ever added. -/
theorem exec_events {op : Op σ} {resp : Resp σ} (h : b.exec s S op = some (b', resp)) :
    b.events <+: b'.events := by
  cases op with
  | mutableSideEffect id equals =>
    simp only [exec] at h
    split at h
    · next v _ =>
      have hb : (b.mutable s.world.converter id equals v).1 = b' :=
        congrArg Prod.fst (Option.some.inj h)
      rw [← hb]
      unfold Progress.mutable
      dsimp only
      split
      · exact List.prefix_rfl
      · change _ <+: (b.issue _).events
        rw [issue_events]
        exact List.prefix_append _ _
    · cases h
  | getVersion changeId lo hi =>
    simp only [exec] at h
    split at h
    · cases h
      rw [issue_events]
      exact List.prefix_append _ _
    · cases h
  | _ =>
    obtain ⟨-, -, he | ⟨a, he, -⟩⟩ := exec_cases h rfl (fun _ _ ho => by cases ho)
    · exact he ▸ List.prefix_rfl
    · exact he ▸ List.prefix_append _ _

theorem step_events (h : b.step s S = some b') : b.events <+: b'.events := by
  unfold step at h
  split at h
  · cases h
  · split at h
    · cases h
      exact List.prefix_rfl
    · obtain ⟨⟨c, resp⟩, hc, rfl⟩ := Option.map_eq_some_iff.mp h
      have hevents : b.events <+: c.events := exec_events hc
      exact hevents

theorem reaches_events (h : StateTransition.Reaches (step s S) b b') : b.events <+: b'.events := by
  induction h with
  | refl => exact List.prefix_rfl
  | tail _ hs ih => exact ih.trans (step_events hs)

/-- Only a request adds a request to the events. -/
theorem exec_requests {op : Op σ} {resp : Resp σ} (h : b.exec s S op = some (b', resp))
    (hop : op.isRequest = false) {a : EventAttributes} (ha : a ∈ b'.events)
    (hreq : a.isRequest = true) : a ∈ b.events := by
  have hadded {x : EventAttributes} (hx : b'.events = b.events ++ [x])
      (hno : x.isRequest = false) : a ∈ b.events := by
    rw [hx] at ha
    rcases List.mem_append.mp ha with ha | ha
    · exact ha
    · rw [List.mem_singleton.mp ha, hno] at hreq
      cases hreq
  cases op with
  | mutableSideEffect id equals =>
    simp only [exec] at h
    split at h
    · next v _ =>
      have hb : (b.mutable s.world.converter id equals v).1 = b' :=
        congrArg Prod.fst (Option.some.inj h)
      subst hb
      unfold Progress.mutable at ha hadded
      dsimp only at ha hadded
      split at ha
      · exact ha
      · next hf =>
        rw [hf] at hadded
        exact hadded (b.issue_events _) rfl
    · cases h
  | getVersion changeId lo hi =>
    simp only [exec] at h
    split at h
    · cases h
      exact hadded (b.issue_events _) rfl
    · cases h
  | _ =>
    obtain ⟨-, -, he | ⟨x, he, -, hx⟩⟩ := exec_cases h rfl (fun _ _ ho => by cases ho)
    · exact he ▸ ha
    · exact hadded he (hx.trans hop)

/-- The request for an activity names a schedule event that is known. -/
theorem request_names {addr : Nat} (h : b.request s S addr = some b') {sid : Nat}
    (ha : .activityTaskCancelRequested sid ∈ b'.events) :
    .activityTaskCancelRequested sid ∈ b.events ∨ ∃ id, S.activityToSchedEvent id = some sid := by
  unfold request at h
  split at h
  · next id _ =>
    obtain ⟨sid', hsid, rfl⟩ := Option.map_eq_some_iff.mp h
    rw [issue_events] at ha
    rcases List.mem_append.mp ha with ha | ha
    · exact .inl ha
    · cases List.mem_singleton.mp ha
      exact .inr ⟨id, hsid⟩
  · cases h
    rw [issue_events] at ha
    rcases List.mem_append.mp ha with ha | ha
    · exact .inl ha
    · cases List.mem_singleton.mp ha
  · cases h
  all_goals
    cases h
    exact .inl ha

theorem step_names (h : b.step s S = some b') {sid : Nat}
    (ha : .activityTaskCancelRequested sid ∈ b'.events) :
    .activityTaskCancelRequested sid ∈ b.events ∨ ∃ id, S.activityToSchedEvent id = some sid := by
  unfold step at h
  split at h
  · cases h
  · split at h
    · cases h
      exact .inl ha
    · obtain ⟨⟨c, resp⟩, hc, rfl⟩ := Option.map_eq_some_iff.mp h
      have hin : .activityTaskCancelRequested sid ∈ c.events := ha
      cases hop : s.program b.trace with
      | cancel addr =>
        rw [hop] at hc
        obtain ⟨x, hx, hxc⟩ := Option.map_eq_some_iff.mp hc
        cases hxc
        exact request_names hx hin
      | cancelExternalWorkflow id =>
        rw [hop] at hc
        cases hc
        rw [issue_events] at hin
        rcases List.mem_append.mp hin with hin | hin
        · exact .inl hin
        · cases List.mem_singleton.mp hin
      | _ => exact .inl (exec_requests hc (by rw [hop]; rfl) hin rfl)

theorem reaches_names (h : StateTransition.Reaches (step s S) b b') {sid : Nat}
    (ha : .activityTaskCancelRequested sid ∈ b'.events) :
    .activityTaskCancelRequested sid ∈ b.events ∨ ∃ id, S.activityToSchedEvent id = some sid := by
  induction h with
  | refl => exact .inl ha
  | tail _ hs ih =>
    rcases step_names hs ha with ha | ha
    · exact ih ha
    · exact .inr ha

end Progress

/-- How the emit guards of `scan` decide on the next command, whose event would be `a`: as if the
first `base` commands were on record. -/
structure Guards (scan : Prescan) (base : Nat) (b : Progress σ) (a : EventAttributes) : Prop where
  activities : ∀ id, a.activityId? = some id →
    OpOutcome.recorded (scan.activities id) = decide (b.issued.length < base)
  timers : ∀ id, a.timerId? = some id →
    TimerOutcome.recorded (scan.timers id) = decide (b.issued.length < base)
  children : ∀ id, a.childId? = some id →
    OpOutcome.recorded (scan.children id) = decide (b.issued.length < base)
  nexusOps : a.isNexus = true →
    OpOutcome.recorded (scan.nexusOps (toString b.nexusSeq)) = decide (b.issued.length < base)
  extSignals : a.isExtSignal = true →
    (b.extSignalSeq < scan.extSignalsInitiated ↔ b.issued.length < base)
  upserts : a.isUpsert = true →
    (b.upsertSeq < scan.upsertsInitiated ↔ b.issued.length < base)
  sideEffects : ∀ p, a.sideEffect? = some p →
    scan.sideEffects[b.sideEffectSeq]? = if b.issued.length < base then some p else none
  localActivities : ∀ m, a.localActivity? = some m →
    scan.localActivities[b.localActivitySeq]? = if b.issued.length < base then some m else none

theorem Progress.length_events (b : Progress σ) : b.events.length = b.issued.length :=
  List.length_map ..

theorem getElem?_filterMap_prefix {α β : Type} {f : α → Option β} {l rec : List α} {a : α} {x : β}
    (h : l ++ [a] <+: rec) (hx : f a = some x) :
    (rec.filterMap f)[(l.filterMap f).length]? = some x := by
  obtain ⟨t, rfl⟩ := h
  simp [List.filterMap_append, hx]

/-- The command is on record. -/
theorem Guards.of_recorded {scan : Prescan} {rec : List EventAttributes} (h : Recorded scan rec)
    {b : Progress σ} {a : EventAttributes} (hp : b.events ++ [a] <+: rec) :
    Guards scan rec.length b a := by
  have hmem : a ∈ rec := hp.subset (by simp)
  have hlt : b.issued.length < rec.length := by
    have := hp.length_le
    rw [List.length_append, List.length_singleton, b.length_events] at this
    omega
  have hcount (p : EventAttributes → Bool) (ha : p a = true) :
      b.events.countP p < rec.countP p := by
    have hle := hp.sublist.countP_le (p := p)
    rw [List.countP_append, List.countP_singleton, if_pos ha] at hle
    omega
  constructor
  · intro id hid
    rw [decide_eq_true hlt, h.activities]
    exact List.mem_filterMap.mpr ⟨a, hmem, hid⟩
  · intro id hid
    rw [decide_eq_true hlt, h.timers]
    exact List.mem_filterMap.mpr ⟨a, hmem, hid⟩
  · intro id hid
    rw [decide_eq_true hlt, h.children]
    exact List.mem_filterMap.mpr ⟨a, hmem, hid⟩
  · intro hn
    rw [decide_eq_true hlt, h.nexusOps]
    exact ⟨b.nexusSeq, hcount _ hn, rfl⟩
  · intro he
    rw [h.extSignals]
    exact iff_of_true (hcount _ he) hlt
  · intro hu
    rw [h.upserts]
    exact iff_of_true (hcount _ hu) hlt
  · intro p hp'
    rw [if_pos hlt, h.sideEffects]
    exact getElem?_filterMap_prefix hp hp'
  · intro m hm
    rw [if_pos hlt, h.localActivities]
    exact getElem?_filterMap_prefix hp hm

/-- A number is not given twice. -/
theorem not_mem_of_nodup_concat {α β : Type} {f : α → Option β} {l : List α} {a : α} {x : β}
    (h : ((l ++ [a]).filterMap f).Nodup) (hx : f a = some x) : x ∉ l.filterMap f := by
  rw [List.filterMap_append, List.nodup_append] at h
  intro hmem
  exact h.2.2 x hmem x (by simp [hx]) rfl

/-- The command is new. -/
theorem Guards.of_known {scan : Prescan} {rec : List EventAttributes} (h : Known scan rec)
    {wid : String} {b : Progress σ} {a : EventAttributes} (hp : rec <+: b.events)
    (hseq : Sequenced wid (b.events ++ [a])) : Guards scan rec.length b a := by
  have hge : ¬ b.issued.length < rec.length := by
    have := hp.length_le
    rw [b.length_events] at this
    omega
  have hall := h.mono hp
  constructor
  · intro id hid
    rw [decide_eq_false hge, Bool.eq_false_iff]
    exact fun hrec => not_mem_of_nodup_concat hseq.nodup_activities hid (hall.activities id hrec)
  · intro id hid
    rw [decide_eq_false hge, Bool.eq_false_iff]
    exact fun hrec => not_mem_of_nodup_concat hseq.nodup_timers hid (hall.timers id hrec)
  · intro id hid
    rw [decide_eq_false hge, Bool.eq_false_iff]
    exact fun hrec => not_mem_of_nodup_concat hseq.nodup_children hid (hall.children id hrec)
  · intro hn
    rw [decide_eq_false hge, Bool.eq_false_iff]
    intro hrec
    obtain ⟨k, hk, he⟩ := hall.nexusOps _ hrec
    exact hk.ne (toString_nat_injective he).symm
  · intro he
    exact iff_of_false (Nat.not_lt.mpr hall.extSignals) hge
  · intro hu
    exact iff_of_false (Nat.not_lt.mpr hall.upserts) hge
  · intro p hp'
    rw [if_neg hge]
    exact List.getElem?_eq_none hall.sideEffects
  · intro m hm
    rw [if_neg hge]
    exact List.getElem?_eq_none hall.localActivities

/-- A runner after one more command, which is emitted unless it is on record. -/
def Runner.issuing (r : Runner σ) (c : Command) (recorded : Bool) : Runner σ :=
  let o := r.ordinals.next c.event
  { r with
    activitySeq := o.activity
    timerSeq := o.timer
    childSeq := o.child
    nexusSeq := o.nexus
    extSignalSeq := o.extSignal
    upsertSeq := o.upsert
    sideEffectSeq := o.sideEffect
    localActivitySeq := o.localActivity
    commands := r.commands ++ unlessRecorded recorded c
    producedCommands := r.producedCommands ++ [c.event.entry r.nexusSeq] }

theorem Runner.hasSignal_eq_isSome (r : Runner σ) (name : String) :
    r.hasSignal name =
      ((r.scan.signals name).bind fun buffered =>
        buffered[(r.signalCursor name).getD 0]?).isSome := by
  unfold hasSignal
  cases r.scan.signals name with
  | none => rfl
  | some buffered =>
    rw [Option.bind_some, Bool.eq_iff_iff, decide_eq_true_iff, Option.isSome_iff_exists]
    simp [List.getElem?_eq_some_iff]

/-- How a recorded outcome of a local activity reaches the body. -/
def LocalActivityMarkerRaw.resp (c : DataConverter) (m : LocalActivityMarkerRaw) : Resp σ :=
  if m.failed then .applicationError (c.decode m.failureMessage) (c.decode m.failureType)
  else .localResult m.result

/-- An outcome is read back as it was written. -/
theorem LocalActivityMarkerRaw.resp_localActivityMarker {c : DataConverter} (hc : c.RoundTrips)
    (outcome : Except (String × String) Payloads) :
    (Prescan.localActivityMarker (Runner.localActivityDetails c outcome)).resp c =
      (Runner.localActivityResp outcome : Resp σ) := by
  cases outcome with
  | ok result => rfl
  | error e =>
    simp [Prescan.localActivityMarker, Runner.localActivityDetails, Runner.localActivityResp,
      LocalActivityMarkerRaw.resp, List.lookup_cons, hc.decode_toPayload]

theorem Runner.executeLocalActivity_recorded (r : Runner σ) (type : String) (input : Payloads)
    (options : LocalActivityOptions) {m : LocalActivityMarkerRaw}
    (h : r.scan.localActivities[r.localActivitySeq]? = some m) :
    r.executeLocalActivity type input options =
      ({ r with localActivitySeq := r.localActivitySeq + 1 }.produce .marker "LocalActivity" "",
        m.resp r.world.converter) := by
  simp only [executeLocalActivity, h, LocalActivityMarkerRaw.resp]
  split <;> rfl

theorem Runner.executeLocalActivity_new (r : Runner σ) {type : String} (input : Payloads)
    (options : LocalActivityOptions) {fn : ActivityFn}
    (hfn : r.world.localActivityResolver.bind (· type) = some fn)
    (h : r.scan.localActivities[r.localActivitySeq]? = none) :
    r.executeLocalActivity type input options =
      (({ r with localActivitySeq := r.localActivitySeq + 1 }.produce .marker "LocalActivity"
        "").recordMarker "LocalActivity" (localActivityDetails r.world.converter
          (runLocalActivity r.info fn r.localActivitySeq type input options)),
        localActivityResp (runLocalActivity r.info fn r.localActivitySeq type input options)) := by
  obtain ⟨resolve, hres, hty⟩ := Option.bind_eq_some_iff.mp hfn
  simp only [executeLocalActivity, h, hres, hty]

/-- The command that ends the execution. -/
def Progress.terminalCommand (s : Setting σ) (b : Progress σ) : Option Command :=
  b.outcome.bind fun o => (s.runner.finishBody o).terminalCommand

/-- A runner that has brought its body as far as `b`, with what `S` reveals in its futures and
signals. The first `base` commands are on record and are not emitted; what it has produced is
kept from `sent` on. -/
structure Carries (s : Setting σ) (S : Prescan) (base sent : Nat) (r : Runner σ)
    (b : Progress σ) : Prop where
  info : r.info = s.info
  world : r.world = s.world
  workflowFn : r.workflowFn = s.workflowFn
  input : r.input = s.input
  store : r.store = b.store
  trace : r.trace = b.trace
  signalCursor : r.signalCursor = b.signalCursor
  queryHandlers : r.queryHandlers = b.queryHandlers
  updateHandlers : r.updateHandlers = b.updateHandlers
  updateValidators : r.updateValidators = b.updateValidators
  ordinals : r.ordinals = b.ordinals
  issued : Issued r S b.keys
  blank : ∀ a, b.keys.length ≤ a → r.futures a = {}
  signals : r.scan.signals = S.signals
  cancelRequested : r.scan.cancelRequested = S.cancelRequested
  pending : ∀ k, k ≠ .cancellation → k ∉ b.keys → r.scan.future k = S.future k
  commands : r.commands = b.issued.drop base
  sent_le : sent ≤ b.events.length
  producedCommands : r.producedCommands = b.produced.drop sent
  started : r.started = true
  deadlocked : r.deadlocked = false
  done : r.done = b.outcome.isSome
  terminalCommand : r.terminalCommand = b.terminalCommand s

theorem drop_concat_eq_unlessRecorded (l : List Command) (c : Command) (base : Nat) :
    (l ++ [c]).drop base = l.drop base ++ unlessRecorded (decide (l.length < base)) c := by
  rw [List.drop_append]
  by_cases h : l.length < base
  · have hle : [c].length ≤ base - l.length := by
      rw [List.length_singleton]
      omega
    rw [decide_eq_true h, List.drop_eq_nil_of_le hle]
    rfl
  · rw [decide_eq_false h, Nat.sub_eq_zero_of_le (by omega)]
    rfl

/-- What is produced up to the outcome. -/
theorem Progress.produced_drop (b : Progress σ) {sent : Nat} (h : sent ≤ b.events.length) :
    b.produced.drop sent =
      (entriesFrom 0 b.events).drop sent ++ (b.outcome.map Progress.terminalEntry).getD [] := by
  rw [Progress.produced, List.drop_append_of_le_length]
  rwa [length_entriesFrom]

/-- A runner that replays answers a first `GetVersion` only from the record. -/
def Runner.Dated (r : Runner σ) : Prop :=
  ∀ x ∈ (r.program r.trace).version?, r.isReplaying = true → (r.changeVersions x.1).isSome = true

/-- What a runner asks next is answered alike whenever its body gets here. -/
structure Runner.Repeats (r : Runner σ) : Prop where
  asks : (r.program r.trace).Repeats r.world r.sideEffectSeq
    (fun id => (r.mseCallCount id).getD 0) (r.program.versions r.trace)
  dated : r.Dated

/-- What a runner asks next is asked for alike whenever its body gets here. -/
structure Runner.Redoes (r : Runner σ) : Prop where
  asks : (r.program r.trace).Redoes r.world r.sideEffectSeq
    (fun id => (r.mseCallCount id).getD 0) (r.program.versions r.trace)
  dated : r.Dated

theorem Runner.Repeats.redoes {r : Runner σ} (h : r.Repeats) : r.Redoes := ⟨.inr h.asks, h.dated⟩

/-- What repeats is no request. -/
theorem Runner.Repeats.not_request {r : Runner σ} (h : r.Repeats) :
    (r.program r.trace).isRequest = false := by
  have hasks := h.asks
  cases hop : r.program r.trace <;> rw [hop] at hasks <;> first
    | rfl
    | exact hasks.elim

instance (r : Runner σ) : Decidable r.Dated :=
  match h : (r.program r.trace).version? with
  | none => isTrue fun x hx => by
    rw [h] at hx
    cases hx
  | some x =>
    decidable_of_iff (r.isReplaying = true → (r.changeVersions x.1).isSome = true) (by
      simp [Runner.Dated, h])

instance (r : Runner σ) : Decidable r.Repeats :=
  decidable_of_iff
    ((r.program r.trace).Repeats r.world r.sideEffectSeq
      (fun id => (r.mseCallCount id).getD 0) (r.program.versions r.trace) ∧ r.Dated)
    ⟨fun h => ⟨h.1, h.2⟩, fun h => ⟨h.asks, h.dated⟩⟩

instance (r : Runner σ) : Decidable r.Redoes :=
  decidable_of_iff
    ((r.program r.trace).Redoes r.world r.sideEffectSeq
      (fun id => (r.mseCallCount id).getD 0) (r.program.versions r.trace) ∧ r.Dated)
    ⟨fun h => ⟨h.1, h.2⟩, fun h => ⟨h.asks, h.dated⟩⟩

namespace Carries

variable {s : Setting σ} {S : Prescan} {base sent : Nat} {r : Runner σ} {b : Progress σ}

theorem issuing (h : Carries s S base sent r b) (hn : b.outcome = none) (c : Command) :
    Carries s S base sent (r.issuing c (decide (b.issued.length < base))) (b.issue c) where
  info := h.info
  world := h.world
  workflowFn := h.workflowFn
  input := h.input
  store := h.store
  trace := h.trace
  signalCursor := h.signalCursor
  queryHandlers := h.queryHandlers
  updateHandlers := h.updateHandlers
  updateValidators := h.updateValidators
  ordinals := by
    rw [Progress.ordinals_concat (b.issue_events c), ← h.ordinals]
    rfl
  issued := { h.issued with }
  blank := h.blank
  signals := h.signals
  cancelRequested := h.cancelRequested
  pending := h.pending
  commands := by
    change r.commands ++ _ = (b.issued ++ [c]).drop base
    rw [drop_concat_eq_unlessRecorded, h.commands]
  sent_le := by
    rw [Progress.issue_events, List.length_append]
    exact h.sent_le.trans (Nat.le_add_right _ _)
  producedCommands := by
    have hle : sent ≤ (b.issue c).events.length := by
      rw [Progress.issue_events, List.length_append]
      exact h.sent_le.trans (Nat.le_add_right _ _)
    have hout : (b.issue c).outcome = none := hn
    have hseq : r.nexusSeq = b.events.countP EventAttributes.isNexus :=
      congrArg Ordinals.nexus h.ordinals
    change r.producedCommands ++ [c.event.entry r.nexusSeq] = _
    rw [h.producedCommands, b.produced_drop h.sent_le, (b.issue c).produced_drop hle, hn, hout,
      Progress.issue_events, entriesFrom_concat, Nat.zero_add, hseq,
      List.drop_append_of_le_length (by rw [length_entriesFrom]; exact h.sent_le)]
    simp
  started := h.started
  deadlocked := h.deadlocked
  done := h.done
  terminalCommand := h.terminalCommand

/-- New futures, and nothing else. -/
theorem withFutures (h : Carries s S base sent r b) {keys : List Key} {r' : Runner σ}
    (hr : r' = { r with
      futures := r'.futures, futureCount := r'.futureCount, activityFutures := r'.activityFutures,
      timerFutures := r'.timerFutures, childFutures := r'.childFutures,
      nexusFutures := r'.nexusFutures, cancelFutures := r'.cancelFutures })
    (hk : b.keys <+: keys) (hi : Issued r' S keys)
    (hb : ∀ a, keys.length ≤ a → r'.futures a = {}) :
    Carries s S base sent r' { b with keys := keys } := by
  have hpending (k : Key) (hne : k ≠ .cancellation) (hnot : k ∉ keys) :
      r.scan.future k = S.future k := h.pending k hne fun hmem => hnot (hk.subset hmem)
  rw [hr] at hi hb ⊢
  exact { h with issued := hi, blank := hb, pending := hpending }

/-- What the body finds under an address. -/
theorem future (h : Carries s S base sent r b) (addr : Nat) :
    r.futures addr = b.future S addr := by
  unfold Progress.future
  cases hk : b.keys[addr]? with
  | none => exact h.blank addr (List.getElem?_eq_none_iff.mp hk)
  | some k => exact h.issued.heap addr k hk

theorem tryConsumeSignal (h : Carries s S base sent r b) (name : String) :
    r.tryConsumeSignal name = (b.nextSignal S name).map fun p =>
      ({ r with signalCursor := (b.consume name).signalCursor }, p) := by
  unfold Runner.tryConsumeSignal Progress.nextSignal Progress.consume
  rw [h.signals, h.signalCursor]
  cases S.signals name with
  | none => rfl
  | some buffered =>
    simp only [Option.bind_some]
    cases buffered[(b.signalCursor name).getD 0]? <;> rfl

theorem hasSignal (h : Carries s S base sent r b) (name : String) :
    r.hasSignal name = (b.nextSignal S name).isSome := by
  rw [r.hasSignal_eq_isSome, h.signals, h.signalCursor]
  rfl

theorem caseReady (h : Carries s S base sent r b) : r.caseReady = b.caseReady S := by
  funext c
  cases c with
  | future addr => exact congrArg FutureState.ready (h.future addr)
  | receive name => exact h.hasSignal name

theorem blank_concat (h : Carries s S base sent r b) (k : Key) (f : FutureState) :
    ∀ a, (b.keys ++ [k]).length ≤ a → Function.update r.futures r.futureCount f a = {} := by
  intro a ha
  rw [List.length_append, List.length_singleton] at ha
  have hne : a ≠ r.futureCount := by
    have := h.issued.count
    omega
  rw [Function.update_of_ne hne]
  exact h.blank a (by omega)

/-- The same answer on both sides. -/
def Agree (s : Setting σ) (S : Prescan) (base sent : Nat) (x : Runner σ × Resp σ)
    (y : Progress σ × Resp σ) : Prop :=
  Carries s S base sent x.1 y.1 ∧ x.2 = y.2

theorem scheduleActivity (h : Carries s S base sent r b) (ho : b.Ordered s)
    (hn : b.outcome = none) (type : String) (input : Payloads) (options : ActivityOptions)
    (hg : Guards r.scan base b (.activityTaskScheduled (toString b.activitySeq) type)) :
    Carries s S base sent (r.scheduleActivity type input options)
      (b.opening (s.runner.scheduleActivityCommand (toString b.activitySeq) type input options)
        (.activity (toString b.activitySeq))) := by
  have hseq : r.activitySeq = b.activitySeq := congrArg Ordinals.activity h.ordinals
  have hfresh := ho.activity_fresh
  have hv := h.pending (.activity (toString b.activitySeq)) (by simp) hfresh
  have hrec := hg.activities _ rfl
  rw [← hseq] at hfresh hv
  have hi := h.issued.scheduleActivity hfresh hv type input options
  have hcmd : r.scheduleActivityCommand (toString b.activitySeq) type input options =
      s.runner.scheduleActivityCommand (toString b.activitySeq) type input options := by
    simp only [Runner.scheduleActivityCommand, Runner.queueOr, Runner.activityHeader, h.info,
      h.world, Setting.runner]
  refine (h.issuing hn _).withFutures ?_ (List.prefix_append _ _) (hseq ▸ hi) ?_
  · rw [← hrec, ← hcmd, ← hseq, r.scheduleActivity_eq]
    rfl
  · rw [r.scheduleActivity_eq]
    exact h.blank_concat _ _

theorem startTimer (h : Carries s S base sent r b) (ho : b.Ordered s) (hn : b.outcome = none)
    (duration : Int) (hg : Guards r.scan base b (.timerStarted ("t" ++ toString b.timerSeq))) :
    Carries s S base sent (r.startTimer duration)
      (b.opening (.startTimer ("t" ++ toString b.timerSeq) (toProtoDuration duration))
        (.timer ("t" ++ toString b.timerSeq))) := by
  have hseq : r.timerSeq = b.timerSeq := congrArg Ordinals.timer h.ordinals
  have hfresh := ho.timer_fresh
  have hv := h.pending (.timer ("t" ++ toString b.timerSeq)) (by simp) hfresh
  have hrec := hg.timers _ rfl
  rw [← hseq] at hfresh hv
  have hi := h.issued.startTimer hfresh hv duration
  refine (h.issuing hn _).withFutures ?_ (List.prefix_append _ _) (hseq ▸ hi) ?_
  · rw [← hrec, ← hseq, r.startTimer_eq]
    rfl
  · rw [r.startTimer_eq]
    exact h.blank_concat _ _

theorem startChildWorkflow (h : Carries s S base sent r b) (ho : b.Ordered s)
    (hn : b.outcome = none) (type : String) (input : Payloads) {options : ChildWorkflowOptions}
    (hid : options.id.isEmpty = true)
    (hg : Guards r.scan base b (.startChildWorkflowExecutionInitiated (b.childId s) type)) :
    Carries s S base sent (r.startChildWorkflow type input options)
      (b.opening (.startChildWorkflowExecution s.info.ns (b.childId s) type
        (s.runner.queueOr options.taskQueue) input options.parentClosePolicy)
        (.child (b.childId s))) := by
  have hseq : r.childSeq = b.childSeq := congrArg Ordinals.child h.ordinals
  have hchild : r.childId options = b.childId s := by
    rw [Runner.childId, if_pos hid, h.info, hseq]
    rfl
  have hfresh := ho.child_fresh
  have hv := h.pending (.child (b.childId s)) (by simp) hfresh
  have hrec := hg.children _ rfl
  rw [← hchild] at hfresh hv
  have hi := h.issued.startChildWorkflow hfresh hv type input
  have hqueue : r.queueOr options.taskQueue = s.runner.queueOr options.taskQueue := by
    simp only [Runner.queueOr, h.info, Setting.runner]
  refine (h.issuing hn _).withFutures ?_ (List.prefix_append _ _) (hchild ▸ hi) ?_
  · rw [← hrec, ← hqueue, ← hchild, ← h.info, r.startChildWorkflow_eq]
    rfl
  · rw [r.startChildWorkflow_eq]
    exact h.blank_concat _ _

theorem scheduleNexusOperation (h : Carries s S base sent r b) (ho : b.Ordered s)
    (hn : b.outcome = none) (endpoint service operation : String) (input : Payload) (close : Int)
    (hg : Guards r.scan base b .nexusOperationScheduled) :
    Carries s S base sent (r.scheduleNexusOperation endpoint service operation input close)
      (b.opening (.scheduleNexusOperation endpoint service operation input
        (if 0 < close then some (toProtoDuration close) else none))
        (.nexus (toString b.nexusSeq))) := by
  have hseq : r.nexusSeq = b.nexusSeq := congrArg Ordinals.nexus h.ordinals
  have hfresh := ho.nexus_fresh
  have hv := h.pending (.nexus (toString b.nexusSeq)) (by simp) hfresh
  have hrec := hg.nexusOps rfl
  rw [← hseq] at hfresh hv
  have hi := h.issued.scheduleNexusOperation hfresh hv endpoint service operation input close
  refine (h.issuing hn _).withFutures ?_ (List.prefix_append _ _) (hseq ▸ hi) ?_
  · rw [← hrec, ← hseq, r.scheduleNexusOperation_eq]
    rfl
  · rw [r.scheduleNexusOperation_eq]
    exact h.blank_concat _ _

theorem awaitCancellation (h : Carries s S base sent r b) :
    Carries s S base sent r.awaitCancellation { b with keys := b.keys ++ [.cancellation] } := by
  have hi := h.issued.awaitCancellation h.cancelRequested
  refine h.withFutures ?_ (List.prefix_append _ _) hi ?_
  · unfold Runner.awaitCancellation
    split <;> rfl
  · unfold Runner.awaitCancellation
    split <;> exact h.blank_concat _ _

theorem signalExternalWorkflow (h : Carries s S base sent r b) (hn : b.outcome = none)
    (id name : String) (input : Payloads)
    (hg : Guards r.scan base b (.signalExternalWorkflowExecutionInitiated id)) :
    Carries s S base sent (r.signalExternalWorkflow id name input)
      (b.issue (.signalExternalWorkflowExecution s.info.ns id name input)) := by
  have hseq : r.extSignalSeq = b.extSignalSeq := congrArg Ordinals.extSignal h.ordinals
  have hrec := hg.extSignals rfl
  have hr : r.signalExternalWorkflow id name input =
      r.issuing (.signalExternalWorkflowExecution s.info.ns id name input)
        (decide (b.issued.length < base)) := by
    unfold Runner.signalExternalWorkflow
    by_cases hlt : b.issued.length < base
    · rw [if_neg (by have := hrec.mpr hlt; omega), decide_eq_true hlt]
      simp only [Runner.issuing, unlessRecorded, if_true, List.append_nil]
      rfl
    · rw [if_pos (by have := mt hrec.mp hlt; omega), decide_eq_false hlt, ← h.info]
      rfl
  rw [hr]
  exact h.issuing hn _

theorem upsertSearchAttributes (h : Carries s S base sent r b) (hn : b.outcome = none)
    (attributes : List (String × Payload))
    (hg : Guards r.scan base b .upsertWorkflowSearchAttributes) :
    Carries s S base sent (r.upsertSearchAttributes attributes)
      (b.issue (.upsertWorkflowSearchAttributes attributes)) := by
  have hseq : r.upsertSeq = b.upsertSeq := congrArg Ordinals.upsert h.ordinals
  have hrec := hg.upserts rfl
  have hr : r.upsertSearchAttributes attributes =
      r.issuing (.upsertWorkflowSearchAttributes attributes)
        (decide (b.issued.length < base)) := by
    unfold Runner.upsertSearchAttributes
    by_cases hlt : b.issued.length < base
    · rw [if_neg (by have := hrec.mpr hlt; omega), decide_eq_true hlt]
      simp only [Runner.issuing, unlessRecorded, if_true, List.append_nil]
      rfl
    · rw [if_pos (by have := mt hrec.mp hlt; omega), decide_eq_false hlt]
      rfl
  rw [hr]
  exact h.issuing hn _

theorem sideEffect (h : Carries s S base sent r b) (hn : b.outcome = none)
    (hc : s.world.converter.RoundTrips) {v : Value}
    (hv : s.world.sideEffectFn b.sideEffectSeq = .ok v)
    (hg : Guards r.scan base b (.markerRecorded "SideEffect"
      (Runner.sideEffectDetails s.world.converter b.sideEffectSeq v))) :
    Agree s S base sent r.sideEffect (b.issue (.recordMarker "SideEffect"
      (Runner.sideEffectDetails s.world.converter b.sideEffectSeq v)), .value v) := by
  have hseq : r.sideEffectSeq = b.sideEffectSeq := congrArg Ordinals.sideEffect h.ordinals
  have hrec := hg.sideEffects (s.world.converter.toPayload v) (by
    simp [EventAttributes.sideEffect?, Runner.sideEffectDetails, List.lookup_cons])
  have hi := h.issuing hn (.recordMarker "SideEffect"
    (Runner.sideEffectDetails s.world.converter b.sideEffectSeq v))
  have hnext : r.ordinals.next (.markerRecorded "SideEffect"
      (Runner.sideEffectDetails s.world.converter b.sideEffectSeq v)) =
      { r.ordinals with sideEffect := r.sideEffectSeq + 1 } := by
    simp [Ordinals.next, EventAttributes.activityId?, EventAttributes.timerId?,
      EventAttributes.childId?, EventAttributes.isNexus, EventAttributes.isExtSignal,
      EventAttributes.isUpsert, EventAttributes.sideEffect?, EventAttributes.localActivity?,
      Runner.sideEffectDetails, List.lookup_cons, Runner.ordinals]
  have hr : r.sideEffect = (r.issuing (.recordMarker "SideEffect"
      (Runner.sideEffectDetails s.world.converter b.sideEffectSeq v))
        (decide (b.issued.length < base)), .value v) := by
    unfold Runner.sideEffect Runner.issuing
    dsimp only [Command.event]
    rw [hnext, hseq, hrec, h.world]
    by_cases hlt : b.issued.length < base
    · simp only [if_pos hlt, decide_eq_true hlt, hc.fromPayload_toPayload, unlessRecorded, if_true,
        List.append_nil]
      rfl
    · simp only [if_neg hlt, decide_eq_false hlt, hv]
      rfl
  rw [hr]
  exact ⟨hi, rfl⟩

theorem executeLocalActivity (h : Carries s S base sent r b) (hn : b.outcome = none)
    (hc : s.world.converter.RoundTrips) (type : String) (input : Payloads)
    (options : LocalActivityOptions) {fn : ActivityFn}
    (hfn : s.world.localActivityResolver.bind (· type) = some fn)
    {outcome : Except (String × String) Payloads}
    (hout : outcome = Runner.runLocalActivity s.info fn b.localActivitySeq type input options)
    (hg : Guards r.scan base b (.markerRecorded "LocalActivity"
      (Runner.localActivityDetails s.world.converter outcome))) :
    Agree s S base sent (r.executeLocalActivity type input options)
      (b.issue (.recordMarker "LocalActivity"
        (Runner.localActivityDetails s.world.converter outcome)),
        Runner.localActivityResp outcome) := by
  have hseq : r.localActivitySeq = b.localActivitySeq := congrArg Ordinals.localActivity h.ordinals
  have hrec := hg.localActivities (Prescan.localActivityMarker
    (Runner.localActivityDetails s.world.converter outcome)) (by
      simp [EventAttributes.localActivity?])
  have hi := h.issuing hn (.recordMarker "LocalActivity"
    (Runner.localActivityDetails s.world.converter outcome))
  have hnext : r.ordinals.next (.markerRecorded "LocalActivity"
      (Runner.localActivityDetails s.world.converter outcome)) =
      { r.ordinals with localActivity := r.localActivitySeq + 1 } := by
    simp [Ordinals.next, EventAttributes.activityId?, EventAttributes.timerId?,
      EventAttributes.childId?, EventAttributes.isNexus, EventAttributes.isExtSignal,
      EventAttributes.isUpsert, EventAttributes.sideEffect?, EventAttributes.localActivity?,
      Runner.ordinals]
  have hr : r.executeLocalActivity type input options = (r.issuing (.recordMarker "LocalActivity"
      (Runner.localActivityDetails s.world.converter outcome))
        (decide (b.issued.length < base)), Runner.localActivityResp outcome) := by
    rw [← hseq] at hrec hout
    rw [← h.info] at hout
    rw [← h.world] at hrec hfn hnext hc ⊢
    unfold Runner.issuing
    dsimp only [Command.event]
    rw [hnext]
    by_cases hlt : b.issued.length < base
    · rw [if_pos hlt] at hrec
      rw [r.executeLocalActivity_recorded type input options hrec,
        LocalActivityMarkerRaw.resp_localActivityMarker hc]
      simp only [decide_eq_true hlt, unlessRecorded, if_true, List.append_nil]
      rfl
    · rw [if_neg hlt] at hrec
      rw [r.executeLocalActivity_new input options hfn hrec, hout, decide_eq_false hlt]
      rfl
  rw [hr]
  exact ⟨hi, rfl⟩

/-- The first `GetVersion` of a change. -/
theorem getVersion (h : Carries s S base sent r b) (hm : Marks s r b) (hn : b.outcome = none)
    {changeId : String} {lo hi : Int} (hle : lo ≤ hi)
    (hnew : changeId ∉ (s.program.versions b.trace).map Prod.fst)
    (hrec : Runner.recordedVersions s.world.converter r.scan.versionMarkers changeId =
      if b.issued.length < base then some hi else none)
    (hdate : r.isReplaying = true → (r.changeVersions changeId).isSome = true) :
    Agree s S base sent (r.getVersion changeId lo hi) (b.issue (.recordMarker "Version"
      (Runner.versionDetails s.world.converter changeId hi)), .version hi) ∧
    ∃ versions, (∀ j, j ≠ changeId → versions j = r.changeVersions j) ∧
      (r.getVersion changeId lo hi).1.memory = { r.memory with changeVersions := versions } := by
  have hi' := h.issuing hn (.recordMarker "Version"
    (Runner.versionDetails s.world.converter changeId hi))
  have hnext : r.ordinals.next (.markerRecorded "Version"
      (Runner.versionDetails s.world.converter changeId hi)) = r.ordinals := by
    simp [Ordinals.next, EventAttributes.activityId?, EventAttributes.timerId?,
      EventAttributes.childId?, EventAttributes.isNexus, EventAttributes.isExtSignal,
      EventAttributes.isUpsert, EventAttributes.sideEffect?, EventAttributes.localActivity?]
  rw [← hm.versions changeId hnew] at hrec
  unfold Runner.issuing at hi'
  dsimp only [Command.event] at hi'
  rw [hnext] at hi'
  by_cases hlt : b.issued.length < base
  · rw [if_pos hlt] at hrec
    have hr : r.getVersion changeId lo hi = (r.produce .marker "Version" "", .version hi) := by
      simp only [Runner.getVersion, hrec]
      rw [if_neg (by omega)]
    rw [hr]
    rw [decide_eq_true hlt] at hi'
    simp only [unlessRecorded, if_true, List.append_nil] at hi'
    exact ⟨⟨hi', rfl⟩, r.changeVersions, fun _ _ => rfl, rfl⟩
  · rw [if_neg hlt] at hrec
    have hlive : r.isReplaying = false := by
      rw [Bool.eq_false_iff]
      intro hr
      have hsome := hdate hr
      rw [hrec] at hsome
      cases hsome
    have hr : r.getVersion changeId lo hi =
        ({ (r.produce .marker "Version" "").recordMarker "Version"
            (Runner.versionDetails s.world.converter changeId hi) with
          changeVersions := r.changeVersions.insert changeId hi }, .version hi) := by
      simp only [Runner.getVersion, hrec, hlive, Bool.false_eq_true, if_false, h.world]
      rfl
    rw [hr]
    rw [decide_eq_false hlt] at hi'
    refine ⟨⟨{ hi' with issued := { hi'.issued with } }, rfl⟩, r.changeVersions.insert changeId hi,
      fun j hj => PartialMap.insert_of_ne _ hj hi, rfl⟩

/-- What a runner finds on record for the next call of a mutable side effect. -/
theorem mse_next (hm : Marks s r b) (id : String) :
    ((r.mseRecorded id).getD [])[(r.mseCursor id).getD 0]? =
      (Runner.changes s.world.converter id r.scan.mutableSideEffectMarkers)[
        (b.changes s.world.converter id).length]? := by
  have hrecorded : (r.mseRecorded id).getD [] =
      Runner.changes s.world.converter id r.scan.mutableSideEffectMarkers := by
    rw [hm.mseRecorded]
    rfl
  rw [hrecorded, hm.mseCursor id]
  generalize (b.changes s.world.converter id).length = n
  generalize Runner.changes s.world.converter id r.scan.mutableSideEffectMarkers = l
  rcases le_total n l.length with hle | hle
  · rw [min_eq_left hle]
  · rw [min_eq_right hle, List.getElem?_eq_none le_rfl, List.getElem?_eq_none hle]

/-- A `MutableSideEffect` that leaves the value as it is: the value is read back, or the function
runs and finds it unchanged. -/
theorem mutableSideEffect_kept (h : Carries s S base sent r b) (hm : Marks s r b)
    (hc : s.world.converter.RoundTrips) {id : String} {equals : Value → Value → Bool}
    {v current : Value}
    (hv : s.world.mutableSideEffectFn id ((b.mseCallCount id).getD 0) = .ok v)
    (hf : (b.mseCurrent id).filter (equals · v) = some current)
    (hkept : ∀ p ∈ (Runner.changes s.world.converter id r.scan.mutableSideEffectMarkers)[
      (b.changes s.world.converter id).length]?, ((b.mseCallCount id).getD 0 : Int) < p.1) :
    Agree s S base sent (r.mutableSideEffect id equals)
      ({ b with mseCallCount := b.mseCallCount.insert id ((b.mseCallCount id).getD 0 + 1) },
        .value current) ∧
    Marks s (r.mutableSideEffect id equals).1
      { b with mseCallCount := b.mseCallCount.insert id ((b.mseCallCount id).getD 0 + 1) } := by
  have hw : r.world.converter = s.world.converter := by rw [h.world]
  have hcount : (r.mseCallCount id).getD 0 = (b.mseCallCount id).getD 0 := by
    rw [hm.mseCallCount]
  have hcur : r.mseCurrent id = some (r.world.converter.toPayload current) := by
    rw [hm.mseCurrent, (Option.filter_eq_some_iff.mp hf).1, hw, Option.map_some]
  have hnext := mse_next hm id
  rw [← hw] at hc
  obtain ⟨currents, hcurrents, hr⟩ : ∃ currents : PartialMap String Payload,
      (∀ j, currents j = r.mseCurrent j) ∧ r.mutableSideEffect id equals =
        ({ r with
          mseCallCount := r.mseCallCount.insert id ((r.mseCallCount id).getD 0 + 1)
          mseCurrent := currents }, .value current) := by
    cases hp : (Runner.changes s.world.converter id r.scan.mutableSideEffectMarkers)[
        (b.changes s.world.converter id).length]? with
    | none =>
      refine ⟨r.mseCurrent, fun _ => rfl, ?_⟩
      rw [Runner.mutableSideEffect_live hc (v := v) (hw ▸ hm.mseCurrent id) (hnext.trans hp)
        (by rw [h.world, hcount, hv]), hf]
    | some p =>
      have hlt := hkept p hp
      refine ⟨r.mseCurrent.insert id (r.world.converter.toPayload current), fun j => ?_,
        Runner.mutableSideEffect_passed hc hcur (hnext.trans hp) (by rw [hcount]; omega)⟩
      by_cases hj : j = id
      · rw [hj, PartialMap.insert_self, hcur]
      · rw [PartialMap.insert_of_ne _ hj]
  rw [hr]
  exact ⟨⟨{ h with issued := { h.issued with } }, rfl⟩, { hm with
    mseCallCount := by rw [hm.mseCallCount]
    mseCurrent := fun j => (hcurrents j).trans (hm.mseCurrent j) }⟩

/-- A `MutableSideEffect` that changes the value: the change is on record or gets recorded. -/
theorem mutableSideEffect_changed (h : Carries s S base sent r b) (hm : Marks s r b)
    (hn : b.outcome = none) (hc : s.world.converter.RoundTrips) {id : String}
    {equals : Value → Value → Bool} {v : Value}
    (hv : s.world.mutableSideEffectFn id ((b.mseCallCount id).getD 0) = .ok v)
    (hf : (b.mseCurrent id).filter (equals · v) = none)
    (hchanged : (Runner.changes s.world.converter id r.scan.mutableSideEffectMarkers)[
      (b.changes s.world.converter id).length]? =
        if b.issued.length < base then
          some (((b.mseCallCount id).getD 0 : Int), s.world.converter.toPayload v)
        else none) {b' : Progress σ}
    (hb' : b' = { b.issue (.recordMarker "MutableSideEffect" (Runner.mutableDetails
        s.world.converter id ((b.mseCallCount id).getD 0) v)) with
      mseCallCount := b.mseCallCount.insert id ((b.mseCallCount id).getD 0 + 1)
      mseCurrent := b.mseCurrent.insert id v }) :
    Agree s S base sent (r.mutableSideEffect id equals) (b', .value v) ∧
      Marks s (r.mutableSideEffect id equals).1 b' := by
  have hw : r.world.converter = s.world.converter := by rw [h.world]
  have hcount : (r.mseCallCount id).getD 0 = (b.mseCallCount id).getD 0 := by
    rw [hm.mseCallCount]
  have hch (j : String) : b'.changes s.world.converter j = b.changes s.world.converter j ++
      if id = j then [(((b.mseCallCount id).getD 0 : Int), s.world.converter.toPayload v)]
      else [] := by
    rw [hb']
    exact b.changes_issue_mutable hc id j _ v
  have hcurrent (j : String) :
      r.mseCurrent.insert id (r.world.converter.toPayload v) j =
        ((b.mseCurrent.insert id v) j).map s.world.converter.toPayload := by
    by_cases hj : j = id
    · rw [hj, PartialMap.insert_self, PartialMap.insert_self, hw, Option.map_some]
    · rw [PartialMap.insert_of_ne _ hj, PartialMap.insert_of_ne _ hj, hm.mseCurrent]
  have hi := h.issuing hn (.recordMarker "MutableSideEffect"
    (Runner.mutableDetails s.world.converter id ((b.mseCallCount id).getD 0) v))
  have hord : r.ordinals.next (.markerRecorded "MutableSideEffect" (Runner.mutableDetails
      s.world.converter id ((b.mseCallCount id).getD 0) v)) = r.ordinals := by
    simp [Ordinals.next, EventAttributes.activityId?, EventAttributes.timerId?,
      EventAttributes.childId?, EventAttributes.isNexus, EventAttributes.isExtSignal,
      EventAttributes.isUpsert, EventAttributes.sideEffect?, EventAttributes.localActivity?]
  unfold Runner.issuing at hi
  dsimp only [Command.event] at hi
  rw [hord] at hi
  have hnext := mse_next hm id
  have hcursor := hm.mseCursor
  rw [hchanged] at hnext
  have hc' := hc
  rw [← hw] at hc'
  by_cases hlt : b.issued.length < base
  · rw [if_pos hlt] at hnext hchanged
    rw [← hcount, ← hw] at hnext
    rw [Runner.mutableSideEffect_recorded hc' hnext]
    rw [decide_eq_true hlt] at hi
    simp only [unlessRecorded, if_true, List.append_nil] at hi
    subst hb'
    refine ⟨⟨{ hi with issued := { hi.issued with } }, rfl⟩, { hm with
      mseCallCount := by rw [hm.mseCallCount]; rfl
      mseCurrent := hcurrent
      mseCursor := fun j => ?_ }⟩
    rw [hch j, List.length_append]
    by_cases hj : j = id
    · subst hj
      have hltl := (List.getElem?_eq_some_iff.mp hchanged).1
      rw [if_pos rfl, List.length_singleton]
      change ((r.mseCursor.insert j _) j).getD 0 = min _ (Runner.changes s.world.converter j
        r.scan.mutableSideEffectMarkers).length
      rw [PartialMap.insert_self, Option.getD_some, hcursor j]
      omega
    · rw [if_neg (Ne.symm hj), List.length_nil, Nat.add_zero]
      change ((r.mseCursor.insert id _) j).getD 0 = min _ (Runner.changes s.world.converter j
        r.scan.mutableSideEffectMarkers).length
      rw [PartialMap.insert_of_ne _ hj, hcursor j]
      rfl
  · rw [if_neg hlt] at hnext hchanged
    rw [Runner.mutableSideEffect_live hc' (v := v) (hw ▸ hm.mseCurrent id) hnext
      (by rw [h.world, hcount, hv]), hf]
    rw [decide_eq_false hlt] at hi
    subst hb'
    refine ⟨⟨{ hi with
        issued := { hi.issued with }
        commands := by
          have hcmd := hi.commands
          rw [← hw, ← hcount] at hcmd ⊢
          exact hcmd }, rfl⟩, { hm with
      mseCallCount := by rw [hm.mseCallCount]; rfl
      mseCurrent := hcurrent
      mseCursor := fun j => ?_ }⟩
    rw [hch j, List.length_append]
    change (r.mseCursor j).getD 0 = _
    rw [hcursor j]
    by_cases hj : j = id
    · subst hj
      have hle := List.getElem?_eq_none_iff.mp hchanged
      rw [if_pos rfl, List.length_singleton]
      change _ = min _ (Runner.changes s.world.converter j
        r.scan.mutableSideEffectMarkers).length
      omega
    · rw [if_neg (Ne.symm hj), List.length_nil, Nat.add_zero]
      rfl

/-- A `MutableSideEffect` whose function returns is answered alike. -/
theorem mutableSideEffect (h : Carries s S base sent r b) (hm : Marks s r b) (hn : b.outcome = none)
    (hc : s.world.converter.RoundTrips) {id : String} {equals : Value → Value → Bool} {v : Value}
    (hv : s.world.mutableSideEffectFn id ((b.mseCallCount id).getD 0) = .ok v)
    (ha : Anchored s r.scan base b (b.mutable s.world.converter id equals v).1) :
    Agree s S base sent (r.mutableSideEffect id equals)
      (b.mutable s.world.converter id equals v) ∧
    Marks s (r.mutableSideEffect id equals).1 (b.mutable s.world.converter id equals v).1 := by
  cases hf : (b.mseCurrent id).filter (equals · v) with
  | some current =>
    have hb : b.mutable s.world.converter id equals v =
        ({ b with mseCallCount := b.mseCallCount.insert id ((b.mseCallCount id).getD 0 + 1) },
          .value current) := by
      simp only [Progress.mutable, hf]
    rw [hb] at ha ⊢
    refine h.mutableSideEffect_kept hm hc hv hf fun p hp => ?_
    have hge := ha.kept id rfl p hp
    dsimp only at hge
    rw [PartialMap.insert_self, Option.getD_some] at hge
    omega
  | none =>
    have hb : b.mutable s.world.converter id equals v =
        ({ b.issue (.recordMarker "MutableSideEffect" (Runner.mutableDetails
            s.world.converter id ((b.mseCallCount id).getD 0) v)) with
          mseCallCount := b.mseCallCount.insert id ((b.mseCallCount id).getD 0 + 1)
          mseCurrent := b.mseCurrent.insert id v }, .value v) := by
      simp only [Progress.mutable, hf]
      rfl
    rw [hb] at ha ⊢
    refine h.mutableSideEffect_changed hm hn hc hv hf (ha.changed id _ ?_) rfl
    exact (b.changes_issue_mutable hc id id _ v).trans (by rw [if_pos rfl])

/-- The request for a child or another workflow. -/
theorem requestCancelExternal (h : Carries s S base sent r b) (hn : b.outcome = none) {id : String}
    (childOnly : Bool) (hflag : r.scan.requested (.child id) = decide (b.issued.length < base)) :
    Carries s S base sent (r.requestCancelExternal id childOnly)
      (b.issue (.requestCancelExternalWorkflowExecution s.info.ns id childOnly)) := by
  have hi := h.issuing hn (.requestCancelExternalWorkflowExecution s.info.ns id childOnly)
  rw [← hflag, Prescan.requested_child, ← h.info] at hi
  rw [r.requestCancelExternal_eq, ← h.info]
  exact hi

/-- The request for an activity. -/
theorem cancelActivity (h : Carries s S base sent r b) (hn : b.outcome = none) {addr sid : Nat}
    {id : String} (hfuture : r.futures addr = S.future (.activity id))
    (hsid : r.scan.activityToSchedEvent id = some sid)
    (hflag : r.scan.requested (.activity id) = decide (b.issued.length < base)) :
    Carries s S base sent (r.cancel addr) (b.issue (.requestCancelActivityTask sid)) := by
  obtain ⟨hop, hid⟩ := futureOfEntry_op .activity id (S.activities id)
  have hfresh := futureOfEntry_cancelled .activity id (S.activities id)
  have hentry : futureOfEntry .activity id (S.activities id) = r.futures addr := hfuture.symm
  rw [hentry] at hop hid hfresh
  have hi := h.issuing hn (.requestCancelActivityTask sid)
  rw [← hflag, Prescan.requested_activity] at hi
  rw [r.cancel_activity hop hfresh (hid ▸ hsid), hid]
  exact hi

/-- A request to cancel is answered alike. -/
theorem request (h : Carries s S base sent r b) (hn : b.outcome = none) {addr : Nat}
    (hq : RequestGuards S r.scan base b (.cancel addr)) :
    ∃ c, b.request s S addr = some c ∧ Carries s S base sent (r.cancel addr) c := by
  have hnothing (hop : (r.futures addr).op = .none ∨ (r.futures addr).op = .nexusOperation) :
      Carries s S base sent (r.cancel addr) b := by
    have hr : r.cancel addr = r := by
      unfold Runner.cancel
      rcases hop with hop | hop <;> simp only [hop, ite_self]
    rw [hr]
    exact h
  have hfuture := h.future addr
  unfold Progress.future at hfuture
  unfold Progress.request
  cases hk : b.keys[addr]? with
  | none =>
    rw [hk] at hfuture
    exact ⟨b, rfl, hnothing (.inl (by rw [hfuture]; rfl))⟩
  | some k =>
    rw [hk, Option.map_some, Option.getD_some] at hfuture
    cases k with
    | timer id => exact absurd hk (hq.timers id)
    | nexus id =>
      refine ⟨b, rfl, hnothing (.inr ?_)⟩
      rw [hfuture]
      exact (futureOfEntry_op .nexusOperation id (S.nexusOps id)).1
    | cancellation => exact ⟨b, rfl, hnothing (.inl (by rw [hfuture]; rfl))⟩
    | activity id =>
      obtain ⟨sid, hsid, hscan⟩ := hq.activities id hk
      dsimp only
      rw [hsid]
      exact ⟨_, rfl, h.cancelActivity hn hfuture hscan (hq.requested _ hk (.inl ⟨id, rfl⟩))⟩
    | child id =>
      obtain ⟨hop, hid⟩ := futureOfEntry_op .childWorkflow id (S.children id)
      have hfresh := futureOfEntry_cancelled .childWorkflow id (S.children id)
      have hentry : futureOfEntry .childWorkflow id (S.children id) = r.futures addr := hfuture.symm
      rw [hentry] at hop hid hfresh
      refine ⟨_, rfl, ?_⟩
      rw [r.cancel_child hop hfresh, hid]
      exact h.requestCancelExternal hn true (hq.requested _ hk (.inr ⟨id, rfl⟩))

/-- One operation of the body that keeps no marker is answered alike. -/
theorem exec (h : Carries s S base sent r b) (ho : b.Ordered s) (hn : b.outcome = none)
    (hc : s.world.converter.RoundTrips) {op : Op σ} {mseCalls : String → Nat}
    {asked : List (String × Int)} (hop : op.Redoes s.world b.sideEffectSeq mseCalls asked)
    (hq : RequestGuards S r.scan base b op) (hv : op.version? = none)
    (hm : ∀ id equals, op ≠ .mutableSideEffect id equals)
    (hg : ∀ b' resp a, b.exec s S op = some (b', resp) → b'.events = b.events ++ [a] →
      Guards r.scan base b a) :
    Option.Rel (Agree s S base sent) (r.exec op) (b.exec s S op) := by
  have hcount : r.futureCount = b.keys.length := h.issued.count
  have hrepeats (hr : op.isRequest = false) : op.Repeats s.world b.sideEffectSeq mseCalls asked :=
    hop.resolve_left (by rw [hr]; exact Bool.false_ne_true)
  cases op with
  | scheduleActivity type input options =>
    have hgo := hg _ _ _ rfl (b.opening_events _ _)
    exact .some ⟨h.scheduleActivity ho hn type input options hgo, congrArg Resp.future hcount⟩
  | startTimer duration =>
    have hgo := hg _ _ _ rfl (b.opening_events _ _)
    exact .some ⟨h.startTimer ho hn duration hgo, congrArg Resp.future hcount⟩
  | startChildWorkflow type input options =>
    have hid : options.id.isEmpty = true := hrepeats rfl
    simp only [Runner.exec, Progress.exec, if_pos hid] at hg ⊢
    have hgo := hg _ _ _ rfl (b.opening_events _ _)
    exact .some ⟨h.startChildWorkflow ho hn type input hid hgo, congrArg Resp.future hcount⟩
  | scheduleNexusOperation endpoint service operation input close =>
    have hgo := hg _ _ _ rfl (b.opening_events _ _)
    exact .some ⟨h.scheduleNexusOperation ho hn endpoint service operation input close hgo,
      congrArg Resp.future hcount⟩
  | signalExternalWorkflow id name input =>
    have hgo := hg _ _ _ rfl (b.issue_events _)
    exact .some ⟨h.signalExternalWorkflow hn id name input hgo, rfl⟩
  | upsertSearchAttributes attributes =>
    have hgo := hg _ _ _ rfl (b.issue_events _)
    exact .some ⟨h.upsertSearchAttributes hn attributes hgo, rfl⟩
  | get addr =>
    simp only [Runner.exec, Progress.exec, h.future addr]
    split
    · exact .some ⟨h, rfl⟩
    · exact .none
  | isReady addr =>
    exact .some ⟨h, congrArg (fun f => Resp.flag f.ready) (h.future addr)⟩
  | receive name =>
    simp only [Runner.exec, Progress.exec, h.tryConsumeSignal name]
    cases b.nextSignal S name with
    | none => exact .none
    | some p => exact .some ⟨{ h with signalCursor := rfl, issued := { h.issued with } }, rfl⟩
  | receiveAsync name =>
    simp only [Runner.exec, Progress.exec, h.tryConsumeSignal name]
    cases b.nextSignal S name with
    | none => exact .some ⟨h, rfl⟩
    | some p => exact .some ⟨{ h with signalCursor := rfl, issued := { h.issued with } }, rfl⟩
  | hasPending name => exact .some ⟨h, congrArg Resp.flag (h.hasSignal name)⟩
  | select cases hasDefault =>
    simp only [Runner.exec, Progress.exec, h.caseReady]
    cases cases.findIdx? (b.caseReady S) with
    | some i => exact .some ⟨h, rfl⟩
    | none =>
      cases hasDefault with
      | true => exact .some ⟨h, rfl⟩
      | false => exact .none
  | isCancelled => exact .some ⟨h, congrArg Resp.flag h.cancelRequested⟩
  | awaitCancellation => exact .some ⟨h.awaitCancellation, congrArg Resp.future hcount⟩
  | sideEffect =>
    obtain ⟨v, hv⟩ := hrepeats rfl
    simp only [Runner.exec, Progress.exec, hv] at hg ⊢
    exact .some (h.sideEffect hn hc hv (hg _ _ _ rfl (b.issue_events _)))
  | executeLocalActivity type input options =>
    obtain ⟨fn, hfn⟩ := hrepeats rfl
    simp only [Runner.exec, Progress.exec, hfn, Option.map_some] at hg ⊢
    exact .some (h.executeLocalActivity hn hc type input options hfn rfl
      (hg _ _ _ rfl (b.issue_events _)))
  | setQueryHandler name handler =>
    have hs := congrArg (PartialMap.insert · name handler) h.queryHandlers
    exact .some ⟨{ h with queryHandlers := hs, issued := { h.issued with } }, rfl⟩
  | setUpdateHandler name handler =>
    have hs := congrArg (PartialMap.insert · name handler) h.updateHandlers
    exact .some ⟨{ h with updateHandlers := hs, issued := { h.issued with } }, rfl⟩
  | setUpdateValidator name handler =>
    have hs := congrArg (PartialMap.insert · name handler) h.updateValidators
    exact .some ⟨{ h with updateValidators := hs, issued := { h.issued with } }, rfl⟩
  | getInfo => exact .some ⟨h, congrArg Resp.info h.info⟩
  | readStore => exact .some ⟨h, congrArg Resp.store h.store⟩
  | writeStore x => exact .some ⟨{ h with store := rfl, issued := { h.issued with } }, rfl⟩
  | finish o => exact .none
  | cancel addr =>
    obtain ⟨c, hb, hcar⟩ := h.request hn hq
    simp only [Runner.exec, Progress.exec, hb, Option.map_some]
    exact .some ⟨hcar, rfl⟩
  | cancelExternalWorkflow id =>
    exact .some ⟨h.requestCancelExternal hn false (hq.requested _ rfl (.inr ⟨id, rfl⟩)), rfl⟩
  | mutableSideEffect id equals => exact absurd rfl (hm id equals)
  | getVersion changeId lo hi => cases hv
  | isReplaying => exact (hrepeats rfl).elim

/-- The end of the body. -/
theorem finishBody (h : Carries s S base sent r b) (hn : b.outcome = none) (o : Outcome) :
    Carries s S base sent (r.finishBody o) { b with outcome := some o } := by
  have hproduced : ({ b with outcome := some o } : Progress σ).produced.drop sent =
      r.producedCommands ++ Progress.terminalEntry o := by
    rw [Progress.produced_drop _ (by exact h.sent_le), h.producedCommands,
      b.produced_drop h.sent_le, hn]
    simp
    rfl
  have hblocked : r.status = .blocked := by
    have ht := h.terminalCommand
    rw [Progress.terminalCommand, hn] at ht
    unfold Runner.terminalCommand at ht
    split at ht <;> first
      | assumption
      | cases ht
  have hfail (message type : String) : r.bodyFailure o message type =
      s.runner.bodyFailure o message type := by
    simp only [Runner.bodyFailure, h.world, Setting.runner]
  have hissued : Issued (r.finishBody o) S b.keys := by
    cases o <;> exact { h.issued with }
  cases o with
  | returned result =>
    exact { h with
      issued := hissued, producedCommands := hproduced.symm, done := rfl, terminalCommand := rfl }
  | continueAsNew type input =>
    exact { h with
      issued := hissued, producedCommands := hproduced.symm, done := rfl, terminalCommand := rfl }
  | applicationError message type nonRetryable =>
    exact { h with
      issued := hissued, producedCommands := hproduced.symm, done := rfl
      terminalCommand := by
        simp only [Runner.finishBody, hfail]
        rfl }
  | stdException what =>
    exact { h with
      issued := hissued, producedCommands := hproduced.symm, done := rfl
      terminalCommand := by
        simp only [Runner.finishBody, hfail]
        rfl }
  | otherException =>
    -- nothing is produced, and the status stays what it was
    exact { h with
      issued := hissued, done := rfl
      producedCommands := by
        rw [hproduced]
        exact (List.append_nil _).symm
      terminalCommand := by
        simp only [Runner.finishBody, Runner.terminalCommand, hblocked]
        rfl }

theorem program (h : Carries s S base sent r b) : r.program = s.program := by
  simp only [Runner.program, Setting.program, h.world, h.workflowFn, h.input, Setting.runner]

/-- An operation that keeps no marker leaves them where they are. -/
theorem exec_unmarked (h : Carries s S base sent r b) (hm : Marks s r b) (ho : b.Ordered s)
    (hn : b.outcome = none) (hc : s.world.converter.RoundTrips) {op : Op σ}
    (hop : s.program b.trace = op) {mseCalls : String → Nat} {asked : List (String × Int)}
    (hrep : op.Redoes s.world b.sideEffectSeq mseCalls asked)
    (hq : RequestGuards S r.scan base b op) (hv : op.version? = none)
    (hne : ∀ id equals, op ≠ .mutableSideEffect id equals)
    (hg : ∀ b' resp a, b.exec s S op = some (b', resp) → b'.events = b.events ++ [a] →
      Guards r.scan base b a) :
    Option.Rel (fun x y => Agree s S base sent x y ∧
      Marks s x.1 { y.1 with trace := b.trace ++ [y.2] }) (r.exec op) (b.exec s S op) := by
  have hversions (resp : Resp σ) :
      s.program.versions (b.trace ++ [resp]) = s.program.versions b.trace := by
    rw [s.program.versions_concat, hop, hv, Option.toList_none, List.append_nil]
  have hx := h.exec ho hn hc hrep hq hv hne hg
  generalize hr : r.exec op = x at hx ⊢
  generalize hb : b.exec s S op = y at hx ⊢
  cases hx with
  | none => exact .none
  | @some x y hxy =>
    obtain ⟨hcount, hcur, hev⟩ := Progress.exec_cases hb hv hne
    have hmem := r.exec_memory (fun _ _ _ he => by rw [he] at hv; cases hv) hne hr
    refine .some ⟨hxy, hm.of_same hmem
      (by rw [(r.exec_frame hr).scan]) (fun j hj => ⟨hversions _ ▸ hj, rfl⟩) ?_ hcount hcur⟩
    change (markersOf y.1.events).mutables = _
    rcases hev with hev | ⟨a, hev, hmark, -⟩
    · rw [hev]
    · rw [hev, markersOf_append, hmark]
      exact List.append_nil _

/-- Versions and mutable side effects included, one operation of the body is answered alike. -/
theorem exec_marks (h : Carries s S base sent r b) (hm : Marks s r b) (ho : b.Ordered s)
    (hn : b.outcome = none) (hc : s.world.converter.RoundTrips) (hrep : b.Redoes s)
    (hq : RequestGuards S r.scan base b (s.program b.trace)) (hdate : r.Dated)
    (hg : ∀ b' resp a, b.exec s S (s.program b.trace) = some (b', resp) →
      b'.events = b.events ++ [a] → Guards r.scan base b a)
    (ha : ∀ b' resp, b.exec s S (s.program b.trace) = some (b', resp) →
      Anchored s r.scan base b b') :
    Option.Rel (fun x y => Agree s S base sent x y ∧
      Marks s x.1 { y.1 with trace := b.trace ++ [y.2] })
      (r.exec (s.program b.trace)) (b.exec s S (s.program b.trace)) := by
  have hversions (resp : Resp σ) := s.program.versions_concat b.trace resp
  unfold Progress.Redoes at hrep
  unfold Runner.Dated at hdate
  rw [h.program, h.trace] at hdate
  cases hop : s.program b.trace with
  | getVersion changeId lo hi =>
    rw [hop] at hrep ha hdate hversions
    obtain ⟨hle, hnew⟩ := hrep.resolve_left Bool.false_ne_true
    simp only [Runner.exec, Progress.exec, if_pos (And.intro hle hnew)] at ha ⊢
    have hanchor := ha _ _ rfl
    have hrec := hanchor.version (changeId, hi) (by rw [hop]; rfl)
    obtain ⟨hagree, versions, hother, hmem⟩ := h.getVersion hm hn hle hnew hrec
      (hdate (changeId, hi) rfl)
    have hframe : (r.getVersion changeId lo hi).1.scan = r.scan :=
      (r.getVersion_frame changeId lo hi).scan
    refine .some ⟨hagree, hm.of_same hmem (by rw [hframe]) (fun j hj => ?_) ?_ rfl rfl⟩
    · rw [hversions, List.map_append, List.mem_append, not_or] at hj
      exact ⟨hj.1, hother j fun he => hj.2 (by rw [he]; exact List.mem_singleton.mpr rfl)⟩
    · change (markersOf (b.issue _).events).mutables = _
      rw [Progress.issue_events, markersOf_append, Command.event, Progress.markersOf_version,
        List.append_nil]
  | mutableSideEffect id equals =>
    rw [hop] at hrep ha hversions
    obtain ⟨v, hv⟩ := hrep.resolve_left Bool.false_ne_true
    simp only [Runner.exec, Progress.exec, hv] at ha ⊢
    obtain ⟨hagree, hmarks⟩ := h.mutableSideEffect hm hn hc hv (ha _ _ rfl)
    have hasked : s.program.versions (b.trace ++ [(b.mutable s.world.converter id equals v).2]) =
        s.program.versions (b.mutable s.world.converter id equals v).1.trace := by
      have htrace : (b.mutable s.world.converter id equals v).1.trace = b.trace := by
        unfold Progress.mutable
        dsimp only
        split <;> rfl
      rw [hversions, htrace]
      exact List.append_nil _
    exact .some ⟨hagree, { hmarks with versions := fun j hj => hmarks.versions j (hasked ▸ hj) }⟩
  | _ =>
    rw [hop] at hrep hq hg
    exact h.exec_unmarked hm ho hn hc hop hrep hq rfl (fun _ _ he => by cases he) hg

/-- One step of the body on both sides. -/
theorem step (h : Carries s S base sent r b) (hm : Marks s r b) (ho : b.Ordered s)
    (hc : s.world.converter.RoundTrips) (hrep : b.Redoes s)
    (hq : RequestGuards S r.scan base b (s.program b.trace)) (hdate : r.Dated)
    (hg : ∀ b' a, b.step s S = some b' → b'.events = b.events ++ [a] → Guards r.scan base b a)
    (ha : ∀ b', b.step s S = some b' → Anchored s r.scan base b b') :
    Option.Rel (fun r b => Carries s S base sent r b ∧ Marks s r b) r.step (b.step s S) := by
  unfold Runner.step Progress.step at *
  rw [h.done, h.program, h.trace]
  cases hout : b.outcome with
  | some o => exact .none
  | none =>
    simp only [hout, Option.isSome_none, Bool.false_eq_true, if_false] at hg ha ⊢
    cases hfin : (s.program b.trace).outcome? with
    | some o =>
      refine .some ⟨h.finishBody hout o, hm.of_same ?_ ?_
        (fun j hj => ⟨hj, rfl⟩) rfl rfl rfl⟩
      · cases o <;> rfl
      · rw [r.finishBody_scan]
    | none =>
      simp only [hfin] at hg ha ⊢
      have hx := h.exec_marks hm ho hout hc hrep hq hdate
        (fun b' resp a hb he =>
          hg { b' with trace := b.trace ++ [resp] } a (by rw [hb]; rfl) he)
        (fun b' resp hb =>
          have hanchor := ha { b' with trace := b.trace ++ [resp] } (by rw [hb]; rfl)
          ⟨hanchor.version, hanchor.changed, hanchor.kept⟩)
      cases hr : r.exec (s.program b.trace) <;> cases hb : b.exec s S (s.program b.trace) <;>
        rw [hr, hb] at hx <;> cases hx
      · exact .none
      · next x y hxy =>
        obtain ⟨⟨hcar, hresp⟩, hmarks⟩ := hxy
        have htrace := congrArg (fun resp => b.trace ++ [resp]) hresp
        exact .some ⟨{ hcar with trace := htrace, issued := { hcar.issued with } },
          { hmarks with }⟩

/-- What a runner asks is what its body asks. -/
theorem redoes (h : Carries s S base sent r b) (hm : Marks s r b) (hr : r.Redoes) :
    b.Redoes s := by
  have hseq : r.sideEffectSeq = b.sideEffectSeq := congrArg Ordinals.sideEffect h.ordinals
  have hasks := hr.asks
  rwa [h.program, h.trace, h.world, hseq, hm.mseCallCount] at hasks

/-- Wherever a coroutine and its body come together, the body asks for what is asked for alike, and
the coroutine knows the versions it is asked for. -/
def AsksAlike (s : Setting σ) (S : Prescan) (base sent : Nat) (r : Runner σ) (b : Progress σ) :
    Prop :=
  ∀ q c, StateTransition.Reaches Runner.step r q →
    StateTransition.Reaches (Progress.step s S) b c → Carries s S base sent q c → Marks s q c →
      c.Redoes s ∧ q.Dated

theorem AsksAlike.of_redoes (h : ∀ q, StateTransition.Reaches Runner.step r q → q.Redoes) :
    AsksAlike s S base sent r b :=
  fun q _ hq _ hcar hm => ⟨hcar.redoes hm (h q hq), (h q hq).dated⟩

/-- A coroutine and its body go step by step from where they have come together, as long as the
body asks for what repeats. -/
theorem lockstep (sent : Nat) (ho : b.Ordered s) (hc : s.world.converter.RoundTrips)
    {scan : Prescan} (hop : AsksAlike s S base sent r b)
    (hrequest : ∀ q c, StateTransition.Reaches Runner.step r q →
      StateTransition.Reaches (Progress.step s S) b c → Carries s S base sent q c →
        RequestGuards S scan base c (s.program c.trace))
    (hg : ∀ c c' a, StateTransition.Reaches (Progress.step s S) b c → c.step s S = some c' →
      c'.events = c.events ++ [a] → Guards scan base c a)
    (ha : ∀ c c', StateTransition.Reaches (Progress.step s S) b c → c.step s S = some c' →
      Anchored s scan base c c') :
    Parking.Lockstep Runner.step (Progress.step s S) fun q c =>
      (Carries s S base sent q c ∧ Marks s q c) ∧ q.scan = scan ∧
        StateTransition.Reaches Runner.step r q ∧
        StateTransition.Reaches (Progress.step s S) b c := by
  refine .of_rel fun q c ⟨⟨hq, hm⟩, hscan, hqr, hr⟩ => ?_
  obtain ⟨hrep, hdated⟩ := hop q c hqr hr hq hm
  have hstep := hq.step hm (ho.reaches hr) hc hrep (hscan ▸ hrequest q c hqr hr hq) hdated
    (fun c' a hs he => hscan ▸ hg c c' a hr hs he) (fun c' hs => hscan ▸ ha c c' hr hs)
  cases hqs : q.step <;> cases hcs : c.step s S <;> rw [hqs, hcs] at hstep <;> cases hstep
  · exact .none
  · next hcar =>
    exact .some ⟨hcar, (Runner.step_scan hqs).trans hscan, hqr.tail hqs, hr.tail hcs⟩

end Carries

end TemporalSdk
