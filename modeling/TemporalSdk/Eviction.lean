import TemporalSdk.Observation

/-! The tasks of one execution, each served by the cached runner or by a fresh one, and why the
choice does not show. -/
namespace TemporalSdk
open StateTransition (Reaches)

variable {σ : Type}

/-- A future before its operation is recorded. -/
def Key.blank : Key → FutureState
  | .activity id => { op := .activity, opId := id }
  | .timer id => { op := .timer, opId := id }
  | .child id => { op := .childWorkflow, opId := id }
  | .nexus id => { op := .nexusOperation, opId := id }
  | .cancellation => {}

theorem futureOfEntry_of_not_recorded (op : FutureOp) (id : String) {e : Option OpOutcome}
    (h : OpOutcome.recorded e = false) : futureOfEntry op id e = { op, opId := id } := by
  cases e with
  | none => rfl
  | some o => simp_all [futureOfEntry, OpOutcome.recorded, Option.filter]

theorem futureOfTimer_of_not_recorded (id : String) {e : Option TimerOutcome}
    (h : TimerOutcome.recorded e = false) :
    futureOfTimer id e = { op := .timer, opId := id } := by
  cases e with
  | none => rfl
  | some o => simp_all [futureOfTimer, TimerOutcome.recorded, Option.filter]

/-- A scan reveals nothing of an operation that is not on record. -/
theorem Known.future_eq {scan : Prescan} {rec : List EventAttributes} (h : Known scan rec) {k : Key}
    (hne : k ≠ .cancellation) (hk : ¬ k.Opened rec) : scan.future k = k.blank := by
  cases k with
  | activity id =>
    exact futureOfEntry_of_not_recorded _ _ (Bool.eq_false_iff.mpr (mt (h.activities id) hk))
  | timer id =>
    exact futureOfTimer_of_not_recorded _ (Bool.eq_false_iff.mpr (mt (h.timers id) hk))
  | child id =>
    exact futureOfEntry_of_not_recorded _ _ (Bool.eq_false_iff.mpr (mt (h.children id) hk))
  | nexus id =>
    exact futureOfEntry_of_not_recorded _ _ (Bool.eq_false_iff.mpr (mt (h.nexusOps id) hk))
  | cancellation => exact absurd rfl hne

section Applying

theorem Runner.applyEvents_touches (r : Runner σ) (evs : History) :
    ∃ scan futures, r.applyEvents evs = { r with scan := scan, futures := futures } := by
  induction evs generalizing r with
  | nil => exact ⟨_, _, rfl⟩
  | cons e evs ih =>
    by_cases hst : e.eventId ≤ r.scan.lastEventId
    · rw [r.applyEvents_cons_stale hst]
      exact ih r
    · rw [r.applyEvents_cons_new (Nat.lt_of_not_le hst)]
      obtain ⟨scan, futures, h⟩ := r.applyEventToState_touches e
      obtain ⟨scan', futures', h'⟩ := ih (r.applyOne e)
      rw [h', Runner.applyOne, h]
      exact ⟨_, _, rfl⟩

theorem Registers.ne_of_length_le {m : PartialMap String Nat} {keys : List Key}
    {kind : String → Key} (h : Registers m keys kind) {a : Nat} (ha : keys.length ≤ a)
    (id : String) : m id ≠ some a := by
  intro hm
  have hlt := (List.getElem?_eq_some_iff.mp ((h id a).mp hm)).1
  omega

/-- An event does not reach futures that have not been handed out. -/
theorem Issued.applyEventToState_futures {r : Runner σ} {S : Prescan} {keys : List Key}
    (h : Issued r S keys) (e : HistoryEvent) {a : Nat} (ha : keys.length ≤ a) :
    (r.applyEventToState e).futures a = r.futures a := by
  have hbind {m : PartialMap String Nat} {kind : String → Key} (hm : Registers m keys kind)
      (o : Option String) : o.bind m ≠ some a := by
    cases o with
    | none => nofun
    | some id => exact hm.ne_of_length_le ha id
  have hcancels : ∀ (as : List Nat) (q : Runner σ), (∀ b ∈ as, b ≠ a) →
      (as.foldl (fun r a => r.setFuture a { r.futures a with ready := true }) q).futures a =
        q.futures a := by
    intro as
    induction as with
    | nil => exact fun _ _ => rfl
    | cons b as ih =>
      intro q hq
      rw [List.foldl_cons, ih _ fun c hc => hq c (List.mem_cons_of_mem b hc)]
      exact Function.update_of_ne (hq b List.mem_cons_self).symm _ _
  obtain ⟨eid, attrs⟩ := e
  cases attrs with
  | workflowExecutionCancelRequested =>
    refine hcancels r.cancelFutures { r with scan := { r.scan with cancelRequested := true } }
      fun b hb he => ?_
    have hlt := (List.getElem?_eq_some_iff.mp (h.cancels b hb)).1
    omega
  | timerFired id => exact r.resolveFuture_of_ne _ (h.timers.ne_of_length_le ha id)
  | timerCanceled id => exact r.resolveFuture_of_ne _ (h.timers.ne_of_length_le ha id)
  | _ => first
    | rfl
    | exact r.resolveFuture_of_ne _ (h.children.ne_of_length_le ha _)
    | exact r.resolveFuture_of_ne _ (hbind h.activities _)
    | exact r.resolveFuture_of_ne _ (hbind h.nexus _)

theorem Follows.applyEvents_futures {r : Runner σ} {p q : History} {keys : List Key}
    (h : Follows r p keys) (wf : WellFormed (p ++ q)) {a : Nat} (ha : keys.length ≤ a) :
    (r.applyEvents q).futures a = r.futures a := by
  induction q generalizing r p with
  | nil => rfl
  | cons e q ih =>
    have hlt : r.scan.lastEventId < e.eventId := by
      rw [h.lastEventId]
      exact wf.lastEventId_lt
    have hsplit : p ++ e :: q = (p ++ [e]) ++ q := by simp
    rw [hsplit] at wf
    rw [r.applyEvents_cons_new hlt, ih (h.applyOne wf.left) wf]
    exact h.issued.applyEventToState_futures e ha

end Applying

/-- A runner that has served the history `h` and stands where the body stands. -/
structure Cached (s : Setting σ) (h : History) (b : Progress σ) (r : Runner σ) : Prop where
  carries : ∃ base sent, Carries s (scanAll h) base sent r b
  live : r.scan.live = (scanAll h).live
  lastEventId : r.scan.lastEventId = (scanAll h).lastEventId
  known : Known r.scan (History.commandEvents h)
  marks : Marks s r b
  knownMarkers : KnownMarkers r.scan (History.commandEvents h)
  requests : RequestsKnown r.scan h

section Guarding

variable {s : Setting σ} {S scan : Prescan} {b : Progress σ}

/-- Beyond the record every command is new. -/
theorem Guards.of_reaches (hk : Known scan b.events) (ho : b.Ordered s) {c c' : Progress σ}
    {a : EventAttributes} (hc : Reaches (Progress.step s S) b c) (hs : c.step s S = some c')
    (ha : c'.events = c.events ++ [a]) : Guards scan b.issued.length c a := by
  have hseq := ((ho.reaches hc).step hs).sequenced
  rw [ha] at hseq
  rw [← b.length_events]
  exact .of_known hk (Progress.reaches_events hc) hseq

/-- A replay finds its commands on record until it comes by `b`, and then no more. -/
theorem Guards.of_replay (hr : Recorded scan b.events) {b₀ : Progress σ} (ho : b₀.Ordered s)
    (hb : Reaches (Progress.step s S) b₀ b) {c c' : Progress σ} {a : EventAttributes}
    (hc : Reaches (Progress.step s S) b₀ c) (hs : c.step s S = some c')
    (ha : c'.events = c.events ++ [a]) : Guards scan b.issued.length c a := by
  rcases StateTransition.reaches_total hb hc with hbc | hcb
  · exact .of_reaches hr.known (ho.reaches hb) hbc hs ha
  · rcases hcb.cases_head with rfl | ⟨d, hd, hdb⟩
    · exact .of_reaches hr.known (ho.reaches hb) .refl hs ha
    · cases Option.some.inj (hs.symm.trans hd)
      have hpre := Progress.reaches_events hdb
      rw [ha] at hpre
      rw [← b.length_events]
      exact .of_recorded hr hpre

/-- Beyond the record every marker is new. -/
theorem Anchored.of_reaches (hc : s.world.converter.RoundTrips) (hk : KnownMarkers scan b.events)
    (hb : b.Versioned s) {c c' : Progress σ} (hr : Reaches (Progress.step s S) b c)
    (hs : c.step s S = some c') : Anchored s scan b.issued.length c c' := by
  have hpre := Progress.reaches_events hr
  refine .of_known hc (hk.mono hpre) (hb.reaches hc hr) (Progress.step_marks hc hs) ?_
  rw [← b.length_events, ← c.length_events]
  exact hpre.length_le

/-- A replay finds its markers on record until it comes by `b`, and then no more. -/
theorem Anchored.of_replay (hc : s.world.converter.RoundTrips)
    (hm : scan.markers = markersOf b.events) {b₀ : Progress σ} (hb₀ : b₀.Versioned s)
    (hb : Reaches (Progress.step s S) b₀ b) {c c' : Progress σ}
    (hr : Reaches (Progress.step s S) b₀ c) (hs : c.step s S = some c') :
    Anchored s scan b.issued.length c c' := by
  have hv := hb₀.reaches hc hb
  rcases StateTransition.reaches_total hb hr with hbc | hcb
  · exact .of_reaches hc (.of_eq hm) hv hbc hs
  · rcases hcb.cases_head with rfl | ⟨d, hd, hdb⟩
    · exact .of_reaches hc (.of_eq hm) hv .refl hs
    · cases Option.some.inj (hs.symm.trans hd)
      exact .of_recorded hc le_rfl hm hv (Progress.step_marks hc hs) (Progress.reaches_marks hc hdb)
        (Progress.reaches_events hcb) (Progress.reaches_events hdb)

end Guarding

/-- No command ends the execution: the body is running, or has ended in a way the engine does not
report. -/
theorem Progress.produced_drop_of_open {s : Setting σ} {b : Progress σ}
    (h : b.terminalCommand s = none) : b.produced.drop b.events.length = [] := by
  have hle : b.produced.length ≤ b.events.length := by
    rw [Progress.produced, List.length_append, length_entriesFrom]
    cases hout : b.outcome with
    | none => exact le_rfl
    | some o =>
      rw [Progress.terminalCommand, hout] at h
      cases o with
      | otherException => exact le_rfl
      | _ => cases h
  exact List.drop_eq_nil_of_le hle

/-- A runner about to resume its body from `b₀`, which comes by `b`, where the record ends. -/
structure Poised (s : Setting σ) (h : History) (b : Progress σ) (sent : Nat) (r : Runner σ)
    (b₀ : Progress σ) : Prop where
  carries : Carries s (scanAll h) b.issued.length sent r b₀
  cached : Cached s h b₀ r
  regular : b₀.Regular s
  comesBy : Reaches (Progress.step s (scanAll h)) b₀ b
  scanned : b₀ = b ∨ r.scan = scanAll h
  guards : ∀ c c' a, Reaches (Progress.step s (scanAll h)) b₀ c → c.step s (scanAll h) = some c' →
    c'.events = c.events ++ [a] → Guards r.scan b.issued.length c a
  anchors : ∀ c c', Reaches (Progress.step s (scanAll h)) b₀ c → c.step s (scanAll h) = some c' →
    Anchored s r.scan b.issued.length c c'

section Tasks

variable {s : Setting σ} {past batch : History} {b : Progress σ}

/-- The events of a task put the cached runner where its body can go on. -/
theorem Cached.poised {r : Runner σ} (h : Cached s past b r) (ho : b.Regular s)
    (hc : s.world.converter.RoundTrips) (wf : WellFormed (past ++ batch))
    (hrec : History.commandEvents (past ++ batch) = b.events) (hopen : b.terminalCommand s = none) :
    Poised s (past ++ batch) b b.issued.length
      (({ r with commands := [], producedCommands := [] } : Runner σ).applyEvents batch) b := by
  obtain ⟨base, sent, hcar⟩ := h.carries
  set q : Runner σ := { r with commands := [], producedCommands := [] } with hq
  have hf : Follows q past b.keys := ⟨{ hcar.issued with }, h.live, h.lastEventId⟩
  have hf' := hf.applyEvents wf
  have hblank (a : Nat) (ha : b.keys.length ≤ a) : (q.applyEvents batch).futures a = {} :=
    (hf.applyEvents_futures wf ha).trans (hcar.blank a ha)
  have hmarkers : KnownMarkers (q.applyEvents batch).scan b.events := by
    rw [← hrec, History.commandEvents_append]
    exact (h.knownMarkers.of_markers (q.applyEvents_markers batch)).mono (List.prefix_append _ _)
  have hmarks : Marks s (q.applyEvents batch) b := by
    refine h.marks.of_same ?_ (q.applyEvents_markers batch)
      (fun j hj => ⟨hj, rfl⟩) rfl rfl rfl
    obtain ⟨scan, futures, ht⟩ := q.applyEvents_touches batch
    rw [ht]
    rfl
  have hknown : Known (q.applyEvents batch).scan b.events := by
    rw [← hrec, History.commandEvents_append]
    exact Known.applyEvents (r := q) h.known batch
  have hS : Known (scanAll (past ++ batch)) b.events := hrec ▸ (scanAll_recorded _).known
  have hcar' : Carries s (scanAll (past ++ batch)) b.issued.length b.issued.length
      (q.applyEvents batch) b := by
    obtain ⟨scan, futures, ht⟩ := q.applyEvents_touches batch
    have hi := hf'.issued
    have hl := hf'.live
    rw [ht] at hi hl hblank hknown ⊢
    exact { hcar with
      issued := hi
      blank := hblank
      signals := congrArg LiveState.signals hl
      cancelRequested := congrArg LiveState.cancelRequested hl
      pending := fun k hne hk => by
        have hnot : ¬ k.Opened b.events := mt (ho.keys k hne).mpr hk
        rw [hknown.future_eq hne hnot, hS.future_eq hne hnot]
      commands := (List.drop_length).symm
      sent_le := b.length_events.ge
      producedCommands := by
        rw [← b.length_events, Progress.produced_drop_of_open hopen] }
  exact
    { carries := hcar'
      cached := ⟨⟨_, _, hcar'⟩, hf'.live, hf'.lastEventId, hrec ▸ hknown, hmarks,
        hrec ▸ hmarkers, RequestsKnown.applyEvents (r := q) h.requests hf wf⟩
      regular := ho
      comesBy := .refl
      scanned := .inl rfl
      guards := fun _ _ _ hr hs ha => .of_reaches hknown ho.toOrdered hr hs ha
      anchors := fun _ _ hr hs => .of_reaches hc hmarkers ho.toVersioned hr hs }

/-- What a fresh runner is built with. -/
def Setting.ofHistory (info : WorkflowInfo) (world : World σ) (fn : WorkflowFn σ) (h : History) :
    Setting σ where
  info := { info with headers := (scanAll h).headers }
  world := world
  workflowFn := fn
  input := (scanAll h).input

/-- A runner about to replay. -/
theorem Carries.replay {info : WorkflowInfo} {world : World σ} {fn : WorkflowFn σ} {h : History}
    (isReplaying : Bool) (hu : UpdateFree h) (base : Nat) :
    Carries (.ofHistory info world fn h) (scanAll h) base 0
      { Runner.replay info isReplaying world fn h with
        commands := [], producedCommands := [], started := true }
      (Setting.ofHistory info world fn h).start := by
  have hscan := scanHistory_of_updateFree hu
  rw [Runner.replay, hscan]
  exact
    { info := rfl, world := rfl, workflowFn := rfl, input := rfl, store := rfl, trace := rfl
      signalCursor := rfl, queryHandlers := rfl, updateHandlers := rfl, updateValidators := rfl
      ordinals := rfl
      issued :=
        ⟨rfl, by simp [Setting.start], by simp [Registers, Runner.new, Setting.start],
          by simp [Registers, Runner.new, Setting.start],
          by simp [Registers, Runner.new, Setting.start],
          by simp [Registers, Runner.new, Setting.start], by simp [Runner.new],
          by simp [Setting.start]⟩
      blank := fun _ _ => rfl
      signals := rfl, cancelRequested := rfl, pending := fun _ _ _ => rfl
      commands := List.drop_nil.symm, sent_le := Nat.zero_le _, producedCommands := rfl
      started := rfl, deadlocked := rfl, done := rfl, terminalCommand := rfl }

/-- So does its memory of markers. -/
theorem Marks.replay {info : WorkflowInfo} {world : World σ} {fn : WorkflowFn σ} {h : History}
    (isReplaying : Bool) :
    Marks (.ofHistory info world fn h)
      { Runner.replay info isReplaying world fn h with
        commands := [], producedCommands := [], started := true }
      (Setting.ofHistory info world fn h).start where
  versions _ _ := rfl
  mseRecorded := rfl
  mseCallCount := rfl
  mseCurrent _ := rfl
  mseCursor _ := (Nat.zero_min _).symm

/-- A fresh runner is put at the start of its body, which comes by where it stood. -/
theorem Runner.replay_poised {info : WorkflowInfo} {world : World σ} {fn : WorkflowFn σ}
    {h : History} (isReplaying : Bool) (hs : s = .ofHistory info world fn h)
    (hc : s.world.converter.RoundTrips) (wf : WellFormed h) (hu : UpdateFree h)
    (hrec : History.commandEvents h = b.events)
    (hb : Reaches (Progress.step s (scanAll h)) s.start b) :
    Poised s h b 0
      { Runner.replay info isReplaying world fn h with
        commands := [], producedCommands := [], started := true } s.start := by
  have hscan : (Runner.replay info isReplaying world fn h).scan = scanAll h :=
    scanHistory_of_updateFree hu
  have hcar : Carries s (scanAll h) b.issued.length 0
      { Runner.replay info isReplaying world fn h with
        commands := [], producedCommands := [], started := true } s.start := by
    rw [hs]
    exact .replay isReplaying hu _
  have hmarks : Marks s
      { Runner.replay info isReplaying world fn h with
        commands := [], producedCommands := [], started := true } s.start := by
    rw [hs]
    exact .replay isReplaying
  have hrecorded := scanAll_recorded h
  have hmarkers := scanAll_markers h
  rw [← hscan] at hrecorded hmarkers
  exact
    { carries := hcar
      cached := ⟨⟨_, _, hcar⟩, congrArg Prescan.live hscan, congrArg Prescan.lastEventId hscan,
        hrecorded.known, hmarks, .of_eq hmarkers, hscan ▸ scanAll_requestsKnown wf⟩
      regular := Progress.start_regular s
      comesBy := hb
      scanned := .inr hscan
      guards := fun _ _ _ hr hcs ha =>
        .of_replay (hrec ▸ hrecorded) (Progress.start_ordered s) hb hr hcs ha
      anchors := fun _ _ hr hcs =>
        .of_replay hc (hrec ▸ hmarkers) (Progress.start_versioned s) hb hr hcs }

/-- A task that took the body from `b` to `b'`, and emitted the commands in between. A fresh runner
produces those before `b` once more. -/
structure Serves (s : Setting σ) (h : History) (b b' : Progress σ) (fresh : Bool) (r : Runner σ) :
    Prop where
  cached : Cached s h b' r
  commands : r.commands = b'.issued.drop b.issued.length
  produced : r.producedCommands = b'.produced.drop (if fresh then 0 else b.issued.length)

variable {h : History} {sent : Nat} {r : Runner σ} {b₀ : Progress σ}

/-- The requests the body makes on its way from `b₀` are decided as if those before `b` were on
record. -/
def RequestsGuarded (s : Setting σ) (h : History) (b : Progress σ) (sent : Nat) (r : Runner σ)
    (b₀ : Progress σ) : Prop :=
  ∀ q c, Reaches Runner.step r q → Reaches (Progress.step s (scanAll h)) b₀ c →
    Carries s (scanAll h) b.issued.length sent q c →
      RequestGuards (scanAll h) r.scan b.issued.length c (s.program c.trace)

/-- So they are if those beyond `b` are new. -/
theorem Poised.requestGuards (hp : Poised s h b sent r b₀) (wf : WellFormed h) (hu : UpdateFree h)
    (hfollow : h.RequestsFollow) (hrec : History.commandEvents h = b.events) {c : Progress σ}
    (hc : Reaches (Progress.step s (scanAll h)) b₀ c)
    (hnew : Reaches (Progress.step s (scanAll h)) b c →
      ∀ k, (s.program c.trace).requests? c.keys = some k → h.Requestable k) :
    RequestGuards (scanAll h) r.scan b.issued.length c (s.program c.trace) := by
  have hbeyond (hbc : Reaches (Progress.step s (scanAll h)) b c) :
      RequestGuards (scanAll h) r.scan b.issued.length c (s.program c.trace) := by
    have hle := (Progress.reaches_events hbc).length_le
    rw [b.length_events, c.length_events] at hle
    exact .of_requestable hp.cached.requests
      (congrArg LiveState.activityToSchedEvent hp.cached.live) (hnew hbc) hle
  rcases hp.scanned with rfl | hscan
  · exact hbeyond hc
  · rcases StateTransition.reaches_total hp.comesBy hc with hbc | hcb
    · exact hbeyond hbc
    · rcases hcb.cases_head with rfl | ⟨d, hd, hdb⟩
      · exact hbeyond .refl
      · rw [hscan, ← b.length_events, ← hrec]
        exact .of_recorded wf hu hfollow hd (hrec ▸ Progress.reaches_events hdb)

/-- A replay asks for what was asked for on record, and the body beyond for what it asks for. -/
theorem Poised.redoes (hp : Poised s h b sent r b₀)
    (hredo : ∀ c, Reaches (Progress.step s (scanAll h)) b c → c.Redoes s) {c : Progress σ}
    (hc : Reaches (Progress.step s (scanAll h)) b₀ c) : c.Redoes s := by
  rcases StateTransition.reaches_total hp.comesBy hc with hbc | hcb
  · exact hredo c hbc
  · rcases hcb.cases_head with rfl | ⟨d, hd, -⟩
    · exact hredo c .refl
    · exact Progress.redoes_of_step hd

/-- A runner either brings its body to where it waits next, or is out of time. -/
theorem Poised.resumeCoroutine (hp : Poised s h b sent r b₀) (hc : s.world.converter.RoundTrips)
    (hop : Carries.AsksAlike s (scanAll h) b.issued.length sent r b₀)
    (hreq : RequestsGuarded s h b sent r b₀) (fuel : Nat) :
    (∃ b', Parking.runFor (Progress.step s (scanAll h)) fuel b₀ = some b' ∧
      Cached s h b' (r.resumeCoroutine fuel) ∧
      (r.resumeCoroutine fuel).commands = b'.issued.drop b.issued.length ∧
      (r.resumeCoroutine fuel).producedCommands = b'.produced.drop sent) ∨
    Parking.runFor (Progress.step s (scanAll h)) fuel b₀ = none ∧
      (r.resumeCoroutine fuel).deadlocked = true := by
  have hrun := (Carries.lockstep sent hp.regular.toOrdered hc hop hreq hp.guards
    hp.anchors).runFor fuel
    ⟨⟨hp.carries, hp.cached.marks⟩, rfl, .refl, .refl⟩
  have hscan := r.resumeCoroutine_scan fuel
  unfold Runner.resumeCoroutine at hscan ⊢
  generalize Parking.runFor Runner.step fuel r = x at hrun hscan ⊢
  generalize Parking.runFor (Progress.step s (scanAll h)) fuel b₀ = y at hrun ⊢
  cases hrun with
  | none => exact .inr ⟨rfl, rfl⟩
  | some hR =>
    obtain ⟨⟨hcar, hmarks⟩, -⟩ := hR
    have hcached : Cached s h _ _ := ⟨⟨_, _, hcar⟩, hscan ▸ hp.cached.live,
      hscan ▸ hp.cached.lastEventId, hscan ▸ hp.cached.known, hmarks,
      hscan ▸ hp.cached.knownMarkers, hscan ▸ hp.cached.requests⟩
    exact .inl ⟨_, rfl, hcached, hcar.commands, hcar.producedCommands⟩

/-- The events that follow do not bring anything an observation on the way has missed. -/
def Runner.Undisturbed (r : Runner σ) (later : History) : Prop :=
  ∀ c d, Reaches Runner.step r c → c.step = some d →
    ∀ l ∈ (c.program c.trace).missed c.found, (c.applyEvents later).found l = false

/-- What a runner would find after more events. -/
theorem Carries.found_applyEvents {base : Nat} (hcar : Carries s (scanAll h) base sent r b)
    (hlive : r.scan.live = (scanAll h).live)
    (hlast : r.scan.lastEventId = (scanAll h).lastEventId) {later : History}
    (wf : WellFormed (h ++ later)) :
    (r.applyEvents later).found = b.found (scanAll (h ++ later)) := by
  have hf : Follows r h b.keys := ⟨hcar.issued, hlive, hlast⟩
  have hf' := hf.applyEvents wf
  have hfutures (a : Nat) :
      (r.applyEvents later).futures a = b.future (scanAll (h ++ later)) a := by
    unfold Progress.future
    cases hk : b.keys[a]? with
    | none =>
      have hle := List.getElem?_eq_none_iff.mp hk
      exact (hf.applyEvents_futures wf hle).trans (hcar.blank a hle)
    | some k => exact hf'.issued.heap a k hk
  have hsignals := congrArg LiveState.signals hf'.live
  have hcancel := congrArg LiveState.cancelRequested hf'.live
  obtain ⟨scan, futures, ht⟩ := r.applyEvents_touches later
  rw [ht] at hfutures hsignals hcancel ⊢
  funext l
  cases l with
  | future a => exact congrArg FutureState.ready (hfutures a)
  | signal name =>
    change scan.signals = (scanAll (h ++ later)).signals at hsignals
    simp only [Runner.found, Runner.hasSignal_eq_isSome, hsignals, hcar.signalCursor]
    rfl
  | cancelRequest => exact hcancel

/-- The body takes the same way with more events known. -/
theorem Poised.stable (hp : Poised s h b sent r b₀) (hc : s.world.converter.RoundTrips)
    (hop : Carries.AsksAlike s (scanAll h) b.issued.length sent r b₀)
    (hreq : RequestsGuarded s h b sent r b₀) {later : History} (wf : WellFormed (h ++ later))
    (hund : r.Undisturbed later) {c : Progress σ}
    (hr : Reaches (Progress.step s (scanAll h)) b₀ c) :
    Reaches (Progress.step s (scanAll (h ++ later))) b₀ c := by
  have hlock := Carries.lockstep sent hp.regular.toOrdered hc hop hreq hp.guards hp.anchors
  induction hr with
  | refl => exact .refl
  | @tail x y hx hy ih =>
    obtain ⟨q, hq, ⟨hcar, hmarks⟩, hscan, hqr, hxr⟩ :=
      hlock.exists_reaches ⟨⟨hp.carries, hp.cached.marks⟩, rfl, .refl, .refl⟩ hx
    have hfound := hcar.found_applyEvents (hscan ▸ hp.cached.live)
      (hscan ▸ hp.cached.lastEventId) wf
    have hrel := hlock.rel ⟨⟨hcar, hmarks⟩, hscan, hqr, hxr⟩
    rw [show x.step s (scanAll h) = some y from hy] at hrel
    generalize hqs : q.step = z at hrel
    cases hrel with
    | some _ =>
      refine ih.tail (Progress.step_stable wf.later (fun l hl => ?_) hy)
      rw [← hfound]
      refine hund q _ hq hqs l ?_
      rw [hcar.found, hcar.program, hcar.trace]
      exact hl

end Tasks

section Execution

variable (fuel : Nat) (info : WorkflowInfo) (world : World σ) (fn : WorkflowFn σ)

/-- One task: the cached runner takes the new events, a lost one is built again from all of
them. -/
def Runner.serve (cached : Option (Runner σ)) (past batch : History) : Runner σ :=
  match cached with
  | some r => r.applyAndResume fuel batch
  | none => (replay info (!past.isEmpty) world fn (past ++ batch)).run fuel

/-- The runners as they answer one task after the other. `evicted n` says that the runner was
lost before the `n`-th task; one that is built for it lives in `worlds n`. -/
def Runner.serveAllIn (worlds : Nat → World σ) (evicted : Nat → Bool) :
    Nat → History → Option (Runner σ) → List History → List (Runner σ)
  | _, _, _, [] => []
  | n, past, cached, batch :: batches =>
    let r := serve fuel info (worlds n) fn (if evicted n then none else cached) past batch
    r :: serveAllIn worlds evicted (n + 1) (past ++ batch) (some r) batches

/-- The runners when all of them live in one world. -/
abbrev Runner.serveAll (evicted : Nat → Bool) :
    Nat → History → Option (Runner σ) → List History → List (Runner σ) :=
  serveAllIn fuel info fn (fun _ => world) evicted

/-- All tasks of an execution, from its first. -/
def Runner.tasksIn (worlds : Nat → World σ) (evicted : Nat → Bool) (batches : List History) :
    List (Runner σ) :=
  serveAllIn fuel info fn worlds evicted 0 [] none batches

abbrev Runner.tasks (evicted : Nat → Bool) (batches : List History) : List (Runner σ) :=
  tasksIn fuel info fn (fun _ => world) evicted batches

/-- A runner as it goes into a task, its body not yet resumed. -/
def Runner.atTask (cached : Option (Runner σ)) (past batch : History) : Runner σ :=
  match cached with
  | some r => { r with commands := [], producedCommands := [] }.applyEvents batch
  | none =>
    { replay info (!past.isEmpty) world fn (past ++ batch) with
      commands := [], producedCommands := [], started := true }

/-- The server records the commands of a task before the next, which there is only while the
execution is open. -/
structure RecordedBy (runners : List (Runner σ)) (batches : List History) : Prop where
  first : ∀ h, batches[0]? = some h → History.commandEvents h = []
  next : ∀ i r h, runners[i]? = some r → batches[i + 1]? = some h →
    r.terminalCommand = none ∧ History.commandEvents h = r.commands.map Command.event

/-- No observation of any task is disturbed by the tasks that follow. -/
def Runner.UndisturbedAll (evicted : Nat → Bool) :
    Nat → History → Option (Runner σ) → List History → Prop
  | _, _, _, [] => True
  | n, past, cached, batch :: batches =>
    let kept := if evicted n then none else cached
    (∀ pre, pre <+: batches →
      (Runner.atTask info world fn kept past batch).Undisturbed pre.flatten) ∧
    UndisturbedAll evicted (n + 1) (past ++ batch)
      (some (Runner.serve fuel info world fn kept past batch)) batches

/-- `P` holds wherever the body is in the course of its tasks. -/
def Runner.ThroughoutIn (P : Runner σ → Prop) (worlds : Nat → World σ) (evicted : Nat → Bool) :
    Nat → History → Option (Runner σ) → List History → Prop
  | _, _, _, [] => True
  | n, past, cached, batch :: batches =>
    let kept := if evicted n then none else cached
    (∀ q, Reaches Runner.step (Runner.atTask info (worlds n) fn kept past batch) q → P q) ∧
    ThroughoutIn P worlds evicted (n + 1) (past ++ batch)
      (some (Runner.serve fuel info (worlds n) fn kept past batch)) batches

abbrev Runner.Throughout (P : Runner σ → Prop) (evicted : Nat → Bool) :
    Nat → History → Option (Runner σ) → List History → Prop :=
  ThroughoutIn fuel info fn P (fun _ => world) evicted

/-- Every request of the body is new to the record when it is first made; on replay it is made
again up to where the task before has brought the body. -/
def Runner.RequestsNew (evicted : Nat → Bool) :
    Nat → History → Option (Runner σ) → List History → Prop
  | _, _, _, [] => True
  | n, past, cached, batch :: batches =>
    let kept := if evicted n then none else cached
    (∀ q, Reaches Runner.step (Runner.atTask info world fn kept past batch) q →
      (∀ r ∈ cached, r.trace.length ≤ q.trace.length) →
        ∀ k ∈ q.requests?, History.Requestable (past ++ batch) k) ∧
    RequestsNew evicted (n + 1) (past ++ batch)
      (some (Runner.serve fuel info world fn kept past batch)) batches

/-- The body alone, task after task: where a replay of it comes by, and where it waits next. -/
inductive Course (s : Setting σ) : History → Progress σ → List History → List (Progress σ) → Prop
  | nil (past : History) (b : Progress σ) : Course s past b [] []
  | cons {past : History} {b : Progress σ} {h : History} {b' : Progress σ} {hs : List History}
      {bs : List (Progress σ)} (setting : s = .ofHistory info world fn (past ++ h))
      (wellFormed : WellFormed (past ++ h)) (updateFree : UpdateFree (past ++ h))
      (records : History.commandEvents (past ++ h) = b.events)
      (isOpen : b.terminalCommand s = none)
      (follows : History.RequestsFollow (past ++ h))
      (redoes : ∀ c, Reaches (Progress.step s (scanAll (past ++ h))) b c → c.Redoes s)
      (requests : ∀ c, Reaches (Progress.step s (scanAll (past ++ h))) b c →
        ∀ k, (s.program c.trace).requests? c.keys = some k → History.Requestable (past ++ h) k)
      (comesBy : Reaches (Progress.step s (scanAll (past ++ h))) s.start b)
      (waits : b' ∈ StateTransition.eval (Progress.step s (scanAll (past ++ h))) b)
      (rest : Course s (past ++ h) b' hs bs) : Course s past b (h :: hs) (b' :: bs)

/-- Every task is served as the body goes, the `n`-th by a fresh runner if `evicted n`. -/
inductive ServesAll (s : Setting σ) (evicted : Nat → Bool) :
    Nat → Bool → History → Progress σ → List History → List (Progress σ) → List (Runner σ) → Prop
  | nil (n : Nat) (first : Bool) (past : History) (b : Progress σ) :
      ServesAll s evicted n first past b [] [] []
  | cons {n : Nat} {first : Bool} {past : History} {b : Progress σ} {h : History}
      {b' : Progress σ} {r : Runner σ} {hs : List History} {bs : List (Progress σ)}
      {rs : List (Runner σ)} (serves : Serves s (past ++ h) b b' (evicted n || first) r)
      (rest : ServesAll s evicted (n + 1) false (past ++ h) b' hs bs rs) :
      ServesAll s evicted n first past b (h :: hs) (b' :: bs) (r :: rs)

end Execution

/-- What a body requests to cancel is what its runner is asked to. -/
theorem Carries.requests {s : Setting σ} {S : Prescan} {base sent : Nat} {r : Runner σ}
    {b : Progress σ} (h : Carries s S base sent r b) {k : Key}
    (hk : (s.program b.trace).requests? b.keys = some k) :
    r.requests? = some k ∨ k = .cancellation := by
  unfold Runner.requests?
  rw [h.program, h.trace]
  cases hop : s.program b.trace with
  | cancel addr =>
    rw [hop] at hk
    by_cases hne : k = .cancellation
    · exact .inr hne
    · left
      dsimp only
      rw [h.issued.heap addr k hk]
      exact Prescan.future_key hne
  | cancelExternalWorkflow id =>
    rw [hop] at hk
    exact .inl hk
  | _ =>
    rw [hop] at hk
    cases hk

section Transparency

variable {fuel : Nat} {info : WorkflowInfo} {world : World σ} {fn : WorkflowFn σ} {s : Setting σ}
  {past h : History} {b : Progress σ} {cached : Option (Runner σ)}

theorem Runner.atTask_poised (ho : b.Regular s) (hc : s.world.converter.RoundTrips)
    (setting : s = .ofHistory info world fn (past ++ h)) (wf : WellFormed (past ++ h))
    (hu : UpdateFree (past ++ h)) (hrec : History.commandEvents (past ++ h) = b.events)
    (hopen : b.terminalCommand s = none)
    (hby : cached = none → Reaches (Progress.step s (scanAll (past ++ h))) s.start b)
    (hcached : ∀ r ∈ cached, Cached s past b r) :
    ∃ sent b₀, Poised s (past ++ h) b sent (Runner.atTask info world fn cached past h) b₀ ∧
      (b₀ = b ∨ b₀ = s.start) ∧ sent = if cached.isNone then 0 else b.issued.length := by
  cases cached with
  | some r => exact ⟨_, b, (hcached r rfl).poised ho hc wf hrec hopen, .inl rfl, rfl⟩
  | none =>
    exact ⟨0, s.start, Runner.replay_poised (!past.isEmpty) setting hc wf hu hrec (hby rfl),
      .inr rfl, rfl⟩

/-- Without updates there is nothing to re-apply. -/
theorem Runner.run_of_updateFree (hu : UpdateFree h) (isReplaying : Bool) :
    (Runner.replay info isReplaying world fn h).run fuel =
      ({ Runner.replay info isReplaying world fn h with
        commands := [], producedCommands := [], started := true } : Runner σ).resumeCoroutine
          fuel := by
  have hscan : (Runner.replay info isReplaying world fn h).scan = scanAll h :=
    scanHistory_of_updateFree hu
  change (Runner.resumeCoroutine fuel { Runner.replay info isReplaying world fn h with
    commands := [], producedCommands := [], started := true }).reapplyHistoricalUpdates fuel = _
  rw [Runner.reapplyHistoricalUpdates, Runner.resumeCoroutine_scan, hscan,
    scanAll_postUpdateTimeline hu]
  rfl

/-- Without updates a task is one resume. -/
theorem Runner.serve_eq (hu : UpdateFree (past ++ h))
    (hstarted : (Runner.atTask info world fn cached past h).started = true) :
    Runner.serve fuel info world fn cached past h =
      (Runner.atTask info world fn cached past h).resumeCoroutine fuel := by
  cases cached with
  | some r => exact if_pos hstarted
  | none => exact Runner.run_of_updateFree hu _

/-- A fresh runner produces what history has on record. -/
theorem Runner.serve_checkDeterminism {b' : Progress σ} (hu : UpdateFree (past ++ h))
    (hrec : History.commandEvents (past ++ h) = b.events) (hpre : b.events <+: b'.events)
    (hprod : (Runner.serve fuel info world fn none past h).producedCommands = b'.produced) :
    (Runner.serve fuel info world fn none past h).checkDeterminism = none := by
  have hscan : (Runner.serve fuel info world fn none past h).scan = scanAll (past ++ h) := by
    rw [Runner.serve_eq hu rfl, Runner.resumeCoroutine_scan]
    exact scanHistory_of_updateFree hu
  apply matchReplayCommands_of_isPrefix
  rw [hscan, hprod, (scanAll_recorded (past ++ h)).commands, hrec]
  exact (entriesFrom_isPrefix hpre).trans (List.prefix_append _ _)

/-- A task takes the body to where it waits next, or runs out of time. -/
theorem Runner.serve_spec (hc : s.world.converter.RoundTrips) {sent : Nat} {b₀ : Progress σ}
    (hp : Poised s (past ++ h) b sent (Runner.atTask info world fn cached past h) b₀)
    (hop : Carries.AsksAlike s (scanAll (past ++ h)) b.issued.length sent
      (Runner.atTask info world fn cached past h) b₀)
    (hreq : RequestsGuarded s (past ++ h) b sent (Runner.atTask info world fn cached past h) b₀)
    (hu : UpdateFree (past ++ h)) (hrec : History.commandEvents (past ++ h) = b.events)
    (hsent : sent = if cached.isNone then 0 else b.issued.length) (fuel : Nat) :
    (∃ b', Parking.runFor (Progress.step s (scanAll (past ++ h))) fuel b₀ = some b' ∧
      Serves s (past ++ h) b b' cached.isNone (Runner.serve fuel info world fn cached past h) ∧
      (cached = none → (Runner.serve fuel info world fn cached past h).checkDeterminism = none)) ∨
    Parking.runFor (Progress.step s (scanAll (past ++ h))) fuel b₀ = none ∧
      (Runner.serve fuel info world fn cached past h).deadlocked = true := by
  have heq : Runner.serve fuel info world fn cached past h = _ :=
    Runner.serve_eq hu hp.carries.started
  rcases hp.resumeCoroutine hc hop hreq fuel with ⟨b', hb', hcached, hcommands, hprod⟩ | hdead
  · rw [← heq] at hcached hcommands hprod
    refine .inl ⟨b', hb', ⟨hcached, hcommands, hsent ▸ hprod⟩, ?_⟩
    rintro rfl
    have hmem := Parking.runFor_mem_eval hb'
    rw [StateTransition.reaches_eval hp.comesBy] at hmem
    have hpre := Progress.reaches_events (StateTransition.mem_eval.mp hmem).1
    rw [hsent, Option.isNone_none, if_pos rfl, List.drop_zero] at hprod
    exact Runner.serve_checkDeterminism hu hrec hpre hprod
  · rw [← heq] at hdead
    exact .inr hdead

/-- Whatever runner a task finds, it takes the body where the body goes. -/
theorem Course.serve {b' : Progress σ} (ho : b.Regular s) (hc : s.world.converter.RoundTrips)
    (setting : s = .ofHistory info world fn (past ++ h)) (wf : WellFormed (past ++ h))
    (hu : UpdateFree (past ++ h)) (hrec : History.commandEvents (past ++ h) = b.events)
    (hopen : b.terminalCommand s = none) (hfollow : History.RequestsFollow (past ++ h))
    (hredo : ∀ c, Reaches (Progress.step s (scanAll (past ++ h))) b c → c.Redoes s)
    (hnew : ∀ c, Reaches (Progress.step s (scanAll (past ++ h))) b c →
      ∀ k, (s.program c.trace).requests? c.keys = some k → History.Requestable (past ++ h) k)
    (hby : Reaches (Progress.step s (scanAll (past ++ h))) s.start b)
    (hwaits : b' ∈ StateTransition.eval (Progress.step s (scanAll (past ++ h))) b) :
    ∃ enough, ∀ fuel ≥ enough, ∀ cached : Option (Runner σ), (∀ r ∈ cached, Cached s past b r) →
      (∀ q, Reaches Runner.step (Runner.atTask info world fn cached past h) q → q.Dated) →
      Serves s (past ++ h) b b' cached.isNone (Runner.serve fuel info world fn cached past h) ∧
      (cached = none →
        (Runner.serve fuel info world fn cached past h).checkDeterminism = none) := by
  obtain ⟨n, hn⟩ := Parking.exists_runFor hwaits
  rw [← StateTransition.reaches_eval hby] at hwaits
  obtain ⟨m, hm⟩ := Parking.exists_runFor hwaits
  refine ⟨max n m, fun fuel hfuel cached hcached hdated => ?_⟩
  obtain ⟨sent, b₀, hp, hb₀, hsent⟩ := Runner.atTask_poised ho hc setting wf hu hrec hopen
    (fun _ => hby) hcached
  have hop : Carries.AsksAlike s (scanAll (past ++ h)) b.issued.length sent
      (Runner.atTask info world fn cached past h) b₀ :=
    fun q _ hq hc' _ _ => ⟨hp.redoes hredo hc', hdated q hq⟩
  have hrun : Parking.runFor (Progress.step s (scanAll (past ++ h))) fuel b₀ = some b' := by
    rcases hb₀ with rfl | rfl
    · exact Parking.runFor_mono hn (le_of_max_le_left hfuel)
    · exact Parking.runFor_mono hm (le_of_max_le_right hfuel)
  have hreq : RequestsGuarded s (past ++ h) b sent (Runner.atTask info world fn cached past h) b₀ :=
    fun _ c _ hc' _ => hp.requestGuards wf hu hfollow hrec hc' (hnew c)
  rcases Runner.serve_spec hc hp hop hreq hu hrec hsent fuel with ⟨c, hc', hserves⟩ | ⟨hnone, -⟩
  · cases Option.some.inj (hrun.symm.trans hc')
    exact hserves
  · rw [hrun] at hnone
    cases hnone

theorem Progress.Regular.eval {S : Prescan} {b b' : Progress σ} (ho : b.Regular s)
    (hc : s.world.converter.RoundTrips)
    (h : b' ∈ StateTransition.eval (Progress.step s S) b) : b'.Regular s :=
  ho.reaches hc (StateTransition.mem_eval.mp h).1

theorem isNone_kept (lost : Bool) (cached : Option (Runner σ)) :
    (if lost then none else cached).isNone = (lost || cached.isNone) := by
  cases lost <;> rfl

/-- A body's course is served alike whichever runners are lost on the way. -/
theorem Course.serveAll {past : History} {b : Progress σ} {hs : List History}
    {bs : List (Progress σ)} (h : Course info world fn s past b hs bs) (ho : b.Regular s)
    (hc : s.world.converter.RoundTrips) (evicted : Nat → Bool) :
    ∃ enough, ∀ fuel ≥ enough, ∀ (n : Nat) (cached : Option (Runner σ)),
      (∀ r ∈ cached, Cached s past b r) →
      Runner.Throughout fuel info world fn Runner.Dated evicted n past cached hs →
      ServesAll s evicted n cached.isNone past b hs bs
        (Runner.serveAll fuel info world fn evicted n past cached hs) ∧
      ∀ i r, (Runner.serveAll fuel info world fn evicted n past cached hs)[i]? = some r →
        (i = 0 ∧ cached = none ∨ evicted (n + i) = true) → r.checkDeterminism = none := by
  induction h with
  | nil past b =>
    refine ⟨0, fun _ _ n _ _ _ => ⟨.nil n _ past b, fun i r hr => ?_⟩⟩
    simp [Runner.serveAllIn] at hr
  | @cons past b h b' hs bs setting wf hu hrec hopen hfollow hredo hnew hby hwaits _ ih =>
    obtain ⟨m, hm⟩ := Course.serve ho hc setting wf hu hrec hopen hfollow hredo hnew hby hwaits
    obtain ⟨k, hk⟩ := ih (ho.eval hc hwaits)
    refine ⟨max m k, fun fuel hfuel n cached hcached hop => ?_⟩
    have hkept : ∀ r ∈ (if evicted n then none else cached), Cached s past b r := by
      intro r hr
      split at hr
      · cases hr
      · exact hcached r hr
    obtain ⟨hserves, hdet⟩ := hm fuel (le_of_max_le_left hfuel) _ hkept hop.1
    obtain ⟨hrest, hdets⟩ := hk fuel (le_of_max_le_right hfuel) (n + 1) (some _)
      (fun r hr => Option.some.inj hr ▸ hserves.cached) hop.2
    refine ⟨.cons (isNone_kept (evicted n) cached ▸ hserves) hrest, fun i r hr hi => ?_⟩
    cases i with
    | zero =>
      cases Option.some.inj hr
      apply hdet
      rcases hi with ⟨-, rfl⟩ | hi
      · split <;> rfl
      · exact if_pos hi
    | succ i =>
      refine hdets i r hr ?_
      rcases hi with ⟨hi, -⟩ | hi
      · cases hi
      · rw [Nat.add_right_comm]
        exact .inr hi

/-- Two runners that answer a task alike. -/
structure SameAnswer (r q : Runner σ) : Prop where
  commands : r.commands = q.commands
  terminalCommand : r.terminalCommand = q.terminalCommand
  trace : r.trace = q.trace
  store : r.store = q.store
  isDone : r.isDone = q.isDone

theorem Serves.sameAnswer {h : History} {b b' : Progress σ} {fresh fresh' : Bool} {r q : Runner σ}
    (hr : Serves s h b b' fresh r) (hq : Serves s h b b' fresh' q) : SameAnswer r q := by
  obtain ⟨_, _, cr⟩ := hr.cached.carries
  obtain ⟨_, _, cq⟩ := hq.cached.carries
  constructor
  · rw [hr.commands, hq.commands]
  · rw [cr.terminalCommand, cq.terminalCommand]
  · rw [cr.trace, cq.trace]
  · rw [cr.store, cq.store]
  · rw [Runner.isDone, Runner.isDone, cr.started, cr.done, cq.started, cq.done]

theorem ServesAll.sameAnswers {past : History} {b : Progress σ} {hs : List History}
    {bs : List (Progress σ)} {rs qs : List (Runner σ)} {evicted evicted' : Nat → Bool} {n m : Nat}
    {first first' : Bool} (hr : ServesAll s evicted n first past b hs bs rs)
    (hq : ServesAll s evicted' m first' past b hs bs qs) : List.Forall₂ SameAnswer rs qs := by
  induction hr generalizing m first' qs with
  | nil n first past b =>
    cases hq
    exact .nil
  | cons hserves _ ih =>
    cases hq with
    | cons hserves' hrest => exact .cons (hserves.sameAnswer hserves') (ih hrest)

theorem Served.left {p q : History} (h : Served (p ++ q)) : Served p where
  positive e he := h.positive e (List.mem_append_left q he)
  increasing := (List.pairwise_append.mp h.increasing).1
  closed := (List.filterMap_append ▸ h.closed).of_append_left
  closesOpen i hi k hk := by
    have hlt : i < (p ++ q).length := by
      rw [List.length_append]
      omega
    have hmem := h.closesOpen i hlt k (by rwa [List.getElem_append_left hi])
    rwa [List.take_append_of_le_length (by omega)] at hmem

/-- The next record is where the body stands after the task. -/
theorem Serves.records {past h h' : History} {b b' : Progress σ} {fresh : Bool} {r : Runner σ}
    (hs : Serves s (past ++ h) b b' fresh r) (hrec : History.commandEvents (past ++ h) = b.events)
    (hpre : b.events <+: b'.events)
    (hnext : History.commandEvents h' = r.commands.map Command.event) :
    History.commandEvents (past ++ h ++ h') = b'.events := by
  rw [History.commandEvents_append, hrec, hnext, hs.commands, List.map_drop, ← b.length_events]
  exact List.prefix_iff_eq_append.mp hpre

/-- Tasks as they were answered are the body's course, if they are not disturbed; and where they
leave the body, it also comes by when it knows the events that follow. -/
theorem Course.of_serveAll {evicted : Nat → Bool} {n : Nat} {hs : List History}
    (rest : List History) (ho : b.Regular s) (hc : s.world.converter.RoundTrips)
    (hop : Runner.Throughout fuel info world fn Runner.Redoes evicted n past cached hs)
    (hnew : Runner.RequestsNew fuel info world fn evicted n past cached hs)
    (hund : Runner.UndisturbedAll fuel info world fn evicted n past cached (hs ++ rest))
    (hset : ∀ pre, pre <+: hs ++ rest → pre ≠ [] →
      s = .ofHistory info world fn (past ++ pre.flatten))
    (hserved : Served (past ++ (hs ++ rest).flatten))
    (hu : UpdateFree (past ++ (hs ++ rest).flatten))
    (hby : ∀ pre, pre <+: hs ++ rest → WellFormed (past ++ pre.flatten) →
      Reaches (Progress.step s (scanAll (past ++ pre.flatten))) s.start b)
    (hcached : ∀ r ∈ cached, Cached s past b r) (hfollow : past.RequestsFollow)
    (hnames : ∀ sid, .activityTaskCancelRequested sid ∈ b.events → ∃ e ∈ past, e.eventId = sid)
    (hhead : ∀ h, hs[0]? = some h →
      b.terminalCommand s = none ∧ History.commandEvents (past ++ h) = b.events)
    (hnext : ∀ i r h, (Runner.serveAll fuel info world fn evicted n past cached hs)[i]? = some r →
      hs[i + 1]? = some h →
        r.terminalCommand = none ∧ History.commandEvents h = r.commands.map Command.event)
    (hlive : ∀ r ∈ Runner.serveAll fuel info world fn evicted n past cached hs,
      r.deadlocked = false) :
    ∃ bs, Course info world fn s past b hs bs ∧
      ServesAll s evicted n cached.isNone past b hs bs
        (Runner.serveAll fuel info world fn evicted n past cached hs) ∧
      (∀ pre, pre <+: rest → WellFormed (past ++ (hs ++ pre).flatten) →
        Reaches (Progress.step s (scanAll (past ++ (hs ++ pre).flatten))) s.start
          (bs.getLastD b)) ∧
      History.RequestsFollow (past ++ hs.flatten) ∧
      ∀ sid, .activityTaskCancelRequested sid ∈ (bs.getLastD b).events →
        ∃ e ∈ past ++ hs.flatten, e.eventId = sid := by
  induction hs generalizing n past b cached with
  | nil =>
    refine ⟨[], .nil past b, .nil n _ past b, hby, ?_⟩
    rw [List.flatten_nil, List.append_nil]
    exact ⟨hfollow, hnames⟩
  | cons h hs ih =>
    rw [List.cons_append, List.flatten_cons, ← List.append_assoc] at hserved hu
    obtain ⟨hopen, hrec⟩ := hhead h rfl
    have hcons (pre : List History) : past ++ (h :: pre).flatten = past ++ h ++ pre.flatten := by
      rw [List.flatten_cons, List.append_assoc]
    have hset' (pre : List History) (hpre : pre <+: hs ++ rest) :
        s = .ofHistory info world fn (past ++ h ++ pre.flatten) :=
      hcons pre ▸ hset (h :: pre) (List.cons_prefix_cons.mpr ⟨rfl, hpre⟩) (List.cons_ne_nil _ _)
    have hby' (pre : List History) (hpre : pre <+: hs ++ rest)
        (wf : WellFormed (past ++ h ++ pre.flatten)) :
        Reaches (Progress.step s (scanAll (past ++ h ++ pre.flatten))) s.start b := by
      rw [← hcons] at wf ⊢
      exact hby (h :: pre) (List.cons_prefix_cons.mpr ⟨rfl, hpre⟩) wf
    have hsetting : s = .ofHistory info world fn (past ++ h) := by
      simpa using hset' [] List.nil_prefix
    have wf : WellFormed (past ++ h) := hserved.left.wellFormed (hrec ▸ ho.sequenced)
    have hreach : Reaches (Progress.step s (scanAll (past ++ h))) s.start b := by
      simpa using hby' [] List.nil_prefix (by simpa using wf)
    have hkept : ∀ r ∈ (if evicted n then none else cached), Cached s past b r := by
      intro r hr
      split at hr
      · cases hr
      · exact hcached r hr
    obtain ⟨sent, b₀, hp, hb₀, hsent⟩ := Runner.atTask_poised ho hc hsetting wf hu.left hrec hopen
      (fun _ => hreach) hkept
    have hfollow' : History.RequestsFollow (past ++ h) := by
      intro e he sid ha
      rcases List.mem_append.mp he with he' | he'
      · exact hfollow e he' sid ha
      · have hmem : .activityTaskCancelRequested sid ∈ b.events := by
          rw [← hrec, ← ha]
          exact List.mem_filter.mpr ⟨List.mem_map_of_mem he, by rw [ha]; rfl⟩
        obtain ⟨e', hpast, rfl⟩ := hnames sid hmem
        exact (List.pairwise_append.mp wf.increasing).2.2 e' hpast e he'
    have hfirst {q : Runner σ} {c : Progress σ}
        (hq : Reaches Runner.step (Runner.atTask info world fn
          (if evicted n then none else cached) past h) q)
        (hcar : Carries s (scanAll (past ++ h)) b.issued.length sent q c)
        (hbc : Reaches (Progress.step s (scanAll (past ++ h))) b c) (k : Key)
        (hk : (s.program c.trace).requests? c.keys = some k) :
        History.Requestable (past ++ h) k := by
      rcases hcar.requests hk with hk | rfl
      · refine hnew.1 q hq (fun r hr => ?_) k hk
        obtain ⟨_, _, hr⟩ := (hcached r hr).carries
        rw [hr.trace, hcar.trace]
        exact (Progress.reaches_trace hbc).length_le
      · trivial
    have hreq : RequestsGuarded s (past ++ h) b sent (Runner.atTask info world fn
        (if evicted n then none else cached) past h) b₀ := fun q c hq hc' hcar =>
      hp.requestGuards wf hu.left hfollow' hrec hc' (hfirst hq hcar)
    have hasks : Carries.AsksAlike s (scanAll (past ++ h)) b.issued.length sent
        (Runner.atTask info world fn (if evicted n then none else cached) past h) b₀ :=
      .of_redoes hop.1
    have hlock := Carries.lockstep sent hp.regular.toOrdered hc hasks hreq hp.guards hp.anchors
    have hmatched {c : Progress σ} (hbc : Reaches (Progress.step s (scanAll (past ++ h))) b c) :=
      hlock.exists_reaches ⟨⟨hp.carries, hp.cached.marks⟩, rfl, .refl, .refl⟩
        (hp.comesBy.trans hbc)
    have hredo (c : Progress σ) (hbc : Reaches (Progress.step s (scanAll (past ++ h))) b c) :
        c.Redoes s := by
      obtain ⟨q, hq, ⟨hcar, hmarks⟩, -⟩ := hmatched hbc
      exact hcar.redoes hmarks (hop.1 q hq)
    have hrequests (c : Progress σ) (hbc : Reaches (Progress.step s (scanAll (past ++ h))) b c)
        (k : Key) (hk : (s.program c.trace).requests? c.keys = some k) :
        History.Requestable (past ++ h) k := by
      obtain ⟨q, hq, ⟨hcar, -⟩, -⟩ := hmatched hbc
      exact hfirst hq hcar hbc k hk
    rcases Runner.serve_spec hc hp hasks hreq hu.left hrec hsent fuel with
      ⟨b', hb', hserves, -⟩ | ⟨-, hdead⟩
    · have hwaits₀ := StateTransition.mem_eval.mp (Parking.runFor_mem_eval hb')
      have hwaits := Parking.runFor_mem_eval hb'
      rw [StateTransition.reaches_eval hp.comesBy] at hwaits
      have hpre := Progress.reaches_events (StateTransition.mem_eval.mp hwaits).1
      obtain ⟨bs, hcourse, hall, hlast, hnamed⟩ := ih (ho.eval hc hwaits) hop.2 hnew.2 hund.2
        (fun pre hpre _ => hset' pre hpre) hserved hu
        (fun pre hpre wf' => by
          -- the way to `b'`, stretch by stretch, with the events of `pre` known
          have hb := hby' pre hpre wf'
          have hstable := hp.stable hc hasks hreq wf' (hund.1 pre hpre) hwaits₀.1
          rcases hb₀ with rfl | rfl
          · exact hb.trans hstable
          · exact hstable)
        (fun r hr => Option.some.inj hr ▸ hserves.cached) hfollow'
        (fun sid hsid => by
          rcases Progress.reaches_names (StateTransition.mem_eval.mp hwaits).1 hsid with
            hsid | ⟨id, hsid⟩
          · obtain ⟨e, he, hid⟩ := hnames sid hsid
            exact ⟨e, List.mem_append_left h he, hid⟩
          · obtain ⟨type, hmem⟩ := scheduled_of_scanAll hsid
            exact ⟨_, hmem, rfl⟩)
        (fun h' hh' => by
          obtain ⟨hterm, hcmds⟩ := hnext 0 _ h' rfl hh'
          obtain ⟨_, _, hcar⟩ := hserves.cached.carries
          exact ⟨hcar.terminalCommand ▸ hterm, hserves.records hrec hpre hcmds⟩)
        (fun i r h' hr hh' => hnext (i + 1) r h' hr hh')
        (fun r hr => hlive r (List.mem_cons_of_mem _ hr))
      refine ⟨b' :: bs,
        .cons hsetting wf hu.left hrec hopen hfollow' hredo hrequests hreach hwaits hcourse,
        .cons (isNone_kept (evicted n) cached ▸ hserves) hall, fun pre hpre wf' => ?_, ?_⟩
      · rw [List.cons_append, hcons] at wf' ⊢
        rw [List.getLastD_cons]
        exact hlast pre hpre wf'
      · rw [hcons, List.getLastD_cons]
        exact hnamed
    · exact absurd ((hlive _ List.mem_cons_self).symm.trans hdead) Bool.false_ne_true

end Transparency

/-- The first task holds all that runners are built with. -/
theorem Setting.ofHistory_headD {info : WorkflowInfo} {world : World σ} {fn : WorkflowFn σ}
    {batches : List History}
    (hstart : ∀ h ∈ batches.tail, ∀ e ∈ h, e.attributes.isStarted = false) {pre : List History}
    (hpre : pre <+: batches) (hne : pre ≠ []) :
    Setting.ofHistory info world fn (batches.headD []) =
      .ofHistory info world fn ([] ++ pre.flatten) := by
  obtain ⟨t, rfl⟩ := hpre
  cases pre with
  | nil => exact absurd rfl hne
  | cons h pre =>
    have hin := scanAll_input (p := h) (q := pre.flatten) fun e he => by
      obtain ⟨l, hl, hel⟩ := List.mem_flatten.mp he
      exact hstart l (List.mem_append_left t hl) e hel
    rw [List.nil_append, List.flatten_cons]
    simp only [List.cons_append, List.headD_cons, Setting.ofHistory, hin]

/-- Undisturbed tasks are served along one course of the body whichever runners are lost. -/
theorem Runner.tasks_course (info : WorkflowInfo) (world : World σ) (fn : WorkflowFn σ)
    (hc : world.converter.RoundTrips) {batches : List History} (hserved : Served batches.flatten)
    (hu : UpdateFree batches.flatten)
    (hstart : ∀ h ∈ batches.tail, ∀ e ∈ h, e.attributes.isStarted = false) {fuel : Nat}
    {evicted : Nat → Bool}
    (hop : Runner.Throughout fuel info world fn Runner.Redoes evicted 0 [] none batches)
    (hnew : Runner.RequestsNew fuel info world fn evicted 0 [] none batches)
    (hund : Runner.UndisturbedAll fuel info world fn evicted 0 [] none batches)
    (hrec : RecordedBy (Runner.tasks fuel info world fn evicted batches) batches)
    (hlive : ∀ r ∈ Runner.tasks fuel info world fn evicted batches, r.deadlocked = false)
    (evicted' : Nat → Bool) {s : Setting σ}
    (hs : s = .ofHistory info world fn (batches.headD [])) :
    ∃ bs, Course info world fn s [] s.start batches bs ∧
      ServesAll s evicted 0 true [] s.start batches bs
        (Runner.tasks fuel info world fn evicted batches) ∧
      ∃ enough, ∀ fuel' ≥ enough,
        Runner.Throughout fuel' info world fn Runner.Dated evicted' 0 [] none batches →
        ServesAll s evicted' 0 true [] s.start batches bs
          (Runner.tasks fuel' info world fn evicted' batches) ∧
        ∀ i r, (Runner.tasks fuel' info world fn evicted' batches)[i]? = some r →
          (i = 0 ∨ evicted' i = true) → r.checkDeterminism = none := by
  have hset : ∀ pre, pre <+: batches → pre ≠ [] →
      s = .ofHistory info world fn ([] ++ pre.flatten) :=
    fun pre hpre hne => hs.trans (Setting.ofHistory_headD hstart hpre hne)
  have hnone : ∀ r ∈ (none : Option (Runner σ)), Cached s [] s.start r :=
    fun r hr => absurd hr (Option.not_mem_none r)
  have hconv : s.world.converter.RoundTrips := by
    rw [hs]
    exact hc
  rw [← List.append_nil batches] at hund hset hserved hu
  obtain ⟨bs, hcourse, hall, -⟩ := Course.of_serveAll [] (Progress.start_regular s) hconv hop hnew
    hund hset hserved hu (fun _ _ _ => .refl) hnone nofun nofun
    (fun h hh => ⟨rfl, hrec.first h hh⟩) hrec.next hlive
  obtain ⟨enough, henough⟩ := hcourse.serveAll (Progress.start_regular s) hconv evicted'
  refine ⟨bs, hcourse, hall, enough, fun fuel' hfuel hop' => ?_⟩
  obtain ⟨hall', hdet⟩ := henough fuel' hfuel 0 none hnone hop'
  refine ⟨hall', fun i r hr hi => hdet i r hr ?_⟩
  rw [Nat.zero_add]
  exact hi.imp_left fun h => ⟨h, rfl⟩

/-- Undisturbed tasks are answered alike whichever runners are lost. -/
theorem Runner.tasks_agree (info : WorkflowInfo) (world : World σ) (fn : WorkflowFn σ)
    (hc : world.converter.RoundTrips) {batches : List History} (hserved : Served batches.flatten)
    (hu : UpdateFree batches.flatten)
    (hstart : ∀ h ∈ batches.tail, ∀ e ∈ h, e.attributes.isStarted = false) {fuel : Nat}
    {evicted : Nat → Bool}
    (hop : Runner.Throughout fuel info world fn Runner.Redoes evicted 0 [] none batches)
    (hnew : Runner.RequestsNew fuel info world fn evicted 0 [] none batches)
    (hund : Runner.UndisturbedAll fuel info world fn evicted 0 [] none batches)
    (hrec : RecordedBy (Runner.tasks fuel info world fn evicted batches) batches)
    (hlive : ∀ r ∈ Runner.tasks fuel info world fn evicted batches, r.deadlocked = false)
    (evicted' : Nat → Bool) :
    ∃ enough, ∀ fuel' ≥ enough,
      Runner.Throughout fuel' info world fn Runner.Dated evicted' 0 [] none batches →
      List.Forall₂ SameAnswer (Runner.tasks fuel info world fn evicted batches)
        (Runner.tasks fuel' info world fn evicted' batches) ∧
      ∀ i r, (Runner.tasks fuel' info world fn evicted' batches)[i]? = some r →
        (i = 0 ∨ evicted' i = true) → r.checkDeterminism = none := by
  obtain ⟨bs, -, hall, enough, henough⟩ := Runner.tasks_course info world fn hc hserved hu hstart
    hop hnew hund hrec hlive evicted' rfl
  refine ⟨enough, fun fuel' hfuel hop' => ?_⟩
  obtain ⟨hall', hdet⟩ := henough fuel' hfuel hop'
  exact ⟨hall.sameAnswers hall', hdet⟩

section Bodies

variable {fuel : Nat} {info : WorkflowInfo} {world : World σ} {fn : WorkflowFn σ}

theorem Runner.ThroughoutIn.imp {P Q : Runner σ → Prop} (hPQ : ∀ r, P r → Q r)
    {worlds : Nat → World σ} {evicted : Nat → Bool} {n : Nat} {past : History}
    {cached : Option (Runner σ)} {hs : List History}
    (h : Runner.ThroughoutIn fuel info fn P worlds evicted n past cached hs) :
    Runner.ThroughoutIn fuel info fn Q worlds evicted n past cached hs := by
  induction hs generalizing n past cached with
  | nil => trivial
  | cons batch hs ih => exact ⟨fun q hq => hPQ q (h.1 q hq), ih h.2⟩

/-- A body that repeats requests nothing. -/
theorem Runner.RequestsNew.of_repeats {evicted : Nat → Bool} {n : Nat} {past : History}
    {cached : Option (Runner σ)} {hs : List History}
    (h : Runner.Throughout fuel info world fn Runner.Repeats evicted n past cached hs) :
    Runner.RequestsNew fuel info world fn evicted n past cached hs := by
  induction hs generalizing n past cached with
  | nil => trivial
  | cons batch hs ih =>
    refine ⟨fun q hq _ k hk => ?_, ih h.2⟩
    rw [Runner.requests?_of_not_request (h.1 q hq).not_request] at hk
    cases hk

/-- A task that was served in time is not served otherwise with more of it. -/
theorem Runner.serve_mono {cached : Option (Runner σ)} {past batch : History} {fuel' : Nat}
    (hle : fuel ≤ fuel') (hu : UpdateFree (past ++ batch))
    (h : (Runner.serve fuel info world fn cached past batch).deadlocked = false) :
    Runner.serve fuel' info world fn cached past batch =
      Runner.serve fuel info world fn cached past batch := by
  by_cases hst : (Runner.atTask info world fn cached past batch).started = true
  · rw [Runner.serve_eq hu hst] at h ⊢
    rw [Runner.serve_eq hu hst, Runner.resumeCoroutine_mono h hle]
  · cases cached with
    | none => exact absurd rfl hst
    | some r =>
      have hkept (n : Nat) : Runner.serve n info world fn (some r) past batch =
          Runner.atTask info world fn (some r) past batch := if_neg hst
      rw [hkept, hkept]

theorem Runner.Throughout.mono {P : Runner σ → Prop} {fuel' : Nat} (hle : fuel ≤ fuel')
    {evicted : Nat → Bool} {n : Nat} {past : History} {cached : Option (Runner σ)}
    {hs : List History} (hu : UpdateFree (past ++ hs.flatten))
    (hlive : ∀ r ∈ Runner.serveAll fuel info world fn evicted n past cached hs,
      r.deadlocked = false)
    (h : Runner.Throughout fuel info world fn P evicted n past cached hs) :
    Runner.Throughout fuel' info world fn P evicted n past cached hs := by
  induction hs generalizing n past cached with
  | nil => trivial
  | cons batch hs ih =>
    rw [List.flatten_cons, ← List.append_assoc] at hu
    obtain ⟨hnow, hrest⟩ := List.forall_mem_cons.mp hlive
    refine ⟨h.1, ?_⟩
    rw [Runner.serve_mono hle hu.left hnow]
    exact ih hu hrest h.2

/-- The runner runs this code in this world. -/
def Runner.Runs (world : World σ) (fn : WorkflowFn σ) (r : Runner σ) : Prop :=
  r.world = world ∧ r.workflowFn = fn

theorem Runner.Runs.program {r : Runner σ} (h : r.Runs world fn) :
    r.program = (Runner.chain world fn).body r.input := by
  rw [Runner.program, h.1, h.2]

theorem Runner.Runs.step {r r' : Runner σ} (h : r.Runs world fn) (hs : r.step = some r') :
    r'.Runs world fn := by
  unfold Runner.step at hs
  split at hs
  · cases hs
  · split at hs
    · next o _ =>
      cases hs
      cases o <;> exact h
    · obtain ⟨⟨q, resp⟩, hx, rfl⟩ := Option.map_eq_some_iff.mp hs
      have hframe := r.exec_frame hx
      exact ⟨hframe.world.trans h.1, hframe.workflowFn.trans h.2⟩

theorem Runner.Runs.reaches {r r' : Runner σ} (h : r.Runs world fn)
    (hr : Reaches Runner.step r r') : r'.Runs world fn := by
  induction hr with
  | refl => exact h
  | tail _ hs ih => exact ih.step hs

theorem Runner.Runs.resumeCoroutine {r : Runner σ} (h : r.Runs world fn) :
    (r.resumeCoroutine fuel).Runs world fn := by
  unfold Runner.resumeCoroutine
  split
  · next r' hr => exact h.reaches (StateTransition.mem_eval.mp (Parking.runFor_mem_eval hr)).1
  · exact h

theorem Runner.Runs.atTask {cached : Option (Runner σ)} (h : ∀ r ∈ cached, r.Runs world fn)
    (past batch : History) : (Runner.atTask info world fn cached past batch).Runs world fn := by
  cases cached with
  | none => exact ⟨rfl, rfl⟩
  | some r =>
    obtain ⟨scan, futures, ht⟩ :=
      ({ r with commands := [], producedCommands := [] } : Runner σ).applyEvents_touches batch
    rw [Runner.atTask, ht]
    exact h r rfl

theorem Runner.Runs.serve {cached : Option (Runner σ)} (h : ∀ r ∈ cached, r.Runs world fn)
    {past batch : History} (hu : UpdateFree (past ++ batch)) :
    (Runner.serve fuel info world fn cached past batch).Runs world fn := by
  have hat : (Runner.atTask info world fn cached past batch).Runs world fn :=
    Runner.Runs.atTask h past batch
  by_cases hst : (Runner.atTask info world fn cached past batch).started = true
  · rw [Runner.serve_eq hu hst]
    exact hat.resumeCoroutine
  · cases cached with
    | none => exact absurd rfl hst
    | some r =>
      have hkept : Runner.serve fuel info world fn (some r) past batch =
          Runner.atTask info world fn (some r) past batch := if_neg hst
      rw [hkept]
      exact hat

/-- What the code is at every point, it is throughout the tasks. -/
theorem Runner.Throughout.of_body {P : Runner σ → Prop} (hP : ∀ q : Runner σ, q.Runs world fn → P q)
    {evicted : Nat → Bool} {n : Nat} {past : History} {cached : Option (Runner σ)}
    {hs : List History} (hu : UpdateFree (past ++ hs.flatten))
    (hcached : ∀ r ∈ cached, r.Runs world fn) :
    Runner.Throughout fuel info world fn P evicted n past cached hs := by
  induction hs generalizing n past cached with
  | nil => trivial
  | cons batch hs ih =>
    rw [List.flatten_cons, ← List.append_assoc] at hu
    have hkept : ∀ r ∈ (if evicted n then none else cached), r.Runs world fn := by
      intro r hr
      split at hr
      · cases hr
      · exact hcached r hr
    refine ⟨fun q hq => hP q ((Runner.Runs.atTask hkept past batch).reaches hq), ih hu ?_⟩
    rintro r ⟨⟩
    exact Runner.Runs.serve hkept hu.left

/-- Operations that can be replayed from history alone repeat. -/
theorem Runner.Throughout.of_replayable
    (hop : ∀ input answers, ((Runner.chain world fn).body input answers).Replayable world)
    {evicted : Nat → Bool} {hs : List History} (hu : UpdateFree hs.flatten) :
    Runner.Throughout fuel info world fn Runner.Repeats evicted 0 [] none hs := by
  refine .of_body (fun q hq => ?_) hu (fun r hr => absurd hr (Option.not_mem_none r))
  have hask := hop q.input q.trace
  rw [← hq.program] at hask
  refine ⟨hq.1 ▸ hask.repeats _ _ _, fun x hx => ?_⟩
  cases ho : q.program q.trace with
  | getVersion changeId lo hi =>
    rw [ho] at hask
    exact hask.elim
  | _ =>
    rw [ho] at hx
    cases hx

/-- A body that does not look cannot be disturbed. -/
theorem Runner.UndisturbedAll.of_waiting {evicted : Nat → Bool} {n : Nat} {past : History}
    {cached : Option (Runner σ)} {hs : List History}
    (h : Runner.Throughout fuel info world fn
      (fun q => (q.program q.trace).isObservation = false) evicted n past cached hs) :
    Runner.UndisturbedAll fuel info world fn evicted n past cached hs := by
  induction hs generalizing n past cached with
  | nil => trivial
  | cons batch hs ih =>
    refine ⟨fun pre _ c d hc _ l hl => ?_, ih h.2⟩
    rw [Op.missed_of_not_observation (h.1 c hc)] at hl
    cases hl

/-- `P`, checked along a run of at most `n` steps. -/
def Runner.holdsFor (P : Runner σ → Prop) [DecidablePred P] : Nat → Runner σ → Bool
  | 0, r => decide (P r) && r.step.isNone
  | n + 1, r =>
    decide (P r) && match r.step with
      | none => true
      | some r' => holdsFor P n r'

theorem Runner.holds_of_holdsFor {P : Runner σ → Prop} [DecidablePred P] {n : Nat} {r : Runner σ}
    (h : Runner.holdsFor P n r = true) {q : Runner σ} (hq : Reaches Runner.step r q) : P q := by
  induction n generalizing r with
  | zero =>
    rw [holdsFor, Bool.and_eq_true, decide_eq_true_iff, Option.isNone_iff_eq_none] at h
    rcases hq.cases_head with rfl | ⟨r', hr', -⟩
    · exact h.1
    · cases h.2.symm.trans hr'
  | succ n ih =>
    rw [holdsFor, Bool.and_eq_true, decide_eq_true_iff] at h
    rcases hq.cases_head with rfl | ⟨r', hr', hq'⟩
    · exact h.1
    · rw [show r.step = some r' from hr'] at h
      exact ih h.2 hq'

/-- `P`, checked along all tasks. -/
def Runner.holdsThroughout (fuel : Nat) (info : WorkflowInfo) (world : World σ)
    (fn : WorkflowFn σ) (P : Runner σ → Prop) [DecidablePred P] (evicted : Nat → Bool) :
    Nat → History → Option (Runner σ) → List History → Bool
  | _, _, _, [] => true
  | n, past, cached, batch :: batches =>
    let kept := if evicted n then none else cached
    (Runner.atTask info world fn kept past batch).holdsFor P fuel &&
      holdsThroughout fuel info world fn P evicted (n + 1) (past ++ batch)
        (some (Runner.serve fuel info world fn kept past batch)) batches

theorem Runner.Throughout.of_holds {P : Runner σ → Prop} [DecidablePred P] {evicted : Nat → Bool}
    {n : Nat} {past : History} {cached : Option (Runner σ)} {hs : List History}
    (h : Runner.holdsThroughout fuel info world fn P evicted n past cached hs = true) :
    Runner.Throughout fuel info world fn P evicted n past cached hs := by
  induction hs generalizing n past cached with
  | nil => trivial
  | cons batch hs ih =>
    rw [holdsThroughout, Bool.and_eq_true] at h
    exact ⟨fun q hq => Runner.holds_of_holdsFor h.1 hq, ih h.2⟩

end Bodies

/-- The operations whose answer does not depend on when they are asked. -/
def Op.Waiting (w : World σ) (op : Op σ) : Prop := op.Replayable w ∧ op.isObservation = false

/-- What the server sees of a task. -/
def Runner.report (r : Runner σ) : List EventAttributes × Option Command × Bool :=
  (r.commands.map Command.event, r.terminalCommand, r.deadlocked)

theorem RecordedBy.of_reports {runners : List (Runner σ)} {batches : List History}
    {reports : List (List EventAttributes × Option Command × Bool)}
    (hr : runners.map Runner.report = reports)
    (hfirst : ∀ h ∈ batches.head?, History.commandEvents h = [])
    (hnext : ∀ x ∈ reports.zip batches.tail, x.1.2.1 = none ∧ History.commandEvents x.2 = x.1.1) :
    RecordedBy runners batches where
  first h hh := hfirst h (List.head?_eq_getElem? ▸ hh)
  next i r h hi hh := by
    have hrep : reports[i]? = some r.report := by rw [← hr, List.getElem?_map, hi, Option.map_some]
    have htail : batches.tail[i]? = some h := by rw [List.getElem?_tail, hh]
    exact hnext (r.report, h) (List.mem_of_getElem? (List.getElem?_zip_eq_some.mpr ⟨hrep, htail⟩))

theorem Runner.live_of_reports {runners : List (Runner σ)}
    {reports : List (List EventAttributes × Option Command × Bool)}
    (hr : runners.map Runner.report = reports) (hlive : ∀ x ∈ reports, x.2.2 = false) :
    ∀ r ∈ runners, r.deadlocked = false :=
  fun r hmem => hlive r.report (hr ▸ List.mem_map_of_mem hmem)

theorem Runner.live_of_all {runners : List (Runner σ)}
    (h : runners.all (fun r => !r.deadlocked) = true) : ∀ r ∈ runners, r.deadlocked = false :=
  fun r hmem => Bool.not_eq_true' _ |>.mp (List.all_eq_true.mp h r hmem)

end TemporalSdk
