import TemporalSdk.Index

/-! The futures a runner has handed out, compared with what the scan of the history says about
their operations. Events keep the comparison, whichever of the two switches reads them. -/
namespace TemporalSdk

/-- What a future stands for. -/
inductive Key where
  | activity (id : String)
  | timer (id : String)
  | child (id : String)
  | nexus (id : String)
  | cancellation
  deriving DecidableEq, Repr

/-- The future an emit guard builds from an outcome table. -/
def futureOfEntry (op : FutureOp) (id : String) (outcome : Option OpOutcome) : FutureState :=
  match outcome.filter (·.scheduled) with
  | some o => Runner.futureOfOutcome op id o
  | none => { op, opId := id }

def futureOfTimer (id : String) (outcome : Option TimerOutcome) : FutureState :=
  match outcome.filter (·.started) with
  | some o => { ready := o.fired, op := .timer, opId := id }
  | none => { op := .timer, opId := id }

/-- The future of an operation as the scan knows it. -/
def Prescan.future (S : Prescan) : Key → FutureState
  | .activity id => futureOfEntry .activity id (S.activities id)
  | .timer id => futureOfTimer id (S.timers id)
  | .child id => futureOfEntry .childWorkflow id (S.children id)
  | .nexus id => futureOfEntry .nexusOperation id (S.nexusOps id)
  | .cancellation => { ready := S.cancelRequested }

theorem futureOfEntry_op (op : FutureOp) (id : String) (outcome : Option OpOutcome) :
    (futureOfEntry op id outcome).op = op ∧ (futureOfEntry op id outcome).opId = id := by
  unfold futureOfEntry
  split
  · unfold Runner.futureOfOutcome
    split <;> exact ⟨rfl, rfl⟩
  · exact ⟨rfl, rfl⟩

theorem futureOfEntry_cancelled (op : FutureOp) (id : String) (outcome : Option OpOutcome) :
    (futureOfEntry op id outcome).cancelled = false := by
  unfold futureOfEntry
  split
  · unfold Runner.futureOfOutcome
    split <;> rfl
  · rfl

/-- The operation a future stands for. -/
def FutureState.key? (f : FutureState) : Option Key :=
  match f.op with
  | .activity => some (.activity f.opId)
  | .timer => some (.timer f.opId)
  | .childWorkflow => some (.child f.opId)
  | .nexusOperation => some (.nexus f.opId)
  | .none => none

theorem Prescan.future_key {S : Prescan} {k : Key} (hk : k ≠ .cancellation) :
    (S.future k).key? = some k := by
  cases k with
  | cancellation => exact absurd rfl hk
  | timer id =>
    simp only [Prescan.future, futureOfTimer]
    split <;> rfl
  | activity id =>
    obtain ⟨hop, hid⟩ := futureOfEntry_op .activity id (S.activities id)
    simp only [Prescan.future, FutureState.key?, hop, hid]
  | child id =>
    obtain ⟨hop, hid⟩ := futureOfEntry_op .childWorkflow id (S.children id)
    simp only [Prescan.future, FutureState.key?, hop, hid]
  | nexus id =>
    obtain ⟨hop, hid⟩ := futureOfEntry_op .nexusOperation id (S.nexusOps id)
    simp only [Prescan.future, FutureState.key?, hop, hid]

/-- `m` registers the futures of one kind under their ids. -/
def Registers (m : PartialMap String Nat) (keys : List Key) (kind : String → Key) : Prop :=
  ∀ id a, m id = some a ↔ keys[a]? = some (kind id)

theorem Registers.concat {m : PartialMap String Nat} {keys : List Key} {kind : String → Key}
    (h : Registers m keys kind) (hk : Function.Injective kind) {id : String}
    (hid : kind id ∉ keys) :
    Registers (m.insert id keys.length) (keys ++ [kind id]) kind := by
  intro j a
  rw [PartialMap.insert_apply]
  split
  · next he =>
    subst he
    rw [Option.some.injEq, eq_comm]
    constructor
    · rintro rfl
      simp
    · intro ha
      by_contra hne
      have hlt : a < keys.length := by
        have := (List.getElem?_eq_some_iff.mp ha).1
        simp only [List.length_append, List.length_singleton] at this
        omega
      rw [List.getElem?_append_left hlt] at ha
      exact hid (List.mem_of_getElem? ha)
  · next he =>
    rw [h j a, List.getElem?_append]
    split
    · exact Iff.rfl
    · next hlt =>
      have hnone : keys[a]? = none := List.getElem?_eq_none (by omega)
      simp only [hnone, reduceCtorEq, false_iff]
      intro ha
      have hj := List.mem_of_getElem? ha
      simp only [List.mem_singleton] at hj
      exact he (hk hj)

theorem Registers.concat_of_ne {m : PartialMap String Nat} {keys : List Key}
    {kind : String → Key} (h : Registers m keys kind) {k : Key} (hk : ∀ id, k ≠ kind id) :
    Registers m (keys ++ [k]) kind := by
  intro j a
  rw [h j a, List.getElem?_append]
  split
  · exact Iff.rfl
  · next hlt =>
    have hnone : keys[a]? = none := List.getElem?_eq_none (by omega)
    simp only [hnone, reduceCtorEq, false_iff]
    intro ha
    have hj := List.mem_of_getElem? ha
    simp only [List.mem_singleton] at hj
    exact hk j hj.symm

/-- The part of a prescan that a runner keeps up to date between tasks. -/
structure LiveState where
  signals : PartialMap String (List Payloads)
  cancelRequested : Bool
  schedEventToActivity : PartialMap Nat String
  activityToSchedEvent : PartialMap String Nat
  schedEventToNexus : PartialMap Nat String
  nexusOpsScheduled : Nat

def Prescan.live (S : Prescan) : LiveState where
  signals := S.signals
  cancelRequested := S.cancelRequested
  schedEventToActivity := S.schedEventToActivity
  activityToSchedEvent := S.activityToSchedEvent
  schedEventToNexus := S.schedEventToNexus
  nexusOpsScheduled := S.nexusOpsScheduled

def LiveState.apply (l : LiveState) (ev : HistoryEvent) : LiveState :=
  match ev.attributes with
  | .activityTaskScheduled id _ =>
    { l with
      schedEventToActivity := l.schedEventToActivity.insert ev.eventId id
      activityToSchedEvent := l.activityToSchedEvent.insert id ev.eventId }
  | .nexusOperationScheduled =>
    { l with
      schedEventToNexus := l.schedEventToNexus.insert ev.eventId (toString l.nexusOpsScheduled)
      nexusOpsScheduled := l.nexusOpsScheduled + 1 }
  | .workflowExecutionSignaled name input =>
    { l with signals := l.signals.modify name [] (· ++ [input]) }
  | .workflowExecutionCancelRequested => { l with cancelRequested := true }
  | _ => l

theorem Prescan.onActivity_live (S : Prescan) (sid : Nat) (f : OpOutcome → OpOutcome) :
    (S.onActivity sid f).live = S.live := by
  unfold Prescan.onActivity
  split <;> rfl

theorem Prescan.onNexus_live (S : Prescan) (sid : Nat) (f : OpOutcome → OpOutcome) :
    (S.onNexus sid f).live = S.live := by
  unfold Prescan.onNexus
  split <;> rfl

theorem Prescan.scanMarker_live (S : Prescan) (name : String)
    (details : List (String × Payloads)) : (S.scanMarker name details).live = S.live := by
  unfold Prescan.scanMarker
  repeat' split
  all_goals rfl

theorem Prescan.scanEvent_live (S : Prescan) (ev : HistoryEvent) :
    (S.scanEvent ev).live = S.live.apply ev := by
  obtain ⟨id, a⟩ := ev
  cases a <;> first
    | rfl
    | exact S.onActivity_live _ _
    | exact S.onNexus_live _ _
    | exact Prescan.onActivity_live (S.pushCommand _ _ _) _ _
    | exact Prescan.scanMarker_live (S.pushCommand _ _ _) _ _

theorem Runner.resolveFuture_scan {σ : Type} (r : Runner σ) (addr : Option Nat)
    (f : FutureState → FutureState) : (r.resolveFuture addr f).scan = r.scan := by
  cases addr <;> rfl

theorem Runner.resolveFuture_of_ne {σ : Type} (r : Runner σ) {addr : Option Nat}
    (f : FutureState → FutureState) {a : Nat} (h : addr ≠ some a) :
    (r.resolveFuture addr f).futures a = r.futures a := by
  cases addr with
  | none => rfl
  | some b => exact Function.update_of_ne (fun he => h (by rw [he])) _ _

theorem Runner.foldl_setFuture_scan {σ : Type} (as : List Nat) (r : Runner σ) :
    (as.foldl (fun r a => r.setFuture a { r.futures a with ready := true }) r).scan = r.scan := by
  induction as generalizing r with
  | nil => rfl
  | cons a as ih => rw [List.foldl_cons, ih]; rfl

/-- The loop over the cancel futures. -/
theorem Runner.foldl_setFuture_eq {σ : Type} (as : List Nat) (r : Runner σ) :
    as.foldl (fun r a => r.setFuture a { r.futures a with ready := true }) r =
      { r with futures := fun a =>
          if a ∈ as then { r.futures a with ready := true } else r.futures a } := by
  induction as generalizing r with
  | nil => simp
  | cons b as ih =>
    rw [List.foldl_cons, ih]
    simp only [Runner.setFuture, Runner.mk.injEq, true_and, and_true]
    funext a
    by_cases hab : a = b
    · subst hab
      by_cases has : a ∈ as <;> simp [has]
    · by_cases has : a ∈ as <;> simp [has, hab]

theorem Runner.applyEventToState_live {σ : Type} (r : Runner σ) (ev : HistoryEvent) :
    (r.applyEventToState ev).scan.live = r.scan.live.apply ev := by
  obtain ⟨id, a⟩ := ev
  cases a <;> first
    | rfl
    | exact congrArg Prescan.live (r.resolveFuture_scan _ _)
    | exact r.scan.onActivity_live _ _
    | exact congrArg Prescan.live (Runner.foldl_setFuture_scan _ _)

/-- The futures handed out so far are those of `keys`, in order, as `S` knows them. -/
structure Issued {σ : Type} (r : Runner σ) (S : Prescan) (keys : List Key) : Prop where
  count : r.futureCount = keys.length
  heap : ∀ a k, keys[a]? = some k → r.futures a = S.future k
  activities : Registers r.activityFutures keys .activity
  timers : Registers r.timerFutures keys .timer
  children : Registers r.childFutures keys .child
  nexus : Registers r.nexusFutures keys .nexus
  cancels : ∀ a ∈ r.cancelFutures, keys[a]? = some .cancellation
  allCancels : S.cancelRequested = false → ∀ a, keys[a]? = some .cancellation →
    a ∈ r.cancelFutures

/-- A closing event turns the blank future of an open operation into the one its outcome
describes. -/
theorem Closing.resolve_futureOfEntry (c : Closing) (op : FutureOp) (id : String) {o : OpOutcome}
    (hs : o.scheduled = true) (hr : o.resolved = false) (hv : o.Valid) :
    c.resolve (futureOfEntry op id (some o)) = futureOfEntry op id (some (c.outcome o)) := by
  rw [c.outcome_eq hv hr]
  cases c <;>
    simp [futureOfEntry, Option.filter, hs, hr, Runner.futureOfOutcome, Closing.resolve,
      Runner.resolved]

theorem Closing.resolveChild_futureOfEntry (c : Closing) (op : FutureOp) (id : String)
    {o : OpOutcome} (hs : o.scheduled = true) (hr : o.resolved = false) (hv : o.Valid) :
    c.resolveChild (futureOfEntry op id (some o)) = futureOfEntry op id (some (c.outcome o)) := by
  rw [c.outcome_eq hv hr]
  cases c <;>
    simp [futureOfEntry, Option.filter, hs, hr, Runner.futureOfOutcome, Closing.resolveChild,
      Runner.childCompleted, Runner.childFailed]

/-- Opening an operation leaves its future blank. -/
theorem futureOfEntry_schedule (op : FutureOp) (id : String) {e : Option OpOutcome}
    (hs : ∀ o, e = some o → o.scheduled = true → False)
    (hr : (e.getD {}).resolved = false) :
    futureOfEntry op id (some (e.getD {}).schedule) = futureOfEntry op id e := by
  have he : e.filter (·.scheduled) = none := by
    cases e with
    | none => rfl
    | some o => simpa [Option.filter] using hs o rfl
  have hblank : futureOfEntry op id e = { op, opId := id } := by simp only [futureOfEntry, he]
  rw [hblank]
  simp [futureOfEntry, Option.filter, OpOutcome.schedule, Runner.futureOfOutcome, hr]

theorem futureOfTimer_start (id : String) {e : Option TimerOutcome}
    (hs : ∀ o, e = some o → o.started = true → False) (hf : (e.getD {}).fired = false) :
    futureOfTimer id (some { e.getD {} with started := true }) = futureOfTimer id e := by
  have he : e.filter (·.started) = none := by
    cases e with
    | none => rfl
    | some o => simpa [Option.filter] using hs o rfl
  have hblank : futureOfTimer id e = { op := .timer, opId := id } := by
    simp only [futureOfTimer, he]
  rw [hblank]
  simp [futureOfTimer, Option.filter, hf]

theorem futureOfEntry_requestCancel (op : FutureOp) (id : String) (e : Option OpOutcome) :
    futureOfEntry op id (some (e.getD {}).requestCancel) = futureOfEntry op id e := by
  cases e with
  | none => rfl
  | some o =>
    by_cases ho : o.scheduled = true <;>
      simp [futureOfEntry, Option.filter, OpOutcome.requestCancel, ho, Runner.futureOfOutcome]

namespace Issued

variable {σ : Type} {r : Runner σ} {S S' : Prescan} {keys : List Key}

/-- Nothing but the scan's view changes, and it agrees on every future. -/
theorem congr (h : Issued r S keys) (hf : ∀ k ∈ keys, S'.future k = S.future k)
    (hc : S'.cancelRequested = S.cancelRequested) : Issued r S' keys :=
  { h with
    heap := fun a k hk => (h.heap a k hk).trans (hf k (List.mem_of_getElem? hk)).symm
    allCancels := fun hn => h.allCancels (hc ▸ hn) }

/-- The runner's scan is not part of what has been issued. -/
theorem withScan (h : Issued r S keys) (scan : Prescan) : Issued { r with scan } S keys :=
  ⟨h.count, h.heap, h.activities, h.timers, h.children, h.nexus, h.cancels, h.allCancels⟩

/-- Resolve the future of one key, if it has been handed out. -/
theorem resolveFuture (h : Issued r S keys) {addr : Option Nat} {f : FutureState → FutureState}
    {k : Key} (ha : ∀ a, addr = some a ↔ keys[a]? = some k) (hf : f (S.future k) = S'.future k)
    (hne : ∀ j, j ≠ k → S'.future j = S.future j)
    (hc : S'.cancelRequested = S.cancelRequested) : Issued (r.resolveFuture addr f) S' keys := by
  cases addr with
  | none =>
    refine h.congr (fun j hj => hne j ?_) hc
    rintro rfl
    obtain ⟨a, hlt, ha'⟩ := List.mem_iff_getElem.mp hj
    exact absurd ((ha a).mpr (by rw [List.getElem?_eq_getElem hlt, ha'])) (by simp)
  | some b =>
    have hb : keys[b]? = some k := (ha b).mp rfl
    refine ⟨h.count, fun a j hj => ?_, h.activities, h.timers, h.children, h.nexus, h.cancels,
      fun hn => h.allCancels (hc ▸ hn)⟩
    simp only [Runner.resolveFuture, Runner.setFuture, Function.update_apply]
    split
    · next he =>
      subst he
      rw [hb] at hj
      cases hj
      rw [h.heap a k hb, hf]
    · next he =>
      have hjk : j ≠ k := by
        rintro rfl
        exact he (Option.some.inj ((ha a).mpr hj)).symm
      rw [h.heap a j hj, hne j hjk]

theorem deliver_cancelRequest (h : Issued r S keys) :
    Issued (r.deliver .cancelRequest) (S.deliver .cancelRequest) keys := by
  rw [Runner.deliver, Runner.foldl_setFuture_eq]
  refine ⟨h.count, fun a k hk => ?_, h.activities, h.timers, h.children, h.nexus, h.cancels,
    fun hn => by simp [Prescan.deliver] at hn⟩
  have hheap := h.heap a k hk
  by_cases ha : a ∈ r.cancelFutures
  · have hc : k = .cancellation := by
      have := h.cancels a ha
      rw [hk] at this
      exact Option.some.inj this
    subst hc
    simp [ha, hheap, Prescan.future, Prescan.deliver]
  · simp only [ha, if_false, hheap]
    cases k with
    | cancellation =>
      cases hcr : S.cancelRequested with
      | true => simp [Prescan.future, Prescan.deliver, hcr]
      | false => exact absurd (h.allCancels hcr a hk) ha
    | _ => rfl

/-- A delivery reaches the futures of a runner as it reaches the tables of the scan. -/
theorem deliver (h : Issued r S keys) (hl : r.scan.live = S.live) {d : Delivery}
    (hd : Deliverable S d) : Issued (r.deliver d) (S.deliver d) keys := by
  have hact : r.scan.schedEventToActivity = S.schedEventToActivity :=
    congrArg LiveState.schedEventToActivity hl
  have hnex : r.scan.schedEventToNexus = S.schedEventToNexus :=
    congrArg LiveState.schedEventToNexus hl
  cases d with
  | activity sid c =>
    obtain ⟨id, o, hid, hot, hos, hor, hov⟩ := hd
    simp only [Runner.deliver, Prescan.deliver, Prescan.onActivity, hid, hact,
      Option.bind_some]
    refine h.resolveFuture (k := .activity id) (h.activities id) ?_ (fun j hj => ?_) rfl
    · simp only [Prescan.future, PartialMap.modify_self, hot, Option.getD_some]
      exact c.resolve_futureOfEntry .activity id hos hor hov
    · cases j with
      | activity j =>
        have hne : j ≠ id := fun e => hj (by rw [e])
        simp [Prescan.future, hne]
      | _ => rfl
  | nexus sid c =>
    obtain ⟨id, o, hid, hot, hos, hor, hov⟩ := hd
    simp only [Runner.deliver, Prescan.deliver, Prescan.onNexus, hid, hnex,
      Option.bind_some]
    refine h.resolveFuture (k := .nexus id) (h.nexus id) ?_ (fun j hj => ?_) rfl
    · simp only [Prescan.future, PartialMap.modify_self, hot, Option.getD_some]
      exact c.resolve_futureOfEntry .nexusOperation id hos hor hov
    · cases j with
      | nexus j =>
        have hne : j ≠ id := fun e => hj (by rw [e])
        simp [Prescan.future, hne]
      | _ => rfl
  | child id c =>
    obtain ⟨o, hot, hos, hor, hov⟩ := hd
    refine h.resolveFuture (k := .child id) (h.children id) ?_ (fun j hj => ?_) rfl
    · simp only [Prescan.future, Prescan.deliver, Prescan.onChild, PartialMap.modify_self, hot,
        Option.getD_some]
      exact c.resolveChild_futureOfEntry .childWorkflow id hos hor hov
    · cases j with
      | child j =>
        have hne : j ≠ id := fun e => hj (by rw [e])
        simp [Prescan.future, Prescan.deliver, Prescan.onChild, hne]
      | _ => rfl
  | timer id =>
    obtain ⟨o, hot, hos⟩ := hd
    change Issued (r.resolveFuture (r.timerFutures id) fun f => { f with ready := true }) _ keys
    refine h.resolveFuture (k := .timer id) (h.timers id) ?_ (fun j hj => ?_) ?_
    · simp [Prescan.future, futureOfTimer, Prescan.deliver, Prescan.onTimer, hot, Option.filter,
        hos]
    · cases j with
      | timer j =>
        have hne : j ≠ id := fun e => hj (by rw [e])
        simp [Prescan.future, Prescan.deliver, Prescan.onTimer, hne]
      | _ => rfl
    · rfl
  | signal name input =>
    refine (h.withScan _).congr (fun k _ => ?_) rfl
    cases k <;> rfl
  | cancelRequest => exact h.deliver_cancelRequest

end Issued

theorem Prescan.future_eq_of_sameTables {S S' : Prescan} (h : SameTables S S')
    (hc : S'.cancelRequested = S.cancelRequested) (k : Key) : S'.future k = S.future k := by
  cases k <;> simp only [Prescan.future, h.activities, h.timers, h.children, h.nexusOps, hc]

section Opening

variable {S : Prescan} {p : History} {eid : Nat} {id type : String} (h : Indexed S p)
include h

theorem Indexed.future_activityTaskScheduled
    (wf : WellFormed (p ++ [⟨eid, .activityTaskScheduled id type⟩])) (k : Key) :
    (S.scanOne ⟨eid, .activityTaskScheduled id type⟩).future k = S.future k := by
  cases k with
  | activity j =>
    change futureOfEntry _ _ (S.activities.modify id {} OpOutcome.schedule j) = _
    by_cases hj : j = id
    · subst hj
      have hid := h.activityId_unused wf
      rw [PartialMap.modify_self]
      exact futureOfEntry_schedule .activity j
        (fun o ho hs => (h.activities.tracks.origin j o ho hs).elim hid)
        (h.activities.tracks.not_closed_of_not_open fun ⟨sid, hs⟩ => hid sid hs)
    · rw [PartialMap.modify_of_ne _ hj]
      rfl
  | _ => rfl

theorem Indexed.future_nexusOperationScheduled (k : Key) :
    (S.scanOne ⟨eid, .nexusOperationScheduled⟩).future k = S.future k := by
  cases k with
  | nexus j =>
    change futureOfEntry _ _ (S.nexusOps.modify (toString S.nexusOpsScheduled) {}
      OpOutcome.schedule j) = _
    by_cases hj : j = toString S.nexusOpsScheduled
    · have hid := h.nexusId_unused
      rw [hj, PartialMap.modify_self]
      exact futureOfEntry_schedule .nexusOperation _
        (fun o ho hs => (h.nexusOps.tracks.origin _ o ho hs).elim hid)
        (h.nexusOps.tracks.not_closed_of_not_open fun ⟨sid, hs⟩ => hid sid hs)
    · rw [PartialMap.modify_of_ne _ hj]
      rfl
  | _ => rfl

theorem Indexed.future_startChildWorkflowExecutionInitiated
    (wf : WellFormed (p ++ [⟨eid, .startChildWorkflowExecutionInitiated id type⟩])) (k : Key) :
    (S.scanOne ⟨eid, .startChildWorkflowExecutionInitiated id type⟩).future k = S.future k := by
  cases k with
  | child j =>
    change futureOfEntry _ _ (S.children.modify id {} OpOutcome.schedule j) = _
    by_cases hj : j = id
    · subst hj
      have ho := wf.not_mem_opened (k := .child j) rfl
      rw [PartialMap.modify_self]
      exact futureOfEntry_schedule .childWorkflow j
        (fun o hot hs => ho (h.children.origin j o hot hs)) (h.children.not_closed_of_not_open ho)
    · rw [PartialMap.modify_of_ne _ hj]
      rfl
  | _ => rfl

theorem Indexed.future_timerStarted (wf : WellFormed (p ++ [⟨eid, .timerStarted id⟩])) (k : Key) :
    (S.scanOne ⟨eid, .timerStarted id⟩).future k = S.future k := by
  cases k with
  | timer j =>
    change futureOfTimer j (S.timers.modify id {} (fun o => { o with started := true }) j) = _
    by_cases hj : j = id
    · subst hj
      have ho := wf.not_mem_opened (k := .timer j) rfl
      have hf := h.timers.not_closed_of_not_open ho
      rw [PartialMap.modify_self]
      exact futureOfTimer_start j (fun o hot hs => ho (h.timers.origin j o hot hs)) hf
    · rw [PartialMap.modify_of_ne _ hj]
      rfl
  | _ => rfl

end Opening

theorem Prescan.future_activityTaskCancelRequested (S : Prescan) (eid sid : Nat) (k : Key) :
    (S.scanOne ⟨eid, .activityTaskCancelRequested sid⟩).future k = S.future k := by
  change (({ S with lastEventId := eid }.pushCommand .requestCancelActivity (toString sid)
    "").onActivity sid OpOutcome.requestCancel).future k = _
  unfold Prescan.onActivity
  split
  · next id hid =>
    cases k with
    | activity j =>
      change futureOfEntry _ _ (S.activities.modify id {} OpOutcome.requestCancel j) = _
      by_cases hj : j = id
      · rw [hj, PartialMap.modify_self]
        exact futureOfEntry_requestCancel ..
      · rw [PartialMap.modify_of_ne _ hj]
        rfl
    | _ => rfl
  · cases k <;> rfl

theorem Prescan.future_requestCancelExternal (S : Prescan) (eid : Nat) (id : String) (k : Key) :
    (S.scanOne ⟨eid, .requestCancelExternalWorkflowExecutionInitiated id⟩).future k =
      S.future k := by
  cases k with
  | child j =>
    change futureOfEntry _ _ (S.children.modify id {} OpOutcome.requestCancel j) = _
    by_cases hj : j = id
    · rw [hj, PartialMap.modify_self]
      exact futureOfEntry_requestCancel ..
    · rw [PartialMap.modify_of_ne _ hj]
      rfl
  | _ => rfl

/-- Events that deliver nothing change no future. -/
theorem Indexed.future_scanOne {S : Prescan} {p : History} {e : HistoryEvent} (h : Indexed S p)
    (wf : WellFormed (p ++ [e])) (hd : e.attributes.delivery? = none) (k : Key) :
    (S.scanOne e).future k = S.future k := by
  obtain ⟨eid, a⟩ := e
  cases a with
  | activityTaskScheduled id type => exact h.future_activityTaskScheduled wf k
  | nexusOperationScheduled => exact h.future_nexusOperationScheduled k
  | startChildWorkflowExecutionInitiated id type =>
    exact h.future_startChildWorkflowExecutionInitiated wf k
  | timerStarted id => exact h.future_timerStarted wf k
  | timerCanceled id =>
    exact absurd (wf.noTimerCanceled ⟨eid, .timerCanceled id⟩ (by simp)) Bool.noConfusion
  | activityTaskCancelRequested sid => exact S.future_activityTaskCancelRequested eid sid k
  | requestCancelExternalWorkflowExecutionInitiated id =>
    exact S.future_requestCancelExternal eid id k
  | markerRecorded name details =>
    have hm := Prescan.scanMarker_sameTables
      ({ S with lastEventId := eid }.pushCommand .marker name "") name details
    have hl := Prescan.scanMarker_live
      ({ S with lastEventId := eid }.pushCommand .marker name "") name details
    exact Prescan.future_eq_of_sameTables ⟨hm.1, hm.2, hm.3, hm.4, hm.5, hm.6, hm.7⟩
      (congrArg LiveState.cancelRequested hl) k
  | _ => first
    | exact absurd hd (Option.some_ne_none _)
    | cases k <;> rfl

theorem Prescan.scanOne_live (S : Prescan) (e : HistoryEvent) :
    (S.scanOne e).live = S.live.apply e := by
  rw [Prescan.scanOne, Prescan.scanEvent_live]
  rfl

theorem LiveState.apply_cancelRequested {l : LiveState} {e : HistoryEvent}
    (hd : e.attributes.delivery? = none) : (l.apply e).cancelRequested = l.cancelRequested := by
  obtain ⟨eid, a⟩ := e
  cases a <;> first
    | rfl
    | exact absurd hd (Option.some_ne_none _)

/-- An event that delivers nothing leaves the runner's futures alone. -/
theorem Runner.applyEventToState_of_neutral {σ : Type} (r : Runner σ) {e : HistoryEvent}
    (hd : e.attributes.delivery? = none) (hc : e.attributes.isTimerCanceled = false) :
    ∃ scan, r.applyEventToState e = { r with scan } := by
  obtain ⟨eid, a⟩ := e
  cases a <;> first
    | exact absurd hd (Option.some_ne_none _)
    | exact Bool.noConfusion hc
    | exact ⟨_, rfl⟩

/-- Both switches read an event of a well-formed history alike. -/
theorem Issued.event {σ : Type} {r : Runner σ} {S : Prescan} {keys : List Key} {p : History}
    {e : HistoryEvent} (h : Issued r S keys) (hl : r.scan.live = S.live) (hi : Indexed S p)
    (wf : WellFormed (p ++ [e])) : Issued (r.applyEventToState e) (S.scanOne e) keys := by
  cases hd : e.attributes.delivery? with
  | none =>
    obtain ⟨scan, hr⟩ := r.applyEventToState_of_neutral hd (wf.noTimerCanceled e (by simp))
    rw [hr]
    refine (h.withScan scan).congr (fun k _ => hi.future_scanOne wf hd k) ?_
    have hlive := congrArg LiveState.cancelRequested (S.scanOne_live e)
    exact hlive.trans (LiveState.apply_cancelRequested hd)
  | some d =>
    have hcl : e.closes = d.closes := by simp [HistoryEvent.closes, hd]
    have hdel := hi.deliverable (d := d) (fun k hk => wf.mem_opened (hcl.trans hk))
      fun k hk => wf.not_mem_closed (hcl.trans hk)
    rw [r.applyEventToState_deliver hd, Prescan.scanOne, Prescan.scanEvent_deliver _ hd]
    have h' : Issued r { S with lastEventId := e.eventId } keys :=
      h.congr (fun k _ => by cases k <;> rfl) rfl
    exact h'.deliver hl hdel

/-- The command of an operation, unless its schedule event is recorded. -/
def unlessRecorded (recorded : Bool) (c : Command) : List Command := if recorded then [] else [c]

def OpOutcome.recorded (outcome : Option OpOutcome) : Bool := outcome.any (·.scheduled)

def TimerOutcome.recorded (outcome : Option TimerOutcome) : Bool := outcome.any (·.started)

namespace Runner

variable {σ : Type} (r : Runner σ)

theorem openOperation_eq (op : FutureOp) (id : String) (outcome : Option OpOutcome) (c : Command) :
    r.openOperation op id outcome c =
      { r with
        commands := r.commands ++ unlessRecorded (OpOutcome.recorded outcome) c
        futures := Function.update r.futures r.futureCount (futureOfEntry op id outcome)
        futureCount := r.futureCount + 1 } := by
  unfold openOperation futureOfEntry OpOutcome.recorded
  cases outcome with
  | none => rfl
  | some o =>
    by_cases ho : o.scheduled = true <;>
      simp [Option.filter, ho, unlessRecorded, allocate, emit]

theorem scheduleActivity_eq (type : String) (input : Payloads) (options : ActivityOptions) :
    r.scheduleActivity type input options =
      { r with
        activitySeq := r.activitySeq + 1
        producedCommands := r.producedCommands ++ [⟨.activity, toString r.activitySeq, type⟩]
        commands := r.commands ++
          unlessRecorded (OpOutcome.recorded (r.scan.activities (toString r.activitySeq)))
            (r.scheduleActivityCommand (toString r.activitySeq) type input options)
        futures := Function.update r.futures r.futureCount
          (futureOfEntry .activity (toString r.activitySeq)
            (r.scan.activities (toString r.activitySeq)))
        futureCount := r.futureCount + 1
        activityFutures := r.activityFutures.insert (toString r.activitySeq) r.futureCount } := by
  simp only [scheduleActivity, openOperation_eq]
  rfl

theorem startTimer_eq (duration : Int) :
    r.startTimer duration =
      { r with
        timerSeq := r.timerSeq + 1
        producedCommands := r.producedCommands ++ [⟨.timer, "t" ++ toString r.timerSeq, ""⟩]
        commands := r.commands ++
          unlessRecorded (TimerOutcome.recorded (r.scan.timers ("t" ++ toString r.timerSeq)))
            (.startTimer ("t" ++ toString r.timerSeq) (toProtoDuration duration))
        futures := Function.update r.futures r.futureCount
          (futureOfTimer ("t" ++ toString r.timerSeq)
            (r.scan.timers ("t" ++ toString r.timerSeq)))
        futureCount := r.futureCount + 1
        timerFutures := r.timerFutures.insert ("t" ++ toString r.timerSeq) r.futureCount } := by
  simp only [startTimer, futureOfTimer, TimerOutcome.recorded]
  generalize "t" ++ toString r.timerSeq = id
  cases r.scan.timers id with
  | none => simp [Option.filter, unlessRecorded, allocate, emit, produce]
  | some o =>
    by_cases ho : o.started = true <;>
      simp [Option.filter, ho, unlessRecorded, allocate, emit, produce]

theorem startChildWorkflow_eq (type : String) (input : Payloads) (options : ChildWorkflowOptions) :
    r.startChildWorkflow type input options =
      { r with
        childSeq := r.childSeq + 1
        producedCommands := r.producedCommands ++ [⟨.childWorkflow, r.childId options, type⟩]
        commands := r.commands ++
          unlessRecorded (OpOutcome.recorded (r.scan.children (r.childId options)))
            (.startChildWorkflowExecution r.info.ns (r.childId options) type
              (r.queueOr options.taskQueue) input options.parentClosePolicy)
        futures := Function.update r.futures r.futureCount
          (futureOfEntry .childWorkflow (r.childId options)
            (r.scan.children (r.childId options)))
        futureCount := r.futureCount + 1
        childFutures := r.childFutures.insert (r.childId options) r.futureCount } := by
  simp only [startChildWorkflow, openOperation_eq]
  rfl

theorem scheduleNexusOperation_eq (endpoint service operation : String) (input : Payload)
    (close : Int) :
    r.scheduleNexusOperation endpoint service operation input close =
      { r with
        nexusSeq := r.nexusSeq + 1
        producedCommands := r.producedCommands ++ [⟨.nexusOperation, toString r.nexusSeq, ""⟩]
        commands := r.commands ++
          unlessRecorded (OpOutcome.recorded (r.scan.nexusOps (toString r.nexusSeq)))
            (.scheduleNexusOperation endpoint service operation input
              (if 0 < close then some (toProtoDuration close) else none))
        futures := Function.update r.futures r.futureCount
          (futureOfEntry .nexusOperation (toString r.nexusSeq)
            (r.scan.nexusOps (toString r.nexusSeq)))
        futureCount := r.futureCount + 1
        nexusFutures := r.nexusFutures.insert (toString r.nexusSeq) r.futureCount } := by
  simp only [scheduleNexusOperation, openOperation_eq]
  rfl

/-- What `Cancel` does to the runner: nothing, if the future has been cancelled before or stands for
nothing that can be; otherwise a request, unless one is on record. Only the future of a timer is
ready at once. -/
inductive CancelEffect (addr : Nat) : Runner σ → Prop
  | nothing : CancelEffect addr r
  | timer (op : (r.futures addr).op = .timer) (fresh : (r.futures addr).cancelled = false) :
      CancelEffect addr
        { r with
          producedCommands := r.producedCommands ++ [⟨.cancelTimer, (r.futures addr).opId, ""⟩]
          commands := r.commands ++
            unlessRecorded ((r.scan.timers (r.futures addr).opId).any (·.cancelled))
              (.cancelTimer (r.futures addr).opId)
          futures := Function.update r.futures addr
            { r.futures addr with ready := true, cancelled := true } }
  | activity (op : (r.futures addr).op = .activity) (fresh : (r.futures addr).cancelled = false)
      {sid : Nat} (scheduled : r.scan.activityToSchedEvent (r.futures addr).opId = some sid) :
      CancelEffect addr
        { r with
          producedCommands := r.producedCommands ++ [⟨.requestCancelActivity, toString sid, ""⟩]
          commands := r.commands ++
            unlessRecorded ((r.scan.activities (r.futures addr).opId).any (·.cancelRequested))
              (.requestCancelActivityTask sid) }
  | child (op : (r.futures addr).op = .childWorkflow) (fresh : (r.futures addr).cancelled = false) :
      CancelEffect addr
        { r with
          producedCommands :=
            r.producedCommands ++ [⟨.requestCancelExternalWorkflow, (r.futures addr).opId, ""⟩]
          commands := r.commands ++
            unlessRecorded ((r.scan.children (r.futures addr).opId).any (·.cancelRequested))
              (.requestCancelExternalWorkflowExecution r.info.ns (r.futures addr).opId true) }

theorem unlessRecorded_of_filter {α : Type} {o : Option α} {p : α → Bool} {x : α}
    (h : o.filter p = some x) (l : List Command) (c : Command) :
    l ++ unlessRecorded (o.any p) c = l := by
  obtain ⟨rfl, hp⟩ := Option.filter_eq_some_iff.mp h
  rw [Option.any_some, hp, unlessRecorded, if_pos rfl, List.append_nil]

theorem any_of_filter_eq_none {α : Type} {o : Option α} {p : α → Bool} (h : o.filter p = none) :
    o.any p = false := by
  cases o with
  | none => rfl
  | some x => simpa [Option.filter] using h

theorem cancel_timer {addr : Nat} (hop : (r.futures addr).op = .timer)
    (hfresh : (r.futures addr).cancelled = false) : r.CancelEffect addr (r.cancel addr) := by
  have heffect := CancelEffect.timer hop hfresh
  simp only [cancel, hfresh, hop, Bool.false_eq_true, if_false] at heffect ⊢
  split
  · next hx =>
    rw [unlessRecorded_of_filter hx] at heffect
    exact heffect
  · next hx =>
    rw [any_of_filter_eq_none hx] at heffect
    exact heffect

theorem cancel_activity {addr sid : Nat} (hop : (r.futures addr).op = .activity)
    (hfresh : (r.futures addr).cancelled = false)
    (hs : r.scan.activityToSchedEvent (r.futures addr).opId = some sid) :
    r.cancel addr =
      { r with
        producedCommands := r.producedCommands ++ [⟨.requestCancelActivity, toString sid, ""⟩]
        commands := r.commands ++
          unlessRecorded ((r.scan.activities (r.futures addr).opId).any (·.cancelRequested))
            (.requestCancelActivityTask sid) } := by
  simp only [cancel, hs, hfresh, hop, Bool.false_eq_true, if_false]
  split
  · next hx =>
    rw [unlessRecorded_of_filter hx]
    rfl
  · next hx =>
    rw [any_of_filter_eq_none hx]
    rfl

theorem requestCancelExternal_eq (id : String) (childOnly : Bool) :
    r.requestCancelExternal id childOnly =
      { r with
        producedCommands := r.producedCommands ++ [⟨.requestCancelExternalWorkflow, id, ""⟩]
        commands := r.commands ++ unlessRecorded ((r.scan.children id).any (·.cancelRequested))
          (.requestCancelExternalWorkflowExecution r.info.ns id childOnly) } := by
  unfold requestCancelExternal
  dsimp only
  split
  · next hx =>
    rw [unlessRecorded_of_filter hx]
    rfl
  · next hx =>
    rw [any_of_filter_eq_none hx]
    rfl

theorem cancel_child {addr : Nat} (hop : (r.futures addr).op = .childWorkflow)
    (hfresh : (r.futures addr).cancelled = false) :
    r.cancel addr = r.requestCancelExternal (r.futures addr).opId true := by
  simp only [cancel, hfresh, hop, Bool.false_eq_true, if_false]

theorem cancel_effect (addr : Nat) : r.CancelEffect addr (r.cancel addr) := by
  cases hc : (r.futures addr).cancelled with
  | true =>
    rw [cancel, if_pos hc]
    exact .nothing
  | false =>
    have hnothing (h : r.cancel addr = r) : r.CancelEffect addr (r.cancel addr) := by
      rw [h]
      exact .nothing
    cases hop : (r.futures addr).op with
    | timer => exact r.cancel_timer hop hc
    | activity =>
      cases hs : r.scan.activityToSchedEvent (r.futures addr).opId with
      | none =>
        refine hnothing ?_
        simp only [cancel, hc, hop, hs, Bool.false_eq_true, if_false]
      | some sid =>
        rw [r.cancel_activity hop hc hs]
        exact .activity hop hc hs
    | childWorkflow =>
      rw [r.cancel_child hop hc, requestCancelExternal_eq]
      exact .child hop hc
    | nexusOperation =>
      refine hnothing ?_
      simp only [cancel, hc, hop, Bool.false_eq_true, if_false]
    | none =>
      refine hnothing ?_
      simp only [cancel, hc, hop, Bool.false_eq_true, if_false]

end Runner

namespace Issued

variable {σ : Type} {r : Runner σ} {S : Prescan} {keys : List Key}

theorem heap_concat (h : Issued r S keys) (k : Key) :
    ∀ a j, (keys ++ [k])[a]? = some j →
      Function.update r.futures r.futureCount (S.future k) a = S.future j := by
  intro a j hj
  rw [List.getElem?_append] at hj
  split at hj
  · next hlt =>
    have hne : a ≠ r.futureCount := by
      have := h.count
      omega
    rw [Function.update_of_ne hne]
    exact h.heap a j hj
  · next hlt =>
    have ha : a = r.futureCount := by
      have hl := (List.getElem?_eq_some_iff.mp hj).1
      have := h.count
      simp only [List.length_singleton] at hl
      omega
    have hk := List.mem_of_getElem? hj
    simp only [List.mem_singleton] at hk
    rw [ha, Function.update_self, hk]

theorem cancels_concat (h : Issued r S keys) (k : Key) :
    ∀ a ∈ r.cancelFutures, (keys ++ [k])[a]? = some .cancellation := by
  intro a ha
  have hk := h.cancels a ha
  rwa [List.getElem?_append_left (List.getElem?_eq_some_iff.mp hk).1]

theorem allCancels_concat (h : Issued r S keys) {k : Key} (hk : k ≠ .cancellation)
    (hc : S.cancelRequested = false) :
    ∀ a, (keys ++ [k])[a]? = some .cancellation → a ∈ r.cancelFutures := by
  intro a ha
  rw [List.getElem?_append] at ha
  split at ha
  · exact h.allCancels hc a ha
  · have := List.mem_of_getElem? ha
    simp only [List.mem_singleton] at this
    exact absurd this.symm hk

theorem scheduleActivity (h : Issued r S keys) (hk : .activity (toString r.activitySeq) ∉ keys)
    (hv : futureOfEntry .activity (toString r.activitySeq)
        (r.scan.activities (toString r.activitySeq)) =
      S.future (.activity (toString r.activitySeq)))
    (type : String) (input : Payloads) (options : ActivityOptions) :
    Issued (r.scheduleActivity type input options) S
      (keys ++ [.activity (toString r.activitySeq)]) := by
  have hreg := h.activities.concat (fun _ _ e => Key.activity.inj e) hk
  rw [← h.count] at hreg
  rw [r.scheduleActivity_eq, hv]
  exact ⟨by simp [h.count], h.heap_concat _, hreg, h.timers.concat_of_ne (by simp),
    h.children.concat_of_ne (by simp), h.nexus.concat_of_ne (by simp), h.cancels_concat _,
    h.allCancels_concat (by simp)⟩

theorem startTimer (h : Issued r S keys) (hk : .timer ("t" ++ toString r.timerSeq) ∉ keys)
    (hv : futureOfTimer ("t" ++ toString r.timerSeq) (r.scan.timers ("t" ++ toString r.timerSeq)) =
      S.future (.timer ("t" ++ toString r.timerSeq))) (duration : Int) :
    Issued (r.startTimer duration) S (keys ++ [.timer ("t" ++ toString r.timerSeq)]) := by
  have hreg := h.timers.concat (fun _ _ e => Key.timer.inj e) hk
  rw [← h.count] at hreg
  rw [r.startTimer_eq, hv]
  exact ⟨by simp [h.count], h.heap_concat _, h.activities.concat_of_ne (by simp), hreg,
    h.children.concat_of_ne (by simp), h.nexus.concat_of_ne (by simp), h.cancels_concat _,
    h.allCancels_concat (by simp)⟩

theorem startChildWorkflow (h : Issued r S keys) {options : ChildWorkflowOptions}
    (hk : .child (r.childId options) ∉ keys)
    (hv : futureOfEntry .childWorkflow (r.childId options) (r.scan.children (r.childId options)) =
      S.future (.child (r.childId options))) (type : String) (input : Payloads) :
    Issued (r.startChildWorkflow type input options) S (keys ++ [.child (r.childId options)]) := by
  have hreg := h.children.concat (fun _ _ e => Key.child.inj e) hk
  rw [← h.count] at hreg
  rw [r.startChildWorkflow_eq, hv]
  exact ⟨by simp [h.count], h.heap_concat _, h.activities.concat_of_ne (by simp),
    h.timers.concat_of_ne (by simp), hreg, h.nexus.concat_of_ne (by simp), h.cancels_concat _,
    h.allCancels_concat (by simp)⟩

theorem scheduleNexusOperation (h : Issued r S keys) (hk : .nexus (toString r.nexusSeq) ∉ keys)
    (hv : futureOfEntry .nexusOperation (toString r.nexusSeq)
        (r.scan.nexusOps (toString r.nexusSeq)) = S.future (.nexus (toString r.nexusSeq)))
    (endpoint service operation : String) (input : Payload) (close : Int) :
    Issued (r.scheduleNexusOperation endpoint service operation input close) S
      (keys ++ [.nexus (toString r.nexusSeq)]) := by
  have hreg := h.nexus.concat (fun _ _ e => Key.nexus.inj e) hk
  rw [← h.count] at hreg
  rw [r.scheduleNexusOperation_eq, hv]
  exact ⟨by simp [h.count], h.heap_concat _, h.activities.concat_of_ne (by simp),
    h.timers.concat_of_ne (by simp), h.children.concat_of_ne (by simp), hreg, h.cancels_concat _,
    h.allCancels_concat (by simp)⟩

theorem awaitCancellation (h : Issued r S keys)
    (hv : r.scan.cancelRequested = S.cancelRequested) :
    Issued r.awaitCancellation S (keys ++ [.cancellation]) := by
  have hheap := h.heap_concat .cancellation
  have ha := h.activities.concat_of_ne (k := .cancellation) (by simp)
  have ht := h.timers.concat_of_ne (k := .cancellation) (by simp)
  have hch := h.children.concat_of_ne (k := .cancellation) (by simp)
  have hn := h.nexus.concat_of_ne (k := .cancellation) (by simp)
  have hcount : r.futureCount + 1 = (keys ++ [Key.cancellation]).length := by simp [h.count]
  have hnew : (keys ++ [Key.cancellation])[r.futureCount]? = some .cancellation := by
    simp [h.count]
  unfold Runner.awaitCancellation
  cases hc : r.scan.cancelRequested with
  | true =>
    have hf : S.future .cancellation = { ready := true } := by simp [Prescan.future, ← hv, hc]
    rw [hf] at hheap
    exact ⟨hcount, hheap, ha, ht, hch, hn, h.cancels_concat _, fun hs => by simp [← hv, hc] at hs⟩
  | false =>
    have hf : S.future .cancellation = {} := by simp [Prescan.future, ← hv, hc]
    rw [hf] at hheap
    refine ⟨hcount, hheap, ha, ht, hch, hn, fun a hm => ?_, fun hs a hk => ?_⟩
    · rcases List.mem_append.mp hm with hm | hm
      · exact h.cancels_concat _ a hm
      · rw [List.mem_singleton.mp hm]
        exact hnew
    · rw [List.getElem?_append] at hk
      split at hk
      · exact List.mem_append_left _ (h.allCancels hs a hk)
      · next hlt =>
        have hl := (List.getElem?_eq_some_iff.mp hk).1
        have := h.count
        simp only [List.length_singleton] at hl
        exact List.mem_append_right _ (List.mem_singleton.mpr (by omega))

end Issued
end TemporalSdk
