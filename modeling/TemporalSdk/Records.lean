import TemporalSdk.Agreement

/-! What the scan keeps of the command events of a history: the tables and counts behind the
emit guards, and the list the determinism check compares with. -/
namespace TemporalSdk

namespace EventAttributes

def activityId? : EventAttributes → Option String
  | .activityTaskScheduled id _ => some id
  | _ => none

def timerId? : EventAttributes → Option String
  | .timerStarted id => some id
  | _ => none

def childId? : EventAttributes → Option String
  | .startChildWorkflowExecutionInitiated id _ => some id
  | _ => none

def isNexus : EventAttributes → Bool
  | .nexusOperationScheduled => true
  | _ => false

def isExtSignal : EventAttributes → Bool
  | .signalExternalWorkflowExecutionInitiated _ => true
  | _ => false

def isUpsert : EventAttributes → Bool
  | .upsertWorkflowSearchAttributes => true
  | _ => false

/-- The value a SideEffect marker recorded. -/
def sideEffect? : EventAttributes → Option Payload
  | .markerRecorded name details =>
    if name = "SideEffect" then (details.lookup "data").bind List.head? else none
  | _ => none

/-- The outcome a LocalActivity marker recorded. -/
def localActivity? : EventAttributes → Option LocalActivityMarkerRaw
  | .markerRecorded name details =>
    if name = "LocalActivity" then some (Prescan.localActivityMarker details) else none
  | _ => none

/-- A command event as the determinism check sees it; a Nexus operation is known by its
ordinal. -/
def entry (nexusOps : Nat) : EventAttributes → CommandEvent
  | .activityTaskScheduled id type => ⟨.activity, id, type⟩
  | .activityTaskCancelRequested sid => ⟨.requestCancelActivity, toString sid, ""⟩
  | .timerStarted id => ⟨.timer, id, ""⟩
  | .timerCanceled id => ⟨.cancelTimer, id, ""⟩
  | .startChildWorkflowExecutionInitiated id type => ⟨.childWorkflow, id, type⟩
  | .requestCancelExternalWorkflowExecutionInitiated id => ⟨.requestCancelExternalWorkflow, id, ""⟩
  | .signalExternalWorkflowExecutionInitiated id => ⟨.signalExternalWorkflow, id, ""⟩
  | .upsertWorkflowSearchAttributes => ⟨.upsertSearchAttributes, "", ""⟩
  | .nexusOperationScheduled => ⟨.nexusOperation, toString nexusOps, ""⟩
  | .markerRecorded name _ => ⟨.marker, name, ""⟩
  | .workflowExecutionFailed _ => ⟨.failWorkflow, "", ""⟩
  | .workflowExecutionContinuedAsNew .. => ⟨.continueAsNew, "", ""⟩
  | _ => ⟨.completeWorkflow, "", ""⟩

end EventAttributes

/-- The command events as the determinism check sees them, `n` Nexus operations into the run. -/
def entriesFrom : Nat → List EventAttributes → List CommandEvent
  | _, [] => []
  | n, a :: as => a.entry n :: entriesFrom (n + if a.isNexus then 1 else 0) as

theorem length_entriesFrom (n : Nat) (l : List EventAttributes) :
    (entriesFrom n l).length = l.length := by
  induction l generalizing n with
  | nil => rfl
  | cons a l ih => simp only [entriesFrom, List.length_cons, ih]

theorem entriesFrom_append (n : Nat) (as bs : List EventAttributes) :
    entriesFrom n (as ++ bs) =
      entriesFrom n as ++ entriesFrom (n + as.countP EventAttributes.isNexus) bs := by
  induction as generalizing n with
  | nil => simp [entriesFrom]
  | cons a as ih =>
    simp only [List.cons_append, entriesFrom, ih, List.countP_cons]
    congr 3
    omega

theorem entriesFrom_concat (n : Nat) (as : List EventAttributes) (a : EventAttributes) :
    entriesFrom n (as ++ [a]) =
      entriesFrom n as ++ [a.entry (n + as.countP EventAttributes.isNexus)] :=
  entriesFrom_append n as [a]

/-- What the check can tell of an event, it counts alike. -/
theorem countP_entriesFrom {p : CommandEvent → Bool} {q : EventAttributes → Bool}
    (h : ∀ (a : EventAttributes) (n : Nat), p (a.entry n) = q a) (n : Nat)
    (as : List EventAttributes) : (entriesFrom n as).countP p = as.countP q := by
  induction as generalizing n with
  | nil => rfl
  | cons a as ih => rw [entriesFrom, List.countP_cons, List.countP_cons, ih, h]

theorem entriesFrom_isPrefix {as bs : List EventAttributes} (h : as <+: bs) :
    entriesFrom 0 as <+: entriesFrom 0 bs := by
  obtain ⟨cs, rfl⟩ := h
  rw [entriesFrom_append]
  exact List.prefix_append ..

/-- `scan` has read exactly the command events `rec`. -/
structure Recorded (scan : Prescan) (rec : List EventAttributes) : Prop where
  activities : ∀ id, OpOutcome.recorded (scan.activities id) = true ↔
    id ∈ rec.filterMap EventAttributes.activityId?
  timers : ∀ id, TimerOutcome.recorded (scan.timers id) = true ↔
    id ∈ rec.filterMap EventAttributes.timerId?
  children : ∀ id, OpOutcome.recorded (scan.children id) = true ↔
    id ∈ rec.filterMap EventAttributes.childId?
  nexusOps : ∀ id, OpOutcome.recorded (scan.nexusOps id) = true ↔
    ∃ k < rec.countP EventAttributes.isNexus, id = toString k
  nexusOpsScheduled : scan.nexusOpsScheduled = rec.countP EventAttributes.isNexus
  extSignals : scan.extSignalsInitiated = rec.countP EventAttributes.isExtSignal
  upserts : scan.upsertsInitiated = rec.countP EventAttributes.isUpsert
  sideEffects : scan.sideEffects = rec.filterMap EventAttributes.sideEffect?
  localActivities : scan.localActivities = rec.filterMap EventAttributes.localActivity?
  commands : scan.commands = entriesFrom 0 rec

/-- `scan` holds no record of a command outside `known`. -/
structure Known (scan : Prescan) (known : List EventAttributes) : Prop where
  activities : ∀ id, OpOutcome.recorded (scan.activities id) = true →
    id ∈ known.filterMap EventAttributes.activityId?
  timers : ∀ id, TimerOutcome.recorded (scan.timers id) = true →
    id ∈ known.filterMap EventAttributes.timerId?
  children : ∀ id, OpOutcome.recorded (scan.children id) = true →
    id ∈ known.filterMap EventAttributes.childId?
  nexusOps : ∀ id, OpOutcome.recorded (scan.nexusOps id) = true →
    ∃ k < known.countP EventAttributes.isNexus, id = toString k
  nexusOpsScheduled : scan.nexusOpsScheduled ≤ known.countP EventAttributes.isNexus
  extSignals : scan.extSignalsInitiated ≤ known.countP EventAttributes.isExtSignal
  upserts : scan.upsertsInitiated ≤ known.countP EventAttributes.isUpsert
  sideEffects : scan.sideEffects.length ≤ (known.filterMap EventAttributes.sideEffect?).length
  localActivities : scan.localActivities.length ≤
    (known.filterMap EventAttributes.localActivity?).length

theorem Recorded.known {scan : Prescan} {rec : List EventAttributes} (h : Recorded scan rec) :
    Known scan rec where
  activities id := (h.activities id).mp
  timers id := (h.timers id).mp
  children id := (h.children id).mp
  nexusOps id := (h.nexusOps id).mp
  nexusOpsScheduled := h.nexusOpsScheduled.le
  extSignals := h.extSignals.le
  upserts := h.upserts.le
  sideEffects := by rw [h.sideEffects]
  localActivities := by rw [h.localActivities]

theorem Known.mono {scan : Prescan} {l l' : List EventAttributes} (h : Known scan l)
    (hl : l <+: l') : Known scan l' where
  activities id hid := (hl.sublist.filterMap _).subset (h.activities id hid)
  timers id hid := (hl.sublist.filterMap _).subset (h.timers id hid)
  children id hid := (hl.sublist.filterMap _).subset (h.children id hid)
  nexusOps id hid := by
    obtain ⟨k, hk, he⟩ := h.nexusOps id hid
    exact ⟨k, hk.trans_le hl.sublist.countP_le, he⟩
  nexusOpsScheduled := h.nexusOpsScheduled.trans hl.sublist.countP_le
  extSignals := h.extSignals.trans hl.sublist.countP_le
  upserts := h.upserts.trans hl.sublist.countP_le
  sideEffects := h.sideEffects.trans (hl.sublist.filterMap _).length_le
  localActivities := h.localActivities.trans (hl.sublist.filterMap _).length_le

section Tables

variable (m : PartialMap String OpOutcome) (t : PartialMap String TimerOutcome) (k j : String)

theorem OpOutcome.recorded_modify {f : OpOutcome → OpOutcome}
    (hf : ∀ o, (f o).scheduled = o.scheduled) :
    OpOutcome.recorded (m.modify k {} f j) = OpOutcome.recorded (m j) := by
  by_cases hj : j = k
  · subst hj
    cases hm : m j <;> simp [OpOutcome.recorded, hm, hf]
  · rw [PartialMap.modify_of_ne _ hj]

theorem OpOutcome.recorded_schedule :
    OpOutcome.recorded (m.modify k {} OpOutcome.schedule j) = true ↔
      OpOutcome.recorded (m j) = true ∨ j = k := by
  by_cases hj : j = k
  · subst hj
    simp [OpOutcome.recorded, OpOutcome.schedule]
  · simp [hj]

theorem TimerOutcome.recorded_modify {f : TimerOutcome → TimerOutcome}
    (hf : ∀ o, (f o).started = o.started) :
    TimerOutcome.recorded (t.modify k {} f j) = TimerOutcome.recorded (t j) := by
  by_cases hj : j = k
  · subst hj
    cases ht : t j <;> simp [TimerOutcome.recorded, ht, hf]
  · rw [PartialMap.modify_of_ne _ hj]

theorem TimerOutcome.recorded_start :
    TimerOutcome.recorded (t.modify k {} (fun o => { o with started := true }) j) = true ↔
      TimerOutcome.recorded (t j) = true ∨ j = k := by
  by_cases hj : j = k
  · subst hj
    simp [TimerOutcome.recorded]
  · simp [hj]

end Tables

namespace Recorded

variable {S : Prescan} {rec : List EventAttributes}

/-- A delivery opens nothing. -/
theorem deliver (h : Recorded S rec) (d : Delivery) : Recorded (S.deliver d) rec := by
  cases d with
  | activity sid c =>
    simp only [Prescan.deliver, Prescan.onActivity]
    split
    · exact { h with
        activities := fun j => by
          rw [← h.activities j]
          simp only [OpOutcome.recorded_modify _ _ _ c.outcome_scheduled] }
    · exact h
  | nexus sid c =>
    simp only [Prescan.deliver, Prescan.onNexus]
    split
    · exact { h with
        nexusOps := fun j => by
          rw [← h.nexusOps j]
          simp only [OpOutcome.recorded_modify _ _ _ c.outcome_scheduled] }
    · exact h
  | child id c =>
    exact { h with
      children := fun j => by
        rw [← h.children j]
        simp only [Prescan.deliver, Prescan.onChild,
          OpOutcome.recorded_modify _ _ _ c.outcome_scheduled] }
  | timer id =>
    exact { h with
      timers := fun j => by
        rw [← h.timers j]
        have ht := TimerOutcome.recorded_modify S.timers id j
          (f := fun o => { o with fired := true }) fun _ => rfl
        simp only [Prescan.deliver, Prescan.onTimer, ht] }
  | signal name input => exact { h with }
  | cancelRequest => exact { h with }

/-- One more command event, field by field. -/
theorem concat (h : Recorded S rec) {S' : Prescan} (a : EventAttributes)
    (ha : ∀ id, OpOutcome.recorded (S'.activities id) = true ↔
      OpOutcome.recorded (S.activities id) = true ∨ a.activityId? = some id)
    (ht : ∀ id, TimerOutcome.recorded (S'.timers id) = true ↔
      TimerOutcome.recorded (S.timers id) = true ∨ a.timerId? = some id)
    (hc : ∀ id, OpOutcome.recorded (S'.children id) = true ↔
      OpOutcome.recorded (S.children id) = true ∨ a.childId? = some id)
    (hn : ∀ id, OpOutcome.recorded (S'.nexusOps id) = true ↔
      OpOutcome.recorded (S.nexusOps id) = true ∨
        a.isNexus = true ∧ id = toString S.nexusOpsScheduled)
    (hns : S'.nexusOpsScheduled = S.nexusOpsScheduled + if a.isNexus then 1 else 0)
    (he : S'.extSignalsInitiated = S.extSignalsInitiated + if a.isExtSignal then 1 else 0)
    (hu : S'.upsertsInitiated = S.upsertsInitiated + if a.isUpsert then 1 else 0)
    (hs : S'.sideEffects = S.sideEffects ++ a.sideEffect?.toList)
    (hl : S'.localActivities = S.localActivities ++ a.localActivity?.toList)
    (hcm : S'.commands = S.commands ++ [a.entry S.nexusOpsScheduled]) :
    Recorded S' (rec ++ [a]) where
  activities id := by simp [ha, h.activities, List.filterMap_append]
  timers id := by simp [ht, h.timers, List.filterMap_append]
  children id := by simp [hc, h.children, List.filterMap_append]
  nexusOps id := by
    rw [hn, h.nexusOps, h.nexusOpsScheduled, List.countP_append, List.countP_singleton]
    cases a.isNexus with
    | false => simp only [Bool.false_eq_true, false_and, or_false, if_false, Nat.add_zero]
    | true =>
      simp only [true_and, if_true, Nat.lt_succ_iff_lt_or_eq, or_and_right, exists_or,
        exists_eq_left]
  nexusOpsScheduled := by rw [hns, h.nexusOpsScheduled, List.countP_append, List.countP_singleton]
  extSignals := by rw [he, h.extSignals, List.countP_append, List.countP_singleton]
  upserts := by rw [hu, h.upserts, List.countP_append, List.countP_singleton]
  sideEffects := by
    rw [hs, h.sideEffects, List.filterMap_append]
    cases hx : a.sideEffect? <;> simp [hx]
  localActivities := by
    rw [hl, h.localActivities, List.filterMap_append]
    cases hx : a.localActivity? <;> simp [hx]
  commands := by rw [hcm, h.commands, entriesFrom_concat, h.nexusOpsScheduled, Nat.zero_add]

/-- An event that opens no operation. -/
theorem concat_same (h : Recorded S rec) {S' : Prescan} (hS : SameTables S S')
    (a : EventAttributes) (ha : a.activityId? = none) (ht : a.timerId? = none)
    (hc : a.childId? = none) (hn : a.isNexus = false)
    (he : S'.extSignalsInitiated = S.extSignalsInitiated + if a.isExtSignal then 1 else 0)
    (hu : S'.upsertsInitiated = S.upsertsInitiated + if a.isUpsert then 1 else 0)
    (hs : S'.sideEffects = S.sideEffects ++ a.sideEffect?.toList)
    (hl : S'.localActivities = S.localActivities ++ a.localActivity?.toList)
    (hcm : S'.commands = S.commands ++ [a.entry S.nexusOpsScheduled]) :
    Recorded S' (rec ++ [a]) := by
  refine h.concat a (fun id => ?_) (fun id => ?_) (fun id => ?_) (fun k => ?_) ?_ he hu hs hl hcm
  · simp only [hS.activities, ha, reduceCtorEq, or_false]
  · simp only [hS.timers, ht, reduceCtorEq, or_false]
  · simp only [hS.children, hc, reduceCtorEq, or_false]
  · simp only [hS.nexusOps, hn, Bool.false_eq_true, false_and, or_false]
  · simp only [hS.nexusOpsScheduled, hn, Bool.false_eq_true, if_false, Nat.add_zero]

/-- An event that is only recorded for the determinism check. -/
theorem pushCommand (h : Recorded S rec) (a : EventAttributes) {kind : CommandKind}
    {id name : String} (hentry : a.entry S.nexusOpsScheduled = ⟨kind, id, name⟩)
    (ha : a.activityId? = none) (ht : a.timerId? = none) (hc : a.childId? = none)
    (hn : a.isNexus = false) (he : a.isExtSignal = false) (hu : a.isUpsert = false)
    (hs : a.sideEffect? = none) (hl : a.localActivity? = none) :
    Recorded (S.pushCommand kind id name) (rec ++ [a]) := by
  have hS : SameTables S (S.pushCommand kind id name) := ⟨rfl, rfl, rfl, rfl, rfl, rfl, rfl⟩
  refine h.concat_same hS a ha ht hc hn ?_ ?_ ?_ ?_ ?_
  · simp [he, Prescan.pushCommand]
  · simp [hu, Prescan.pushCommand]
  · simp [hs, Prescan.pushCommand]
  · simp [hl, Prescan.pushCommand]
  · rw [hentry, Prescan.pushCommand]

theorem scanMarker (h : Recorded S rec) (name : String) (details : List (String × Payloads)) :
    Recorded ((S.pushCommand .marker name "").scanMarker name details)
      (rec ++ [.markerRecorded name details]) := by
  have hm := Prescan.scanMarker_sameTables (S.pushCommand .marker name "") name details
  have hS : SameTables S ((S.pushCommand .marker name "").scanMarker name details) :=
    ⟨hm.1, hm.2, hm.3, hm.4, hm.5, hm.6, hm.7⟩
  refine h.concat_same hS _ rfl rfl rfl rfl ?_ ?_ ?_ ?_ ?_ <;>
    simp only [Prescan.scanMarker, EventAttributes.sideEffect?, EventAttributes.localActivity?,
      EventAttributes.isExtSignal, EventAttributes.isUpsert, Bool.false_eq_true, if_false,
      Nat.add_zero]
  · split_ifs <;> (try split) <;> rfl
  · split_ifs <;> (try split) <;> rfl
  · by_cases hse : name = "SideEffect"
    · rw [if_pos hse, if_pos hse]
      rcases details.lookup "data" with _ | _ | _ <;> simp [Prescan.pushCommand]
    · simp only [if_neg hse, Option.toList_none, List.append_nil]
      split_ifs <;> (try split) <;> rfl
  · by_cases hla : name = "LocalActivity"
    · subst hla
      simp [Prescan.pushCommand]
    · simp only [if_neg hla, Option.toList_none, List.append_nil]
      split_ifs <;> (try split) <;> rfl
  · split_ifs <;> (try split) <;> rfl

/-- The scan of one event reads it, if it is a command event. -/
theorem scanEvent (h : Recorded S rec) (e : HistoryEvent) :
    Recorded (S.scanEvent e) (rec ++ History.commandEvents [e]) := by
  cases hd : e.attributes.delivery? with
  | some d =>
    have hc : History.commandEvents [e] = [] := by
      obtain ⟨eid, a⟩ := e
      cases a <;> first
        | rfl
        | cases hd
    rw [S.scanEvent_deliver hd, hc, List.append_nil]
    exact h.deliver d
  | none =>
    obtain ⟨eid, a⟩ := e
    cases a with
    | markerRecorded name details => exact h.scanMarker name details
    | activityTaskScheduled id type =>
      refine h.concat (.activityTaskScheduled id type) (fun j => ?_)
        (fun _ => (or_iff_left nofun).symm) (fun _ => (or_iff_left nofun).symm)
        (fun _ => (or_iff_left nofun).symm) rfl rfl rfl (List.append_nil _).symm
        (List.append_nil _).symm rfl
      rw [EventAttributes.activityId?, Option.some_inj, eq_comm (a := id)]
      exact OpOutcome.recorded_schedule S.activities id j
    | timerStarted id =>
      refine h.concat (.timerStarted id) (fun _ => (or_iff_left nofun).symm) (fun j => ?_)
        (fun _ => (or_iff_left nofun).symm) (fun _ => (or_iff_left nofun).symm) rfl rfl rfl
        (List.append_nil _).symm (List.append_nil _).symm rfl
      rw [EventAttributes.timerId?, Option.some_inj, eq_comm (a := id)]
      exact TimerOutcome.recorded_start S.timers id j
    | startChildWorkflowExecutionInitiated id type =>
      refine h.concat (.startChildWorkflowExecutionInitiated id type)
        (fun _ => (or_iff_left nofun).symm) (fun _ => (or_iff_left nofun).symm) (fun j => ?_)
        (fun _ => (or_iff_left nofun).symm) rfl rfl rfl (List.append_nil _).symm
        (List.append_nil _).symm rfl
      rw [EventAttributes.childId?, Option.some_inj, eq_comm (a := id)]
      exact OpOutcome.recorded_schedule S.children id j
    | nexusOperationScheduled =>
      refine h.concat .nexusOperationScheduled (fun _ => (or_iff_left nofun).symm)
        (fun _ => (or_iff_left nofun).symm) (fun _ => (or_iff_left nofun).symm) (fun id => ?_)
        rfl rfl rfl (List.append_nil _).symm (List.append_nil _).symm rfl
      simp only [EventAttributes.isNexus, true_and]
      exact OpOutcome.recorded_schedule S.nexusOps (toString S.nexusOpsScheduled) id
    | activityTaskCancelRequested sid =>
      have hp : Recorded (S.pushCommand .requestCancelActivity (toString sid) "")
          (rec ++ [.activityTaskCancelRequested sid]) :=
        h.pushCommand _ rfl rfl rfl rfl rfl rfl rfl rfl rfl
      change Recorded (Prescan.onActivity _ sid OpOutcome.requestCancel) _
      unfold Prescan.onActivity
      split
      · next id _ =>
        exact { hp with
          activities := fun j => by
            rw [OpOutcome.recorded_modify (f := OpOutcome.requestCancel) _ id j fun _ => rfl]
            exact hp.activities j }
      · exact hp
    | requestCancelExternalWorkflowExecutionInitiated id =>
      have hp : Recorded (S.pushCommand .requestCancelExternalWorkflow id "")
          (rec ++ [.requestCancelExternalWorkflowExecutionInitiated id]) :=
        h.pushCommand _ rfl rfl rfl rfl rfl rfl rfl rfl rfl
      exact { hp with
        children := fun j => by
          have hm := OpOutcome.recorded_modify S.children id j (f := OpOutcome.requestCancel)
            fun _ => rfl
          change OpOutcome.recorded (S.children.modify id {} OpOutcome.requestCancel j) = true ↔ _
          rw [hm]
          exact hp.children j }
    | timerCanceled id =>
      have hp : Recorded (S.pushCommand .cancelTimer id "") (rec ++ [.timerCanceled id]) :=
        h.pushCommand _ rfl rfl rfl rfl rfl rfl rfl rfl rfl
      exact { hp with
        timers := fun j => by
          have hm := TimerOutcome.recorded_modify S.timers id j
            (f := fun o => { o with cancelled := true }) fun _ => rfl
          change TimerOutcome.recorded
            (S.timers.modify id {} (fun o => { o with cancelled := true }) j) = true ↔ _
          rw [hm]
          exact hp.timers j }
    | signalExternalWorkflowExecutionInitiated id =>
      have hS : SameTables S (S.scanEvent ⟨eid, .signalExternalWorkflowExecutionInitiated id⟩) :=
        ⟨rfl, rfl, rfl, rfl, rfl, rfl, rfl⟩
      exact h.concat_same hS (.signalExternalWorkflowExecutionInitiated id) rfl rfl rfl rfl rfl rfl
        (List.append_nil _).symm (List.append_nil _).symm rfl
    | upsertWorkflowSearchAttributes =>
      have hS : SameTables S (S.scanEvent ⟨eid, .upsertWorkflowSearchAttributes⟩) :=
        ⟨rfl, rfl, rfl, rfl, rfl, rfl, rfl⟩
      exact h.concat_same hS .upsertWorkflowSearchAttributes rfl rfl rfl rfl rfl rfl
        (List.append_nil _).symm (List.append_nil _).symm rfl
    | _ => first
      | exact absurd hd (Option.some_ne_none _)
      | exact h.pushCommand _ rfl rfl rfl rfl rfl rfl rfl rfl rfl
      | exact (List.append_nil rec).symm ▸ { h with }

/-- Held back or not, an event leaves the record right. -/
theorem scanStep {s : Prescan × Bool} (h : Recorded s.1 rec) (e : HistoryEvent) :
    Recorded (TemporalSdk.scanStep s e).1 (rec ++ History.commandEvents [e]) := by
  have h' : Recorded { s.1 with lastEventId := e.eventId } rec := { h with }
  unfold TemporalSdk.scanStep
  dsimp only
  split
  · next hdef =>
    have hd : isDeferredOnReplay e.attributes = true := (Bool.and_eq_true_iff.mp hdef).2
    have hc : History.commandEvents [e] = [] := by
      obtain ⟨eid, a⟩ := e
      cases a <;> first
        | rfl
        | cases hd
    rw [hc, List.append_nil]
    exact { h' with }
  · exact h'.scanEvent e

end Recorded

/-- The scan of a history has read its command events. -/
theorem scanHistory_recorded (h : History) :
    Recorded (scanHistory h) (History.commandEvents h) := by
  unfold scanHistory
  induction h using List.reverseRecOn with
  | nil =>
    constructor <;> simp [History.commandEvents, OpOutcome.recorded, TimerOutcome.recorded,
      entriesFrom]
  | append_singleton p e ih =>
    rw [List.foldl_append, History.commandEvents_append]
    exact ih.scanStep e

/-- So has the scan that holds nothing back. -/
theorem scanAll_recorded (h : History) : Recorded (scanAll h) (History.commandEvents h) := by
  induction h using List.reverseRecOn with
  | nil => exact scanHistory_recorded []
  | append_singleton p e ih =>
    rw [scanAll_concat, History.commandEvents_append]
    have ih' : Recorded { scanAll p with lastEventId := e.eventId } (History.commandEvents p) :=
      { ih with }
    exact ih'.scanEvent e

section Applied

variable {σ : Type}

/-- What a runner learns from an event of a continuation is in its command events. -/
theorem Known.applyEventToState {r : Runner σ} {l : List EventAttributes} (h : Known r.scan l)
    (e : HistoryEvent) :
    Known (r.applyEventToState e).scan (l ++ History.commandEvents [e]) := by
  have hl := h.mono (List.prefix_append l (History.commandEvents [e]))
  obtain ⟨eid, a⟩ := e
  cases a with
  | activityTaskScheduled id type => exact { hl with }
  | nexusOperationScheduled =>
    have hcount : (l ++ History.commandEvents [⟨eid, .nexusOperationScheduled⟩]).countP
        EventAttributes.isNexus = l.countP EventAttributes.isNexus + 1 := by
      rw [List.countP_append]
      rfl
    refine { hl with nexusOps := fun id hid => ?_, nexusOpsScheduled := ?_ }
    · rcases (OpOutcome.recorded_schedule r.scan.nexusOps
        (toString r.scan.nexusOpsScheduled) id).mp hid with hid | hid
      · exact hl.nexusOps id hid
      · rw [hcount]
        exact ⟨_, Nat.lt_succ_of_le h.nexusOpsScheduled, hid⟩
    · rw [hcount]
      exact Nat.succ_le_succ h.nexusOpsScheduled
  | activityTaskCancelRequested sid =>
    change Known (r.scan.onActivity sid OpOutcome.requestCancel) _
    unfold Prescan.onActivity
    split
    · next id _ =>
      refine { hl with activities := fun j hj => ?_ }
      rw [OpOutcome.recorded_modify (f := OpOutcome.requestCancel) _ id j fun _ => rfl] at hj
      exact hl.activities j hj
    · exact hl
  | workflowExecutionSignaled name input => exact { hl with }
  | workflowExecutionCancelRequested =>
    have hs := Runner.foldl_setFuture_scan r.cancelFutures
      { r with scan := { r.scan with cancelRequested := true } }
    simp only [Runner.applyEventToState, hs]
    exact { hl with }
  | _ => first
    | exact hl
    | (change Known (Runner.resolveFuture _ _ _).scan _; rw [Runner.resolveFuture_scan]; exact hl)

theorem Known.applyEvents {r : Runner σ} {l : List EventAttributes} (h : Known r.scan l)
    (evs : History) : Known (r.applyEvents evs).scan (l ++ History.commandEvents evs) := by
  induction evs generalizing r l with
  | nil =>
    rw [show History.commandEvents [] = [] from rfl, List.append_nil]
    exact h
  | cons e evs ih =>
    have hsplit : History.commandEvents (e :: evs) =
        History.commandEvents [e] ++ History.commandEvents evs :=
      History.commandEvents_append [e] evs
    rw [hsplit, ← List.append_assoc]
    by_cases hst : e.eventId ≤ r.scan.lastEventId
    · rw [r.applyEvents_cons_stale hst]
      exact ih (h.mono (List.prefix_append ..))
    · rw [r.applyEvents_cons_new (Nat.lt_of_not_le hst)]
      exact ih { h.applyEventToState e with }

end Applied
end TemporalSdk
