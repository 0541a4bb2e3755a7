import TemporalSdk.WellFormed
import TemporalSdk.Lib.Tracking

/-! What the prescan knows after a well-formed history: every open operation has an entry
that its closing event will find, and the entry says whether it has been closed. -/
namespace TemporalSdk
open Tracking

/-- An entry of an outcome table that a scan can hold: only scheduled operations resolve, and
an unresolved entry has no outcome yet. -/
structure OpOutcome.Valid (o : OpOutcome) : Prop where
  scheduled : o.resolved = true → o.scheduled = true
  failed : o.resolved = false → o.failed = false
  result : o.resolved = false → o.result = []
  failureType : o.resolved = false → o.failureType = ""
  failureMessage : o.resolved = false → o.failureMessage = ""

theorem OpOutcome.Valid.schedule {o : OpOutcome} (h : o.Valid) : o.schedule.Valid :=
  ⟨fun _ => rfl, h.failed, h.result, h.failureType, h.failureMessage⟩

theorem OpOutcome.Valid.requestCancel {o : OpOutcome} (h : o.Valid) : o.requestCancel.Valid :=
  ⟨h.scheduled, h.failed, h.result, h.failureType, h.failureMessage⟩

/-- A completed result leaves no failure behind, and a failure no result. -/
theorem Closing.outcome_eq (c : Closing) {o : OpOutcome} (h : o.Valid) (hr : o.resolved = false) :
    c.outcome o = match c with
      | .completed result =>
        { scheduled := o.scheduled, cancelRequested := o.cancelRequested, resolved := true, result }
      | .failed type message =>
        { scheduled := o.scheduled, cancelRequested := o.cancelRequested, resolved := true,
          failed := true, failureType := type, failureMessage := message } := by
  cases c <;>
    simp [Closing.outcome, OpOutcome.complete, OpOutcome.fail, h.failed hr, h.result hr,
      h.failureType hr, h.failureMessage hr]

theorem Closing.outcome_scheduled (c : Closing) (o : OpOutcome) :
    (c.outcome o).scheduled = o.scheduled := by cases c <;> rfl

theorem Closing.outcome_resolved (c : Closing) (o : OpOutcome) :
    (c.outcome o).resolved = true := by cases c <;> rfl

theorem Closing.outcome_valid (c : Closing) {o : OpOutcome} (h : o.scheduled = true) :
    (c.outcome o).Valid := by
  constructor <;> simp [c.outcome_resolved, c.outcome_scheduled, h]

/-- Activities, children and Nexus operations. -/
def OpOutcome.kind : Kind OpOutcome where
  blank := {}
  opened := OpOutcome.scheduled
  closed := OpOutcome.resolved
  Good := OpOutcome.Valid
  good_blank := by constructor <;> simp
  opened_blank := rfl
  opened_of_closed _ h := h.scheduled

def TimerOutcome.kind : Kind TimerOutcome where
  blank := {}
  opened := TimerOutcome.started
  closed := TimerOutcome.fired
  Good o := o.fired = true → o.started = true
  good_blank := by simp
  opened_blank := rfl
  opened_of_closed _ h := h

def History.opened (h : History) : List OpRef := h.filterMap HistoryEvent.opens

def History.closed (h : History) : List OpRef := h.filterMap HistoryEvent.closes

theorem History.mem_opened_concat {p : History} {e : HistoryEvent} {k : OpRef} :
    k ∈ History.opened (p ++ [e]) ↔ k ∈ History.opened p ∨ e.opens = some k := by
  simp [History.opened, List.filterMap_append]

theorem History.mem_closed_concat {p : History} {e : HistoryEvent} {k : OpRef} :
    k ∈ History.closed (p ++ [e]) ↔ k ∈ History.closed p ∨ e.closes = some k := by
  simp [History.closed, List.filterMap_append]

/-- The outcome tables against the operations a history opens and closes. -/
structure Indexed (S : Prescan) (h : History) : Prop where
  activities : TracksBy OpOutcome.kind S.schedEventToActivity S.activities
    (fun sid => .activity sid ∈ History.opened h) (fun sid => .activity sid ∈ History.closed h)
  activityIds : ∀ sid id, S.schedEventToActivity sid = some id →
    id ∈ h.filterMap HistoryEvent.activityId?
  nexusOps : TracksBy OpOutcome.kind S.schedEventToNexus S.nexusOps
    (fun sid => .nexus sid ∈ History.opened h) (fun sid => .nexus sid ∈ History.closed h)
  nexusIds : ∀ sid id, S.schedEventToNexus sid = some id →
    ∃ k < S.nexusOpsScheduled, id = toString k
  children : Tracks OpOutcome.kind S.children
    (fun id => .child id ∈ History.opened h) (fun id => .child id ∈ History.closed h)
  timers : Tracks TimerOutcome.kind S.timers
    (fun id => .timer id ∈ History.opened h) (fun id => .timer id ∈ History.closed h)


theorem WellFormed.not_mem_opened {p : History} {e : HistoryEvent} {k : OpRef}
    (wf : WellFormed (p ++ [e])) (he : e.opens = some k) : k ∉ History.opened p := by
  have h := wf.opened
  rw [List.filterMap_append, List.nodup_append] at h
  intro hk
  exact h.2.2 k hk k (by simp [he]) rfl

theorem WellFormed.not_mem_closed {p : History} {e : HistoryEvent} {k : OpRef}
    (wf : WellFormed (p ++ [e])) (he : e.closes = some k) : k ∉ History.closed p := by
  have h := wf.closed
  rw [List.filterMap_append, List.nodup_append] at h
  intro hk
  exact h.2.2 k hk k (by simp [he]) rfl

theorem WellFormed.mem_opened {p : History} {e : HistoryEvent} {k : OpRef}
    (wf : WellFormed (p ++ [e])) (he : e.closes = some k) : k ∈ History.opened p :=
  wf.mem_opens_of_closes he

theorem WellFormed.closed_subset {h : History} (wf : WellFormed h) :
    History.closed h ⊆ History.opened h := by
  intro k hk
  obtain ⟨e, he, hek⟩ := List.mem_filterMap.mp hk
  obtain ⟨p, s, rfl⟩ := List.append_of_mem he
  have hp := wf.mem_opens_of_closes hek
  simp only [History.opened, List.filterMap_append, List.mem_append]
  exact .inl hp

/-- A fresh operation is neither open nor closed before its event. -/
theorem WellFormed.fresh {p : History} {e : HistoryEvent} {k : OpRef}
    (wf : WellFormed (p ++ [e])) (he : e.opens = some k) :
    k ∉ History.opened p ∧ k ∉ History.closed p :=
  ⟨wf.not_mem_opened he, fun h => wf.not_mem_opened he (wf.left.closed_subset h)⟩

/-- Two scans with the same outcome tables. -/
structure SameTables (S S' : Prescan) : Prop where
  activities : S'.activities = S.activities
  schedEventToActivity : S'.schedEventToActivity = S.schedEventToActivity
  nexusOps : S'.nexusOps = S.nexusOps
  schedEventToNexus : S'.schedEventToNexus = S.schedEventToNexus
  nexusOpsScheduled : S'.nexusOpsScheduled = S.nexusOpsScheduled
  children : S'.children = S.children
  timers : S'.timers = S.timers

theorem Prescan.scanMarker_sameTables (S : Prescan) (name : String)
    (details : List (String × Payloads)) : SameTables S (S.scanMarker name details) := by
  unfold Prescan.scanMarker
  split
  · split <;> exact ⟨rfl, rfl, rfl, rfl, rfl, rfl, rfl⟩
  · split
    · split <;> exact ⟨rfl, rfl, rfl, rfl, rfl, rfl, rfl⟩
    · split
      · split <;> exact ⟨rfl, rfl, rfl, rfl, rfl, rfl, rfl⟩
      · split <;> exact ⟨rfl, rfl, rfl, rfl, rfl, rfl, rfl⟩

namespace Indexed

variable {S S' : Prescan} {p : History} {e : HistoryEvent}

theorem nil : Indexed {} [] where
  activities := TracksBy.empty.congr (by simp [History.opened]) fun _ => Iff.rfl
  activityIds _ _ h := by cases h
  nexusOps := TracksBy.empty.congr (by simp [History.opened]) fun _ => Iff.rfl
  nexusIds _ _ h := by cases h
  children := Tracks.empty.congr (by simp [History.opened]) fun _ => Iff.rfl
  timers := Tracks.empty.congr (by simp [History.opened]) fun _ => Iff.rfl

section Frame

variable (h : Indexed S p)
include h

theorem activities_frame (ho : ∀ sid, e.opens ≠ some (.activity sid))
    (hc : ∀ sid, e.closes ≠ some (.activity sid)) :
    TracksBy OpOutcome.kind S.schedEventToActivity S.activities
      (fun sid => .activity sid ∈ History.opened (p ++ [e]))
      (fun sid => .activity sid ∈ History.closed (p ++ [e])) :=
  h.activities.congr (by simp [History.mem_opened_concat, ho])
    (by simp [History.mem_closed_concat, hc])

theorem activityIds_frame (sid : Nat) (id : String) (hid : S.schedEventToActivity sid = some id) :
    id ∈ (p ++ [e]).filterMap HistoryEvent.activityId? := by
  rw [List.filterMap_append]
  exact List.mem_append_left _ (h.activityIds sid id hid)

theorem nexusOps_frame (ho : ∀ sid, e.opens ≠ some (.nexus sid))
    (hc : ∀ sid, e.closes ≠ some (.nexus sid)) :
    TracksBy OpOutcome.kind S.schedEventToNexus S.nexusOps
      (fun sid => .nexus sid ∈ History.opened (p ++ [e]))
      (fun sid => .nexus sid ∈ History.closed (p ++ [e])) :=
  h.nexusOps.congr (by simp [History.mem_opened_concat, ho])
    (by simp [History.mem_closed_concat, hc])

theorem children_frame (ho : ∀ id, e.opens ≠ some (.child id))
    (hc : ∀ id, e.closes ≠ some (.child id)) :
    Tracks OpOutcome.kind S.children (fun id => .child id ∈ History.opened (p ++ [e]))
      (fun id => .child id ∈ History.closed (p ++ [e])) :=
  h.children.congr (by simp [History.mem_opened_concat, ho])
    (by simp [History.mem_closed_concat, hc])

theorem timers_frame (ho : ∀ id, e.opens ≠ some (.timer id))
    (hc : ∀ id, e.closes ≠ some (.timer id)) :
    Tracks TimerOutcome.kind S.timers (fun id => .timer id ∈ History.opened (p ++ [e]))
      (fun id => .timer id ∈ History.closed (p ++ [e])) :=
  h.timers.congr (by simp [History.mem_opened_concat, ho])
    (by simp [History.mem_closed_concat, hc])

/-- Events that touch no table. -/
theorem same (hs : SameTables S S') (ho : e.opens = none) (hc : e.closes = none) :
    Indexed S' (p ++ [e]) where
  activities := by
    rw [hs.activities, hs.schedEventToActivity]
    exact h.activities_frame (by simp [ho]) (by simp [hc])
  activityIds := by
    rw [hs.schedEventToActivity]
    exact h.activityIds_frame
  nexusOps := by
    rw [hs.nexusOps, hs.schedEventToNexus]
    exact h.nexusOps_frame (by simp [ho]) (by simp [hc])
  nexusIds := by
    rw [hs.schedEventToNexus, hs.nexusOpsScheduled]
    exact h.nexusIds
  children := by
    rw [hs.children]
    exact h.children_frame (by simp [ho]) (by simp [hc])
  timers := by
    rw [hs.timers]
    exact h.timers_frame (by simp [ho]) (by simp [hc])

end Frame

section Opening

variable {eid : Nat} {id type : String}

theorem activityId_unused (h : Indexed S p)
    (wf : WellFormed (p ++ [⟨eid, .activityTaskScheduled id type⟩])) (sid : Nat) :
    S.schedEventToActivity sid ≠ some id := by
  intro hs
  have hn := wf.activityIds
  rw [List.filterMap_append, List.nodup_append] at hn
  exact hn.2.2 id (h.activityIds sid id hs) id (by simp [HistoryEvent.activityId?]) rfl

/-- Ordinals below the counter are taken, the counter itself is free. -/
theorem nexusId_unused (h : Indexed S p) (sid : Nat) :
    S.schedEventToNexus sid ≠ some (toString S.nexusOpsScheduled) := by
  intro hs
  obtain ⟨k, hk, he⟩ := h.nexusIds sid _ hs
  have := toString_nat_injective he
  omega

theorem activityTaskScheduled (h : Indexed S p)
    (wf : WellFormed (p ++ [⟨eid, .activityTaskScheduled id type⟩])) :
    Indexed (S.scanOne ⟨eid, .activityTaskScheduled id type⟩)
      (p ++ [⟨eid, .activityTaskScheduled id type⟩]) where
  activities := by
    have hid := h.activityId_unused wf
    obtain ⟨ho, hc⟩ := wf.fresh (k := .activity eid) rfl
    exact h.activities.opening hid ho hc (fun _ => rfl) (fun _ => rfl)
      (fun _ => OpOutcome.Valid.schedule)
      (by simp [History.mem_opened_concat, HistoryEvent.opens, eq_comm])
      (by simp [History.mem_closed_concat, HistoryEvent.closes, EventAttributes.delivery?])
  activityIds sid j hs := by
    change S.schedEventToActivity.insert eid id sid = some j at hs
    rw [PartialMap.insert_apply] at hs
    rw [List.filterMap_append]
    split at hs
    · cases hs
      simp [HistoryEvent.activityId?]
    · exact List.mem_append_left _ (h.activityIds sid j hs)
  nexusOps := h.nexusOps_frame (by simp [HistoryEvent.opens])
    (by simp [HistoryEvent.closes, EventAttributes.delivery?])
  nexusIds := h.nexusIds
  children := h.children_frame (by simp [HistoryEvent.opens])
    (by simp [HistoryEvent.closes, EventAttributes.delivery?])
  timers := h.timers_frame (by simp [HistoryEvent.opens])
    (by simp [HistoryEvent.closes, EventAttributes.delivery?])

theorem nexusOperationScheduled (h : Indexed S p)
    (wf : WellFormed (p ++ [⟨eid, .nexusOperationScheduled⟩])) :
    Indexed (S.scanOne ⟨eid, .nexusOperationScheduled⟩)
      (p ++ [⟨eid, .nexusOperationScheduled⟩]) where
  activities := h.activities_frame (by simp [HistoryEvent.opens])
    (by simp [HistoryEvent.closes, EventAttributes.delivery?])
  activityIds := h.activityIds_frame
  nexusOps := by
    have hid := h.nexusId_unused
    obtain ⟨ho, hc⟩ := wf.fresh (k := .nexus eid) rfl
    exact h.nexusOps.opening hid ho hc (fun _ => rfl) (fun _ => rfl)
      (fun _ => OpOutcome.Valid.schedule)
      (by simp [History.mem_opened_concat, HistoryEvent.opens, eq_comm])
      (by simp [History.mem_closed_concat, HistoryEvent.closes, EventAttributes.delivery?])
  nexusIds sid j hs := by
    change S.schedEventToNexus.insert eid (toString S.nexusOpsScheduled) sid = some j at hs
    change ∃ k < S.nexusOpsScheduled + 1, j = toString k
    rw [PartialMap.insert_apply] at hs
    split at hs
    · cases hs
      exact ⟨_, Nat.lt_succ_self _, rfl⟩
    · obtain ⟨k, hk, he⟩ := h.nexusIds sid j hs
      exact ⟨k, Nat.lt_succ_of_lt hk, he⟩
  children := h.children_frame (by simp [HistoryEvent.opens])
    (by simp [HistoryEvent.closes, EventAttributes.delivery?])
  timers := h.timers_frame (by simp [HistoryEvent.opens])
    (by simp [HistoryEvent.closes, EventAttributes.delivery?])

theorem startChildWorkflowExecutionInitiated (h : Indexed S p)
    (wf : WellFormed (p ++ [⟨eid, .startChildWorkflowExecutionInitiated id type⟩])) :
    Indexed (S.scanOne ⟨eid, .startChildWorkflowExecutionInitiated id type⟩)
      (p ++ [⟨eid, .startChildWorkflowExecutionInitiated id type⟩]) where
  activities := h.activities_frame (by simp [HistoryEvent.opens])
    (by simp [HistoryEvent.closes, EventAttributes.delivery?])
  activityIds := h.activityIds_frame
  nexusOps := h.nexusOps_frame (by simp [HistoryEvent.opens])
    (by simp [HistoryEvent.closes, EventAttributes.delivery?])
  nexusIds := h.nexusIds
  children := by
    obtain ⟨ho, hc⟩ := wf.fresh (k := .child id) rfl
    exact h.children.opening ho hc (fun _ => rfl) (fun _ => rfl)
      (fun _ => OpOutcome.Valid.schedule)
      (by simp [History.mem_opened_concat, HistoryEvent.opens, eq_comm])
      (by simp [History.mem_closed_concat, HistoryEvent.closes, EventAttributes.delivery?])
  timers := h.timers_frame (by simp [HistoryEvent.opens])
    (by simp [HistoryEvent.closes, EventAttributes.delivery?])

theorem timerStarted (h : Indexed S p) (wf : WellFormed (p ++ [⟨eid, .timerStarted id⟩])) :
    Indexed (S.scanOne ⟨eid, .timerStarted id⟩) (p ++ [⟨eid, .timerStarted id⟩]) where
  activities := h.activities_frame (by simp [HistoryEvent.opens])
    (by simp [HistoryEvent.closes, EventAttributes.delivery?])
  activityIds := h.activityIds_frame
  nexusOps := h.nexusOps_frame (by simp [HistoryEvent.opens])
    (by simp [HistoryEvent.closes, EventAttributes.delivery?])
  nexusIds := h.nexusIds
  children := h.children_frame (by simp [HistoryEvent.opens])
    (by simp [HistoryEvent.closes, EventAttributes.delivery?])
  timers := by
    obtain ⟨ho, hc⟩ := wf.fresh (k := .timer id) rfl
    exact h.timers.opening (f := fun o => { o with started := true }) ho hc (fun _ => rfl)
      (fun _ => rfl) (fun _ _ _ => rfl)
      (by simp [History.mem_opened_concat, HistoryEvent.opens, eq_comm])
      (by simp [History.mem_closed_concat, HistoryEvent.closes, EventAttributes.delivery?])

end Opening

section Requests

variable {eid sid : Nat} {id : String}

theorem activityTaskCancelRequested (h : Indexed S p) :
    Indexed (S.scanOne ⟨eid, .activityTaskCancelRequested sid⟩)
      (p ++ [⟨eid, .activityTaskCancelRequested sid⟩]) := by
  have hs : S.scanOne ⟨eid, .activityTaskCancelRequested sid⟩ =
      ({ S with lastEventId := eid }.pushCommand .requestCancelActivity
        (toString sid) "").onActivity sid OpOutcome.requestCancel := rfl
  rw [hs]
  unfold Prescan.onActivity
  split
  · next id hid =>
    have hm :
        Indexed { S with activities := S.activities.modify id {} OpOutcome.requestCancel } p :=
      { h with
        activities := h.activities.modify (f := OpOutcome.requestCancel) id (fun _ => rfl)
          (fun _ => rfl) (fun _ => OpOutcome.Valid.requestCancel) }
    exact hm.same ⟨rfl, rfl, rfl, rfl, rfl, rfl, rfl⟩ rfl rfl
  · exact h.same ⟨rfl, rfl, rfl, rfl, rfl, rfl, rfl⟩ rfl rfl

theorem requestCancelExternalWorkflowExecutionInitiated (h : Indexed S p) :
    Indexed (S.scanOne ⟨eid, .requestCancelExternalWorkflowExecutionInitiated id⟩)
      (p ++ [⟨eid, .requestCancelExternalWorkflowExecutionInitiated id⟩]) := by
  have hm : Indexed { S with children := S.children.modify id {} OpOutcome.requestCancel } p :=
    { h with
      children := h.children.modify (f := OpOutcome.requestCancel) id (fun _ => rfl)
        (fun _ => rfl) (fun _ => OpOutcome.Valid.requestCancel) }
  exact hm.same ⟨rfl, rfl, rfl, rfl, rfl, rfl, rfl⟩ rfl rfl

end Requests

/-- The end of an open operation, a signal or the cancel request. -/
theorem deliver (h : Indexed S p) {d : Delivery} (hd : e.attributes.delivery? = some d)
    (hk : ∀ k, d.closes = some k → k ∈ History.opened p) :
    Indexed (S.scanOne e) (p ++ [e]) := by
  have ho : e.opens = none := by
    obtain ⟨eid, a⟩ := e
    cases a <;> first | rfl | cases hd
  have hcl : e.closes = d.closes := by simp [HistoryEvent.closes, hd]
  rw [Prescan.scanOne, Prescan.scanEvent_deliver _ hd]
  cases d with
  | activity sid c =>
    obtain ⟨id, hid⟩ := (h.activities.known sid).mp (hk _ rfl)
    have hs : { S with lastEventId := e.eventId }.deliver (.activity sid c) =
        { S with
          lastEventId := e.eventId, activities := S.activities.modify id {} c.outcome } := by
      simp [Prescan.deliver, Prescan.onActivity, hid]
    rw [hs]
    refine ⟨?_, h.activityIds_frame, h.nexusOps_frame ?_ ?_, h.nexusIds, h.children_frame ?_ ?_,
      h.timers_frame ?_ ?_⟩ <;> try simp [ho, hcl, Delivery.closes]
    exact h.activities.closing hid c.outcome_scheduled c.outcome_resolved
      (fun o ho _ => c.outcome_valid ho) (by simp [History.mem_opened_concat, ho])
      (by simp [History.mem_closed_concat, hcl, Delivery.closes, eq_comm])
  | nexus sid c =>
    obtain ⟨id, hid⟩ := (h.nexusOps.known sid).mp (hk _ rfl)
    have hs : { S with lastEventId := e.eventId }.deliver (.nexus sid c) =
        { S with
          lastEventId := e.eventId, nexusOps := S.nexusOps.modify id {} c.outcome } := by
      simp [Prescan.deliver, Prescan.onNexus, hid]
    rw [hs]
    refine ⟨h.activities_frame ?_ ?_, h.activityIds_frame, ?_, h.nexusIds, h.children_frame ?_ ?_,
      h.timers_frame ?_ ?_⟩ <;> try simp [ho, hcl, Delivery.closes]
    exact h.nexusOps.closing hid c.outcome_scheduled c.outcome_resolved
      (fun o ho _ => c.outcome_valid ho) (by simp [History.mem_opened_concat, ho])
      (by simp [History.mem_closed_concat, hcl, Delivery.closes, eq_comm])
  | child id c =>
    refine ⟨h.activities_frame ?_ ?_, h.activityIds_frame, h.nexusOps_frame ?_ ?_, h.nexusIds, ?_,
      h.timers_frame ?_ ?_⟩ <;> try simp [ho, hcl, Delivery.closes]
    exact h.children.closing (hk _ rfl) c.outcome_scheduled c.outcome_resolved
      (fun o ho _ => c.outcome_valid ho) (by simp [History.mem_opened_concat, ho])
      (by simp [History.mem_closed_concat, hcl, Delivery.closes, eq_comm])
  | timer id =>
    refine ⟨h.activities_frame ?_ ?_, h.activityIds_frame, h.nexusOps_frame ?_ ?_, h.nexusIds,
      h.children_frame ?_ ?_, ?_⟩ <;> try simp [ho, hcl, Delivery.closes]
    exact h.timers.closing (f := fun o => { o with fired := true }) (hk _ rfl) (fun _ => rfl)
      (fun _ => rfl) (fun _ hs _ _ => hs) (by simp [History.mem_opened_concat, ho])
      (by simp [History.mem_closed_concat, hcl, Delivery.closes, eq_comm])
  | signal name input => exact h.same ⟨rfl, rfl, rfl, rfl, rfl, rfl, rfl⟩ ho hcl
  | cancelRequest => exact h.same ⟨rfl, rfl, rfl, rfl, rfl, rfl, rfl⟩ ho hcl

/-- One event of a well-formed history keeps the index. -/
theorem scanOne (h : Indexed S p) (wf : WellFormed (p ++ [e])) :
    Indexed (S.scanOne e) (p ++ [e]) := by
  cases hd : e.attributes.delivery? with
  | some d => exact h.deliver hd fun k hk => wf.mem_opened (by simp [HistoryEvent.closes, hd, hk])
  | none =>
    obtain ⟨eid, a⟩ := e
    cases a with
    | activityTaskScheduled id type => exact h.activityTaskScheduled wf
    | nexusOperationScheduled => exact h.nexusOperationScheduled wf
    | startChildWorkflowExecutionInitiated id type =>
      exact h.startChildWorkflowExecutionInitiated wf
    | timerStarted id => exact h.timerStarted wf
    | timerCanceled id =>
      exact absurd (wf.noTimerCanceled ⟨eid, .timerCanceled id⟩ (by simp)) Bool.noConfusion
    | activityTaskCancelRequested sid => exact h.activityTaskCancelRequested
    | requestCancelExternalWorkflowExecutionInitiated id =>
      exact h.requestCancelExternalWorkflowExecutionInitiated
    | markerRecorded name details =>
      have hm := Prescan.scanMarker_sameTables
        ({ S with lastEventId := eid }.pushCommand .marker name "") name details
      exact h.same ⟨hm.1, hm.2, hm.3, hm.4, hm.5, hm.6, hm.7⟩ rfl rfl
    | _ => first
      | exact h.same ⟨rfl, rfl, rfl, rfl, rfl, rfl, rfl⟩ rfl rfl
      | cases hd

end Indexed

/-- The delivery finds an open operation. -/
def Deliverable (S : Prescan) : Delivery → Prop
  | .activity sid _ => ∃ id o, S.schedEventToActivity sid = some id ∧ S.activities id = some o ∧
      o.scheduled = true ∧ o.resolved = false ∧ o.Valid
  | .nexus sid _ => ∃ id o, S.schedEventToNexus sid = some id ∧ S.nexusOps id = some o ∧
      o.scheduled = true ∧ o.resolved = false ∧ o.Valid
  | .child id _ => ∃ o, S.children id = some o ∧ o.scheduled = true ∧ o.resolved = false ∧ o.Valid
  | .timer id => ∃ o, S.timers id = some o ∧ o.started = true
  | .signal .. | .cancelRequest => True

theorem Indexed.deliverable {S : Prescan} {p : History} (h : Indexed S p) {d : Delivery}
    (ho : ∀ k, d.closes = some k → k ∈ History.opened p)
    (hc : ∀ k, d.closes = some k → k ∉ History.closed p) : Deliverable S d := by
  cases d with
  | activity sid c =>
    obtain ⟨id, hid⟩ := (h.activities.known sid).mp (ho _ rfl)
    obtain ⟨o, hot, hos, hor⟩ := h.activities.entry hid
    exact ⟨id, o, hid, hot, hos, Bool.eq_false_iff.mpr (hor.not.mpr (hc _ rfl)),
      h.activities.tracks.good id o hot⟩
  | nexus sid c =>
    obtain ⟨id, hid⟩ := (h.nexusOps.known sid).mp (ho _ rfl)
    obtain ⟨o, hot, hos, hor⟩ := h.nexusOps.entry hid
    exact ⟨id, o, hid, hot, hos, Bool.eq_false_iff.mpr (hor.not.mpr (hc _ rfl)),
      h.nexusOps.tracks.good id o hot⟩
  | child id c =>
    obtain ⟨o, hot, hos, hor⟩ := h.children.entry id (ho _ rfl)
    exact ⟨o, hot, hos, Bool.eq_false_iff.mpr (hor.not.mpr (hc _ rfl)), h.children.good id o hot⟩
  | timer id =>
    obtain ⟨o, hot, hos, -⟩ := h.timers.entry id (ho _ rfl)
    exact ⟨o, hot, hos⟩
  | signal name input => trivial
  | cancelRequest => trivial

/-- The scan of a well-formed history indexes its operations. -/
theorem WellFormed.indexed {h : History} (wf : WellFormed h) : Indexed (scanAll h) h := by
  induction h using List.reverseRecOn with
  | nil => exact Indexed.nil
  | append_singleton p e ih =>
    rw [scanAll_concat]
    exact (ih wf.left).scanOne wf

end TemporalSdk
