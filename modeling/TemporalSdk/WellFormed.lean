import TemporalSdk.Delivery
import Mathlib.Data.List.Basic

/-! Well-formed histories, and the scan of a history without updates. -/
namespace TemporalSdk

/-- An operation as its closing event names it. -/
inductive OpRef where
  | activity (scheduledEventId : Nat)
  | nexus (scheduledEventId : Nat)
  | child (workflowId : String)
  | timer (timerId : String)
  deriving DecidableEq, Repr

def HistoryEvent.opens (e : HistoryEvent) : Option OpRef :=
  match e.attributes with
  | .activityTaskScheduled .. => some (.activity e.eventId)
  | .nexusOperationScheduled => some (.nexus e.eventId)
  | .startChildWorkflowExecutionInitiated id _ => some (.child id)
  | .timerStarted id => some (.timer id)
  | _ => none

def Delivery.closes : Delivery → Option OpRef
  | .activity sid _ => some (.activity sid)
  | .nexus sid _ => some (.nexus sid)
  | .child id _ => some (.child id)
  | .timer id => some (.timer id)
  | .signal .. | .cancelRequest => none

/-- The operation an event ends, for the kinds of ending `ScanHistory` handles. -/
def HistoryEvent.closes (e : HistoryEvent) : Option OpRef :=
  e.attributes.delivery?.bind Delivery.closes

def HistoryEvent.activityId? (e : HistoryEvent) : Option String :=
  match e.attributes with
  | .activityTaskScheduled id _ => some id
  | _ => none

def EventAttributes.isTimerCanceled : EventAttributes → Bool
  | .timerCanceled _ => true
  | _ => false

def EventAttributes.isStarted : EventAttributes → Bool
  | .workflowExecutionStarted .. => true
  | _ => false

/-- Increasing event ids from 1 on, one schedule event per activity id, timer id, child and Nexus
operation, at most one closing event per operation and only after it was opened, and no timer
cancellations. -/
structure WellFormed (h : History) : Prop where
  positive : ∀ e ∈ h, 0 < e.eventId
  increasing : h.Pairwise fun a b => a.eventId < b.eventId
  activityIds : (h.filterMap HistoryEvent.activityId?).Nodup
  opened : (h.filterMap HistoryEvent.opens).Nodup
  closed : (h.filterMap HistoryEvent.closes).Nodup
  closesOpen : ∀ i (hi : i < h.length), ∀ k ∈ h[i].closes,
    k ∈ (h.take i).filterMap HistoryEvent.opens
  noTimerCanceled : ∀ e ∈ h, e.attributes.isTimerCanceled = false

/-- The conditions of `WellFormed` as a conjunction. -/
def WellFormed.Checks (h : History) : Prop :=
  (∀ e ∈ h, 0 < e.eventId) ∧ h.Pairwise (fun a b => a.eventId < b.eventId) ∧
    (h.filterMap HistoryEvent.activityId?).Nodup ∧ (h.filterMap HistoryEvent.opens).Nodup ∧
    (h.filterMap HistoryEvent.closes).Nodup ∧
    (∀ i (hi : i < h.length), ∀ k ∈ h[i].closes,
      k ∈ (h.take i).filterMap HistoryEvent.opens) ∧
    ∀ e ∈ h, e.attributes.isTimerCanceled = false

instance (h : History) : Decidable (WellFormed.Checks h) := by
  unfold WellFormed.Checks
  infer_instance

theorem WellFormed.checks_iff (h : History) : WellFormed.Checks h ↔ WellFormed h :=
  ⟨fun ⟨hp, hi, ha, ho, hc, hco, ht⟩ => ⟨hp, hi, ha, ho, hc, hco, ht⟩,
    fun w => ⟨w.1, w.2, w.3, w.4, w.5, w.6, w.7⟩⟩

instance (h : History) : Decidable (WellFormed h) := decidable_of_iff _ (WellFormed.checks_iff h)

def UpdateFree (h : History) : Prop := ∀ e ∈ h, e.attributes.isUpdateAccepted = false

theorem WellFormed.left {p s : History} (h : WellFormed (p ++ s)) : WellFormed p where
  positive e he := h.positive e (List.mem_append_left s he)
  increasing := (List.pairwise_append.mp h.increasing).1
  activityIds := (List.filterMap_append ▸ h.activityIds).of_append_left
  opened := (List.filterMap_append ▸ h.opened).of_append_left
  closed := (List.filterMap_append ▸ h.closed).of_append_left
  closesOpen i hi k hk := by
    have hlt : i < (p ++ s).length := by
      rw [List.length_append]
      omega
    have hmem := h.closesOpen i hlt k (by rwa [List.getElem_append_left hi])
    rwa [List.take_append_of_le_length (by omega)] at hmem
  noTimerCanceled e he := h.noTimerCanceled e (List.mem_append_left s he)

instance (h : History) : Decidable (UpdateFree h) :=
  inferInstanceAs (Decidable (∀ e ∈ h, e.attributes.isUpdateAccepted = false))

theorem WellFormed.mem_opens_of_closes {p s : History} {e : HistoryEvent} {k : OpRef}
    (h : WellFormed (p ++ e :: s)) (hk : e.closes = some k) :
    k ∈ p.filterMap HistoryEvent.opens := by
  have hmem := h.closesOpen p.length (by simp) k (by simpa using hk)
  simpa using hmem

theorem UpdateFree.left {p s : History} (h : UpdateFree (p ++ s)) : UpdateFree p :=
  fun e he => h e (List.mem_append_left s he)

/-- One event of a scan in which nothing is held back. -/
def Prescan.scanOne (ps : Prescan) (ev : HistoryEvent) : Prescan :=
  { ps with lastEventId := ev.eventId }.scanEvent ev

/-- The scan without deferral. -/
def scanAll (h : History) : Prescan := h.foldl Prescan.scanOne {}

@[simp] theorem scanAll_nil : scanAll [] = {} := rfl

@[simp] theorem scanAll_concat (h : History) (e : HistoryEvent) :
    scanAll (h ++ [e]) = (scanAll h).scanOne e := by
  simp [scanAll]

theorem foldl_scanStep_of_updateFree (h : History) (hu : UpdateFree h) (ps : Prescan) :
    h.foldl scanStep (ps, false) = (h.foldl Prescan.scanOne ps, false) := by
  induction h generalizing ps with
  | nil => rfl
  | cons e h ih =>
    have he : e.attributes.isUpdateAccepted = false := hu e List.mem_cons_self
    have hs : scanStep (ps, false) e = (ps.scanOne e, false) := by
      simp [scanStep, Prescan.scanOne, he]
    rw [List.foldl_cons, List.foldl_cons, hs]
    exact ih (fun x hx => hu x (List.mem_cons_of_mem e hx)) _

/-- Without updates nothing is deferred. -/
theorem scanHistory_of_updateFree {h : History} (hu : UpdateFree h) :
    scanHistory h = scanAll h := by
  simp only [scanHistory, foldl_scanStep_of_updateFree h hu, scanAll]

namespace Prescan

variable (ps : Prescan)

/-- What is read off the start event and the accepted updates. -/
theorem scanMarker_frame (name : String) (details : List (String × Payloads)) :
    (ps.scanMarker name details).postUpdateTimeline = ps.postUpdateTimeline ∧
      (ps.scanMarker name details).input = ps.input ∧
      (ps.scanMarker name details).headers = ps.headers := by
  unfold scanMarker
  repeat' split
  all_goals exact ⟨rfl, rfl, rfl⟩

/-- Only an accepted update is put on the timeline by the switch itself. -/
theorem scanEvent_postUpdateTimeline {ev : HistoryEvent}
    (h : ev.attributes.isUpdateAccepted = false) :
    (ps.scanEvent ev).postUpdateTimeline = ps.postUpdateTimeline := by
  obtain ⟨eid, a⟩ := ev
  cases a <;> first
    | rfl
    | exact Bool.noConfusion h
    | (simp only [scanEvent, onActivity]; split <;> rfl)
    | (simp only [scanEvent, onNexus]; split <;> rfl)
    | exact (scanMarker_frame _ _ _).1

/-- The input and the headers are those of the start event. -/
theorem scanEvent_input {ev : HistoryEvent} (h : ev.attributes.isStarted = false) :
    (ps.scanEvent ev).input = ps.input ∧ (ps.scanEvent ev).headers = ps.headers := by
  obtain ⟨eid, a⟩ := ev
  cases a <;> first
    | exact ⟨rfl, rfl⟩
    | exact Bool.noConfusion h
    | (simp only [scanEvent, onActivity]; split <;> exact ⟨rfl, rfl⟩)
    | (simp only [scanEvent, onNexus]; split <;> exact ⟨rfl, rfl⟩)
    | exact (scanMarker_frame _ _ _).2

end Prescan

theorem scanAll_postUpdateTimeline {h : History} (hu : UpdateFree h) :
    (scanAll h).postUpdateTimeline = [] := by
  induction h using List.reverseRecOn with
  | nil => rfl
  | append_singleton p e ih =>
    rw [scanAll_concat, Prescan.scanOne, Prescan.scanEvent_postUpdateTimeline _ (hu e (by simp))]
    exact ih hu.left

theorem scanAll_input {p q : History} (h : ∀ e ∈ q, e.attributes.isStarted = false) :
    (scanAll (p ++ q)).input = (scanAll p).input ∧
      (scanAll (p ++ q)).headers = (scanAll p).headers := by
  induction q using List.reverseRecOn with
  | nil => simp
  | append_singleton q e ih =>
    obtain ⟨hi, hh⟩ := ih fun x hx => h x (by simp [hx])
    obtain ⟨hi', hh'⟩ := Prescan.scanEvent_input
      { scanAll (p ++ q) with lastEventId := e.eventId } (h e (by simp))
    rw [← List.append_assoc, scanAll_concat]
    exact ⟨hi'.trans hi, hh'.trans hh⟩

end TemporalSdk
