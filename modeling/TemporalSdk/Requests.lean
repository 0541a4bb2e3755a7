import TemporalSdk.Sequence

/-! Requests to cancel on record. The scan flags the operation a request is for; a runner that has
been cached learns of the requests for activities, and of no others. -/
namespace TemporalSdk

/-- The request to cancel an operation, as the tables of the scan have it. Other workflows are
kept among the children. -/
def Prescan.requested (S : Prescan) : Key → Bool
  | .activity id => ((S.activities id).getD {}).cancelRequested
  | .timer id => ((S.timers id).getD {}).cancelled
  | .child id => ((S.children id).getD {}).cancelRequested
  | .nexus _ | .cancellation => false

/-- The request to cancel an operation on record. That of an activity names its schedule event. -/
def History.RecordsRequest (h : History) : Key → Prop
  | .activity id => ∃ before between after sid type eid,
      h = before ++ ⟨sid, .activityTaskScheduled id type⟩ ::
        (between ++ ⟨eid, .activityTaskCancelRequested sid⟩ :: after) ∧
      ∀ e ∈ between, e.eventId ≠ sid
  | .timer id => ∃ e ∈ h, e.attributes = .timerCanceled id
  | .child id => ∃ e ∈ h, e.attributes = .requestCancelExternalWorkflowExecutionInitiated id
  | .nexus _ | .cancellation => False

/-- The operation an event requests to cancel, by the schedule events in `S`. -/
def EventAttributes.requests? (S : Prescan) : EventAttributes → Option Key
  | .activityTaskCancelRequested sid => (S.schedEventToActivity sid).map .activity
  | .timerCanceled id => some (.timer id)
  | .requestCancelExternalWorkflowExecutionInitiated id => some (.child id)
  | _ => none

namespace Prescan

variable {S S' : Prescan} {k : Key}

theorem requested_activity (S : Prescan) (id : String) :
    S.requested (.activity id) = (S.activities id).any (·.cancelRequested) := by
  simp only [requested]
  cases S.activities id <;> rfl

theorem requested_timer (S : Prescan) (id : String) :
    S.requested (.timer id) = (S.timers id).any (·.cancelled) := by
  simp only [requested]
  cases S.timers id <;> rfl

theorem requested_child (S : Prescan) (id : String) :
    S.requested (.child id) = (S.children id).any (·.cancelRequested) := by
  simp only [requested]
  cases S.children id <;> rfl

theorem requested_of_sameTables (h : SameTables S S') : S'.requested k = S.requested k := by
  cases k <;> simp only [requested, h.activities, h.timers, h.children]

theorem requested_onActivity {f : OpOutcome → OpOutcome} (sid : Nat)
    (hf : ∀ o : OpOutcome, (f o).cancelRequested = o.cancelRequested) :
    (S.onActivity sid f).requested k = S.requested k := by
  unfold onActivity
  split
  · next id _ =>
    cases k with
    | activity j =>
      simp only [requested, PartialMap.getD_modify]
      split
      · next hj => rw [hf, hj]
      · rfl
    | _ => rfl
  · rfl

theorem requested_onChild {f : OpOutcome → OpOutcome} (id : String)
    (hf : ∀ o : OpOutcome, (f o).cancelRequested = o.cancelRequested) :
    (S.onChild id f).requested k = S.requested k := by
  cases k with
  | child j =>
    simp only [onChild, requested, PartialMap.getD_modify]
    split
    · next hj => rw [hf, hj]
    · rfl
  | _ => rfl

theorem requested_onTimer {f : TimerOutcome → TimerOutcome} (id : String)
    (hf : ∀ o : TimerOutcome, (f o).cancelled = o.cancelled) :
    (S.onTimer id f).requested k = S.requested k := by
  cases k with
  | timer j =>
    simp only [onTimer, requested, PartialMap.getD_modify]
    split
    · next hj => rw [hf, hj]
    · rfl
  | _ => rfl

theorem requested_onNexus {f : OpOutcome → OpOutcome} (sid : Nat) :
    (S.onNexus sid f).requested k = S.requested k := by
  unfold onNexus
  split
  · cases k <;> rfl
  · rfl

/-- A request for an activity flags the activity its schedule event is about. -/
theorem requested_requestActivity (sid : Nat) :
    (S.onActivity sid OpOutcome.requestCancel).requested k = true ↔
      S.requested k = true ∨ (S.schedEventToActivity sid).map .activity = some k := by
  unfold onActivity
  cases hs : S.schedEventToActivity sid with
  | none => simp only [Option.map_none, reduceCtorEq, or_false]
  | some id =>
    cases k with
    | activity j =>
      simp only [requested, PartialMap.getD_modify, Option.map_some, Option.some.injEq,
        Key.activity.injEq]
      split
      · next hj => simp only [hj, OpOutcome.requestCancel, or_true]
      · next hj => simp only [eq_comm (a := id), hj, or_false]
    | _ => simp only [requested, Option.map_some, Option.some.injEq, reduceCtorEq, or_false]

theorem requested_requestChild (id : String) :
    (S.onChild id OpOutcome.requestCancel).requested k = true ↔
      S.requested k = true ∨ some (Key.child id) = some k := by
  cases k with
  | child j =>
    simp only [onChild, requested, PartialMap.getD_modify, Option.some.injEq, Key.child.injEq]
    split
    · next hj => simp only [hj, OpOutcome.requestCancel, or_true]
    · next hj => simp only [eq_comm (a := id), hj, or_false]
  | _ => simp only [onChild, requested, Option.some.injEq, reduceCtorEq, or_false]

theorem requested_cancelTimer (id : String) :
    (S.onTimer id fun o => { o with cancelled := true }).requested k = true ↔
      S.requested k = true ∨ some (Key.timer id) = some k := by
  cases k with
  | timer j =>
    simp only [onTimer, requested, PartialMap.getD_modify, Option.some.injEq, Key.timer.injEq]
    split
    · next hj => simp only [hj, or_true]
    · next hj => simp only [eq_comm (a := id), hj, or_false]
  | _ => simp only [onTimer, requested, Option.some.injEq, reduceCtorEq, or_false]

/-- One event flags what it requests to cancel, and takes nothing back. -/
theorem requested_scanEvent (S : Prescan) (e : HistoryEvent) :
    (S.scanEvent e).requested k = true ↔
      S.requested k = true ∨ e.attributes.requests? S = some k := by
  have hsame {S' : Prescan} (h : S'.requested k = S.requested k) :
      S'.requested k = true ↔ S.requested k = true ∨ (none : Option Key) = some k := by
    rw [h]
    exact (or_iff_left nofun).symm
  obtain ⟨eid, a⟩ := e
  cases a with
  | activityTaskCancelRequested sid => exact requested_requestActivity (S := S.pushCommand ..) sid
  | timerCanceled id => exact requested_cancelTimer (S := S) id
  | requestCancelExternalWorkflowExecutionInitiated id =>
    exact requested_requestChild (S := S.pushCommand ..) id
  | activityTaskScheduled id type =>
    refine hsame ?_
    cases k with
    | activity j =>
      simp only [scanEvent, requested, PartialMap.getD_modify]
      split
      · next hj => rw [hj, OpOutcome.schedule]
      · rfl
    | _ => rfl
  | activityTaskCompleted sid result => exact hsame (requested_onActivity sid fun _ => rfl)
  | activityTaskFailed sid f => exact hsame (requested_onActivity sid fun _ => rfl)
  | activityTaskTimedOut sid => exact hsame (requested_onActivity sid fun _ => rfl)
  | activityTaskCanceled sid => exact hsame (requested_onActivity sid fun _ => rfl)
  | timerStarted id =>
    refine hsame (Eq.trans ?_ (requested_onTimer (f := fun o => { o with started := true }) id
      fun _ => rfl))
    cases k <;> rfl
  | timerFired id => exact hsame (requested_onTimer id fun _ => rfl)
  | startChildWorkflowExecutionInitiated id type =>
    refine hsame (Eq.trans ?_ (requested_onChild (f := OpOutcome.schedule) id fun _ => rfl))
    cases k <;> rfl
  | childWorkflowExecutionCompleted id result => exact hsame (requested_onChild id fun _ => rfl)
  | childWorkflowExecutionFailed id f => exact hsame (requested_onChild id fun _ => rfl)
  | childWorkflowExecutionCanceled id => exact hsame (requested_onChild id fun _ => rfl)
  | nexusOperationCompleted sid result => exact hsame (requested_onNexus sid)
  | nexusOperationFailed sid f => exact hsame (requested_onNexus sid)
  | nexusOperationTimedOut sid => exact hsame (requested_onNexus sid)
  | nexusOperationCanceled sid => exact hsame (requested_onNexus sid)
  | markerRecorded name details =>
    refine hsame ((requested_of_sameTables (scanMarker_sameTables _ name details)).trans ?_)
    exact requested_of_sameTables ⟨rfl, rfl, rfl, rfl, rfl, rfl, rfl⟩
  | _ =>
    refine hsame ?_
    cases k <;> rfl

theorem requested_scan (h : History) {seenUpdate : Bool} (hk : S.requested k = true) :
    ((h.foldl scanStep (S, seenUpdate)).1).requested k = true := by
  induction h generalizing S seenUpdate with
  | nil => exact hk
  | cons e h ih =>
    have hpos : ({ S with lastEventId := e.eventId } : Prescan).requested k = true :=
      (requested_of_sameTables ⟨rfl, rfl, rfl, rfl, rfl, rfl, rfl⟩).trans hk
    rw [List.foldl_cons, scanStep]
    by_cases hd : (seenUpdate && isDeferredOnReplay e.attributes) = true
    · rw [if_pos hd]
      exact ih ((requested_of_sameTables ⟨rfl, rfl, rfl, rfl, rfl, rfl, rfl⟩).trans hpos)
    · rw [if_neg hd]
      exact ih ((requested_scanEvent _ e).mpr (.inl hpos))

theorem scanStep_of_not_deferred {e : HistoryEvent} (h : isDeferredOnReplay e.attributes = false)
    (x : Prescan × Bool) :
    (scanStep x e).1 = ({ x.1 with lastEventId := e.eventId } : Prescan).scanEvent e := by
  rw [scanStep, h, Bool.and_false, if_neg Bool.false_ne_true]

/-- A request is on record once its event has been scanned: no such event is held back. -/
theorem requested_of_event {e : HistoryEvent} {h : History} {seenUpdate : Bool} (he : e ∈ h)
    (hdeferred : isDeferredOnReplay e.attributes = false)
    (hk : ∀ S : Prescan, e.attributes.requests? S = some k) :
    ((h.foldl scanStep (S, seenUpdate)).1).requested k = true := by
  induction h generalizing S seenUpdate with
  | nil => cases he
  | cons e' h ih =>
    rw [List.foldl_cons]
    rcases List.mem_cons.mp he with rfl | he
    · rw [scanStep, hdeferred, Bool.and_false, if_neg Bool.false_ne_true]
      exact requested_scan h ((requested_scanEvent _ e).mpr (.inr (hk _)))
    · exact ih he

theorem schedEventToActivity_onActivity (S : Prescan) (sid : Nat) (f : OpOutcome → OpOutcome) :
    (S.onActivity sid f).schedEventToActivity = S.schedEventToActivity := by
  unfold onActivity
  split <;> rfl

theorem schedEventToActivity_onNexus (S : Prescan) (sid : Nat) (f : OpOutcome → OpOutcome) :
    (S.onNexus sid f).schedEventToActivity = S.schedEventToActivity := by
  unfold onNexus
  split <;> rfl

/-- Which activity a schedule event is about is not changed by other events. -/
theorem schedEventToActivity_scanEvent (S : Prescan) {e : HistoryEvent} {sid : Nat}
    (he : e.eventId ≠ sid) :
    (S.scanEvent e).schedEventToActivity sid = S.schedEventToActivity sid := by
  obtain ⟨eid, a⟩ := e
  cases a with
  | activityTaskScheduled id type => exact PartialMap.insert_of_ne _ (Ne.symm he) _
  | markerRecorded name details =>
    exact congrFun (scanMarker_sameTables _ name details).schedEventToActivity sid
  | _ => first
    | rfl
    | exact congrFun (schedEventToActivity_onActivity _ _ _) sid
    | exact congrFun (schedEventToActivity_onNexus _ _ _) sid

theorem schedEventToActivity_scan {h : History} {seenUpdate : Bool} {sid : Nat}
    (hne : ∀ e ∈ h, e.eventId ≠ sid) :
    ((h.foldl scanStep (S, seenUpdate)).1).schedEventToActivity sid =
      S.schedEventToActivity sid := by
  induction h generalizing S seenUpdate with
  | nil => rfl
  | cons e h ih =>
    obtain ⟨he, hrest⟩ := List.forall_mem_cons.mp hne
    rw [List.foldl_cons, scanStep]
    by_cases hd : (seenUpdate && isDeferredOnReplay e.attributes) = true
    · rw [if_pos hd]
      exact ih hrest
    · rw [if_neg hd]
      exact (ih hrest).trans (schedEventToActivity_scanEvent _ he)

/-- What is on record is known to a fresh runner. -/
theorem requested_of_records {h : History} (hk : h.RecordsRequest k) :
    (scanHistory h).requested k = true := by
  cases k with
  | timer id =>
    obtain ⟨⟨eid, a⟩, he, ha⟩ := hk
    subst ha
    exact requested_of_event he rfl fun _ => rfl
  | child id =>
    obtain ⟨⟨eid, a⟩, he, ha⟩ := hk
    subst ha
    exact requested_of_event he rfl fun _ => rfl
  | activity id =>
    obtain ⟨before, between, after, sid, type, eid, rfl, hne⟩ := hk
    unfold scanHistory
    rw [List.foldl_append, List.foldl_cons, List.foldl_append, List.foldl_cons]
    refine requested_scan after ?_
    generalize List.foldl scanStep ({}, false) before = x
    have hsched : ((scanStep x ⟨sid, .activityTaskScheduled id type⟩).1).schedEventToActivity sid =
        some id := by
      rw [scanStep_of_not_deferred rfl]
      exact PartialMap.insert_self _ _ _
    generalize scanStep x ⟨sid, .activityTaskScheduled id type⟩ = y at hsched
    have hkept : ((between.foldl scanStep (y.1, y.2)).1).schedEventToActivity sid = some id :=
      (schedEventToActivity_scan hne).trans hsched
    change ((scanStep (between.foldl scanStep (y.1, y.2)) _).1).requested _ = true
    generalize between.foldl scanStep (y.1, y.2) = z at hkept
    rw [scanStep_of_not_deferred rfl, requested_scanEvent]
    exact .inr (congrArg (Option.map Key.activity) hkept)
  | nexus id => exact hk.elim
  | cancellation => exact hk.elim

end Prescan

section Recording

variable {p h : History} {k : Key}

/-- A request stays on record. -/
theorem History.RecordsRequest.append (hk : p.RecordsRequest k) (q : History) :
    History.RecordsRequest (p ++ q) k := by
  cases k with
  | activity id =>
    obtain ⟨before, between, after, sid, type, eid, rfl, hne⟩ := hk
    exact ⟨before, between, after ++ q, sid, type, eid, by simp, hne⟩
  | timer id =>
    obtain ⟨e, he, ha⟩ := hk
    exact ⟨e, List.mem_append_left q he, ha⟩
  | child id =>
    obtain ⟨e, he, ha⟩ := hk
    exact ⟨e, List.mem_append_left q he, ha⟩
  | nexus id => exact hk
  | cancellation => exact hk

/-- The request for an activity that has been scheduled, as an event that follows. -/
theorem WellFormed.recordsRequest (wf : WellFormed h) {id type : String} {sid eid : Nat}
    (hs : ⟨sid, .activityTaskScheduled id type⟩ ∈ h)
    (hr : ⟨eid, .activityTaskCancelRequested sid⟩ ∈ h) (hlt : sid < eid) :
    h.RecordsRequest (.activity id) := by
  obtain ⟨before, after, rfl⟩ := List.mem_iff_append.mp hs
  have hinc := List.pairwise_append.mp wf.increasing
  have hafter : (⟨eid, .activityTaskCancelRequested sid⟩ : HistoryEvent) ∈ after := by
    rcases List.mem_append.mp hr with hr | hr
    · have hbefore := hinc.2.2 _ hr _ List.mem_cons_self
      dsimp only at hbefore
      omega
    · rcases List.mem_cons.mp hr with hr | hr
      · cases hr
      · exact hr
  obtain ⟨between, rest, rfl⟩ := List.mem_iff_append.mp hafter
  refine ⟨before, between, rest, sid, type, eid, rfl, fun e he => ?_⟩
  have hfollows := (List.pairwise_cons.mp hinc.2.1).1 e (List.mem_append_left _ he)
  exact hfollows.ne'

/-- What the flags of a scan stand for is on record. -/
def RequestsKnown (S : Prescan) (h : History) : Prop :=
  ∀ k, S.requested k = true → h.RecordsRequest k

/-- One more event, which flags only what it requests to cancel. -/
theorem RequestsKnown.concat {S S' : Prescan} (hS : RequestsKnown S p) {e : HistoryEvent}
    (wf : WellFormed (p ++ [e])) (hindex : ∀ sid id, S.schedEventToActivity sid = some id →
      ∃ type, ⟨sid, .activityTaskScheduled id type⟩ ∈ p)
    (hS' : ∀ k, S'.requested k = true → S.requested k = true ∨
      e.attributes.requests? S = some k) : RequestsKnown S' (p ++ [e]) := by
  intro k hk
  rcases hS' k hk with hk | hk
  · exact (hS k hk).append [e]
  · obtain ⟨eid, a⟩ := e
    have hlast : (⟨eid, a⟩ : HistoryEvent) ∈ p ++ [⟨eid, a⟩] :=
      List.mem_append_right p List.mem_cons_self
    cases a with
    | activityTaskCancelRequested sid =>
      obtain ⟨id, hid, rfl⟩ := Option.map_eq_some_iff.mp hk
      obtain ⟨type, hsched⟩ := hindex sid id hid
      refine wf.recordsRequest (List.mem_append_left _ hsched) hlast ?_
      exact (List.pairwise_append.mp wf.increasing).2.2 _ hsched _ List.mem_cons_self
    | timerCanceled id =>
      cases hk
      exact ⟨_, hlast, rfl⟩
    | requestCancelExternalWorkflowExecutionInitiated id =>
      cases hk
      exact ⟨_, hlast, rfl⟩
    | _ => cases hk

theorem indexed_of_scanAll {sid : Nat} {id : String}
    (hs : (scanAll h).schedEventToActivity sid = some id) :
    ∃ type, ⟨sid, .activityTaskScheduled id type⟩ ∈ h := by
  induction h using List.reverseRecOn with
  | nil => cases hs
  | append_singleton p e ih =>
    have hlive := congrArg LiveState.schedEventToActivity ((scanAll p).scanOne_live e)
    rw [scanAll_concat] at hs
    obtain ⟨eid, a⟩ := e
    cases a with
    | activityTaskScheduled id' type =>
      have hinsert := hs.symm.trans (congrFun hlive sid)
      by_cases hsid : sid = eid
      · subst hsid
        obtain rfl : id = id' :=
          Option.some.inj (hinsert.trans (PartialMap.insert_self _ _ _))
        exact ⟨type, List.mem_append_right p List.mem_cons_self⟩
      · obtain ⟨type', hmem⟩ := ih (hinsert.trans (PartialMap.insert_of_ne _ hsid _)).symm
        exact ⟨type', List.mem_append_left _ hmem⟩
    | _ =>
      obtain ⟨type', hmem⟩ := ih ((congrFun hlive sid).symm.trans hs)
      exact ⟨type', List.mem_append_left _ hmem⟩

/-- A scan flags what is on record. -/
theorem scanAll_requestsKnown (wf : WellFormed h) : RequestsKnown (scanAll h) h := by
  induction h using List.reverseRecOn with
  | nil =>
    intro k hk
    cases k <;> cases hk
  | append_singleton p e ih =>
    rw [scanAll_concat]
    refine (ih wf.left).concat wf (fun sid id hs => indexed_of_scanAll hs) fun k hk => ?_
    rcases (Prescan.requested_scanEvent _ e).mp hk with hk | hk
    · refine .inl (Eq.trans ?_ hk)
      exact (Prescan.requested_of_sameTables ⟨rfl, rfl, rfl, rfl, rfl, rfl, rfl⟩).symm
    · refine .inr (Eq.trans ?_ hk)
      obtain ⟨eid, a⟩ := e
      cases a <;> rfl

/-- Of the requests in a continuation a runner notes those for activities. -/
theorem Runner.applyEventToState_requested {σ : Type} (r : Runner σ) (e : HistoryEvent) :
    (r.applyEventToState e).scan.requested k = true ↔ r.scan.requested k = true ∨
      ∃ sid, e.attributes = .activityTaskCancelRequested sid ∧
        (r.scan.schedEventToActivity sid).map .activity = some k := by
  have hsame (hq : (r.applyEventToState e).scan.requested k = r.scan.requested k)
      (he : ∀ sid, e.attributes ≠ .activityTaskCancelRequested sid) :
      (r.applyEventToState e).scan.requested k = true ↔ r.scan.requested k = true ∨
        ∃ sid, e.attributes = .activityTaskCancelRequested sid ∧
          (r.scan.schedEventToActivity sid).map .activity = some k := by
    rw [hq]
    exact (or_iff_left fun ⟨sid, ha, _⟩ => he sid ha).symm
  cases hd : e.attributes.delivery? with
  | some d =>
    refine hsame ?_ fun sid ha => by rw [ha] at hd; cases hd
    rw [r.applyEventToState_deliver hd]
    cases d with
    | signal name input => cases k <;> rfl
    | cancelRequest =>
      simp only [deliver, foldl_setFuture_scan]
      cases k <;> rfl
    | _ => simp only [deliver, resolveFuture_scan]
  | none =>
    obtain ⟨eid, attrs⟩ := e
    cases attrs with
    | activityTaskCancelRequested sid =>
      refine (Prescan.requested_requestActivity sid).trans (or_congr_right ⟨?_, ?_⟩)
      · exact fun hs => ⟨sid, rfl, hs⟩
      · rintro ⟨sid', ha, hs⟩
        cases ha
        exact hs
    | timerCanceled id =>
      refine hsame ?_ fun sid ha => by cases ha
      simp only [applyEventToState, resolveFuture_scan]
    | activityTaskScheduled id type =>
      refine hsame ?_ fun sid ha => by cases ha
      cases k <;> rfl
    | nexusOperationScheduled =>
      refine hsame ?_ fun sid ha => by cases ha
      cases k <;> rfl
    | _ => first
      | exact hsame rfl fun sid ha => by cases ha
      | cases hd

/-- So does a runner that goes on with a history. -/
theorem RequestsKnown.applyOne {σ : Type} {r : Runner σ} {keys : List Key} {e : HistoryEvent}
    (hr : RequestsKnown r.scan p) (hf : Follows r p keys) (wf : WellFormed (p ++ [e])) :
    RequestsKnown (r.applyOne e).scan (p ++ [e]) := by
  have hindex : r.scan.schedEventToActivity = (scanAll p).schedEventToActivity :=
    congrArg LiveState.schedEventToActivity hf.live
  refine hr.concat wf (fun sid id hs => indexed_of_scanAll (hindex ▸ hs)) fun k hk => ?_
  have hq : (r.applyEventToState e).scan.requested k = true :=
    (Prescan.requested_of_sameTables ⟨rfl, rfl, rfl, rfl, rfl, rfl, rfl⟩).symm.trans hk
  rcases (r.applyEventToState_requested e).mp hq with hq | ⟨sid, ha, hs⟩
  · exact .inl hq
  · rw [ha]
    exact .inr hs

theorem RequestsKnown.applyEvents {σ : Type} {r : Runner σ} {keys : List Key} {q : History}
    (hr : RequestsKnown r.scan p) (hf : Follows r p keys) (wf : WellFormed (p ++ q)) :
    RequestsKnown (r.applyEvents q).scan (p ++ q) := by
  induction q generalizing r p with
  | nil =>
    rw [List.append_nil]
    exact hr
  | cons e q ih =>
    have hlt : r.scan.lastEventId < e.eventId := by
      rw [hf.lastEventId]
      exact wf.lastEventId_lt
    have hsplit : p ++ e :: q = (p ++ [e]) ++ q := by simp
    rw [hsplit] at wf ⊢
    rw [r.applyEvents_cons_new hlt]
    exact ih (hr.applyOne hf wf.left) (hf.applyOne wf.left) wf

end Recording

/-- The operation a body requests to cancel. -/
def Op.requests? {σ : Type} (keys : List Key) : Op σ → Option Key
  | .cancel addr => keys[addr]?
  | .cancelExternalWorkflow id => some (.child id)
  | _ => none

/-- A request for the operation is sent by whichever runner gets here first, and by no later one:
no request for it is on record, and an activity has been scheduled. -/
def History.Requestable (h : History) : Key → Prop
  | .activity id =>
    (∃ e ∈ h, e.attributes.activityId? = some id) ∧ ¬ h.RecordsRequest (.activity id)
  | .child id => ¬ h.RecordsRequest (.child id)
  | .timer _ => False
  | .nexus _ | .cancellation => True

/-- A request for an activity is recorded after its schedule event. -/
def History.RequestsFollow (h : History) : Prop :=
  ∀ e ∈ h, ∀ sid, e.attributes = .activityTaskCancelRequested sid → sid < e.eventId

/-- A step that issues the request for an operation, if there is one. -/
def Progress.Sends {σ : Type} (S : Prescan) (b b' : Progress σ) : Key → Prop
  | .activity id => ∃ sid, S.activityToSchedEvent id = some sid ∧
      b'.events = b.events ++ [.activityTaskCancelRequested sid]
  | .child id => b'.events = b.events ++ [.requestCancelExternalWorkflowExecutionInitiated id]
  | .timer _ => False
  | .nexus _ | .cancellation => True

/-- How the guards of `scan` decide on a request: as if the first `base` commands were on
record. -/
structure RequestGuards {σ : Type} (S scan : Prescan) (base : Nat) (b : Progress σ) (op : Op σ) :
    Prop where
  timers : ∀ id, op.requests? b.keys ≠ some (.timer id)
  activities : ∀ id, op.requests? b.keys = some (.activity id) →
    ∃ sid, S.activityToSchedEvent id = some sid ∧ scan.activityToSchedEvent id = some sid
  requested : ∀ k, op.requests? b.keys = some k → ((∃ id, k = .activity id) ∨ ∃ id, k = .child id) →
    scan.requested k = decide (b.issued.length < base)

namespace RequestGuards

variable {σ : Type} {S scan : Prescan} {base : Nat} {b b' : Progress σ} {op : Op σ}

theorem of_not_request (h : op.isRequest = false) : RequestGuards S scan base b op := by
  have hnone : op.requests? b.keys = none := by
    cases op <;> first | rfl | cases h
  constructor <;> simp [hnone]

/-- An activity that has been scheduled is known. -/
theorem scheduled_scanAll {h : History} {id : String}
    (hs : ∃ e ∈ h, e.attributes.activityId? = some id) :
    ∃ sid, (scanAll h).activityToSchedEvent id = some sid := by
  induction h using List.reverseRecOn with
  | nil =>
    obtain ⟨e, he, -⟩ := hs
    cases he
  | append_singleton p e ih =>
    rw [scanAll_concat, scanOne_activityToSchedEvent]
    cases ha : e.attributes.activityId? with
    | none =>
      refine ih ?_
      obtain ⟨e', he', hid⟩ := hs
      rcases List.mem_append.mp he' with he' | he'
      · exact ⟨e', he', hid⟩
      · rw [List.mem_singleton.mp he', ha] at hid
        cases hid
    | some id' =>
      by_cases hid : id = id'
      · subst hid
        exact ⟨e.eventId, PartialMap.insert_self _ _ _⟩
      · rw [Option.elim_some, PartialMap.insert_of_ne _ hid]
        refine ih ?_
        obtain ⟨e', he', hid'⟩ := hs
        rcases List.mem_append.mp he' with he' | he'
        · exact ⟨e', he', hid'⟩
        · rw [List.mem_singleton.mp he', ha] at hid'
          exact absurd (Option.some.inj hid').symm hid

/-- A new request is sent. -/
theorem of_requestable {h : History} (hknown : RequestsKnown scan h)
    (hscan : scan.activityToSchedEvent = (scanAll h).activityToSchedEvent)
    (hnew : ∀ k, op.requests? b.keys = some k → h.Requestable k)
    (hge : base ≤ b.issued.length) : RequestGuards (scanAll h) scan base b op where
  timers id hk := hnew _ hk
  activities id hk := by
    obtain ⟨sid, hsid⟩ := scheduled_scanAll (hnew _ hk).1
    exact ⟨sid, hsid, hscan ▸ hsid⟩
  requested k hk hkind := by
    rw [decide_eq_false (Nat.not_lt.mpr hge), Bool.eq_false_iff]
    intro hflag
    rcases hkind with ⟨id, rfl⟩ | ⟨id, rfl⟩
    · exact (hnew _ hk).2 (hknown _ hflag)
    · exact hnew _ hk (hknown _ hflag)

theorem event_of_commandEvents {h : History} {a : EventAttributes}
    (ha : a ∈ History.commandEvents h) : ∃ e ∈ h, e.attributes = a :=
  List.mem_map.mp (List.mem_filter.mp ha).1

/-- What the step of a body that requests to cancel something has done. -/
theorem step_cases {s : Setting σ} (hb : b.step s S = some b')
    (hop : (s.program b.trace).isRequest = true) {k : Key}
    (hk : (s.program b.trace).requests? b.keys = some k) : b.Sends S b' k := by
  unfold Progress.step at hb
  split at hb
  · cases hb
  · cases hprog : s.program b.trace with
    | cancel addr =>
      rw [hprog] at hb hk
      obtain ⟨x, hx, rfl⟩ := Option.map_eq_some_iff.mp hb
      obtain ⟨c, hc, rfl⟩ := Option.map_eq_some_iff.mp hx
      unfold Progress.request at hc
      rw [show b.keys[addr]? = some k from hk] at hc
      cases k with
      | activity id =>
        obtain ⟨sid, hsid, rfl⟩ := Option.map_eq_some_iff.mp hc
        exact ⟨sid, hsid, b.issue_events _⟩
      | child id =>
        cases hc
        exact b.issue_events _
      | timer id => cases hc
      | nexus id => trivial
      | cancellation => trivial
    | cancelExternalWorkflow id =>
      rw [hprog] at hb hk
      cases hk
      cases hb
      exact b.issue_events _
    | _ =>
      rw [hprog] at hop
      cases hop

/-- A request on record is not sent again. -/
theorem of_recorded {s : Setting σ} {h : History} (wf : WellFormed h) (hu : UpdateFree h)
    (hfollow : h.RequestsFollow) (hb : b.step s (scanAll h) = some b')
    (hrec : b'.events <+: History.commandEvents h) :
    RequestGuards (scanAll h) (scanAll h) (History.commandEvents h).length b
      (s.program b.trace) := by
  cases hop : (s.program b.trace).isRequest with
  | false => exact of_not_request hop
  | true =>
    have hcases {k : Key} := step_cases (k := k) hb hop
    have hevent {a : EventAttributes} (ha : b'.events = b.events ++ [a]) :
        (∃ e ∈ h, e.attributes = a) ∧ b.issued.length < (History.commandEvents h).length := by
      rw [ha] at hrec
      have hle := hrec.length_le
      rw [List.length_append, List.length_singleton, Progress.events, List.length_map] at hle
      refine ⟨event_of_commandEvents (hrec.subset ?_), hle⟩
      exact List.mem_append_right _ List.mem_cons_self
    refine ⟨fun id hk => hcases hk, fun id hk => ?_, fun k hk hkind => ?_⟩
    · obtain ⟨sid, hsid, -⟩ := hcases hk
      exact ⟨sid, hsid, hsid⟩
    · have hrequest : h.RecordsRequest k ∧
          b.issued.length < (History.commandEvents h).length := by
        rcases hkind with ⟨id, rfl⟩ | ⟨id, rfl⟩
        · obtain ⟨sid, hsid, ha⟩ := hcases hk
          obtain ⟨type, hsched⟩ := scheduled_of_scanAll hsid
          obtain ⟨⟨⟨eid, a⟩, he, rfl⟩, hlt⟩ := hevent ha
          exact ⟨wf.recordsRequest hsched he (hfollow _ he sid rfl), hlt⟩
        · exact hevent (hcases hk)
      rw [decide_eq_true hrequest.2, ← scanHistory_of_updateFree hu]
      exact Prescan.requested_of_records hrequest.1

end RequestGuards

namespace Progress

variable {σ : Type} {s : Setting σ} {S : Prescan} {b b' : Progress σ}

/-- What the body has been told is not taken back. -/
theorem step_trace (h : b.step s S = some b') : b.trace <+: b'.trace := by
  unfold step at h
  split at h
  · cases h
  · split at h
    · cases h
      exact List.prefix_rfl
    · obtain ⟨⟨c, resp⟩, -, rfl⟩ := Option.map_eq_some_iff.mp h
      exact List.prefix_append _ _

theorem reaches_trace (h : StateTransition.Reaches (step s S) b b') : b.trace <+: b'.trace := by
  induction h with
  | refl => exact List.prefix_rfl
  | tail _ hs ih => exact ih.trans (step_trace hs)

end Progress

/-- What a runner is asked to cancel next. -/
def Runner.requests? {σ : Type} (r : Runner σ) : Option Key :=
  match r.program r.trace with
  | .cancel addr => (r.futures addr).key?
  | .cancelExternalWorkflow id => some (.child id)
  | _ => none

theorem Runner.requests?_of_not_request {σ : Type} {r : Runner σ}
    (h : (r.program r.trace).isRequest = false) : r.requests? = none := by
  unfold Runner.requests?
  cases hop : r.program r.trace with
  | cancel addr =>
    rw [hop] at h
    cases h
  | cancelExternalWorkflow id =>
    rw [hop] at h
    cases h
  | _ => rfl

end TemporalSdk
