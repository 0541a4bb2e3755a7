import TemporalSdk.Lifetime

/-! Children and their results. Both the outcome table and the table of live futures are keyed by
workflow id, so a child has its results to itself as long as no other child is started under its
id: then its future is what the one event that closes it says, live and on every replay. -/
namespace TemporalSdk

variable {σ : Type}

/-- How an event closes the child with this id. -/
def EventAttributes.childClosing? (id : String) (a : EventAttributes) : Option Closing :=
  match a.delivery? with
  | some (.child id' c) => if id' = id then some c else none
  | _ => none

/-- The events that close the child with this id. -/
def History.childClosings (p : History) (id : String) : List Closing :=
  p.filterMap (·.attributes.childClosing? id)

/-- The future of a child that has been closed in this way, or not yet. -/
def Closing.childFuture (id : String) : Option Closing → FutureState
  | some c => c.resolveChild { op := .childWorkflow, opId := id }
  | none => { op := .childWorkflow, opId := id }

/-- The future of the child with this id after these events. -/
def History.childFuture (p : History) (id : String) : FutureState :=
  Closing.childFuture id (p.childClosings id).head?

theorem EventAttributes.childClosing?_eq_some {id : String} {a : EventAttributes} {c : Closing} :
    a.childClosing? id = some c ↔ a.delivery? = some (.child id c) := by
  unfold childClosing?
  split
  · next id' c' hd =>
    rw [hd, Option.ite_none_right_eq_some]
    simp
  · next hno =>
    simp only [reduceCtorEq, false_iff]
    exact fun hd => hno id c hd

theorem EventAttributes.ending?_of_childClosing {id : String} {a : EventAttributes} {c : Closing}
    (h : a.childClosing? id = some c) : a.ending? = some (.child id, { ok := c.ok }) :=
  EventAttributes.ending?_of_delivery (childClosing?_eq_some.mp h)

namespace History

theorem childClosings_cons (e : HistoryEvent) (p : History) (id : String) :
    History.childClosings (e :: p) id =
      (e.attributes.childClosing? id).toList ++ History.childClosings p id := by
  unfold childClosings
  rw [List.filterMap_cons]
  cases e.attributes.childClosing? id <;> rfl

theorem childClosings_concat (p : History) (e : HistoryEvent) (id : String) :
    History.childClosings (p ++ [e]) id =
      History.childClosings p id ++ (e.attributes.childClosing? id).toList := by
  unfold childClosings
  rw [List.filterMap_append, List.filterMap_cons]
  cases e.attributes.childClosing? id <;> rfl

theorem childFuture_of_none {p : History} {e : HistoryEvent} {id : String}
    (h : e.attributes.childClosing? id = none) :
    History.childFuture (p ++ [e]) id = p.childFuture id := by
  rw [childFuture, childFuture, childClosings_concat, h, Option.toList_none, List.append_nil]

end History

namespace Ledger

variable {L : Ledger} {p : History} {id : String}

theorem verdict_read_of_childClosing {e : HistoryEvent} {c : Closing} (ha : L.Accepts e)
    (h : e.attributes.childClosing? id = some c) :
    L.verdict (.child id) = none ∧ (L.read e).verdict (.child id) = some { ok := c.ok } := by
  have hend := EventAttributes.ending?_of_childClosing h
  obtain ⟨k, hk, hv⟩ := ha _ hend
  rw [read_of_ending hend, enter_of_key hk, close_verdict]
  obtain ⟨-, hke⟩ := Option.ite_none_right_eq_some.mp hk
  cases hke
  exact ⟨hv, if_pos rfl⟩

/-- A child that has ended is not closed again. -/
theorem childClosings_of_verdict {v : Verdict} (ha : L.AcceptsAll p)
    (hv : L.verdict (.child id) = some v) : p.childClosings id = [] := by
  induction p generalizing L with
  | nil => rfl
  | cons e p ih =>
    rw [History.childClosings_cons, ih ha.2 (verdict_read ha.1 hv), List.append_nil]
    cases hc : e.attributes.childClosing? id with
    | none => rfl
    | some c =>
      have hnone := (verdict_read_of_childClosing ha.1 hc).1
      rw [hv] at hnone
      cases hnone

/-- A child without a verdict has not been closed. -/
theorem childClosings_of_open (ha : L.AcceptsAll p)
    (hv : (p.foldl read L).verdict (.child id) = none) : p.childClosings id = [] := by
  induction p generalizing L with
  | nil => rfl
  | cons e p ih =>
    rw [History.childClosings_cons, ih ha.2 hv, List.append_nil]
    cases hc : e.attributes.childClosing? id with
    | none => rfl
    | some c =>
      have hkept := verdict_kept ha.2 (verdict_read_of_childClosing ha.1 hc).2
      have hkept' : (List.foldl read L (e :: p)).verdict (.child id) = some { ok := c.ok } := hkept
      rw [hkept'] at hv
      cases hv

/-- A child is closed at most once. -/
theorem length_childClosings_le (ha : L.AcceptsAll p) : (p.childClosings id).length ≤ 1 := by
  induction p generalizing L with
  | nil => exact Nat.zero_le _
  | cons e p ih =>
    rw [History.childClosings_cons]
    cases hc : e.attributes.childClosing? id with
    | none => exact ih ha.2
    | some c =>
      rw [childClosings_of_verdict ha.2 (verdict_read_of_childClosing ha.1 hc).2]
      exact Nat.le_refl _

end Ledger

/-- The future of the child that an accepted event closes. -/
theorem History.childFuture_of_closing {p : History} (hp : ({} : Ledger).AcceptsAll p)
    {e : HistoryEvent} (he : (Ledger.ofHistory p).Accepts e) {id : String} {c : Closing}
    (hc : e.attributes.childClosing? id = some c) :
    p.childFuture id = { op := .childWorkflow, opId := id } ∧
      History.childFuture (p ++ [e]) id = c.resolveChild (p.childFuture id) := by
  have hopen := Ledger.childClosings_of_open hp (Ledger.verdict_read_of_childClosing he hc).1
  rw [childFuture, childFuture, childClosings_concat, hopen, hc]
  exact ⟨rfl, rfl⟩

/-- The start of a child with this id is on record. -/
def History.Starts (p : History) (id : String) : Prop :=
  ∃ e ∈ p, ∃ type, e.attributes = .startChildWorkflowExecutionInitiated id type

theorem History.Starts.append {p : History} {id : String} (h : p.Starts id) (p' : History) :
    History.Starts (p ++ p') id := by
  obtain ⟨e, he, htype⟩ := h
  exact ⟨e, List.mem_append_left p' he, htype⟩

/-- The table of children after the events of `p`. -/
structure ChildBooks (p : History) (S : Prescan) : Prop where
  valid : ∀ id, ((S.children id).getD {}).Valid
  future : ∀ id, futureOfEntry .childWorkflow id (S.children id) = p.childFuture id
  starts : ∀ id, ((S.children id).getD {}).scheduled = true → p.Starts id

namespace ChildBooks

variable {p : History} {S S' : Prescan} {e : HistoryEvent}

/-- An event that has nothing to do with children. -/
theorem keep (h : ChildBooks p S) (hc : S'.children = S.children)
    (he : ∀ id, e.attributes.childClosing? id = none) : ChildBooks (p ++ [e]) S' where
  valid id := by rw [hc]; exact h.valid id
  future id := by rw [hc, h.future, History.childFuture_of_none (he id)]
  starts id hs := by
    rw [hc] at hs
    exact (h.starts id hs).append [e]

/-- A change to one outcome that does not show. -/
theorem modify (h : ChildBooks p S) {f : OpOutcome → OpOutcome} {id : String}
    (hc : S'.children = S.children.modify id {} f)
    (hf : ∀ o : OpOutcome, o.Valid → (f o).Valid)
    (hs : futureOfEntry .childWorkflow id (some (f ((S.children id).getD {}))) =
      futureOfEntry .childWorkflow id (S.children id))
    (hstarts : (f ((S.children id).getD {})).scheduled = true → History.Starts (p ++ [e]) id)
    (he : ∀ id, e.attributes.childClosing? id = none) : ChildBooks (p ++ [e]) S' where
  valid j := by
    rw [hc, PartialMap.getD_modify]
    split
    · exact hf _ (h.valid id)
    · exact h.valid j
  future j := by
    rw [History.childFuture_of_none (he j), ← h.future, hc, PartialMap.modify_apply]
    split
    · next hj =>
      subst hj
      exact hs
    · rfl
  starts j hj := by
    rw [hc, PartialMap.getD_modify] at hj
    split at hj
    · next he =>
      rw [he]
      exact hstarts hj
    · exact (h.starts j hj).append [e]

theorem schedule_eq (h : ChildBooks p S) (id : String) :
    futureOfEntry .childWorkflow id (some ((S.children id).getD {}).schedule) =
      futureOfEntry .childWorkflow id (S.children id) := by
  have hvalid := h.valid id
  cases ho : S.children id with
  | none => rfl
  | some o =>
    rw [ho] at hvalid
    by_cases hs : o.scheduled = true
    · have hsame : o.schedule = o := by
        unfold OpOutcome.schedule
        rw [← hs]
      exact congrArg (fun x => futureOfEntry .childWorkflow id (some x)) hsame
    · refine futureOfEntry_schedule _ _ (fun o' ho' => ?_) ?_
      · cases ho'
        exact hs
      · exact Bool.eq_false_iff.mpr fun hr => hs (hvalid.scheduled hr)

/-- The child that an event closes. -/
theorem closes (h : ChildBooks p S) (hb : Books (Ledger.ofHistory p) S)
    (hp : ({} : Ledger).AcceptsAll p) (he : (Ledger.ofHistory p).Accepts e) {id : String}
    {c : Closing} (hd : e.attributes.delivery? = some (.child id c)) :
    ChildBooks (p ++ [e]) (S.scanEvent e) := by
  have hc := EventAttributes.childClosing?_eq_some.mpr hd
  obtain ⟨k, hk, hv⟩ := he _ (EventAttributes.ending?_of_childClosing hc)
  have hopened := hb.opened _ k hk
  have htells := hb.tells k
  rw [hv] at htells
  obtain ⟨-, hke⟩ := Option.ite_none_right_eq_some.mp hk
  cases hke
  obtain ⟨o, ho⟩ : ∃ o, S.children id = some o := by
    cases ho : S.children id with
    | none => simp [Prescan.outcome, ho] at hopened
    | some o => exact ⟨o, rfl⟩
  simp only [Prescan.outcome, ho, Option.getD_some] at hopened htells
  have hvalid : o.Valid := by
    have hv' := h.valid id
    rwa [ho] at hv'
  have hchildren : (S.scanEvent e).children = S.children.modify id {} c.outcome := by
    rw [S.scanEvent_deliver hd]
    rfl
  refine ⟨fun j => ?_, fun j => ?_, fun j hj => ?_⟩
  · rw [hchildren, PartialMap.getD_modify]
    split
    · rw [ho, Option.getD_some, c.outcome_eq hvalid htells.1]
      cases c <;> refine ⟨fun _ => hopened, ?_, ?_, ?_, ?_⟩ <;> intro hclosed <;> cases hclosed
    · exact h.valid j
  · rw [hchildren, PartialMap.modify_apply]
    split
    · next hj =>
      subst hj
      rw [ho, Option.getD_some,
        ← c.resolveChild_futureOfEntry _ _ hopened htells.1 hvalid, ← ho, h.future,
        (History.childFuture_of_closing hp he hc).2]
    · next hj =>
      have hnone : e.attributes.childClosing? j = none := by
        simp only [EventAttributes.childClosing?, hd, if_neg (Ne.symm hj)]
      rw [h.future, History.childFuture_of_none hnone]
  · refine (h.starts j ?_).append [e]
    rw [hchildren, PartialMap.getD_modify] at hj
    split at hj
    · next he =>
      rw [he, ← hj, c.outcome_scheduled]
    · exact hj

theorem scanEvent (h : ChildBooks p S) (hb : Books (Ledger.ofHistory p) S)
    (hp : ({} : Ledger).AcceptsAll p) (he : (Ledger.ofHistory p).Accepts e) :
    ChildBooks (p ++ [e]) (S.scanEvent e) := by
  cases hd : e.attributes.delivery? with
  | some d =>
    cases d with
    | child id c => exact h.closes hb hp he hd
    | _ =>
      refine h.keep ?_ fun j => by simp only [EventAttributes.childClosing?, hd]
      rw [S.scanEvent_deliver hd]
      first
        | rfl
        | (simp only [Prescan.deliver, Prescan.onActivity, Prescan.onNexus]; split <;> rfl)
  | none =>
    have hnone : ∀ j, e.attributes.childClosing? j = none := fun j => by
      simp only [EventAttributes.childClosing?, hd]
    obtain ⟨eid, a⟩ := e
    cases a with
    | startChildWorkflowExecutionInitiated id type =>
      exact h.modify rfl (fun _ ho => ho.schedule) (h.schedule_eq id)
        (fun _ => ⟨_, List.mem_append_right p List.mem_cons_self, type, rfl⟩) hnone
    | requestCancelExternalWorkflowExecutionInitiated id =>
      exact h.modify rfl (fun _ ho => ho.requestCancel) (futureOfEntry_requestCancel _ _ _)
        (fun hs => (h.starts id hs).append _) hnone
    | activityTaskCancelRequested sid =>
      refine h.keep ?_ hnone
      simp only [Prescan.scanEvent, Prescan.onActivity]
      split <;> rfl
    | markerRecorded name details =>
      exact h.keep (Prescan.scanMarker_sameTables _ name details).children hnone
    | _ => first
      | (cases hd; done)
      | exact h.keep rfl hnone

theorem scan {h : History} {seenUpdate : Bool} (hbooks : ChildBooks p S)
    (hb : Books (Ledger.ofHistory p) S) (hp : ({} : Ledger).AcceptsAll p)
    (ha : (Ledger.ofHistory p).AcceptsAll (History.scannedFrom seenUpdate h)) :
    ChildBooks (p ++ History.scannedFrom seenUpdate h) (h.foldl scanStep (S, seenUpdate)).1 := by
  induction h generalizing p S seenUpdate with
  | nil =>
    rw [History.scannedFrom, List.append_nil]
    exact hbooks
  | cons e h ih =>
    have hpos : Books (Ledger.ofHistory p) { S with lastEventId := e.eventId } :=
      hb.same ⟨rfl, rfl, rfl, rfl, rfl, rfl, rfl⟩
    have hbooks' : ChildBooks p { S with lastEventId := e.eventId } :=
      ⟨hbooks.valid, hbooks.future, hbooks.starts⟩
    rw [History.scannedFrom] at ha ⊢
    rw [List.foldl_cons, scanStep]
    by_cases hd : (seenUpdate && isDeferredOnReplay e.attributes) = true
    · rw [if_pos hd] at ha ⊢
      rw [if_pos hd]
      exact ih ⟨hbooks.valid, hbooks.future, hbooks.starts⟩
        (hpos.same ⟨rfl, rfl, rfl, rfl, rfl, rfl, rfl⟩) hp ha
    · rw [if_neg hd] at ha ⊢
      rw [if_neg hd, List.append_cons]
      have hread := Ledger.ofHistory_concat p e
      refine ih (hbooks'.scanEvent hpos hp ha.1) ?_ (hp.concat ha.1) (hread ▸ ha.2)
      rw [hread]
      exact hpos.scanEvent ha.1

/-- The table of children of a fresh runner. -/
theorem scanHistory {h : History} (ha : ({} : Ledger).AcceptsAll h.scanned) :
    ChildBooks h.scanned (scanHistory h) := by
  have hstart : ChildBooks [] {} := ⟨fun _ => ⟨nofun, fun _ => rfl, fun _ => rfl, fun _ => rfl,
    fun _ => rfl⟩, fun _ => rfl, nofun⟩
  have hempty : Books (Ledger.ofHistory []) {} := .scanHistory (h := []) trivial
  exact hstart.scan hempty trivial ha

end ChildBooks

namespace Runner

variable {p : History} {r q : Runner σ} {L : Ledger} {id : String} {a : Nat}

/-- A child's future is at no address that belongs to something else. -/
theorem Settled.ne_of_child (h : Settled L r) (ha : r.childFutures id = some a) {b : Nat}
    (hb : (r.futures b).key? ≠ some (.child id)) : a ≠ b := by
  rintro rfl
  exact hb ((h.addrs (.child id) a).mp ha).2

/-- No operation writes the future of a child. -/
theorem Settled.exec_child (h : Settled L r) {op : Op σ} {resp : Resp σ}
    (hx : r.exec op = some (q, resp)) (ha : r.childFutures id = some a) :
    q.futures a = r.futures a := by
  have hlt : a < r.futureCount := ((h.addrs (.child id) a).mp ha).1
  cases ho : op.touchesFutures with
  | false => exact congrFun (congrArg Operations.futures (r.exec_operations ho hx)) a
  | true =>
    cases op with
    | scheduleActivity type input options =>
      cases hx
      rw [r.scheduleActivity_eq]
      exact Function.update_of_ne hlt.ne _ _
    | startTimer duration =>
      cases hx
      rw [r.startTimer_eq]
      exact Function.update_of_ne hlt.ne _ _
    | startChildWorkflow type input options =>
      cases hx
      rw [r.startChildWorkflow_eq]
      exact Function.update_of_ne hlt.ne _ _
    | scheduleNexusOperation endpoint service operation input close =>
      cases hx
      rw [r.scheduleNexusOperation_eq]
      exact Function.update_of_ne hlt.ne _ _
    | awaitCancellation =>
      cases hx
      unfold Runner.awaitCancellation
      split <;> exact Function.update_of_ne hlt.ne _ _
    | cancel addr =>
      cases hx
      have heffect := r.cancel_effect addr
      generalize r.cancel addr = q at heffect ⊢
      cases heffect with
      | timer hop hfresh =>
        refine Function.update_of_ne (h.ne_of_child ha fun hkey => ?_) _ _
        simp [FutureState.key?, hop] at hkey
      | _ => rfl
    | _ => cases ho

/-- Only the start of a child registers one. -/
theorem exec_childFutures {op : Op σ} {resp : Resp σ} (hx : r.exec op = some (q, resp)) :
    q.childFutures = r.childFutures ∨
      ∃ type input options, op = .startChildWorkflow type input options := by
  cases ho : op.touchesFutures with
  | false => exact .inl (congrArg Operations.childFutures (r.exec_operations ho hx))
  | true =>
    cases op with
    | startChildWorkflow type input options => exact .inr ⟨type, input, options, rfl⟩
    | scheduleActivity type input options =>
      cases hx
      rw [r.scheduleActivity_eq]
      exact .inl rfl
    | startTimer duration =>
      cases hx
      rw [r.startTimer_eq]
      exact .inl rfl
    | scheduleNexusOperation endpoint service operation input close =>
      cases hx
      rw [r.scheduleNexusOperation_eq]
      exact .inl rfl
    | awaitCancellation =>
      cases hx
      left
      unfold Runner.awaitCancellation
      split <;> rfl
    | cancel addr =>
      cases hx
      left
      have heffect := r.cancel_effect addr
      generalize r.cancel addr = q at heffect ⊢
      cases heffect <;> rfl
    | _ => cases ho

/-- An event writes the future of a child only if it closes it. -/
theorem Settled.given_child (h : Settled L r) {e : HistoryEvent}
    (hc : e.attributes.childClosing? id = none) (ha : r.childFutures id = some a) :
    (r.applyEventToState e).futures a = r.futures a := by
  -- what is registered for another operation is another future
  have hne {k : Key} (hk : k ≠ .child id) : r.addr? k ≠ some a := fun hb => by
    have hone := ((h.addrs k a).mp hb).2.symm.trans ((h.addrs (.child id) a).mp ha).2
    exact hk (Option.some.inj hone)
  cases hd : e.attributes.delivery? with
  | some d =>
    rw [r.applyEventToState_deliver hd]
    cases d with
    | activity sid c =>
      refine r.resolveFuture_of_ne _ fun hb => ?_
      obtain ⟨id', -, hb⟩ := Option.bind_eq_some_iff.mp hb
      exact hne (k := .activity id') nofun hb
    | nexus sid c =>
      refine r.resolveFuture_of_ne _ fun hb => ?_
      obtain ⟨id', -, hb⟩ := Option.bind_eq_some_iff.mp hb
      exact hne (k := .nexus id') nofun hb
    | child id' c =>
      have hid : id' ≠ id := by
        rintro rfl
        rw [EventAttributes.childClosing?_eq_some.mpr hd] at hc
        cases hc
      exact r.resolveFuture_of_ne _ (hne (k := .child id') (by simpa using hid))
    | timer id' => exact r.resolveFuture_of_ne _ (hne (k := .timer id') nofun)
    | signal name input => rfl
    | cancelRequest =>
      have hout : a ∉ r.cancelFutures := fun hmem => by
        have hone := (h.cancels a hmem).2.symm.trans ((h.addrs (.child id) a).mp ha).2
        cases hone
      rw [Runner.deliver, Runner.foldl_setFuture_eq]
      exact if_neg hout
  | none =>
    obtain ⟨eid, attrs⟩ := e
    cases attrs with
    | timerCanceled id' => exact r.resolveFuture_of_ne _ (hne (k := .timer id') nofun)
    | _ => first
      | (cases hd; done)
      | rfl

theorem applyEventToState_childFutures (r : Runner σ) (e : HistoryEvent) :
    (r.applyEventToState e).childFutures = r.childFutures := by
  obtain ⟨scan, futures, he⟩ := r.applyEventToState_touches e
  rw [he]

/-- Events are not entered in the table of children. -/
theorem applyEventToState_children (r : Runner σ) (e : HistoryEvent) :
    (r.applyEventToState e).scan.children = r.scan.children := by
  obtain ⟨eid, attrs⟩ := e
  cases attrs <;> first
    | rfl
    | exact congrArg Prescan.children (r.resolveFuture_scan _ _)
    | exact (congrArg Prescan.children (Runner.foldl_setFuture_scan _ _)).trans rfl
    | (simp only [Runner.applyEventToState, Prescan.onActivity]; split <;> rfl)

/-- A runner against the children of its events: the futures of those it has started, and the table
for those that are still to be started. -/
structure ChildrenSettled (p : History) (r : Runner σ) : Prop where
  shown : ∀ id a, r.childFutures id = some a → r.futures a = p.childFuture id
  ahead : ∀ id, r.childFutures id = none →
    futureOfEntry .childWorkflow id (r.scan.children id) = p.childFuture id
  starts : ∀ id, ((r.scan.children id).getD {}).scheduled = true → p.Starts id

theorem ChildrenSettled.exec (h : ChildrenSettled p r) (hs : Settled L r) {op : Op σ}
    {resp : Resp σ} (hfresh : r.StartsAfresh op) (hx : r.exec op = some (q, resp)) :
    ChildrenSettled p q := by
  have hscan : q.scan = r.scan := (r.exec_frame hx).scan
  have hkept {id : String} {a : Nat} (ha : r.childFutures id = some a) :
      q.futures a = p.childFuture id := (hs.exec_child hx ha).trans (h.shown id a ha)
  rcases exec_childFutures hx with hsame | ⟨type, input, options, rfl⟩
  · refine ⟨fun id a ha => hkept (hsame ▸ ha), fun id ha => ?_, by rw [hscan]; exact h.starts⟩
    rw [hscan]
    exact h.ahead id (hsame ▸ ha)
  · have hadd : q.childFutures = r.childFutures.insert (r.childId options) r.futureCount := by
      cases hx
      rw [r.startChildWorkflow_eq]
    have hnew : q.futures r.futureCount = p.childFuture (r.childId options) := by
      rw [← h.ahead (r.childId options) hfresh]
      cases hx
      rw [r.startChildWorkflow_eq]
      exact Function.update_self _ _ _
    refine ⟨fun id a ha => ?_, fun id ha => ?_, by rw [hscan]; exact h.starts⟩
    · rw [hadd, PartialMap.insert_apply] at ha
      split at ha
      · next hid =>
        cases ha
        rw [hnew, hid]
      · exact hkept ha
    · rw [hadd, PartialMap.insert_apply] at ha
      rw [hscan]
      split at ha
      · cases ha
      · exact h.ahead id ha

theorem ChildrenSettled.given (h : ChildrenSettled p r) (hs : Settled (Ledger.ofHistory p) r)
    (hp : ({} : Ledger).AcceptsAll p) {e : HistoryEvent} (ha : (Ledger.ofHistory p).Accepts e)
    (hfinds : r.Finds (Ledger.ofHistory p) e) :
    ChildrenSettled (p ++ [e]) (r.applyEventToState e) := by
  refine ⟨fun id a hat => ?_, fun id hat => ?_, fun id hs => ?_⟩
  · rw [applyEventToState_childFutures] at hat
    cases hc : e.attributes.childClosing? id with
    | none => rw [hs.given_child hc hat, h.shown id a hat, History.childFuture_of_none hc]
    | some c =>
      rw [(History.childFuture_of_closing hp ha hc).2, ← h.shown id a hat,
        r.applyEventToState_deliver (EventAttributes.childClosing?_eq_some.mp hc)]
      simp only [Runner.deliver, hat, resolveFuture]
      exact Function.update_self _ _ _
  · rw [applyEventToState_childFutures] at hat
    cases hc : e.attributes.childClosing? id with
    | none => rw [applyEventToState_children, h.ahead id hat, History.childFuture_of_none hc]
    | some c =>
      have hend := EventAttributes.ending?_of_childClosing hc
      obtain ⟨k, hk, -⟩ := ha _ hend
      have hfound := hfinds _ hend rfl k hk
      obtain ⟨-, hke⟩ := Option.ite_none_right_eq_some.mp hk
      cases hke
      simp only [addr?, hat, Option.isSome_none, Bool.false_eq_true] at hfound
  · rw [applyEventToState_children] at hs
    exact (h.starts id hs).append [e]

/-- Every child's future is what the event that closed it says, or is still open. -/
theorem Lived.children (h : Lived p r) : ChildrenSettled p r := by
  induction h with
  | built info isReplaying world fn ha =>
    exact ⟨fun id a hat => (Option.some_ne_none a hat.symm).elim,
      fun id _ => (ChildBooks.scanHistory ha).future id, (ChildBooks.scanHistory ha).starts⟩
  | asked hr hfresh hx ih => exact ih.exec hr.settled hfresh hx
  | given hr ha hfinds ih => exact ih.given hr.settled hr.acceptsAll ha hfinds
  | @noted p r q hr hscan hops ih =>
    have hf : q.futures = r.futures := congrArg Operations.futures hops
    have hc : q.childFutures = r.childFutures := congrArg Operations.childFutures hops
    exact ⟨fun id a hat => (congrFun hf a).trans (ih.shown id a (hc ▸ hat)), fun id hat => by
      rw [hscan.children]
      exact ih.ahead id (hc ▸ hat), by rw [hscan.children]; exact ih.starts⟩

/-- The future of a closed child is the same after all events that are known to both. -/
theorem childFuture_of_subset {p p' : History} (hp' : ({} : Ledger).AcceptsAll p')
    (hsub : p ⊆ p') {id : String} (hready : (p.childFuture id).ready = true) :
    p'.childFuture id = p.childFuture id := by
  unfold History.childFuture at hready ⊢
  cases hc : (p.childClosings id).head? with
  | none =>
    rw [hc] at hready
    cases hready
  | some c =>
    obtain ⟨e, he, hclosing⟩ := List.mem_filterMap.mp (List.mem_of_head? hc)
    have hmem : c ∈ p'.childClosings id := List.mem_filterMap.mpr ⟨e, hsub he, hclosing⟩
    obtain ⟨d, hd⟩ := List.length_eq_one_iff.mp
      (le_antisymm (Ledger.length_childClosings_le hp') (List.length_pos_of_mem hmem))
    rw [hd, List.mem_singleton] at hmem
    rw [hd, hmem]
    rfl

/-- Children keep their results as long as no id is used twice: a start that is not on record emits
its command; the future of a child is resolved by the one event that closes it and by no other; and
once it is resolved, it is the same on every replay of the events it has seen. -/
theorem children_keep_results {p : History} {r : Runner σ} (h : Lived p r) :
    (∀ type input options, ¬ p.Starts (r.childId options) →
      (r.startChildWorkflow type input options).commands = r.commands ++
        [.startChildWorkflowExecution r.info.ns (r.childId options) type
          (r.queueOr options.taskQueue) input options.parentClosePolicy]) ∧
    (∀ id a, r.childFutures id = some a →
      (p.childClosings id).length ≤ 1 ∧ r.futures a = p.childFuture id) ∧
    ∀ (p' : History) (r' : Runner σ), Lived p' r' → p ⊆ p' → ∀ id a a',
      r.childFutures id = some a → r'.childFutures id = some a' →
      (r.futures a).ready = true → r'.futures a' = r.futures a := by
  refine ⟨fun type input options hnew => ?_, fun id a ha => ?_, ?_⟩
  · have hrecorded : OpOutcome.recorded (r.scan.children (r.childId options)) = false := by
      refine Bool.eq_false_iff.mpr fun hrec => hnew (h.children.starts _ ?_)
      cases hchild : r.scan.children (r.childId options) with
      | none =>
        rw [hchild] at hrec
        cases hrec
      | some o =>
        rw [hchild] at hrec
        exact hrec
    rw [r.startChildWorkflow_eq, hrecorded]
    rfl
  · exact ⟨Ledger.length_childClosings_le h.acceptsAll, h.children.shown id a ha⟩
  · intro p' r' h' hsub id a a' ha ha' hready
    rw [h.children.shown id a ha] at hready ⊢
    rw [h'.children.shown id a' ha']
    exact childFuture_of_subset h'.acceptsAll hsub hready

end Runner

/-- A body that runs two children and waits for the second one first. -/
def callBoth : WorkflowFn Unit where
  init := ()
  body _ answers :=
    match answers with
    | [] => .startChildWorkflow "Child" [] {}
    | [_] => .startChildWorkflow "Sibling" [] {}
    | [_, _] => .get 1
    | [_, _, _] => .get 0
    | _ => .finish (.returned [])

/-- The second child has completed, and the first is still running. -/
def callDone : History :=
  callTask ++ [⟨4, .other⟩, ⟨5, .startChildWorkflowExecutionInitiated "_c0" "Child"⟩,
    ⟨6, .startChildWorkflowExecutionInitiated "_c1" "Sibling"⟩,
    ⟨7, .childWorkflowExecutionCompleted "_c1" [{ data := [1] }]⟩, ⟨8, .other⟩, ⟨9, .other⟩]

def callFailed : History :=
  [⟨10, .childWorkflowExecutionFailed "_c0" { message := "lost", type := "Lost" }⟩, ⟨11, .other⟩,
    ⟨12, .other⟩]

/-- A replay in which one of the children has completed, and a later one in which the other has
failed too. Each future shows what its own child's event brought, and goes on to. -/
theorem callBoth_keeps_results :
    let first := (Runner.replay {} true (.plain .tagged) callBoth callDone).run 10
    let later := (Runner.replay {} true (.plain .tagged) callBoth (callDone ++ callFailed)).run 10
    first.futures 1 = callDone.childFuture "_c1" ∧ (first.futures 1).result = [{ data := [1] }] ∧
      (first.futures 0).ready = false ∧ later.futures 1 = first.futures 1 ∧
      later.futures 0 = (callDone ++ callFailed).childFuture "_c0" ∧
      (later.futures 0).failureMessage = "lost" := by
  intro first later
  have hlived := Runner.Lived.of_replay {} (.plain .tagged) callBoth callDone 10
    (by decide +kernel) (by unfold Runner.AllAfresh; decide +kernel) (by decide +kernel)
  have hlater := Runner.Lived.of_replay {} (.plain .tagged) callBoth (callDone ++ callFailed) 10
    (by decide +kernel) (by unfold Runner.AllAfresh; decide +kernel) (by decide +kernel)
  obtain ⟨-, hshown, hkept⟩ := Runner.children_keep_results hlived
  obtain ⟨-, hshownLater, -⟩ := Runner.children_keep_results hlater
  refine ⟨(hshown "_c1" 1 (by decide +kernel)).2, by decide +kernel, by decide +kernel, ?_,
    (hshownLater "_c0" 0 (by decide +kernel)).2, by decide +kernel⟩
  exact hkept _ _ hlater (by decide +kernel) "_c1" 1 1 (by decide +kernel) (by decide +kernel)
    (by decide +kernel)

/-- A body that runs a child and then another under the same id. -/
def redoJob : WorkflowFn Unit where
  init := ()
  body _ answers :=
    match answers with
    | [] => .startChildWorkflow "Child" [] { id := "job" }
    | [_] => .get 0
    | [_, _] => .startChildWorkflow "Child" [] { id := "job" }
    | [_, _, _] => .get 1
    | _ => .finish (.returned [])

/-- The task in which the first child has completed. -/
def jobDone : History :=
  [⟨4, .other⟩, ⟨5, .startChildWorkflowExecutionInitiated "job" "Child"⟩,
    ⟨6, .childWorkflowExecutionCompleted "job" [{}]⟩, ⟨7, .other⟩, ⟨8, .other⟩]

/-- The cached runner starts the second child and waits for it. A runner that is rebuilt for the
task takes the result of the first child for that of the second, does not start it, and ends. -/
theorem second_job_not_started :
    let live := ((Runner.replay {} false (.plain .tagged) redoJob callTask).run 10).applyAndResume
      10 jobDone
    let rebuilt := (Runner.replay {} true (.plain .tagged) redoJob (callTask ++ jobDone)).run 10
    live.commands = [.startChildWorkflowExecution "" "job" "Child" "" [] .terminate] ∧
      (live.futures 1).ready = false ∧ live.done = false ∧ rebuilt.commands = [] ∧
      (rebuilt.futures 1).ready = true ∧ (rebuilt.futures 1).result = [{}] ∧
      rebuilt.done = true := by
  decide +kernel

end TemporalSdk
