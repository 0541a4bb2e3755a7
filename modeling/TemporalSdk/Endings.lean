import TemporalSdk.Issued

/-! How operations end. The server names the operation an event ends in its own way: by the id of
the schedule event for activities and Nexus operations, by the id of the operation for children and
timers. A ledger reads the events in that way and keeps the verdict on each operation; the outcome
tables of the scan say the same, but for the endings that both switches forget. -/
namespace TemporalSdk

/-- How an operation ended, and whether by an event that `ScanHistory` and `ApplyEventToState`
know. -/
structure Verdict where
  ok : Bool
  known : Bool := true
  deriving DecidableEq, Repr

/-- The events by which the server ends an operation. -/
def EventAttributes.ending? : EventAttributes → Option (OpRef × Verdict)
  | .activityTaskCompleted sid _ => some (.activity sid, { ok := true })
  | .activityTaskFailed sid _ | .activityTaskTimedOut sid | .activityTaskCanceled sid =>
    some (.activity sid, { ok := false })
  | .timerFired id => some (.timer id, { ok := true })
  | .childWorkflowExecutionCompleted id _ => some (.child id, { ok := true })
  | .childWorkflowExecutionFailed id _ | .childWorkflowExecutionCanceled id =>
    some (.child id, { ok := false })
  | .startChildWorkflowExecutionFailed id | .childWorkflowExecutionTimedOut id
  | .childWorkflowExecutionTerminated id => some (.child id, { ok := false, known := false })
  | .nexusOperationCompleted sid _ => some (.nexus sid, { ok := true })
  | .nexusOperationFailed sid _ | .nexusOperationTimedOut sid | .nexusOperationCanceled sid =>
    some (.nexus sid, { ok := false })
  | _ => none

/-- What the server has said about the operations of an execution. -/
structure Ledger where
  activityOf : PartialMap Nat String := fun _ => none
  nexusOf : PartialMap Nat String := fun _ => none
  nexusCount : Nat := 0
  children : List String := []
  timers : List String := []
  verdict : PartialMap Key Verdict := fun _ => none

namespace Ledger

/-- The operation an event names, if it is open. -/
def key? (L : Ledger) : OpRef → Option Key
  | .activity sid => (L.activityOf sid).map .activity
  | .nexus sid => (L.nexusOf sid).map .nexus
  | .child id => if id ∈ L.children then some (.child id) else none
  | .timer id => if id ∈ L.timers then some (.timer id) else none

def close (L : Ledger) (k : Key) (v : Verdict) : Ledger :=
  { L with verdict := L.verdict.insert k v }

theorem close_verdict (L : Ledger) (k : Key) (v : Verdict) (j : Key) :
    (L.close k v).verdict j = if j = k then some v else L.verdict j :=
  PartialMap.insert_apply _ _ _ _

/-- An ending is put down against its operation. -/
def enter (L : Ledger) (ending : Option (OpRef × Verdict)) : Ledger :=
  match ending.bind fun x => (L.key? x.1).map fun k => (k, x.2) with
  | some (k, v) => L.close k v
  | none => L

theorem enter_of_key {L : Ledger} {ref : OpRef} {k : Key} (h : L.key? ref = some k) (v : Verdict) :
    L.enter (some (ref, v)) = L.close k v := by
  rw [enter, Option.bind_some, h, Option.map_some]

def read (L : Ledger) (e : HistoryEvent) : Ledger :=
  match e.attributes with
  | .activityTaskScheduled id _ => { L with activityOf := L.activityOf.insert e.eventId id }
  | .nexusOperationScheduled =>
    { L with
      nexusOf := L.nexusOf.insert e.eventId (toString L.nexusCount)
      nexusCount := L.nexusCount + 1 }
  | .startChildWorkflowExecutionInitiated id _ => { L with children := id :: L.children }
  | .timerStarted id => { L with timers := id :: L.timers }
  | a => L.enter a.ending?

def ofHistory (h : History) : Ledger := h.foldl read {}

/-- An event that ends an operation ends one that is open. -/
def Accepts (L : Ledger) (e : HistoryEvent) : Prop :=
  ∀ x ∈ e.attributes.ending?, ∃ k ∈ L.key? x.1, L.verdict k = none

instance (L : Ledger) (e : HistoryEvent) : Decidable (L.Accepts e) := by
  unfold Accepts
  infer_instance

/-- The server ends every operation at most once, and not before it is open. -/
def AcceptsAll (L : Ledger) : History → Prop
  | [] => True
  | e :: h => L.Accepts e ∧ (L.read e).AcceptsAll h

instance decidableAcceptsAll (L : Ledger) (h : History) : Decidable (L.AcceptsAll h) :=
  match h with
  | [] => isTrue trivial
  | e :: h =>
    have := decidableAcceptsAll (L.read e) h
    inferInstanceAs (Decidable (_ ∧ _))

theorem read_of_ending {L : Ledger} {e : HistoryEvent} {x : OpRef × Verdict}
    (h : e.attributes.ending? = some x) : L.read e = L.enter (some x) := by
  obtain ⟨eid, a⟩ := e
  cases a <;> cases h <;> rfl

theorem read_verdict_of_none {L : Ledger} {e : HistoryEvent} (h : e.attributes.ending? = none) :
    (L.read e).verdict = L.verdict := by
  obtain ⟨eid, a⟩ := e
  cases a <;> first
    | rfl
    | cases h

/-- Only children end in a way that is not looked at. -/
theorem read_forgotten {L : Ledger} {e : HistoryEvent}
    (h : ∀ k ok, L.verdict k = some ⟨ok, false⟩ → ∃ id, k = .child id) (ha : L.Accepts e) :
    ∀ k ok, (L.read e).verdict k = some ⟨ok, false⟩ → ∃ id, k = .child id := by
  intro k ok hv
  cases he : e.attributes.ending? with
  | none =>
    rw [read_verdict_of_none he] at hv
    exact h k ok hv
  | some x =>
    obtain ⟨j, hj, -⟩ := ha x he
    rw [read_of_ending he, enter_of_key hj, close_verdict] at hv
    split at hv
    · next hkj =>
      have hx : x.2 = ⟨ok, false⟩ := Option.some.inj hv
      have hchild : ∃ id, x.1 = .child id := by
        obtain ⟨eid, a⟩ := e
        cases a <;> cases he <;> first
          | exact ⟨_, rfl⟩
          | cases hx
      obtain ⟨id, hid⟩ := hchild
      rw [hid] at hj
      obtain ⟨-, hke⟩ := Option.ite_none_right_eq_some.mp hj
      exact ⟨id, by rw [hkj, ← Option.some.inj hke]⟩
    · exact h k ok hv

/-- A verdict is final. -/
theorem verdict_read {L : Ledger} {e : HistoryEvent} (ha : L.Accepts e) {k : Key} {v : Verdict}
    (hv : L.verdict k = some v) : (L.read e).verdict k = some v := by
  cases he : e.attributes.ending? with
  | none => rw [read_verdict_of_none he, hv]
  | some x =>
    obtain ⟨j, hj, hnone⟩ := ha x he
    have hne : k ≠ j := by
      rintro rfl
      rw [hv] at hnone
      cases hnone
    rw [read_of_ending he, enter_of_key hj, close_verdict, if_neg hne, hv]

theorem verdict_kept {L : Ledger} {h : History} (ha : L.AcceptsAll h) {k : Key} {v : Verdict}
    (hv : L.verdict k = some v) : (h.foldl read L).verdict k = some v := by
  induction h generalizing L with
  | nil => exact hv
  | cons e h ih => exact ih ha.2 (verdict_read ha.1 hv)

/-- Every ending is put down against the operation it names. -/
theorem verdict_of_ending {L : Ledger} {h : History} (ha : L.AcceptsAll h) {i : Nat}
    {e : HistoryEvent} (hi : h[i]? = some e) {ref : OpRef} {v : Verdict}
    (he : e.attributes.ending? = some (ref, v)) :
    ∃ k ∈ ((h.take i).foldl read L).key? ref, (h.foldl read L).verdict k = some v := by
  induction h generalizing L i with
  | nil => cases hi
  | cons e' h ih =>
    cases i with
    | zero =>
      obtain rfl : e' = e := Option.some.inj hi
      obtain ⟨k, hk, -⟩ := ha.1 _ he
      refine ⟨k, hk, verdict_kept ha.2 ?_⟩
      rw [read_of_ending he, enter_of_key hk, close_verdict, if_pos rfl]
    | succ i => exact ih ha.2 hi

theorem AcceptsAll.concat {L : Ledger} {h : History} (ha : L.AcceptsAll h) {e : HistoryEvent}
    (he : (h.foldl read L).Accepts e) : L.AcceptsAll (h ++ [e]) := by
  induction h generalizing L with
  | nil => exact ⟨he, trivial⟩
  | cons e' h ih => exact ⟨ha.1, ih ha.2 he⟩

theorem ofHistory_concat (h : History) (e : HistoryEvent) :
    ofHistory (h ++ [e]) = (ofHistory h).read e := by
  rw [ofHistory, List.foldl_append]
  rfl

end Ledger

/-- The outcome of an operation as the tables of the scan have it. -/
def Prescan.outcome (S : Prescan) : Key → OpOutcome
  | .activity id => (S.activities id).getD {}
  | .timer id =>
    { scheduled := ((S.timers id).getD {}).started, resolved := ((S.timers id).getD {}).fired }
  | .child id => (S.children id).getD {}
  | .nexus id => (S.nexusOps id).getD {}
  | .cancellation => {}

/-- An outcome that says what the verdict is: nothing, if there is none, or if the event that ended
the operation is one the switches forget. -/
def OpOutcome.Tells (o : OpOutcome) : Option Verdict → Prop
  | some ⟨ok, true⟩ => o.scheduled = true ∧ o.resolved = true ∧ o.failed = !ok
  | _ => o.resolved = false ∧ o.failed = false

/-- The same for a future that has been handed out. The future of a timer is also made ready by
`Cancel`. -/
def FutureState.Shows (f : FutureState) : Option Verdict → Prop
  | some ⟨ok, true⟩ => f.ready = true ∧ f.failed = !ok
  | some ⟨_, false⟩ => f.ready = false ∧ f.failed = false
  | none => f.failed = false ∧ (f.op ≠ .timer → f.ready = false)

section Outcomes

variable {S : Prescan} {f : OpOutcome → OpOutcome}

/-- The outcomes after a change to one of them. -/
def Prescan.Changes (S S' : Prescan) (k : Key) (f : OpOutcome → OpOutcome) : Prop :=
  ∀ j, S'.outcome j = if j = k then f (S.outcome k) else S.outcome j

theorem Prescan.changes_activity {S' : Prescan} (id : String)
    (ha : S'.activities = S.activities.modify id {} f) (ht : S'.timers = S.timers)
    (hc : S'.children = S.children) (hn : S'.nexusOps = S.nexusOps) :
    S.Changes S' (.activity id) f := by
  intro j
  cases j <;> simp [Prescan.outcome, ha, ht, hc, hn, PartialMap.getD_modify]

theorem Prescan.changes_nexus {S' : Prescan} (id : String)
    (ha : S'.activities = S.activities) (ht : S'.timers = S.timers)
    (hc : S'.children = S.children) (hn : S'.nexusOps = S.nexusOps.modify id {} f) :
    S.Changes S' (.nexus id) f := by
  intro j
  cases j <;> simp [Prescan.outcome, ha, ht, hc, hn, PartialMap.getD_modify]

theorem Prescan.onChild_changes (id : String) : S.Changes (S.onChild id f) (.child id) f := by
  intro j
  cases j <;> simp [Prescan.outcome, Prescan.onChild, PartialMap.getD_modify]

theorem Prescan.onTimer_changes (id : String) {g : TimerOutcome → TimerOutcome}
    (hg : ∀ o : TimerOutcome,
      ({ scheduled := (g o).started, resolved := (g o).fired } : OpOutcome) =
        f { scheduled := o.started, resolved := o.fired }) :
    S.Changes (S.onTimer id g) (.timer id) f := by
  intro j
  cases j with
  | timer j =>
    by_cases hj : j = id
    · subst hj
      simp only [Prescan.outcome, Prescan.onTimer, PartialMap.modify_self, Option.getD_some,
        if_true]
      exact hg _
    · simp [Prescan.outcome, Prescan.onTimer, hj]
  | _ => simp [Prescan.outcome, Prescan.onTimer]

theorem Prescan.outcome_of_sameTables {S' : Prescan} (h : SameTables S S') (k : Key) :
    S'.outcome k = S.outcome k := by
  cases k <;> simp only [Prescan.outcome, h.activities, h.timers, h.children, h.nexusOps]

theorem OpOutcome.Tells.of_eq {o o' : OpOutcome} {v : Option Verdict} (h : o.Tells v)
    (hs : o.scheduled = true → o'.scheduled = true) (hr : o'.resolved = o.resolved)
    (hf : o'.failed = o.failed) : o'.Tells v := by
  unfold OpOutcome.Tells at h ⊢
  rw [hr, hf]
  split <;> simp_all

def Closing.ok : Closing → Bool
  | .completed _ => true
  | .failed .. => false

theorem OpOutcome.Tells.close {o : OpOutcome} (h : o.Tells none) (hs : o.scheduled = true)
    (c : Closing) : (c.outcome o).Tells (some { ok := c.ok }) := by
  refine ⟨(c.outcome_scheduled o).trans hs, c.outcome_resolved o, ?_⟩
  cases c with
  | completed result => exact h.2
  | failed type message => rfl

end Outcomes

/-- The ending a delivery brings. -/
def Delivery.ending? : Delivery → Option (OpRef × Verdict)
  | .activity sid c => some (.activity sid, { ok := c.ok })
  | .nexus sid c => some (.nexus sid, { ok := c.ok })
  | .child id c => some (.child id, { ok := c.ok })
  | .timer id => some (.timer id, { ok := true })
  | .signal .. | .cancelRequest => none

theorem EventAttributes.ending?_of_delivery {a : EventAttributes} {d : Delivery}
    (h : a.delivery? = some d) : a.ending? = d.ending? := by
  cases a <;> cases h <;> rfl

/-- The tables of a scan that has read the events of the ledger. -/
structure Books (L : Ledger) (S : Prescan) : Prop where
  activityOf : S.schedEventToActivity = L.activityOf
  nexusOf : S.schedEventToNexus = L.nexusOf
  nexusCount : S.nexusOpsScheduled = L.nexusCount
  opened : ∀ ref, ∀ k ∈ L.key? ref, (S.outcome k).scheduled = true
  tells : ∀ k, (S.outcome k).Tells (L.verdict k)

namespace Books

variable {L : Ledger} {S S' : Prescan} {k : Key}

/-- A change that neither opens nor ends an operation. -/
theorem keep (h : Books L S) (ha : S'.schedEventToActivity = S.schedEventToActivity)
    (hn : S'.schedEventToNexus = S.schedEventToNexus)
    (hc : S'.nexusOpsScheduled = S.nexusOpsScheduled)
    (ho : ∀ k, (S'.outcome k).scheduled = (S.outcome k).scheduled ∧
      (S'.outcome k).resolved = (S.outcome k).resolved ∧
      (S'.outcome k).failed = (S.outcome k).failed) : Books L S' where
  activityOf := ha.trans h.activityOf
  nexusOf := hn.trans h.nexusOf
  nexusCount := hc.trans h.nexusCount
  opened ref k hk := (ho k).1.trans (h.opened ref k hk)
  tells k := (h.tells k).of_eq (fun hs => (ho k).1.trans hs) (ho k).2.1 (ho k).2.2

/-- An operation is opened. -/
theorem opens {L' : Ledger} (h : Books L S) (hs : S.Changes S' k OpOutcome.schedule)
    (ha : S'.schedEventToActivity = L'.activityOf) (hn : S'.schedEventToNexus = L'.nexusOf)
    (hc : S'.nexusOpsScheduled = L'.nexusCount) (hv : L'.verdict = L.verdict)
    (hk : ∀ ref, ∀ j ∈ L'.key? ref, j = k ∨ j ∈ L.key? ref) : Books L' S' where
  activityOf := ha
  nexusOf := hn
  nexusCount := hc
  opened ref j hj := by
    rw [hs j]
    split
    · rfl
    · next hne => exact h.opened ref j ((hk ref j hj).resolve_left hne)
  tells j := by
    rw [hs j, hv]
    split
    · next hj =>
      subst hj
      exact (h.tells j).of_eq (fun _ => rfl) rfl rfl
    · exact h.tells j

/-- An open operation is ended. -/
theorem closes (h : Books L S) {c : Closing} (hs : S.Changes S' k c.outcome) {ref : OpRef}
    (hk : L.key? ref = some k) (hv : L.verdict k = none)
    (ha : S'.schedEventToActivity = S.schedEventToActivity)
    (hn : S'.schedEventToNexus = S.schedEventToNexus)
    (hc : S'.nexusOpsScheduled = S.nexusOpsScheduled) :
    Books (L.close k { ok := c.ok }) S' where
  activityOf := ha.trans h.activityOf
  nexusOf := hn.trans h.nexusOf
  nexusCount := hc.trans h.nexusCount
  opened ref' j hj := by
    have hopen := h.opened ref' j hj
    rw [hs j]
    split
    · next he => rw [c.outcome_scheduled, ← he, hopen]
    · exact hopen
  tells j := by
    have htells := h.tells j
    rw [hs j, Ledger.close_verdict]
    split
    · next he =>
      subst he
      rw [hv] at htells
      exact htells.close (h.opened ref j hk) c
    · exact htells

/-- An open operation is ended in a way that is not looked at. -/
theorem forgets (h : Books L S) (hv : L.verdict k = none) (ok : Bool) :
    Books (L.close k { ok, known := false }) S where
  activityOf := h.activityOf
  nexusOf := h.nexusOf
  nexusCount := h.nexusCount
  opened := h.opened
  tells j := by
    rw [Ledger.close_verdict]
    split
    · next he =>
      subst he
      have htells := h.tells j
      rw [hv] at htells
      exact htells
    · exact h.tells j

theorem deliver (h : Books L S) {d : Delivery}
    (hd : ∀ x ∈ d.ending?, ∃ k ∈ L.key? x.1, L.verdict k = none) :
    Books (L.enter d.ending?) (S.deliver d) := by
  cases d with
  | activity sid c =>
    obtain ⟨k, hk, hv⟩ := hd _ rfl
    obtain ⟨id, hid, rfl⟩ := Option.map_eq_some_iff.mp hk
    have hmap : S.schedEventToActivity sid = some id := h.activityOf ▸ hid
    simp only [Delivery.ending?, Ledger.enter_of_key hk, Prescan.deliver, Prescan.onActivity, hmap]
    exact h.closes (Prescan.changes_activity id rfl rfl rfl rfl) hk hv rfl rfl rfl
  | nexus sid c =>
    obtain ⟨k, hk, hv⟩ := hd _ rfl
    obtain ⟨id, hid, rfl⟩ := Option.map_eq_some_iff.mp hk
    have hmap : S.schedEventToNexus sid = some id := h.nexusOf ▸ hid
    simp only [Delivery.ending?, Ledger.enter_of_key hk, Prescan.deliver, Prescan.onNexus, hmap]
    exact h.closes (Prescan.changes_nexus id rfl rfl rfl rfl) hk hv rfl rfl rfl
  | child id c =>
    obtain ⟨k, hk, hv⟩ := hd _ rfl
    rw [Delivery.ending?, Ledger.enter_of_key hk]
    obtain ⟨-, hke⟩ := Option.ite_none_right_eq_some.mp hk
    cases hke
    exact h.closes (Prescan.onChild_changes id) hk hv rfl rfl rfl
  | timer id =>
    obtain ⟨k, hk, hv⟩ := hd _ rfl
    rw [Delivery.ending?, Ledger.enter_of_key hk]
    obtain ⟨-, hke⟩ := Option.ite_none_right_eq_some.mp hk
    cases hke
    exact h.closes (c := .completed []) (Prescan.onTimer_changes id fun o => rfl) hk hv rfl rfl rfl
  | signal name input => exact h.keep rfl rfl rfl fun k => by cases k <;> exact ⟨rfl, rfl, rfl⟩
  | cancelRequest => exact h.keep rfl rfl rfl fun k => by cases k <;> exact ⟨rfl, rfl, rfl⟩

/-- What changes neither tables nor schedule maps. -/
theorem same (h : Books L S) (hs : SameTables S S') : Books L S' := by
  refine h.keep hs.schedEventToActivity hs.schedEventToNexus hs.nexusOpsScheduled fun k => ?_
  rw [Prescan.outcome_of_sameTables hs]
  exact ⟨rfl, rfl, rfl⟩

/-- A change of one outcome that neither opens nor ends the operation. -/
theorem changes (h : Books L S) {f : OpOutcome → OpOutcome} (hs : S.Changes S' k f)
    (hf : ∀ o, (f o).scheduled = o.scheduled ∧ (f o).resolved = o.resolved ∧
      (f o).failed = o.failed)
    (ha : S'.schedEventToActivity = S.schedEventToActivity)
    (hn : S'.schedEventToNexus = S.schedEventToNexus)
    (hc : S'.nexusOpsScheduled = S.nexusOpsScheduled) : Books L S' := by
  refine h.keep ha hn hc fun j => ?_
  rw [hs j]
  split
  · next he =>
    subst he
    exact hf _
  · exact ⟨rfl, rfl, rfl⟩

theorem scanEvent (h : Books L S) {e : HistoryEvent} (he : L.Accepts e) :
    Books (L.read e) (S.scanEvent e) := by
  cases hd : e.attributes.delivery? with
  | some d =>
    have hend := EventAttributes.ending?_of_delivery hd
    have hread : L.read e = L.enter d.ending? := by
      rw [← hend]
      obtain ⟨eid, a⟩ := e
      cases a <;> first
        | rfl
        | cases hd
    rw [S.scanEvent_deliver hd, hread]
    exact h.deliver fun x hx => he x (hend ▸ hx)
  | none =>
    obtain ⟨eid, a⟩ := e
    cases a with
    | activityTaskScheduled id type =>
      refine h.opens (k := .activity id) (Prescan.changes_activity id rfl rfl rfl rfl)
        (congrArg (PartialMap.insert · eid id) h.activityOf) h.nexusOf h.nexusCount rfl
        fun ref j hj => ?_
      cases ref with
      | activity sid =>
        obtain ⟨id', hid, rfl⟩ := Option.map_eq_some_iff.mp hj
        have hid' : L.activityOf.insert eid id sid = some id' := hid
        rw [PartialMap.insert_apply] at hid'
        split at hid'
        · cases hid'
          exact .inl rfl
        · exact .inr (Option.map_eq_some_iff.mpr ⟨id', hid', rfl⟩)
      | _ => exact .inr hj
    | nexusOperationScheduled =>
      refine h.opens (k := .nexus (toString S.nexusOpsScheduled))
        (Prescan.changes_nexus _ rfl rfl rfl rfl) h.activityOf ?_ ?_ rfl fun ref j hj => ?_
      · rw [Ledger.read, ← h.nexusOf, ← h.nexusCount]
        rfl
      · rw [Ledger.read, ← h.nexusCount]
        rfl
      · rw [h.nexusCount]
        cases ref with
        | nexus sid =>
          obtain ⟨id', hid, rfl⟩ := Option.map_eq_some_iff.mp hj
          have hid' : L.nexusOf.insert eid (toString L.nexusCount) sid = some id' := hid
          rw [PartialMap.insert_apply] at hid'
          split at hid'
          · cases hid'
            exact .inl rfl
          · exact .inr (Option.map_eq_some_iff.mpr ⟨id', hid', rfl⟩)
        | _ => exact .inr hj
    | startChildWorkflowExecutionInitiated id type =>
      have hs : S.Changes (S.onChild id OpOutcome.schedule) (.child id) OpOutcome.schedule :=
        Prescan.onChild_changes id
      refine h.opens (k := .child id) (fun j => hs j) h.activityOf h.nexusOf h.nexusCount rfl
        fun ref j hj => ?_
      cases ref with
      | child id' =>
        obtain ⟨hmem, hke⟩ := Option.ite_none_right_eq_some.mp hj
        cases hke
        rcases List.mem_cons.mp hmem with rfl | hmem
        · exact .inl rfl
        · exact .inr (Option.ite_none_right_eq_some.mpr ⟨hmem, rfl⟩)
      | _ => exact .inr hj
    | timerStarted id =>
      have hs : S.Changes (S.onTimer id fun o => { o with started := true }) (.timer id)
          OpOutcome.schedule := Prescan.onTimer_changes id fun o => rfl
      refine h.opens (k := .timer id) (fun j => hs j) h.activityOf h.nexusOf h.nexusCount rfl
        fun ref j hj => ?_
      cases ref with
      | timer id' =>
        obtain ⟨hmem, hke⟩ := Option.ite_none_right_eq_some.mp hj
        cases hke
        rcases List.mem_cons.mp hmem with rfl | hmem
        · exact .inl rfl
        · exact .inr (Option.ite_none_right_eq_some.mpr ⟨hmem, rfl⟩)
      | _ => exact .inr hj
    | activityTaskCancelRequested sid =>
      change Books L ((S.pushCommand .requestCancelActivity (toString sid) "").onActivity sid
        OpOutcome.requestCancel)
      unfold Prescan.onActivity
      split
      · next id _ =>
        exact h.changes (Prescan.changes_activity id rfl rfl rfl rfl)
          (fun o => ⟨rfl, rfl, rfl⟩) rfl rfl rfl
      · exact h.same ⟨rfl, rfl, rfl, rfl, rfl, rfl, rfl⟩
    | requestCancelExternalWorkflowExecutionInitiated id =>
      exact h.changes (f := OpOutcome.requestCancel) (Prescan.onChild_changes id)
        (fun o => ⟨rfl, rfl, rfl⟩) rfl rfl rfl
    | timerCanceled id =>
      have hs : S.Changes (S.onTimer id fun o => { o with cancelled := true }) (.timer id)
          fun o => o := Prescan.onTimer_changes id fun o => rfl
      exact h.changes (k := .timer id) (f := fun o => o) (fun j => hs j)
        (fun o => ⟨rfl, rfl, rfl⟩) rfl rfl rfl
    | startChildWorkflowExecutionFailed id
    | childWorkflowExecutionTimedOut id
    | childWorkflowExecutionTerminated id =>
      obtain ⟨k, hk, hv⟩ := he _ rfl
      have hclosed := h.forgets hv false
      rw [← Ledger.enter_of_key hk] at hclosed
      exact hclosed
    | markerRecorded name details =>
      have hpush : Books L (S.pushCommand .marker name "") :=
        h.same ⟨rfl, rfl, rfl, rfl, rfl, rfl, rfl⟩
      exact hpush.same (Prescan.scanMarker_sameTables _ name details)
    | _ => first
      | (cases hd; done)
      | exact h.same ⟨rfl, rfl, rfl, rfl, rfl, rfl, rfl⟩

end Books

/-- The events `ScanHistory` reads at once: after the first accepted update it holds back those that
resolve a future or deliver a signal. -/
def History.scannedFrom : Bool → History → History
  | _, [] => []
  | seenUpdate, e :: h =>
    if seenUpdate && isDeferredOnReplay e.attributes then scannedFrom seenUpdate h
    else e :: scannedFrom (seenUpdate || e.attributes.isUpdateAccepted) h

def History.scanned (h : History) : History := History.scannedFrom false h

theorem Books.scan {L : Ledger} {S : Prescan} (h : History) {seenUpdate : Bool} (hb : Books L S)
    (ha : L.AcceptsAll (History.scannedFrom seenUpdate h)) :
    Books ((History.scannedFrom seenUpdate h).foldl Ledger.read L)
      (h.foldl scanStep (S, seenUpdate)).1 := by
  induction h generalizing L S seenUpdate with
  | nil => exact hb
  | cons e h ih =>
    have hpos : Books L { S with lastEventId := e.eventId } :=
      hb.same ⟨rfl, rfl, rfl, rfl, rfl, rfl, rfl⟩
    rw [History.scannedFrom] at ha ⊢
    rw [List.foldl_cons, scanStep]
    by_cases hd : (seenUpdate && isDeferredOnReplay e.attributes) = true
    · rw [if_pos hd] at ha ⊢
      rw [if_pos hd]
      exact ih (hpos.same ⟨rfl, rfl, rfl, rfl, rfl, rfl, rfl⟩) ha
    · rw [if_neg hd] at ha ⊢
      rw [if_neg hd]
      exact ih (hpos.scanEvent ha.1) ha.2

/-- The tables of a fresh runner say what the events that were scanned say. -/
theorem Books.scanHistory {h : History} (ha : ({} : Ledger).AcceptsAll h.scanned) :
    Books (Ledger.ofHistory h.scanned) (scanHistory h) := by
  have hstart : Books {} {} :=
    { activityOf := rfl
      nexusOf := rfl
      nexusCount := rfl
      opened := fun ref k hk => by cases ref <;> simp [Ledger.key?] at hk
      tells := fun k => by cases k <;> exact ⟨rfl, rfl⟩ }
  exact hstart.scan h ha

end TemporalSdk
