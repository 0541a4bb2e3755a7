import TemporalSdk.Resolution

/-! The life of a runner: it is built on a history, its body and its handlers ask for operations,
and events are applied to it one by one. Whichever way the ending of an operation comes in, the
future of the operation shows it. -/
namespace TemporalSdk
open StateTransition (Reaches)

variable {σ : Type}

namespace Runner
namespace Settled

variable {L : Ledger} {r : Runner σ} {k : Key}

/-- The ledger may learn of more schedule events. -/
theorem informed (h : Settled L r) {L' : Ledger} {scan : Prescan}
    (ha : scan.schedEventToActivity = L'.activityOf) (hn : scan.schedEventToNexus = L'.nexusOf)
    (hc : scan.nexusOpsScheduled = L'.nexusCount) (hv : L'.verdict = L.verdict)
    (ho : ∀ k, ((r.scan.outcome k).scheduled = true → (scan.outcome k).scheduled = true) ∧
      (scan.outcome k).resolved = (r.scan.outcome k).resolved ∧
      (scan.outcome k).failed = (r.scan.outcome k).failed) :
    Settled L' { r with scan := scan } :=
  { h with
    activityOf := ha
    nexusOf := hn
    nexusCount := hc
    shown := by rw [hv]; exact h.shown
    ahead := fun k hk => by
      rw [hv]
      exact (h.ahead k hk).of_eq (ho k).1 (ho k).2.1 (ho k).2.2
    forgotten := by rw [hv]; exact h.forgotten }

/-- The future of an operation shows how it ended. -/
theorem closes (h : Settled L r) {a : Nat} (hk : r.addr? k = some a) {v : Verdict}
    {f : FutureState} (hkey : f.key? = (r.futures a).key?) (hshows : f.Shows (some v))
    (hforgotten : ∀ j ok, (L.close k v).verdict j = some ⟨ok, false⟩ → ∃ id, j = .child id) :
    Settled (L.close k v) (r.setFuture a f) := by
  have hself : (r.setFuture a f).futures a = f := Function.update_self _ _ _
  have hother {b : Nat} (hb : b ≠ a) : (r.setFuture a f).futures b = r.futures b :=
    Function.update_of_ne hb _ _
  have hkeys (b : Nat) : ((r.setFuture a f).futures b).key? = (r.futures b).key? := by
    by_cases hb : b = a
    · rw [hb, hself, hkey]
    · rw [hother hb]
  refine { h with
    addrs := fun j b => ?_, shown := fun j b hj => ?_, ahead := fun j hj => ?_
    cancels := fun b hb => ?_, forgotten := hforgotten }
  · rw [hkeys]
    exact h.addrs j b
  · rw [Ledger.close_verdict]
    by_cases hjk : j = k
    · subst hjk
      obtain rfl : a = b := Option.some.inj (hk.symm.trans hj)
      rw [if_pos rfl, hself]
      exact hshows
    · have hb : b ≠ a := by
        rintro rfl
        have hone := ((h.addrs j b).mp hj).2.symm.trans ((h.addrs k b).mp hk).2
        exact hjk (Option.some.inj hone)
      rw [if_neg hjk, hother hb]
      exact h.shown j b hj
  · have hjk : j ≠ k := by
      rintro rfl
      have hnone : r.addr? j = none := hj
      rw [hk] at hnone
      cases hnone
    rw [Ledger.close_verdict, if_neg hjk]
    exact h.ahead j hj
  · rw [hkeys]
    exact h.cancels b hb

/-- An ending that is not looked at leaves the future waiting. -/
theorem forgets (h : Settled L r) {id : String} (hv : L.verdict (.child id) = none) :
    Settled (L.close (.child id) { ok := false, known := false }) r :=
  { h with
    shown := fun j a hj => by
      rw [Ledger.close_verdict]
      split
      · next he =>
        subst he
        have hshows := h.shown _ a hj
        rw [hv] at hshows
        have hkey := ((h.addrs _ a).mp hj).2
        have hop : (r.futures a).op ≠ .timer := by
          intro hop
          simp [FutureState.key?, hop] at hkey
        exact ⟨hshows.2 hop, hshows.1⟩
      · exact h.shown j a hj
    ahead := fun j hj => by
      rw [Ledger.close_verdict]
      split
      · next he =>
        subst he
        have htells := h.ahead _ hj
        rw [hv] at htells
        exact htells
      · exact h.ahead j hj
    forgotten := fun j ok hj => by
      rw [Ledger.close_verdict] at hj
      split at hj
      · next he => exact ⟨id, he⟩
      · exact h.forgotten j ok hj }

/-- What `AwaitCancellation` has handed out shows no verdict. -/
theorem cancelRequested (h : Settled L r) :
    Settled L (r.cancelFutures.foldl (fun r a => r.setFuture a { r.futures a with ready := true })
      { r with scan := { r.scan with cancelRequested := true } }) := by
  have hall : ∀ (as : List Nat) (q : Runner σ), Settled L q → as ⊆ q.cancelFutures →
      Settled L (as.foldl (fun r a => r.setFuture a { r.futures a with ready := true }) q) := by
    intro as
    induction as with
    | nil => exact fun _ hq _ => hq
    | cons a as ih =>
      intro q hq hsub
      obtain ⟨ha, has⟩ := List.cons_subset.mp hsub
      refine ih _ (hq.write a rfl fun k hk => ?_) has
      have hkey := (hq.cancels a ha).2.symm.trans ((hq.addrs k a).mp hk).2
      cases hkey
  refine hall _ _ (h.congr ?_ rfl) (List.Subset.refl _)
  exact ⟨rfl, rfl, rfl, rfl, rfl, rfl, rfl⟩

/-- An event that ends an operation, delivers a signal or the cancel request. -/
theorem deliver (h : Settled L r) {d : Delivery}
    (hopen : ∀ x ∈ d.ending?, ∃ k ∈ L.key? x.1, L.verdict k = none)
    (hfinds : ∀ x ∈ d.ending?, ∀ k ∈ L.key? x.1, (r.addr? k).isSome = true)
    (hforgotten : ∀ j ok, (L.enter d.ending?).verdict j = some ⟨ok, false⟩ → ∃ id, j = .child id) :
    Settled (L.enter d.ending?) (r.deliver d) := by
  -- the operation that is ended, and its future
  have hfound : ∀ x ∈ d.ending?, ∃ k a, L.key? x.1 = some k ∧ r.addr? k = some a ∧
      L.enter d.ending? = L.close k x.2 ∧ (r.futures a).failed = false := by
    intro x hx
    obtain ⟨k, hk, hv⟩ := hopen x hx
    obtain ⟨a, ha⟩ := Option.isSome_iff_exists.mp (hfinds x hx k hk)
    have hshows := h.shown k a ha
    rw [hv] at hshows
    have hx' : d.ending? = some x := hx
    exact ⟨k, a, hk, ha, by rw [hx', Ledger.enter_of_key hk], hshows.1⟩
  cases d with
  | activity sid c =>
    obtain ⟨k, a, hk, ha, henter, -⟩ := hfound _ rfl
    obtain ⟨id, hid, rfl⟩ := Option.map_eq_some_iff.mp hk
    have hat : (r.scan.schedEventToActivity sid).bind r.activityFutures = some a := by
      rw [h.activityOf, hid]
      exact ha
    rw [henter] at hforgotten ⊢
    simp only [Runner.deliver, hat, resolveFuture]
    exact h.closes ha (by cases c <;> rfl) (by cases c <;> exact ⟨rfl, rfl⟩) hforgotten
  | nexus sid c =>
    obtain ⟨k, a, hk, ha, henter, -⟩ := hfound _ rfl
    obtain ⟨id, hid, rfl⟩ := Option.map_eq_some_iff.mp hk
    have hat : (r.scan.schedEventToNexus sid).bind r.nexusFutures = some a := by
      rw [h.nexusOf, hid]
      exact ha
    rw [henter] at hforgotten ⊢
    simp only [Runner.deliver, hat, resolveFuture]
    exact h.closes ha (by cases c <;> rfl) (by cases c <;> exact ⟨rfl, rfl⟩) hforgotten
  | child id c =>
    obtain ⟨k, a, hk, ha, henter, hfailed⟩ := hfound _ rfl
    obtain ⟨-, hke⟩ := Option.ite_none_right_eq_some.mp hk
    cases hke
    have hat : r.childFutures id = some a := ha
    rw [henter] at hforgotten ⊢
    simp only [Runner.deliver, hat, resolveFuture]
    refine h.closes ha (by cases c <;> rfl) ?_ hforgotten
    cases c with
    | completed result => exact ⟨rfl, hfailed⟩
    | failed type message => exact ⟨rfl, rfl⟩
  | timer id =>
    obtain ⟨k, a, hk, ha, henter, hfailed⟩ := hfound _ rfl
    obtain ⟨-, hke⟩ := Option.ite_none_right_eq_some.mp hk
    cases hke
    have hat : r.timerFutures id = some a := ha
    rw [henter] at hforgotten ⊢
    simp only [Runner.deliver, hat, resolveFuture]
    exact h.closes ha rfl ⟨rfl, hfailed⟩ hforgotten
  | signal name input => exact h.congr ⟨rfl, rfl, rfl, rfl, rfl, rfl, rfl⟩ rfl
  | cancelRequest => exact h.cancelRequested

/-- One event, applied to a runner whose operations it finds. -/
theorem given (h : Settled L r) {e : HistoryEvent} (ha : L.Accepts e) (hfinds : r.Finds L e) :
    Settled (L.read e) (r.applyEventToState e) := by
  have hforgotten := Ledger.read_forgotten h.forgotten ha
  cases hd : e.attributes.delivery? with
  | some d =>
    have hend := EventAttributes.ending?_of_delivery hd
    have hread : L.read e = L.enter d.ending? := by
      rw [← hend]
      obtain ⟨eid, a⟩ := e
      cases a <;> first
        | rfl
        | cases hd
    rw [hread] at hforgotten ⊢
    rw [r.applyEventToState_deliver hd]
    refine h.deliver (fun x hx => ha x (hend ▸ hx)) (fun x hx => ?_) hforgotten
    refine hfinds x (hend ▸ hx) ?_
    cases d <;> cases hx <;> rfl
  | none =>
    obtain ⟨eid, a⟩ := e
    cases a with
    | activityTaskScheduled id type =>
      exact h.informed (congrArg (PartialMap.insert · eid id) h.activityOf) h.nexusOf h.nexusCount
        rfl fun k => by cases k <;> exact ⟨fun hs => hs, rfl, rfl⟩
    | nexusOperationScheduled =>
      have hnexus : r.scan.schedEventToNexus.insert eid (toString r.scan.nexusOpsScheduled) =
          L.nexusOf.insert eid (toString L.nexusCount) := by
        rw [h.nexusOf, h.nexusCount]
      refine h.informed h.activityOf hnexus (congrArg (· + 1) h.nexusCount) rfl fun k => ?_
      cases k with
      | nexus id =>
        simp only [Prescan.outcome, PartialMap.getD_modify]
        split
        · next he =>
          rw [he]
          exact ⟨fun _ => rfl, rfl, rfl⟩
        · exact ⟨fun hs => hs, rfl, rfl⟩
      | _ => exact ⟨fun hs => hs, rfl, rfl⟩
    | activityTaskCancelRequested sid =>
      change Settled L { r with scan := r.scan.onActivity sid OpOutcome.requestCancel }
      unfold Prescan.onActivity
      split
      · next id _ =>
        refine h.informed h.activityOf h.nexusOf h.nexusCount rfl fun k => ?_
        cases k with
        | activity id' =>
          simp only [Prescan.outcome, PartialMap.getD_modify]
          split
          · next he =>
            rw [he]
            exact ⟨fun hs => hs, rfl, rfl⟩
          · exact ⟨fun hs => hs, rfl, rfl⟩
        | _ => exact ⟨fun hs => hs, rfl, rfl⟩
      · exact h
    | timerCanceled id =>
      change Settled L (r.resolveFuture (r.timerFutures id)
        fun f => { f with ready := true, cancelled := true })
      cases hat : r.timerFutures id with
      | none => exact h
      | some a =>
        have hkey := ((h.addrs (.timer id) a).mp hat).2
        refine h.write a rfl fun k hk => h.ready_of_timer ?_ hk true
        generalize r.futures a = f at hkey
        unfold FutureState.key? at hkey
        split at hkey <;> first
          | cases hkey; assumption
          | cases hkey
    | startChildWorkflowExecutionInitiated id type => exact { h with }
    | timerStarted id => exact { h with }
    | startChildWorkflowExecutionFailed id
    | childWorkflowExecutionTimedOut id
    | childWorkflowExecutionTerminated id =>
      obtain ⟨k, hk, hv⟩ := ha _ rfl
      have hread : L.enter (some (.child id, { ok := false, known := false })) = L.close k _ :=
        Ledger.enter_of_key hk _
      obtain ⟨-, hke⟩ := Option.ite_none_right_eq_some.mp hk
      cases hke
      change Settled (L.enter (some (.child id, { ok := false, known := false }))) r
      rw [hread]
      exact h.forgets hv
    | _ => first
      | (cases hd; done)
      | exact h

end Settled

/-- What a runner goes through, with the events it has been given: it is built by a replay, an
operation is asked for by the body or by a handler, an event is applied by the timeline or by a
continuation, and the rest of its state is written. No child is started under an id in use, and the
server ends operations that are open and, one by one, only those that have been started. -/
inductive Lived : History → Runner σ → Prop
  | built {h : History} (info : WorkflowInfo) (isReplaying : Bool) (world : World σ)
      (fn : WorkflowFn σ) (ha : ({} : Ledger).AcceptsAll h.scanned) :
      Lived h.scanned (Runner.replay info isReplaying world fn h)
  | asked {p : History} {r q : Runner σ} {op : Op σ} {resp : Resp σ} (hr : Lived p r)
      (hfresh : r.StartsAfresh op) (hx : r.exec op = some (q, resp)) : Lived p q
  | given {p : History} {r : Runner σ} {e : HistoryEvent} (hr : Lived p r)
      (ha : (Ledger.ofHistory p).Accepts e) (hfinds : r.Finds (Ledger.ofHistory p) e) :
      Lived (p ++ [e]) (r.applyEventToState e)
  | noted {p : History} {r q : Runner σ} (hr : Lived p r) (hscan : SameTables r.scan q.scan)
      (hops : q.operations = r.operations) : Lived p q

end Runner

def ReplayStep.events : ReplayStep → History
  | .event e => [e]
  | .update .. => []

namespace Runner

/-- None of these operations starts a child under an id in use. -/
def AllAfresh (asks : List (Runner σ × Op σ)) : Prop := ∀ x ∈ asks, x.1.StartsAfresh x.2

theorem AllAfresh.left {xs ys : List (Runner σ × Op σ)} (h : AllAfresh (xs ++ ys)) :
    AllAfresh xs := fun x hx => h x (List.mem_append_left _ hx)

theorem AllAfresh.right {xs ys : List (Runner σ × Op σ)} (h : AllAfresh (xs ++ ys)) :
    AllAfresh ys := fun x hx => h x (List.mem_append_right _ hx)

namespace Lived

variable {p : History} {r : Runner σ} {fuel : Nat}

theorem acceptsAll (h : Lived p r) : ({} : Ledger).AcceptsAll p := by
  induction h with
  | built info isReplaying world fn ha => exact ha
  | asked _ _ _ ih => exact ih
  | given _ ha _ ih => exact ih.concat ha
  | noted _ _ _ ih => exact ih

/-- The endings that were not looked at are those of children. -/
theorem forgotten_of_accepts {h : History} {L : Ledger} (ha : L.AcceptsAll h)
    (hL : ∀ k ok, L.verdict k = some ⟨ok, false⟩ → ∃ id, k = .child id) :
    ∀ k ok, (h.foldl Ledger.read L).verdict k = some ⟨ok, false⟩ → ∃ id, k = .child id := by
  induction h generalizing L with
  | nil => exact hL
  | cons e h ih => exact ih ha.2 (Ledger.read_forgotten hL ha.1)

/-- Every runner stands as the ledger of its events says. -/
theorem settled (h : Lived p r) : r.Settled (Ledger.ofHistory p) := by
  induction h with
  | built info isReplaying world fn ha =>
    exact .of_books (.scanHistory ha) rfl rfl rfl rfl rfl rfl (forgotten_of_accepts ha nofun)
  | asked _ hfresh hx ih => exact ih.exec hfresh hx
  | given _ ha hfinds ih =>
    rw [Ledger.ofHistory_concat]
    exact ih.given ha hfinds
  | noted _ hscan hops ih => exact ih.congr hscan hops

/-- A write to anything but the tables and the operations. -/
theorem note (h : Lived p r) {q : Runner σ} (hscan : q.scan = r.scan)
    (hops : q.operations = r.operations) : Lived p q :=
  h.noted (by rw [hscan]; exact ⟨rfl, rfl, rfl, rfl, rfl, rfl, rfl⟩) hops

theorem step (h : Lived p r) {q : Runner σ} (hs : r.step = some q)
    (hfresh : ∀ op, r.asked? = some op → r.StartsAfresh op) : Lived p q := by
  cases ha : r.asked? with
  | some op =>
    rw [step_of_asked? ha] at hs
    obtain ⟨⟨q', resp⟩, hx, rfl⟩ := Option.map_eq_some_iff.mp hs
    exact (h.asked (hfresh op ha) hx).note rfl rfl
  | none =>
    obtain ⟨o, rfl⟩ := step_of_not_asked ha hs
    exact h.note (by cases o <;> rfl) (by cases o <;> rfl)

theorem runFor (h : Lived p r) {q : Runner σ} (hfresh : AllAfresh (bodyAsks fuel r))
    (hrun : Parking.runFor Runner.step fuel r = some q) : Lived p q := by
  induction fuel generalizing r with
  | zero =>
    unfold Parking.runFor at hrun
    split at hrun
    · cases hrun
      exact h
    · cases hrun
  | succ fuel ih =>
    unfold Parking.runFor at hrun
    cases hs : r.step with
    | none =>
      rw [hs] at hrun
      cases hrun
      exact h
    | some r' =>
      rw [hs] at hrun
      have hrest : AllAfresh (bodyAsks fuel r') := by
        have hright := hfresh.right
        rwa [hs] at hright
      refine ih (h.step hs fun op hop => hfresh.left (r, op) ?_) hrest hrun
      simp [hop]

theorem resumeCoroutine (h : Lived p r) (hfresh : AllAfresh (bodyAsks fuel r)) :
    Lived p (r.resumeCoroutine fuel) := by
  unfold Runner.resumeCoroutine
  split
  · next q hrun => exact h.runFor hfresh hrun
  · exact h.note rfl rfl

theorem runHandler (h : Lived p r) {handler : Program σ} {answers : List (Resp σ)} {q : Runner σ}
    {o : Outcome} (hfresh : AllAfresh (handlerAsks handler fuel r answers))
    (hrun : Runner.runHandler handler fuel r answers = some (q, o)) : Lived p q := by
  induction fuel generalizing r answers with
  | zero => cases hrun
  | succ fuel ih =>
    unfold Runner.runHandler at hrun
    unfold handlerAsks at hfresh
    split at hrun
    · cases hrun
      exact h
    · next hout =>
      rw [hout, Option.isSome_none, if_neg Bool.false_ne_true] at hfresh
      split at hrun
      · next r' resp hx =>
        rw [hx] at hfresh
        exact ih (h.asked (hfresh _ List.mem_cons_self) hx)
          (fun x hx' => hfresh x (List.mem_cons_of_mem _ hx')) hrun
      · cases hrun

/-- A query handler, a validator or an update handler is called. -/
theorem invoke (h : Lived p r) {handler : Program σ}
    (hfresh : AllAfresh (handlerAsks handler fuel r [])) : Lived p (r.invoke fuel handler).1 := by
  unfold Runner.invoke
  split
  · exact h.note rfl rfl
  · next hrun => exact h.runHandler hfresh hrun

theorem reapplyUpdate (h : Lived p r) {name : String} {args : Payloads}
    (hfresh : AllAfresh (r.updateAsks fuel name args)) :
    Lived p (r.reapplyUpdate fuel name args) := by
  unfold Runner.reapplyUpdate
  unfold updateAsks at hfresh
  split
  · exact h
  · next handler hu =>
    rw [hu] at hfresh
    split
    · exact h.note rfl rfl
    · next q o hrun =>
      have hq := h.runHandler hfresh hrun
      split_ifs
      · exact hq.note rfl rfl
      · exact hq

/-- A step of the timeline that is an event ends only what has been started. -/
def FitsStep (p : History) (r : Runner σ) : ReplayStep → Prop
  | .event e => (Ledger.ofHistory p).Accepts e ∧ r.Finds (Ledger.ofHistory p) e
  | .update .. => True

/-- The events a step of the timeline gives to a runner. -/
def eventsOf (r : Runner σ) (s : ReplayStep) : History := if r.halted then [] else s.events

/-- Every step of the timeline that is reached fits. -/
def FitsTimeline (fuel : Nat) : History → Runner σ → List ReplayStep → Prop
  | _, _, [] => True
  | p, r, s :: steps => (r.halted = false → FitsStep p r s) ∧
    FitsTimeline fuel (p ++ eventsOf r s) (Runner.reapplyStep fuel r s) steps

/-- The events of the timeline that have reached the runner. -/
def delivered (fuel : Nat) : Runner σ → List ReplayStep → History
  | _, [] => []
  | r, s :: steps => eventsOf r s ++ delivered fuel (Runner.reapplyStep fuel r s) steps

theorem reapplyStep (h : Lived p r) {s : ReplayStep}
    (hfresh : r.halted = false → AllAfresh (r.stepAsks fuel s))
    (hfits : r.halted = false → FitsStep p r s) :
    Lived (p ++ eventsOf r s) (Runner.reapplyStep fuel r s) := by
  rw [reapplyStep_eq]
  unfold eventsOf
  cases hr : r.halted with
  | true => simpa using h
  | false =>
    have hasks := hfresh hr
    have hbefore : Lived (p ++ s.events) (r.beforeResume fuel s) := by
      cases s with
      | event e => exact h.given (hfits hr).1 (hfits hr).2
      | update name args =>
        rw [ReplayStep.events, List.append_nil]
        exact h.reapplyUpdate hasks.left
    simp only [Bool.false_eq_true, if_false]
    split_ifs with hhalted
    · exact hbefore
    · refine hbefore.resumeCoroutine ?_
      have hright := hasks.right
      rwa [if_neg hhalted] at hright

theorem timeline (h : Lived p r) {steps : List ReplayStep}
    (hfresh : AllAfresh (timelineAsks fuel r steps)) (hfits : FitsTimeline fuel p r steps) :
    Lived (p ++ delivered fuel r steps) (steps.foldl (Runner.reapplyStep fuel) r) := by
  induction steps generalizing p r with
  | nil => simpa [delivered] using h
  | cons s steps ih =>
    rw [List.foldl_cons, delivered, ← List.append_assoc]
    refine ih (h.reapplyStep (fun hr => ?_) hfits.1) hfresh.right hfits.2
    have hleft := hfresh.left
    rwa [hr, if_neg Bool.false_ne_true] at hleft

/-- A replay from scratch: what is scanned, and then the timeline. -/
theorem run (h : Lived p r) (hfresh : AllAfresh (r.runAsks fuel))
    (hfits : FitsTimeline fuel p (r.firstResume fuel)
      (r.firstResume fuel).scan.postUpdateTimeline) :
    Lived (p ++ delivered fuel (r.firstResume fuel) (r.firstResume fuel).scan.postUpdateTimeline)
      (r.run fuel) := by
  have hstart : Lived p { r with commands := [], producedCommands := [], started := true } :=
    h.note rfl rfl
  exact (hstart.resumeCoroutine hfresh.left).timeline hfresh.right hfits

/-- Every new event of a continuation ends only what has been started. -/
def FitsEvents : History → Runner σ → History → Prop
  | _, _, [] => True
  | p, r, e :: evs =>
    if e.eventId ≤ r.scan.lastEventId then FitsEvents p r evs
    else ((Ledger.ofHistory p).Accepts e ∧ r.Finds (Ledger.ofHistory p) e) ∧
      FitsEvents (p ++ [e]) (r.applyOne e) evs

/-- The events of a continuation that are new to the runner. -/
def fresh : Runner σ → History → History
  | _, [] => []
  | r, e :: evs =>
    if e.eventId ≤ r.scan.lastEventId then fresh r evs else e :: fresh (r.applyOne e) evs

theorem applyEvents (h : Lived p r) {evs : History} (hfits : FitsEvents p r evs) :
    Lived (p ++ fresh r evs) (r.applyEvents evs) := by
  induction evs generalizing p r with
  | nil =>
    rw [fresh, List.append_nil]
    exact h
  | cons e evs ih =>
    unfold FitsEvents at hfits
    unfold fresh
    split_ifs at hfits ⊢ with hstale
    · rw [r.applyEvents_cons_stale hstale]
      exact ih h hfits
    · rw [r.applyEvents_cons_new (Nat.lt_of_not_le hstale)]
      have hone : Lived (p ++ [e]) (r.applyOne e) :=
        (h.given hfits.1.1 hfits.1.2).noted ⟨rfl, rfl, rfl, rfl, rfl, rfl, rfl⟩ rfl
      rw [List.append_cons]
      exact ih hone hfits.2

/-- A sticky continuation. -/
theorem applyAndResume (h : Lived p r) {evs : History}
    (hfits : FitsEvents p { r with commands := [], producedCommands := [] } evs)
    (hfresh : AllAfresh (bodyAsks fuel
      (({ r with commands := [], producedCommands := [] } : Runner σ).applyEvents evs))) :
    Lived (p ++ fresh { r with commands := [], producedCommands := [] } evs)
      (r.applyAndResume fuel evs) := by
  have hstart : Lived p { r with commands := [], producedCommands := [] } := h.note rfl rfl
  have happlied := hstart.applyEvents hfits
  unfold Runner.applyAndResume
  dsimp only
  split_ifs
  · exact happlied.resumeCoroutine hfresh
  · exact happlied

end Lived

/-- Every ending of an operation that has been started resolves its future, with `failed` set for
the unsuccessful endings, so that `Future::Get` goes on; except that a child whose start failed or
that timed out or was terminated stays unresolved. -/
theorem endings_resolve {p : History} {r : Runner σ} (h : Lived p r) {i : Nat} {e : HistoryEvent}
    (hi : p[i]? = some e) {ref : OpRef} {v : Verdict} (he : e.attributes.ending? = some (ref, v)) :
    ∃ k, (Ledger.ofHistory (p.take i)).key? ref = some k ∧ ∀ a, r.addr? k = some a →
      (((r.futures a).ready = true ∧ (r.futures a).failed = !v.ok ∧
        r.exec (.get a) = some (r, futureValue (r.futures a))) ↔ v.known = true) := by
  obtain ⟨k, hk, hv⟩ := Ledger.verdict_of_ending h.acceptsAll hi he
  refine ⟨k, hk, fun a ha => ?_⟩
  have hshows := h.settled.shown k a ha
  rw [Ledger.ofHistory, hv] at hshows
  obtain ⟨ok, known⟩ := v
  cases known with
  | true =>
    obtain ⟨hready, hfailed⟩ := hshows
    exact iff_of_true ⟨hready, hfailed, by simp [Runner.exec, hready]⟩ rfl
  | false =>
    refine iff_of_false (fun hready => ?_) Bool.false_ne_true
    rw [hshows.1] at hready
    cases hready.1

end Runner

/-- A body that runs one activity. -/
def greetOnce : WorkflowFn Unit where
  init := ()
  body _ answers :=
    match answers with
    | [] => .scheduleActivity "Greet" [] {}
    | [_] => .get 0
    | _ => .finish (.returned [])

/-- The activity failed. -/
def greetFailed : History :=
  [⟨1, .workflowExecutionStarted "GreetOnce" [] []⟩, ⟨2, .other⟩, ⟨3, .other⟩, ⟨4, .other⟩,
    ⟨5, .activityTaskScheduled "0" "Greet"⟩, ⟨6, .activityTaskFailed 5 { message := "no" }⟩,
    ⟨7, .other⟩, ⟨8, .other⟩]

/-- A replay of an execution without updates. -/
theorem Runner.Lived.of_replay (info : WorkflowInfo) (world : World σ) (fn : WorkflowFn σ)
    (h : History) (fuel : Nat) (ha : ({} : Ledger).AcceptsAll h.scanned)
    (hfresh : AllAfresh ((Runner.replay info true world fn h).runAsks fuel))
    (hu : ((Runner.replay info true world fn h).firstResume fuel).scan.postUpdateTimeline = []) :
    Runner.Lived h.scanned ((Runner.replay info true world fn h).run fuel) := by
  have hrun := (Runner.Lived.built info true world fn ha).run hfresh (by rw [hu]; trivial)
  rwa [hu, delivered, List.append_nil] at hrun

/-- A failed activity is resolved on replay. -/
theorem greetFailed_resolves :
    (((Runner.replay {} true (.plain .tagged) greetOnce greetFailed).run 10).futures 0).ready =
        true ∧
      (((Runner.replay {} true (.plain .tagged) greetOnce greetFailed).run 10).futures 0).failed =
        true := by
  have hlived := Runner.Lived.of_replay {} (.plain .tagged) greetOnce greetFailed 10
    (by decide +kernel) (by unfold Runner.AllAfresh; decide +kernel) (by decide +kernel)
  obtain ⟨k, hk, hresolves⟩ := Runner.endings_resolve hlived (i := 5) rfl rfl
  have hkey : (Ledger.ofHistory (greetFailed.take 5)).key? (.activity 5) = some (.activity "0") :=
    rfl
  obtain rfl : .activity "0" = k := Option.some.inj (hkey.symm.trans hk)
  obtain ⟨hready, hfailed, -⟩ := (hresolves 0 (by decide +kernel)).mpr rfl
  exact ⟨hready, hfailed⟩

/-- A body that starts one child and waits for it. -/
def callOnce : WorkflowFn Unit where
  init := ()
  body _ answers :=
    match answers with
    | [] => .startChildWorkflow "Child" [] {}
    | [_] => .get 0
    | _ => .finish (.returned [])

/-- The first task of the body, and the second, in which the child could not be started. -/
def callTask : History :=
  [⟨1, .workflowExecutionStarted "CallOnce" [] []⟩, ⟨2, .other⟩, ⟨3, .other⟩]

def callRefused : History :=
  [⟨4, .other⟩, ⟨5, .startChildWorkflowExecutionInitiated "_c0" "Child"⟩,
    ⟨6, .startChildWorkflowExecutionFailed "_c0"⟩, ⟨7, .other⟩, ⟨8, .other⟩]

/-- The start of the child failed, and the body waits for it forever: after a replay, and after a
continuation of the cached runner. -/
theorem refused_child_waits :
    let replayed := (Runner.replay {} true (.plain .tagged) callOnce
      (callTask ++ callRefused)).run 10
    let continued := ((Runner.replay {} false (.plain .tagged) callOnce callTask).run
      10).applyAndResume 10 callRefused
    (EventAttributes.startChildWorkflowExecutionFailed "_c0").ending? =
        some (.child "_c0", { ok := false, known := false }) ∧
      (∀ r ∈ [replayed, continued], r.addr? (.child "_c0") = some 0 ∧
        (r.futures 0).ready = false ∧ (r.exec (.get 0)).isNone = true ∧ r.done = false) := by
  decide +kernel

end TemporalSdk
