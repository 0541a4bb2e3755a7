import TemporalSdk.Lifetime
import TemporalSdk.Requests

/-! Requests to cancel. The engine keeps a request from being sent again by the flag of a timer's
future and by the requests on record, and by nothing else: neither a future that is ready nor an
earlier call in the same task stops one for an activity or a child. -/
namespace TemporalSdk

variable {σ : Type}

def Key.isTimer : Key → Bool
  | .timer _ => true
  | _ => false

/-- A request to cancel that has been sent: for which operation, and whether its future was ready
when `Cancel` was called. -/
structure CancelRequest where
  key : Key
  ready : Bool
  deriving DecidableEq, Repr

/-- What may be sent over an execution: one request for an operation, and for open ones only. -/
def CancelsOnce (sent : List CancelRequest) : Prop :=
  (sent.map CancelRequest.key).Nodup ∧ ∀ x ∈ sent, x.ready = false

namespace Runner

/-- A guard of `Cancel` stops the call: the future is marked cancelled, a request for its operation
is on record, an activity is not known to be scheduled, or there is nothing that can be cancelled.
Whether the future is ready is not asked. -/
def cancelStops (r : Runner σ) (addr : Nat) : Bool :=
  let state := r.futures addr
  state.cancelled ||
    match state.op with
    | .timer => (r.scan.timers state.opId).any (·.cancelled)
    | .activity => (r.scan.activityToSchedEvent state.opId).isNone ||
        (r.scan.activities state.opId).any (·.cancelRequested)
    | .childWorkflow => (r.scan.children state.opId).any (·.cancelRequested)
    | .nexusOperation | .none => true

/-- The call may be made: a guard stops it, or the operation is open and, unless it is a timer,
this runner has let no call for it through. -/
def MayCancel (own : List Key) (r : Runner σ) (addr : Nat) : Prop :=
  r.cancelStops addr = true ∨ (r.futures addr).ready = false ∧
    ∀ k, (r.futures addr).key? = some k → k.isTimer = true ∨ k ∉ own

/-- The operation of a call that is not stopped. -/
def letThrough (r : Runner σ) (addr : Nat) : List Key :=
  if r.cancelStops addr then [] else (r.futures addr).key?.toList

/-- The requests a call sends. -/
def sends (r : Runner σ) (addr : Nat) : List CancelRequest :=
  if (r.cancel addr).commands = r.commands then []
  else (r.futures addr).key?.toList.map fun k => ⟨k, (r.futures addr).ready⟩

/-- A point in an execution: `sent` are the requests to cancel that have been sent, `own` the
operations for which this runner has let a call through. A runner may be lost at any time, and with
it what was not accepted; the one that takes over is built on a history that has the requests that
were. Every call of `Cancel` is one that may be made. -/
inductive Requesting : List CancelRequest → List Key → Runner σ → Prop
  | first (info : WorkflowInfo) (isReplaying : Bool) (world : World σ) (fn : WorkflowFn σ)
      (h : History) : Requesting [] [] (Runner.replay info isReplaying world fn h)
  | rebuilt {sent accepted : List CancelRequest} {own : List Key} {r : Runner σ} {h : History}
      (info : WorkflowInfo) (isReplaying : Bool) (world : World σ) (fn : WorkflowFn σ)
      (hr : Requesting sent own r) (haccepted : accepted.Sublist sent)
      (hrec : ∀ x ∈ accepted, h.RecordsRequest x.key) :
      Requesting accepted [] (Runner.replay info isReplaying world fn h)
  | asked {sent : List CancelRequest} {own : List Key} {r q : Runner σ} {op : Op σ}
      {resp : Resp σ} (hr : Requesting sent own r) (hop : ∀ addr, op ≠ .cancel addr)
      (hx : r.exec op = some (q, resp)) : Requesting sent own q
  | cancelled {sent : List CancelRequest} {own : List Key} {r : Runner σ} {addr : Nat}
      (hr : Requesting sent own r) (hmay : r.MayCancel own addr) :
      Requesting (r.sends addr ++ sent) (r.letThrough addr ++ own) (r.cancel addr)
  | given {sent : List CancelRequest} {own : List Key} {r : Runner σ} (hr : Requesting sent own r)
      (e : HistoryEvent) : Requesting sent own (r.applyEventToState e)
  | noted {sent : List CancelRequest} {own : List Key} {r q : Runner σ}
      (hr : Requesting sent own r) (hscan : SameTables r.scan q.scan)
      (hops : q.operations = r.operations) : Requesting sent own q

/-- Why no request is sent again: those of earlier runners are on record, and a timer whose request
this runner has sent is cancelled. -/
structure Requests (sent own : List Key) (r : Runner σ) : Prop where
  nodup : sent.Nodup
  own_subset : own ⊆ sent
  recorded : ∀ k ∈ sent, k ∉ own → r.scan.requested k = true
  cancelled : ∀ id a, .timer id ∈ own → (r.futures a).key? = some (.timer id) →
    (r.futures a).cancelled = true
  timers : ∀ a id, (r.futures a).key? = some (.timer id) →
    a < r.futureCount ∧ ∃ n < r.timerSeq, id = "t" ++ toString n
  unique : ∀ a b id, (r.futures a).key? = some (.timer id) →
    (r.futures b).key? = some (.timer id) → a = b
  started : ∀ id, .timer id ∈ own → ∃ n < r.timerSeq, id = "t" ++ toString n

namespace Requests

variable {sent own : List Key} {r q : Runner σ}

theorem congr (h : Requests sent own r) (hscan : SameTables r.scan q.scan)
    (hops : q.operations = r.operations) : Requests sent own q := by
  have hf : q.futures = r.futures := congrArg Operations.futures hops
  have hc : q.futureCount = r.futureCount := congrArg Operations.futureCount hops
  have ht : q.timerSeq = r.timerSeq := congrArg Operations.timerSeq hops
  exact
    { nodup := h.nodup
      own_subset := h.own_subset
      recorded := fun k hk ho => (Prescan.requested_of_sameTables hscan).trans (h.recorded k hk ho)
      cancelled := by rw [hf]; exact h.cancelled
      timers := by rw [hf, hc, ht]; exact h.timers
      unique := by rw [hf]; exact h.unique
      started := by rw [ht]; exact h.started }

/-- A fresh runner knows the requests on record. -/
theorem replay (info : WorkflowInfo) (isReplaying : Bool) (world : World σ) (fn : WorkflowFn σ)
    {accepted : List Key} {h : History} (hnodup : accepted.Nodup)
    (hrec : ∀ k ∈ accepted, h.RecordsRequest k) :
    Requests accepted [] (Runner.replay info isReplaying world fn h) where
  nodup := hnodup
  own_subset := List.nil_subset _
  recorded k hk _ := Prescan.requested_of_records (hrec k hk)
  cancelled _ _ hmem := absurd hmem List.not_mem_nil
  timers _ _ hkey := by cases hkey
  unique _ _ _ hkey := by cases hkey
  started _ hmem := absurd hmem List.not_mem_nil

/-- A future is handed out. -/
theorem opens (h : Requests sent own r) {f : FutureState} (hscan : q.scan = r.scan)
    (hf : q.futures = Function.update r.futures r.futureCount f)
    (hc : q.futureCount = r.futureCount + 1) (hseq : r.timerSeq ≤ q.timerSeq)
    (hkey : ∀ id, f.key? = some (.timer id) →
      id = "t" ++ toString r.timerSeq ∧ r.timerSeq < q.timerSeq) : Requests sent own q := by
  have hold {a : Nat} {id : String} (hne : a ≠ r.futureCount)
      (ha : (q.futures a).key? = some (.timer id)) : (r.futures a).key? = some (.timer id) := by
    rwa [hf, Function.update_of_ne hne] at ha
  have hnew {id : String} (ha : (q.futures r.futureCount).key? = some (.timer id)) :
      id = "t" ++ toString r.timerSeq ∧ r.timerSeq < q.timerSeq := by
    rw [hf, Function.update_self] at ha
    exact hkey id ha
  -- no timer so far has the id of a new one
  have hapart {id : String} (hid : id = "t" ++ toString r.timerSeq) :
      ¬ ∃ n < r.timerSeq, id = "t" ++ toString n := by
    rintro ⟨n, hlt, hn⟩
    have heq := toString_nat_injective ((String.append_right_inj _).mp (hid.symm.trans hn))
    omega
  refine ⟨h.nodup, h.own_subset, by rw [hscan]; exact h.recorded, fun id a ho ha => ?_,
    fun a id ha => ?_, fun a b id ha hb => ?_, fun id ho => ?_⟩
  · by_cases hne : a = r.futureCount
    · subst hne
      exact absurd (h.started id ho) (hapart (hnew ha).1)
    · have hcancelled := h.cancelled id a ho (hold hne ha)
      rwa [hf, Function.update_of_ne hne]
  · by_cases hne : a = r.futureCount
    · subst hne
      obtain ⟨hid, hlt⟩ := hnew ha
      exact ⟨by omega, r.timerSeq, hlt, hid⟩
    · obtain ⟨hlt, n, hn, hid⟩ := h.timers a id (hold hne ha)
      exact ⟨by omega, n, by omega, hid⟩
  · by_cases hne : a = r.futureCount
    · subst hne
      by_cases hne' : b = r.futureCount
      · exact hne'.symm
      · exact absurd (h.timers b id (hold hne' hb)).2 (hapart (hnew ha).1)
    · by_cases hne' : b = r.futureCount
      · subst hne'
        exact absurd (h.timers a id (hold hne ha)).2 (hapart (hnew hb).1)
      · exact h.unique a b id (hold hne ha) (hold hne' hb)
  · obtain ⟨n, hn, hid⟩ := h.started id ho
    exact ⟨n, by omega, hid⟩

theorem exec (h : Requests sent own r) {op : Op σ} {resp : Resp σ}
    (hop : ∀ addr, op ≠ .cancel addr) (hx : r.exec op = some (q, resp)) : Requests sent own q := by
  have hentry {o : FutureOp} {id j : String} {outcome : Option OpOutcome}
      (hj : (futureOfEntry o id outcome).key? = some (.timer j)) : o = .timer := by
    obtain ⟨hop', -⟩ := futureOfEntry_op o id outcome
    unfold FutureState.key? at hj
    rw [hop'] at hj
    cases o with
    | timer => rfl
    | _ => cases hj
  cases ho : op.touchesFutures with
  | false =>
    have hscan := (r.exec_frame hx).scan
    exact h.congr (by rw [hscan]; exact ⟨rfl, rfl, rfl, rfl, rfl, rfl, rfl⟩)
      (r.exec_operations ho hx)
  | true =>
    cases op with
    | scheduleActivity type input options =>
      cases hx
      rw [r.scheduleActivity_eq]
      exact h.opens rfl rfl rfl (Nat.le_refl _) fun j hj => absurd (hentry hj) nofun
    | startTimer duration =>
      cases hx
      rw [r.startTimer_eq]
      refine h.opens rfl rfl rfl (Nat.le_succ _) fun j hj => ?_
      have hkey : (futureOfTimer ("t" ++ toString r.timerSeq)
          (r.scan.timers ("t" ++ toString r.timerSeq))).key? =
            some (.timer ("t" ++ toString r.timerSeq)) := by
        unfold futureOfTimer
        split <;> rfl
      rw [hkey] at hj
      cases hj
      exact ⟨rfl, Nat.lt_succ_self _⟩
    | startChildWorkflow type input options =>
      cases hx
      rw [r.startChildWorkflow_eq]
      exact h.opens rfl rfl rfl (Nat.le_refl _) fun j hj => absurd (hentry hj) nofun
    | scheduleNexusOperation endpoint service operation input close =>
      cases hx
      rw [r.scheduleNexusOperation_eq]
      exact h.opens rfl rfl rfl (Nat.le_refl _) fun j hj => absurd (hentry hj) nofun
    | awaitCancellation =>
      cases hx
      unfold Runner.awaitCancellation
      split
      · exact h.opens (f := { ready := true }) rfl rfl rfl (Nat.le_refl _) nofun
      · exact h.opens (f := {}) rfl rfl rfl (Nat.le_refl _) nofun
    | cancel addr => exact absurd rfl (hop addr)
    | _ => cases ho

/-- Futures may be written, as long as they stand for the same operations and cancelled ones stay
so, and requests may be put on record. -/
theorem write (h : Requests sent own r)
    (hscan : ∀ k, r.scan.requested k = true → q.scan.requested k = true)
    (hkeys : ∀ a, (q.futures a).key? = (r.futures a).key?)
    (hcancelled : ∀ a, (r.futures a).cancelled = true → (q.futures a).cancelled = true)
    (hc : q.futureCount = r.futureCount) (ht : q.timerSeq = r.timerSeq) : Requests sent own q where
  nodup := h.nodup
  own_subset := h.own_subset
  recorded k hk ho := hscan k (h.recorded k hk ho)
  cancelled id a ho ha := hcancelled a (h.cancelled id a ho (hkeys a ▸ ha))
  timers a id ha := by
    rw [hc, ht]
    exact h.timers a id (hkeys a ▸ ha)
  unique a b id ha hb := h.unique a b id (hkeys a ▸ ha) (hkeys b ▸ hb)
  started := by rw [ht]; exact h.started

end Requests

section Writes

variable (r : Runner σ)

theorem resolveFuture_keeps (addr : Option Nat) {f : FutureState → FutureState}
    (hf : ∀ x, (f x).key? = x.key? ∧ (x.cancelled = true → (f x).cancelled = true)) (a : Nat) :
    ((r.resolveFuture addr f).futures a).key? = (r.futures a).key? ∧
      ((r.futures a).cancelled = true → ((r.resolveFuture addr f).futures a).cancelled = true) := by
  cases addr with
  | none => exact ⟨rfl, fun hc => hc⟩
  | some b =>
    by_cases hab : a = b
    · subst hab
      have hself : (r.resolveFuture (some a) f).futures a = f (r.futures a) :=
        Function.update_self _ _ _
      rw [hself]
      exact hf _
    · have hother : (r.resolveFuture (some b) f).futures a = r.futures a :=
        Function.update_of_ne hab _ _
      rw [hother]
      exact ⟨rfl, fun hc => hc⟩

/-- An event leaves every future to its operation, and none that was cancelled is so no longer. -/
theorem applyEventToState_keeps (e : HistoryEvent) (a : Nat) :
    ((r.applyEventToState e).futures a).key? = (r.futures a).key? ∧
      ((r.futures a).cancelled = true →
        ((r.applyEventToState e).futures a).cancelled = true) := by
  cases hd : e.attributes.delivery? with
  | some d =>
    rw [r.applyEventToState_deliver hd]
    cases d with
    | activity sid c =>
      refine r.resolveFuture_keeps _ (fun x => ?_) a
      cases c <;> exact ⟨rfl, fun hc => hc⟩
    | nexus sid c =>
      refine r.resolveFuture_keeps _ (fun x => ?_) a
      cases c <;> exact ⟨rfl, fun hc => hc⟩
    | child id c =>
      refine r.resolveFuture_keeps _ (fun x => ?_) a
      cases c <;> exact ⟨rfl, fun hc => hc⟩
    | timer id =>
      refine r.resolveFuture_keeps _ (fun x => ?_) a
      exact ⟨rfl, fun hc => hc⟩
    | signal name input => exact ⟨rfl, fun hc => hc⟩
    | cancelRequest =>
      simp only [deliver, foldl_setFuture_eq]
      split <;> exact ⟨rfl, fun hc => hc⟩
  | none =>
    obtain ⟨eid, attrs⟩ := e
    cases attrs with
    | timerCanceled id =>
      refine r.resolveFuture_keeps _ (fun x => ?_) a
      exact ⟨rfl, fun _ => rfl⟩
    | _ => first
      | exact ⟨rfl, fun hc => hc⟩
      | cases hd

theorem applyEventToState_seqs (e : HistoryEvent) :
    (r.applyEventToState e).futureCount = r.futureCount ∧
      (r.applyEventToState e).timerSeq = r.timerSeq := by
  have hresolve (addr : Option Nat) (f : FutureState → FutureState) :
      (r.resolveFuture addr f).futureCount = r.futureCount ∧
        (r.resolveFuture addr f).timerSeq = r.timerSeq := by
    cases addr <;> exact ⟨rfl, rfl⟩
  cases hd : e.attributes.delivery? with
  | some d =>
    rw [r.applyEventToState_deliver hd]
    cases d with
    | signal name input => exact ⟨rfl, rfl⟩
    | cancelRequest =>
      rw [deliver, foldl_setFuture_eq]
      exact ⟨rfl, rfl⟩
    | _ => exact hresolve _ _
  | none =>
    obtain ⟨eid, attrs⟩ := e
    cases attrs with
    | timerCanceled id => exact hresolve _ _
    | _ => first
      | exact ⟨rfl, rfl⟩
      | cases hd

theorem cancel_keeps (addr a : Nat) :
    ((r.cancel addr).futures a).key? = (r.futures a).key? ∧
      ((r.futures a).cancelled = true → ((r.cancel addr).futures a).cancelled = true) := by
  have heffect := r.cancel_effect addr
  generalize r.cancel addr = q at heffect ⊢
  cases heffect with
  | timer hop hfresh =>
    exact r.resolveFuture_keeps (some addr)
      (f := fun x => { x with ready := true, cancelled := true }) (fun x => ⟨rfl, fun _ => rfl⟩) a
  | _ => exact ⟨rfl, fun hc => hc⟩

theorem cancel_scan (addr : Nat) : (r.cancel addr).scan = r.scan := by
  have heffect := r.cancel_effect addr
  generalize r.cancel addr = q at heffect ⊢
  cases heffect <;> rfl

theorem cancel_seqs (addr : Nat) :
    (r.cancel addr).futureCount = r.futureCount ∧ (r.cancel addr).timerSeq = r.timerSeq := by
  have heffect := r.cancel_effect addr
  generalize r.cancel addr = q at heffect ⊢
  cases heffect <;> exact ⟨rfl, rfl⟩

theorem cancel_of_stops {addr : Nat} (hstop : r.cancelStops addr = true) :
    (r.cancel addr).commands = r.commands := by
  have heffect := r.cancel_effect addr
  generalize r.cancel addr = q at heffect ⊢
  cases heffect with
  | nothing => rfl
  | timer hop hfresh =>
    simp only [cancelStops, hop, hfresh, Bool.false_or] at hstop
    simp [unlessRecorded, hstop]
  | activity hop hfresh hs =>
    simp only [cancelStops, hop, hfresh, hs, Option.isNone_some, Bool.false_or] at hstop
    simp [unlessRecorded, hstop]
  | child hop hfresh =>
    simp only [cancelStops, hop, hfresh, Bool.false_or] at hstop
    simp [unlessRecorded, hstop]

/-- What a call that is not stopped does: it sends one command, nothing was on record for the
operation, its future was not cancelled, and that of a timer is cancelled from then on. -/
structure LetsThrough (addr : Nat) (k : Key) : Prop where
  key : (r.futures addr).key? = some k
  sent : ∃ c, (r.cancel addr).commands = r.commands ++ [c]
  fresh : r.scan.requested k = false
  unmarked : (r.futures addr).cancelled = false
  timer : k.isTimer = true → ((r.cancel addr).futures addr).cancelled = true

theorem filter_eq_none_of_any {α : Type} {o : Option α} {p : α → Bool} (h : o.any p = false) :
    o.filter p = none := by
  cases o with
  | none => rfl
  | some x => simpa [Option.filter] using h

theorem cancel_of_passes {addr : Nat} (hpass : r.cancelStops addr = false) :
    ∃ k, r.LetsThrough addr k := by
  unfold cancelStops at hpass
  dsimp only at hpass
  rw [Bool.or_eq_false_iff] at hpass
  obtain ⟨hfresh, hpass⟩ := hpass
  cases hop : (r.futures addr).op with
  | timer =>
    simp only [hop] at hpass
    have hcancel : r.cancel addr = ((r.produce .cancelTimer (r.futures addr).opId "").emit
        (.cancelTimer (r.futures addr).opId)).setFuture addr
          { r.futures addr with ready := true, cancelled := true } := by
      simp only [cancel, hfresh, hop, filter_eq_none_of_any hpass, Bool.false_eq_true, if_false]
    refine ⟨.timer (r.futures addr).opId, by rw [FutureState.key?, hop], ⟨_, by rw [hcancel]; rfl⟩,
      (r.scan.requested_timer _).trans hpass, hfresh, fun _ => ?_⟩
    rw [hcancel]
    simp [setFuture]
  | activity =>
    simp only [hop, Bool.or_eq_false_iff, Option.isNone_eq_false_iff] at hpass
    obtain ⟨sid, hs⟩ := Option.isSome_iff_exists.mp hpass.1
    have hcancel := r.cancel_activity hop hfresh hs
    rw [hpass.2] at hcancel
    exact ⟨.activity (r.futures addr).opId, by rw [FutureState.key?, hop],
      ⟨_, congrArg Runner.commands hcancel⟩, (r.scan.requested_activity _).trans hpass.2, hfresh,
      fun htimer => absurd htimer Bool.false_ne_true⟩
  | childWorkflow =>
    simp only [hop] at hpass
    have hcancel := (r.cancel_child hop hfresh).trans (r.requestCancelExternal_eq _ true)
    rw [hpass] at hcancel
    exact ⟨.child (r.futures addr).opId, by rw [FutureState.key?, hop],
      ⟨_, congrArg Runner.commands hcancel⟩, (r.scan.requested_child _).trans hpass, hfresh,
      fun htimer => absurd htimer Bool.false_ne_true⟩
  | nexusOperation => simp [hop] at hpass
  | none => simp [hop] at hpass

/-- A call sends a request exactly if it is not stopped. -/
theorem sends_eq (addr : Nat) :
    r.sends addr = (r.letThrough addr).map fun k => ⟨k, (r.futures addr).ready⟩ := by
  unfold sends letThrough
  cases hstop : r.cancelStops addr with
  | true => rw [if_pos (r.cancel_of_stops hstop), if_pos rfl, List.map_nil]
  | false =>
    obtain ⟨k, hk⟩ := r.cancel_of_passes hstop
    obtain ⟨c, hc⟩ := hk.sent
    rw [if_neg, if_neg Bool.false_ne_true]
    rw [hc]
    simp

end Writes

namespace Requests

variable {sent own : List Key} {r : Runner σ}

/-- A request the guards let through repeats none, unless this runner has sent it before. -/
theorem fresh (h : Requests sent own r) {addr : Nat} {k : Key} (hk : r.LetsThrough addr k)
    (hown : k.isTimer = true ∨ k ∉ own) : k ∉ sent := by
  intro hsent
  by_cases hmem : k ∈ own
  · cases k with
    | timer id =>
      exact absurd (h.cancelled id addr hmem hk.key) (by rw [hk.unmarked]; exact nofun)
    | _ => exact hown.elim nofun fun hnot => hnot hmem
  · exact absurd (h.recorded k hsent hmem) (by rw [hk.fresh]; exact nofun)

theorem cancel (h : Requests sent own r) (addr : Nat) : Requests sent own (r.cancel addr) :=
  h.write (fun k hk => (congrArg (Prescan.requested · k) (r.cancel_scan addr)).trans hk)
    (fun a => (r.cancel_keeps addr a).1) (fun a => (r.cancel_keeps addr a).2)
    (r.cancel_seqs addr).1 (r.cancel_seqs addr).2

theorem given (h : Requests sent own r) (e : HistoryEvent) :
    Requests sent own (r.applyEventToState e) :=
  h.write (fun _ hk => (r.applyEventToState_requested e).mpr (.inl hk))
    (fun a => (r.applyEventToState_keeps e a).1) (fun a => (r.applyEventToState_keeps e a).2)
    (r.applyEventToState_seqs e).1 (r.applyEventToState_seqs e).2

theorem request (h : Requests sent own r) {addr : Nat} {k : Key} (hk : r.LetsThrough addr k)
    (hown : k.isTimer = true ∨ k ∉ own) : Requests (k :: sent) (k :: own) (r.cancel addr) := by
  have hfresh := h.fresh hk hown
  have hkept := h.cancel addr
  exact
    { nodup := List.nodup_cons.mpr ⟨hfresh, h.nodup⟩
      own_subset := List.cons_subset_cons k h.own_subset
      recorded := fun j hj ho => by
        rcases List.mem_cons.mp hj with rfl | hj
        · exact absurd List.mem_cons_self ho
        · exact hkept.recorded j hj fun hmem => ho (List.mem_cons_of_mem k hmem)
      cancelled := fun id a ho ha => by
        rcases List.mem_cons.mp ho with rfl | ho
        · have haddr : ((Runner.cancel r addr).futures addr).key? = some (.timer id) :=
            (r.cancel_keeps addr addr).1.trans hk.key
          rw [hkept.unique a addr id ha haddr]
          exact hk.timer rfl
        · exact hkept.cancelled id a ho ha
      timers := hkept.timers
      unique := hkept.unique
      started := fun id ho => by
        rcases List.mem_cons.mp ho with rfl | ho
        · rw [(r.cancel_seqs addr).2]
          exact (h.timers addr id hk.key).2
        · exact hkept.started id ho }

end Requests

theorem letThrough_of {addr : Nat} {k : Key} {r : Runner σ} (hpass : r.cancelStops addr = false)
    (hk : r.LetsThrough addr k) : r.letThrough addr = [k] := by
  rw [letThrough, hpass, hk.key]
  rfl

theorem Requesting.requests {sent : List CancelRequest} {own : List Key} {r : Runner σ}
    (h : Requesting sent own r) :
    Requests (sent.map CancelRequest.key) own r ∧ ∀ x ∈ sent, x.ready = false := by
  induction h with
  | first info isReplaying world fn h =>
    exact ⟨Requests.replay info isReplaying world fn List.nodup_nil nofun, nofun⟩
  | @rebuilt sent accepted _ _ h info isReplaying world fn _ haccepted hrec ih =>
    refine ⟨Requests.replay info isReplaying world fn (ih.1.nodup.sublist (haccepted.map _))
      (List.forall_mem_map.mpr hrec), fun x hx => ih.2 x (haccepted.subset hx)⟩
  | asked _ hop hx ih => exact ⟨ih.1.exec hop hx, ih.2⟩
  | @cancelled sent own r addr _ hmay ih =>
    rw [r.sends_eq]
    cases hstop : r.cancelStops addr with
    | true =>
      rw [letThrough, if_pos hstop]
      exact ⟨ih.1.cancel addr, ih.2⟩
    | false =>
      obtain ⟨k, hk⟩ := r.cancel_of_passes hstop
      obtain ⟨hready, hown⟩ := hmay.resolve_left (Bool.eq_false_iff.mp hstop)
      rw [letThrough_of hstop hk]
      exact ⟨ih.1.request hk (hown k hk.key), List.forall_mem_cons.mpr ⟨hready, ih.2⟩⟩
  | given _ e ih => exact ⟨ih.1.given e, ih.2⟩
  | noted _ hscan hops ih => exact ⟨ih.1.congr hscan hops, ih.2⟩

/-- A call of `Cancel` among these operations may be made. -/
def Permits (own : List Key) (r : Runner σ) (op : Op σ) : Prop :=
  ∀ addr, op = .cancel addr → r.MayCancel own addr

/-- The operations this runner has let a call through for, after one more operation. -/
def requestedBy (own : List Key) (r : Runner σ) : Op σ → List Key
  | .cancel addr => r.letThrough addr ++ own
  | _ => own

/-- Every one of these operations, in this order, is permitted. -/
def AllPermitted : List Key → List (Runner σ × Op σ) → Prop
  | _, [] => True
  | own, (r, op) :: asks => Permits own r op ∧ AllPermitted (requestedBy own r op) asks

namespace Requesting

variable {sent : List CancelRequest} {own : List Key} {r q : Runner σ} {fuel : Nat}

/-- A write to anything but the tables and the operations. -/
theorem note (h : Requesting sent own r) (hscan : q.scan = r.scan)
    (hops : q.operations = r.operations) : Requesting sent own q :=
  h.noted (by rw [hscan]; exact ⟨rfl, rfl, rfl, rfl, rfl, rfl, rfl⟩) hops

/-- One operation, of the body or of a handler. -/
theorem ask (h : Requesting sent own r) {op : Op σ} {resp : Resp σ} (hp : Permits own r op)
    (hx : r.exec op = some (q, resp)) : ∃ sent', Requesting sent' (requestedBy own r op) q := by
  by_cases hop : ∃ addr, op = .cancel addr
  · obtain ⟨addr, rfl⟩ := hop
    cases hx
    exact ⟨_, h.cancelled (hp addr rfl)⟩
  · have hown : requestedBy own r op = own := by
      cases op with
      | cancel addr => exact absurd ⟨addr, rfl⟩ hop
      | _ => rfl
    rw [hown]
    exact ⟨sent, h.asked (fun addr hc => hop ⟨addr, hc⟩) hx⟩

theorem runFor (h : Requesting sent own r) (hp : AllPermitted own (bodyAsks fuel r))
    (hrun : Parking.runFor Runner.step fuel r = some q) :
    ∃ sent' own', Requesting sent' own' q := by
  induction fuel generalizing sent own r with
  | zero =>
    unfold Parking.runFor at hrun
    split at hrun
    · cases hrun
      exact ⟨sent, own, h⟩
    · cases hrun
  | succ fuel ih =>
    unfold Parking.runFor at hrun
    cases hs : r.step with
    | none =>
      rw [hs] at hrun
      cases hrun
      exact ⟨sent, own, h⟩
    | some r' =>
      rw [hs] at hrun
      rw [bodyAsks, hs] at hp
      cases ha : r.asked? with
      | some op =>
        rw [ha] at hp
        rw [step_of_asked? ha] at hs
        obtain ⟨⟨q', resp⟩, hx, rfl⟩ := Option.map_eq_some_iff.mp hs
        obtain ⟨sent', hnext⟩ := h.ask hp.1 hx
        have hrest : AllPermitted (requestedBy own r op)
            (bodyAsks fuel { q' with trace := r.trace ++ [resp] }) := by simpa using hp.2
        have hnoted : Requesting sent' (requestedBy own r op)
            { q' with trace := r.trace ++ [resp] } := hnext.note rfl rfl
        exact ih hnoted hrest hrun
      | none =>
        rw [ha] at hp
        obtain ⟨o, rfl⟩ := step_of_not_asked ha hs
        exact ih (h.note (by cases o <;> rfl) (by cases o <;> rfl)) hp hrun

theorem resumeCoroutine (h : Requesting sent own r) (hp : AllPermitted own (bodyAsks fuel r)) :
    ∃ sent' own', Requesting sent' own' (r.resumeCoroutine fuel) := by
  unfold Runner.resumeCoroutine
  split
  · next q hrun => exact h.runFor hp hrun
  · exact ⟨sent, own, h.note rfl rfl⟩

theorem applyEvents (h : Requesting sent own r) (evs : History) :
    Requesting sent own (r.applyEvents evs) := by
  induction evs generalizing r with
  | nil => exact h
  | cons e evs ih =>
    by_cases hstale : e.eventId ≤ r.scan.lastEventId
    · rw [r.applyEvents_cons_stale hstale]
      exact ih h
    · rw [r.applyEvents_cons_new (Nat.lt_of_not_le hstale)]
      exact ih ((h.given e).noted ⟨rfl, rfl, rfl, rfl, rfl, rfl, rfl⟩ rfl)

/-- A task of a cached runner. -/
theorem applyAndResume (h : Requesting sent own r) {evs : History}
    (hp : AllPermitted own (bodyAsks fuel
      (({ r with commands := [], producedCommands := [] } : Runner σ).applyEvents evs))) :
    ∃ sent' own', Requesting sent' own' (r.applyAndResume fuel evs) := by
  have hstart : Requesting sent own { r with commands := [], producedCommands := [] } :=
    h.note rfl rfl
  have happlied := hstart.applyEvents evs
  unfold Runner.applyAndResume
  dsimp only
  split_ifs
  · exact happlied.resumeCoroutine hp
  · exact ⟨sent, own, happlied⟩

end Requesting

/-- In every execution whose calls of `Cancel` are all stopped by a guard, or for an open operation
that this runner has not requested before (a timer apart), no request to cancel is sent twice and
none for an operation that was ready. The next call keeps it so exactly if it is such a call, and
it sends one command for each request. -/
theorem cancel_requests_once {sent : List CancelRequest} {own : List Key} {r : Runner σ}
    (h : Requesting sent own r) :
    CancelsOnce sent ∧ ∀ addr,
      (CancelsOnce (r.sends addr ++ sent) ↔ r.MayCancel own addr) ∧
        ∃ added, (r.cancel addr).commands = r.commands ++ added ∧
          added.length = (r.sends addr).length := by
  obtain ⟨hinv, hopen⟩ := h.requests
  refine ⟨⟨hinv.nodup, hopen⟩, fun addr => ⟨⟨fun honce => ?_, fun hmay => ?_⟩, ?_⟩⟩
  · rw [r.sends_eq] at honce
    cases hstop : r.cancelStops addr with
    | true => exact .inl hstop
    | false =>
      obtain ⟨k, hk⟩ := r.cancel_of_passes hstop
      rw [letThrough_of hstop hk] at honce
      obtain ⟨hnodup, hready⟩ := honce
      refine .inr ⟨hready _ List.mem_cons_self, fun j hj => .inr fun hmem => ?_⟩
      cases hk.key.symm.trans hj
      exact (List.nodup_cons.mp hnodup).1 (hinv.own_subset hmem)
  · obtain ⟨hnext, hready⟩ := (h.cancelled hmay).requests
    exact ⟨hnext.nodup, hready⟩
  · rw [r.sends_eq, List.length_map]
    cases hstop : r.cancelStops addr with
    | true =>
      refine ⟨[], (r.cancel_of_stops hstop).trans (List.append_nil _).symm, ?_⟩
      rw [letThrough, if_pos hstop]
      rfl
    | false =>
      obtain ⟨k, hk⟩ := r.cancel_of_passes hstop
      obtain ⟨c, hc⟩ := hk.sent
      exact ⟨[c], hc, by rw [letThrough_of hstop hk]; rfl⟩

end Runner

/-- A body that starts an activity and a timer, and stops both when the timer has fired: the
activity twice. -/
def stopTwice : WorkflowFn Unit where
  init := ()
  body _ answers :=
    match answers with
    | [] => .scheduleActivity "Greet" [] {}
    | [_] => .startTimer 1000
    | [_, _] => .get 1
    | [_, _, _] | [_, _, _, _] => .cancel 0
    | [_, _, _, _, _] => .cancel 1
    | _ => .get 0

/-- The first task of the body, and the second, in which the timer has fired. -/
def stopTask : History :=
  [⟨1, .workflowExecutionStarted "StopTwice" [] []⟩, ⟨2, .other⟩, ⟨3, .other⟩]

def stopFired : History :=
  [⟨4, .other⟩, ⟨5, .activityTaskScheduled "0" "Greet"⟩, ⟨6, .timerStarted "t0"⟩,
    ⟨7, .timerFired "t0"⟩, ⟨8, .other⟩, ⟨9, .other⟩]

/-- The runner that requests the activity's cancellation. -/
def stopRequested : Runner Unit :=
  ((Runner.replay {} true (.plain .tagged) stopTwice (stopTask ++ stopFired)).scheduleActivity
    "Greet" [] {}).cancel 0

/-- The history that has the request, with the timer still running. -/
def stopRecorded : History :=
  stopTask ++ [⟨4, .other⟩, ⟨5, .activityTaskScheduled "0" "Greet"⟩, ⟨6, .timerStarted "t0"⟩,
    ⟨7, .activityTaskCancelRequested 5⟩, ⟨8, .other⟩, ⟨9, .other⟩]

/-- The runner built on it, which requests the timer's cancellation. -/
def stopRebuilt : Runner Unit :=
  (((Runner.replay {} true (.plain .tagged) stopTwice stopRecorded).scheduleActivity "Greet" []
    {}).startTimer 1000).cancel 1

theorem stopRequested_requesting :
    Runner.Requesting [⟨.activity "0", false⟩] [.activity "0"] stopRequested := by
  have hfirst := Runner.Requesting.first {} true (.plain .tagged) stopTwice (stopTask ++ stopFired)
  have hasked := @Runner.Requesting.asked _ _ _ _ _ (.scheduleActivity "Greet" [] {}) _ hfirst
    nofun rfl
  have hmay : Runner.MayCancel [] ((Runner.replay {} true (.plain .tagged) stopTwice
      (stopTask ++ stopFired)).scheduleActivity "Greet" [] {}) 0 :=
    .inr ⟨by decide +kernel, fun _ _ => .inr List.not_mem_nil⟩
  exact hasked.cancelled hmay

theorem stopRebuilt_requesting :
    Runner.Requesting [⟨.timer "t0", false⟩, ⟨.activity "0", false⟩] [.timer "t0"] stopRebuilt := by
  have hrebuilt := stopRequested_requesting.rebuilt (h := stopRecorded) {} true (.plain .tagged)
    stopTwice (List.Sublist.refl _) (List.forall_mem_singleton.mpr
      ⟨stopTask ++ [⟨4, .other⟩], [⟨6, .timerStarted "t0"⟩], [⟨8, .other⟩, ⟨9, .other⟩], 5,
        "Greet", 7, rfl, by decide⟩)
  have hasked := @Runner.Requesting.asked _ _ _ _ _ (.scheduleActivity "Greet" [] {}) _ hrebuilt
    nofun rfl
  have hstarted := @Runner.Requesting.asked _ _ _ _ _ (.startTimer 1000) _ hasked nofun rfl
  have hmay : Runner.MayCancel [] (((Runner.replay {} true (.plain .tagged) stopTwice
      stopRecorded).scheduleActivity "Greet" [] {}).startTimer 1000) 1 :=
    .inr ⟨by decide +kernel, fun _ _ => .inr List.not_mem_nil⟩
  exact hstarted.cancelled hmay

/-- Two runners have requested two operations. A guard stops another call for the activity on the
runner that has its request on record; on the first runner nothing would. -/
theorem stop_requests_sent_once :
    CancelsOnce [⟨.timer "t0", false⟩, ⟨.activity "0", false⟩] ∧
      stopRebuilt.MayCancel [.timer "t0"] 0 ∧
      CancelsOnce (stopRebuilt.sends 0 ++ [⟨.timer "t0", false⟩, ⟨.activity "0", false⟩]) ∧
      ¬ CancelsOnce (stopRequested.sends 0 ++ [⟨.activity "0", false⟩]) := by
  obtain ⟨honce, hnext⟩ := Runner.cancel_requests_once stopRebuilt_requesting
  have hmay : stopRebuilt.MayCancel [.timer "t0"] 0 := .inl (by decide +kernel)
  refine ⟨honce, hmay, (hnext 0).1.mpr hmay, fun hsent => ?_⟩
  rcases ((Runner.cancel_requests_once stopRequested_requesting).2 0).1.mp hsent with
    hstop | ⟨-, hown⟩
  · exact absurd hstop (by decide +kernel)
  · exact absurd (hown (.activity "0") (by decide +kernel)) (by decide)

/-- The request for the activity is sent twice, and the timer is cancelled after it has fired. -/
theorem stop_requests_sent_again :
    let r := (Runner.replay {} false (.plain .tagged) stopTwice stopTask).run 10
    ((r.applyEvents stopFired).futures 1).ready = true ∧
      (r.applyAndResume 10 stopFired).commands =
        [.requestCancelActivityTask 5, .requestCancelActivityTask 5, .cancelTimer "t0"] := by
  decide +kernel

end TemporalSdk
