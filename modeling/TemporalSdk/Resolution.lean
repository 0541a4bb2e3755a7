import TemporalSdk.Endings
import TemporalSdk.Identity

/-! The futures of operations that have ended: whichever way the ending reaches a runner, by the
scan, by the timeline that follows the first update or with the events of a continuation, the future
of the operation shows it, if the ending is one that is looked at. -/
namespace TemporalSdk

variable {σ : Type}

section Futures

variable {S : Prescan} {v : Option Verdict}

theorem futureOfEntry_flags (op : FutureOp) (id : String) (outcome : Option OpOutcome) :
    let o := outcome.getD {}
    (futureOfEntry op id outcome).ready = (o.scheduled && o.resolved) ∧
      (futureOfEntry op id outcome).failed = (o.scheduled && o.resolved && o.failed) := by
  cases outcome with
  | none => exact ⟨rfl, rfl⟩
  | some o =>
    by_cases hs : o.scheduled = true <;> by_cases hr : o.resolved = true <;>
      simp [futureOfEntry, Option.filter, Runner.futureOfOutcome, hs, hr]

/-- A future made from a table is ready if its operation was opened and has ended. -/
theorem Prescan.future_flags (S : Prescan) {k : Key} (hk : k ≠ .cancellation) :
    (S.future k).ready = ((S.outcome k).scheduled && (S.outcome k).resolved) ∧
      (S.future k).failed =
        ((S.outcome k).scheduled && (S.outcome k).resolved && (S.outcome k).failed) := by
  cases k with
  | cancellation => exact absurd rfl hk
  | timer id =>
    simp only [Prescan.future, Prescan.outcome, futureOfTimer]
    cases S.timers id with
    | none => exact ⟨rfl, rfl⟩
    | some t => by_cases hs : t.started = true <;> simp [Option.filter, hs]
  | _ => exact futureOfEntry_flags _ _ _

theorem Prescan.future_shows {k : Key} (hk : k ≠ .cancellation) (h : (S.outcome k).Tells v) :
    (S.future k).Shows v := by
  obtain ⟨hready, hfailed⟩ := S.future_flags hk
  match v with
  | some ⟨ok, true⟩ =>
    obtain ⟨hs, hr, hf⟩ := h
    rw [hs, hr] at hready hfailed
    exact ⟨hready, hfailed.trans hf⟩
  | some ⟨_, false⟩ =>
    rw [h.1, Bool.and_false] at hready hfailed
    exact ⟨hready, hfailed⟩
  | none =>
    rw [h.1, Bool.and_false] at hready hfailed
    exact ⟨hfailed, fun _ => hready⟩

end Futures

namespace Runner

/-- The future an operation is registered with. -/
def addr? (r : Runner σ) : Key → Option Nat
  | .activity id => r.activityFutures id
  | .timer id => r.timerFutures id
  | .child id => r.childFutures id
  | .nexus id => r.nexusFutures id
  | .cancellation => none

/-- A child is started under an id that is not in use. -/
def StartsAfresh (r : Runner σ) : Op σ → Prop
  | .startChildWorkflow _ _ options => r.childFutures (r.childId options) = none
  | _ => True

instance (r : Runner σ) (op : Op σ) : Decidable (r.StartsAfresh op) :=
  match op with
  | .startChildWorkflow _ _ options =>
    inferInstanceAs (Decidable (r.childFutures (r.childId options) = none))
  | .scheduleActivity .. | .startTimer .. | .scheduleNexusOperation .. | .cancel .. |
    .cancelExternalWorkflow .. | .signalExternalWorkflow .. | .upsertSearchAttributes .. | .get .. |
    .isReady .. | .receive .. | .receiveAsync .. | .hasPending .. | .select .. | .isCancelled |
    .awaitCancellation | .sideEffect | .mutableSideEffect .. | .getVersion .. |
    .executeLocalActivity .. | .setQueryHandler .. | .setUpdateHandler .. |
    .setUpdateValidator .. | .getInfo | .isReplaying | .readStore | .writeStore .. |
    .finish .. => isTrue trivial

/-- An ending that is looked at finds its operation started. -/
def Finds (L : Ledger) (r : Runner σ) (e : HistoryEvent) : Prop :=
  ∀ x ∈ e.attributes.ending?, x.2.known = true → ∀ k ∈ L.key? x.1, (r.addr? k).isSome = true

instance (L : Ledger) (r : Runner σ) (e : HistoryEvent) : Decidable (r.Finds L e) := by
  unfold Finds
  infer_instance

/-- A runner against the ledger of the events it has been given: the futures of its operations show
the verdicts, and the tables have them for the operations that are still to be started. -/
structure Settled (L : Ledger) (r : Runner σ) : Prop where
  activityOf : r.scan.schedEventToActivity = L.activityOf
  nexusOf : r.scan.schedEventToNexus = L.nexusOf
  nexusCount : r.scan.nexusOpsScheduled = L.nexusCount
  addrs : ∀ k a, r.addr? k = some a ↔ a < r.futureCount ∧ (r.futures a).key? = some k
  shown : ∀ k a, r.addr? k = some a → (r.futures a).Shows (L.verdict k)
  ahead : ∀ k, r.addr? k = none → (r.scan.outcome k).Tells (L.verdict k)
  activitiesAhead : ∀ n, r.activitySeq ≤ n → r.activityFutures (toString n) = none
  timersAhead : ∀ n, r.timerSeq ≤ n → r.timerFutures ("t" ++ toString n) = none
  nexusAhead : ∀ n, r.nexusSeq ≤ n → r.nexusFutures (toString n) = none
  cancels : ∀ a ∈ r.cancelFutures, a < r.futureCount ∧ (r.futures a).key? = none
  forgotten : ∀ k ok, L.verdict k = some ⟨ok, false⟩ → ∃ id, k = .child id

namespace Settled

variable {L L' : Ledger} {r q : Runner σ} {k : Key}

/-- Nothing of it is about the answers the body has seen, the commands or the flags. -/
theorem congr (h : Settled L r) (hscan : SameTables r.scan q.scan)
    (hops : q.operations = r.operations) : Settled L q := by
  have hf : q.futures = r.futures := congrArg Operations.futures hops
  have hc : q.futureCount = r.futureCount := congrArg Operations.futureCount hops
  have ha : q.activityFutures = r.activityFutures := congrArg Operations.activityFutures hops
  have ht : q.timerFutures = r.timerFutures := congrArg Operations.timerFutures hops
  have hch : q.childFutures = r.childFutures := congrArg Operations.childFutures hops
  have hn : q.nexusFutures = r.nexusFutures := congrArg Operations.nexusFutures hops
  have hcan : q.cancelFutures = r.cancelFutures := congrArg Operations.cancelFutures hops
  have has : q.activitySeq = r.activitySeq := congrArg Operations.activitySeq hops
  have hts : q.timerSeq = r.timerSeq := congrArg Operations.timerSeq hops
  have hns : q.nexusSeq = r.nexusSeq := congrArg Operations.nexusSeq hops
  have haddr : q.addr? = r.addr? := by
    funext k
    cases k <;> simp only [addr?, ha, ht, hch, hn]
  exact
    { activityOf := hscan.schedEventToActivity.trans h.activityOf
      nexusOf := hscan.schedEventToNexus.trans h.nexusOf
      nexusCount := hscan.nexusOpsScheduled.trans h.nexusCount
      addrs := by rw [haddr, hc, hf]; exact h.addrs
      shown := by rw [haddr, hf]; exact h.shown
      ahead := fun k hk => by
        rw [haddr] at hk
        rw [Prescan.outcome_of_sameTables hscan]
        exact h.ahead k hk
      activitiesAhead := by rw [has, ha]; exact h.activitiesAhead
      timersAhead := by rw [hts, ht]; exact h.timersAhead
      nexusAhead := by rw [hns, hn]; exact h.nexusAhead
      cancels := by rw [hcan, hc, hf]; exact h.cancels
      forgotten := h.forgotten }

/-- A runner that has started nothing shows what its tables say. -/
theorem of_books (h : Books L r.scan) (ha : r.activityFutures = fun _ => none)
    (ht : r.timerFutures = fun _ => none) (hch : r.childFutures = fun _ => none)
    (hn : r.nexusFutures = fun _ => none) (hcan : r.cancelFutures = [])
    (hc : r.futureCount = 0)
    (hforgotten : ∀ k ok, L.verdict k = some ⟨ok, false⟩ → ∃ id, k = .child id) : Settled L r := by
  have haddr : ∀ k, r.addr? k = none := by
    intro k
    cases k <;> simp only [addr?, ha, ht, hch, hn]
  exact
    { activityOf := h.activityOf
      nexusOf := h.nexusOf
      nexusCount := h.nexusCount
      addrs := fun k a => by simp [haddr, hc]
      shown := fun k a hk => by rw [haddr] at hk; cases hk
      ahead := fun k _ => h.tells k
      activitiesAhead := fun n _ => by rw [ha]
      timersAhead := fun n _ => by rw [ht]
      nexusAhead := fun n _ => by rw [hn]
      cancels := by rw [hcan]; nofun
      forgotten := hforgotten }

/-- An operation is started: its future is made from the tables. -/
theorem opening (h : Settled L r) (hk : r.addr? k = none) (hne : k ≠ .cancellation)
    (hscan : q.scan = r.scan)
    (hf : q.futures = Function.update r.futures r.futureCount (r.scan.future k))
    (hc : q.futureCount = r.futureCount + 1)
    (haddr : ∀ j, q.addr? j = if j = k then some r.futureCount else r.addr? j)
    (hcan : q.cancelFutures = r.cancelFutures)
    (has : ∀ n, q.activitySeq ≤ n → q.activityFutures (toString n) = none)
    (hts : ∀ n, q.timerSeq ≤ n → q.timerFutures ("t" ++ toString n) = none)
    (hns : ∀ n, q.nexusSeq ≤ n → q.nexusFutures (toString n) = none) : Settled L q where
  activityOf := by rw [hscan, h.activityOf]
  nexusOf := by rw [hscan, h.nexusOf]
  nexusCount := by rw [hscan, h.nexusCount]
  addrs j a := by
    rw [haddr, hc, hf]
    by_cases ha : a = r.futureCount
    · subst ha
      rw [Function.update_self, Prescan.future_key hne, Option.some.injEq]
      have hold : r.addr? j ≠ some r.futureCount := fun hj =>
        absurd ((h.addrs j _).mp hj).1 (Nat.lt_irrefl _)
      by_cases hj : j = k
      · simp [hj]
      · simp [hj, hold, Ne.symm hj]
    · rw [Function.update_of_ne ha]
      by_cases hj : j = k
      · subst hj
        have hno : ¬ (a < r.futureCount ∧ (r.futures a).key? = some j) := fun hx => by
          rw [← h.addrs, hk] at hx
          cases hx
        rw [if_pos rfl, Option.some.injEq]
        constructor
        · intro he
          exact absurd he.symm ha
        · rintro ⟨hlt, hkey⟩
          exact absurd ⟨by omega, hkey⟩ hno
      · rw [if_neg hj, h.addrs]
        constructor
        · rintro ⟨hlt, hkey⟩
          exact ⟨by omega, hkey⟩
        · rintro ⟨hlt, hkey⟩
          exact ⟨by omega, hkey⟩
  shown j a hj := by
    rw [haddr] at hj
    rw [hf]
    split at hj
    · next he =>
      subst he
      cases hj
      rw [Function.update_self]
      exact Prescan.future_shows hne (h.ahead j hk)
    · have hlt := ((h.addrs j a).mp hj).1
      rw [Function.update_of_ne (by omega)]
      exact h.shown j a hj
  ahead j hj := by
    rw [haddr] at hj
    rw [hscan]
    split at hj
    · cases hj
    · exact h.ahead j hj
  activitiesAhead := has
  timersAhead := hts
  nexusAhead := hns
  cancels a ha := by
    rw [hcan] at ha
    obtain ⟨hlt, hkey⟩ := h.cancels a ha
    rw [hc, hf, Function.update_of_ne (by omega)]
    exact ⟨by omega, hkey⟩
  forgotten := h.forgotten

theorem scheduleActivity (h : Settled L r) (type : String) (input : Payloads)
    (options : ActivityOptions) : Settled L (r.scheduleActivity type input options) := by
  have hk : r.addr? (.activity (toString r.activitySeq)) = none := h.activitiesAhead _ le_rfl
  rw [r.scheduleActivity_eq]
  refine h.opening hk nofun rfl rfl rfl (fun j => ?_) rfl (fun n hn => ?_) h.timersAhead
    h.nexusAhead
  · cases j with
    | activity id => simp only [addr?, PartialMap.insert_apply, Key.activity.injEq]
    | _ => rfl
  · have hlt : r.activitySeq < n := hn
    have hne : toString n ≠ toString r.activitySeq := fun he => by
      have := toString_nat_injective he
      omega
    exact (PartialMap.insert_of_ne _ hne _).trans (h.activitiesAhead n hlt.le)

theorem startTimer (h : Settled L r) (duration : Int) : Settled L (r.startTimer duration) := by
  have hk : r.addr? (.timer ("t" ++ toString r.timerSeq)) = none := h.timersAhead _ le_rfl
  rw [r.startTimer_eq]
  refine h.opening hk nofun rfl rfl rfl (fun j => ?_) rfl h.activitiesAhead (fun n hn => ?_)
    h.nexusAhead
  · cases j with
    | timer id => simp only [addr?, PartialMap.insert_apply, Key.timer.injEq]
    | _ => rfl
  · have hlt : r.timerSeq < n := hn
    have hne : "t" ++ toString n ≠ "t" ++ toString r.timerSeq := fun he => by
      have := toString_nat_injective ((String.append_right_inj _).mp he)
      omega
    exact (PartialMap.insert_of_ne _ hne _).trans (h.timersAhead n hlt.le)

theorem startChildWorkflow (h : Settled L r) {options : ChildWorkflowOptions}
    (hfresh : r.childFutures (r.childId options) = none) (type : String) (input : Payloads) :
    Settled L (r.startChildWorkflow type input options) := by
  have hk : r.addr? (.child (r.childId options)) = none := hfresh
  rw [r.startChildWorkflow_eq]
  refine h.opening hk nofun rfl rfl rfl (fun j => ?_) rfl h.activitiesAhead h.timersAhead
    h.nexusAhead
  cases j with
  | child id => simp only [addr?, PartialMap.insert_apply, Key.child.injEq]
  | _ => rfl

theorem scheduleNexusOperation (h : Settled L r) (endpoint service operation : String)
    (input : Payload) (close : Int) :
    Settled L (r.scheduleNexusOperation endpoint service operation input close) := by
  have hk : r.addr? (.nexus (toString r.nexusSeq)) = none := h.nexusAhead _ le_rfl
  rw [r.scheduleNexusOperation_eq]
  refine h.opening hk nofun rfl rfl rfl (fun j => ?_) rfl h.activitiesAhead h.timersAhead
    (fun n hn => ?_)
  · cases j with
    | nexus id => simp only [addr?, PartialMap.insert_apply, Key.nexus.injEq]
    | _ => rfl
  · have hlt : r.nexusSeq < n := hn
    have hne : toString n ≠ toString r.nexusSeq := fun he => by
      have := toString_nat_injective he
      omega
    exact (PartialMap.insert_of_ne _ hne _).trans (h.nexusAhead n hlt.le)

theorem awaitCancellation (h : Settled L r) : Settled L r.awaitCancellation := by
  -- a future without an operation is handed out
  have hnew (ready : Bool) (as : List Nat) (has : ∀ a ∈ as, a = r.futureCount) :
      Settled L { r.allocate { ready } with cancelFutures := r.cancelFutures ++ as } := by
    have hother {a : Nat} (ha : a < r.futureCount) :
        (r.allocate { ready }).futures a = r.futures a := Function.update_of_ne ha.ne _ _
    have hself : (r.allocate { ready }).futures r.futureCount = { ready } :=
      Function.update_self _ _ _
    refine { h with addrs := fun k a => ?_, shown := fun k a hk => ?_, cancels := fun a ha => ?_ }
    · refine (h.addrs k a).trans ?_
      change _ ↔ a < r.futureCount + 1 ∧ ((r.allocate { ready }).futures a).key? = some k
      constructor
      · rintro ⟨hlt, hkey⟩
        rw [hother hlt]
        exact ⟨by omega, hkey⟩
      · rintro ⟨hlt, hkey⟩
        have hne : a ≠ r.futureCount := by
          rintro rfl
          rw [hself] at hkey
          cases hkey
        have hlt' : a < r.futureCount := by omega
        rw [hother hlt'] at hkey
        exact ⟨hlt', hkey⟩
    · have hlt := ((h.addrs k a).mp hk).1
      change ((r.allocate { ready }).futures a).Shows (L.verdict k)
      rw [hother hlt]
      exact h.shown k a hk
    · change a < r.futureCount + 1 ∧ ((r.allocate { ready }).futures a).key? = none
      rcases List.mem_append.mp ha with ha | ha
      · obtain ⟨hlt, hkey⟩ := h.cancels a ha
        rw [hother hlt]
        exact ⟨by omega, hkey⟩
      · obtain rfl := has a ha
        rw [hself]
        exact ⟨Nat.lt_succ_self _, rfl⟩
  unfold Runner.awaitCancellation
  split
  · have hdone := hnew true [] nofun
    rw [List.append_nil] at hdone
    exact hdone
  · exact hnew false [r.futureCount] fun a ha => List.mem_singleton.mp ha

/-- A future is written, and still shows the verdict on its operation. -/
theorem write (h : Settled L r) (a : Nat) {f : FutureState}
    (hkey : f.key? = (r.futures a).key?)
    (hshows : ∀ k, r.addr? k = some a → f.Shows (L.verdict k)) :
    Settled L (r.setFuture a f) := by
  have hself : (r.setFuture a f).futures a = f := Function.update_self _ _ _
  have hother {b : Nat} (hb : b ≠ a) : (r.setFuture a f).futures b = r.futures b :=
    Function.update_of_ne hb _ _
  have hkeys (b : Nat) : ((r.setFuture a f).futures b).key? = (r.futures b).key? := by
    by_cases hb : b = a
    · rw [hb, hself, hkey]
    · rw [hother hb]
  refine { h with addrs := fun k b => ?_, shown := fun k b hk => ?_, cancels := fun b hb => ?_ }
  · rw [hkeys]
    exact h.addrs k b
  · by_cases hb : b = a
    · subst hb
      rw [hself]
      exact hshows k hk
    · rw [hother hb]
      exact h.shown k b hk
  · rw [hkeys]
    exact h.cancels b hb

/-- The future of a timer may be made ready at any time. -/
theorem ready_of_timer (h : Settled L r) {a : Nat} (hop : (r.futures a).op = .timer)
    (hk : r.addr? k = some a) (cancelled : Bool) :
    ({ r.futures a with ready := true, cancelled } : FutureState).Shows (L.verdict k) := by
  have hkey : (r.futures a).key? = some k := ((h.addrs k a).mp hk).2
  have hshows := h.shown k a hk
  simp only [FutureState.key?, hop, Option.some.injEq] at hkey
  cases hv : L.verdict k with
  | none =>
    rw [hv] at hshows
    exact ⟨hshows.1, fun hne => absurd hop hne⟩
  | some v =>
    obtain ⟨ok, known⟩ := v
    rw [hv] at hshows
    cases known with
    | true => exact ⟨rfl, hshows.2⟩
    | false =>
      obtain ⟨id, hid⟩ := h.forgotten k ok hv
      rw [hid] at hkey
      cases hkey

theorem cancel (h : Settled L r) (addr : Nat) : Settled L (r.cancel addr) := by
  have heffect := r.cancel_effect addr
  generalize r.cancel addr = q at heffect ⊢
  cases heffect with
  | nothing => exact h
  | timer hop hfresh =>
    refine (h.write addr (f := { r.futures addr with ready := true, cancelled := true }) rfl
      fun k hk => h.ready_of_timer hop hk true).congr ⟨rfl, rfl, rfl, rfl, rfl, rfl, rfl⟩ rfl
  | activity hop hfresh hs => exact h.congr ⟨rfl, rfl, rfl, rfl, rfl, rfl, rfl⟩ rfl
  | child hop hfresh => exact h.congr ⟨rfl, rfl, rfl, rfl, rfl, rfl, rfl⟩ rfl

/-- One operation, asked by the body or by a handler. -/
theorem exec (h : Settled L r) {op : Op σ} {resp : Resp σ} (hfresh : r.StartsAfresh op)
    (hx : r.exec op = some (q, resp)) : Settled L q := by
  cases ho : op.touchesFutures with
  | false =>
    have hscan := (r.exec_frame hx).scan
    exact h.congr (by rw [hscan]; exact ⟨rfl, rfl, rfl, rfl, rfl, rfl, rfl⟩)
      (r.exec_operations ho hx)
  | true =>
    cases op with
    | scheduleActivity type input options => cases hx; exact h.scheduleActivity type input options
    | startTimer duration => cases hx; exact h.startTimer duration
    | startChildWorkflow type input options =>
      cases hx
      exact h.startChildWorkflow hfresh type input
    | scheduleNexusOperation endpoint service operation input close =>
      cases hx
      exact h.scheduleNexusOperation endpoint service operation input close
    | awaitCancellation => cases hx; exact h.awaitCancellation
    | cancel addr => cases hx; exact h.cancel addr
    | _ => cases ho

end Settled
end Runner
end TemporalSdk
