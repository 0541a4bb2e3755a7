import TemporalSdk.PollLoops

/-! `WorkerImpl::Stop` (`internal/worker_impl.cpp`): what it cuts off, and that it returns. -/
namespace TemporalSdk
open Monitor

namespace Worker

variable {T : Type} {p : LoopPool T} {c d : Worker T} [DecidableEq T] [Fintype T]

omit [Fintype T] in
theorem callsOf_apply (t u : T) (q : LoopPlace) (e : Effect) :
    (c.apply p u q e).callsOf t = c.callsOf t + if t = u then e.starts.toList.length else 0 := by
  cases he : e.starts with
  | none => simp [callsOf, apply, goto, he]
  | some n =>
    by_cases ht : t = u
    · simp [callsOf, apply, he, ht]
    · have hne : ¬ u = t := fun h => ht h.symm
      simp [callsOf, apply, he, ht, hne]

omit [Fintype T] in
/-- A weight of its place that pays for every call bounds the calls a loop still makes. -/
theorem callsOf_add_le {w : LoopPlace → ℕ} {I : Worker T → Prop} {t : T}
    (hkeep : ∀ a b, I a → Step p a b → I b) (hawake : ∀ q, w q.awake = w q)
    (hmove : ∀ a q e, I a → a.Move p t q e → w q + e.starts.toList.length ≤ w (a.place t))
    (hc : I c) (hs : Steps p c d) : d.callsOf t + w (d.place t) ≤ c.callsOf t + w (c.place t) := by
  have hboth : I d ∧ d.callsOf t + w (d.place t) ≤ c.callsOf t + w (c.place t) := by
    induction hs with
    | refl => exact ⟨hc, le_rfl⟩
    | @tail a b _ hab ih =>
      obtain ⟨ha, hle⟩ := ih
      refine ⟨hkeep _ _ ha hab, le_trans ?_ hle⟩
      rcases hab.cases with ⟨u, q, e, hm, rfl⟩ | hcalm
      · rw [callsOf_apply, apply_place]
        by_cases ht : t = u
        · subst ht
          have := hmove _ _ _ ha hm
          rw [if_pos rfl, Function.update_self]
          omega
        · rw [if_neg ht, Function.update_of_ne ht]
          omega
      · have hplace : w (b.place t) = w (a.place t) := by
          rcases hcalm.place t with ht | ht
          · exact congrArg w ht
          · rw [ht, hawake]
        rw [callsOf, hcalm.started, hplace]
        exact le_rfl
  exact hboth.2

omit [Fintype T] in
theorem callsOf_mono (hs : Steps p c d) (t : T) : c.callsOf t ≤ d.callsOf t := by
  induction hs with
  | refl => exact le_rfl
  | tail _ hab ih =>
    refine ih.trans ?_
    rcases hab.cases with ⟨u, q, e, -, rfl⟩ | hcalm
    · rw [callsOf_apply]
      exact Nat.le_add_right _ _
    · rw [callsOf, callsOf, hcalm.started]

omit [Fintype T] in
/-- The flags and the release of a gate are final. -/
theorem Step.keeps (hs : Step p c d) :
    (c.draining = true → d.draining = true) ∧ (c.stop = true → d.stop = true) ∧
      ∀ k, (c.gate k).released = true → (d.gate k).released = true := by
  rcases hs.cases with ⟨t, q, e, -, rfl⟩ | hcalm
  · exact ⟨id, id, fun k h => by rwa [apply_released]⟩
  · exact ⟨hcalm.draining, hcalm.stop, hcalm.released⟩

/-- `Stop` has found every gate drained, or has returned. -/
def Drained (c : Worker T) : Prop := c.stopper = .joining true ∨ ∃ b, c.stopper = .returned b

omit [Fintype T] in
theorem Step.drained (hs : Step p c d) (h : c.Drained) : d.Drained := by
  cases hs with
  | move => exact h
  | notified => exact h
  | halt _ hh =>
    rcases h with h | ⟨b, h⟩ <;> cases hh <;> simp_all [Drained]

/-- What `Stop` cuts off. -/
structure CutOff (p : LoopPool T) (limit : TaskKind → Int) (c d : Worker T) : Prop where
  /-- A task polled after `draining_` was stored is not handled. -/
  late : c.draining = true → ∀ n, c.delivered ≤ n → n ∉ d.started.map Prod.snd
  /-- A loop starts at most one more call once `stop_` is stored. -/
  last : c.stop = true → ∀ t, d.callsOf t ≤ c.callsOf t + 1
  /-- A loop of a bounded gate that has been released starts no call but the one it has a permit
  for. -/
  refused : ∀ t, 0 < limit (p.role t).kind → (c.gateOf p t).released = true →
    (∀ n, c.place t ≠ .permitted n) → d.callsOf t = c.callsOf t
  /-- With bounded gates that have been found drained, no call is or will be running. -/
  settled : c.stopper = .joining true → (∀ k, 0 < limit k) →
    ∀ t, (d.place t).permit = false ∧ d.callsOf t = c.callsOf t

omit [Fintype T] in
theorem LoopPlace.granted_eq_zero {q : LoopPlace} (h : ∀ n, q ≠ .permitted n) : q.granted = 0 := by
  cases q <;> first | rfl | exact absurd rfl (h _)

omit [Fintype T] in
/-- Once `draining_` is stored, only tasks that were polled before that are let through. -/
theorem late_not_handled {K : ℕ} (hd : c.draining = true)
    (hplace : ∀ t n, (c.place t).admitted? = some n → n < K)
    (hstarted : ∀ n ∈ c.started.map Prod.snd, n < K) (hs : Steps p c d) :
    ∀ n ∈ d.started.map Prod.snd, n < K := by
  have hall : d.draining = true ∧ (∀ t n, (d.place t).admitted? = some n → n < K) ∧
      ∀ n ∈ d.started.map Prod.snd, n < K := by
    induction hs with
    | refl => exact ⟨hd, hplace, hstarted⟩
    | @tail a b _ hab ih =>
      obtain ⟨ha, hap, has⟩ := ih
      refine ⟨hab.keeps.1 ha, ?_⟩
      rcases hab.cases with ⟨u, q, e, hm, rfl⟩ | hcalm
      · constructor
        · intro t n hq
          rw [apply_place] at hq
          by_cases ht : t = u
          · subst ht
            rw [Function.update_self] at hq
            exact hap t n (hm.admitted ha (.inl hq))
          · rw [Function.update_of_ne ht] at hq
            exact hap t n hq
        · intro n hn
          obtain ⟨x, hx, rfl⟩ := List.mem_map.mp hn
          rcases List.mem_append.mp hx with hold | hnew
          · exact has x.2 (List.mem_map_of_mem hold)
          · obtain ⟨m, he, rfl⟩ := List.mem_map.mp hnew
            exact hap u m (hm.admitted ha (.inr (Option.mem_toList.mp he)))
      · constructor
        · intro t n hq
          rcases hcalm.place t with ht | ht <;> rw [ht] at hq
          · exact hap t n hq
          · rw [LoopPlace.admitted?_awake] at hq
            exact hap t n hq
        · rw [hcalm.started]
          exact has
  exact hall.2.2

omit [DecidableEq T] in
theorem Sound.started_lt (h : c.Sound p) {n : ℕ} (hn : n ∈ c.started.map Prod.snd) :
    n < c.delivered := by
  have hcalls := h.calls n
  have htask := h.task n
  have hpos := List.count_pos_iff.mpr hn
  have hruns := Sound.runs_le c n
  have hended := Sound.count_calls_le c.ended n
  by_contra hlt
  rw [if_neg hlt] at htask
  omega

omit [DecidableEq T] in
/-- Behind bounded gates that were found drained, nobody holds a permit. -/
theorem Sound.permit_eq_false (h : c.Sound p) (hc : c.Drained) (hl : ∀ k, 0 < (c.gate k).limit)
    (t : T) : (c.place t).permit = false := by
  have hfits := h.stopper
  rcases hc with hj | ⟨b, hj⟩ <;> rw [hj] at hfits
  · have hzero := (hfits.2.2.2 rfl (p.role t).kind).resolve_left (by
      have := hl (p.role t).kind
      omega)
    rw [h.permits, total_eq_zero] at hzero
    simpa [permitOf] using hzero t
  · rw [hfits.2.2.2 t]
    rfl

/-- `Stop` lets no task through that was polled after it began, every loop starts at most one more
call of `Handle` after `stop_` is stored, and bounded gates grant nothing once they are released;
so when bounded gates have been found drained, no call is running and none follows. -/
theorem stop_cuts_off {limit : TaskKind → Int} (hr : Reachable p limit c) (hs : Steps p c d) :
    CutOff p limit c d := by
  have h := Sound.of_reachable hr
  have hrefused : ∀ t, 0 < limit (p.role t).kind → (c.gateOf p t).released = true →
      (∀ n, c.place t ≠ .permitted n) → d.callsOf t = c.callsOf t := by
    intro t hl hrel hne
    have hle := callsOf_add_le (w := LoopPlace.granted) (t := t)
      (I := fun a => 0 < (a.gateOf p t).limit ∧ (a.gateOf p t).released = true)
      (fun a b ha hab => ⟨by rw [gateOf, hab.limit_eq]; exact ha.1, hab.keeps.2.2 _ ha.2⟩)
      LoopPlace.granted_awake (fun a q e ha hm => hm.granted ha.1 ha.2)
      ⟨by rw [gateOf, hr.limit_eq]; exact hl, hrel⟩ hs
    rw [LoopPlace.granted_eq_zero hne] at hle
    have hmono := callsOf_mono hs t
    omega
  refine ⟨fun hd n hn hmem => ?_, fun hstop t => ?_, hrefused, fun hj hl t => ?_⟩
  · have hlt := late_not_handled hd
      (fun t m hm => h.known (LoopPlace.admitted?_le_task? hm)) (fun m hm => h.started_lt hm) hs
      n hmem
    omega
  · have hle := callsOf_add_le (w := LoopPlace.pending) (t := t)
      (I := fun a => a.draining = true ∧ a.stop = true)
      (fun a b ha hab => ⟨hab.keeps.1 ha.1, hab.keeps.2.1 ha.2⟩)
      LoopPlace.pending_awake (fun a q e ha hm => hm.pending ha.2 ha.1)
      ⟨h.draining_of_stop hstop, hstop⟩ hs
    have hone : (c.place t).pending ≤ 1 := by cases c.place t <;> simp [LoopPlace.pending]
    omega
  · have hjoin : d.Drained := invariant_of_step (fun _ _ ha hab => hab.drained ha) (.inl hj) hs
    have hlimit : ∀ k, 0 < (c.gate k).limit := fun k => by rw [hr.limit_eq]; exact hl k
    have hlimit' : ∀ k, 0 < (d.gate k).limit := fun k => by
      rw [Reachable.limit_eq (hr.trans hs)]
      exact hl k
    refine ⟨(h.of_steps hs).permit_eq_false hjoin hlimit' t, hrefused t (hl _) ?_ ?_⟩
    · have hfits := h.stopper
      rw [hj] at hfits
      exact hfits.2.2.1 _
    · intro n hn
      have hnone := h.permit_eq_false (.inl hj) hlimit t
      rw [hn] at hnone
      cases hnone

theorem oneLoop_cut_off : ∃ c d : Worker Unit, c.stop = true ∧ c.callsOf () = 0 ∧
    d.callsOf () = 1 ∧ CutOff oneLoop (fun _ => 1) c d := by
  obtain ⟨c, d, hc, hd, hstop, hbefore, hafter, -⟩ := oneLoop_shutdown
  exact ⟨c, d, hstop, hbefore, hafter, stop_cuts_off hc hd⟩

/-- A bound on the steps `Stop` still takes. -/
def StopPlace.fuel : StopPlace → ℕ
  | .idle | .drainingStored | .returned _ => 0
  | .releasing rest => rest.length + 7
  | .draining rest _ => rest.length + 2
  | .joining _ => 1

/-- Nothing but the notification of a loop that sleeps can happen. -/
def Stuck (p : LoopPool T) (c : Worker T) : Prop :=
  ∀ d, Step p c d → ∃ t, c.place t = .asleep ∧ d = c.goto t .waiting

omit [Fintype T] in
/-- While `Stop` has not returned, a loop sleeps or somebody can go on. -/
theorem progress (hs : c.stop = true) (hd : c.draining = true) (hf : c.Fits c.stopper)
    (hnot : ∀ b, c.stopper ≠ .returned b) : (∃ t, c.place t = .asleep) ∨ ∃ d, Step p c d := by
  cases hp : c.stopper with
  | idle =>
    rw [hp] at hf
    rw [hf.2.1] at hs
    cases hs
  | drainingStored =>
    rw [hp] at hf
    rw [hf.2] at hs
    cases hs
  | releasing rest =>
    cases rest with
    | nil => exact .inr ⟨_, .halt _ _ (.wake c hp)⟩
    | cons k rest => exact .inr ⟨_, .halt _ _ (.releaseAll c k rest hp)⟩
  | draining rest drained =>
    cases rest with
    | nil => exact .inr ⟨_, .halt _ _ (.drained c drained hp)⟩
    | cons k rest =>
      by_cases hzero : (c.gate k).inFlight = 0
      · exact .inr ⟨_, .halt _ _ (.drainPass c k rest drained hp hzero)⟩
      · exact .inr ⟨_, .halt _ _ (.drainTimeout c k rest drained hp hzero)⟩
  | joining drained =>
    rw [hp] at hf
    by_cases hall : ∀ t, c.place t = .left
    · exact .inr ⟨_, .halt _ _ (.join c drained hp hall)⟩
    · obtain ⟨t, ht⟩ := not_forall.mp hall
      have hpass : (c.gateOf p t).mayPass = true := by
        simp [ConcurrencyGate.mayPass, gateOf, hf.2.2.1]
      cases hq : c.place t with
      | head => exact .inr ⟨_, .move c t _ _ (.leave hq hs)⟩
      | waiting => exact .inr ⟨_, .move c t _ _ (.waitStopped hq hs)⟩
      | parking => exact .inr ⟨_, .move c t _ _ (.sleep hq)⟩
      | asleep => exact .inl ⟨t, hq⟩
      | polling => exact .inr ⟨_, .move c t _ _ (.pollEmpty hq)⟩
      | polled task => exact .inr ⟨_, .move c t _ _ (.leavePolled task hq hs)⟩
      | counted n => exact .inr ⟨_, .move c t _ _ (.drop n hq hd)⟩
      | pacing n => exact .inr ⟨_, .move c t _ _ (.leavePacing n hq hs)⟩
      | acquiring n =>
        cases hg : (c.gateOf p t).acquire.2 with
        | true => exact .inr ⟨_, .move c t _ _ (.permit n hq hpass hg)⟩
        | false => exact .inr ⟨_, .move c t _ _ (.refuse n hq hpass hg)⟩
      | permitted n => exact .inr ⟨_, .move c t _ _ (.handle n hq)⟩
      | handling n => exact .inr ⟨_, .move c t _ _ (.handleReturns n hq)⟩
      | reporting => exact .inr ⟨_, .move c t _ _ (.finish hq)⟩
      | caught => exact .inr ⟨_, .move c t _ _ (.leaveCaught hq hs)⟩
      | left => exact absurd hq ht
  | returned b => exact absurd hp (hnot b)

/-- The steps that are left, at most. -/
def fuel (c : Worker T) : ℕ := total LoopPlace.fuel c.place + StopPlace.fuel c.stopper

theorem Sound.fuel_lt (h : c.Sound p) (hs : c.stop = true) (hcd : Step p c d) :
    d.fuel < c.fuel := by
  cases hcd with
  | move t q e hm =>
    have htotal := total_update LoopPlace.fuel c.place t q
    have hlt := hm.fuel hs (h.draining_of_stop hs)
    show total LoopPlace.fuel (Function.update c.place t q) + StopPlace.fuel c.stopper < _
    unfold fuel
    omega
  | notified t hp =>
    have htotal := total_update LoopPlace.fuel c.place t .waiting
    rw [hp] at htotal
    simp only [LoopPlace.fuel] at htotal
    show total LoopPlace.fuel (Function.update c.place t .waiting) + StopPlace.fuel c.stopper < _
    unfold fuel
    omega
  | halt _ hh =>
    have hfits := h.stopper
    cases hh with
    | storeDraining hp =>
      rw [hp] at hfits
      rw [hfits.2.1] at hs
      cases hs
    | storeStop hp =>
      rw [hp] at hfits
      rw [hfits.2] at hs
      cases hs
    | wake hp =>
      have hle : total LoopPlace.fuel (fun t => (c.place t).awake) ≤
          total LoopPlace.fuel c.place := Finset.sum_le_sum fun t _ => (c.place t).fuel_awake_le
      cases hg : p.graceful <;> simp [fuel, hp, StopPlace.fuel, TaskKind.all] <;> omega
    | releaseAll k rest hp | drainPass k rest _ hp | drainTimeout k rest _ hp | drained _ hp
    | join _ hp => simp [fuel, hp, StopPlace.fuel]

omit [Fintype T] in
theorem Reachable.stopper_fuel_le {limit : TaskKind → Int} (hr : Reachable p limit c) :
    StopPlace.fuel c.stopper ≤ 11 := by
  refine invariant_of_step (I := fun a : Worker T => StopPlace.fuel a.stopper ≤ 11)
    (fun a b ha hab => ?_) (Nat.zero_le _) hr
  cases hab with
  | move => exact ha
  | notified => exact ha
  | halt _ hh =>
    cases hh with
    | storeDraining | join => exact Nat.zero_le _
    | storeStop => exact le_rfl
    | wake hp => cases p.graceful <;> simp [StopPlace.fuel, TaskKind.all]
    | drained => exact Nat.le_of_ble_eq_true rfl
    | releaseAll k rest hp | drainPass k rest _ hp | drainTimeout k rest _ hp =>
      simp only [hp, StopPlace.fuel, List.length_cons] at ha ⊢
      omega

omit [Fintype T] in
theorem Reachable.scalable_of_parks {limit : TaskKind → Int} (hr : Reachable p limit c) :
    ∀ t, (c.place t).parks = true → (p.role t).scalable = true := by
  refine invariant_of_step
    (I := fun a : Worker T => ∀ t, (a.place t).parks = true → (p.role t).scalable = true)
    (fun a b ha hab t ht => ?_) (fun t ht => by cases ht) hr
  rcases hab.cases with ⟨u, q, e, hm, rfl⟩ | hcalm
  · rw [apply_place] at ht
    by_cases htu : t = u
    · subst htu
      rw [Function.update_self] at ht
      exact (hm.parks ht).elim (ha t) id
    · rw [Function.update_of_ne htu] at ht
      exact ha t ht
  · rcases hcalm.place t with hp | hp <;> rw [hp] at ht
    · exact ha t ht
    · rw [LoopPlace.parks_awake] at ht
      exact ha t ht

/-- Once `stop_` is stored, the worker takes only so many steps more, and when nothing but the
notification of a sleeper can happen, `Stop` has returned or a loop that scales sleeps on in
`PollerScaler::Acquire`. Without autoscaling `Stop` always returns. -/
theorem stop_finishes {limit : TaskKind → Int} (hr : Reachable p limit c) (hs : c.stop = true) :
    (∀ n d, Takes (Step p) n c d → n ≤ 5 * Fintype.card T + 11) ∧
      ∀ d, Steps p c d → d.Stuck p →
        (∃ b, d.stopper = .returned b) ∨
          ∃ t, (p.role t).scalable = true ∧ d.place t = .asleep := by
  have h := Sound.of_reachable hr
  refine ⟨fun n d hn => ?_, fun d hd hstuck => ?_⟩
  · have hle := hn.add_le (I := fun a => a.Sound p ∧ a.stop = true) (m := fuel)
      (fun a b ha hab => ⟨ha.1.step hab, hab.keeps.2.1 ha.2⟩)
      (fun a b ha hab => ha.1.fuel_lt ha.2 hab) ⟨h, hs⟩
    have hplaces : total LoopPlace.fuel c.place ≤ 5 * Fintype.card T := by
      calc total LoopPlace.fuel c.place ≤ ∑ _t : T, 5 :=
            Finset.sum_le_sum fun t _ => (c.place t).fuel_le
        _ = 5 * Fintype.card T := by simp [mul_comm]
    have hstop := hr.stopper_fuel_le
    have hc : c.fuel = total LoopPlace.fuel c.place + StopPlace.fuel c.stopper := rfl
    omega
  · have hd' := h.of_steps hd
    have hrd : Reachable p limit d := hr.trans hd
    have hstop : d.stop = true :=
      invariant_of_step (I := fun a : Worker T => a.stop = true)
        (fun a b ha hab => hab.keeps.2.1 ha) hs hd
    by_cases hret : ∃ b, d.stopper = .returned b
    · exact .inl hret
    · have hsleeps : ∃ t, d.place t = .asleep := by
        rcases progress (p := p) hstop (hd'.draining_of_stop hstop) hd'.stopper
          (fun b hb => hret ⟨b, hb⟩) with hsleep | ⟨a, ha⟩
        · exact hsleep
        · obtain ⟨t, ht, -⟩ := hstuck a ha
          exact ⟨t, ht⟩
      obtain ⟨t, ht⟩ := hsleeps
      exact .inr ⟨t, hrd.scalable_of_parks t (by rw [ht]; rfl), ht⟩

theorem oneLoop_finishes : ∃ c : Worker Unit, c.stop = true ∧ c.callsOf () = 0 ∧
    (∀ n d, Takes (Step oneLoop) n c d → n ≤ 5 * Fintype.card Unit + 11) ∧
      ∀ d, Steps oneLoop c d → d.Stuck oneLoop →
        (∃ b, d.stopper = .returned b) ∨
          ∃ t, (oneLoop.role t).scalable = true ∧ d.place t = .asleep := by
  obtain ⟨c, d, hc, -, hstop, hbefore, -⟩ := oneLoop_shutdown
  exact ⟨c, hstop, hbefore, stop_finishes hc hstop⟩

end Worker

end TemporalSdk
