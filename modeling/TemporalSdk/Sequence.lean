import TemporalSdk.Progress

/-! The order in which a body opens its operations: ids are numbered, so the server's history of
them is well formed, and what it reveals only grows. -/
namespace TemporalSdk

/-- The operation behind a future is among the events. -/
def Key.Opened (l : List EventAttributes) : Key → Prop
  | .activity id => id ∈ l.filterMap EventAttributes.activityId?
  | .timer id => id ∈ l.filterMap EventAttributes.timerId?
  | .child id => id ∈ l.filterMap EventAttributes.childId?
  | .nexus id => ∃ k < l.countP EventAttributes.isNexus, id = toString k
  | .cancellation => False

/-- Activities, timers and children are numbered in the order of their events, and no timer is
cancelled. -/
structure Sequenced (workflowId : String) (l : List EventAttributes) : Prop where
  activities : l.filterMap EventAttributes.activityId? =
    (List.range (l.filterMap EventAttributes.activityId?).length).map toString
  timers : l.filterMap EventAttributes.timerId? =
    (List.range (l.filterMap EventAttributes.timerId?).length).map fun n => "t" ++ toString n
  children : l.filterMap EventAttributes.childId? =
    (List.range (l.filterMap EventAttributes.childId?).length).map
      fun n => workflowId ++ "_c" ++ toString n
  noTimerCanceled : ∀ a ∈ l, a.isTimerCanceled = false

theorem timerName_injective : Function.Injective fun n : Nat => "t" ++ toString n :=
  fun _ _ h => toString_nat_injective ((String.append_right_inj _).mp h)

theorem childName_injective (workflowId : String) :
    Function.Injective fun n : Nat => workflowId ++ "_c" ++ toString n :=
  fun _ _ h => toString_nat_injective ((String.append_right_inj _).mp h)

/-- A list that numbers its entries still does so with the next one. -/
theorem filterMap_concat_numbered {α : Type} {f : EventAttributes → Option α} {g : Nat → α}
    {l : List EventAttributes} (h : l.filterMap f = (List.range (l.filterMap f).length).map g)
    {a : EventAttributes} (ha : ∀ x, f a = some x → x = g (l.filterMap f).length) :
    (l ++ [a]).filterMap f = (List.range ((l ++ [a]).filterMap f).length).map g := by
  rw [List.filterMap_append]
  cases hx : f a with
  | none => simpa [hx] using h
  | some x =>
    have hs : [a].filterMap f = [g (l.filterMap f).length] := by simp [hx, ha x hx]
    rw [hs, List.length_append, List.length_singleton, List.range_succ, List.map_append, ← h,
      List.map_singleton]

/-- A number that has not been given yet. -/
theorem not_mem_of_numbered {α : Type} {name : Nat → α} (hn : Function.Injective name)
    {l : List α} (h : l = (List.range l.length).map name) : name l.length ∉ l := by
  rw [h]
  simp only [List.length_map, List.length_range, List.mem_map, List.mem_range, not_exists, not_and]
  intro k hk he
  exact hk.ne (hn he)

namespace Sequenced

variable {wid : String} {l : List EventAttributes}

theorem nil : Sequenced wid [] := ⟨rfl, rfl, rfl, by simp⟩

theorem concat (h : Sequenced wid l) {a : EventAttributes}
    (ha : ∀ id, a.activityId? = some id →
      id = toString (l.filterMap EventAttributes.activityId?).length)
    (ht : ∀ id, a.timerId? = some id →
      id = "t" ++ toString (l.filterMap EventAttributes.timerId?).length)
    (hc : ∀ id, a.childId? = some id →
      id = wid ++ "_c" ++ toString (l.filterMap EventAttributes.childId?).length)
    (hn : a.isTimerCanceled = false) : Sequenced wid (l ++ [a]) where
  activities := filterMap_concat_numbered h.activities ha
  timers := filterMap_concat_numbered (g := fun n => "t" ++ toString n) h.timers ht
  children := filterMap_concat_numbered (g := fun n => wid ++ "_c" ++ toString n) h.children hc
  noTimerCanceled x hx := by
    rcases List.mem_append.mp hx with hx | hx
    · exact h.noTimerCanceled x hx
    · rw [List.mem_singleton.mp hx]
      exact hn

theorem nodup_activities (h : Sequenced wid l) :
    (l.filterMap EventAttributes.activityId?).Nodup := by
  rw [h.activities]
  exact List.nodup_range.map toString_nat_injective

theorem nodup_timers (h : Sequenced wid l) : (l.filterMap EventAttributes.timerId?).Nodup := by
  rw [h.timers]
  exact List.nodup_range.map timerName_injective

theorem nodup_children (h : Sequenced wid l) : (l.filterMap EventAttributes.childId?).Nodup := by
  rw [h.children]
  exact List.nodup_range.map (childName_injective wid)

end Sequenced

/-- Reading a command event off a history or off its command events is the same. -/
theorem filterMap_commandEvents {α : Type} {f : EventAttributes → Option α}
    (hf : ∀ a, a.isCommand = false → f a = none) (h : History) :
    (History.commandEvents h).filterMap f = h.filterMap fun e => f e.attributes := by
  unfold History.commandEvents
  induction h with
  | nil => rfl
  | cons e h ih =>
    cases hc : e.attributes.isCommand with
    | true =>
      simp only [List.map_cons, List.filter_cons, hc, if_true, List.filterMap_cons, ih]
    | false =>
      simp only [List.map_cons, List.filter_cons, hc, Bool.false_eq_true, if_false,
        List.filterMap_cons, hf _ hc, ih]

/-- What the server sees to, whatever the workflow does: event ids increase from 1 on, and an
operation ends at most once and only after it was opened. -/
structure Served (h : History) : Prop where
  positive : ∀ e ∈ h, 0 < e.eventId
  increasing : h.Pairwise fun a b => a.eventId < b.eventId
  closed : (h.filterMap HistoryEvent.closes).Nodup
  closesOpen : ∀ i (hi : i < h.length), ∀ k ∈ h[i].closes,
    k ∈ (h.take i).filterMap HistoryEvent.opens

/-- Numbered operations make a served history well formed. -/
theorem Served.wellFormed {h : History} (hs : Served h) {wid : String}
    (hq : Sequenced wid (History.commandEvents h)) : WellFormed h where
  positive := hs.positive
  increasing := hs.increasing
  closed := hs.closed
  closesOpen := hs.closesOpen
  activityIds := by
    have hn := hq.nodup_activities
    rw [filterMap_commandEvents (by intro a; cases a <;> simp [EventAttributes.isCommand,
      EventAttributes.activityId?])] at hn
    have hf : (fun e : HistoryEvent => e.attributes.activityId?) = HistoryEvent.activityId? := by
      funext e
      obtain ⟨eid, a⟩ := e
      cases a <;> rfl
    rwa [hf] at hn
  opened := by
    have ht := hq.nodup_timers
    have hc := hq.nodup_children
    rw [filterMap_commandEvents (by intro a; cases a <;> simp [EventAttributes.isCommand,
      EventAttributes.timerId?]), List.Nodup, List.pairwise_filterMap] at ht
    rw [filterMap_commandEvents (by intro a; cases a <;> simp [EventAttributes.isCommand,
      EventAttributes.childId?]), List.Nodup, List.pairwise_filterMap] at hc
    rw [List.Nodup, List.pairwise_filterMap]
    refine ((hs.increasing.and ht).and hc).imp ?_
    rintro ⟨i, a⟩ ⟨j, b⟩ ⟨⟨hlt, htt⟩, hcc⟩ x hx y hy rfl
    cases a <;> cases hx <;> cases b <;> cases hy
    · exact hlt.ne rfl
    · exact htt _ rfl _ rfl rfl
    · exact hcc _ rfl _ rfl rfl
    · exact hlt.ne rfl
  noTimerCanceled e he := by
    cases hc : e.attributes.isCommand with
    | true =>
      exact hq.noTimerCanceled _ (List.mem_filter.mpr ⟨List.mem_map_of_mem he, hc⟩)
    | false =>
      revert hc
      cases e.attributes <;> simp [EventAttributes.isCommand, EventAttributes.isTimerCanceled]

/-- The requests to cancel an activity, a child or another workflow. -/
def EventAttributes.isRequest : EventAttributes → Bool
  | .activityTaskCancelRequested _ | .requestCancelExternalWorkflowExecutionInitiated _ => true
  | _ => false

/-- The future a command event stands for, after `n` Nexus operations. -/
def EventAttributes.key? (n : Nat) : EventAttributes → Option Key
  | .activityTaskScheduled id _ => some (.activity id)
  | .timerStarted id => some (.timer id)
  | .startChildWorkflowExecutionInitiated id _ => some (.child id)
  | .nexusOperationScheduled => some (.nexus (toString n))
  | _ => none

theorem EventAttributes.key?_eq_activity {a : EventAttributes} {n : Nat} {id : String} :
    a.key? n = some (.activity id) ↔ a.activityId? = some id := by
  cases a with
  | activityTaskScheduled id' type =>
    rw [key?, activityId?, Option.some.injEq, Option.some.injEq, Key.activity.injEq]
  | _ => constructor <;> intro h <;> cases h

theorem EventAttributes.key?_eq_timer {a : EventAttributes} {n : Nat} {id : String} :
    a.key? n = some (.timer id) ↔ a.timerId? = some id := by
  cases a with
  | timerStarted id' =>
    rw [key?, timerId?, Option.some.injEq, Option.some.injEq, Key.timer.injEq]
  | _ => constructor <;> intro h <;> cases h

theorem EventAttributes.key?_eq_child {a : EventAttributes} {n : Nat} {id : String} :
    a.key? n = some (.child id) ↔ a.childId? = some id := by
  cases a with
  | startChildWorkflowExecutionInitiated id' type =>
    rw [key?, childId?, Option.some.injEq, Option.some.injEq, Key.child.injEq]
  | _ => constructor <;> intro h <;> cases h

theorem mem_filterMap_concat {α β : Type} (f : α → Option β) (l : List α) (a : α) (y : β) :
    y ∈ (l ++ [a]).filterMap f ↔ y ∈ l.filterMap f ∨ f a = some y := by
  simp only [List.filterMap_append, List.mem_append, List.mem_filterMap, List.mem_singleton,
    exists_eq_left]

theorem Key.opened_concat (l : List EventAttributes) (a : EventAttributes) (k : Key) :
    k.Opened (l ++ [a]) ↔ k.Opened l ∨ a.key? (l.countP EventAttributes.isNexus) = some k := by
  cases k with
  | activity id =>
    rw [EventAttributes.key?_eq_activity]
    exact mem_filterMap_concat _ l a id
  | timer id =>
    rw [EventAttributes.key?_eq_timer]
    exact mem_filterMap_concat _ l a id
  | child id =>
    rw [EventAttributes.key?_eq_child]
    exact mem_filterMap_concat _ l a id
  | nexus id =>
    simp only [Key.Opened, List.countP_append, List.countP_singleton]
    cases a with
    | nexusOperationScheduled =>
      simp only [EventAttributes.isNexus, EventAttributes.key?, if_true, Nat.lt_succ_iff_lt_or_eq,
        or_and_right, exists_or, exists_eq_left, Option.some.injEq, Key.nexus.injEq]
      exact or_congr_right eq_comm
    | _ => simp [EventAttributes.isNexus, EventAttributes.key?]
  | cancellation => cases a <;> simp [Key.Opened, EventAttributes.key?]

namespace Progress

variable {σ : Type} {s : Setting σ} {b b' : Progress σ}

/-- The futures handed out are those of the commands issued, and these are numbered. -/
structure Ordered (s : Setting σ) (b : Progress σ) : Prop where
  sequenced : Sequenced s.info.workflowId b.events
  keys : ∀ k, k ≠ .cancellation → (k ∈ b.keys ↔ k.Opened b.events)

theorem start_ordered (s : Setting σ) : Ordered s s.start where
  sequenced := .nil
  keys k hk := by cases k <;> simp [Setting.start, events, Key.Opened]

@[simp] theorem issue_events (b : Progress σ) (c : Command) :
    (b.issue c).events = b.events ++ [c.event] := by
  simp [issue, events]

@[simp] theorem opening_events (b : Progress σ) (c : Command) (k : Key) :
    (b.opening c k).events = b.events ++ [c.event] := b.issue_events c

theorem Ordered.issue (h : Ordered s b) {c : Command} (hk : ∀ n, c.event.key? n = none)
    (hc : c.event.isTimerCanceled = false) : Ordered s (b.issue c) where
  sequenced := by
    rw [issue_events]
    refine h.sequenced.concat ?_ ?_ ?_ hc <;> intro id hid <;> exfalso <;> revert hid hk <;>
      cases c.event <;>
      simp [EventAttributes.key?, EventAttributes.activityId?, EventAttributes.timerId?,
        EventAttributes.childId?]
  keys k hne := by
    rw [issue_events, Key.opened_concat, hk, ← h.keys k hne]
    simp [Progress.issue]

theorem Ordered.opening (h : Ordered s b) {c : Command} {k : Key}
    (hk : c.event.key? b.nexusSeq = some k)
    (hseq : Sequenced s.info.workflowId (b.events ++ [c.event])) :
    Ordered s (b.opening c k) where
  sequenced := by
    rw [opening_events]
    exact hseq
  keys j hne := by
    rw [opening_events, Key.opened_concat, ← h.keys j hne]
    change j ∈ b.keys ++ [k] ↔ _ ∨ c.event.key? b.nexusSeq = some j
    rw [hk]
    simp [eq_comm]

theorem Ordered.activity_fresh (h : Ordered s b) : .activity (toString b.activitySeq) ∉ b.keys := by
  rw [h.keys (.activity _) (by simp)]
  exact not_mem_of_numbered toString_nat_injective h.sequenced.activities

theorem Ordered.timer_fresh (h : Ordered s b) : .timer ("t" ++ toString b.timerSeq) ∉ b.keys := by
  rw [h.keys (.timer _) (by simp)]
  exact not_mem_of_numbered timerName_injective h.sequenced.timers

theorem Ordered.child_fresh (h : Ordered s b) : .child (b.childId s) ∉ b.keys := by
  rw [h.keys (.child _) (by simp)]
  exact not_mem_of_numbered (childName_injective _) h.sequenced.children

theorem Ordered.nexus_fresh (h : Ordered s b) : .nexus (toString b.nexusSeq) ∉ b.keys := by
  rw [h.keys (.nexus _) (by simp)]
  rintro ⟨k, hk, he⟩
  exact hk.ne (toString_nat_injective he).symm

/-- A request does nothing, or it is one command that opens nothing. -/
theorem request_cases {S : Prescan} {addr : Nat} (h : b.request s S addr = some b') :
    b' = b ∨ ∃ c, b' = b.issue c ∧ c.event.isRequest = true ∧
      ((∀ n, c.event.key? n = none) ∧ c.event.isTimerCanceled = false) := by
  unfold request at h
  split at h
  · obtain ⟨sid, -, rfl⟩ := Option.map_eq_some_iff.mp h
    exact .inr ⟨_, rfl, rfl, fun _ => rfl, rfl⟩
  · cases h
    exact .inr ⟨_, rfl, rfl, fun _ => rfl, rfl⟩
  · cases h
  all_goals
    cases h
    exact .inl rfl

/-- One operation keeps the order. -/
theorem Ordered.exec (h : Ordered s b) {S : Prescan} {op : Op σ} {resp : Resp σ}
    (hx : b.exec s S op = some (b', resp)) : Ordered s b' := by
  cases op <;> simp only [Progress.exec, Option.some.injEq, Prod.mk.injEq, reduceCtorEq] at hx
  case scheduleActivity type input options =>
    obtain ⟨rfl, -⟩ := hx
    exact h.opening rfl (h.sequenced.concat (fun id hid => (Option.some.inj hid).symm)
      (fun _ hid => by cases hid) (fun _ hid => by cases hid) rfl)
  case startTimer duration =>
    obtain ⟨rfl, -⟩ := hx
    exact h.opening rfl (h.sequenced.concat (fun _ hid => by cases hid)
      (fun id hid => (Option.some.inj hid).symm) (fun _ hid => by cases hid) rfl)
  case startChildWorkflow type input options =>
    split at hx
    · cases hx
      exact h.opening rfl (h.sequenced.concat (fun _ hid => by cases hid)
        (fun _ hid => by cases hid) (fun id hid => (Option.some.inj hid).symm) rfl)
    · cases hx
  case scheduleNexusOperation endpoint service operation input close =>
    obtain ⟨rfl, -⟩ := hx
    exact h.opening rfl (h.sequenced.concat (fun _ hid => by cases hid)
      (fun _ hid => by cases hid) (fun _ hid => by cases hid) rfl)
  case signalExternalWorkflow id name input =>
    obtain ⟨rfl, -⟩ := hx
    exact h.issue (fun _ => rfl) rfl
  case upsertSearchAttributes attributes =>
    obtain ⟨rfl, -⟩ := hx
    exact h.issue (fun _ => rfl) rfl
  case sideEffect =>
    split at hx
    · cases hx
      exact h.issue (fun _ => rfl) rfl
    · cases hx
  case mutableSideEffect id equals =>
    split at hx
    · next v _ =>
      have hb : (b.mutable s.world.converter id equals v).1 = b' := congrArg Prod.fst
        (Option.some.inj hx)
      rw [← hb]
      unfold Progress.mutable
      dsimp only
      split
      · exact ⟨h.sequenced, h.keys⟩
      · have hi := h.issue (c := .recordMarker "MutableSideEffect" (Runner.mutableDetails
          s.world.converter id ((b.mseCallCount id).getD 0) v)) (fun _ => rfl) rfl
        exact ⟨hi.sequenced, hi.keys⟩
    · cases hx
  case getVersion changeId lo hi =>
    split at hx
    · cases hx
      exact h.issue (fun _ => rfl) rfl
    · cases hx
  case executeLocalActivity type input options =>
    obtain ⟨fn, -, hfn⟩ := Option.map_eq_some_iff.mp hx
    cases hfn
    exact h.issue (fun _ => rfl) rfl
  case cancel addr =>
    obtain ⟨c, hc, he⟩ := Option.map_eq_some_iff.mp hx
    obtain rfl : c = b' := congrArg Prod.fst he
    rcases request_cases hc with rfl | ⟨cmd, rfl, -, hk⟩
    · exact h
    · exact h.issue hk.1 hk.2
  case cancelExternalWorkflow id =>
    obtain ⟨rfl, -⟩ := hx
    exact h.issue (fun _ => rfl) rfl
  case awaitCancellation =>
    obtain ⟨rfl, -⟩ := hx
    refine ⟨h.sequenced, fun k hne => ?_⟩
    rw [List.mem_append, List.mem_singleton, or_iff_left hne]
    exact h.keys k hne
  case get addr =>
    split at hx
    · cases hx
      exact h
    · cases hx
  case receive name =>
    obtain ⟨p, -, hp⟩ := Option.map_eq_some_iff.mp hx
    cases hp
    exact ⟨h.sequenced, h.keys⟩
  case receiveAsync name =>
    split at hx
    · cases hx
      exact ⟨h.sequenced, h.keys⟩
    · cases hx
      exact h
  case select cases hasDefault =>
    split at hx
    · cases hx
      exact h
    · split at hx
      · cases hx
        exact h
      · cases hx
  all_goals
    obtain ⟨rfl, -⟩ := hx
    exact ⟨h.sequenced, h.keys⟩

theorem Ordered.step (h : Ordered s b) {S : Prescan} (hb : b.step s S = some b') :
    Ordered s b' := by
  unfold Progress.step at hb
  split at hb
  · cases hb
  · split at hb
    · cases hb
      exact ⟨h.sequenced, h.keys⟩
    · obtain ⟨⟨c, resp⟩, hc, rfl⟩ := Option.map_eq_some_iff.mp hb
      have hc' := h.exec hc
      exact ⟨hc'.sequenced, hc'.keys⟩

theorem Ordered.reaches {S : Prescan} (h : Ordered s b)
    (hr : StateTransition.Reaches (Progress.step s S) b b') : Ordered s b' := by
  induction hr with
  | refl => exact h
  | tail _ hs ih => exact ih.step hs

end Progress
namespace Prescan.Later

variable {S S' S'' : Prescan}

theorem rfl (S : Prescan) : S.Later S :=
  ⟨fun _ _ => .refl _, fun _ ps h => ⟨[], by simp [h]⟩, id, fun _ _ h => h⟩

theorem trans (h : S.Later S') (h' : S'.Later S'') : S.Later S'' where
  future k hk := by
    have hk' := h.future k hk
    rw [h'.future k (hk' ▸ hk), hk']
  signals name ps hps := by
    obtain ⟨qs, hqs⟩ := h.signals name ps hps
    obtain ⟨rs, hrs⟩ := h'.signals name _ hqs
    exact ⟨qs ++ rs, by rw [hrs, List.append_assoc]⟩
  cancelRequested hc := h'.cancelRequested (h.cancelRequested hc)
  scheduled id sid hs := h'.scheduled id sid (h.scheduled id sid hs)

/-- Nothing but futures and schedule events is revealed. -/
theorem of_future (hf : ∀ k, (S.future k).ready = true → S'.future k = S.future k)
    (hs : S'.signals = S.signals) (hc : S'.cancelRequested = S.cancelRequested)
    (ha : ∀ id sid, S.activityToSchedEvent id = some sid → S'.activityToSchedEvent id = some sid) :
    S.Later S' where
  future := hf
  signals name ps h := ⟨[], by simp [hs, h]⟩
  cancelRequested h := hc ▸ h
  scheduled := ha

end Prescan.Later

/-- The future of an operation that has not ended is not ready. -/
theorem futureOfEntry_not_ready (op : FutureOp) (id : String) {o : OpOutcome}
    (h : o.resolved = false) : (futureOfEntry op id (some o)).ready = false := by
  cases hs : o.scheduled <;>
    simp [futureOfEntry, Option.filter, hs, Runner.futureOfOutcome, h]

/-- A delivery reveals more and takes nothing back. -/
theorem Deliverable.later {S : Prescan} {d : Delivery} (h : Deliverable S d) :
    S.Later (S.deliver d) := by
  cases d with
  | activity sid c =>
    obtain ⟨id, o, hid, hot, -, hor, -⟩ := h
    simp only [Prescan.deliver, Prescan.onActivity, hid]
    refine .of_future (fun k hk => ?_) rfl rfl fun _ _ h => h
    cases k with
    | activity j =>
      have hj : j ≠ id := by
        rintro rfl
        simp [Prescan.future, hot, futureOfEntry_not_ready .activity j hor] at hk
      simp [Prescan.future, hj]
    | _ => rfl
  | nexus sid c =>
    obtain ⟨id, o, hid, hot, -, hor, -⟩ := h
    simp only [Prescan.deliver, Prescan.onNexus, hid]
    refine .of_future (fun k hk => ?_) rfl rfl fun _ _ h => h
    cases k with
    | nexus j =>
      have hj : j ≠ id := by
        rintro rfl
        simp [Prescan.future, hot, futureOfEntry_not_ready .nexusOperation j hor] at hk
      simp [Prescan.future, hj]
    | _ => rfl
  | child id c =>
    obtain ⟨o, hot, -, hor, -⟩ := h
    refine .of_future (fun k hk => ?_) rfl rfl fun _ _ h => h
    cases k with
    | child j =>
      have hj : j ≠ id := by
        rintro rfl
        simp [Prescan.future, hot, futureOfEntry_not_ready .childWorkflow j hor] at hk
      simp [Prescan.future, Prescan.deliver, Prescan.onChild, hj]
    | _ => rfl
  | timer id =>
    obtain ⟨o, hot, hos⟩ := h
    refine .of_future (fun k hk => ?_) rfl rfl fun _ _ h => h
    cases k with
    | timer j =>
      by_cases hj : j = id
      · subst hj
        simp only [Prescan.future, futureOfTimer, hot, Option.filter, hos, if_true] at hk
        simp [Prescan.future, Prescan.deliver, Prescan.onTimer, futureOfTimer, hot, Option.filter,
          hos, hk]
      · simp [Prescan.future, Prescan.deliver, Prescan.onTimer, hj]
    | _ => rfl
  | signal name input =>
    refine ⟨fun k _ => by cases k <;> rfl, fun n ps hps => ?_, id, fun _ _ h => h⟩
    by_cases hn : n = name
    · subst hn
      exact ⟨[input], by simp [Prescan.deliver, hps]⟩
    · exact ⟨[], by simp [Prescan.deliver, hn, hps]⟩
  | cancelRequest =>
    refine ⟨fun k hk => ?_, fun n ps hps => ⟨[], by simp [Prescan.deliver, hps]⟩, fun _ => rfl,
      fun _ _ h => h⟩
    cases k with
    | cancellation =>
      have hc : S.cancelRequested = true := hk
      simp [Prescan.future, Prescan.deliver, hc]
    | _ => rfl

section Schedules

theorem scanOne_activityToSchedEvent (S : Prescan) (e : HistoryEvent) :
    (S.scanOne e).activityToSchedEvent =
      e.attributes.activityId?.elim S.activityToSchedEvent
        (S.activityToSchedEvent.insert · e.eventId) := by
  refine (congrArg LiveState.activityToSchedEvent (S.scanOne_live e)).trans ?_
  obtain ⟨eid, a⟩ := e
  cases a <;> rfl

/-- The schedule events that are known are in the history. -/
theorem scheduled_of_scanAll {h : History} {id : String} {sid : Nat}
    (hs : (scanAll h).activityToSchedEvent id = some sid) :
    ∃ type, ⟨sid, .activityTaskScheduled id type⟩ ∈ h := by
  induction h using List.reverseRecOn with
  | nil => cases hs
  | append_singleton p e ih =>
    rw [scanAll_concat, scanOne_activityToSchedEvent] at hs
    obtain ⟨eid, a⟩ := e
    cases a with
    | activityTaskScheduled id' type =>
      by_cases hid : id = id'
      · subst hid
        rw [EventAttributes.activityId?, Option.elim_some, PartialMap.insert_self] at hs
        cases hs
        exact ⟨type, List.mem_append_right p List.mem_cons_self⟩
      · rw [EventAttributes.activityId?, Option.elim_some, PartialMap.insert_of_ne _ hid] at hs
        obtain ⟨type', hmem⟩ := ih hs
        exact ⟨type', List.mem_append_left _ hmem⟩
    | _ =>
      obtain ⟨type', hmem⟩ := ih hs
      exact ⟨type', List.mem_append_left _ hmem⟩

/-- An activity is scheduled once. -/
theorem WellFormed.activity_fresh {p : History} {e : HistoryEvent} (wf : WellFormed (p ++ [e]))
    {id type : String} {sid : Nat} (he : e.attributes.activityId? = some id) :
    ⟨sid, .activityTaskScheduled id type⟩ ∉ p := by
  intro hmem
  have hn := wf.activityIds
  rw [List.filterMap_append, List.nodup_append] at hn
  have he' : e.activityId? = some id := by
    obtain ⟨eid, a⟩ := e
    cases a <;> exact he
  exact hn.2.2 id (List.mem_filterMap.mpr ⟨_, hmem, rfl⟩) id (by simp [he']) rfl

end Schedules

/-- What a history has revealed stays revealed as it grows. -/
theorem WellFormed.later {p q : History} (wf : WellFormed (p ++ q)) :
    (scanAll p).Later (scanAll (p ++ q)) := by
  induction q using List.reverseRecOn with
  | nil =>
    rw [List.append_nil]
    exact .rfl _
  | append_singleton q e ih =>
    rw [← List.append_assoc] at wf ⊢
    have hi := wf.left.indexed
    rw [scanAll_concat]
    refine (ih wf.left).trans ?_
    cases hd : e.attributes.delivery? with
    | none =>
      have hlive := (scanAll (p ++ q)).scanOne_live e
      refine .of_future (fun k _ => hi.future_scanOne wf hd k) ?_ ?_ fun id sid hs => ?_
      · refine (congrArg LiveState.signals hlive).trans ?_
        obtain ⟨eid, a⟩ := e
        cases a <;> first
          | rfl
          | exact absurd hd (Option.some_ne_none _)
      · exact (congrArg LiveState.cancelRequested hlive).trans (LiveState.apply_cancelRequested hd)
      · rw [scanOne_activityToSchedEvent]
        cases ha : e.attributes.activityId? with
        | none => exact hs
        | some id' =>
          have hne : id ≠ id' := by
            rintro rfl
            obtain ⟨type, hmem⟩ := scheduled_of_scanAll hs
            exact wf.activity_fresh ha hmem
          rw [Option.elim_some, PartialMap.insert_of_ne _ hne]
          exact hs
    | some d =>
      have hcl : e.closes = d.closes := by simp [HistoryEvent.closes, hd]
      have hdel := hi.deliverable (d := d) (fun k hk => wf.mem_opened (hcl.trans hk))
        fun k hk => wf.not_mem_closed (hcl.trans hk)
      rw [Prescan.scanOne, Prescan.scanEvent_deliver _ hd]
      have hsame : (scanAll (p ++ q)).Later { scanAll (p ++ q) with lastEventId := e.eventId } :=
        .of_future (fun k _ => by cases k <;> rfl) rfl rfl fun _ _ h => h
      refine hsame.trans (Deliverable.later ?_)
      exact hdel

end TemporalSdk
