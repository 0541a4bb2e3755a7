import TemporalSdk.Recall

/-! Activities, child workflows and Nexus operations as remote calls, on the side of the workflow:
whatever `Future::Get` gives its body is the recorded end of the operation it asked for, with the
command it asked by. -/
namespace TemporalSdk
open StateTransition (Reaches)

/-- What `Get` makes of the end of an operation. -/
def Closing.resp {σ : Type} : Closing → Resp σ
  | .completed result => .got result
  | .failed type message => .activityError type message

/-- The schedule events of Nexus operations, which carry no id. -/
def History.nexusEvents (h : History) : List HistoryEvent :=
  h.filter fun e => e.attributes.isNexus

/-- The operation ended like this, for all that is on record. The ending of an activity or of a Nexus
operation names its schedule event, and a Nexus operation is known by its place among them. -/
def History.RecordsEnding (h : History) (c : Closing) : Key → Prop
  | .activity id => ∃ sid type, ⟨sid, .activityTaskScheduled id type⟩ ∈ h ∧
      ∃ e ∈ h, e.attributes.delivery? = some (.activity sid c)
  | .child id => ∃ e ∈ h, e.attributes.delivery? = some (.child id c)
  | .nexus id => ∃ n sid : Nat, id = toString n ∧
      (History.nexusEvents h)[n]? = some ⟨sid, .nexusOperationScheduled⟩ ∧
        ∃ e ∈ h, e.attributes.delivery? = some (.nexus sid c)
  | _ => False

/-- The futures of remote calls. -/
def Key.isRemote : Key → Bool
  | .activity _ | .child _ | .nexus _ => true
  | _ => false

theorem History.nexusEvents_concat (h : History) (e : HistoryEvent) :
    History.nexusEvents (h ++ [e]) =
      History.nexusEvents h ++ if e.attributes.isNexus then [e] else [] := by
  rw [nexusEvents, List.filter_append, nexusEvents, List.filter_cons, List.filter_nil]

namespace History.RecordsEnding

variable {p : History} {c : Closing} {k : Key}

/-- What is on record stays on record. -/
theorem concat (hp : p.RecordsEnding c k) (e : HistoryEvent) : (p ++ [e]).RecordsEnding c k := by
  have hsub : p ⊆ p ++ [e] := List.subset_append_left p [e]
  cases k with
  | activity id =>
    obtain ⟨sid, type, hs, e', he, hd⟩ := hp
    exact ⟨sid, type, hsub hs, e', hsub he, hd⟩
  | child id =>
    obtain ⟨e', he, hd⟩ := hp
    exact ⟨e', hsub he, hd⟩
  | nexus id =>
    obtain ⟨n, sid, hid, hn, e', he, hd⟩ := hp
    refine ⟨n, sid, hid, ?_, e', hsub he, hd⟩
    rw [nexusEvents_concat, List.getElem?_append_left (List.getElem?_eq_some_iff.mp hn).1]
    exact hn
  | _ => exact hp.elim

end History.RecordsEnding

/-- The scan numbers the Nexus operations as they were scheduled. -/
theorem nexusOpsScheduled_scanAll (h : History) :
    (scanAll h).nexusOpsScheduled = (History.nexusEvents h).length := by
  induction h using List.reverseRecOn with
  | nil => rfl
  | append_singleton p e ih =>
    have hlive := congrArg LiveState.nexusOpsScheduled ((scanAll p).scanOne_live e)
    rw [scanAll_concat, History.nexusEvents_concat, List.length_append, ← ih]
    obtain ⟨eid, a⟩ := e
    cases a <;> exact hlive

/-- The scan leads from the schedule event of a Nexus operation to its number. -/
theorem nexus_of_scanAll {h : History} {sid : Nat} {id : String}
    (hs : (scanAll h).schedEventToNexus sid = some id) :
    ∃ n : Nat, id = toString n ∧
      (History.nexusEvents h)[n]? = some ⟨sid, .nexusOperationScheduled⟩ := by
  induction h using List.reverseRecOn with
  | nil => cases hs
  | append_singleton p e ih =>
    have hlive := congrArg LiveState.schedEventToNexus ((scanAll p).scanOne_live e)
    rw [scanAll_concat] at hs
    have hold : (scanAll p).schedEventToNexus sid = some id → ∃ n : Nat, id = toString n ∧
        (History.nexusEvents (p ++ [e]))[n]? = some ⟨sid, .nexusOperationScheduled⟩ := by
      intro hp
      obtain ⟨n, hid, hn⟩ := ih hp
      refine ⟨n, hid, ?_⟩
      rw [History.nexusEvents_concat,
        List.getElem?_append_left (List.getElem?_eq_some_iff.mp hn).1]
      exact hn
    obtain ⟨eid, a⟩ := e
    cases a with
    | nexusOperationScheduled =>
      have hinsert := hs.symm.trans (congrFun hlive sid)
      by_cases hsid : sid = eid
      · subst hsid
        have hid := Option.some.inj (hinsert.trans (PartialMap.insert_self _ _ _))
        refine ⟨_, hid, ?_⟩
        change (History.nexusEvents (p ++ [_]))[(scanAll p).nexusOpsScheduled]? = _
        rw [History.nexusEvents_concat, nexusOpsScheduled_scanAll]
        exact List.getElem?_concat_length
      · exact hold (hinsert.trans (PartialMap.insert_of_ne _ hsid _)).symm
    | _ => exact hold ((congrFun hlive sid).symm.trans hs)

/-- The future of an operation that ends now. -/
theorem futureOfEntry_closing {σ : Type} (op : FutureOp) (id : String) (c : Closing) {o : OpOutcome}
    (hs : o.scheduled = true) (hr : o.resolved = false) (hv : o.Valid) :
    Runner.futureValue (σ := σ) (futureOfEntry op id (some (c.outcome o))) = c.resp := by
  rw [c.outcome_eq hv hr]
  cases c <;>
    simp [futureOfEntry, Option.filter, hs, Runner.futureOfOutcome, Runner.futureValue,
      Closing.resp]

/-- A delivery that makes the future of a remote call ready is its ending. -/
theorem Deliverable.ending {σ : Type} {S : Prescan} {d : Delivery} (h : Deliverable S d) {k : Key}
    (hk : k.isRemote = true) (hbefore : (S.future k).ready = false)
    (hready : ((S.deliver d).future k).ready = true) :
    ∃ c, Runner.futureValue (σ := σ) ((S.deliver d).future k) = c.resp ∧
      match k with
      | .activity id => ∃ sid, d = .activity sid c ∧ S.schedEventToActivity sid = some id
      | .child id => d = .child id c
      | .nexus id => ∃ sid, d = .nexus sid c ∧ S.schedEventToNexus sid = some id
      | _ => False := by
  have hsame (hf : (S.deliver d).future k = S.future k) : False := by
    rw [hf, hbefore] at hready
    cases hready
  cases d with
  | activity sid c =>
    obtain ⟨id, o, hid, hot, hos, hor, hov⟩ := h
    cases k with
    | activity j =>
      by_cases hj : j = id
      · subst hj
        refine ⟨c, ?_, sid, rfl, hid⟩
        simp only [Prescan.deliver, Prescan.onActivity, hid, Prescan.future,
          PartialMap.modify_self, hot, Option.getD_some]
        exact futureOfEntry_closing .activity j c hos hor hov
      · exact (hsame (by simp [Prescan.deliver, Prescan.onActivity, hid, Prescan.future, hj])).elim
    | _ =>
      exact (hsame (by simp only [Prescan.deliver, Prescan.onActivity, hid, Prescan.future])).elim
  | child id c =>
    obtain ⟨o, hot, hos, hor, hov⟩ := h
    cases k with
    | child j =>
      by_cases hj : j = id
      · subst hj
        refine ⟨c, ?_, rfl⟩
        simp only [Prescan.deliver, Prescan.onChild, Prescan.future, PartialMap.modify_self, hot,
          Option.getD_some]
        exact futureOfEntry_closing .childWorkflow j c hos hor hov
      · exact (hsame (by simp [Prescan.deliver, Prescan.onChild, Prescan.future, hj])).elim
    | _ => exact (hsame rfl).elim
  | nexus sid c =>
    obtain ⟨id, o, hid, hot, hos, hor, hov⟩ := h
    cases k with
    | nexus j =>
      by_cases hj : j = id
      · subst hj
        refine ⟨c, ?_, sid, rfl, hid⟩
        simp only [Prescan.deliver, Prescan.onNexus, hid, Prescan.future,
          PartialMap.modify_self, hot, Option.getD_some]
        exact futureOfEntry_closing .nexusOperation j c hos hor hov
      · exact (hsame (by simp [Prescan.deliver, Prescan.onNexus, hid, Prescan.future, hj])).elim
    | _ =>
      exact (hsame (by simp only [Prescan.deliver, Prescan.onNexus, hid, Prescan.future])).elim
  | _ =>
    refine (hsame ?_).elim
    cases k <;> first
      | rfl
      | cases hk

/-- A future that is ready shows an ending on record. -/
theorem WellFormed.recordsEnding {σ : Type} {h : History} (wf : WellFormed h) {k : Key}
    (hk : k.isRemote = true) (hready : ((scanAll h).future k).ready = true) :
    ∃ c, h.RecordsEnding c k ∧ Runner.futureValue (σ := σ) ((scanAll h).future k) = c.resp := by
  -- the event that made the future ready: later events do not change it
  induction h using List.reverseRecOn with
  | nil => cases k <;> cases hready
  | append_singleton p e ih =>
    have hlater : p ⊆ p ++ [e] := List.subset_append_left p [e]
    cases hp : ((scanAll p).future k).ready with
    | true =>
      obtain ⟨c, hc, hv⟩ := ih wf.left hp
      rw [wf.later.future k hp]
      exact ⟨c, hc.concat e, hv⟩
    | false =>
      have hi := wf.left.indexed
      rw [scanAll_concat] at hready ⊢
      cases hd : e.attributes.delivery? with
      | none =>
        rw [hi.future_scanOne wf hd, hp] at hready
        cases hready
      | some d =>
        have hcl : e.closes = d.closes := by simp [HistoryEvent.closes, hd]
        have hdel := hi.deliverable (d := d) (fun k hk => wf.mem_opened (hcl.trans hk))
          fun k hk => wf.not_mem_closed (hcl.trans hk)
        have hdel' : Deliverable { scanAll p with lastEventId := e.eventId } d := hdel
        rw [Prescan.scanOne, Prescan.scanEvent_deliver _ hd] at hready ⊢
        have hbefore : (({ scanAll p with lastEventId := e.eventId } : Prescan).future k).ready =
            false := by
          rw [← hp]
          cases k <;> rfl
        obtain ⟨c, hv, hend⟩ := hdel'.ending (σ := σ) hk hbefore hready
        refine ⟨c, ?_, hv⟩
        have hmem : e ∈ p ++ [e] := List.mem_append_right p List.mem_cons_self
        cases k with
        | activity id =>
          obtain ⟨sid, rfl, hsid⟩ := hend
          obtain ⟨type, hsched⟩ := indexed_of_scanAll (h := p) hsid
          exact ⟨sid, type, hlater hsched, e, hmem, hd⟩
        | child id =>
          obtain rfl := hend
          exact ⟨e, hmem, hd⟩
        | nexus id =>
          obtain ⟨sid, rfl, hsid⟩ := hend
          obtain ⟨n, hid, hn⟩ := nexus_of_scanAll (h := p) hsid
          refine ⟨n, sid, hid, ?_, e, hmem, hd⟩
          rw [History.nexusEvents_concat,
            List.getElem?_append_left (List.getElem?_eq_some_iff.mp hn).1]
          exact hn
        | _ => cases hk

/-- The remote call an operation makes: its future, and the command that asks for it. -/
def Op.Calls {σ : Type} (s : Setting σ) : Op σ → Key → Command → Prop
  | .scheduleActivity type input options, .activity id, c =>
    c = s.runner.scheduleActivityCommand id type input options
  | .startChildWorkflow type input options, .child id, c =>
    c = .startChildWorkflowExecution s.info.ns id type (s.runner.queueOr options.taskQueue) input
      options.parentClosePolicy
  | .scheduleNexusOperation endpoint service operation input close, .nexus _, c =>
    c = .scheduleNexusOperation endpoint service operation input
      (if 0 < close then some (toProtoDuration close) else none)
  | _, _, _ => False

/-- The operations that call something elsewhere. -/
def Op.isRemote {σ : Type} : Op σ → Bool
  | .scheduleActivity .. | .startChildWorkflow .. | .scheduleNexusOperation .. => true
  | _ => false

/-- The commands that schedule Nexus operations. -/
def nexusCommands (cmds : List Command) : List Command := cmds.filter fun c => c.event.isNexus

/-- The command is among these, and asks for what the future is of. -/
def Asked (cmds : List Command) (c : Command) : Key → Prop
  | .nexus id => ∃ n : Nat, id = toString n ∧ (nexusCommands cmds)[n]? = some c
  | _ => c ∈ cmds

theorem Asked.of_prefix {cmds cmds' : List Command} {c : Command} {k : Key} (h : Asked cmds c k)
    (hp : cmds <+: cmds') : Asked cmds' c k := by
  cases k with
  | nexus id =>
    obtain ⟨n, hid, hn⟩ := h
    have hfilter : nexusCommands cmds <+: nexusCommands cmds' := hp.filter _
    obtain ⟨more, hmore⟩ := hfilter
    refine ⟨n, hid, ?_⟩
    rw [← hmore, List.getElem?_append_left (List.getElem?_eq_some_iff.mp hn).1]
    exact hn
  | _ => exact hp.subset h

namespace Progress

variable {σ : Type} {s : Setting σ} {S : Prescan} {b b' : Progress σ}

/-- `c` has gone on from `b` with its body still running. -/
structure Grows (b c : Progress σ) : Prop where
  issued : b.issued <+: c.issued
  keys : b.keys <+: c.keys
  outcome : c.outcome = b.outcome

/-- An operation only adds to what the body has asked for. -/
theorem exec_grows {op : Op σ} {resp : Resp σ} (h : b.exec s S op = some (b', resp)) :
    b.Grows b' := by
  have hissue (c : Command) : b.Grows (b.issue c) :=
    ⟨List.prefix_append _ _, List.prefix_rfl, rfl⟩
  cases op with
  | mutableSideEffect id equals =>
    simp only [exec] at h
    split at h
    · next v _ =>
      obtain rfl : (b.mutable s.world.converter id equals v).1 = b' :=
        congrArg Prod.fst (Option.some.inj h)
      unfold Progress.mutable
      dsimp only
      split
      · exact ⟨List.prefix_rfl, List.prefix_rfl, rfl⟩
      · exact ⟨List.prefix_append _ _, List.prefix_rfl, rfl⟩
    · cases h
  | cancel addr =>
    obtain ⟨c, hc, he⟩ := Option.map_eq_some_iff.mp h
    obtain rfl : c = b' := congrArg Prod.fst he
    rcases request_cases hc with rfl | ⟨cmd, rfl, -⟩
    · exact ⟨List.prefix_rfl, List.prefix_rfl, rfl⟩
    · exact hissue cmd
  | executeLocalActivity type input options =>
    obtain ⟨fn, -, hfn⟩ := Option.map_eq_some_iff.mp h
    cases hfn
    exact hissue _
  | receive name =>
    obtain ⟨p, -, hp⟩ := Option.map_eq_some_iff.mp h
    cases hp
    exact ⟨List.prefix_rfl, List.prefix_rfl, rfl⟩
  | awaitCancellation =>
    cases h
    exact ⟨List.prefix_rfl, List.prefix_append _ _, rfl⟩
  | _ =>
    simp only [exec] at h
    repeat' split at h
    all_goals
      cases h
      try first
        | exact ⟨List.prefix_rfl, List.prefix_rfl, rfl⟩
        | exact hissue _
        | exact ⟨List.prefix_append _ _, List.prefix_append _ _, rfl⟩

/-- A remote call is given its future at once. -/
theorem exec_remote {op : Op σ} {resp : Resp σ} (h : b.exec s S op = some (b', resp))
    (hop : op.isRemote = true) :
    ∃ k c, resp = .future b.keys.length ∧ b'.keys = b.keys ++ [k] ∧ Asked b'.issued c k ∧
      op.Calls s k c := by
  cases op with
  | scheduleActivity type input options =>
    cases h
    exact ⟨_, _, rfl, rfl, List.mem_append_right _ List.mem_cons_self, rfl⟩
  | startChildWorkflow type input options =>
    simp only [exec] at h
    split at h
    · cases h
      exact ⟨_, _, rfl, rfl, List.mem_append_right _ List.mem_cons_self, rfl⟩
    · cases h
  | scheduleNexusOperation endpoint service operation input close =>
    cases h
    refine ⟨_, _, rfl, rfl, ⟨b.nexusSeq, rfl, ?_⟩, rfl⟩
    have hcount : b.nexusSeq = (nexusCommands b.issued).length := by
      rw [nexusSeq, events, List.countP_map, List.countP_eq_length_filter]
      rfl
    rw [hcount]
    change (nexusCommands (b.issued ++ [_]))[_]? = _
    rw [nexusCommands, List.filter_append]
    exact List.getElem?_concat_length
  | _ => cases hop

/-- What the body knows of its remote calls: each has a future and a command, and what `Get` gave
is what `S` says of the future. -/
structure Accounts (s : Setting σ) (S : Prescan) (b : Progress σ) : Prop where
  calls : ∀ i resp, b.trace[i]? = some resp →
    (s.program (b.trace.take i)).isRemote = true →
      ∃ a k c, resp = .future a ∧ b.keys[a]? = some k ∧
        (s.program (b.trace.take i)).Calls s k c ∧ Asked b.issued c k
  gets : ∀ i resp a, b.trace[i]? = some resp → s.program (b.trace.take i) = .get a →
    (b.future S a).ready = true ∧ resp = Runner.futureValue (b.future S a)
  ended : ∀ o, b.outcome = some o → (s.program b.trace).outcome? = some o

namespace Accounts

theorem start (s : Setting σ) (S : Prescan) : Accounts s S s.start where
  calls i resp h := by cases h
  gets i resp a h := by cases h
  ended o h := by cases h

theorem future_of_grows (h : b.Grows b') {a : Nat} (hr : (b.future S a).ready = true) :
    b'.future S a = b.future S a := by
  obtain ⟨more, hmore⟩ := h.keys
  unfold Progress.future at hr ⊢
  cases hk : b.keys[a]? with
  | none =>
    rw [hk] at hr
    cases hr
  | some k =>
    rw [← hmore, List.getElem?_append_left (List.getElem?_eq_some_iff.mp hk).1, hk]

/-- One operation of a body that is running. -/
theorem exec (h : Accounts s S b) (hb : b.outcome = none) {resp : Resp σ}
    (hx : b.exec s S (s.program b.trace) = some (b', resp)) :
    Accounts s S { b' with trace := b.trace ++ [resp] } := by
  have hgrows := exec_grows hx
  have hold {i : Nat} (hi : i < b.trace.length) :
      (b.trace ++ [resp])[i]? = b.trace[i]? ∧ (b.trace ++ [resp]).take i = b.trace.take i :=
    ⟨List.getElem?_append_left hi, List.take_append_of_le_length hi.le⟩
  have hnew {i : Nat} {r : Resp σ} (hi : (b.trace ++ [resp])[i]? = some r)
      (hge : ¬ i < b.trace.length) : i = b.trace.length ∧ r = resp := by
    have hlt := (List.getElem?_eq_some_iff.mp hi).1
    rw [List.length_append, List.length_singleton] at hlt
    obtain rfl : i = b.trace.length := by omega
    rw [List.getElem?_concat_length] at hi
    exact ⟨rfl, (Option.some.inj hi).symm⟩
  constructor
  · intro i r hr hop
    by_cases hi : i < b.trace.length
    · obtain ⟨hget, htake⟩ := hold hi
      rw [hget] at hr
      rw [htake] at hop ⊢
      obtain ⟨a, k, c, hresp, hk, hcall, hc⟩ := h.calls i r hr hop
      obtain ⟨more, hmore⟩ := hgrows.keys
      refine ⟨a, k, c, hresp, ?_, hcall, hc.of_prefix hgrows.issued⟩
      change b'.keys[a]? = some k
      rw [← hmore, List.getElem?_append_left (List.getElem?_eq_some_iff.mp hk).1, hk]
    · obtain ⟨rfl, rfl⟩ := hnew hr hi
      rw [List.take_left] at hop ⊢
      obtain ⟨k, c, hresp, hkeys, hasked, hcall⟩ := exec_remote hx hop
      refine ⟨b.keys.length, k, c, hresp, ?_, hcall, hasked⟩
      change b'.keys[b.keys.length]? = some k
      rw [hkeys, List.getElem?_concat_length]
  · intro i r a hr hop
    change (b'.future S a).ready = true ∧ r = Runner.futureValue (b'.future S a)
    by_cases hi : i < b.trace.length
    · obtain ⟨hget, htake⟩ := hold hi
      rw [hget] at hr
      rw [htake] at hop
      obtain ⟨hready, hresp⟩ := h.gets i r a hr hop
      rw [future_of_grows hgrows hready]
      exact ⟨hready, hresp⟩
    · obtain ⟨rfl, rfl⟩ := hnew hr hi
      rw [List.take_left] at hop
      simp only [hop, Progress.exec, Option.ite_none_right_eq_some, Option.some.injEq,
        Prod.mk.injEq] at hx
      obtain ⟨hready, rfl, rfl⟩ := hx
      exact ⟨hready, rfl⟩
  · intro o ho
    have hrunning : b'.outcome = some o := ho
    rw [hgrows.outcome, hb] at hrunning
    cases hrunning

theorem step (h : Accounts s S b) (hb : b.step s S = some b') : Accounts s S b' := by
  unfold Progress.step at hb
  split at hb
  · cases hb
  · next hout =>
    have hrunning : b.outcome = none := Option.not_isSome_iff_eq_none.mp hout
    cases ho : (s.program b.trace).outcome? with
    | some o =>
      simp only [ho] at hb
      cases hb
      exact ⟨h.calls, h.gets, fun o' ho' => ho'.symm ▸ ho⟩
    | none =>
      simp only [ho] at hb
      obtain ⟨⟨c, resp⟩, hx, rfl⟩ := Option.map_eq_some_iff.mp hb
      exact h.exec hrunning hx

theorem reaches (h : Accounts s S b) (hr : Reaches (Progress.step s S) b b') :
    Accounts s S b' := by
  induction hr with
  | refl => exact h
  | tail _ hs ih => exact ih.step hs

end Accounts

theorem step_issued (h : b.step s S = some b') : b.issued <+: b'.issued := by
  unfold step at h
  split at h
  · cases h
  · split at h
    · cases h
      exact List.prefix_rfl
    · obtain ⟨⟨c, resp⟩, hx, rfl⟩ := Option.map_eq_some_iff.mp h
      exact (exec_grows hx).issued

theorem reaches_issued (h : Reaches (step s S) b b') : b.issued <+: b'.issued := by
  induction h with
  | refl => exact List.prefix_rfl
  | tail _ hs ih => exact ih.trans (step_issued hs)

end Progress

section Executions

variable {σ : Type} {fuel : Nat} {info : WorkflowInfo} {world : World σ} {fn : WorkflowFn σ}
  {evicted : Nat → Bool} {batches : List History}

/-- An execution in tasks that is conducted as it should be: the server keeps its word, no update is
accepted, no task hangs, the body asks alike whenever it is resumed, and what it observes stays as
it was. -/
structure Conducted (fuel : Nat) (info : WorkflowInfo) (world : World σ) (fn : WorkflowFn σ)
    (evicted : Nat → Bool) (batches : List History) : Prop where
  converter : world.converter.RoundTrips
  served : Served batches.flatten
  updateFree : UpdateFree batches.flatten
  startsOnce : ∀ h ∈ batches.tail, ∀ e ∈ h, e.attributes.isStarted = false
  redoes : Runner.Throughout fuel info world fn Runner.Redoes evicted 0 [] none batches
  requestsNew : Runner.RequestsNew fuel info world fn evicted 0 [] none batches
  undisturbed : Runner.UndisturbedAll fuel info world fn evicted 0 [] none batches
  recorded : RecordedBy (Runner.tasks fuel info world fn evicted batches) batches
  live : ∀ r ∈ Runner.tasks fuel info world fn evicted batches, r.deadlocked = false

/-- The whole of a course that has begun. -/
theorem Course.whole {s : Setting σ} {past : History} {b : Progress σ} {hs : List History}
    {bs : List (Progress σ)} (h : Course info world fn s past b hs bs) (hne : hs ≠ []) :
    s = .ofHistory info world fn (past ++ hs.flatten) ∧ WellFormed (past ++ hs.flatten) ∧
      Reaches (Progress.step s (scanAll (past ++ hs.flatten))) s.start (bs.getLastD b) := by
  induction h with
  | nil past b => exact absurd rfl hne
  | @cons past b h b' hs bs setting wf hu records isOpen follows redoes requests comesBy waits rest
      ih =>
    rw [List.flatten_cons, ← List.append_assoc, List.getLastD_cons]
    cases rest with
    | nil =>
      rw [List.flatten_nil, List.append_nil]
      exact ⟨setting, wf, comesBy.trans (StateTransition.mem_eval.mp waits).1⟩
    | cons => exact ih (List.cons_ne_nil _ _)

/-- The commands of the tasks are what the body has issued since. -/
theorem ServesAll.commands {s : Setting σ} {n : Nat} {first : Bool} {past : History}
    {b : Progress σ} {hs : List History} {bs : List (Progress σ)} {rs : List (Runner σ)}
    (hcourse : Course info world fn s past b hs bs)
    (h : ServesAll s evicted n first past b hs bs rs) :
    b.issued ++ rs.flatMap Runner.commands = (bs.getLastD b).issued := by
  induction h with
  | nil n first past b => exact List.append_nil _
  | cons hserves _ ih =>
    cases hcourse with
    | cons setting wf hu records isOpen follows redoes requests comesBy waits rest =>
      have hpre := Progress.reaches_issued (StateTransition.mem_eval.mp waits).1
      rw [List.getLastD_cons, ← ih rest, List.flatMap_cons, hserves.commands, ← List.append_assoc,
        List.prefix_iff_eq_append.mp hpre]

/-- The operation that the body got its `i`-th answer to. -/
def Runner.opAt (r : Runner σ) (i : Nat) : Op σ := r.program (r.trace.take i)

namespace Conducted

variable {r : Runner σ}

/-- A body that only waits need not be checked task by task. -/
theorem of_waiting
    (hbody : ∀ input answers, ((Runner.chain world fn).body input answers).Waiting world)
    (hc : world.converter.RoundTrips) (hserved : Served batches.flatten)
    (hu : UpdateFree batches.flatten)
    (hstart : ∀ h ∈ batches.tail, ∀ e ∈ h, e.attributes.isStarted = false)
    (hrec : RecordedBy (Runner.tasks fuel info world fn evicted batches) batches)
    (hlive : ∀ r ∈ Runner.tasks fuel info world fn evicted batches, r.deadlocked = false) :
    Conducted fuel info world fn evicted batches := by
  have hrepeats : Runner.Throughout fuel info world fn Runner.Repeats evicted 0 [] none batches :=
    .of_replayable (fun input answers => (hbody input answers).1) hu
  have hlooks : Runner.Throughout fuel info world fn
      (fun q => (q.program q.trace).isObservation = false) evicted 0 [] none batches := by
    refine .of_body (fun q hq => ?_) hu (fun r hr => absurd hr (Option.not_mem_none r))
    rw [hq.program]
    exact (hbody q.input q.trace).2
  exact
    { converter := hc
      served := hserved
      updateFree := hu
      startsOnce := hstart
      redoes := hrepeats.imp fun _ => Runner.Repeats.redoes
      requestsNew := .of_repeats hrepeats
      undisturbed := .of_waiting hlooks
      recorded := hrec
      live := hlive }

/-- The body behind the runner that served the last task. -/
theorem body (h : Conducted fuel info world fn evicted batches)
    (hr : (Runner.tasks fuel info world fn evicted batches).getLast? = some r) :
    ∃ s b base sent, s = .ofHistory info world fn batches.flatten ∧ WellFormed batches.flatten ∧
      Carries s (scanAll batches.flatten) base sent r b ∧ b.Ordered s ∧
      Reaches (Progress.step s (scanAll batches.flatten)) s.start b ∧
      b.issued = (Runner.tasks fuel info world fn evicted batches).flatMap Runner.commands := by
  obtain ⟨bs, hcourse, hall, -⟩ := Runner.tasks_course info world fn h.converter h.served
    h.updateFree h.startsOnce h.redoes h.requestsNew h.undisturbed h.recorded h.live evicted rfl
  have hne : batches ≠ [] := by
    rintro rfl
    cases hr
  obtain ⟨hset, wf, hreach⟩ := hcourse.whole hne
  rw [List.nil_append] at hset wf hreach
  set s : Setting σ := .ofHistory info world fn (batches.headD [])
  have hconv : s.world.converter.RoundTrips := h.converter
  obtain ⟨hcached, hregular, -⟩ := hcourse.arrives hall hconv (Progress.start_regular s) hr
  rw [List.nil_append] at hcached
  obtain ⟨base, sent, hcar⟩ := hcached.carries
  exact ⟨s, bs.getLastD s.start, base, sent, hset, wf, hcar, hregular.toOrdered, hreach,
    (hall.commands hcourse).symm⟩

/-- A body that has called something and got an answer has been given an ending on record, of the
operation its command asked for. -/
theorem call_answered (h : Conducted fuel info world fn evicted batches)
    (hr : (Runner.tasks fuel info world fn evicted batches).getLast? = some r) {i j a : Nat}
    {resp : Resp σ} (hcall : (r.opAt i).isRemote = true) (hi : r.trace[i]? = some (.future a))
    (hget : r.opAt j = .get a) (hj : r.trace[j]? = some resp) :
    ∃ s k c ending, s = .ofHistory info world fn batches.flatten ∧ (r.opAt i).Calls s k c ∧
      Asked ((Runner.tasks fuel info world fn evicted batches).flatMap Runner.commands) c k ∧
      History.RecordsEnding batches.flatten ending k ∧ resp = ending.resp := by
  obtain ⟨s, b, base, sent, hset, wf, hcar, -, hreach, hissued⟩ := h.body hr
  have hacc := (Progress.Accounts.start s _).reaches hreach
  unfold Runner.opAt at hcall hget ⊢
  rw [hcar.program, hcar.trace] at hcall hget ⊢
  rw [hcar.trace] at hi hj
  obtain ⟨a', k, c, hfut, hk, hcalls, hc⟩ := hacc.calls i _ hi hcall
  obtain rfl : a = a' := by simpa using hfut
  obtain ⟨hready, hresp⟩ := hacc.gets j resp a hj hget
  have hfuture : b.future (scanAll batches.flatten) a = (scanAll batches.flatten).future k := by
    rw [Progress.future, hk]
    rfl
  rw [hfuture] at hready hresp
  have hremote : k.isRemote = true := by
    revert hcall hcalls
    cases s.program (b.trace.take i) <;> cases k <;> simp [Op.isRemote, Op.Calls, Key.isRemote]
  obtain ⟨ending, hend, hvalue⟩ := wf.recordsEnding (σ := σ) hremote hready
  exact ⟨s, k, c, ending, hset, hcalls, hissued ▸ hc, hend, hresp.trans hvalue⟩

/-- The commands of an execution name each activity and each child once. -/
theorem nodup_ids (h : Conducted fuel info world fn evicted batches)
    (hr : (Runner.tasks fuel info world fn evicted batches).getLast? = some r) :
    let events := ((Runner.tasks fuel info world fn evicted batches).flatMap Runner.commands).map
      Command.event
    (events.filterMap EventAttributes.activityId?).Nodup ∧
      (events.filterMap EventAttributes.childId?).Nodup := by
  obtain ⟨s, b, -, -, -, -, -, hordered, -, hissued⟩ := h.body hr
  intro events
  have hevents : events = b.events := by
    simp only [events, Progress.events, hissued]
  rw [hevents]
  exact ⟨hordered.sequenced.nodup_activities, hordered.sequenced.nodup_children⟩

/-- An execution that is reported closed has its body at an end. -/
theorem closed (h : Conducted fuel info world fn evicted batches)
    (hr : (Runner.tasks fuel info world fn evicted batches).getLast? = some r) {c : Command}
    (hc : r.terminalCommand = some c) :
    ∃ o, o ≠ .otherException ∧ r.program r.trace = .finish o ∧
      (r.finishBody o).terminalCommand = some c := by
  obtain ⟨s, b, base, sent, -, -, hcar, -, hreach, -⟩ := h.body hr
  have hacc := (Progress.Accounts.start s _).reaches hreach
  rw [hcar.terminalCommand] at hc
  obtain ⟨o, ho, hterm⟩ := Option.bind_eq_some_iff.mp hc
  have hout := hacc.ended o ho
  refine ⟨o, ?_, ?_, ?_⟩
  · rintro rfl
    cases hterm
  · rw [hcar.program, hcar.trace]
    cases hop : s.program b.trace <;> rw [hop] at hout <;> cases hout
    rfl
  · cases o with
    | otherException => cases hterm
    | _ =>
      have hworld : s.runner.world = s.world := rfl
      rw [← hterm]
      simp only [Runner.finishBody, Runner.produce, Runner.terminalCommand, Runner.bodyFailure,
        hcar.world, hworld]

theorem program_eq (h : Conducted fuel info world fn evicted batches)
    (hr : (Runner.tasks fuel info world fn evicted batches).getLast? = some r) :
    r.program = (Runner.chain world fn).body r.input := by
  obtain ⟨s, b, base, sent, rfl, -, hcar, -⟩ := h.body hr
  rw [hcar.program, hcar.input]
  rfl

/-- The runner has the input of the start event. -/
theorem input_eq (h : Conducted fuel info world fn evicted batches)
    (hr : (Runner.tasks fuel info world fn evicted batches).getLast? = some r) {eventId : Nat}
    {type : String} {input : Payloads} {header : Header} {rest : History}
    (hflat : batches.flatten = ⟨eventId, .workflowExecutionStarted type input header⟩ :: rest)
    (hrest : ∀ e ∈ rest, e.attributes.isStarted = false) : r.input = input := by
  obtain ⟨s, b, base, sent, rfl, -, hcar, -⟩ := h.body hr
  rw [hcar.input, hflat]
  exact (scanAll_input (p := [⟨eventId, .workflowExecutionStarted type input header⟩])
    hrest).1

end Conducted
end Executions

end TemporalSdk
