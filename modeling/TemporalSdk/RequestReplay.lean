import TemporalSdk.Recall

/-! Requests to cancel on replay. The guards of a request read what the scan has flagged; a cached
runner and one that is built again agree on them as long as a request is new to the record when it
is made. -/
namespace TemporalSdk
open StateTransition (Reaches)

variable {σ : Type}

/-- What a task has produced: the commands on record, which a fresh runner goes through again, and
those of its answer. -/
def Runner.Accounts (r : Runner σ) (fresh : Bool) (h : History) : Prop :=
  r.producedCommands =
    (entriesFrom 0 (History.commandEvents h ++ (r.commands.map Command.event ++
      (r.terminalCommand.map Command.event).toList))).drop
        (if fresh then 0 else (History.commandEvents h).length)

theorem Runner.Accounts.rewired {r q : Runner σ} {fresh : Bool} {h : History}
    (ha : r.Accounts fresh h) (hq : r.Rewired q) : q.Accounts fresh h := by
  rw [hq.same]
  exact ha

section Accounting

variable {info : WorkflowInfo} {world : World σ} {fn : WorkflowFn σ} {s : Setting σ}

theorem Course.accounts {evicted : Nat → Bool} {hs : List History} {bs : List (Progress σ)}
    {rs : List (Runner σ)} (h : Course info world fn s [] s.start hs bs)
    (hall : ServesAll s evicted 0 true [] s.start hs bs rs) (hc : s.world.converter.RoundTrips)
    {i : Nat} {r : Runner σ} (hr : rs[i]? = some r) :
    r.Accounts (evicted i || i == 0) (hs.take (i + 1)).flatten := by
  obtain ⟨b, -, hcached, -, hevents, hprod⟩ := h.arrivesAt hall hc (Progress.start_regular s) hr
  obtain ⟨_, _, hcar⟩ := hcached.carries
  rw [Nat.zero_add, Bool.true_and, List.nil_append] at hprod
  rw [List.nil_append] at hevents
  rw [Runner.Accounts, hprod, b.produced_eq s, hevents, hcar.terminalCommand, List.append_assoc]

/-- Beyond the record the tasks produce what they emit, whichever runners are lost. -/
theorem Runner.tasks_account (hc : world.converter.RoundTrips) {batches : List History}
    (hserved : Served batches.flatten) (hu : UpdateFree batches.flatten)
    (hstart : ∀ h ∈ batches.tail, ∀ e ∈ h, e.attributes.isStarted = false) {fuel : Nat}
    {evicted : Nat → Bool}
    (hop : Runner.Throughout fuel info world fn Runner.Redoes evicted 0 [] none batches)
    (hnew : Runner.RequestsNew fuel info world fn evicted 0 [] none batches)
    (hund : Runner.UndisturbedAll fuel info world fn evicted 0 [] none batches)
    (hrec : RecordedBy (Runner.tasks fuel info world fn evicted batches) batches)
    (hlive : ∀ r ∈ Runner.tasks fuel info world fn evicted batches, r.deadlocked = false)
    (evicted' : Nat → Bool) {worlds : Nat → World σ} (hworlds : world.AgreeBeyond worlds batches) :
    ∃ enough, ∀ fuel' ≥ enough,
      Runner.ThroughoutIn fuel' info fn Runner.Dated worlds evicted' 0 [] none batches →
      (List.Forall₂ SameAnswer (Runner.tasks fuel info world fn evicted batches)
        (Runner.tasksIn fuel' info fn worlds evicted' batches) ∧
        ∀ i r, (Runner.tasksIn fuel' info fn worlds evicted' batches)[i]? = some r →
          (i = 0 ∨ evicted' i = true) → r.checkDeterminism = none) ∧
      (∀ (i : Nat) (r : Runner σ),
        (Runner.tasks fuel info world fn evicted batches)[i]? = some r →
        r.Accounts (evicted i || i == 0) (batches.take (i + 1)).flatten) ∧
      ∀ (i : Nat) (r : Runner σ),
        (Runner.tasksIn fuel' info fn worlds evicted' batches)[i]? = some r →
        r.Accounts (evicted' i || i == 0) (batches.take (i + 1)).flatten := by
  obtain ⟨bs, hcourse, hall, enough, henough⟩ := Runner.tasks_course info world fn hc hserved hu
    hstart hop hnew hund hrec hlive evicted' rfl
  refine ⟨enough, fun fuel' hfuel hdated => ?_⟩
  obtain ⟨hall', hdet⟩ := henough fuel' hfuel ((hworlds.dated_iff hu).mp hdated)
  refine ⟨hworlds.answers hu ⟨hall.sameAnswers hall', hdet⟩,
    fun _ _ => hcourse.accounts hall hc, fun i q hq => ?_⟩
  obtain ⟨r, hr, hrew⟩ := exists_of_forall₂ (hworlds.rewired hu fuel' info fn evicted') hq
  exact (hcourse.accounts hall' hc hr).rewired hrew

/-- Where a fresh runner and one that was kept answer alike, the fresh one has produced the record
and then what the other has. -/
theorem SameAnswer.produced {r q : Runner σ} (h : SameAnswer r q) {past : History}
    (hr : r.Accounts false past) (hq : q.Accounts true past) :
    q.producedCommands = (scanAll past).commands ++ r.producedCommands := by
  rw [Runner.Accounts, if_neg Bool.false_ne_true] at hr
  rw [Runner.Accounts, if_pos rfl, List.drop_zero, ← h.commands, ← h.terminalCommand] at hq
  rw [hr, hq, (scanAll_recorded past).commands, entriesFrom_append,
    List.drop_left' (length_entriesFrom _ _)]

end Accounting

section Checking

/-- `Requestable`, as a scan of the history has it. -/
def Prescan.requestable (S : Prescan) : Key → Bool
  | .activity id => (S.activityToSchedEvent id).isSome && !S.requested (.activity id)
  | .child id => !S.requested (.child id)
  | .timer _ => false
  | .nexus _ | .cancellation => true

theorem Prescan.requestable_scanAll {h : History} (hu : UpdateFree h) {k : Key}
    (hk : (scanAll h).requestable k = true) : h.Requestable k := by
  have hflag {k : Key} (hnot : (!(scanAll h).requested k) = true) : ¬ h.RecordsRequest k := by
    intro hrec
    rw [← scanHistory_of_updateFree hu, Prescan.requested_of_records hrec] at hnot
    cases hnot
  cases k with
  | activity id =>
    obtain ⟨hsched, hnot⟩ := Bool.and_eq_true_iff.mp hk
    obtain ⟨sid, hsid⟩ := Option.isSome_iff_exists.mp hsched
    obtain ⟨type, hmem⟩ := scheduled_of_scanAll hsid
    exact ⟨⟨_, hmem, rfl⟩, hflag hnot⟩
  | child id => exact hflag hk
  | timer id => cases hk
  | nexus id => trivial
  | cancellation => trivial

/-- `RequestsNew`, checked along all tasks. -/
def Runner.requestsNew (fuel : Nat) (info : WorkflowInfo) (world : World σ) (fn : WorkflowFn σ)
    (evicted : Nat → Bool) : Nat → History → Option (Runner σ) → List History → Bool
  | _, _, _, [] => true
  | n, past, cached, batch :: batches =>
    let kept := if evicted n then none else cached
    (Runner.atTask info world fn kept past batch).holdsFor
        (fun q => cached.any (fun r => decide (q.trace.length < r.trace.length)) = true ∨
          q.requests?.all (scanAll (past ++ batch)).requestable = true) fuel &&
      requestsNew fuel info world fn evicted (n + 1) (past ++ batch)
        (some (Runner.serve fuel info world fn kept past batch)) batches

theorem Runner.RequestsNew.of_requestsNew {fuel : Nat} {info : WorkflowInfo} {world : World σ}
    {fn : WorkflowFn σ} {evicted : Nat → Bool} {n : Nat} {past : History}
    {cached : Option (Runner σ)} {hs : List History} (hu : UpdateFree (past ++ hs.flatten))
    (h : Runner.requestsNew fuel info world fn evicted n past cached hs = true) :
    Runner.RequestsNew fuel info world fn evicted n past cached hs := by
  induction hs generalizing n past cached with
  | nil => trivial
  | cons batch hs ih =>
    rw [List.flatten_cons, ← List.append_assoc] at hu
    rw [requestsNew, Bool.and_eq_true] at h
    refine ⟨fun q hq hle k hk => ?_, ih hu h.2⟩
    refine Prescan.requestable_scanAll hu.left ?_
    rcases Runner.holds_of_holdsFor h.1 hq with hlt | hall
    · obtain ⟨r, hr, hlt⟩ := (Option.any_eq_true _ _).mp hlt
      exact absurd (hle r hr) (Nat.not_le.mpr (of_decide_eq_true hlt))
    · rw [show q.requests? = some k from hk] at hall
      exact hall

end Checking

section Activities

/-- A body that requests to cancel activities: if every request, when it is first made, is for an
activity whose schedule event is on record and that no request on record is for, a task is answered
by a fresh runner as by one that was kept, which produces the same commands beyond the record; and
every replay passes the determinism check. Runners may be built in worlds of their own, which agree
beyond the record. -/
theorem Runner.activity_requests_replay_stable (info : WorkflowInfo) (world : World σ)
    (fn : WorkflowFn σ) (hc : world.converter.RoundTrips) (batches : List History)
    (hserved : Served batches.flatten) (hu : UpdateFree batches.flatten)
    (hstart : ∀ h ∈ batches.tail, ∀ e ∈ h, e.attributes.isStarted = false) (fuel : Nat)
    (evicted : Nat → Bool)
    (hop : Runner.Throughout fuel info world fn Runner.Redoes evicted 0 [] none batches)
    (hnew : Runner.RequestsNew fuel info world fn evicted 0 [] none batches)
    (hund : Runner.UndisturbedAll fuel info world fn evicted 0 [] none batches)
    (hrec : RecordedBy (Runner.tasks fuel info world fn evicted batches) batches)
    (hlive : ∀ r ∈ Runner.tasks fuel info world fn evicted batches, r.deadlocked = false)
    (evicted' : Nat → Bool) (worlds : Nat → World σ) (hworlds : world.AgreeBeyond worlds batches) :
    ∃ enough, ∀ fuel' ≥ enough,
      Runner.ThroughoutIn fuel' info fn Runner.Dated worlds evicted' 0 [] none batches →
      List.Forall₂ SameAnswer (Runner.tasks fuel info world fn evicted batches)
        (Runner.tasksIn fuel' info fn worlds evicted' batches) ∧
      (∀ (i : Nat) (r q : Runner σ),
        (Runner.tasks fuel info world fn evicted batches)[i]? = some r →
        (Runner.tasksIn fuel' info fn worlds evicted' batches)[i]? = some q →
        i ≠ 0 → evicted i = false → evicted' i = true →
        q.producedCommands =
          (scanAll (batches.take (i + 1)).flatten).commands ++ r.producedCommands) ∧
      ∀ i r, (Runner.tasksIn fuel' info fn worlds evicted' batches)[i]? = some r →
        (i = 0 ∨ evicted' i = true) → r.checkDeterminism = none := by
  obtain ⟨enough, henough⟩ := Runner.tasks_account hc hserved hu hstart hop hnew hund hrec hlive
    evicted' hworlds
  refine ⟨enough, fun fuel' hfuel hdated => ?_⟩
  obtain ⟨⟨hsame, hdet⟩, hkept, hfresh⟩ := henough fuel' hfuel hdated
  refine ⟨hsame, fun i r q hr hq hi hev hev' => ?_, hdet⟩
  have haccounts := hkept i r hr
  have haccounts' := hfresh i q hq
  rw [hev, beq_false_of_ne hi] at haccounts
  rw [hev'] at haccounts'
  obtain ⟨hlt, rfl⟩ := List.getElem?_eq_some_iff.mp hr
  obtain ⟨hlt', rfl⟩ := List.getElem?_eq_some_iff.mp hq
  exact (hsame.get hlt hlt').produced haccounts haccounts'

/-- A body that rolls a die, books something and cancels the booking after a rest. -/
def bookThenCancel : WorkflowFn Unit where
  init := ()
  body _ answers :=
    match answers with
    | [] => .sideEffect
    | [_] => .scheduleActivity "Book" [] {}
    | [_, _] => .startTimer 1000000000
    | [_, _, _] => .get 1
    | [_, _, _, _] => .cancel 0
    | [_, _, _, _, _] => .startTimer 1000000000
    | [_, _, _, _, _, _] => .get 2
    | _ => .finish (.returned [])

def bookThenCancelTasks : List History :=
  [[⟨1, .workflowExecutionStarted "BookThenCancel" [] []⟩, ⟨2, .other⟩, ⟨3, .other⟩],
    [⟨4, .other⟩, ⟨5, rolled 0 (.int 6)⟩, ⟨6, .activityTaskScheduled "0" "Book"⟩,
      ⟨7, .timerStarted "t0"⟩, ⟨8, .timerFired "t0"⟩, ⟨9, .other⟩, ⟨10, .other⟩],
    [⟨11, .other⟩, ⟨12, .activityTaskCancelRequested 6⟩, ⟨13, .timerStarted "t1"⟩,
      ⟨14, .timerFired "t1"⟩, ⟨15, .other⟩, ⟨16, .other⟩]]

theorem bookThenCancel_replay_stable :
    ∃ fuel, List.Forall₂ SameAnswer
        (Runner.tasks 10 {} (dice fun _ => .ok (.int 6)) bookThenCancel (fun _ => false)
          bookThenCancelTasks)
        (Runner.tasksIn fuel {} bookThenCancel
          ((dice fun _ => .ok (.int 6)).spentAt bookThenCancelTasks) (fun n => n == 2)
          bookThenCancelTasks) ∧
      ∀ r, (Runner.tasksIn fuel {} bookThenCancel
        ((dice fun _ => .ok (.int 6)).spentAt bookThenCancelTasks) (fun n => n == 2)
        bookThenCancelTasks)[2]? = some r → r.checkDeterminism = none := by
  have hreports : (Runner.tasks 10 {} (dice fun _ => .ok (.int 6)) bookThenCancel
      (fun _ => false) bookThenCancelTasks).map Runner.report =
      [([rolled 0 (.int 6), .activityTaskScheduled "0" "Book", .timerStarted "t0"], none, false),
        ([.activityTaskCancelRequested 6, .timerStarted "t1"], none, false),
        ([], some (.completeWorkflowExecution []), false)] := by decide +kernel
  have hserved : Served bookThenCancelTasks.flatten :=
    ⟨by decide +kernel, by decide +kernel, by decide +kernel, by decide +kernel⟩
  have hu : UpdateFree bookThenCancelTasks.flatten := by decide +kernel
  have hworlds := (dice fun _ => .ok (.int 6)).agreeBeyond_spentAt bookThenCancelTasks
  obtain ⟨enough, henough⟩ := Runner.activity_requests_replay_stable {}
    (dice fun _ => .ok (.int 6)) bookThenCancel DataConverter.tagged_roundTrips
    bookThenCancelTasks hserved hu (by decide +kernel) 10 (fun _ => false)
    (.of_holds (by decide +kernel)) (.of_requestsNew hu (by decide +kernel))
    (.of_waiting (.of_holds (by decide +kernel)))
    (.of_reports hreports (by decide +kernel) (by decide +kernel))
    (Runner.live_of_reports hreports (by decide +kernel)) (fun n => n == 2) _ hworlds
  have hdated : Runner.Throughout 10 {} (dice fun _ => .ok (.int 6)) bookThenCancel Runner.Dated
      (fun n => n == 2) 0 [] none bookThenCancelTasks := .of_holds (by decide +kernel)
  obtain ⟨hsame, -, hdet⟩ := henough (max enough 10) (le_max_left enough 10)
    ((hworlds.dated_iff hu).mpr (.mono (le_max_right enough 10) hu
      (Runner.live_of_all (by decide +kernel)) hdated))
  exact ⟨_, hsame, fun r hr => hdet 2 r hr (.inr rfl)⟩

/-- A body that cancels the booking at once. -/
def bookAndCancel : WorkflowFn Unit where
  init := ()
  body _ answers :=
    match answers with
    | [] => .scheduleActivity "Book" [] {}
    | [_] => .cancel 0
    | [_, _] => .startTimer 1000000000
    | [_, _, _] => .get 1
    | [_, _, _, _] => .startTimer 1000000000
    | [_, _, _, _, _] => .get 2
    | _ => .finish (.returned [])

def bookAndCancelTasks : List History :=
  [[⟨1, .workflowExecutionStarted "BookAndCancel" [] []⟩, ⟨2, .other⟩, ⟨3, .other⟩],
    [⟨4, .other⟩, ⟨5, .activityTaskScheduled "0" "Book"⟩, ⟨6, .timerStarted "t0"⟩,
      ⟨7, .timerFired "t0"⟩, ⟨8, .other⟩, ⟨9, .other⟩]]

/-- Live the activity has no schedule event yet and the call does nothing; a fresh runner finds the
event, requests the cancellation, and fails the check. -/
theorem bookAndCancel_depends_on_eviction :
    RecordedBy (Runner.tasks 10 {} (World.plain .tagged) bookAndCancel (fun _ => false)
      bookAndCancelTasks) bookAndCancelTasks ∧
    Served bookAndCancelTasks.flatten ∧ UpdateFree bookAndCancelTasks.flatten ∧
    (Runner.tasks 10 {} (World.plain .tagged) bookAndCancel (fun _ => false)
        bookAndCancelTasks).map (fun r => (r.commands.map Command.event, r.deadlocked)) =
      [([.activityTaskScheduled "0" "Book", .timerStarted "t0"], false),
        ([.timerStarted "t1"], false)] ∧
    ((Runner.tasks 10 {} (World.plain .tagged) bookAndCancel (fun n => n == 1)
        bookAndCancelTasks)[1]?.map fun r =>
          (r.commands.map Command.event, r.deadlocked, r.checkDeterminism)) =
      some ([.activityTaskCancelRequested 5, .timerStarted "t1"], false,
        some ("[TMPRL1100] nondeterministic workflow: at command #1 history recorded " ++
          "StartTimer/t0 but replay produced RequestCancelActivity/5")) := by
  have hreports : (Runner.tasks 10 {} (World.plain .tagged) bookAndCancel (fun _ => false)
      bookAndCancelTasks).map Runner.report =
      [([.activityTaskScheduled "0" "Book", .timerStarted "t0"], none, false),
        ([.timerStarted "t1"], none, false)] := by decide +kernel
  exact ⟨.of_reports hreports (by decide +kernel) (by decide +kernel),
    ⟨by decide +kernel, by decide +kernel, by decide +kernel, by decide +kernel⟩,
    by decide +kernel, by decide +kernel, by decide +kernel⟩

end Activities

section Externals

/-- The check sees as many requests for a workflow as there are events of them. -/
theorem count_external_entriesFrom (id : String) (n : Nat) (as : List EventAttributes) :
    (entriesFrom n as).count ⟨.requestCancelExternalWorkflow, id, ""⟩ =
      as.count (.requestCancelExternalWorkflowExecutionInitiated id) := by
  refine countP_entriesFrom (fun a m => ?_) n as
  cases a <;> simp [EventAttributes.entry]

theorem Runner.Accounts.count_external {r : Runner σ} {fresh : Bool} {h : History}
    (ha : r.Accounts fresh h) (id : String) :
    r.producedCommands.count ⟨.requestCancelExternalWorkflow, id, ""⟩ =
      (if fresh then (History.commandEvents h).count
        (.requestCancelExternalWorkflowExecutionInitiated id) else 0) +
      (r.commands.map Command.event).count
        (.requestCancelExternalWorkflowExecutionInitiated id) := by
  have hclosing : (r.terminalCommand.map Command.event).toList.count
      (.requestCancelExternalWorkflowExecutionInitiated id) = 0 := by
    unfold Runner.terminalCommand
    cases r.status <;> rfl
  rw [ha]
  cases fresh with
  | true =>
    rw [if_pos rfl, if_pos rfl, List.drop_zero, count_external_entriesFrom, List.count_append,
      List.count_append, hclosing, Nat.add_zero]
  | false =>
    rw [if_neg Bool.false_ne_true, if_neg Bool.false_ne_true, entriesFrom_append,
      List.drop_left' (length_entriesFrom _ _), count_external_entriesFrom, List.count_append,
      hclosing, Nat.add_zero, Nat.zero_add]

/-- A body that requests to cancel other workflows and its children: if no request for the workflow
is on record when one is first made, every task accounts for the commands on record, if it goes
through them again, and for those it emits, whichever runners are lost; the requests for a workflow
number as many; every task is answered alike, and every replay passes the determinism check.
Runners may be built in worlds of their own, which agree beyond the record. -/
theorem Runner.external_requests_replay_stable (info : WorkflowInfo) (world : World σ)
    (fn : WorkflowFn σ) (hc : world.converter.RoundTrips) (batches : List History)
    (hserved : Served batches.flatten) (hu : UpdateFree batches.flatten)
    (hstart : ∀ h ∈ batches.tail, ∀ e ∈ h, e.attributes.isStarted = false) (fuel : Nat)
    (evicted : Nat → Bool)
    (hop : Runner.Throughout fuel info world fn Runner.Redoes evicted 0 [] none batches)
    (hnew : Runner.RequestsNew fuel info world fn evicted 0 [] none batches)
    (hund : Runner.UndisturbedAll fuel info world fn evicted 0 [] none batches)
    (hrec : RecordedBy (Runner.tasks fuel info world fn evicted batches) batches)
    (hlive : ∀ r ∈ Runner.tasks fuel info world fn evicted batches, r.deadlocked = false)
    (evicted' : Nat → Bool) (worlds : Nat → World σ) (hworlds : world.AgreeBeyond worlds batches) :
    ∃ enough, ∀ fuel' ≥ enough,
      Runner.ThroughoutIn fuel' info fn Runner.Dated worlds evicted' 0 [] none batches →
      (∀ (i : Nat) (r : Runner σ),
        (Runner.tasksIn fuel' info fn worlds evicted' batches)[i]? = some r →
        r.Accounts (evicted' i || i == 0) (batches.take (i + 1)).flatten ∧
        ∀ id, r.producedCommands.count ⟨.requestCancelExternalWorkflow, id, ""⟩ =
          (if evicted' i || i == 0 then (History.commandEvents (batches.take (i + 1)).flatten).count
            (.requestCancelExternalWorkflowExecutionInitiated id) else 0) +
          (r.commands.map Command.event).count
            (.requestCancelExternalWorkflowExecutionInitiated id)) ∧
      List.Forall₂ SameAnswer (Runner.tasks fuel info world fn evicted batches)
        (Runner.tasksIn fuel' info fn worlds evicted' batches) ∧
      ∀ i r, (Runner.tasksIn fuel' info fn worlds evicted' batches)[i]? = some r →
        (i = 0 ∨ evicted' i = true) → r.checkDeterminism = none := by
  obtain ⟨enough, henough⟩ := Runner.tasks_account hc hserved hu hstart hop hnew hund hrec hlive
    evicted' hworlds
  refine ⟨enough, fun fuel' hfuel hdated => ?_⟩
  obtain ⟨⟨hsame, hdet⟩, -, haccounts⟩ := henough fuel' hfuel hdated
  refine ⟨fun i r hr => ⟨haccounts i r hr, ?_⟩, hsame, hdet⟩
  exact (haccounts i r hr).count_external

/-- A body that rolls a die and stops one workflow, asking twice, and another after a rest. -/
def stopBoth : WorkflowFn Unit where
  init := ()
  body _ answers :=
    match answers with
    | [] => .sideEffect
    | [_] => .cancelExternalWorkflow "left"
    | [_, _] => .cancelExternalWorkflow "left"
    | [_, _, _] => .startTimer 1000000000
    | [_, _, _, _] => .get 0
    | [_, _, _, _, _] => .cancelExternalWorkflow "right"
    | [_, _, _, _, _, _] => .startTimer 1000000000
    | [_, _, _, _, _, _, _] => .get 1
    | _ => .finish (.returned [])

def stopBothTasks : List History :=
  [[⟨1, .workflowExecutionStarted "StopBoth" [] []⟩, ⟨2, .other⟩, ⟨3, .other⟩],
    [⟨4, .other⟩, ⟨5, rolled 0 (.int 6)⟩,
      ⟨6, .requestCancelExternalWorkflowExecutionInitiated "left"⟩,
      ⟨7, .requestCancelExternalWorkflowExecutionInitiated "left"⟩, ⟨8, .timerStarted "t0"⟩,
      ⟨9, .timerFired "t0"⟩, ⟨10, .other⟩, ⟨11, .other⟩],
    [⟨12, .other⟩, ⟨13, .requestCancelExternalWorkflowExecutionInitiated "right"⟩,
      ⟨14, .timerStarted "t1"⟩, ⟨15, .timerFired "t1"⟩, ⟨16, .other⟩, ⟨17, .other⟩]]

theorem stopBoth_replay_stable :
    ∃ fuel, List.Forall₂ SameAnswer
        (Runner.tasks 10 {} (dice fun _ => .ok (.int 6)) stopBoth (fun _ => false) stopBothTasks)
        (Runner.tasksIn fuel {} stopBoth ((dice fun _ => .ok (.int 6)).spentAt stopBothTasks)
          (fun n => n == 1) stopBothTasks) ∧
      ∀ r, (Runner.tasksIn fuel {} stopBoth ((dice fun _ => .ok (.int 6)).spentAt stopBothTasks)
        (fun n => n == 1) stopBothTasks)[1]? = some r →
          r.producedCommands.count ⟨.requestCancelExternalWorkflow, "left", ""⟩ = 2 +
            (r.commands.map Command.event).count
              (.requestCancelExternalWorkflowExecutionInitiated "left") ∧
          r.checkDeterminism = none := by
  have hreports : (Runner.tasks 10 {} (dice fun _ => .ok (.int 6)) stopBoth (fun _ => false)
      stopBothTasks).map Runner.report =
      [([rolled 0 (.int 6), .requestCancelExternalWorkflowExecutionInitiated "left",
          .requestCancelExternalWorkflowExecutionInitiated "left", .timerStarted "t0"], none,
          false),
        ([.requestCancelExternalWorkflowExecutionInitiated "right", .timerStarted "t1"], none,
          false),
        ([], some (.completeWorkflowExecution []), false)] := by decide +kernel
  have hserved : Served stopBothTasks.flatten :=
    ⟨by decide +kernel, by decide +kernel, by decide +kernel, by decide +kernel⟩
  have hu : UpdateFree stopBothTasks.flatten := by decide +kernel
  have hworlds := (dice fun _ => .ok (.int 6)).agreeBeyond_spentAt stopBothTasks
  obtain ⟨enough, henough⟩ := Runner.external_requests_replay_stable {}
    (dice fun _ => .ok (.int 6)) stopBoth DataConverter.tagged_roundTrips stopBothTasks hserved hu
    (by decide +kernel) 10 (fun _ => false) (.of_holds (by decide +kernel))
    (.of_requestsNew hu (by decide +kernel)) (.of_waiting (.of_holds (by decide +kernel)))
    (.of_reports hreports (by decide +kernel) (by decide +kernel))
    (Runner.live_of_reports hreports (by decide +kernel)) (fun n => n == 1) _ hworlds
  have hdated : Runner.Throughout 10 {} (dice fun _ => .ok (.int 6)) stopBoth Runner.Dated
      (fun n => n == 1) 0 [] none stopBothTasks := .of_holds (by decide +kernel)
  obtain ⟨haccounts, hsame, hdet⟩ := henough (max enough 10) (le_max_left enough 10)
    ((hworlds.dated_iff hu).mpr (.mono (le_max_right enough 10) hu
      (Runner.live_of_all (by decide +kernel)) hdated))
  exact ⟨_, hsame, fun r hr => ⟨(haccounts 1 r hr).2 "left", hdet 1 r hr (.inr rfl)⟩⟩

/-- A body that asks twice, with a rest in between. -/
def stopAgain : WorkflowFn Unit where
  init := ()
  body _ answers :=
    match answers with
    | [] => .cancelExternalWorkflow "left"
    | [_] => .startTimer 1000000000
    | [_, _] => .get 0
    | [_, _, _] => .cancelExternalWorkflow "left"
    | [_, _, _, _] => .startTimer 1000000000
    | [_, _, _, _, _] => .get 1
    | _ => .finish (.returned [])

/-- The history before the second request, and after it as the server has it if that was not
sent. -/
def stopAgainTasks : List History :=
  [[⟨1, .workflowExecutionStarted "StopAgain" [] []⟩, ⟨2, .other⟩, ⟨3, .other⟩],
    [⟨4, .other⟩, ⟨5, .requestCancelExternalWorkflowExecutionInitiated "left"⟩,
      ⟨6, .timerStarted "t0"⟩, ⟨7, .timerFired "t0"⟩, ⟨8, .other⟩, ⟨9, .other⟩],
    [⟨10, .other⟩, ⟨11, .timerStarted "t1"⟩, ⟨12, .timerFired "t1"⟩, ⟨13, .other⟩, ⟨14, .other⟩]]

/-- A runner that was kept sends the second request; one that was built again does not, and a
later replay of its history fails the check. -/
theorem stopAgain_depends_on_eviction :
    RecordedBy (Runner.tasks 10 {} (World.plain .tagged) stopAgain (fun _ => false)
      (stopAgainTasks.take 2)) (stopAgainTasks.take 2) ∧
    RecordedBy (Runner.tasks 10 {} (World.plain .tagged) stopAgain (fun n => n != 0)
      stopAgainTasks) stopAgainTasks ∧
    Served stopAgainTasks.flatten ∧ UpdateFree stopAgainTasks.flatten ∧
    ((Runner.tasks 10 {} (World.plain .tagged) stopAgain (fun _ => false)
        (stopAgainTasks.take 2))[1]?.map fun r => (r.commands.map Command.event, r.deadlocked)) =
      some ([.requestCancelExternalWorkflowExecutionInitiated "left", .timerStarted "t1"], false) ∧
    ((Runner.tasks 10 {} (World.plain .tagged) stopAgain (fun n => n != 0)
        stopAgainTasks)[1]?.map fun r => (r.commands.map Command.event, r.deadlocked)) =
      some ([.timerStarted "t1"], false) ∧
    ((Runner.tasks 10 {} (World.plain .tagged) stopAgain (fun n => n != 0)
        stopAgainTasks)[2]?.map fun r => (r.deadlocked, r.checkDeterminism)) =
      some (false, some ("[TMPRL1100] nondeterministic workflow: at command #2 history recorded " ++
        "StartTimer/t1 but replay produced RequestCancelExternalWorkflowExecution/left")) := by
  have hkept : (Runner.tasks 10 {} (World.plain .tagged) stopAgain (fun _ => false)
      (stopAgainTasks.take 2)).map Runner.report =
      [([.requestCancelExternalWorkflowExecutionInitiated "left", .timerStarted "t0"], none, false),
        ([.requestCancelExternalWorkflowExecutionInitiated "left", .timerStarted "t1"], none,
          false)] := by decide +kernel
  have hlost : (Runner.tasks 10 {} (World.plain .tagged) stopAgain (fun n => n != 0)
      stopAgainTasks).map Runner.report =
      [([.requestCancelExternalWorkflowExecutionInitiated "left", .timerStarted "t0"], none, false),
        ([.timerStarted "t1"], none, false),
        ([], some (.completeWorkflowExecution []), false)] := by decide +kernel
  exact ⟨.of_reports hkept (by decide +kernel) (by decide +kernel),
    .of_reports hlost (by decide +kernel) (by decide +kernel),
    ⟨by decide +kernel, by decide +kernel, by decide +kernel, by decide +kernel⟩,
    by decide +kernel, by decide +kernel, by decide +kernel, by decide +kernel⟩

end Externals
end TemporalSdk
