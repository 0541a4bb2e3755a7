import TemporalSdk.Issued

/-! Prescan and incremental application agree: whatever part of a history a fresh runner is
built on, issuing the operations and applying the rest leaves the futures, the signals and the
schedule maps where the scan of the whole history puts them. -/
namespace TemporalSdk

theorem Prescan.scanMarker_lastEventId (S : Prescan) (name : String)
    (details : List (String × Payloads)) :
    (S.scanMarker name details).lastEventId = S.lastEventId := by
  unfold Prescan.scanMarker
  repeat' split
  all_goals rfl

theorem Prescan.scanEvent_lastEventId (S : Prescan) (e : HistoryEvent) :
    (S.scanEvent e).lastEventId = S.lastEventId := by
  obtain ⟨eid, a⟩ := e
  cases a <;> first
    | rfl
    | (simp only [Prescan.scanEvent, Prescan.onActivity]; split <;> rfl)
    | (simp only [Prescan.scanEvent, Prescan.onNexus]; split <;> rfl)
    | exact Prescan.scanMarker_lastEventId _ _ _

@[simp] theorem Prescan.scanOne_lastEventId (S : Prescan) (e : HistoryEvent) :
    (S.scanOne e).lastEventId = e.eventId := by
  rw [Prescan.scanOne, Prescan.scanEvent_lastEventId]

/-- The position after a scan is below every later event. -/
theorem WellFormed.lastEventId_lt {p s : History} {e : HistoryEvent}
    (wf : WellFormed (p ++ e :: s)) : (scanAll p).lastEventId < e.eventId := by
  induction p using List.reverseRecOn with
  | nil => exact wf.positive e (by simp)
  | append_singleton p x _ =>
    rw [scanAll_concat, Prescan.scanOne_lastEventId]
    exact (List.pairwise_append.mp wf.increasing).2.2 x (by simp) e (by simp)

/-- What is kept in step with the scan of `h` by the events of `h`. -/
structure Follows {σ : Type} (r : Runner σ) (h : History) (keys : List Key) : Prop where
  issued : Issued r (scanAll h) keys
  live : r.scan.live = (scanAll h).live
  lastEventId : r.scan.lastEventId = (scanAll h).lastEventId

theorem Follows.applyOne {σ : Type} {r : Runner σ} {p : History} {keys : List Key}
    {e : HistoryEvent} (h : Follows r p keys) (wf : WellFormed (p ++ [e])) :
    Follows (r.applyOne e) (p ++ [e]) keys where
  issued := by
    rw [scanAll_concat]
    exact (h.issued.event h.live wf.left.indexed wf).withScan _
  live := by
    rw [scanAll_concat, Prescan.scanOne_live, ← h.live]
    exact r.applyEventToState_live e
  lastEventId := by
    rw [scanAll_concat, Prescan.scanOne_lastEventId]
    rfl

/-- A runner that is in step with a history stays so over the events that follow. -/
theorem Follows.applyEvents {σ : Type} {r : Runner σ} {p s : History} {keys : List Key}
    (h : Follows r p keys) (wf : WellFormed (p ++ s)) :
    Follows (r.applyEvents s) (p ++ s) keys := by
  induction s generalizing r p with
  | nil =>
    rw [List.append_nil]
    exact h
  | cons e s ih =>
    have hlt : r.scan.lastEventId < e.eventId := by
      rw [h.lastEventId]
      exact wf.lastEventId_lt
    have hsplit : p ++ e :: s = (p ++ [e]) ++ s := by simp
    rw [hsplit] at wf ⊢
    rw [r.applyEvents_cons_new hlt]
    exact ih (h.applyOne wf.left) wf

/-- The calls that hand out a future. -/
def Op.isOperation {σ : Type} : Op σ → Bool
  | .scheduleActivity .. | .startTimer _ | .startChildWorkflow .. | .scheduleNexusOperation ..
  | .awaitCancellation => true
  | _ => false

/-- The counters the ids of operations are made of. -/
structure Seqs where
  activity : Nat := 0
  timer : Nat := 0
  child : Nat := 0
  nexus : Nat := 0

def Runner.seqs {σ : Type} (r : Runner σ) : Seqs :=
  ⟨r.activitySeq, r.timerSeq, r.childSeq, r.nexusSeq⟩

def Seqs.next {σ : Type} (n : Seqs) : Op σ → Seqs
  | .scheduleActivity .. => { n with activity := n.activity + 1 }
  | .startTimer _ => { n with timer := n.timer + 1 }
  | .startChildWorkflow .. => { n with child := n.child + 1 }
  | .scheduleNexusOperation .. => { n with nexus := n.nexus + 1 }
  | _ => n

/-- The key of the future a call hands out. -/
def keyAt {σ : Type} (workflowId : String) (n : Seqs) : Op σ → Key
  | .scheduleActivity .. => .activity (toString n.activity)
  | .startTimer _ => .timer ("t" ++ toString n.timer)
  | .startChildWorkflow _ _ options =>
    .child (if options.id.isEmpty then workflowId ++ "_c" ++ toString n.child else options.id)
  | .scheduleNexusOperation .. => .nexus (toString n.nexus)
  | _ => .cancellation

/-- The keys of the futures that `ops` hand out, from the counters on. -/
def keysFrom {σ : Type} (workflowId : String) (n : Seqs) : List (Op σ) → List Key
  | [] => []
  | op :: ops => keyAt workflowId n op :: keysFrom workflowId (n.next op) ops

def Key.childId? : Key → Option String
  | .child id => some id
  | _ => none

/-- Ids made of counters are not used again. -/
def Key.AtLeast (n : Seqs) : Key → Prop
  | .activity id => ∃ k, n.activity ≤ k ∧ id = toString k
  | .timer id => ∃ k, n.timer ≤ k ∧ id = "t" ++ toString k
  | .nexus id => ∃ k, n.nexus ≤ k ∧ id = toString k
  | .child _ | .cancellation => True

theorem Key.AtLeast.mono {m n : Seqs} {k : Key} (h : k.AtLeast n) (ha : m.activity ≤ n.activity)
    (ht : m.timer ≤ n.timer) (hn : m.nexus ≤ n.nexus) : k.AtLeast m := by
  cases k with
  | activity id => obtain ⟨j, hj, rfl⟩ := h; exact ⟨j, ha.trans hj, rfl⟩
  | timer id => obtain ⟨j, hj, rfl⟩ := h; exact ⟨j, ht.trans hj, rfl⟩
  | nexus id => obtain ⟨j, hj, rfl⟩ := h; exact ⟨j, hn.trans hj, rfl⟩
  | child id => trivial
  | cancellation => trivial

theorem keyAt_atLeast {σ : Type} (workflowId : String) (n : Seqs) (op : Op σ) :
    (keyAt workflowId n op).AtLeast n := by
  cases op <;> first
    | exact ⟨_, le_rfl, rfl⟩
    | trivial

theorem keysFrom_atLeast {σ : Type} (workflowId : String) (ops : List (Op σ)) (n : Seqs) :
    ∀ k ∈ keysFrom workflowId n ops, k.AtLeast n := by
  induction ops generalizing n with
  | nil => simp [keysFrom]
  | cons op ops ih =>
    intro k hk
    rcases List.mem_cons.mp hk with rfl | hk
    · exact keyAt_atLeast workflowId n op
    · apply (ih (n.next op) k hk).mono <;> cases op <;> simp [Seqs.next]

/-- Apart from child ids, which a caller may choose, no key comes back. -/
theorem keyAt_not_mem {σ : Type} (workflowId : String) (n : Seqs) (op : Op σ) (ops : List (Op σ))
    (hc : keyAt workflowId n op ≠ .cancellation)
    (hch : ((keysFrom workflowId n (op :: ops)).filterMap Key.childId?).Nodup) :
    keyAt workflowId n op ∉ keysFrom workflowId (n.next op) ops := by
  intro hk
  have hat := keysFrom_atLeast workflowId ops (n.next op) _ hk
  cases op <;> first
    | exact hc rfl
    | skip
  case scheduleActivity =>
    obtain ⟨j, hj, he⟩ := hat
    have := toString_nat_injective he
    simp only [Seqs.next] at hj
    omega
  case startTimer =>
    obtain ⟨j, hj, he⟩ := hat
    have := toString_nat_injective ((String.append_right_inj _).mp he)
    simp only [Seqs.next] at hj
    omega
  case scheduleNexusOperation =>
    obtain ⟨j, hj, he⟩ := hat
    have := toString_nat_injective he
    simp only [Seqs.next] at hj
    omega
  case startChildWorkflow =>
    simp only [keysFrom, keyAt, Key.childId?, List.filterMap_cons, List.nodup_cons] at hch
    exact hch.1 (List.mem_filterMap.mpr ⟨_, hk, rfl⟩)

namespace Runner

variable {σ : Type}

/-- Make calls one after the other. -/
def issue (r : Runner σ) (ops : List (Op σ)) : Runner σ :=
  ops.foldl (fun r op => ((r.exec op).map Prod.fst).getD r) r

/-- One call on a runner whose scan is up to date. -/
theorem exec_issued (r : Runner σ) {op : Op σ} (hop : op.isOperation = true) {keys : List Key}
    (h : Issued r r.scan keys) (hk : keyAt r.info.workflowId r.seqs op ≠ .cancellation →
      keyAt r.info.workflowId r.seqs op ∉ keys) :
    ∃ q, r.exec op = some (q, .future r.futureCount) ∧ q.scan = r.scan ∧ q.info = r.info ∧
      q.seqs = r.seqs.next op ∧ Issued q r.scan (keys ++ [keyAt r.info.workflowId r.seqs op]) := by
  cases op <;> try cases hop
  case scheduleActivity type input options =>
    have hi := h.scheduleActivity (hk (by simp [keyAt])) rfl type input options
    refine ⟨_, rfl, ?_, ?_, ?_, hi⟩ <;> rw [scheduleActivity_eq]
    rfl
  case startTimer duration =>
    have hi := h.startTimer (hk (by simp [keyAt])) rfl duration
    refine ⟨_, rfl, ?_, ?_, ?_, hi⟩ <;> rw [startTimer_eq]
    rfl
  case startChildWorkflow type input options =>
    have hi := h.startChildWorkflow (hk (by simp [keyAt])) rfl type input
    refine ⟨_, rfl, ?_, ?_, ?_, hi⟩ <;> rw [startChildWorkflow_eq]
    rfl
  case scheduleNexusOperation endpoint service operation input close =>
    have hi := h.scheduleNexusOperation (hk (by simp [keyAt])) rfl endpoint service operation
      input close
    refine ⟨_, rfl, ?_, ?_, ?_, hi⟩ <;> rw [scheduleNexusOperation_eq]
    rfl
  case awaitCancellation =>
    refine ⟨_, rfl, ?_, ?_, ?_, h.awaitCancellation rfl⟩ <;> unfold Runner.awaitCancellation <;>
      split <;> rfl

/-- Issuing operations hands out the futures of their keys, as the scan knows them. -/
theorem issue_issued (ops : List (Op σ)) (hops : ∀ op ∈ ops, op.isOperation = true) (r : Runner σ)
    (keys : List Key) (h : Issued r r.scan keys)
    (hfresh : ∀ k ∈ keysFrom r.info.workflowId r.seqs ops, k ≠ .cancellation → k ∉ keys)
    (hch : ((keysFrom r.info.workflowId r.seqs ops).filterMap Key.childId?).Nodup) :
    (r.issue ops).scan = r.scan ∧
      Issued (r.issue ops) r.scan (keys ++ keysFrom r.info.workflowId r.seqs ops) := by
  induction ops generalizing r keys with
  | nil =>
    rw [keysFrom, List.append_nil]
    exact ⟨rfl, h⟩
  | cons op ops ih =>
    obtain ⟨q, hexec, hscan, hinfo, hseqs, hq⟩ :=
      r.exec_issued (hops op List.mem_cons_self) h (hfresh _ List.mem_cons_self)
    have hissue : r.issue (op :: ops) = q.issue ops := by
      simp only [issue, List.foldl_cons, hexec, Option.map_some, Option.getD_some]
    have hnot := keyAt_not_mem r.info.workflowId r.seqs op ops
    rw [hissue]
    have htail := ih (fun x hx => hops x (List.mem_cons_of_mem op hx)) q
      (keys ++ [keyAt r.info.workflowId r.seqs op]) (by rw [hscan]; exact hq)
      (by
        rw [hinfo, hseqs]
        intro k hk hne hmem
        rcases List.mem_append.mp hmem with hmem | hmem
        · exact hfresh k (List.mem_cons_of_mem _ hk) hne hmem
        · rw [List.mem_singleton.mp hmem] at hk hne
          exact hnot hne hch hk)
      (by
        rw [hinfo, hseqs]
        exact List.Nodup.sublist ((List.sublist_cons_self _ _).filterMap _) hch)
    rw [hscan, hinfo, hseqs] at htail
    simpa [keysFrom] using htail

end Runner

/-- The futures a fresh runner hands out for `ops`. -/
theorem Runner.replay_issue_issued {σ : Type} (info : WorkflowInfo) (isReplaying : Bool)
    (world : World σ) (fn : WorkflowFn σ) (h : History) (ops : List (Op σ))
    (hops : ∀ op ∈ ops, op.isOperation = true)
    (hch : ((keysFrom info.workflowId {} ops).filterMap Key.childId?).Nodup) :
    ((replay info isReplaying world fn h).issue ops).scan = scanHistory h ∧
      Issued ((replay info isReplaying world fn h).issue ops) (scanHistory h)
        (keysFrom info.workflowId {} ops) := by
  have hfresh : Issued (replay info isReplaying world fn h) (scanHistory h) [] :=
    ⟨rfl, by simp, by simp [Registers, replay, Runner.new], by simp [Registers, replay, Runner.new],
      by simp [Registers, replay, Runner.new], by simp [Registers, replay, Runner.new],
      by simp [replay, Runner.new], by simp⟩
  exact Runner.issue_issued ops hops _ [] hfresh (by simp) hch

theorem Registers.ext {m m' : PartialMap String Nat} {keys : List Key} {kind : String → Key}
    (h : Registers m keys kind) (h' : Registers m' keys kind) : m = m' := by
  funext id
  apply Option.ext
  intro a
  exact (h id a).trans (h' id a).symm

/-- Futures, signals, cancel flag, schedule maps, Nexus counter and position are the same
whether the whole history is scanned, or a part of it and the rest applied event by event;
and events that have been consumed change nothing. -/
theorem applyEvents_agrees_with_scanHistory {σ : Type} (info : WorkflowInfo) (isReplaying : Bool)
    (world : World σ) (fn : WorkflowFn σ) (h₁ h₂ : History) (ops : List (Op σ))
    (wf : WellFormed (h₁ ++ h₂)) (hu : UpdateFree (h₁ ++ h₂))
    (hops : ∀ op ∈ ops, op.isOperation = true)
    (hch : ((keysFrom info.workflowId {} ops).filterMap Key.childId?).Nodup) :
    let whole := (Runner.replay info isReplaying world fn (h₁ ++ h₂)).issue ops
    let parts := ((Runner.replay info isReplaying world fn h₁).issue ops).applyEvents h₂
    (whole.futureCount = parts.futureCount ∧
      (∀ a < whole.futureCount, whole.futures a = parts.futures a) ∧
      whole.activityFutures = parts.activityFutures ∧ whole.timerFutures = parts.timerFutures ∧
      whole.childFutures = parts.childFutures ∧ whole.nexusFutures = parts.nexusFutures) ∧
    (whole.scan.signals = parts.scan.signals ∧
      whole.scan.cancelRequested = parts.scan.cancelRequested ∧
      whole.scan.schedEventToActivity = parts.scan.schedEventToActivity ∧
      whole.scan.activityToSchedEvent = parts.scan.activityToSchedEvent ∧
      whole.scan.schedEventToNexus = parts.scan.schedEventToNexus ∧
      whole.scan.nexusOpsScheduled = parts.scan.nexusOpsScheduled ∧
      whole.lastEventId = parts.lastEventId) ∧
    ∀ (r : Runner σ) (stale : History), (∀ e ∈ stale, e.eventId ≤ r.lastEventId) →
      r.applyEvents stale = r := by
  intro whole parts
  have hu₁ : UpdateFree h₁ := hu.left
  obtain ⟨hws, hw⟩ := Runner.replay_issue_issued info isReplaying world fn (h₁ ++ h₂) ops hops hch
  obtain ⟨hps, hp⟩ := Runner.replay_issue_issued info isReplaying world fn h₁ ops hops hch
  rw [scanHistory_of_updateFree hu] at hws hw
  rw [scanHistory_of_updateFree hu₁] at hps hp
  have hf : Follows parts (h₁ ++ h₂) (keysFrom info.workflowId {} ops) :=
    Follows.applyEvents ⟨hp, by rw [hps], by rw [hps]⟩ wf
  have hlive : whole.scan.live = parts.scan.live := by rw [hf.live, hws]
  refine ⟨⟨hw.count.trans hf.issued.count.symm, fun a ha => ?_,
    hw.activities.ext hf.issued.activities, hw.timers.ext hf.issued.timers,
    hw.children.ext hf.issued.children, hw.nexus.ext hf.issued.nexus⟩,
    ⟨congrArg LiveState.signals hlive, congrArg LiveState.cancelRequested hlive,
      congrArg LiveState.schedEventToActivity hlive,
      congrArg LiveState.activityToSchedEvent hlive, congrArg LiveState.schedEventToNexus hlive,
      congrArg LiveState.nexusOpsScheduled hlive, ?_⟩,
    fun r stale hstale => r.applyEvents_of_stale hstale⟩
  · have hlt : a < (keysFrom info.workflowId {} ops).length := hw.count ▸ ha
    have hk := List.getElem?_eq_getElem hlt
    rw [hw.heap a _ hk, hf.issued.heap a _ hk]
  · change whole.scan.lastEventId = parts.scan.lastEventId
    rw [hf.lastEventId, hws]

/-- A task that schedules an activity and a timer, and the events of the next one. -/
def scheduledPart : History :=
  [⟨1, .workflowExecutionStarted "Greeting" [] []⟩, ⟨2, .other⟩, ⟨3, .other⟩, ⟨4, .other⟩,
    ⟨5, .activityTaskScheduled "0" "Greet"⟩, ⟨6, .timerStarted "t0"⟩]

def resolvedPart : History :=
  [⟨7, .timerFired "t0"⟩, ⟨8, .workflowExecutionSignaled "nudge" []⟩,
    ⟨9, .activityTaskFailed 5 { message := "no", type := "Refused" }⟩, ⟨10, .other⟩, ⟨11, .other⟩]

def activityAndTimer (h : History) : Runner Unit :=
  (Runner.replay {} true (.plain .tagged) ⟨(), fun _ _ => .isCancelled⟩ h).issue
    [.scheduleActivity "Greet" [] {}, .startTimer 1000000000]

theorem applyEvents_agrees_on_resolvedPart :
    WellFormed (scheduledPart ++ resolvedPart) ∧ UpdateFree (scheduledPart ++ resolvedPart) ∧
      ((activityAndTimer scheduledPart).futures 0).ready = false ∧
      ((activityAndTimer (scheduledPart ++ resolvedPart)).futures 0).failureType = "Refused" ∧
      (activityAndTimer (scheduledPart ++ resolvedPart)).futures 0 =
        ((activityAndTimer scheduledPart).applyEvents resolvedPart).futures 0 := by
  have hwf : WellFormed (scheduledPart ++ resolvedPart) := by decide +kernel
  have hu : UpdateFree (scheduledPart ++ resolvedPart) := by decide +kernel
  have h := applyEvents_agrees_with_scanHistory {} true (.plain .tagged)
    ⟨(), fun _ _ => .isCancelled⟩ scheduledPart resolvedPart
    [.scheduleActivity "Greet" [] {}, .startTimer 1000000000] hwf hu (by simp [Op.isOperation])
    List.nodup_nil
  exact ⟨hwf, hu, by decide +kernel, by decide +kernel, h.1.2.1 0 (by decide +kernel)⟩

end TemporalSdk
