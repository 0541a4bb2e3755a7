import TemporalSdk.Worlds

/-! The record of an execution, replayed from scratch: the replay comes by where the execution
stood, with nothing left to send, and runs none of the functions whose outcome is on record. -/
namespace TemporalSdk
open StateTransition (Reaches)

variable {σ : Type}

section Following

/-- `b` is where the record of `h` ends, but for the event that closes the execution. -/
structure RecordEnds (s : Setting σ) (h : History) (b : Progress σ) : Prop where
  reaches : Reaches (Progress.step s (scanAll h)) s.start b
  records : b.events <+: History.commandEvents h
  markers : markersOf (History.commandEvents h) = markersOf b.events
  wellFormed : WellFormed h
  updateFree : UpdateFree h
  follows : h.RequestsFollow

namespace RecordEnds

variable {s : Setting σ} {h : History} {b c c' : Progress σ}

theorem length_le (hr : RecordEnds s h b) : b.issued.length ≤ (History.commandEvents h).length := by
  rw [← b.length_events]
  exact hr.records.length_le

theorem lt_of_issues (hr : RecordEnds s h b) (hb : Reaches (Progress.step s (scanAll h)) c' b)
    {a : EventAttributes} (ha : c'.events = c.events ++ [a]) :
    c.issued.length < (History.commandEvents h).length := by
  have hle := ((Progress.reaches_events hb).trans hr.records).length_le
  rw [ha, List.length_append, List.length_singleton, c.length_events] at hle
  omega

theorem guards (hr : RecordEnds s h b) (hb : Reaches (Progress.step s (scanAll h)) c' b)
    {a : EventAttributes} (ha : c'.events = c.events ++ [a]) :
    Guards (scanAll h) (History.commandEvents h).length c a :=
  .of_recorded (scanAll_recorded h) (ha ▸ (Progress.reaches_events hb).trans hr.records)

theorem anchored (hr : RecordEnds s h b) (hc : s.world.converter.RoundTrips)
    (hs : c.step s (scanAll h) = some c') (hb : Reaches (Progress.step s (scanAll h)) c' b) :
    Anchored s (scanAll h) (History.commandEvents h).length c c' :=
  .of_recorded hc hr.length_le ((scanAll_markers h).trans hr.markers)
    ((Progress.start_versioned s).reaches hc hr.reaches) (Progress.step_marks hc hs)
    (Progress.reaches_marks hc hb) (Progress.reaches_events (hb.head hs))
    (Progress.reaches_events hb)

/-- On record, a version is not asked of the runner. -/
theorem dated (hr : RecordEnds s h b) (hc : s.world.converter.RoundTrips)
    (hs : c.step s (scanAll h) = some c') (hb : Reaches (Progress.step s (scanAll h)) c' b)
    {base sent : Nat} {q : Runner σ} (hq : Carries s (scanAll h) base sent q c)
    (hm : Marks s q c) (hscan : q.scan = scanAll h) : q.Dated := by
  intro x hx _
  rw [hq.program, hq.trace] at hx
  have hstep := Progress.step_marks hc hs
  rw [hm.versions x.1 (hstep.fresh x hx), hscan, Anchored.version_recorded hc
    ((scanAll_markers h).trans hr.markers) ((Progress.start_versioned s).reaches hc hr.reaches)
    hstep (Progress.reaches_marks hc hb) hx]
  rfl

/-- Every call of a mutable side effect is followed by one that changes the value, or is one. -/
def LastChanges (s : Setting σ) (b : Progress σ) : Prop :=
  ∀ id n, b.mseCallCount id = some n →
    ∃ p ∈ b.changes s.world.converter id, p.1 + 1 = (n : Int)

/-- A call of a mutable side effect before the last change of its id. -/
theorem change_ahead (hr : RecordEnds s h b) (hc : s.world.converter.RoundTrips)
    (hl : LastChanges s b) (hcr : Reaches (Progress.step s (scanAll h)) s.start c)
    (hb : Reaches (Progress.step s (scanAll h)) c' b)
    (hcb : Reaches (Progress.step s (scanAll h)) c b) {id : String}
    (hcalls : c'.mseCallCount id = some ((c.mseCallCount id).getD 0 + 1)) :
    ((Runner.changes s.world.converter id (scanAll h).mutableSideEffectMarkers)[
      (c.changes s.world.converter id).length]?).isSome = true := by
  have hmark : Runner.changes s.world.converter id (scanAll h).mutableSideEffectMarkers =
      b.changes s.world.converter id := by
    rw [Progress.changes, ← (scanAll_markers h).trans hr.markers]
    rfl
  have hmore := (Progress.reaches_marks hc hb).calls id
  rw [hcalls, Option.getD_some] at hmore
  obtain ⟨n, hn⟩ : ∃ n, b.mseCallCount id = some n := by
    cases hcount : b.mseCallCount id with
    | none =>
      rw [hcount, Option.getD_none] at hmore
      omega
    | some n => exact ⟨n, rfl⟩
  rw [hn, Option.getD_some] at hmore
  obtain ⟨p, hp, hlast⟩ := hl id n hn
  -- the last change is not among those made so far
  obtain ⟨made, hmade, hmadelt⟩ := (Progress.reaches_marks hc hcr).changes id
  have hstart : s.start.changes s.world.converter id = [] := rfl
  rw [hstart, List.nil_append] at hmade
  obtain ⟨later, hlater, -⟩ := (Progress.reaches_marks hc hcb).changes id
  rw [hlater, List.mem_append] at hp
  have hmem : p ∈ later := by
    refine hp.resolve_left fun hp => ?_
    have := (hmadelt p (hmade ▸ hp)).2
    omega
  rw [hmark, hlater, List.getElem?_append_right le_rfl, Nat.sub_self]
  cases later with
  | nil => cases hmem
  | cons p' later => rfl

/-- On record, no function is run. -/
theorem onRecord (hr : RecordEnds s h b) (hc : s.world.converter.RoundTrips)
    (hcr : Reaches (Progress.step s (scanAll h)) s.start c)
    (hs : c.step s (scanAll h) = some c') (hb : Reaches (Progress.step s (scanAll h)) c' b)
    {base sent : Nat} {q : Runner σ} (hq : Carries s (scanAll h) base sent q c)
    (hm : Marks s q c) (hscan : q.scan = scanAll h) {w : World σ}
    (hw : w.mutableSideEffectFn = s.world.mutableSideEffectFn ∨ LastChanges s b) :
    q.AlikeIn w (q.program q.trace) := by
  have hevents : ∀ a, c'.events = c.events ++ [a] →
      c.issued.length < (History.commandEvents h).length ∧
        Guards (scanAll h) (History.commandEvents h).length c a :=
    fun a ha => ⟨hr.lt_of_issues hb ha, hr.guards hb ha⟩
  have hout : c.outcome = none := by
    rw [← Option.not_isSome_iff_eq_none]
    intro hsome
    rw [Progress.step, if_pos hsome] at hs
    cases hs
  have hcb : Reaches (Progress.step s (scanAll h)) c b := hb.head hs
  rw [hq.program, hq.trace]
  rw [Progress.step, hout, Option.isSome_none, if_neg Bool.false_ne_true] at hs
  cases hop : s.program c.trace with
  | sideEffect =>
    have hseq : q.sideEffectSeq = c.sideEffectSeq := congrArg Ordinals.sideEffect hq.ordinals
    simp only [hop, Op.outcome?, Progress.exec] at hs
    split at hs
    · next v _ =>
      cases hs
      obtain ⟨hlt, hg⟩ := hevents _ (c.issue_events _)
      have hrec := hg.sideEffects (s.world.converter.toPayload v) (by
        simp [Command.event, EventAttributes.sideEffect?, Runner.sideEffectDetails,
          List.lookup_cons])
      rw [if_pos hlt] at hrec
      refine .inl ?_
      rw [hscan, hseq, hrec]
      rfl
    · cases hs
  | executeLocalActivity type input options =>
    have hseq : q.localActivitySeq = c.localActivitySeq :=
      congrArg Ordinals.localActivity hq.ordinals
    simp only [hop, Op.outcome?, Progress.exec, Option.map_map] at hs
    obtain ⟨fn, -, hfn⟩ := Option.map_eq_some_iff.mp hs
    subst hfn
    obtain ⟨hlt, hg⟩ := hevents _ (c.issue_events _)
    have hrec := hg.localActivities _ (by
      simp only [Command.event, EventAttributes.localActivity?, if_true]
      rfl)
    rw [if_pos hlt] at hrec
    refine .inl ?_
    rw [hscan, hseq, hrec]
    rfl
  | mutableSideEffect id equals =>
    rcases hw with hw | hw
    · exact .inr (by rw [hw, hq.world])
    · refine .inl ?_
      rw [Carries.mse_next hm id, hscan]
      simp only [hop, Op.outcome?, Progress.exec] at hs
      split at hs
      · next v _ =>
        cases hs
        exact hr.change_ahead hc hw hcr hb hcb
          (by rw [Progress.mutable_calls, PartialMap.insert_self])
      · cases hs
  | _ => trivial

/-- A fresh runner follows its body to the end of the record, in every world with the same
code. -/
theorem follow (hr : RecordEnds s h b) (hc : s.world.converter.RoundTrips) {r : Runner σ}
    (hcar : Carries s (scanAll h) (History.commandEvents h).length 0 r s.start)
    (hmarks : Marks s r s.start) (hscan : r.scan = scanAll h) {w : World σ}
    (hsame : s.world.SameCode w)
    (hw : w.mutableSideEffectFn = s.world.mutableSideEffectFn ∨ LastChanges s b)
    (hcr : Reaches (Progress.step s (scanAll h)) s.start c)
    (hcb : Reaches (Progress.step s (scanAll h)) c b) :
    ∃ q, Reaches Runner.step (r.inWorld w) (q.inWorld w) ∧
      Carries s (scanAll h) (History.commandEvents h).length 0 q c ∧ Marks s q c ∧
      q.scan = scanAll h := by
  induction hcr with
  | refl => exact ⟨r, .refl, hcar, hmarks, hscan⟩
  | @tail x y hx hy ih =>
    have hstep : x.step s (scanAll h) = some y := hy
    obtain ⟨q, hq, hqx, hm, hqscan⟩ := ih (hcb.head hy)
    have hrequest := RequestGuards.of_recorded hr.wellFormed hr.updateFree hr.follows hstep
      ((Progress.reaches_events hcb).trans hr.records)
    have hrel := hqx.step hm ((Progress.start_ordered s).reaches hx) hc
      (Progress.redoes_of_step hstep) (hqscan.symm ▸ hrequest)
      (hr.dated hc hstep hcb hqx hm hqscan)
      (fun y' a hy' ha => by
        cases Option.some.inj (hstep.symm.trans hy')
        exact hqscan ▸ hr.guards hcb ha)
      (fun y' hy' => by
        cases Option.some.inj (hstep.symm.trans hy')
        exact hqscan ▸ hr.anchored hc hstep hcb)
    have hon := hr.onRecord hc hx hstep hcb hqx hm hqscan hw
    have hrewired := Runner.step_inWorld (hqx.world ▸ hsame) hon
    rw [hstep] at hrel
    generalize hqs : q.step = z at hrel hrewired
    cases hrel with
    | @some q' _ hq' =>
      exact ⟨q', hq.tail hrewired, hq'.1, hq'.2, (Runner.step_scan hqs).trans hqscan⟩

end RecordEnds
end Following

section Arriving

variable {info : WorkflowInfo} {world : World σ} {fn : WorkflowFn σ} {s : Setting σ}
  {evicted : Nat → Bool} {n : Nat} {first : Bool}

/-- A task leaves the body where its commands end, and has produced what came since the record, or
since the start. -/
theorem Course.arrivesAt {past : History} {b : Progress σ} {hs : List History}
    {bs : List (Progress σ)} {rs : List (Runner σ)} (hcourse : Course info world fn s past b hs bs)
    (hall : ServesAll s evicted n first past b hs bs rs) (hc : s.world.converter.RoundTrips)
    (ho : b.Regular s) {i : Nat} {r : Runner σ} (hr : rs[i]? = some r) :
    ∃ b', bs[i]? = some b' ∧ Cached s (past ++ (hs.take (i + 1)).flatten) b' r ∧ b'.Regular s ∧
      b'.events = History.commandEvents (past ++ (hs.take (i + 1)).flatten) ++
        r.commands.map Command.event ∧
      r.producedCommands = b'.produced.drop (if evicted (n + i) || (first && i == 0) then 0
        else (History.commandEvents (past ++ (hs.take (i + 1)).flatten)).length) := by
  induction hall generalizing i with
  | nil past b => cases hr
  | @cons n first past b h b' r' hs bs rs hserves hrest ih =>
    cases hcourse with
    | cons setting wf hu records isOpen follows redoes requests comesBy waits rest =>
      rw [List.take_succ_cons, List.flatten_cons, ← List.append_assoc]
      cases i with
      | zero =>
        obtain rfl : r' = r := Option.some.inj hr
        have hpre := Progress.reaches_events (StateTransition.mem_eval.mp waits).1
        rw [List.take_zero, List.flatten_nil, List.append_nil]
        refine ⟨b', rfl, hserves.cached, ho.eval hc waits, ?_, ?_⟩
        · rw [records, hserves.commands, List.map_drop, ← b.length_events]
          exact (List.prefix_iff_eq_append.mp hpre).symm
        · rw [records, b.length_events, beq_self_eq_true, Bool.and_true]
          exact hserves.produced
      | succ i =>
        obtain ⟨c, hc', hcached, hregular, hevents, hprod⟩ := ih rest (ho.eval hc waits) hr
        refine ⟨c, hc', hcached, hregular, hevents, ?_⟩
        rw [Nat.add_right_comm, Bool.false_and, Bool.or_false] at hprod
        rwa [← Nat.add_assoc, beq_false_of_ne i.succ_ne_zero, Bool.and_false, Bool.or_false]

theorem ServesAll.length_eq {past : History} {b : Progress σ} {hs : List History}
    {bs : List (Progress σ)} {rs : List (Runner σ)} 
    (h : ServesAll s evicted n first past b hs bs rs) :
    rs.length = hs.length ∧ rs.length = bs.length := by
  induction h with
  | nil past b => exact ⟨rfl, rfl⟩
  | cons _ _ ih =>
    simp only [List.length_cons, Nat.add_right_cancel_iff]
    exact ih

/-- The last task leaves the body where its commands end. -/
theorem Course.arrives {past : History} {b : Progress σ} {hs : List History}
    {bs : List (Progress σ)} {rs : List (Runner σ)} (hcourse : Course info world fn s past b hs bs)
    (hall : ServesAll s evicted n first past b hs bs rs) (hc : s.world.converter.RoundTrips)
    (ho : b.Regular s) {r : Runner σ} (hr : rs.getLast? = some r) :
    Cached s (past ++ hs.flatten) (bs.getLastD b) r ∧ (bs.getLastD b).Regular s ∧
      (bs.getLastD b).events =
        History.commandEvents (past ++ hs.flatten) ++ r.commands.map Command.event := by
  obtain ⟨hlen, hlen'⟩ := hall.length_eq
  have hpos : 0 < rs.length := List.length_pos_of_mem (List.mem_of_getLast? hr)
  rw [List.getLast?_eq_getElem?] at hr
  obtain ⟨b', hb', hcached, hregular, hevents, -⟩ := hcourse.arrivesAt hall hc ho hr
  have hall' : hs.take (rs.length - 1 + 1) = hs := List.take_of_length_le (by omega)
  have hlast : bs.getLastD b = b' := by
    rw [List.getLastD_eq_getLast?, List.getLast?_eq_getElem?, ← hlen', hb', Option.getD_some]
  rw [hall', ← hlast] at hcached hevents
  exact ⟨hcached, hlast ▸ hregular, hevents⟩

/-- What the body has produced are its commands, with the one that ends the execution. -/
theorem Progress.produced_eq (b : Progress σ) (s : Setting σ) :
    b.produced =
      entriesFrom 0 (b.events ++ ((b.terminalCommand s).map Command.event).toList) := by
  rw [entriesFrom_append, Nat.zero_add, Progress.produced]
  congr 1
  cases ht : b.terminalCommand s with
  | none =>
    rw [Progress.terminalCommand] at ht
    cases ho : b.outcome with
    | none => rfl
    | some o =>
      rw [ho] at ht
      cases o with
      | otherException => rfl
      | _ => cases ht
  | some c =>
    obtain ⟨o, ho, hterm⟩ := Option.bind_eq_some_iff.mp ht
    rw [ho]
    cases o <;> cases hterm <;> rfl

/-- The command that ends the execution requests nothing. -/
theorem Progress.request_of_closing (b : Progress σ) {sid : Nat}
    (h : .activityTaskCancelRequested sid ∈
      b.events ++ ((b.terminalCommand s).map Command.event).toList) :
    .activityTaskCancelRequested sid ∈ b.events := by
  rcases List.mem_append.mp h with h | h
  · exact h
  · obtain ⟨c, hc, hevent⟩ := Option.map_eq_some_iff.mp (Option.mem_toList.mp h)
    obtain ⟨o, -, hterm⟩ := Option.bind_eq_some_iff.mp hc
    cases o <;> cases hterm <;> cases hevent

theorem Progress.terminalCommand_unmarked {b : Progress σ} {c : Command}
    (h : b.terminalCommand s = some c) (wid : String) {l : List EventAttributes}
    (hl : Sequenced wid l) :
    markersOf [c.event] = ⟨[], []⟩ ∧ Sequenced wid (l ++ [c.event]) := by
  obtain ⟨o, -, hterm⟩ := Option.bind_eq_some_iff.mp h
  cases o <;> cases hterm <;> exact ⟨rfl, hl.concat nofun nofun nofun rfl⟩

end Arriving

section Recorded

variable (fuel : Nat) (info : WorkflowInfo) (world : World σ) (fn : WorkflowFn σ)
  (evicted : Nat → Bool)

/-- An execution in tasks, and the history the server has of it: `last` holds the commands of the
last task, the event that closed the execution if it is closed, and whatever has come in since.
`r` is the runner as it served the last task. No update is accepted and no handler runs, so that
only the body's own operations leave a mark. -/
structure Recording (batches : List History) (last : History) (r : Runner σ) : Prop where
  roundTrips : world.converter.RoundTrips
  served : Served (batches ++ [last]).flatten
  updateFree : UpdateFree (batches ++ [last]).flatten
  started : ∀ h ∈ (batches ++ [last]).tail, ∀ e ∈ h, e.attributes.isStarted = false
  recorded : RecordedBy (Runner.tasks fuel info world fn evicted batches) batches
  live : ∀ q ∈ Runner.tasks fuel info world fn evicted batches, q.deadlocked = false
  final : (Runner.tasks fuel info world fn evicted batches).getLast? = some r
  closing : History.commandEvents last =
    r.commands.map Command.event ++ (r.terminalCommand.map Command.event).toList

variable {fuel info world fn evicted} in
/-- A concrete execution, from what the server saw of it. -/
theorem Recording.of_reports {batches : List History} {last : History} {r : Runner σ}
    {reports : List (List EventAttributes × Option Command × Bool)}
    (hc : world.converter.RoundTrips) (hserved : Served (batches ++ [last]).flatten)
    (hu : UpdateFree (batches ++ [last]).flatten)
    (hstart : ∀ h ∈ (batches ++ [last]).tail, ∀ e ∈ h, e.attributes.isStarted = false)
    (hr : (Runner.tasks fuel info world fn evicted batches).map Runner.report = reports)
    (hfirst : ∀ h ∈ batches.head?, History.commandEvents h = [])
    (hnext : ∀ x ∈ reports.zip batches.tail, x.1.2.1 = none ∧ History.commandEvents x.2 = x.1.1)
    (hlive : ∀ x ∈ reports, x.2.2 = false)
    (hlast : ∀ x ∈ reports.getLast?,
      History.commandEvents last = x.1 ++ (x.2.1.map Command.event).toList)
    (hfinal : (Runner.tasks fuel info world fn evicted batches).getLast? = some r) :
    Recording fuel info world fn evicted batches last r where
  roundTrips := hc
  served := hserved
  updateFree := hu
  started := hstart
  recorded := .of_reports hr hfirst hnext
  live := Runner.live_of_reports hr hlive
  final := hfinal
  closing := hlast r.report (by rw [← hr, List.getLast?_map, hfinal]; rfl)

/-- A runner about to replay a history from scratch. -/
def Runner.fresh (isReplaying : Bool) (h : History) : Runner σ :=
  { Runner.replay info isReplaying world fn h with
    commands := [], producedCommands := [], started := true }

/-- A replay that stands where the execution stood: with the same answers behind it, nothing to
send, and the commands on record produced, each in its place. Wherever it goes on from here, it
passes the determinism check. -/
structure Recalls (r q : Runner σ) : Prop where
  trace : q.trace = r.trace
  store : q.store = r.store
  done : q.done = r.done
  terminalCommand : q.terminalCommand = r.terminalCommand
  commands : q.commands = []
  producedCommands : q.producedCommands = q.scan.commands
  accepted : ∀ q', Reaches Runner.step q q' → q'.checkDeterminism = none

end Recorded

section Recalling

theorem Runner.step_producedCommands {r r' : Runner σ} (h : r.step = some r') :
    r.producedCommands <+: r'.producedCommands := by
  unfold Runner.step at h
  split at h
  · cases h
  · split at h
    · next o _ =>
      cases h
      cases o <;> first
        | exact List.prefix_append _ _
        | exact List.prefix_rfl
    · obtain ⟨x, hx, rfl⟩ := Option.map_eq_some_iff.mp h
      exact (r.exec_frame hx).producedCommands

/-- A replay that has produced the record is accepted whatever it does next. -/
theorem Runner.checkDeterminism_of_produced {q q' : Runner σ}
    (h : q.producedCommands = q.scan.commands) (hr : Reaches Runner.step q q') :
    q'.checkDeterminism = none := by
  have hgrows : q.producedCommands <+: q'.producedCommands ∧ q'.scan = q.scan := by
    induction hr with
    | refl => exact ⟨List.prefix_rfl, rfl⟩
    | tail _ hs ih =>
      exact ⟨ih.1.trans (Runner.step_producedCommands hs), (Runner.step_scan hs).trans ih.2⟩
  apply matchReplayCommands_of_isPrefix
  rw [hgrows.2, ← h]
  exact hgrows.1

variable {fuel : Nat} {info : WorkflowInfo} {world : World σ} {fn : WorkflowFn σ}
  {evicted : Nat → Bool} {batches : List History} {last : History} {r : Runner σ}

/-- The body as the execution left it. -/
structure Ends (s : Setting σ) (past h : History) (b : Progress σ) (r : Runner σ) : Prop
    extends RecordEnds s h b where
  cached : Cached s past b r
  versioned : b.Versioned s
  closing : History.commandEvents h =
    b.events ++ ((b.terminalCommand s).map Command.event).toList

theorem Recording.ends (h : Recording fuel info world fn evicted batches last r)
    (hop : Runner.Throughout fuel info world fn Runner.Repeats evicted 0 [] none batches)
    (hund : Runner.UndisturbedAll fuel info world fn evicted 0 [] none (batches ++ [last])) :
    ∃ b, Ends (.ofHistory info world fn (batches ++ [last]).flatten) batches.flatten
      (batches ++ [last]).flatten b r := by
  have hset : ∀ pre, pre <+: batches ++ [last] → pre ≠ [] →
      Setting.ofHistory info world fn ((batches ++ [last]).headD []) =
        .ofHistory info world fn ([] ++ pre.flatten) :=
    fun pre hpre hne => Setting.ofHistory_headD h.started hpre hne
  have hwhole := hset _ List.prefix_rfl (by simp)
  rw [List.nil_append] at hwhole
  rw [← hwhole]
  set s : Setting σ := .ofHistory info world fn ((batches ++ [last]).headD [])
  obtain ⟨bs, hcourse, hall, hlast, hfollow, hnames⟩ := Course.of_serveAll [last]
    (Progress.start_regular s) h.roundTrips (hop.imp fun _ => Runner.Repeats.redoes)
    (.of_repeats hop) hund hset h.served h.updateFree (fun _ _ _ => .refl)
    (fun r hr => absurd hr (Option.not_mem_none r)) nofun nofun
    (fun p hp => ⟨rfl, h.recorded.first p hp⟩) h.recorded.next h.live
  obtain ⟨hcached, hregular, hevents⟩ := hcourse.arrives hall h.roundTrips
    (Progress.start_regular s) h.final
  rw [List.nil_append] at hcached hevents
  rw [List.nil_append] at hfollow hnames
  generalize bs.getLastD s.start = b at hlast hcached hregular hevents hnames
  obtain ⟨_, _, hcar⟩ := hcached.carries
  have hclosing : History.commandEvents (batches ++ [last]).flatten =
      b.events ++ ((b.terminalCommand s).map Command.event).toList := by
    rw [List.flatten_append, List.flatten_singleton, History.commandEvents_append, h.closing,
      hcar.terminalCommand, hevents, List.append_assoc]
  have hterminal : markersOf (b.events ++ ((b.terminalCommand s).map Command.event).toList) =
      markersOf b.events ∧ Sequenced s.info.workflowId
        (b.events ++ ((b.terminalCommand s).map Command.event).toList) := by
    cases ht : b.terminalCommand s with
    | none =>
      rw [Option.map_none, Option.toList_none, List.append_nil]
      exact ⟨rfl, hregular.sequenced⟩
    | some c =>
      obtain ⟨hmark, hseq⟩ := Progress.terminalCommand_unmarked ht _ hregular.sequenced
      refine ⟨?_, hseq⟩
      rw [markersOf_append, Option.map_some, Option.toList_some, hmark, List.append_nil,
        List.append_nil]
  have wf := h.served.wellFormed (hclosing ▸ hterminal.2)
  have hfollow' : History.RequestsFollow (batches ++ [last]).flatten := by
    intro e he sid ha
    have hmem : .activityTaskCancelRequested sid ∈
        b.events ++ ((b.terminalCommand s).map Command.event).toList := by
      rw [← hclosing, ← ha]
      exact List.mem_filter.mpr ⟨List.mem_map_of_mem he, by rw [ha]; rfl⟩
    rw [List.flatten_append, List.flatten_singleton] at he wf
    rcases List.mem_append.mp he with he' | he'
    · exact hfollow e he' sid ha
    · obtain ⟨e', hpast, rfl⟩ := hnames sid (b.request_of_closing hmem)
      exact (List.pairwise_append.mp wf.increasing).2.2 e' hpast e he'
  exact ⟨b,
    { reaches := hlast [last] List.prefix_rfl wf
      wellFormed := wf
      updateFree := h.updateFree
      follows := hfollow'
      records := hclosing ▸ List.prefix_append _ _
      markers := hclosing ▸ hterminal.1
      cached := hcached
      versioned := hregular.toVersioned
      closing := hclosing }⟩

/-- What is on record for the determinism check is what the body has produced. -/
theorem Ends.produced {s : Setting σ} {past h : History} {b : Progress σ} (he : Ends s past h b r) :
    b.produced = (scanAll h).commands := by
  rw [(scanAll_recorded h).commands, he.closing, b.produced_eq s]

/-- The record of an execution is replayed from scratch to where the execution stood, whatever the
functions behind its side effects and local activities would do now. -/
theorem Recording.recalls (h : Recording fuel info world fn evicted batches last r)
    {b : Progress σ}
    (he : Ends (.ofHistory info world fn (batches ++ [last]).flatten) batches.flatten
      (batches ++ [last]).flatten b r)
    {w : World σ} (hsame : world.SameCode w)
    (hw : w.mutableSideEffectFn = world.mutableSideEffectFn ∨ RecordEnds.LastChanges
      (.ofHistory info world fn (batches ++ [last]).flatten) b) (isReplaying : Bool) :
    ∃ q, Reaches Runner.step (Runner.fresh info w fn isReplaying (batches ++ [last]).flatten)
        (q.inWorld w) ∧
      Recalls r (q.inWorld w) ∧
      Marks (.ofHistory info world fn (batches ++ [last]).flatten) q b ∧
      q.scan = scanAll (batches ++ [last]).flatten := by
  set s : Setting σ := .ofHistory info world fn (batches ++ [last]).flatten
  have hfresh : Runner.fresh info w fn isReplaying (batches ++ [last]).flatten =
      (Runner.fresh info world fn isReplaying (batches ++ [last]).flatten).inWorld w := by
    simp only [Runner.fresh, Runner.replay, Runner.new, Runner.inWorld, Runner.chain,
      hsame.converter, hsame.interceptors]
  obtain ⟨q, hreach, hcar, hmarks, hscan⟩ := he.toRecordEnds.follow h.roundTrips
    (Carries.replay isReplaying h.updateFree _) (Marks.replay isReplaying)
    (scanHistory_of_updateFree h.updateFree) hsame hw he.reaches .refl
  obtain ⟨_, _, hlive⟩ := he.cached.carries
  have hproduced : q.producedCommands = q.scan.commands := by
    rw [hcar.producedCommands, List.drop_zero, he.produced, hscan]
  refine ⟨q, hfresh ▸ hreach, ?_, hmarks, hscan⟩
  exact
    { trace := hcar.trace.trans hlive.trace.symm
      store := hcar.store.trans hlive.store.symm
      done := hcar.done.trans hlive.done.symm
      terminalCommand := hcar.terminalCommand.trans hlive.terminalCommand.symm
      commands := hcar.commands.trans (List.drop_eq_nil_of_le he.toRecordEnds.length_le)
      producedCommands := hproduced
      accepted := fun _ hr =>
        Runner.checkDeterminism_of_produced (q := q.inWorld w) hproduced hr }

end Recalling
end TemporalSdk
