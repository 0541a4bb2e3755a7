import TemporalSdk.TaskInvariant

/-! The calls whose outcomes are kept in markers and found again by their ordinal, whatever else
the body does: `SideEffect` and `ExecuteLocalActivity`. No update handler makes any, whose marker
would be lost. -/
namespace TemporalSdk
open StateTransition (Reaches)

variable {σ : Type}

/-- The event of a marker of this name. -/
def EventAttributes.isMarker (name : String) : EventAttributes → Bool
  | .markerRecorded n _ => n == name
  | _ => false

theorem Command.isMarker_event (name : String) (c : Command) :
    c.event.isMarker name = true ↔ c.call = .marker name := by
  cases c with
  | recordMarker n details =>
    simp only [Command.event, EventAttributes.isMarker, beq_iff_eq, Command.call,
      CallKind.marker.injEq]
  | requestCancelExternalWorkflowExecution ns id childOnly =>
    cases childOnly <;> simp [Command.event, EventAttributes.isMarker, Command.call]
  | _ => simp [Command.event, EventAttributes.isMarker, Command.call]

/-- The check sees as many entries of a marker as there are events of it. -/
theorem count_entriesFrom (name : String) (n : Nat) (as : List EventAttributes) :
    (entriesFrom n as).count ⟨.marker, name, ""⟩ = as.countP (·.isMarker name) := by
  refine countP_entriesFrom (fun a m => ?_) n as
  cases a <;> simp [EventAttributes.entry, EventAttributes.isMarker]

/-- A kind of call whose outcome is kept in a marker: the call with ordinal `n` reads the `n`-th
marker, and beyond the record it runs and writes one. -/
structure MarkedCall (σ : Type) where
  Datum : Type
  marker : String
  seq : Ordinals → Nat
  recorded : Prescan → List Datum
  datum? : EventAttributes → Option Datum
  answer : DataConverter → Datum → Resp σ
  /-- Beyond the record, the call comes to an outcome that can be recorded. -/
  Succeeds : Runner σ → Op σ → Prop
  seq_fresh : seq ⟨0, 0, 0, 0, 0, 0, 0, 0⟩ = 0
  scanned : ∀ h, recorded (scanAll h) = (History.commandEvents h).filterMap datum?
  applied : ∀ (r : Runner σ) e, recorded (r.applyOne e).scan = recorded r.scan
  marks : ∀ c : Command, c.call ≠ .marker marker → datum? c.event = none
  other : ∀ {r r' : Runner σ} {op resp}, op.call? ≠ some (.marker marker) →
    r.exec op = some (r', resp) → seq r'.ordinals = seq r.ordinals
  called : ∀ {r r' : Runner σ} {op resp}, op.call? = some (.marker marker) →
    r.exec op = some (r', resp) → seq r'.ordinals = seq r.ordinals + 1 ∧
      r'.producedCommands = r.producedCommands ++ [⟨.marker, marker, ""⟩]
  recalled : ∀ {r r' : Runner σ} {op resp} {x : Datum}, r.world.converter.RoundTrips →
    op.call? = some (.marker marker) → r.exec op = some (r', resp) →
    (recorded r.scan)[seq r.ordinals]? = some x →
    r'.commands = r.commands ∧ resp = answer r.world.converter x
  made : ∀ {r r' : Runner σ} {op resp}, r.world.converter.RoundTrips →
    op.call? = some (.marker marker) → r.exec op = some (r', resp) →
    (recorded r.scan)[seq r.ordinals]? = none → Succeeds r op →
    ∃ c x, r'.commands = r.commands ++ [c] ∧ datum? c.event = some x ∧
      resp = answer r.world.converter x

namespace MarkedCall

variable (M : MarkedCall σ) {c : DataConverter} {past : List EventAttributes} {r r' : Runner σ}

/-- The answers a runner has given to the calls of its body. -/
def answers (r : Runner σ) : List (Resp σ) :=
  r.program.answersTo (fun op => op.call? = some (.marker M.marker)) r.trace

/-- What the markers hold, those on record before the task and those it adds. -/
def data (past : List EventAttributes) (r : Runner σ) : List M.Datum :=
  (past ++ r.commands.map Command.event).filterMap M.datum?

/-- The events of markers of this kind. -/
def marked (past : List EventAttributes) (r : Runner σ) : Nat :=
  (past ++ r.commands.map Command.event).countP (·.isMarker M.marker)

/-- The entries of this kind the runner has produced. -/
def entered (r : Runner σ) : Nat := r.producedCommands.count ⟨.marker, M.marker, ""⟩

/-- A call that is not on record comes to an outcome that can be recorded. -/
def Returns (r : Runner σ) : Prop :=
  (r.program r.trace).call? = some (.marker M.marker) →
    (M.recorded r.scan)[M.seq r.ordinals]? = none → M.Succeeds r (r.program r.trace)

/-- What a step leaves as it is. -/
structure Keeps (r r' : Runner σ) : Prop where
  scan : r'.scan = r.scan
  world : r'.world = r.world

/-- The step adds no marker of this kind. -/
def Silent (r r' : Runner σ) : Prop :=
  ∀ past, M.data past r' = M.data past r ∧ M.marked past r' = M.marked past r

/-- The step answers a call with `resp`. -/
structure Answers (resp : Resp σ) (r r' : Runner σ) : Prop extends Keeps r r' where
  seq : M.seq r'.ordinals = M.seq r.ordinals + 1
  entered : M.entered r' = M.entered r + 1
  answers : M.answers r' = M.answers r ++ [resp]

/-- A step answers one of these calls, from the record or beyond it, or does something else. -/
inductive Turn (r r' : Runner σ) : Prop
  | other (keeps : Keeps r r') (silent : M.Silent r r')
      (seq : M.seq r'.ordinals = M.seq r.ordinals) (entered : M.entered r' = M.entered r)
      (answers : M.answers r' = M.answers r)
  | recalled (x : M.Datum) (answered : M.Answers (M.answer r.world.converter x) r r')
      (recorded : (M.recorded r.scan)[M.seq r.ordinals]? = some x) (silent : M.Silent r r')
  | beyond (resp : Resp σ) (answered : M.Answers resp r r')
      (recorded : (M.recorded r.scan)[M.seq r.ordinals]? = none)
      (made : M.Returns r → ∃ x, resp = M.answer r.world.converter x ∧
        ∀ past, M.data past r' = M.data past r ++ [x] ∧ M.marked past r' = M.marked past r + 1)

theorem silent_of_commands (h : r'.commands = r.commands) : M.Silent r r' := by
  intro past
  rw [data, data, marked, marked, h]
  exact ⟨rfl, rfl⟩

theorem data_concat (past : List EventAttributes) {cmd : Command}
    (h : r'.commands = r.commands ++ [cmd]) :
    M.data past r' = M.data past r ++ (M.datum? cmd.event).toList := by
  rw [data, data, h, List.map_append, ← List.append_assoc, List.filterMap_append]
  cases hd : M.datum? cmd.event <;> simp [hd]

theorem marked_concat (past : List EventAttributes) {cmd : Command}
    (h : r'.commands = r.commands ++ [cmd]) :
    M.marked past r' = M.marked past r + if cmd.call = .marker M.marker then 1 else 0 := by
  rw [marked, marked, h, List.map_append, ← List.append_assoc, List.countP_append,
    List.map_singleton, List.countP_singleton]
  simp only [Command.isMarker_event]

theorem turn_of_exec (hc : r.world.converter.RoundTrips) {q : Runner σ} {resp : Resp σ}
    (hx : r.exec (r.program r.trace) = some (q, resp)) :
    M.Turn r { q with trace := r.trace ++ [resp] } := by
  have hframe := r.exec_frame hx
  have hkeeps : Keeps r { q with trace := r.trace ++ [resp] } := ⟨hframe.scan, hframe.world⟩
  have hprog : q.program = r.program := by
    rw [Runner.program, Runner.program, hframe.world, hframe.workflowFn, hframe.input]
  have hans : M.answers { q with trace := r.trace ++ [resp] } = M.answers r ++
      if (r.program r.trace).call? = some (.marker M.marker) then [resp] else [] := by
    rw [answers, answers, ← Program.answersTo_concat]
    exact congrArg (fun p : Program σ => p.answersTo (fun op => op.call? = some (.marker M.marker))
      (r.trace ++ [resp])) hprog
  by_cases hcall : (r.program r.trace).call? = some (.marker M.marker)
  · rw [if_pos hcall] at hans
    obtain ⟨hseq, hent⟩ := M.called hcall hx
    have hentered : M.entered q = M.entered r + 1 := by
      rw [entered, entered, hent, List.count_append, List.count_singleton_self]
    have hanswered : M.Answers resp r { q with trace := r.trace ++ [resp] } :=
      ⟨hkeeps, hseq, hentered, hans⟩
    cases hrec : (M.recorded r.scan)[M.seq r.ordinals]? with
    | some x =>
      obtain ⟨hcmd, rfl⟩ := M.recalled hc hcall hx hrec
      exact .recalled x hanswered hrec (M.silent_of_commands hcmd)
    | none =>
      refine .beyond resp hanswered hrec fun hret => ?_
      obtain ⟨cmd, x, hcmd, hd, hresp⟩ := M.made hc hcall hx hrec (hret hcall hrec)
      refine ⟨x, hresp, fun past => ?_⟩
      have hdata := M.data_concat past hcmd
      have hmarked := M.marked_concat past hcmd
      have hown : cmd.call = .marker M.marker := by
        by_contra hne
        rw [M.marks cmd hne] at hd
        cases hd
      rw [hd, Option.toList_some] at hdata
      rw [if_pos hown] at hmarked
      exact ⟨hdata, hmarked⟩
  · rw [if_neg hcall, List.append_nil] at hans
    have hseq : M.seq q.ordinals = M.seq r.ordinals := M.other hcall hx
    have hemits := r.exec_emission hx
    have hentered : M.entered q = M.entered r := by
      rcases hemits.entries with he | ⟨e, hkind, he⟩
      · rw [entered, entered, he]
      · have hne : e ≠ ⟨.marker, M.marker, ""⟩ := by
          rintro rfl
          exact hcall (hkind rfl)
        rw [entered, entered, he, List.count_append, List.count_singleton, beq_false_of_ne hne]
        rfl
    refine .other hkeeps (fun past => ?_) hseq hentered hans
    rcases hemits.commands with hcmd | ⟨cmd, hkind, hcmd⟩
    · exact M.silent_of_commands hcmd past
    · have hne : cmd.call ≠ .marker M.marker := fun he => hcall (hkind.trans (congrArg some he))
      have hdata := M.data_concat past hcmd
      have hmarked := M.marked_concat past hcmd
      rw [M.marks cmd hne, Option.toList_none, List.append_nil] at hdata
      rw [if_neg hne] at hmarked
      exact ⟨hdata, hmarked⟩

theorem turn_of_step (hc : r.world.converter.RoundTrips) (h : r.step = some r') :
    M.Turn r r' := by
  rcases Runner.step_cases h with ⟨o, rfl⟩ | ⟨q, resp, hx, rfl⟩
  · refine .other ⟨r.finishBody_scan o, ?_⟩ (M.silent_of_commands ?_) ?_ ?_ ?_
    · cases o <;> rfl
    · cases o <;> rfl
    · cases o <;> rfl
    · cases o <;> simp [entered, Runner.finishBody, Runner.produce]
    · cases o <;> rfl
  · exact M.turn_of_exec hc hx

/-- On record, the calls are answered from the markers in their order, and no marker is added; each
call has left its entry. -/
structure Recites (c : DataConverter) (record : List M.Datum) (r : Runner σ) : Prop where
  converter : r.world.converter = c
  recorded : M.recorded r.scan = record
  seq : M.seq r.ordinals = (M.answers r).length
  entered : M.entered r = (M.answers r).length
  answers : ∀ (n : Nat) x a, record[n]? = some x → (M.answers r)[n]? = some a → a = M.answer c x
  silent : (M.answers r).length ≤ record.length → M.marked [] r = 0

theorem Recites.answer {record : List M.Datum} (h : M.Recites c record r) {resp : Resp σ}
    (ha : M.Answers resp r r')
    (hresp : ∀ x, record[(M.answers r).length]? = some x → resp = M.answer c x)
    (hsilent : (M.answers r).length < record.length → M.marked [] r' = 0) :
    M.Recites c record r' where
  converter := ha.world ▸ h.converter
  recorded := ha.scan ▸ h.recorded
  seq := by rw [ha.seq, ha.answers, h.seq, List.length_append, List.length_singleton]
  entered := by rw [ha.entered, ha.answers, h.entered, List.length_append, List.length_singleton]
  answers n x a hx hget := by
    rw [ha.answers] at hget
    rcases Nat.lt_trichotomy n (M.answers r).length with hlt | rfl | hgt
    · rw [List.getElem?_append_left hlt] at hget
      exact h.answers n x a hx hget
    · rw [List.getElem?_concat_length] at hget
      cases hget
      exact hresp x hx
    · have hle : (M.answers r ++ [resp]).length ≤ n := by
        rw [List.length_append, List.length_singleton]
        exact hgt
      rw [List.getElem?_eq_none hle] at hget
      cases hget
  silent hle := by
    rw [ha.answers, List.length_append, List.length_singleton] at hle
    exact hsilent hle

theorem Recites.step {record : List M.Datum} (h : M.Recites c record r) (hc : c.RoundTrips)
    (hs : r.step = some r') : M.Recites c record r' := by
  cases M.turn_of_step (h.converter ▸ hc) hs with
  | other keeps silent seq entered answers =>
    exact
      { converter := keeps.world ▸ h.converter
        recorded := keeps.scan ▸ h.recorded
        seq := by rw [seq, answers, h.seq]
        entered := by rw [entered, answers, h.entered]
        answers := by rw [answers]; exact h.answers
        silent := by rw [answers, (silent []).2]; exact h.silent }
  | recalled x answered recorded silent =>
    rw [h.recorded, h.seq] at recorded
    rw [h.converter] at answered
    refine h.answer M answered (fun y hy => ?_) fun hlt => ?_
    · rw [recorded] at hy
      cases hy
      rfl
    · rw [(silent []).2]
      exact h.silent hlt.le
  | beyond resp answered recorded made =>
    rw [h.recorded, h.seq] at recorded
    refine h.answer M answered (fun y hy => ?_) fun hlt => ?_
    · rw [recorded] at hy
      cases hy
    · exact absurd (List.getElem?_eq_none_iff.mp recorded) (Nat.not_le.mpr hlt)

/-- The answers a runner has given are what the markers hold, one for each call; beyond those the
runner was built on, the markers are its own. -/
structure Aligned (c : DataConverter) (past : List EventAttributes) (r : Runner σ) : Prop where
  converter : r.world.converter = c
  seq : M.seq r.ordinals = (M.answers r).length
  built : M.recorded r.scan <+: M.data past r
  length : (M.data past r).length = max (M.recorded r.scan).length (M.answers r).length
  marked : M.marked past r = (M.data past r).length
  answers : M.answers r <+: (M.data past r).map (M.answer c)

theorem Aligned.step (h : M.Aligned c past r) (hc : c.RoundTrips) (hret : M.Returns r)
    (hs : r.step = some r') : M.Aligned c past r' := by
  cases M.turn_of_step (h.converter ▸ hc) hs with
  | other keeps silent seq entered answers =>
    obtain ⟨hdata, hmarked⟩ := silent past
    exact
      { converter := keeps.world ▸ h.converter
        seq := by rw [seq, answers, h.seq]
        built := by rw [keeps.scan, hdata]; exact h.built
        length := by rw [keeps.scan, hdata, answers]; exact h.length
        marked := by rw [hmarked, hdata]; exact h.marked
        answers := by rw [answers, hdata]; exact h.answers }
  | recalled x answered recorded silent =>
    rw [h.seq] at recorded
    rw [h.converter] at answered
    obtain ⟨hdata, hmarked⟩ := silent past
    have hlt := (List.getElem?_eq_some_iff.mp recorded).1
    refine
      { converter := answered.world ▸ h.converter
        seq := by
          rw [answered.seq, answered.answers, h.seq, List.length_append, List.length_singleton]
        built := by rw [answered.scan, hdata]; exact h.built
        length := ?_
        marked := by rw [hmarked, hdata]; exact h.marked
        answers := ?_ }
    · rw [answered.scan, hdata, answered.answers, h.length, List.length_append,
        List.length_singleton]
      omega
    · obtain ⟨own, hown⟩ := h.built
      have hget : ((M.data past r).map (M.answer c))[(M.answers r).length]? =
          some (M.answer c x) := by
        rw [List.getElem?_map, ← hown, List.getElem?_append_left hlt, recorded, Option.map_some]
      obtain ⟨hl, hv⟩ := List.getElem?_eq_some_iff.mp hget
      rw [answered.answers, hdata, ← hv]
      exact List.concat_get_prefix h.answers hl
  | beyond resp answered recorded made =>
    rw [h.seq] at recorded
    obtain ⟨x, rfl, hmade⟩ := made hret
    obtain ⟨hdata, hmarked⟩ := hmade past
    rw [h.converter] at answered
    have hlen := List.getElem?_eq_none_iff.mp recorded
    have hall : M.answers r = (M.data past r).map (M.answer c) := by
      refine h.answers.eq_of_length ?_
      rw [List.length_map, h.length]
      omega
    refine
      { converter := answered.world ▸ h.converter
        seq := by
          rw [answered.seq, answered.answers, h.seq, List.length_append, List.length_singleton]
        built := by rw [answered.scan, hdata]; exact h.built.trans (List.prefix_append _ _)
        length := ?_
        marked := by rw [hmarked, hdata, h.marked, List.length_append, List.length_singleton]
        answers := ?_ }
    · rw [answered.scan, hdata, answered.answers, List.length_append, List.length_append, h.length,
        List.length_singleton, List.length_singleton]
      omega
    · rw [answered.answers, hdata, List.map_append, hall]
      exact List.prefix_rfl

theorem recorded_applyEvents (r : Runner σ) (evs : History) :
    M.recorded (r.applyEvents evs).scan = M.recorded r.scan := by
  induction evs generalizing r with
  | nil => rfl
  | cons e evs ih =>
    by_cases hst : e.eventId ≤ r.scan.lastEventId
    · rw [r.applyEvents_cons_stale hst, ih]
    · rw [r.applyEvents_cons_new (Nat.lt_of_not_le hst), ih, M.applied]

section Recordings

variable {fuel : Nat} {info : WorkflowInfo} {world : World σ} {fn : WorkflowFn σ}
  {evicted : Nat → Bool} {batches : List History} {last : History}

theorem aligned_fresh (past batch : History) (hu : UpdateFree (past ++ batch))
    (hmarked : (History.commandEvents (past ++ batch)).countP (·.isMarker M.marker) =
      ((History.commandEvents (past ++ batch)).filterMap M.datum?).length) :
    M.Aligned world.converter (History.commandEvents (past ++ batch))
      (Runner.atTask info world fn none past batch) := by
  have hscan : (Runner.atTask info world fn none past batch).scan = scanAll (past ++ batch) :=
    scanHistory_of_updateFree hu
  have hdata : M.data (History.commandEvents (past ++ batch))
      (Runner.atTask info world fn none past batch) = M.recorded (scanAll (past ++ batch)) := by
    rw [M.scanned, data]
    exact congrArg (List.filterMap M.datum?) (List.append_nil _)
  exact
    { converter := rfl
      seq := M.seq_fresh
      built := by rw [hscan, hdata]
      length := by
        rw [hscan, hdata]
        exact (Nat.max_eq_left (Nat.zero_le _)).symm
      marked := by
        rw [hdata, M.scanned, ← hmarked, MarkedCall.marked]
        exact congrArg (List.countP _) (List.append_nil _)
      answers := List.nil_prefix }

theorem aligned_tasks (hc : world.converter.RoundTrips) :
    TaskInvariant info world fn evicted M.Returns (M.Aligned world.converter) where
  first batch hu hb := by
    have h : M.Aligned world.converter (History.commandEvents ([] ++ batch))
        (Runner.atTask info world fn none [] batch) :=
      M.aligned_fresh [] batch hu (by rw [List.nil_append, hb]; rfl)
    rw [List.nil_append, hb] at h
    exact h
  rebuilt _ past batch r _ hu h hbatch := by
    refine M.aligned_fresh past batch hu ?_
    rw [History.commandEvents_append, hbatch]
    exact h.marked
  applied past batch r h hbatch := by
    obtain ⟨scan, futures, ht⟩ :=
      ({ r with commands := [], producedCommands := [] } : Runner σ).applyEvents_touches batch
    have hrec : M.recorded (Runner.atTask info world fn (some r) past batch).scan =
        M.recorded r.scan := M.recorded_applyEvents _ batch
    have hans : M.answers (Runner.atTask info world fn (some r) past batch) = M.answers r := by
      rw [Runner.atTask, ht]
      rfl
    have hdata : M.data (History.commandEvents (past ++ batch))
        (Runner.atTask info world fn (some r) past batch) =
          M.data (History.commandEvents past) r := by
      rw [Runner.atTask, ht, data, data, History.commandEvents_append, hbatch]
      exact congrArg (List.filterMap M.datum?) (List.append_nil _)
    have hmarked : M.marked (History.commandEvents (past ++ batch))
        (Runner.atTask info world fn (some r) past batch) =
          M.marked (History.commandEvents past) r := by
      rw [Runner.atTask, ht, marked, marked, History.commandEvents_append, hbatch]
      exact congrArg (List.countP _) (List.append_nil _)
    refine
      { converter := ?_
        seq := ?_
        built := by rw [hrec, hdata]; exact h.built
        length := by rw [hrec, hans, hdata]; exact h.length
        marked := by rw [hmarked, hdata]; exact h.marked
        answers := by rw [hans, hdata]; exact h.answers }
    · rw [Runner.atTask, ht]
      exact h.converter
    · rw [hans, ← h.seq, Runner.atTask, ht]
      rfl
  step past r r' hret hs h := h.step M hc hret hs
  deadlocked past r h := { h with }

theorem aligned_recording {r : Runner σ}
    (hr : Recording fuel info world fn evicted batches last r)
    (hret : Runner.Throughout fuel info world fn M.Returns evicted 0 [] none batches) :
    M.Aligned world.converter (History.commandEvents batches.flatten) r :=
  (M.aligned_tasks hr.roundTrips).recording hr hret

/-- The command that ends an execution is not a marker. -/
theorem terminal_unmarked (r : Runner σ) :
    (r.terminalCommand.map Command.event).toList.filterMap M.datum? = [] ∧
      (r.terminalCommand.map Command.event).toList.countP (·.isMarker M.marker) = 0 := by
  cases ht : r.terminalCommand with
  | none => exact ⟨rfl, rfl⟩
  | some cmd =>
    have hending : cmd.call = .ending := by
      unfold Runner.terminalCommand at ht
      split at ht <;> cases ht <;> rfl
    have hne : cmd.call ≠ .marker M.marker := by
      rw [hending]
      nofun
    have hno : cmd.event.isMarker M.marker = false :=
      Bool.eq_false_iff.mpr fun h => hne ((Command.isMarker_event _ cmd).mp h)
    rw [Option.map_some, Option.toList_some, List.filterMap_cons, M.marks cmd hne,
      List.countP_singleton, hno]
    exact ⟨rfl, rfl⟩

/-- The markers of the whole history are those of the tasks before, and of the last. -/
theorem recorded_recording {r : Runner σ}
    (hr : Recording fuel info world fn evicted batches last r) :
    M.recorded (scanHistory (batches ++ [last]).flatten) =
        M.data (History.commandEvents batches.flatten) r ∧
      (scanHistory (batches ++ [last]).flatten).commands.count ⟨.marker, M.marker, ""⟩ =
        M.marked (History.commandEvents batches.flatten) r := by
  have hterm := M.terminal_unmarked r
  have hevents : History.commandEvents (batches ++ [last]).flatten =
      History.commandEvents batches.flatten ++ r.commands.map Command.event ++
        (r.terminalCommand.map Command.event).toList := by
    rw [List.flatten_append, List.flatten_singleton, History.commandEvents_append, hr.closing,
      List.append_assoc]
  rw [scanHistory_of_updateFree hr.updateFree, (scanAll_recorded _).commands, count_entriesFrom,
    M.scanned, hevents, List.filterMap_append, List.countP_append, hterm.1, hterm.2,
    List.append_nil]
  exact ⟨rfl, rfl⟩

/-- A replay from scratch recites the record, in every world. -/
theorem recites_replay {w : World σ} (hc : w.converter.RoundTrips) {isReplaying : Bool}
    {h : History} {q : Runner σ}
    (hq : Reaches Runner.step (Runner.fresh info w fn isReplaying h) q) :
    M.Recites w.converter (M.recorded (scanHistory h)) q := by
  induction hq with
  | refl =>
    exact
      { converter := rfl
        recorded := rfl
        seq := M.seq_fresh
        entered := rfl
        answers := fun n x a _ ha => by cases ha
        silent := fun _ => rfl }
  | tail _ hs ih => exact ih.step M hc hs

/-- The calls of an execution that ended with `r`, against a replay of its history from scratch:
each has left one marker, the replay enters each call where its marker stands among the markers of
its kind, gives it the answer it got when it was made, and adds no marker while there are marks
left. -/
structure Replays (info : WorkflowInfo) (w : World σ) (fn : WorkflowFn σ) (isReplaying : Bool)
    (h : History) (r : Runner σ) : Prop where
  one : (M.recorded (scanHistory h)).length = max (M.recorded r.scan).length (M.answers r).length
  markers : (scanHistory h).commands.count ⟨.marker, M.marker, ""⟩ =
    (M.recorded (scanHistory h)).length
  entries : ∀ q, Reaches Runner.step (Runner.fresh info w fn isReplaying h) q →
    q.producedCommands.count ⟨.marker, M.marker, ""⟩ = (M.answers q).length
  alike : ∀ q, Reaches Runner.step (Runner.fresh info w fn isReplaying h) q →
    ∀ (n : Nat) a a', (M.answers r)[n]? = some a → (M.answers q)[n]? = some a' → a' = a
  silent : ∀ q, Reaches Runner.step (Runner.fresh info w fn isReplaying h) q →
    (M.answers q).length ≤ (M.recorded (scanHistory h)).length →
    ∀ cmd ∈ q.commands, cmd.call ≠ .marker M.marker

/-- Calls whose outcomes are all recorded are replayed by their ordinals. -/
theorem replays {r : Runner σ} (hr : Recording fuel info world fn evicted batches last r)
    (hret : Runner.Throughout fuel info world fn M.Returns evicted 0 [] none batches)
    {w : World σ} (hw : w.converter = world.converter) (isReplaying : Bool) :
    M.Replays info w fn isReplaying (batches ++ [last]).flatten r := by
  have hlive := M.aligned_recording hr hret
  obtain ⟨hrec, hcount⟩ := M.recorded_recording hr
  have hrecites (q : Runner σ) (hq : Reaches Runner.step
      (Runner.fresh info w fn isReplaying (batches ++ [last]).flatten) q) :
      M.Recites w.converter (M.recorded (scanHistory (batches ++ [last]).flatten)) q :=
    M.recites_replay (hw ▸ hr.roundTrips) hq
  refine
    { one := by rw [hrec, hlive.length]
      markers := by rw [hcount, hrec, hlive.marked]
      entries := fun q hq => (hrecites q hq).entered
      alike := fun q hq n a a' ha ha' => ?_
      silent := fun q hq hle cmd hcmd hcall => ?_ }
  · obtain ⟨rest, hrest⟩ := hlive.answers
    have hget : ((M.data (History.commandEvents batches.flatten) r).map
        (M.answer world.converter))[n]? = some a := by
      rw [← hrest, List.getElem?_append_left (List.getElem?_eq_some_iff.mp ha).1, ha]
    rw [List.getElem?_map] at hget
    obtain ⟨x, hx, rfl⟩ := Option.map_eq_some_iff.mp hget
    rw [← hw]
    exact (hrecites q hq).answers n x a' (hrec ▸ hx) ha'
  · have hnone := (hrecites q hq).silent hle
    rw [MarkedCall.marked, List.nil_append, List.countP_eq_zero] at hnone
    exact hnone cmd.event (List.mem_map_of_mem hcmd) ((Command.isMarker_event _ cmd).mpr hcall)

/-- Where the rest of the body replays too, the calls are as many as the markers, and the replay
comes to where the execution stood. -/
theorem recalls (hseq : ∀ b : Progress σ, M.seq b.ordinals = (b.events.filterMap M.datum?).length)
    {r : Runner σ} (hr : Recording fuel info world fn evicted batches last r)
    (hop : Runner.Throughout fuel info world fn Runner.Repeats evicted 0 [] none batches)
    (hund : Runner.UndisturbedAll fuel info world fn evicted 0 [] none (batches ++ [last]))
    {w : World σ} (hsame : world.SameCode w)
    (hfn : w.mutableSideEffectFn = world.mutableSideEffectFn) (isReplaying : Bool) :
    (M.recorded (scanHistory (batches ++ [last]).flatten)).length = M.seq r.ordinals ∧
      ∃ q, Reaches Runner.step (Runner.fresh info w fn isReplaying (batches ++ [last]).flatten) q ∧
        Recalls r q := by
  obtain ⟨b, he⟩ := hr.ends hop hund
  obtain ⟨q, hq, hrecalls, -, -⟩ := hr.recalls he hsame (.inl hfn) isReplaying
  obtain ⟨_, _, hcar⟩ := he.cached.carries
  have hterm := (M.terminal_unmarked r).1
  rw [hcar.terminalCommand] at hterm
  refine ⟨?_, _, hq, hrecalls⟩
  rw [scanHistory_of_updateFree hr.updateFree, M.scanned, he.closing, List.filterMap_append, hterm,
    List.append_nil, hcar.ordinals, hseq]

end Recordings

end MarkedCall

section Kinds

theorem Op.call?_sideEffect {op : Op σ} (h : op.call? = some (.marker "SideEffect")) :
    op = .sideEffect := by
  cases op <;> first
    | rfl
    | (simp [Op.call?] at h)

theorem Op.call?_executeLocalActivity {op : Op σ} (h : op.call? = some (.marker "LocalActivity")) :
    ∃ type input options, op = .executeLocalActivity type input options := by
  cases op <;> first
    | exact ⟨_, _, _, rfl⟩
    | (simp [Op.call?] at h)

theorem Runner.sideEffect_recorded (r : Runner σ) {p : Payload}
    (h : r.scan.sideEffects[r.sideEffectSeq]? = some p) :
    r.sideEffect =
      ({ r with sideEffectSeq := r.sideEffectSeq + 1 }.produce .marker "SideEffect" "",
        match r.world.converter.fromPayload p with
        | some v => .value v
        | none => .stdException "DataConverterError") := by
  simp only [Runner.sideEffect, h]
  cases r.world.converter.fromPayload p <;> rfl

theorem Runner.sideEffect_new (r : Runner σ) {v : Value}
    (h : r.scan.sideEffects[r.sideEffectSeq]? = none)
    (hv : r.world.sideEffectFn r.sideEffectSeq = .ok v) :
    r.sideEffect =
      (({ r with sideEffectSeq := r.sideEffectSeq + 1 }.produce .marker "SideEffect"
        "").recordMarker "SideEffect" (sideEffectDetails r.world.converter r.sideEffectSeq v),
        .value v) := by
  simp only [Runner.sideEffect, h, hv]

/-- `SideEffect` calls. -/
def sideEffectCalls : MarkedCall σ where
  Datum := Payload
  marker := "SideEffect"
  seq := Ordinals.sideEffect
  recorded := Prescan.sideEffects
  datum? := EventAttributes.sideEffect?
  answer c p := match c.fromPayload p with
    | some v => .value v
    | none => .stdException "DataConverterError"
  Succeeds r _ := ∃ v, r.world.sideEffectFn r.sideEffectSeq = .ok v
  seq_fresh := rfl
  scanned h := (scanAll_recorded h).sideEffects
  applied r e := (r.applyOne_outcomes e).1
  marks cmd hne := by
    cases cmd with
    | recordMarker name details => exact if_neg fun he => hne (congrArg CallKind.marker he)
    | _ => rfl
  other hne hx := ((Runner.exec_emission _ hx).sideEffectSeq).resolve_right fun h => hne h.1
  called {r r' _ _} hop hx := by
    cases Op.call?_sideEffect hop
    have hr : r.sideEffect.1 = r' := congrArg Prod.fst (Option.some.inj hx)
    change r'.sideEffectSeq = r.sideEffectSeq + 1 ∧ _
    rw [← hr]
    unfold Runner.sideEffect
    dsimp only
    repeat' split
    all_goals exact ⟨rfl, rfl⟩
  recalled {r _ _ _ _} hc hop hx hrec := by
    cases Op.call?_sideEffect hop
    cases (congrArg some (r.sideEffect_recorded hrec)).symm.trans hx
    exact ⟨rfl, rfl⟩
  made {r _ _ _} hc hop hx hrec hs := by
    cases Op.call?_sideEffect hop
    obtain ⟨v, hv⟩ := hs
    cases (congrArg some (r.sideEffect_new hrec hv)).symm.trans hx
    refine ⟨_, r.world.converter.toPayload v, rfl, ?_, ?_⟩
    · simp [Command.event, EventAttributes.sideEffect?, Runner.sideEffectDetails, List.lookup_cons]
    · rw [hc.fromPayload_toPayload]

/-- `ExecuteLocalActivity` calls. -/
def localActivityCalls : MarkedCall σ where
  Datum := LocalActivityMarkerRaw
  marker := "LocalActivity"
  seq := Ordinals.localActivity
  recorded := Prescan.localActivities
  datum? := EventAttributes.localActivity?
  answer c m := m.resp c
  Succeeds r op := ∀ type input options, op = .executeLocalActivity type input options →
    ∃ fn, r.world.localActivityResolver.bind (· type) = some fn
  seq_fresh := rfl
  scanned h := (scanAll_recorded h).localActivities
  applied r e := (r.applyOne_outcomes e).2
  marks cmd hne := by
    cases cmd with
    | recordMarker name details => exact if_neg fun he => hne (congrArg CallKind.marker he)
    | _ => rfl
  other hne hx := ((Runner.exec_emission _ hx).localActivitySeq).resolve_right fun h => hne h.1
  called {r r' _ _} hop hx := by
    obtain ⟨type, input, options, rfl⟩ := Op.call?_executeLocalActivity hop
    have hr : (r.executeLocalActivity type input options).1 = r' :=
      congrArg Prod.fst (Option.some.inj hx)
    change r'.localActivitySeq = r.localActivitySeq + 1 ∧ _
    rw [← hr]
    unfold Runner.executeLocalActivity
    dsimp only
    repeat' split
    all_goals exact ⟨rfl, rfl⟩
  recalled {r _ _ _ _} hc hop hx hrec := by
    obtain ⟨type, input, options, rfl⟩ := Op.call?_executeLocalActivity hop
    cases (congrArg some (r.executeLocalActivity_recorded type input options hrec)).symm.trans hx
    exact ⟨rfl, rfl⟩
  made {r _ _ _} hc hop hx hrec hs := by
    obtain ⟨type, input, options, rfl⟩ := Op.call?_executeLocalActivity hop
    obtain ⟨fn, hfn⟩ := hs type input options rfl
    cases (congrArg some (r.executeLocalActivity_new input options hfn hrec)).symm.trans hx
    refine ⟨_, Prescan.localActivityMarker (Runner.localActivityDetails r.world.converter
      (Runner.runLocalActivity r.info fn r.localActivitySeq type input options)), rfl, ?_, ?_⟩
    · simp only [Command.event, EventAttributes.localActivity?, if_true]
    · exact (LocalActivityMarkerRaw.resp_localActivityMarker hc _).symm

end Kinds
end TemporalSdk
