import TemporalSdk.TaskInvariant
import TemporalSdk.Lib.ChangeLog

/-! `MutableSideEffect`, replayed: only changes leave a marker, so a call is found again by its
index among the calls of its id, up to the last change. -/
namespace TemporalSdk
open StateTransition (Reaches)

variable {σ : Type}

/-- The mutable side effect an operation calls. -/
def Op.mutableId? : Op σ → Option String
  | .mutableSideEffect id _ => some id
  | _ => none

namespace Runner

/-- The answers to the calls of one mutable side effect, in order. -/
def mutableAnswers (id : String) (r : Runner σ) : List (Resp σ) :=
  r.program.answersTo (fun op => op.mutableId? = some id) r.trace

/-- The changes of `id` in the markers on record before the task, and in those it adds. -/
def mutableChanges (c : DataConverter) (id : String) (past : List EventAttributes)
    (r : Runner σ) : List (Int × Payload) :=
  changes c id (markersOf (past ++ r.commands.map Command.event)).mutables

/-- What a runner keeps of one mutable side effect. -/
structure Cell where
  recorded : List (Int × Payload)
  calls : Nat
  cursor : Nat
  current : Option Payload

def Memory.cell (m : Memory) (id : String) : Cell :=
  ⟨(m.mseRecorded id).getD [], (m.mseCallCount id).getD 0, (m.mseCursor id).getD 0,
    m.mseCurrent id⟩

def cell (id : String) (r : Runner σ) : Cell := r.memory.cell id

section Steps

variable {r q : Runner σ} {id : String} {c : DataConverter} {past : List EventAttributes}

theorem mutableChanges_congr (h : q.commands = r.commands) :
    q.mutableChanges c id past = r.mutableChanges c id past := by
  rw [mutableChanges, mutableChanges, h]

theorem mutableChanges_concat {cmd : Command} (h : q.commands = r.commands ++ [cmd]) :
    q.mutableChanges c id past =
      r.mutableChanges c id past ++ changes c id (markersOf [cmd.event]).mutables := by
  rw [mutableChanges, mutableChanges, h, List.map_append, ← List.append_assoc, markersOf_append,
    List.map_singleton, ← changes_append]

theorem changes_mutableDetails (hc : c.RoundTrips) (j : String) (idx : Nat) (v : Value) :
    changes c id (markersOf [(Command.recordMarker "MutableSideEffect"
      (mutableDetails c j idx v)).event]).mutables =
      if j = id then [((idx : Int), c.toPayload v)] else [] := by
  have hone := changes_concat c id [] ⟨c.toPayload (.str j), c.toPayload (.int idx), c.toPayload v⟩
  rw [List.nil_append, Progress.change_mutable hc] at hone
  rw [Command.event, Progress.markersOf_mutable, hone]
  rfl

theorem changes_of_other {cmd : Command} (h : cmd.call ≠ .marker "MutableSideEffect") :
    changes c id (markersOf [cmd.event]).mutables = [] := by
  have hnone : cmd.event.mutable? = none := by
    cases cmd with
    | recordMarker name details => exact if_neg fun he => h (congrArg CallKind.marker he)
    | _ => rfl
  rw [markersOf, List.filterMap_cons, List.filterMap_cons, hnone]
  rfl

/-- A call writes the cell of its id, and a marker of its id if any. -/
theorem mutableSideEffect_elsewhere (r : Runner σ) {j : String} (h : j ≠ id)
    (equals : Value → Value → Bool) :
    (r.mutableSideEffect j equals).1.cell id = r.cell id ∧
      ((r.mutableSideEffect j equals).1.commands = r.commands ∨
        ∃ idx v, (r.mutableSideEffect j equals).1.commands = r.commands ++
          [.recordMarker "MutableSideEffect" (mutableDetails r.world.converter j idx v)]) := by
  have hcell (calls : Nat) (current : Option Payload) (cursor : Option Nat) :
      (⟨r.changeVersions, r.mseRecorded, r.mseCallCount.insert j calls,
        cursor.elim r.mseCursor (r.mseCursor.insert j),
        current.elim r.mseCurrent (r.mseCurrent.insert j)⟩ : Memory).cell id = r.cell id := by
    unfold Memory.cell cell
    dsimp only
    rw [PartialMap.insert_of_ne _ h.symm]
    cases current <;> cases cursor <;>
      simp only [Option.elim_none, Option.elim_some, PartialMap.insert_of_ne _ h.symm] <;> rfl
  constructor
  · unfold mutableSideEffect
    dsimp only
    repeat' split
    all_goals first
      | exact hcell _ none none
      | exact hcell _ (some _) none
      | exact hcell _ (some _) (some _)
  · unfold mutableSideEffect
    dsimp only
    repeat' split
    all_goals first
      | exact .inl rfl
      | exact .inr ⟨_, _, rfl⟩

/-- Every other operation leaves a mutable side effect alone. -/
theorem exec_elsewhere {op : Op σ} (hop : op.mutableId? ≠ some id)
    (hc : r.world.converter.RoundTrips) {resp : Resp σ} (hx : r.exec op = some (q, resp)) :
    q.cell id = r.cell id ∧ ∀ past,
      q.mutableChanges r.world.converter id past = r.mutableChanges r.world.converter id past := by
  by_cases hm : ∃ j equals, op = .mutableSideEffect j equals
  · obtain ⟨j, equals, rfl⟩ := hm
    have hne : j ≠ id := fun he => hop (congrArg some he)
    have hq : (r.mutableSideEffect j equals).1 = q := congrArg Prod.fst (Option.some.inj hx)
    obtain ⟨hcell, hcmd⟩ := r.mutableSideEffect_elsewhere hne equals
    rw [hq] at hcell hcmd
    refine ⟨hcell, fun past => ?_⟩
    rcases hcmd with hcmd | ⟨idx, v, hcmd⟩
    · exact mutableChanges_congr hcmd
    · rw [mutableChanges_concat hcmd, changes_mutableDetails hc, if_neg hne, List.append_nil]
  · constructor
    · by_cases hv : ∃ j lo hi, op = .getVersion j lo hi
      · obtain ⟨j, lo, hi, rfl⟩ := hv
        have hq : (r.getVersion j lo hi).1 = q := congrArg Prod.fst (Option.some.inj hx)
        rw [← hq]
        unfold getVersion
        dsimp only
        repeat' split
        all_goals rfl
      · exact congrArg (fun m => m.cell id) (r.exec_memory (fun j lo hi ho => hv ⟨j, lo, hi, ho⟩)
          (fun j equals ho => hm ⟨j, equals, ho⟩) hx)
    · intro past
      rcases (r.exec_emission hx).commands with hcmd | ⟨cmd, hkind, hcmd⟩
      · exact mutableChanges_congr hcmd
      · have hne : cmd.call ≠ .marker "MutableSideEffect" := by
          intro he
          rw [he] at hkind
          cases op <;> first
            | exact hm ⟨_, _, rfl⟩
            | (simp [Op.call?] at hkind)
        rw [mutableChanges_concat hcmd, changes_of_other hne, List.append_nil]

/-- What one step does to a mutable side effect: nothing, or what one call of it does. -/
theorem mutable_turn {r' : Runner σ} (hc : r.world.converter.RoundTrips) (id : String)
    (hs : r.step = some r') :
    r'.world = r.world ∧
      (r'.cell id = r.cell id ∧ r'.mutableAnswers id = r.mutableAnswers id ∧
          (∀ past, r'.mutableChanges r.world.converter id past =
            r.mutableChanges r.world.converter id past) ∨
        ∃ equals q resp, r.program r.trace = .mutableSideEffect id equals ∧
          r.mutableSideEffect id equals = (q, resp) ∧ r'.cell id = q.cell id ∧
          r'.mutableAnswers id = r.mutableAnswers id ++ [resp] ∧ r'.commands = q.commands) := by
  rcases step_cases hs with ⟨o, rfl⟩ | ⟨q, resp, hx, rfl⟩
  · cases o <;> exact ⟨rfl, .inl ⟨rfl, rfl, fun _ => rfl⟩⟩
  · have hframe := r.exec_frame hx
    have hprog : q.program = r.program := by
      rw [Runner.program, Runner.program, hframe.world, hframe.workflowFn, hframe.input]
    have hans : mutableAnswers id { q with trace := r.trace ++ [resp] } = r.mutableAnswers id ++
        if (r.program r.trace).mutableId? = some id then [resp] else [] := by
      rw [mutableAnswers, mutableAnswers, ← Program.answersTo_concat]
      exact congrArg (fun p : Program σ => p.answersTo (fun op => op.mutableId? = some id)
        (r.trace ++ [resp])) hprog
    refine ⟨hframe.world, ?_⟩
    by_cases hid : (r.program r.trace).mutableId? = some id
    · rw [if_pos hid] at hans
      obtain ⟨equals, hop⟩ : ∃ equals, r.program r.trace = .mutableSideEffect id equals := by
        cases hop : r.program r.trace <;> rw [hop] at hid <;> cases hid
        exact ⟨_, rfl⟩
      rw [hop] at hx
      exact .inr ⟨equals, q, resp, hop, Option.some.inj hx, rfl, hans, rfl⟩
    · rw [if_neg hid, List.append_nil] at hans
      obtain ⟨hcell, hchanges⟩ := exec_elsewhere hid hc hx
      exact .inl ⟨hcell, hans, hchanges⟩

theorem mutableSideEffect_calls (r : Runner σ) (id : String) (equals : Value → Value → Bool) :
    ((r.mutableSideEffect id equals).1.cell id).recorded = (r.cell id).recorded ∧
      ((r.mutableSideEffect id equals).1.cell id).calls = (r.cell id).calls + 1 := by
  have hcalls : ((r.mseCallCount.insert id ((r.mseCallCount id).getD 0 + 1)) id).getD 0 =
      (r.mseCallCount id).getD 0 + 1 := by
    rw [PartialMap.insert_self, Option.getD_some]
  unfold mutableSideEffect
  dsimp only
  repeat' split
  all_goals exact ⟨rfl, hcalls⟩

/-- A call whose change is on record. -/
theorem mutableSideEffect_cell_recorded (hc : r.world.converter.RoundTrips)
    (equals : Value → Value → Bool) {v : Value}
    (h : (r.cell id).recorded[(r.cell id).cursor]? =
      some (((r.cell id).calls : Int), r.world.converter.toPayload v)) :
    ((r.mutableSideEffect id equals).1.cell id).cursor = (r.cell id).cursor + 1 ∧
      ((r.mutableSideEffect id equals).1.cell id).current =
        some (r.world.converter.toPayload v) ∧
      (r.mutableSideEffect id equals).1.commands = r.commands ∧
      (r.mutableSideEffect id equals).2 = .value v := by
  rw [mutableSideEffect_recorded hc h]
  refine ⟨?_, PartialMap.insert_self _ _ _, rfl, rfl⟩
  change ((r.mseCursor.insert id _) id).getD 0 = _
  rw [PartialMap.insert_self, Option.getD_some]
  rfl

/-- A call before the next change on record. -/
theorem mutableSideEffect_cell_passed (hc : r.world.converter.RoundTrips)
    (equals : Value → Value → Bool) {current : Value}
    (hcur : (r.cell id).current = some (r.world.converter.toPayload current)) {p : Int × Payload}
    (h : (r.cell id).recorded[(r.cell id).cursor]? = some p) (hp : p.1 ≠ (r.cell id).calls) :
    ((r.mutableSideEffect id equals).1.cell id).cursor = (r.cell id).cursor ∧
      ((r.mutableSideEffect id equals).1.cell id).current = (r.cell id).current ∧
      (r.mutableSideEffect id equals).1.commands = r.commands ∧
      (r.mutableSideEffect id equals).2 = .value current := by
  rw [mutableSideEffect_passed hc hcur h hp]
  exact ⟨rfl, (PartialMap.insert_self _ _ _).trans hcur.symm, rfl, rfl⟩

/-- A call beyond the record, whose function gives `v`. -/
theorem mutableSideEffect_cell_live (hc : r.world.converter.RoundTrips)
    (equals : Value → Value → Bool) {v : Value} {current : Option Value}
    (hcur : (r.cell id).current = current.map r.world.converter.toPayload)
    (h : (r.cell id).recorded[(r.cell id).cursor]? = none)
    (hv : r.world.mutableSideEffectFn id (r.cell id).calls = .ok v) :
    (∃ x, current = some x ∧ equals x v = true ∧
        ((r.mutableSideEffect id equals).1.cell id).current = (r.cell id).current ∧
        (r.mutableSideEffect id equals).1.commands = r.commands ∧
        (r.mutableSideEffect id equals).2 = .value x) ∨
      (current.filter (equals · v) = none ∧
        ((r.mutableSideEffect id equals).1.cell id).current =
          some (r.world.converter.toPayload v) ∧
        (r.mutableSideEffect id equals).1.commands = r.commands ++
          [.recordMarker "MutableSideEffect"
            (mutableDetails r.world.converter id (r.cell id).calls v)] ∧
        (r.mutableSideEffect id equals).2 = .value v) := by
  rw [mutableSideEffect_live hc hcur h hv]
  cases hf : current.filter (equals · v) with
  | some x =>
    obtain ⟨hx, heq⟩ := Option.filter_eq_some_iff.mp hf
    exact .inl ⟨x, hx, heq, rfl, rfl, rfl⟩
  | none => exact .inr ⟨rfl, PartialMap.insert_self _ _ _, rfl, rfl⟩

end Steps
section Live

/-- The function of a `MutableSideEffect` call that is not on record does not throw. -/
def MutableReturns (r : Runner σ) : Prop :=
  ∀ id equals, r.program r.trace = .mutableSideEffect id equals →
    (r.cell id).recorded[(r.cell id).cursor]? = none →
    ∃ v, r.world.mutableSideEffectFn id (r.cell id).calls = .ok v

/-- A change as a marker records it. -/
def encodeChange (c : DataConverter) (p : Nat × Value) : Int × Payload := (p.1, c.toPayload p.2)

/-- A runner that has made all the calls of `id` itself, and the log of its changes. -/
structure Logged (c : DataConverter) (id : String) (past : List EventAttributes) (r : Runner σ)
    (log : List (Nat × Value)) : Prop where
  converter : r.world.converter = c
  recorded : (r.cell id).recorded = []
  changes : r.mutableChanges c id past = log.map (encodeChange c)
  calls : (r.cell id).calls = (r.mutableAnswers id).length
  covers : ChangeLog.Covers log (r.cell id).calls
  current : (r.cell id).current = (log.getLast?.map Prod.snd).map c.toPayload
  answers : ∀ (n : Nat) a, (r.mutableAnswers id)[n]? = some a →
    ∃ v, ChangeLog.valueAt log n = some v ∧ a = .value v

variable {r r' q : Runner σ} {id : String} {c : DataConverter} {past : List EventAttributes}
  {log : List (Nat × Value)}

/-- The answers after one more call. -/
theorem answers_concat {N : Nat}
    (h : ∀ (n : Nat) a, n < N → (r.mutableAnswers id)[n]? = some a →
      ∃ v, ChangeLog.valueAt log n = some v ∧ a = .value v)
    {log' : List (Nat × Value)} {resp : Resp σ}
    (hlog : ∀ n, n < (r.mutableAnswers id).length →
      ChangeLog.valueAt log' n = ChangeLog.valueAt log n)
    (ha : r'.mutableAnswers id = r.mutableAnswers id ++ [resp])
    (hresp : (r.mutableAnswers id).length < N →
      ∃ v, ChangeLog.valueAt log' (r.mutableAnswers id).length = some v ∧ resp = .value v) :
    ∀ (n : Nat) a, n < N → (r'.mutableAnswers id)[n]? = some a →
      ∃ v, ChangeLog.valueAt log' n = some v ∧ a = .value v := by
  intro n a hn hget
  rw [ha] at hget
  rcases Nat.lt_trichotomy n (r.mutableAnswers id).length with hlt | rfl | hgt
  · rw [List.getElem?_append_left hlt] at hget
    rw [hlog n hlt]
    exact h n a hn hget
  · rw [List.getElem?_concat_length] at hget
    cases hget
    exact hresp hn
  · have hle : (r.mutableAnswers id ++ [resp]).length ≤ n := by
      rw [List.length_append, List.length_singleton]
      exact hgt
    rw [List.getElem?_eq_none hle] at hget
    cases hget

theorem Logged.step (h : Logged c id past r log) (hc : c.RoundTrips) (hret : r.MutableReturns)
    (hs : r.step = some r') : ∃ log', Logged c id past r' log' := by
  obtain rfl := h.converter
  obtain ⟨hw, ⟨hcell, hans, hchanges⟩ | ⟨equals, q, resp, hop, hq, hcell, hans, hcmd⟩⟩ :=
    mutable_turn hc id hs
  · exact ⟨log,
      { converter := by rw [hw]
        recorded := by rw [hcell, h.recorded]
        changes := (hchanges past).trans h.changes
        calls := by rw [hcell, hans, h.calls]
        covers := by rw [hcell]; exact h.covers
        current := by rw [hcell, h.current]
        answers := by rw [hans]; exact h.answers }⟩
  · have hnone : (r.cell id).recorded[(r.cell id).cursor]? = none := by
      rw [h.recorded]
      rfl
    obtain ⟨v, hv⟩ := hret id equals hop hnone
    obtain ⟨hrec, hcalls⟩ := r.mutableSideEffect_calls id equals
    have hlive := mutableSideEffect_cell_live hc equals h.current hnone hv
    rw [hq] at hrec hcalls hlive
    have hbelow : ∀ p ∈ log, p.1 ≤ (r.mutableAnswers id).length := fun p hp =>
      h.calls ▸ (h.covers.below p hp).le
    have hlength : (r'.cell id).calls = (r'.mutableAnswers id).length := by
      rw [hcell, hcalls, hans, h.calls, List.length_append, List.length_singleton]
    have hsame : r'.mutableChanges r.world.converter id past =
        q.mutableChanges r.world.converter id past := mutableChanges_congr hcmd
    have hanswers {log' : List (Nat × Value)} {x : Value}
        (hlog : ∀ n, n < (r.mutableAnswers id).length →
          ChangeLog.valueAt log' n = ChangeLog.valueAt log n)
        (hx : ChangeLog.valueAt log' (r.mutableAnswers id).length = some x)
        (hresp : resp = .value x) :
        ∀ (n : Nat) a, (r'.mutableAnswers id)[n]? = some a →
          ∃ v, ChangeLog.valueAt log' n = some v ∧ a = .value v := fun n a ha =>
      answers_concat (N := n + 1) (fun n a _ ha => h.answers n a ha) hlog hans
        (fun _ => ⟨x, hx, hresp⟩) n a n.lt_succ_self ha
    rcases hlive with ⟨x, hx, -, hcur, hcommands, hresp⟩ | ⟨-, hcur, hcommands, hresp⟩
    · -- the value stays
      have hne : log ≠ [] := by
        rintro rfl
        cases hx
      refine ⟨log,
        { converter := by rw [hw]
          recorded := by rw [hcell, hrec, h.recorded]
          changes := by rw [hsame, mutableChanges_congr hcommands, h.changes]
          calls := hlength
          covers := by rw [hcell, hcalls]; exact h.covers.keep hne
          current := by rw [hcell, hcur, h.current]
          answers := hanswers (fun _ _ => rfl) ?_ hresp }⟩
      rw [ChangeLog.valueAt_of_le hbelow, hx]
    · -- the change is logged
      have hsnoc : ∀ n, n < (r.mutableAnswers id).length →
          ChangeLog.valueAt (log ++ [((r.cell id).calls, v)]) n = ChangeLog.valueAt log n := by
        intro n hn
        refine ChangeLog.valueAt_append_of_lt fun p hp => ?_
        rw [List.mem_singleton.mp hp, h.calls]
        exact hn
      refine ⟨log ++ [((r.cell id).calls, v)],
        { converter := by rw [hw]
          recorded := by rw [hcell, hrec, h.recorded]
          changes := ?_
          calls := hlength
          covers := by rw [hcell, hcalls]; exact h.covers.change v
          current := by rw [hcell, hcur, List.getLast?_concat]; rfl
          answers := hanswers hsnoc ?_ hresp }⟩
      · rw [hsame, mutableChanges_concat hcommands, changes_mutableDetails hc, if_pos rfl,
          h.changes, List.map_append]
        rfl
      · rw [h.calls]
        exact ChangeLog.valueAt_concat_self hbelow v

/-- The runners of an execution that is never evicted keep their log. -/
theorem logged_tasks {info : WorkflowInfo} {world : World σ} {fn : WorkflowFn σ}
    (hc : world.converter.RoundTrips) :
    TaskInvariant info world fn (fun _ => false) MutableReturns
      (fun past r => ∀ id, ∃ log, Logged world.converter id past r log) where
  first batch hu hb id := by
    have hscan : (Runner.atTask info world fn none [] batch).scan = scanAll batch :=
      scanHistory_of_updateFree hu
    have hmarkers : (scanAll batch).mutableSideEffectMarkers = [] := by
      have h := congrArg MarkerLists.mutables (scanAll_markers batch)
      rw [hb] at h
      exact h
    refine ⟨[],
      { converter := rfl
        recorded := ?_
        changes := rfl
        calls := rfl
        covers := .nil
        current := rfl
        answers := nofun }⟩
    change (Runner.recordedMutable world.converter
      (Runner.atTask info world fn none [] batch).scan.mutableSideEffectMarkers id).getD [] = []
    rw [hscan, hmarkers]
    rfl
  rebuilt n past batch r hev := absurd hev Bool.false_ne_true
  applied past batch r h hbatch id := by
    obtain ⟨log, h⟩ := h id
    obtain ⟨scan, futures, ht⟩ :=
      ({ r with commands := [], producedCommands := [] } : Runner σ).applyEvents_touches batch
    have hat : Runner.atTask info world fn (some r) past batch =
        { r with commands := [], producedCommands := [], scan := scan, futures := futures } := ht
    rw [hat]
    refine ⟨log, { h with changes := ?_ }⟩
    rw [mutableChanges, History.commandEvents_append, hbatch, ← h.changes]
    exact congrArg (fun l => Runner.changes world.converter id (markersOf l).mutables)
      (List.append_nil _)
  step past r r' hret hs h id := by
    obtain ⟨log, h⟩ := h id
    exact h.step hc hret hs
  deadlocked past r h id := by
    obtain ⟨log, h⟩ := h id
    exact ⟨log, { h with }⟩

end Live
section Replay

/-- A replay among the first `n` calls of `id`, whose changes `log` holds. -/
structure MutableRecites (c : DataConverter) (id : String) (log : List (Nat × Value)) (n : Nat)
    (q : Runner σ) : Prop where
  converter : q.world.converter = c
  recorded : (q.cell id).recorded = log.map (encodeChange c)
  calls : (q.cell id).calls = (q.mutableAnswers id).length
  reads : (q.cell id).calls ≤ n → ∃ pre post, ChangeLog.Reads log pre post (q.cell id).calls ∧
    (q.cell id).cursor = pre.length ∧
    (q.cell id).current = (pre.getLast?.map Prod.snd).map c.toPayload ∧
    q.mutableChanges c id [] = []
  answers : ∀ (i : Nat) a, i < n → (q.mutableAnswers id)[i]? = some a →
    ∃ v, ChangeLog.valueAt log i = some v ∧ a = .value v

variable {r r' : Runner σ} {id : String} {c : DataConverter} {log : List (Nat × Value)} {n : Nat}

/-- While a change is ahead, a call is answered from the log. -/
theorem MutableRecites.call (h : MutableRecites c id log n r) (hc : c.RoundTrips)
    (hcovers : ChangeLog.Covers log n) (hlast : ∀ i < n, ∃ p ∈ log, i ≤ p.1)
    (hlt : (r.cell id).calls < n) {equals : Value → Value → Bool} {q : Runner σ} {resp : Resp σ}
    (hq : r.mutableSideEffect id equals = (q, resp)) :
    (∃ v, ChangeLog.valueAt log (r.cell id).calls = some v ∧ resp = .value v) ∧
      q.commands = r.commands ∧
      ∃ pre post, ChangeLog.Reads log pre post ((r.cell id).calls + 1) ∧
        (q.cell id).cursor = pre.length ∧
        (q.cell id).current = (pre.getLast?.map Prod.snd).map c.toPayload := by
  obtain rfl := h.converter
  obtain ⟨pre, post, hreads, hcursor, hcurrent, -⟩ := h.reads hlt.le
  obtain ⟨p, hp, hle⟩ := hlast _ hlt
  cases post with
  | nil =>
    rw [hreads.split, List.append_nil] at hp
    exact absurd (hreads.behind p hp) (Nat.not_lt.mpr hle)
  | cons x rest =>
    have hnext : (r.cell id).recorded[(r.cell id).cursor]? =
        some (encodeChange r.world.converter x) := by
      rw [h.recorded, hcursor, hreads.split, List.getElem?_map,
        List.getElem?_append_right le_rfl, Nat.sub_self]
      rfl
    obtain ⟨k, v⟩ := x
    by_cases hk : k = (r.cell id).calls
    · subst hk
      obtain ⟨hreads', hvalue⟩ := hreads.change hcovers.increasing
      obtain ⟨hcur', hcurrent', hcmd, hresp⟩ := mutableSideEffect_cell_recorded hc equals hnext
      rw [hq] at hcur' hcurrent' hcmd hresp
      refine ⟨⟨v, hvalue, hresp⟩, hcmd, _, _, hreads', ?_, ?_⟩
      · rw [hcur', hcursor, List.length_append, List.length_singleton]
      · rw [hcurrent', List.getLast?_concat]
        rfl
    · have hahead : ∀ p ∈ (k, v) :: rest, p.1 ≠ (r.cell id).calls := by
        have hinc := hcovers.increasing
        rw [hreads.split] at hinc
        have hrest := (List.pairwise_cons.mp (List.pairwise_append.mp hinc).2.1).1
        have hfirst := hreads.ahead (k, v) List.mem_cons_self
        intro p hp
        rcases List.mem_cons.mp hp with rfl | hp
        · exact hk
        · have := hrest p hp
          dsimp only at this hfirst
          omega
      obtain ⟨hreads', hvalue⟩ := hreads.keep hahead
      have hne := hreads.pre_ne_nil hcovers (Nat.zero_lt_of_lt hlt) hahead
      obtain ⟨last, hlastpre⟩ := Option.isSome_iff_exists.mp (List.getLast?_isSome.mpr hne)
      rw [hlastpre] at hcurrent hvalue
      obtain ⟨hcur', hcurrent', hcmd, hresp⟩ := mutableSideEffect_cell_passed hc equals hcurrent
        hnext (fun he => hk (Int.ofNat_inj.mp he))
      rw [hq] at hcur' hcurrent' hcmd hresp
      refine ⟨⟨last.2, hvalue, hresp⟩, hcmd, _, _, hreads', hcur'.trans hcursor, ?_⟩
      rw [hcurrent', hcurrent, hlastpre]

theorem MutableRecites.step (h : MutableRecites c id log n r) (hc : c.RoundTrips)
    (hcovers : ChangeLog.Covers log n) (hlast : ∀ i < n, ∃ p ∈ log, i ≤ p.1)
    (hs : r.step = some r') : MutableRecites c id log n r' := by
  obtain rfl := h.converter
  obtain ⟨hw, ⟨hcell, hans, hchanges⟩ | ⟨equals, q, resp, hop, hq, hcell, hans, hcmd⟩⟩ :=
    mutable_turn hc id hs
  · exact
      { converter := by rw [hw]
        recorded := by rw [hcell, h.recorded]
        calls := by rw [hcell, hans, h.calls]
        reads := by rw [hcell, hchanges []]; exact h.reads
        answers := by rw [hans]; exact h.answers }
  · obtain ⟨hrec, hcalls⟩ := r.mutableSideEffect_calls id equals
    rw [hq] at hrec hcalls
    refine
      { converter := by rw [hw]
        recorded := by rw [hcell, hrec, h.recorded]
        calls := by
          rw [hcell, hcalls, hans, h.calls, List.length_append, List.length_singleton]
        reads := fun hle => ?_
        answers := answers_concat h.answers (fun _ _ => rfl) hans fun hlt => ?_ }
    · rw [hcell, hcalls] at hle
      obtain ⟨-, hcommands, pre, post, hreads, hcursor, hcurrent⟩ :=
        h.call hc hcovers hlast hle hq
      obtain ⟨_, _, -, -, -, hsilent⟩ := h.reads (Nat.le_of_lt hle)
      refine ⟨pre, post, ?_, ?_, ?_, ?_⟩
      · rw [hcell, hcalls]
        exact hreads
      · rw [hcell, hcursor]
      · rw [hcell, hcurrent]
      · rw [mutableChanges_congr (hcmd.trans hcommands), hsilent]
    · rw [← h.calls] at hlt ⊢
      exact (h.call hc hcovers hlast hlt hq).1

end Replay
section Recordings

variable {fuel : Nat} {info : WorkflowInfo} {world w : World σ} {fn : WorkflowFn σ}
  {batches : List History} {last : History} {r : Runner σ}

/-- The changes of the whole history are those of the tasks before, and of the last. -/
theorem changes_recording {evicted : Nat → Bool}
    (h : Recording fuel info world fn evicted batches last r) (c : DataConverter) (id : String) :
    changes c id (scanHistory (batches ++ [last]).flatten).mutableSideEffectMarkers =
      r.mutableChanges c id (History.commandEvents batches.flatten) := by
  have hmarkers : (scanAll (batches ++ [last]).flatten).mutableSideEffectMarkers =
      (markersOf (History.commandEvents (batches ++ [last]).flatten)).mutables :=
    congrArg MarkerLists.mutables (scanAll_markers (batches ++ [last]).flatten)
  have hterm : changes c id
      (markersOf (r.terminalCommand.map Command.event).toList).mutables = [] := by
    cases ht : r.terminalCommand with
    | none => rfl
    | some cmd =>
      refine changes_of_other ?_
      unfold Runner.terminalCommand at ht
      split at ht <;> cases ht <;> nofun
  rw [scanHistory_of_updateFree h.updateFree, hmarkers, List.flatten_append,
    List.flatten_singleton, History.commandEvents_append, h.closing, ← List.append_assoc,
    markersOf_append]
  exact (changes_append c id _ _).trans (by rw [hterm, List.append_nil]; rfl)

/-- The calls of the mutable side effects of an execution that ended with `r`, against a replay of
its history from scratch: each gets the value it got when it was made, no marker is added for it,
and the first call beyond them is compared with the value that was last in force. -/
structure MutableReplays (info : WorkflowInfo) (w : World σ) (fn : WorkflowFn σ)
    (isReplaying : Bool) (h : History) (r : Runner σ) : Prop where
  alike : ∀ q, Reaches Runner.step (Runner.fresh info w fn isReplaying h) q →
    ∀ id (n : Nat) a a', (r.mutableAnswers id)[n]? = some a →
      (q.mutableAnswers id)[n]? = some a' → a' = a
  silent : ∀ q, Reaches Runner.step (Runner.fresh info w fn isReplaying h) q →
    ∀ id, (q.mutableAnswers id).length ≤ (r.mutableAnswers id).length →
      q.mutableChanges w.converter id [] = []
  onward : ∀ q, Reaches Runner.step (Runner.fresh info w fn isReplaying h) q →
    ∀ id, (q.mutableAnswers id).length = (r.mutableAnswers id).length →
    ∀ equals v current, r.mseCurrent id = some (w.converter.toPayload current) →
      w.mutableSideEffectFn id (r.mutableAnswers id).length = .ok v →
      (q.mutableSideEffect id equals).2 = .value (if equals current v then current else v)

/-- A replay from scratch recites the log, in every world. -/
theorem mutableRecites_replay (hc : w.converter.RoundTrips) {isReplaying : Bool} {h : History}
    {id : String} {log : List (Nat × Value)} {n : Nat}
    (hlog : changes w.converter id (scanHistory h).mutableSideEffectMarkers =
      log.map (encodeChange w.converter))
    (hcovers : ChangeLog.Covers log n) (hlast : ∀ i < n, ∃ p ∈ log, i ≤ p.1) {q : Runner σ}
    (hq : Reaches Runner.step (Runner.fresh info w fn isReplaying h) q) :
    MutableRecites w.converter id log n q := by
  induction hq with
  | refl =>
    exact
      { converter := rfl
        recorded := hlog
        calls := rfl
        reads := fun _ => ⟨[], log, .start log, rfl, rfl, rfl⟩
        answers := nofun }
  | tail _ hs ih => exact ih.step hc hcovers hlast hs

/-- Each mutable side effect was last seen changing: no call of it comes after its last change on
record. -/
def LastSeenChanging (c : DataConverter) (h : History) (r : Runner σ) : Prop :=
  ∀ id n, r.mseCallCount id = some n →
    ∃ p ∈ changes c id (scanHistory h).mutableSideEffectMarkers, p.1 + 1 = (n : Int)

theorem LastSeenChanging.ahead {c : DataConverter} {h : History} {id : String}
    {log : List (Nat × Value)} (hlast : LastSeenChanging c h r)
    (hrec : changes c id (scanHistory h).mutableSideEffectMarkers = log.map (encodeChange c)) :
    ∀ i < (r.cell id).calls, ∃ p ∈ log, i ≤ p.1 := by
  intro i hi
  have hcount : r.mseCallCount id = some (r.cell id).calls := by
    change i < (r.mseCallCount id).getD 0 at hi
    change r.mseCallCount id = some ((r.mseCallCount id).getD 0)
    cases hn : r.mseCallCount id with
    | none =>
      rw [hn] at hi
      exact absurd hi (Nat.not_lt_zero i)
    | some n => rfl
  obtain ⟨p, hp, hpn⟩ := hlast id _ hcount
  rw [hrec] at hp
  obtain ⟨x, hx, rfl⟩ := List.mem_map.mp hp
  have hxn : (x.1 : Int) + 1 = ((r.cell id).calls : Int) := hpn
  exact ⟨x, hx, by omega⟩

/-- A replay that has made all the calls on record compares the next with the last value. -/
theorem MutableRecites.onward {c : DataConverter} {past : List EventAttributes} {id : String}
    {log : List (Nat × Value)} {q : Runner σ} (hc : c.RoundTrips)
    (hlog : Logged c id past r log)
    (h : MutableRecites c id log (r.mutableAnswers id).length q)
    (hlen : (q.mutableAnswers id).length = (r.mutableAnswers id).length)
    (equals : Value → Value → Bool) {v current : Value}
    (hcurrent : r.mseCurrent id = some (c.toPayload current))
    (hv : q.world.mutableSideEffectFn id (r.mutableAnswers id).length = .ok v) :
    (q.mutableSideEffect id equals).2 = .value (if equals current v then current else v) := by
  have hcalls : (q.cell id).calls = (r.mutableAnswers id).length := h.calls.trans hlen
  obtain ⟨pre, post, hreads, hcursor, hcur, -⟩ := h.reads hcalls.le
  rw [hcalls] at hreads
  have hall : pre = log := hreads.finished (hlog.calls ▸ hlog.covers)
  subst hall
  have hforce : pre.getLast?.map Prod.snd = some current := by
    obtain ⟨x, hx, hxc⟩ := Option.map_eq_some_iff.mp (hlog.current.symm.trans hcurrent)
    have hback := hc.fromPayload_toPayload current
    rw [← hxc, hc.fromPayload_toPayload] at hback
    rw [hx, Option.some.inj hback]
  have hnone : (q.cell id).recorded[(q.cell id).cursor]? = none := by
    rw [h.recorded, hcursor, List.getElem?_eq_none_iff, List.length_map]
  rw [hforce, ← h.converter] at hcur
  rw [← hcalls] at hv
  rcases mutableSideEffect_cell_live (h.converter ▸ hc) equals hcur hnone hv with
    ⟨x, hx, heq, -, -, hresp⟩ | ⟨hfilter, -, -, hresp⟩
  · cases hx
    rw [hresp, if_pos heq]
  · rw [Option.filter_some, ite_eq_right_iff] at hfilter
    rw [hresp, if_neg fun heq => nomatch hfilter heq]

theorem mutableReplays (h : Recording fuel info world fn (fun _ => false) batches last r)
    (hret : Runner.Throughout fuel info world fn MutableReturns (fun _ => false) 0 [] none batches)
    (hlast : LastSeenChanging world.converter (batches ++ [last]).flatten r)
    (hw : w.converter = world.converter) (isReplaying : Bool) :
    MutableReplays info w fn isReplaying (batches ++ [last]).flatten r := by
  have hlogged := (logged_tasks h.roundTrips).recording h hret
  rw [← hw] at hlast hlogged
  have hc : w.converter.RoundTrips := hw ▸ h.roundTrips
  have hrecites (q : Runner σ) (hq : Reaches Runner.step (Runner.fresh info w fn isReplaying
      (batches ++ [last]).flatten) q) (id : String) :
      ∃ log, Logged w.converter id (History.commandEvents batches.flatten) r log ∧
        MutableRecites w.converter id log (r.mutableAnswers id).length q := by
    obtain ⟨log, hlog⟩ := hlogged id
    have hrec := (changes_recording h w.converter id).trans hlog.changes
    refine ⟨log, hlog, ?_⟩
    rw [← hlog.calls]
    exact mutableRecites_replay hc hrec hlog.covers (hlast.ahead hrec) hq
  refine
    { alike := fun q hq id n a a' ha ha' => ?_
      silent := fun q hq id hle => ?_
      onward := fun q hq id hlen equals v current hcurrent hv => ?_ }
  · obtain ⟨log, hlog, hre⟩ := hrecites q hq id
    obtain ⟨v, hv, rfl⟩ := hlog.answers n a ha
    obtain ⟨v', hv', rfl⟩ := hre.answers n a' (List.getElem?_eq_some_iff.mp ha).1 ha'
    rw [hv] at hv'
    rw [Option.some.inj hv']
  · obtain ⟨log, -, hre⟩ := hrecites q hq id
    obtain ⟨_, _, -, -, -, hsilent⟩ := hre.reads (hre.calls ▸ hle)
    exact hsilent
  · obtain ⟨log, hlog, hre⟩ := hrecites q hq id
    have hruns : q.Runs w fn := Runner.Runs.reaches ⟨rfl, rfl⟩ hq
    exact hre.onward hc hlog hlen equals hcurrent (hruns.1 ▸ hv)

/-- Whatever else a body does, its mutable side effects replay when none of the functions throws
and each was last seen changing, whatever the functions would do now; a body that replays otherwise
replays as a whole. -/
theorem mutableSideEffects_replay
    (h : Recording fuel info world fn (fun _ => false) batches last r)
    (hret : Runner.Throughout fuel info world fn MutableReturns (fun _ => false) 0 [] none batches)
    (hlast : LastSeenChanging world.converter (batches ++ [last]).flatten r)
    (mutableSideEffectFn : String → Nat → Except String Value) (isReplaying : Bool) :
    MutableReplays info { world with mutableSideEffectFn } fn isReplaying
        (batches ++ [last]).flatten r ∧
      (Runner.Throughout fuel info world fn Runner.Repeats (fun _ => false) 0 [] none batches →
        Runner.UndisturbedAll fuel info world fn (fun _ => false) 0 [] none (batches ++ [last]) →
        ∃ q, Reaches Runner.step (Runner.fresh info { world with mutableSideEffectFn } fn
          isReplaying (batches ++ [last]).flatten) q ∧ Recalls r q) := by
  have hsame : world.SameCode { world with mutableSideEffectFn } := ⟨rfl, rfl, rfl⟩
  refine ⟨mutableReplays h hret hlast hsame.converter isReplaying, fun hop hund => ?_⟩
  obtain ⟨b, he⟩ := h.ends hop hund
  have hchanges (id : String) : changes world.converter id
      (scanHistory (batches ++ [last]).flatten).mutableSideEffectMarkers =
        b.changes world.converter id := by
    rw [scanHistory_of_updateFree h.updateFree, Progress.changes,
      ← (scanAll_markers (batches ++ [last]).flatten).trans he.markers]
    rfl
  have hlc : RecordEnds.LastChanges (.ofHistory info world fn (batches ++ [last]).flatten) b := by
    intro id n hn
    rw [← he.cached.marks.mseCallCount] at hn
    obtain ⟨p, hp, hpn⟩ := hlast id n hn
    exact ⟨p, hchanges id ▸ hp, hpn⟩
  obtain ⟨q, hq, hrecalls, -, -⟩ := h.recalls he hsame (.inr hlc) isReplaying
  exact ⟨_, hq, hrecalls⟩

end Recordings
end Runner

section Rates

/-- A worker whose exchange rate is read from a list, one entry for each call. -/
def rates (l : List Int) : World Unit :=
  { World.plain .tagged with mutableSideEffectFn := fun _ k => .ok (.int (l.getD k 0)) }

def readRate : Op Unit := .mutableSideEffect "rate" fun a b => decide (a = b)

def rateChanged (idx : Nat) (rate : Int) : EventAttributes :=
  .markerRecorded "MutableSideEffect" (Runner.mutableDetails .tagged "rate" idx (.int rate))

/-- A body that reads the rate twice, rests and reads it again. -/
def watchRate : WorkflowFn Unit where
  init := ()
  body _ answers :=
    match answers with
    | [] => readRate
    | [_] => readRate
    | [_, _] => .startTimer 1000000000
    | [_, _, _] => .get 0
    | [_, _, _, _] => readRate
    | _ => .finish (.returned [])

def watchRateStart : History :=
  [⟨1, .workflowExecutionStarted "WatchRate" [] []⟩, ⟨2, .other⟩, ⟨3, .other⟩]

/-- The second reading is as the first, the third is not. -/
def watchRateTasks : List History :=
  [watchRateStart,
    [⟨4, .other⟩, ⟨5, rateChanged 0 1⟩, ⟨6, .timerStarted "t0"⟩, ⟨7, .timerFired "t0"⟩,
      ⟨8, .other⟩, ⟨9, .other⟩]]

def watchRateEnd : History :=
  [⟨10, .other⟩, ⟨11, rateChanged 2 5⟩, ⟨12, .workflowExecutionCompleted []⟩]

theorem watchRate_replays :
    ∃ r, (Runner.tasks 10 {} (rates [1, 1, 5]) watchRate (fun _ => false)
        watchRateTasks).getLast? = some r ∧
      Runner.MutableReplays {} (rates [7, 8, 9]) watchRate true
        (watchRateTasks ++ [watchRateEnd]).flatten r ∧
      ∃ q, Reaches Runner.step (Runner.fresh {} (rates [7, 8, 9]) watchRate true
        (watchRateTasks ++ [watchRateEnd]).flatten) q ∧ Recalls r q := by
  have hreports : (Runner.tasks 10 {} (rates [1, 1, 5]) watchRate (fun _ => false)
      watchRateTasks).map Runner.report =
      [([rateChanged 0 1, .timerStarted "t0"], none, false),
        ([rateChanged 2 5], some (.completeWorkflowExecution []), false)] := by decide +kernel
  obtain ⟨r, hr⟩ : ∃ r, (Runner.tasks 10 {} (rates [1, 1, 5]) watchRate (fun _ => false)
      watchRateTasks).getLast? = some r := ⟨_, rfl⟩
  have hserved : Served (watchRateTasks ++ [watchRateEnd]).flatten :=
    ⟨by decide +kernel, by decide +kernel, by decide +kernel, by decide +kernel⟩
  have hrec : Recording 10 {} (rates [1, 1, 5]) watchRate (fun _ => false) watchRateTasks
      watchRateEnd r :=
    .of_reports DataConverter.tagged_roundTrips hserved (by decide +kernel) (by decide +kernel)
      hreports (by decide +kernel) (by decide +kernel) (by decide +kernel) (by decide +kernel) hr
  have hcount : (Runner.tasks 10 {} (rates [1, 1, 5]) watchRate (fun _ => false)
      watchRateTasks).getLast?.map Runner.mseCallCount =
        some (PartialMap.insert (PartialMap.insert (PartialMap.insert (fun _ => none) "rate" 1)
          "rate" 2) "rate" 3) := rfl
  have hlast : Runner.LastSeenChanging .tagged (watchRateTasks ++ [watchRateEnd]).flatten r := by
    rw [hr, Option.map_some, Option.some_inj] at hcount
    intro id n hn
    rw [hcount] at hn
    by_cases hid : id = "rate"
    · subst hid
      rw [PartialMap.insert_self] at hn
      cases hn
      exact ⟨(2, DataConverter.tagged.toPayload (.int 5)), by decide +kernel, rfl⟩
    · simp only [PartialMap.insert_of_ne _ hid] at hn
      cases hn
  obtain ⟨hreplays, hrecalls⟩ := Runner.mutableSideEffects_replay hrec
    (.of_body (fun q hq id _ _ _ => ⟨.int ([1, 1, 5].getD (q.cell id).calls 0), by
      rw [hq.1]; rfl⟩) (by decide +kernel) (fun q hq => absurd hq (Option.not_mem_none q)))
    hlast (rates [7, 8, 9]).mutableSideEffectFn true
  exact ⟨r, hr, hreplays, hrecalls (.of_holds (by decide +kernel))
    (.of_waiting (.of_holds (by decide +kernel)))⟩

/-- The execution as its first task left it, the second reading without a marker. -/
def watchRateFirst : History := [⟨4, .other⟩, ⟨5, rateChanged 0 1⟩, ⟨6, .timerStarted "t0"⟩]

/-- A reading that found the rate unchanged is made again on replay. -/
theorem unchangedRate_reads_again :
    ∃ r q, Recording 10 {} (rates [1, 1]) watchRate (fun _ => false) [watchRateStart]
        watchRateFirst r ∧
      Reaches Runner.step (Runner.fresh {} (rates [1, 9]) watchRate true
        ([watchRateStart] ++ [watchRateFirst]).flatten) q ∧
      r.mutableAnswers "rate" = [.value (.int 1), .value (.int 1)] ∧
      q.mutableAnswers "rate" = [.value (.int 1), .value (.int 9)] ∧
      q.commands.map Command.event = [rateChanged 1 9] ∧
      q.checkDeterminism = some ("[TMPRL1100] nondeterministic workflow: at command #1 history " ++
        "recorded StartTimer/t0 but replay produced RecordMarker/MutableSideEffect") := by
  have hreports : (Runner.tasks 10 {} (rates [1, 1]) watchRate (fun _ => false)
      [watchRateStart]).map Runner.report =
      [([rateChanged 0 1, .timerStarted "t0"], none, false)] := by decide +kernel
  have hserved : Served ([watchRateStart] ++ [watchRateFirst]).flatten :=
    ⟨by decide +kernel, by decide +kernel, by decide +kernel, by decide +kernel⟩
  have hlive : (Runner.tasks 10 {} (rates [1, 1]) watchRate (fun _ => false)
      [watchRateStart]).getLast?.map (Runner.mutableAnswers "rate") =
      some [.value (.int 1), .value (.int 1)] := by decide +kernel
  have hreplay : (Parking.runFor Runner.step 10 (Runner.fresh {} (rates [1, 9]) watchRate true
      ([watchRateStart] ++ [watchRateFirst]).flatten)).map (fun q => (q.mutableAnswers "rate",
        q.commands.map Command.event, q.checkDeterminism)) =
      some ([.value (.int 1), .value (.int 9)], [rateChanged 1 9],
        some ("[TMPRL1100] nondeterministic workflow: at command #1 history " ++
          "recorded StartTimer/t0 but replay produced RecordMarker/MutableSideEffect")) := by
    decide +kernel
  obtain ⟨r, hr, hans⟩ := Option.map_eq_some_iff.mp hlive
  obtain ⟨q, hq, hrest⟩ := Option.map_eq_some_iff.mp hreplay
  simp only [Prod.mk.injEq] at hrest
  exact ⟨r, q, .of_reports DataConverter.tagged_roundTrips hserved (by decide +kernel)
    (by decide +kernel) hreports (by decide +kernel) (by decide +kernel) (by decide +kernel)
    (by decide +kernel) hr, (StateTransition.mem_eval.mp (Parking.runFor_mem_eval hq)).1, hans,
    hrest⟩

end Rates
end TemporalSdk
