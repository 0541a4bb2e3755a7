import TemporalSdk.TaskInvariant
import TemporalSdk.Versions

/-! `GetVersion` over a whole execution: each change is recorded once, and every call, live or on
replay, is answered by what is on record for its change. -/
namespace TemporalSdk
open StateTransition (Reaches)

variable {σ : Type}

/-- What holds of every operation of the code and the answer it got. -/
def Program.Answered (p : Program σ) (Q : Op σ → Resp σ → Prop) (answers : List (Resp σ)) : Prop :=
  ∀ (i : Nat) resp, answers[i]? = some resp → Q (p (answers.take i)) resp

theorem Program.answered_nil (p : Program σ) (Q : Op σ → Resp σ → Prop) : p.Answered Q [] := nofun

theorem Program.Answered.imp {p : Program σ} {Q Q' : Op σ → Resp σ → Prop}
    {answers : List (Resp σ)} (h : p.Answered Q answers) (hQ : ∀ op resp, Q op resp → Q' op resp) :
    p.Answered Q' answers :=
  fun i resp hi => hQ _ _ (h i resp hi)

theorem Program.Answered.concat {p : Program σ} {Q : Op σ → Resp σ → Prop}
    {answers : List (Resp σ)} {resp : Resp σ} (h : p.Answered Q answers) (hQ : Q (p answers) resp) :
    p.Answered Q (answers ++ [resp]) := by
  intro i a hi
  rcases Nat.lt_trichotomy i answers.length with hlt | rfl | hgt
  · rw [List.getElem?_append_left hlt] at hi
    rw [List.take_append_of_le_length hlt.le]
    exact h i a hi
  · rw [List.getElem?_concat_length] at hi
    cases hi
    rw [List.take_left]
    exact hQ
  · have hle : (answers ++ [resp]).length ≤ i := by
      rw [List.length_append, List.length_singleton]
      exact hgt
    rw [List.getElem?_eq_none hle] at hi
    cases hi

namespace Runner

/-- The Version markers on record before the task, and those it adds. -/
def versionMarks (past : List EventAttributes) (r : Runner σ) : List (Payloads × Payloads) :=
  (markersOf (past ++ r.commands.map Command.event)).versions

/-- The changes the body has asked the runner for, with the versions it supports. -/
def asked (r : Runner σ) : List (String × Int) := r.program.versions r.trace

/-- The entries of versions a runner has produced. -/
def versionEntries (r : Runner σ) : Nat := r.producedCommands.count ⟨.marker, "Version", ""⟩

/-- A call for a change is answered by its version, if that is in the range of the call. -/
def AnsweredBy (versions : PartialMap String Int) : Op σ → Resp σ → Prop
  | .getVersion id lo hi, resp =>
    ∃ v, versions id = some v ∧ (lo ≤ v → v ≤ hi → resp = .version v)
  | _, _ => True

theorem AnsweredBy.mono {versions versions' : PartialMap String Int}
    (h : ∀ id v, versions id = some v → versions' id = some v) {op : Op σ} {resp : Resp σ}
    (ha : AnsweredBy versions op resp) : AnsweredBy versions' op resp := by
  cases op with
  | getVersion id lo hi =>
    obtain ⟨v, hv, hresp⟩ := ha
    exact ⟨v, h id v hv, hresp⟩
  | _ => trivial

section Steps

variable {r r' q : Runner σ} {past : List EventAttributes}

theorem versionMarks_congr (h : q.commands = r.commands) :
    q.versionMarks past = r.versionMarks past := by
  rw [versionMarks, versionMarks, h]

theorem versionMarks_concat {cmd : Command} (h : q.commands = r.commands ++ [cmd]) :
    q.versionMarks past = r.versionMarks past ++ (markersOf [cmd.event]).versions := by
  rw [versionMarks, versionMarks, h, List.map_append, ← List.append_assoc, markersOf_append,
    List.map_singleton]

theorem versions_of_other {cmd : Command} (h : cmd.call ≠ .marker "Version") :
    (markersOf [cmd.event]).versions = [] := by
  have hnone : cmd.event.version? = none := by
    cases cmd with
    | recordMarker name details => exact if_neg fun he => h (congrArg CallKind.marker he)
    | _ => rfl
  rw [markersOf, List.filterMap_cons, hnone]
  rfl

/-- What an operation does about versions, with the answer it gives. -/
inductive VersionEffect (r r' : Runner σ) : Op σ → Resp σ → Prop
  | other {op : Op σ} {resp : Resp σ} (notVersion : op.version? = none)
      (versions : r'.changeVersions = r.changeVersions)
      (marks : ∀ past, r'.versionMarks past = r.versionMarks past)
      (entries : r'.versionEntries = r.versionEntries) : VersionEffect r r' op resp
  | known {id : String} {lo hi v : Int} {resp : Resp σ}
      (recorded : r.changeVersions id = some v) (versions : r'.changeVersions = r.changeVersions)
      (marks : ∀ past, r'.versionMarks past = r.versionMarks past)
      (entries : r'.versionEntries = r.versionEntries + 1)
      (answer : lo ≤ v → v ≤ hi → resp = .version v) :
      VersionEffect r r' (.getVersion id lo hi) resp
  | first {id : String} {lo hi : Int} (unknown : r.changeVersions id = none)
      (live : r.isReplaying = false)
      (versions : r'.changeVersions = r.changeVersions.insert id hi)
      (marks : ∀ past, r'.versionMarks past =
        r.versionMarks past ++ [encodeVersion r.world.converter (id, hi)])
      (entries : r'.versionEntries = r.versionEntries + 1) :
      VersionEffect r r' (.getVersion id lo hi) (.version hi)
  | unmarked {id : String} {lo hi : Int} (unknown : r.changeVersions id = none)
      (replaying : r.isReplaying = true)
      (versions : r'.changeVersions = r.changeVersions.insert id defaultVersion) :
      VersionEffect r r' (.getVersion id lo hi) (.version defaultVersion)

theorem getVersion_effect (r : Runner σ) (id : String) (lo hi : Int) :
    VersionEffect r (r.getVersion id lo hi).1 (.getVersion id lo hi) (r.getVersion id lo hi).2 := by
  cases hk : r.changeVersions id with
  | some v =>
    obtain ⟨hversions, hanswer, -⟩ := getVersion_known hk lo hi
    have hrest : (r.getVersion id lo hi).1.commands = r.commands ∧
        (r.getVersion id lo hi).1.producedCommands =
          r.producedCommands ++ [⟨.marker, "Version", ""⟩] := by
      simp only [getVersion, hk]
      split <;> exact ⟨rfl, rfl⟩
    refine .known hk hversions (fun past => versionMarks_congr hrest.1) ?_ hanswer
    rw [versionEntries, hrest.2, List.count_append, List.count_singleton_self]
    rfl
  | none =>
    cases hr : r.isReplaying with
    | true =>
      have heq : r.getVersion id lo hi =
          ({ r with changeVersions := r.changeVersions.insert id defaultVersion },
            .version defaultVersion) := by
        simp only [getVersion, hk, hr, if_true]
      rw [heq]
      exact .unmarked hk hr rfl
    | false =>
      have heq : r.getVersion id lo hi =
          ({ (r.produce .marker "Version" "").recordMarker "Version"
              (versionDetails r.world.converter id hi) with
            changeVersions := r.changeVersions.insert id hi }, .version hi) := by
        simp only [getVersion, hk, hr, Bool.false_eq_true, if_false]
        rfl
      rw [heq]
      refine .first hk hr rfl (fun past => ?_) ?_
      · have hcmd : ({ (r.produce .marker "Version" "").recordMarker "Version"
            (versionDetails r.world.converter id hi) with
              changeVersions := r.changeVersions.insert id hi } : Runner σ).commands =
            r.commands ++ [.recordMarker "Version" (versionDetails r.world.converter id hi)] := rfl
        rw [versionMarks_concat hcmd, Command.event, Progress.markersOf_version]
      · change List.count (⟨.marker, "Version", ""⟩ : CommandEvent)
          (r.producedCommands ++ [⟨.marker, "Version", ""⟩]) = _
        rw [List.count_append, List.count_singleton_self]
        rfl

theorem exec_version {op : Op σ} {resp : Resp σ} (hx : r.exec op = some (q, resp)) :
    VersionEffect r q op resp := by
  by_cases hop : ∃ id lo hi, op = .getVersion id lo hi
  · obtain ⟨id, lo, hi, rfl⟩ := hop
    have heffect := r.getVersion_effect id lo hi
    rw [Option.some.inj hx] at heffect
    exact heffect
  · have hcall : op.call? ≠ some (.marker "Version") := by
      intro hcall
      cases op <;> first
        | exact hop ⟨_, _, _, rfl⟩
        | (simp [Op.call?] at hcall)
    have hnone : op.version? = none := by
      cases op <;> first
        | exact absurd ⟨_, _, _, rfl⟩ hop
        | rfl
    have hemits := r.exec_emission hx
    refine .other hnone (r.exec_changeVersions (fun id lo hi ho => hop ⟨id, lo, hi, ho⟩) hx)
      (fun past => ?_) ?_
    · rcases hemits.commands with hcmd | ⟨cmd, hkind, hcmd⟩
      · exact versionMarks_congr hcmd
      · have hne : cmd.call ≠ .marker "Version" := fun he => hcall (hkind.trans (congrArg some he))
        rw [versionMarks_concat hcmd, versions_of_other hne, List.append_nil]
    · rcases hemits.entries with he | ⟨e, hkind, he⟩
      · rw [versionEntries, versionEntries, he]
      · have hne : e ≠ ⟨.marker, "Version", ""⟩ := by
          rintro rfl
          exact hcall (hkind rfl)
        rw [versionEntries, versionEntries, he, List.count_append, List.count_singleton,
          beq_false_of_ne hne]
        rfl

/-- A step of the body ends it, leaving the versions alone, or is an operation with its answer. -/
theorem version_turn (hs : r.step = some r') :
    r'.program = r.program ∧ r'.isReplaying = r.isReplaying ∧ r'.world = r.world ∧
      (r'.trace = r.trace ∧ r'.changeVersions = r.changeVersions ∧
          (∀ past, r'.versionMarks past = r.versionMarks past) ∧
          r'.versionEntries = r.versionEntries ∨
        ∃ resp, r'.trace = r.trace ++ [resp] ∧
          VersionEffect r r' (r.program r.trace) resp) := by
  rcases step_cases hs with ⟨o, rfl⟩ | ⟨q, resp, hx, rfl⟩
  · have hentries : (r.finishBody o).versionEntries = r.versionEntries := by
      cases o <;> simp [versionEntries, Runner.finishBody, Runner.produce]
    refine ⟨?_, ?_, ?_, .inl ⟨?_, ?_, fun past => ?_, hentries⟩⟩ <;> cases o <;> rfl
  · have hframe := r.exec_frame hx
    have hprog : q.program = r.program := by
      rw [Runner.program, Runner.program, hframe.world, hframe.workflowFn, hframe.input]
    refine ⟨hprog, hframe.isReplaying, hframe.world, .inr ⟨resp, rfl, ?_⟩⟩
    have heffect := exec_version hx
    generalize r.program r.trace = op at heffect ⊢
    cases heffect with
    | other hop versions marks entries => exact .other hop versions marks entries
    | known recorded versions marks entries answer =>
      exact .known recorded versions marks entries answer
    | first unknown live versions marks entries => exact .first unknown live versions marks entries
    | unmarked unknown replaying versions => exact .unmarked unknown replaying versions

end Steps
section Live

variable {r r' : Runner σ} {c : DataConverter} {past : List EventAttributes}

theorem answeredBy_of_other {op : Op σ} (h : op.version? = none)
    (versions : PartialMap String Int) (resp : Resp σ) : AnsweredBy versions op resp := by
  cases op <;> trivial

theorem asked_concat {resp : Resp σ} (hp : r'.program = r.program)
    (ht : r'.trace = r.trace ++ [resp]) :
    r'.asked = r.asked ++ (r.program r.trace).version?.toList := by
  rw [asked, hp, ht, Program.versions_concat]
  rfl

/-- A runner knows the versions its markers record, each recorded once, and has answered with
them. -/
structure VersionsKept (c : DataConverter) (past : List EventAttributes) (r : Runner σ) : Prop where
  converter : r.world.converter = c
  known : r.changeVersions = recordedVersions c (r.versionMarks past)
  once : ∃ l : List (String × Int), r.versionMarks past = l.map (encodeVersion c) ∧
    (l.map Prod.fst).Nodup
  answered : r.program.Answered (AnsweredBy r.changeVersions) r.trace

theorem VersionsKept.step (h : VersionsKept c past r) (hc : c.RoundTrips) (hdated : r.Dated)
    (hs : r.step = some r') : VersionsKept c past r' := by
  obtain rfl := h.converter
  obtain ⟨hp, hr, hw, ⟨ht, hversions, hmarks, -⟩ | ⟨resp, ht, heffect⟩⟩ := version_turn hs
  · exact
      { converter := by rw [hw]
        known := by rw [hversions, hmarks, h.known]
        once := by rw [hmarks]; exact h.once
        answered := by rw [hp, ht, hversions]; exact h.answered }
  · generalize hop : r.program r.trace = op at heffect
    cases heffect with
    | other notVersion versions marks entries =>
      refine
        { converter := by rw [hw]
          known := by rw [versions, marks, h.known]
          once := by rw [marks]; exact h.once
          answered := ?_ }
      rw [hp, ht, versions]
      exact h.answered.concat (hop ▸ answeredBy_of_other notVersion _ _)
    | @known id lo hi v _ recorded versions marks entries answer =>
      refine
        { converter := by rw [hw]
          known := by rw [versions, marks, h.known]
          once := by rw [marks]; exact h.once
          answered := ?_ }
      rw [hp, ht, versions]
      refine h.answered.concat ?_
      rw [hop]
      exact ⟨v, recorded, answer⟩
    | @first id lo hi unknown live versions marks entries =>
      obtain ⟨l, hl, hnodup⟩ := h.once
      have hnew : id ∉ l.map Prod.fst := by
        intro hmem
        obtain ⟨x, hx, rfl⟩ := List.mem_map.mp hmem
        have hsome := recordedVersions_of_mem hc hnodup hx
        rw [← hl, ← h.known, unknown] at hsome
        cases hsome
      refine
        { converter := by rw [hw]
          known := by rw [versions, marks, recordedVersions_concat hc, h.known]
          once := ⟨l ++ [(id, hi)], ?_, ?_⟩
          answered := ?_ }
      · rw [marks, hl, List.map_append]
        rfl
      · rw [List.map_append, List.map_singleton, ← List.concat_eq_append]
        exact hnodup.concat hnew
      · rw [hp, ht, versions]
        refine Program.Answered.concat
          (h.answered.imp fun op resp ha => ha.mono fun j v hj => ?_) ?_
        · have hne : j ≠ id := by
            rintro rfl
            rw [unknown] at hj
            cases hj
          rw [PartialMap.insert_of_ne _ hne, hj]
        · rw [hop]
          exact ⟨hi, PartialMap.insert_self _ _ _, fun _ _ => rfl⟩
    | @unmarked id lo hi unknown replaying versions =>
      have hsome := hdated (id, hi) (by rw [hop]; rfl) replaying
      rw [unknown] at hsome
      cases hsome

variable {info : WorkflowInfo} {world : World σ} {fn : WorkflowFn σ} {evicted : Nat → Bool}

theorem versionsKept_fresh (past batch : History) (hu : UpdateFree (past ++ batch))
    (honce : ∃ l : List (String × Int),
      (markersOf (History.commandEvents (past ++ batch))).versions =
        l.map (encodeVersion world.converter) ∧ (l.map Prod.fst).Nodup) :
    VersionsKept world.converter (History.commandEvents (past ++ batch))
      (Runner.atTask info world fn none past batch) := by
  have hmarks : (Runner.atTask info world fn none past batch).versionMarks
      (History.commandEvents (past ++ batch)) =
        (markersOf (History.commandEvents (past ++ batch))).versions :=
    congrArg (fun l => (markersOf l).versions) (List.append_nil _)
  refine
    { converter := rfl
      known := ?_
      once := by rw [hmarks]; exact honce
      answered := Program.answered_nil _ _ }
  have hscan : (Runner.atTask info world fn none past batch).scan = scanAll (past ++ batch) :=
    scanHistory_of_updateFree hu
  have hrecord : (scanAll (past ++ batch)).versionMarkers =
      (markersOf (History.commandEvents (past ++ batch))).versions :=
    congrArg MarkerLists.versions (scanAll_markers (past ++ batch))
  change recordedVersions world.converter
    (Runner.atTask info world fn none past batch).scan.versionMarkers = _
  rw [hscan, hrecord, hmarks]

theorem versionsKept_tasks (hc : world.converter.RoundTrips) :
    TaskInvariant info world fn evicted Dated (VersionsKept world.converter) where
  first batch hu hb := by
    have h : VersionsKept world.converter (History.commandEvents ([] ++ batch))
        (Runner.atTask info world fn none [] batch) :=
      versionsKept_fresh [] batch hu ⟨[], by rw [List.nil_append, hb]; rfl, .nil⟩
    rw [List.nil_append, hb] at h
    exact h
  rebuilt _ past batch r _ hu h hbatch := by
    refine versionsKept_fresh past batch hu ?_
    rw [History.commandEvents_append, hbatch]
    exact h.once
  applied past batch r h hbatch := by
    obtain ⟨scan, futures, ht⟩ :=
      ({ r with commands := [], producedCommands := [] } : Runner σ).applyEvents_touches batch
    have hat : Runner.atTask info world fn (some r) past batch =
        { r with commands := [], producedCommands := [], scan := scan, futures := futures } := ht
    have hmarks : (Runner.atTask info world fn (some r) past batch).versionMarks
        (History.commandEvents (past ++ batch)) = r.versionMarks (History.commandEvents past) := by
      rw [hat, versionMarks, versionMarks, History.commandEvents_append, hbatch]
      exact congrArg (fun l => (markersOf l).versions) (List.append_nil _)
    refine
      { converter := ?_
        known := ?_
        once := by rw [hmarks]; exact h.once
        answered := ?_ }
    · rw [hat]
      exact h.converter
    · rw [hmarks, ← h.known, hat]
    · rw [hat]
      exact h.answered
  step past r r' hdated hs h := h.step hc hdated hs
  deadlocked past r h := { h with }

end Live
section Replay

/-- A call for a change on record is answered by its version, if that is in the range of the
call. -/
def CitedBy (record : PartialMap String Int) : Op σ → Resp σ → Prop
  | .getVersion id lo hi, resp => ∀ v, record id = some v → lo ≤ v → v ≤ hi → resp = .version v
  | _, _ => True

variable {r r' : Runner σ}

/-- A replay answers from the record, and enters every call for a change on record. -/
structure VersionsCited (record : PartialMap String Int) (r : Runner σ) : Prop where
  known : ∀ id v, record id = some v → r.changeVersions id = some v
  answered : r.program.Answered (CitedBy record) r.trace
  entries : (∀ x ∈ r.asked, (record x.1).isSome = true) → r.versionEntries = r.asked.length

theorem VersionsCited.step {record : PartialMap String Int} (h : VersionsCited record r)
    (hs : r.step = some r') : VersionsCited record r' := by
  obtain ⟨hp, -, -, ⟨ht, hversions, -, hentries⟩ | ⟨resp, ht, heffect⟩⟩ := version_turn hs
  · have hasked : r'.asked = r.asked := by rw [asked, asked, hp, ht]
    exact
      { known := by rw [hversions]; exact h.known
        answered := by rw [hp, ht]; exact h.answered
        entries := by rw [hasked, hentries]; exact h.entries }
  · have hasked := asked_concat hp ht
    generalize hop : r.program r.trace = op at heffect
    -- a call for a change on record is one for a version the runner knows
    have hnew {id : String} (hi : Int) (unknown : r.changeVersions id = none)
        (hv : op.version? = some (id, hi)) :
        record id = none ∧ ¬ ∀ x ∈ r'.asked, (record x.1).isSome = true := by
      have hnone : record id = none := by
        cases hrec : record id with
        | none => rfl
        | some v => rw [h.known id v hrec] at unknown; cases unknown
      refine ⟨hnone, fun hall => ?_⟩
      have hsome := hall (id, hi) (by rw [hasked, hop, hv]; simp)
      rw [hnone] at hsome
      cases hsome
    have hkept {id : String} {w : Int} (hn : record id = none)
        (versions : r'.changeVersions = r.changeVersions.insert id w) :
        ∀ j v, record j = some v → r'.changeVersions j = some v := by
      intro j v hj
      have hne : j ≠ id := by
        rintro rfl
        rw [hn] at hj
        cases hj
      rw [versions, PartialMap.insert_of_ne _ hne, h.known j v hj]
    cases heffect with
    | other notVersion versions marks entries =>
      rw [hop, notVersion, Option.toList_none, List.append_nil] at hasked
      refine
        { known := by rw [versions]; exact h.known
          answered := ?_
          entries := by rw [hasked, entries]; exact h.entries }
      rw [hp, ht]
      refine h.answered.concat ?_
      rw [hop]
      cases op <;> trivial
    | @known id lo hi v _ recorded versions marks entries answer =>
      refine
        { known := by rw [versions]; exact h.known
          answered := ?_
          entries := fun hall => ?_ }
      · rw [hp, ht]
        refine h.answered.concat ?_
        rw [hop]
        intro v' hv'
        cases recorded.symm.trans (h.known id v' hv')
        exact answer
      · rw [hop] at hasked
        rw [hasked] at hall ⊢
        rw [entries, h.entries fun x hx => hall x (List.mem_append_left _ hx), List.length_append]
        rfl
    | @first id lo hi unknown live versions marks entries =>
      obtain ⟨hn, hall⟩ := hnew hi unknown rfl
      refine ⟨hkept hn versions, ?_, fun h => absurd h hall⟩
      rw [hp, ht]
      refine h.answered.concat ?_
      rw [hop]
      intro v hv
      cases hn.symm.trans hv
    | @unmarked id lo hi unknown replaying versions =>
      obtain ⟨hn, hall⟩ := hnew hi unknown rfl
      refine ⟨hkept hn versions, ?_, fun h => absurd h hall⟩
      rw [hp, ht]
      refine h.answered.concat ?_
      rw [hop]
      intro v hv
      cases hn.symm.trans hv

end Replay
section Recordings

variable {fuel : Nat} {info : WorkflowInfo} {world : World σ} {fn : WorkflowFn σ}
  {evicted : Nat → Bool} {batches : List History} {last : History} {r : Runner σ}

theorem mem_asked {x : String × Int} (hx : x ∈ r.asked) :
    ∃ (i : Nat) (resp : Resp σ) (lo : Int), r.trace[i]? = some resp ∧
      r.program (r.trace.take i) = .getVersion x.1 lo x.2 := by
  obtain ⟨i, hi, hv⟩ := List.mem_filterMap.mp hx
  have hlt := List.mem_range.mp hi
  refine ⟨i, r.trace[i], ?_⟩
  cases hop : r.program (r.trace.take i) with
  | getVersion id lo hi =>
    rw [hop] at hv
    cases hv
    exact ⟨lo, List.getElem?_eq_getElem hlt, rfl⟩
  | _ =>
    rw [hop] at hv
    cases hv

/-- The Version markers of the whole history are those of the tasks before, and of the last. -/
theorem versionMarkers_recording (h : Recording fuel info world fn evicted batches last r) :
    (scanHistory (batches ++ [last]).flatten).versionMarkers =
      r.versionMarks (History.commandEvents batches.flatten) := by
  have hmarkers : (scanAll (batches ++ [last]).flatten).versionMarkers =
      (markersOf (History.commandEvents (batches ++ [last]).flatten)).versions :=
    congrArg MarkerLists.versions (scanAll_markers (batches ++ [last]).flatten)
  have hterm : (markersOf (r.terminalCommand.map Command.event).toList).versions = [] := by
    cases ht : r.terminalCommand with
    | none => rfl
    | some cmd =>
      refine versions_of_other ?_
      unfold Runner.terminalCommand at ht
      split at ht <;> cases ht <;> nofun
  rw [scanHistory_of_updateFree h.updateFree, hmarkers, List.flatten_append,
    List.flatten_singleton, History.commandEvents_append, h.closing, ← List.append_assoc,
    markersOf_append]
  change _ ++ (markersOf (r.terminalCommand.map Command.event).toList).versions = _
  rw [hterm, List.append_nil]
  rfl

/-- The versions of an execution that ended with `r`, against a replay of its history from scratch:
one marker for each change, every call answered by the version on record, live and on replay, and
on replay one entry for each change exactly when no change is asked for twice. -/
structure VersionsReplay (info : WorkflowInfo) (world : World σ) (fn : WorkflowFn σ)
    (isReplaying : Bool) (h : History) (r : Runner σ) : Prop where
  once : ∃ l : List (String × Int),
    (scanHistory h).versionMarkers = l.map (encodeVersion world.converter) ∧
      (l.map Prod.fst).Nodup ∧ ∀ x ∈ r.asked, x.1 ∈ l.map Prod.fst
  live : r.program.Answered
    (AnsweredBy (recordedVersions world.converter (scanHistory h).versionMarkers)) r.trace
  replayed : ∀ q, Reaches Runner.step (Runner.fresh info world fn isReplaying h) q →
    q.program.Answered
      (CitedBy (recordedVersions world.converter (scanHistory h).versionMarkers)) q.trace
  entries : ∀ q, Reaches Runner.step (Runner.fresh info world fn isReplaying h) q →
    (∀ x ∈ q.asked, x.1 ∈ r.asked.map Prod.fst) →
    (q.producedCommands.count ⟨.marker, "Version", ""⟩ = (q.asked.map Prod.fst).dedup.length ↔
      (q.asked.map Prod.fst).Nodup)

theorem versionsCited_replay {isReplaying : Bool} {h : History} {q : Runner σ}
    (hq : Reaches Runner.step (Runner.fresh info world fn isReplaying h) q) :
    VersionsCited (recordedVersions world.converter (scanHistory h).versionMarkers) q := by
  induction hq with
  | refl => exact ⟨fun _ _ hv => hv, Program.answered_nil _ _, fun _ => rfl⟩
  | tail _ hs ih => exact ih.step hs

theorem versionsReplay (h : Recording fuel info world fn evicted batches last r)
    (hdated : Runner.Throughout fuel info world fn Dated evicted 0 [] none batches)
    (isReplaying : Bool) :
    VersionsReplay info world fn isReplaying (batches ++ [last]).flatten r := by
  have hkept := (versionsKept_tasks h.roundTrips).recording h hdated
  have hmarks := versionMarkers_recording h
  have hknown : r.changeVersions = recordedVersions world.converter
      (scanHistory (batches ++ [last]).flatten).versionMarkers := by rw [hmarks, hkept.known]
  have hrecorded : ∀ x ∈ r.asked, (r.changeVersions x.1).isSome = true := by
    intro x hx
    obtain ⟨i, resp, lo, hi, hop⟩ := mem_asked hx
    have ha := hkept.answered i resp hi
    rw [hop] at ha
    obtain ⟨v, hv, -⟩ := ha
    rw [hv]
    rfl
  refine
    { once := ?_
      live := hknown ▸ hkept.answered
      replayed := fun q hq => (versionsCited_replay hq).answered
      entries := fun q hq hsub => ?_ }
  · obtain ⟨l, hl, hnodup⟩ := hkept.once
    refine ⟨l, hmarks.trans hl, hnodup, fun x hx => ?_⟩
    by_contra hn
    have hsome := hrecorded x hx
    rw [hkept.known, hl, recordedVersions_of_not_mem h.roundTrips hn] at hsome
    cases hsome
  · have hcount := (versionsCited_replay hq).entries fun x hx => by
      obtain ⟨y, hy, hyx⟩ := List.mem_map.mp (hsub x hx)
      rw [← hyx, ← hknown]
      exact hrecorded y hy
    rw [versionEntries] at hcount
    have hlen : q.asked.length = (q.asked.map Prod.fst).length := by rw [List.length_map]
    rw [hcount, hlen, ← List.dedup_eq_self]
    exact ⟨fun hlen => (List.dedup_sublist _).eq_of_length hlen.symm, fun heq => by rw [heq]⟩

/-- Whatever else a body does, its versions replay when each change is first asked for on a runner
that is not replaying, or is on record; a body that replays otherwise and asks for no change twice
replays as a whole. -/
theorem versions_replay (h : Recording fuel info world fn evicted batches last r)
    (hdated : Runner.Throughout fuel info world fn Dated evicted 0 [] none batches)
    (isReplaying : Bool) :
    VersionsReplay info world fn isReplaying (batches ++ [last]).flatten r ∧
      (Runner.Throughout fuel info world fn Runner.Repeats evicted 0 [] none batches →
        Runner.UndisturbedAll fuel info world fn evicted 0 [] none (batches ++ [last]) →
        (scanHistory (batches ++ [last]).flatten).versionMarkers =
            r.asked.map (encodeVersion world.converter) ∧ (r.asked.map Prod.fst).Nodup ∧
          ∃ q, Reaches Runner.step (Runner.fresh info world fn isReplaying
            (batches ++ [last]).flatten) q ∧ Recalls r q) := by
  refine ⟨versionsReplay h hdated isReplaying, fun hop hund => ?_⟩
  obtain ⟨b, he⟩ := h.ends hop hund
  obtain ⟨q, hq, hrecalls, -, -⟩ := h.recalls he ⟨rfl, rfl, rfl⟩ (.inl rfl) isReplaying
  obtain ⟨_, _, hcar⟩ := he.cached.carries
  have hasked : r.asked = (Setting.ofHistory info world fn
      (batches ++ [last]).flatten).program.versions b.trace := by
    rw [asked, hcar.program, hcar.trace]
  have hmarks : (scanHistory (batches ++ [last]).flatten).versionMarkers =
      (markersOf b.events).versions := by
    rw [scanHistory_of_updateFree h.updateFree,
      ← (scanAll_markers (batches ++ [last]).flatten).trans he.markers]
    rfl
  refine ⟨?_, ?_, _, hq, hrecalls⟩
  · rw [hmarks, he.versioned.markers, hasked]
    rfl
  · rw [hasked]
    exact he.versioned.once

end Recordings
end Runner
section Changes

/-- A body changed before and after its rest. -/
def changeTwice : WorkflowFn Unit where
  init := ()
  body _ answers :=
    match answers with
    | [] => .getVersion "pricing" 1 2
    | [_] => .startTimer 1000000000
    | [_, _] => .get 0
    | [_, _, _] => .getVersion "shipping" 1 3
    | _ => .finish (.returned [])

def versioned (id : String) (v : Int) : EventAttributes :=
  .markerRecorded "Version" (Runner.versionDetails .tagged id v)

def changeTwiceTasks : List History :=
  [[⟨1, .workflowExecutionStarted "ChangeTwice" [] []⟩, ⟨2, .other⟩, ⟨3, .other⟩],
    [⟨4, .other⟩, ⟨5, versioned "pricing" 2⟩, ⟨6, .timerStarted "t0"⟩, ⟨7, .timerFired "t0"⟩,
      ⟨8, .other⟩, ⟨9, .other⟩]]

def changeTwiceEnd : History :=
  [⟨10, .other⟩, ⟨11, versioned "shipping" 3⟩, ⟨12, .workflowExecutionCompleted []⟩]

theorem changeTwice_replays :
    ∃ r, (Runner.tasks 10 {} (World.plain .tagged) changeTwice (fun _ => false)
        changeTwiceTasks).getLast? = some r ∧
      r.asked = [("pricing", 2), ("shipping", 3)] ∧
      Runner.VersionsReplay {} (World.plain .tagged) changeTwice true
        (changeTwiceTasks ++ [changeTwiceEnd]).flatten r ∧
      (scanHistory (changeTwiceTasks ++ [changeTwiceEnd]).flatten).versionMarkers =
        r.asked.map (encodeVersion .tagged) ∧
      ∃ q, Reaches Runner.step (Runner.fresh {} (World.plain .tagged) changeTwice true
        (changeTwiceTasks ++ [changeTwiceEnd]).flatten) q ∧ Recalls r q := by
  have hreports : (Runner.tasks 10 {} (World.plain .tagged) changeTwice (fun _ => false)
      changeTwiceTasks).map Runner.report =
      [([versioned "pricing" 2, .timerStarted "t0"], none, false),
        ([versioned "shipping" 3], some (.completeWorkflowExecution []), false)] := by
    decide +kernel
  have hasked : (Runner.tasks 10 {} (World.plain .tagged) changeTwice (fun _ => false)
      changeTwiceTasks).getLast?.map Runner.asked = some [("pricing", 2), ("shipping", 3)] := by
    decide +kernel
  obtain ⟨r, hr, hasks⟩ := Option.map_eq_some_iff.mp hasked
  have hserved : Served (changeTwiceTasks ++ [changeTwiceEnd]).flatten :=
    ⟨by decide +kernel, by decide +kernel, by decide +kernel, by decide +kernel⟩
  have hrec : Recording 10 {} (World.plain .tagged) changeTwice (fun _ => false)
      changeTwiceTasks changeTwiceEnd r :=
    .of_reports DataConverter.tagged_roundTrips hserved (by decide +kernel) (by decide +kernel)
      hreports (by decide +kernel) (by decide +kernel) (by decide +kernel) (by decide +kernel) hr
  obtain ⟨hreplays, hrest⟩ := Runner.versions_replay hrec (.of_holds (by decide +kernel)) true
  obtain ⟨hmarkers, -, hrecalls⟩ := hrest (.of_holds (by decide +kernel))
    (.of_waiting (.of_holds (by decide +kernel)))
  exact ⟨r, hr, hasks, hreplays, hmarkers, hrecalls⟩

/-- A body that asks for one change twice, and rests. -/
def askTwice : WorkflowFn Unit where
  init := ()
  body _ answers :=
    match answers with
    | [] => .getVersion "pricing" 1 2
    | [_] => .getVersion "pricing" 1 2
    | [_, _] => .startTimer 1000000000
    | [_, _, _] => .get 0
    | _ => .finish (.returned [])

def askTwiceTask : History :=
  [⟨1, .workflowExecutionStarted "AskTwice" [] []⟩, ⟨2, .other⟩, ⟨3, .other⟩]

def askTwiceEnd : History :=
  [⟨4, .other⟩, ⟨5, versioned "pricing" 2⟩, ⟨6, .timerStarted "t0"⟩]

/-- The second call is answered from the record and entered as one more marker, which the history
does not have. -/
theorem askTwice_enters_twice :
    ∃ r q, Recording 10 {} (World.plain .tagged) askTwice (fun _ => false) [askTwiceTask]
        askTwiceEnd r ∧
      Runner.Throughout 10 {} (World.plain .tagged) askTwice Runner.Dated (fun _ => false) 0 []
        none [askTwiceTask] ∧
      Reaches Runner.step (Runner.fresh {} (World.plain .tagged) askTwice true
        ([askTwiceTask] ++ [askTwiceEnd]).flatten) q ∧
      r.trace.take 2 = [.version 2, .version 2] ∧ q.trace.take 2 = [.version 2, .version 2] ∧
      (scanHistory ([askTwiceTask] ++ [askTwiceEnd]).flatten).commands =
        [⟨.marker, "Version", ""⟩, ⟨.timer, "t0", ""⟩] ∧
      q.producedCommands =
        [⟨.marker, "Version", ""⟩, ⟨.marker, "Version", ""⟩, ⟨.timer, "t0", ""⟩] ∧
      q.checkDeterminism = some ("[TMPRL1100] nondeterministic workflow: at command #1 history " ++
        "recorded StartTimer/t0 but replay produced RecordMarker/Version") := by
  have hreports : (Runner.tasks 10 {} (World.plain .tagged) askTwice (fun _ => false)
      [askTwiceTask]).map Runner.report =
      [([versioned "pricing" 2, .timerStarted "t0"], none, false)] := by decide +kernel
  have hserved : Served ([askTwiceTask] ++ [askTwiceEnd]).flatten :=
    ⟨by decide +kernel, by decide +kernel, by decide +kernel, by decide +kernel⟩
  have hlive : (Runner.tasks 10 {} (World.plain .tagged) askTwice (fun _ => false)
      [askTwiceTask]).getLast?.map (·.trace.take 2) = some [.version 2, .version 2] := by
    decide +kernel
  have hreplay : (Parking.runFor Runner.step 10 (Runner.fresh {} (World.plain .tagged) askTwice
      true ([askTwiceTask] ++ [askTwiceEnd]).flatten)).map (fun q => (q.trace.take 2,
        (scanHistory ([askTwiceTask] ++ [askTwiceEnd]).flatten).commands, q.producedCommands,
        q.checkDeterminism)) =
      some ([.version 2, .version 2], [⟨.marker, "Version", ""⟩, ⟨.timer, "t0", ""⟩],
        [⟨.marker, "Version", ""⟩, ⟨.marker, "Version", ""⟩, ⟨.timer, "t0", ""⟩],
        some ("[TMPRL1100] nondeterministic workflow: at command #1 history " ++
          "recorded StartTimer/t0 but replay produced RecordMarker/Version")) := by
    decide +kernel
  obtain ⟨r, hr, hans⟩ := Option.map_eq_some_iff.mp hlive
  obtain ⟨q, hq, hrest⟩ := Option.map_eq_some_iff.mp hreplay
  simp only [Prod.mk.injEq] at hrest
  exact ⟨r, q, .of_reports DataConverter.tagged_roundTrips hserved (by decide +kernel)
    (by decide +kernel) hreports (by decide +kernel) (by decide +kernel) (by decide +kernel)
    (by decide +kernel) hr, .of_holds (by decide +kernel),
    (StateTransition.mem_eval.mp (Parking.runFor_mem_eval hq)).1, hans, hrest⟩

end Changes
end TemporalSdk
