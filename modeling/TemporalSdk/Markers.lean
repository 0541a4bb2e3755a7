import TemporalSdk.Sequence
import TemporalSdk.Frame

/-! Version and MutableSideEffect markers: what a runner reads of them when it is built, and how
far its body has come among them. -/
namespace TemporalSdk

namespace EventAttributes

/-- The change id and the version of a Version marker, still encoded. -/
def version? : EventAttributes → Option (Payloads × Payloads)
  | .markerRecorded name details =>
    if name = "Version" then
      (details.lookup "change-id").bind fun id =>
        (details.lookup "version").map fun ver => (id, ver)
    else none
  | _ => none

def mutable? : EventAttributes → Option MutableSideEffectMarkerRaw
  | .markerRecorded name details =>
    if name = "MutableSideEffect" then
      ((details.lookup "id").bind List.head?).bind fun id =>
        ((details.lookup "mse-call-index").bind List.head?).bind fun idx =>
          ((details.lookup "data").bind List.head?).map fun data => ⟨id, idx, data⟩
    else none
  | _ => none

end EventAttributes

/-- The markers a scan has kept. -/
@[ext] structure MarkerLists where
  versions : List (Payloads × Payloads)
  mutables : List MutableSideEffectMarkerRaw

def Prescan.markers (ps : Prescan) : MarkerLists := ⟨ps.versionMarkers, ps.mutableSideEffectMarkers⟩

/-- The markers among command events. -/
def markersOf (l : List EventAttributes) : MarkerLists :=
  ⟨l.filterMap EventAttributes.version?, l.filterMap EventAttributes.mutable?⟩

section Scanning

theorem markersOf_append (l l' : List EventAttributes) :
    markersOf (l ++ l') = ⟨(markersOf l).versions ++ (markersOf l').versions,
      (markersOf l).mutables ++ (markersOf l').mutables⟩ := by
  simp only [markersOf, List.filterMap_append]

theorem Prescan.scanMarker_markers (ps : Prescan) (name : String)
    (details : List (String × Payloads)) :
    (ps.scanMarker name details).markers =
      ⟨ps.versionMarkers ++ (markersOf [.markerRecorded name details]).versions,
        ps.mutableSideEffectMarkers ++ (markersOf [.markerRecorded name details]).mutables⟩ := by
  unfold Prescan.scanMarker
  by_cases hv : name = "Version"
  · subst hv
    cases hid : details.lookup "change-id" <;> cases hver : details.lookup "version" <;>
      simp [markersOf, EventAttributes.version?, EventAttributes.mutable?, Prescan.markers, hid,
        hver]
  · by_cases hm : name = "MutableSideEffect"
    · subst hm
      have hmarkers : markersOf [.markerRecorded "MutableSideEffect" details] =
          ⟨[], (EventAttributes.mutable?
            (.markerRecorded "MutableSideEffect" details)).toList⟩ := by
        rw [markersOf, List.filterMap_cons, List.filterMap_nil, List.filterMap_cons]
        cases EventAttributes.mutable? _ <;> rfl
      rw [hmarkers, EventAttributes.mutable?, if_pos rfl, List.append_nil]
      simp only [String.reduceEq, if_false, if_true]
      have hkept : ps.markers = ⟨ps.versionMarkers, ps.mutableSideEffectMarkers ++ []⟩ := by
        rw [List.append_nil]
        rfl
      rcases details.lookup "id" with _ | _ | ⟨id, _⟩
      · exact hkept
      · exact hkept
      rcases details.lookup "mse-call-index" with _ | _ | ⟨idx, _⟩
      · exact hkept
      · exact hkept
      rcases details.lookup "data" with _ | _ | ⟨data, _⟩
      · exact hkept
      · exact hkept
      rfl
    · have hnone : markersOf [.markerRecorded name details] = ⟨[], []⟩ := by
        simp [markersOf, EventAttributes.version?, EventAttributes.mutable?, hv, hm]
      rw [hnone, if_neg hv, if_neg hm, List.append_nil, List.append_nil]
      split_ifs <;> (try split) <;> rfl

theorem Prescan.scanEvent_markers (ps : Prescan) (e : HistoryEvent) :
    (ps.scanEvent e).markers =
      ⟨ps.versionMarkers ++ (markersOf (History.commandEvents [e])).versions,
        ps.mutableSideEffectMarkers ++ (markersOf (History.commandEvents [e])).mutables⟩ := by
  have hsame {ps' : Prescan} {l : List EventAttributes} (h : ps'.markers = ps.markers)
      (hl : markersOf l = ⟨[], []⟩) :
      ps'.markers = ⟨ps.versionMarkers ++ (markersOf l).versions,
        ps.mutableSideEffectMarkers ++ (markersOf l).mutables⟩ := by
    rw [h, hl, List.append_nil, List.append_nil]
    rfl
  obtain ⟨eid, a⟩ := e
  cases a with
  | markerRecorded name details =>
    exact (ps.pushCommand .marker name "").scanMarker_markers name details
  | _ =>
    refine hsame ?_ rfl
    first
      | rfl
      | (simp only [Prescan.scanEvent, Prescan.onActivity, Prescan.onNexus]; split <;> rfl)

/-- A scan keeps the markers of its history. -/
theorem scanAll_markers (h : History) :
    (scanAll h).markers = markersOf (History.commandEvents h) := by
  induction h using List.reverseRecOn with
  | nil => rfl
  | append_singleton p e ih =>
    have hv : (scanAll p).versionMarkers = _ := congrArg MarkerLists.versions ih
    have hm : (scanAll p).mutableSideEffectMarkers = _ := congrArg MarkerLists.mutables ih
    rw [scanAll_concat, Prescan.scanOne, Prescan.scanEvent_markers, History.commandEvents_append,
      markersOf_append]
    dsimp only
    rw [hv, hm]

variable {σ : Type}

/-- The events of a continuation bring a runner no markers. -/
theorem Runner.applyEventToState_markers (r : Runner σ) (e : HistoryEvent) :
    (r.applyEventToState e).scan.markers = r.scan.markers := by
  obtain ⟨eid, a⟩ := e
  cases a with
  | activityTaskCancelRequested sid =>
    simp only [Runner.applyEventToState, Prescan.onActivity]
    split <;> rfl
  | workflowExecutionCancelRequested =>
    simp only [Runner.applyEventToState, Runner.foldl_setFuture_scan]
    rfl
  | _ => first
    | rfl
    | (change (Runner.resolveFuture _ _ _).scan.markers = _; rw [Runner.resolveFuture_scan])

theorem Runner.applyEvents_markers (r : Runner σ) (evs : History) :
    (r.applyEvents evs).scan.markers = r.scan.markers := by
  induction evs generalizing r with
  | nil => rfl
  | cons e evs ih =>
    by_cases hst : e.eventId ≤ r.scan.lastEventId
    · rw [r.applyEvents_cons_stale hst, ih]
    · rw [r.applyEvents_cons_new (Nat.lt_of_not_le hst), ih]
      exact r.applyEventToState_markers e

end Scanning

section Reading

variable {c : DataConverter}

/-- A change and its version as a marker records them. -/
def encodeVersion (c : DataConverter) (x : String × Int) : Payloads × Payloads :=
  ([c.toPayload (.str x.1)], [c.toPayload (.int x.2)])

theorem Runner.recordedVersions_concat (hc : c.RoundTrips) (l : List (Payloads × Payloads))
    (x : String × Int) :
    Runner.recordedVersions c (l ++ [encodeVersion c x]) =
      (Runner.recordedVersions c l).insert x.1 x.2 := by
  simp [Runner.recordedVersions, encodeVersion, DataConverter.fromPayloadStr,
    DataConverter.fromPayloadInt, hc.fromPayload_toPayload]

/-- A version that has not been recorded. -/
theorem Runner.recordedVersions_of_not_mem (hc : c.RoundTrips) {l : List (String × Int)}
    {id : String} (h : id ∉ l.map Prod.fst) :
    Runner.recordedVersions c (l.map (encodeVersion c)) id = none := by
  induction l using List.reverseRecOn with
  | nil => rfl
  | append_singleton l x ih =>
    simp only [List.map_append, List.map_cons, List.map_nil, List.mem_append, List.mem_singleton,
      not_or] at h
    rw [List.map_append, List.map_singleton, Runner.recordedVersions_concat hc,
      PartialMap.insert_of_ne _ h.2, ih h.1]

/-- A version that has been recorded once. -/
theorem Runner.recordedVersions_of_mem (hc : c.RoundTrips) {l : List (String × Int)}
    (hl : (l.map Prod.fst).Nodup) {x : String × Int} (h : x ∈ l) :
    Runner.recordedVersions c (l.map (encodeVersion c)) x.1 = some x.2 := by
  induction l using List.reverseRecOn with
  | nil => cases h
  | append_singleton l y ih =>
    rw [List.map_append, List.nodup_append] at hl
    rw [List.map_append, List.map_singleton, Runner.recordedVersions_concat hc]
    rcases List.mem_append.mp h with hx | hx
    · have hne : x.1 ≠ y.1 := hl.2.2 x.1 (List.mem_map_of_mem hx) y.1 (by simp)
      rw [PartialMap.insert_of_ne _ hne, ih hl.1 hx]
    · rw [List.mem_singleton.mp hx, PartialMap.insert_self]

/-- The recorded changes of one mutable side effect. -/
def Runner.changes (c : DataConverter) (id : String) (l : List MutableSideEffectMarkerRaw) :
    List (Int × Payload) :=
  (Runner.recordedMutable c l id).getD []

/-- What one marker adds to the changes of `id`. -/
def Runner.change (c : DataConverter) (id : String) (m : MutableSideEffectMarkerRaw) :
    List (Int × Payload) :=
  match c.fromPayloadStr m.id, c.fromPayloadInt m.callIndex with
  | some i, some idx => if i = id then [(idx, m.data)] else []
  | _, _ => []

theorem Runner.changes_concat (c : DataConverter) (id : String)
    (l : List MutableSideEffectMarkerRaw) (m : MutableSideEffectMarkerRaw) :
    Runner.changes c id (l ++ [m]) = Runner.changes c id l ++ Runner.change c id m := by
  unfold Runner.changes Runner.change Runner.recordedMutable
  rw [List.foldl_append, List.foldl_cons, List.foldl_nil]
  cases c.fromPayloadStr m.id with
  | none => exact (List.append_nil _).symm
  | some i =>
    cases c.fromPayloadInt m.callIndex with
    | none => exact (List.append_nil _).symm
    | some idx =>
      dsimp only
      by_cases hi : i = id
      · subst hi
        rw [PartialMap.modify_self, if_pos rfl, Option.getD_some]
      · rw [PartialMap.modify_of_ne _ (Ne.symm hi), if_neg hi, List.append_nil]

theorem Runner.changes_append (c : DataConverter) (id : String)
    (l l' : List MutableSideEffectMarkerRaw) :
    Runner.changes c id (l ++ l') = Runner.changes c id l ++ Runner.changes c id l' := by
  induction l' using List.reverseRecOn with
  | nil =>
    rw [List.append_nil]
    exact (List.append_nil _).symm
  | append_singleton l' m ih =>
    rw [← List.append_assoc, Runner.changes_concat, ih, Runner.changes_concat, List.append_assoc]

theorem Runner.changes_isPrefix (c : DataConverter) (id : String)
    {l l' : List MutableSideEffectMarkerRaw} (h : l <+: l') :
    Runner.changes c id l <+: Runner.changes c id l' := by
  obtain ⟨t, rfl⟩ := h
  rw [Runner.changes_append]
  exact List.prefix_append _ _

variable {σ : Type} {r : Runner σ} {id : String} {equals : Value → Value → Bool}

/-- A call whose change is on record. -/
theorem Runner.mutableSideEffect_recorded (hc : r.world.converter.RoundTrips) {v : Value}
    (h : ((r.mseRecorded id).getD [])[(r.mseCursor id).getD 0]? =
      some (((r.mseCallCount id).getD 0 : Int), r.world.converter.toPayload v)) :
    r.mutableSideEffect id equals =
      ({ ({ r with
          mseCallCount := r.mseCallCount.insert id ((r.mseCallCount id).getD 0 + 1) }.produce
            .marker "MutableSideEffect" "") with
          mseCurrent := r.mseCurrent.insert id (r.world.converter.toPayload v)
          mseCursor := r.mseCursor.insert id ((r.mseCursor id).getD 0 + 1) }, .value v) := by
  cases hr : r.mseRecorded id with
  | none => simp [hr] at h
  | some l =>
    rw [hr, Option.getD_some] at h
    simp only [Runner.mutableSideEffect, hr, h, if_true, hc.fromPayload_toPayload]

/-- A call between two changes on record. -/
theorem Runner.mutableSideEffect_passed (hc : r.world.converter.RoundTrips) {current : Value}
    (hcur : r.mseCurrent id = some (r.world.converter.toPayload current)) {p : Int × Payload}
    (h : ((r.mseRecorded id).getD [])[(r.mseCursor id).getD 0]? = some p)
    (hp : p.1 ≠ ((r.mseCallCount id).getD 0 : Int)) :
    r.mutableSideEffect id equals =
      ({ r with
        mseCallCount := r.mseCallCount.insert id ((r.mseCallCount id).getD 0 + 1)
        mseCurrent := r.mseCurrent.insert id (r.world.converter.toPayload current) },
        .value current) := by
  cases hr : r.mseRecorded id with
  | none => simp [hr] at h
  | some l =>
    rw [hr, Option.getD_some] at h
    simp only [Runner.mutableSideEffect, hr, h, if_neg hp, hcur, Option.getD_some,
      hc.fromPayload_toPayload]

/-- A call beyond the record, whose function gives `v`. -/
theorem Runner.mutableSideEffect_live (hc : r.world.converter.RoundTrips) {v : Value}
    {current : Option Value}
    (hcur : r.mseCurrent id = current.map r.world.converter.toPayload)
    (h : ((r.mseRecorded id).getD [])[(r.mseCursor id).getD 0]? = none)
    (hv : r.world.mutableSideEffectFn id ((r.mseCallCount id).getD 0) = .ok v) :
    r.mutableSideEffect id equals =
      match current.filter (equals · v) with
      | some x =>
        ({ r with mseCallCount := r.mseCallCount.insert id ((r.mseCallCount id).getD 0 + 1) },
          .value x)
      | none =>
        ({ ({ r with
            mseCallCount := r.mseCallCount.insert id ((r.mseCallCount id).getD 0 + 1) }.produce
              .marker "MutableSideEffect" "").recordMarker "MutableSideEffect"
                (Runner.mutableDetails r.world.converter id ((r.mseCallCount id).getD 0) v) with
            mseCurrent := r.mseCurrent.insert id (r.world.converter.toPayload v) }, .value v) := by
  cases current with
  | none =>
    cases hr : r.mseRecorded id with
    | none => simp only [Runner.mutableSideEffect, hr, hv, hcur, Option.map_none,
        Option.filter_none, Runner.mutableDetails]
    | some l =>
      rw [hr, Option.getD_some] at h
      simp only [Runner.mutableSideEffect, hr, h, hv, hcur, Option.map_none, Option.filter_none,
        Runner.mutableDetails]
  | some x =>
    cases hr : r.mseRecorded id with
    | none =>
      simp only [Runner.mutableSideEffect, hr, hv, hcur, Option.map_some, hc.fromPayload_toPayload,
        Option.filter_some, Runner.mutableDetails]
      split <;> rfl
    | some l =>
      rw [hr, Option.getD_some] at h
      simp only [Runner.mutableSideEffect, hr, h, hv, hcur, Option.map_some,
        hc.fromPayload_toPayload, Option.filter_some, Runner.mutableDetails]
      split <;> rfl

end Reading

namespace Progress

variable {σ : Type} {s : Setting σ} {S : Prescan} {b b' : Progress σ}

/-- The changes of a mutable side effect that the body has made. -/
def changes (b : Progress σ) (c : DataConverter) (id : String) : List (Int × Payload) :=
  Runner.changes c id (markersOf b.events).mutables

/-- The versions on record are those the body has asked for, each once. -/
structure Versioned (s : Setting σ) (b : Progress σ) : Prop where
  markers : (markersOf b.events).versions =
    (s.program.versions b.trace).map (encodeVersion s.world.converter)
  once : ((s.program.versions b.trace).map Prod.fst).Nodup

/-- Most operations issue at most one command, and no marker that a runner keeps. -/
theorem exec_cases {op : Op σ} {resp : Resp σ} (h : b.exec s S op = some (b', resp))
    (hv : op.version? = none) (hm : ∀ id equals, op ≠ .mutableSideEffect id equals) :
    b'.mseCallCount = b.mseCallCount ∧ b'.mseCurrent = b.mseCurrent ∧
      (b'.events = b.events ∨
        ∃ a, b'.events = b.events ++ [a] ∧ markersOf [a] = ⟨[], []⟩ ∧
          a.isRequest = op.isRequest) := by
  cases op <;> simp only [exec, Option.some.injEq, Prod.mk.injEq, reduceCtorEq] at h
  case mutableSideEffect id equals => exact absurd rfl (hm id equals)
  case getVersion changeId lo hi => cases hv
  case startChildWorkflow type input options =>
    split at h
    · cases h
      exact ⟨rfl, rfl, .inr ⟨_, b.opening_events _ _, rfl, rfl⟩⟩
    · cases h
  case get addr =>
    split at h
    · cases h
      exact ⟨rfl, rfl, .inl rfl⟩
    · cases h
  case receive name =>
    obtain ⟨p, -, hp⟩ := Option.map_eq_some_iff.mp h
    cases hp
    exact ⟨rfl, rfl, .inl rfl⟩
  case receiveAsync name =>
    split at h <;> cases h <;> exact ⟨rfl, rfl, .inl rfl⟩
  case select cases hasDefault =>
    split at h
    · cases h
      exact ⟨rfl, rfl, .inl rfl⟩
    · split at h
      · cases h
        exact ⟨rfl, rfl, .inl rfl⟩
      · cases h
  case sideEffect =>
    split at h
    · cases h
      exact ⟨rfl, rfl, .inr ⟨_, b.issue_events _, rfl, rfl⟩⟩
    · cases h
  case executeLocalActivity type input options =>
    obtain ⟨fn, -, hfn⟩ := Option.map_eq_some_iff.mp h
    cases hfn
    exact ⟨rfl, rfl, .inr ⟨_, b.issue_events _, rfl, rfl⟩⟩
  case cancel addr =>
    obtain ⟨c, hc, he⟩ := Option.map_eq_some_iff.mp h
    obtain rfl : c = b' := congrArg Prod.fst he
    rcases request_cases hc with rfl | ⟨cmd, rfl, hrequest, -⟩
    · exact ⟨rfl, rfl, .inl rfl⟩
    · refine ⟨rfl, rfl, .inr ⟨_, b.issue_events _, ?_, hrequest⟩⟩
      cases hevent : cmd.event with
      | markerRecorded name details =>
        rw [hevent] at hrequest
        cases hrequest
      | _ => rfl
  all_goals
    obtain ⟨rfl, -⟩ := h
    first
      | exact ⟨rfl, rfl, .inl rfl⟩
      | exact ⟨rfl, rfl, .inr ⟨_, b.opening_events _ _, rfl, rfl⟩⟩
      | exact ⟨rfl, rfl, .inr ⟨_, b.issue_events _, rfl, rfl⟩⟩

/-- What one operation does to the markers: a first `GetVersion` adds its version, a changed
`MutableSideEffect` its value. -/
structure MarksStep (s : Setting σ) (b b' : Progress σ) : Prop where
  asked : s.program.versions b'.trace =
    s.program.versions b.trace ++ (s.program b.trace).version?.toList
  versions : (markersOf b'.events).versions = (markersOf b.events).versions ++
    (s.program b.trace).version?.toList.map (encodeVersion s.world.converter)
  fresh : ∀ x ∈ (s.program b.trace).version?, x.1 ∉ (s.program.versions b.trace).map Prod.fst
  calls : ∀ id, (b.mseCallCount id).getD 0 ≤ (b'.mseCallCount id).getD 0
  changes : ∀ id, b'.changes s.world.converter id = b.changes s.world.converter id ∨
    ∃ data : Payload, b'.changes s.world.converter id =
      b.changes s.world.converter id ++ [(((b.mseCallCount id).getD 0 : Int), data)] ∧
      (b.mseCallCount id).getD 0 < (b'.mseCallCount id).getD 0

theorem markersOf_version (c : DataConverter) (id : String) (v : Int) :
    markersOf [.markerRecorded "Version" (Runner.versionDetails c id v)] =
      ⟨[encodeVersion c (id, v)], []⟩ := by
  simp [markersOf, EventAttributes.version?, EventAttributes.mutable?, Runner.versionDetails,
    List.lookup_cons, encodeVersion]

theorem markersOf_mutable (c : DataConverter) (id : String) (idx : Nat) (v : Value) :
    markersOf [.markerRecorded "MutableSideEffect" (Runner.mutableDetails c id idx v)] =
      ⟨[], [⟨c.toPayload (.str id), c.toPayload (.int idx), c.toPayload v⟩]⟩ := by
  simp [markersOf, EventAttributes.version?, EventAttributes.mutable?, Runner.mutableDetails,
    List.lookup_cons]

theorem change_mutable {c : DataConverter} (hc : c.RoundTrips) (id j : String) (idx : Nat)
    (v : Value) :
    Runner.change c j ⟨c.toPayload (.str id), c.toPayload (.int idx), c.toPayload v⟩ =
      if id = j then [((idx : Int), c.toPayload v)] else [] := by
  simp [Runner.change, DataConverter.fromPayloadStr, DataConverter.fromPayloadInt,
    hc.fromPayload_toPayload]

theorem changes_issue (c : DataConverter) (id : String) {a : EventAttributes}
    (h : b'.events = b.events ++ [a]) :
    b'.changes c id = b.changes c id ++ Runner.changes c id (markersOf [a]).mutables := by
  rw [Progress.changes, h, markersOf_append, Runner.changes_append]
  rfl

/-- What a MutableSideEffect marker adds to the changes of each id. -/
theorem changes_issue_mutable {c : DataConverter} (hc : c.RoundTrips) (b : Progress σ)
    (id j : String) (idx : Nat) (v : Value) :
    (b.issue (.recordMarker "MutableSideEffect" (Runner.mutableDetails c id idx v))).changes c j =
      b.changes c j ++ if id = j then [((idx : Int), c.toPayload v)] else [] := by
  have hone := Runner.changes_concat c j []
    ⟨c.toPayload (.str id), c.toPayload (.int idx), c.toPayload v⟩
  rw [List.nil_append, change_mutable hc] at hone
  rw [changes_issue c j (b.issue_events _), Command.event, markersOf_mutable, hone]
  rfl

/-- An operation that leaves the markers alone. -/
theorem MarksStep.of_unmarked (hv : (s.program b.trace).version? = none)
    (ht : s.program.versions b'.trace = s.program.versions b.trace)
    (he : markersOf b'.events = markersOf b.events) (hm : b'.mseCallCount = b.mseCallCount) :
    MarksStep s b b' where
  asked := by rw [ht, hv, Option.toList_none, List.append_nil]
  versions := by rw [he, hv, Option.toList_none, List.map_nil, List.append_nil]
  fresh x hx := by
    rw [hv] at hx
    cases hx
  calls id := by rw [hm]
  changes id := .inl (by rw [Progress.changes, he]; rfl)

/-- A changed value is issued with the index of its call. -/
theorem mutable_marks (hc : s.world.converter.RoundTrips) {id : String}
    {equals : Value → Value → Bool} (hop : s.program b.trace = .mutableSideEffect id equals)
    (v : Value) (resp : Resp σ) :
    MarksStep s b
      { (b.mutable s.world.converter id equals v).1 with trace := b.trace ++ [resp] } := by
  have hv : (s.program b.trace).version? = none := by rw [hop]; rfl
  have hasked := s.program.versions_concat b.trace resp
  have hcalls (j : String) : (b.mseCallCount j).getD 0 ≤
      ((b.mseCallCount.insert id ((b.mseCallCount id).getD 0 + 1)) j).getD 0 := by
    by_cases hj : j = id
    · subst hj
      rw [PartialMap.insert_self, Option.getD_some]
      omega
    · rw [PartialMap.insert_of_ne _ hj]
  have hnone : (s.program b.trace).version?.toList.map (encodeVersion s.world.converter) = [] := by
    rw [hv]
    rfl
  unfold Progress.mutable
  dsimp only
  split
  · exact
      { asked := hasked
        versions := by
          rw [hnone, List.append_nil]
          rfl
        fresh := fun x hx => by
          rw [hv] at hx
          cases hx
        calls := hcalls
        changes := fun j => .inl rfl }
  · have hev := b.issue_events (.recordMarker "MutableSideEffect" (Runner.mutableDetails
      s.world.converter id ((b.mseCallCount id).getD 0) v))
    refine ⟨hasked, ?_, fun x hx => ?_, hcalls, fun j => ?_⟩
    · rw [hnone, List.append_nil]
      change (markersOf (b.issue _).events).versions = _
      rw [hev, markersOf_append, Command.event, markersOf_mutable, List.append_nil]
    · rw [hv] at hx
      cases hx
    · have hch := b.changes_issue_mutable hc id j ((b.mseCallCount id).getD 0) v
      by_cases hj : id = j
      · subst hj
        rw [if_pos rfl] at hch
        refine .inr ⟨_, hch, ?_⟩
        change _ < ((b.mseCallCount.insert id _) id).getD 0
        rw [PartialMap.insert_self, Option.getD_some]
        exact Nat.lt_succ_self _
      · rw [if_neg hj, List.append_nil] at hch
        exact .inl hch

theorem step_marks (hc : s.world.converter.RoundTrips) (h : b.step s S = some b') :
    MarksStep s b b' := by
  unfold step at h
  split at h
  · cases h
  · cases hfin : (s.program b.trace).outcome? with
    | some o =>
      have hv : (s.program b.trace).version? = none := by
        revert hfin
        cases s.program b.trace <;> intro hfin <;> first
          | rfl
          | cases hfin
      rw [hfin] at h
      cases h
      exact .of_unmarked hv rfl rfl rfl
    | none =>
      rw [hfin] at h
      obtain ⟨⟨d, resp⟩, hd, rfl⟩ := Option.map_eq_some_iff.mp h
      have hasked := s.program.versions_concat b.trace resp
      cases hop : s.program b.trace with
      | mutableSideEffect id equals =>
        simp only [hop, exec] at hd
        split at hd
        · next v _ =>
          have hd' : (b.mutable s.world.converter id equals v).1 = d :=
            congrArg Prod.fst (Option.some.inj hd)
          rw [← hd']
          exact mutable_marks hc hop v resp
        · cases hd
      | getVersion changeId lo hi =>
        simp only [hop, exec] at hd
        split at hd
        · next hnew =>
          cases hd
          have hev := b.issue_events (.recordMarker "Version"
            (Runner.versionDetails s.world.converter changeId hi))
          refine ⟨hasked, ?_, fun x hx => ?_, fun _ => le_rfl, fun j => .inl ?_⟩
          · change (markersOf (b.issue _).events).versions = _
            rw [hev, markersOf_append, Command.event, markersOf_version, hop]
            rfl
          · rw [hop] at hx
            cases hx
            exact hnew.2
          · have hch := changes_issue s.world.converter j hev
            rw [Command.event, markersOf_version] at hch
            exact hch.trans (List.append_nil _)
        · cases hd
      | _ =>
        rw [hop] at hd
        obtain ⟨hcount, -, hev⟩ := exec_cases hd rfl (fun _ _ ho => by cases ho)
        have hv : (s.program b.trace).version? = none := by rw [hop]; rfl
        refine .of_unmarked hv ?_ ?_ hcount
        · rw [hasked, hv, Option.toList_none, List.append_nil]
        · rcases hev with hev | ⟨a, hev, ha, -⟩
          · exact congrArg markersOf hev
          · change markersOf d.events = _
            rw [hev, markersOf_append, ha, List.append_nil, List.append_nil]

theorem start_versioned (s : Setting σ) : Versioned s s.start := ⟨rfl, .nil⟩

theorem Versioned.step (h : Versioned s b) (hs : MarksStep s b b') : Versioned s b' where
  markers := by rw [hs.versions, hs.asked, List.map_append, h.markers]
  once := by
    rw [hs.asked, List.map_append, List.nodup_append]
    refine ⟨h.once, ?_, fun x hx y hy => ?_⟩
    · cases (s.program b.trace).version? <;> simp
    · obtain ⟨z, hz, rfl⟩ := List.mem_map.mp hy
      rintro rfl
      exact hs.fresh z (Option.mem_toList.mp hz) hx

theorem Versioned.reaches (hc : s.world.converter.RoundTrips) (h : Versioned s b)
    (hr : StateTransition.Reaches (Progress.step s S) b b') : Versioned s b' := by
  induction hr with
  | refl => exact h
  | tail _ hs ih => exact ih.step (step_marks hc hs)

/-- The operations are numbered and the versions asked for once. -/
structure Regular (s : Setting σ) (b : Progress σ) : Prop extends Ordered s b, Versioned s b

theorem start_regular (s : Setting σ) : Regular s s.start :=
  { start_ordered s, start_versioned s with }

theorem Regular.reaches (hc : s.world.converter.RoundTrips) (h : Regular s b)
    (hr : StateTransition.Reaches (Progress.step s S) b b') : Regular s b' :=
  { h.toOrdered.reaches hr, h.toVersioned.reaches hc hr with }

/-- The versions asked for, and the changes made: these come with later call indices. -/
structure MarksOnward (s : Setting σ) (b b' : Progress σ) : Prop where
  asked : s.program.versions b.trace <+: s.program.versions b'.trace
  changes : ∀ id, ∃ later, b'.changes s.world.converter id =
    b.changes s.world.converter id ++ later ∧ ∀ p ∈ later,
      ((b.mseCallCount id).getD 0 : Int) ≤ p.1 ∧ p.1 < ((b'.mseCallCount id).getD 0 : Int)
  calls : ∀ id, (b.mseCallCount id).getD 0 ≤ (b'.mseCallCount id).getD 0

theorem reaches_marks (hc : s.world.converter.RoundTrips)
    (hr : StateTransition.Reaches (Progress.step s S) b b') : MarksOnward s b b' := by
  induction hr with
  | refl =>
    exact ⟨List.prefix_rfl, fun id => ⟨[], (List.append_nil _).symm, nofun⟩, fun _ => le_rfl⟩
  | @tail d d' _ hs ih =>
    have hm := step_marks hc hs
    refine ⟨?_, fun id => ?_, fun id => (ih.calls id).trans (hm.calls id)⟩
    · rw [hm.asked]
      exact ih.asked.trans (List.prefix_append _ _)
    · obtain ⟨later, hlater, hge⟩ := ih.changes id
      have hcalls := hm.calls id
      rcases hm.changes id with heq | ⟨data, heq, hlt⟩
      · refine ⟨later, heq.trans hlater, fun p hp => ?_⟩
        have := hge p hp
        omega
      · refine ⟨later ++ [_], by rw [heq, hlater, List.append_assoc], fun p hp => ?_⟩
        rcases List.mem_append.mp hp with hp | hp
        · have := hge p hp
          omega
        · rw [List.mem_singleton.mp hp]
          have := ih.calls id
          dsimp only
          omega

end Progress

/-- How the record of `scan` decides on the markers of the next step: as if the first `base`
commands were on record. -/
structure Anchored {σ : Type} (s : Setting σ) (scan : Prescan) (base : Nat) (b b' : Progress σ) :
    Prop where
  version : ∀ x ∈ (s.program b.trace).version?,
    Runner.recordedVersions s.world.converter scan.versionMarkers x.1 =
      if b.issued.length < base then some x.2 else none
  changed : ∀ id p,
    b'.changes s.world.converter id = b.changes s.world.converter id ++ [p] →
    (Runner.changes s.world.converter id scan.mutableSideEffectMarkers)[
      (b.changes s.world.converter id).length]? = if b.issued.length < base then some p else none
  kept : ∀ id, b'.changes s.world.converter id = b.changes s.world.converter id →
    ∀ p ∈ (Runner.changes s.world.converter id scan.mutableSideEffectMarkers)[
      (b.changes s.world.converter id).length]?, ((b'.mseCallCount id).getD 0 : Int) ≤ p.1

/-- `scan` holds no marker outside `known`. -/
structure KnownMarkers (scan : Prescan) (known : List EventAttributes) : Prop where
  versions : scan.versionMarkers <+: (markersOf known).versions
  mutables : scan.mutableSideEffectMarkers <+: (markersOf known).mutables

theorem KnownMarkers.mono {scan : Prescan} {l l' : List EventAttributes} (h : KnownMarkers scan l)
    (hl : l <+: l') : KnownMarkers scan l' :=
  ⟨h.versions.trans (hl.filterMap _), h.mutables.trans (hl.filterMap _)⟩

theorem KnownMarkers.of_markers {scan scan' : Prescan} {l : List EventAttributes}
    (h : KnownMarkers scan l) (hs : scan'.markers = scan.markers) : KnownMarkers scan' l := by
  have hv : scan'.versionMarkers = scan.versionMarkers := congrArg MarkerLists.versions hs
  have hm : scan'.mutableSideEffectMarkers = scan.mutableSideEffectMarkers :=
    congrArg MarkerLists.mutables hs
  exact ⟨hv ▸ h.versions, hm ▸ h.mutables⟩

theorem KnownMarkers.of_eq {scan : Prescan} {l : List EventAttributes}
    (h : scan.markers = markersOf l) : KnownMarkers scan l := by
  have hv : scan.versionMarkers = (markersOf l).versions := congrArg MarkerLists.versions h
  have hm : scan.mutableSideEffectMarkers = (markersOf l).mutables :=
    congrArg MarkerLists.mutables h
  exact ⟨hv ▸ List.prefix_rfl, hm ▸ List.prefix_rfl⟩

namespace Anchored

variable {σ : Type} {s : Setting σ} {scan : Prescan} {b b' d : Progress σ}

/-- A version asked for on the way to `d`, where the record ends. -/
theorem version_recorded (hc : s.world.converter.RoundTrips)
    (hrec : scan.markers = markersOf d.events) (hd : d.Versioned s)
    (hstep : Progress.MarksStep s b b') (hon : Progress.MarksOnward s b' d) {x : String × Int}
    (hx : x ∈ (s.program b.trace).version?) :
    Runner.recordedVersions s.world.converter scan.versionMarkers x.1 = some x.2 := by
  have hv : scan.versionMarkers = (s.program.versions d.trace).map
      (encodeVersion s.world.converter) := (congrArg MarkerLists.versions hrec).trans hd.markers
  have hmem : x ∈ s.program.versions b'.trace := by
    rw [hstep.asked]
    exact List.mem_append_right _ (Option.mem_toList.mpr hx)
  rw [hv]
  exact Runner.recordedVersions_of_mem hc hd.once (hon.asked.subset hmem)

/-- The step is on record, which ends at `d` or after it. -/
theorem of_recorded (hc : s.world.converter.RoundTrips) {base : Nat}
    (hbase : d.issued.length ≤ base) (hrec : scan.markers = markersOf d.events)
    (hd : d.Versioned s) (hstep : Progress.MarksStep s b b') (hon : Progress.MarksOnward s b' d)
    (hpre : b.events <+: d.events) (hpre' : b'.events <+: d.events) :
    Anchored s scan base b b' := by
  have hm (id : String) : Runner.changes s.world.converter id scan.mutableSideEffectMarkers =
      d.changes s.world.converter id := by
    rw [Progress.changes, ← hrec]
    rfl
  have hlt (h : markersOf b.events ≠ markersOf d.events) : b.issued.length < base := by
    have hle := hpre.length_le
    have hne : b.events.length ≠ d.events.length :=
      fun he => h (congrArg markersOf (hpre.eq_of_length he))
    simp only [Progress.events, List.length_map] at hle hne
    omega
  constructor
  · intro x hx
    have hb : b.issued.length < base := by
      refine hlt fun he => ?_
      have hle := (hpre'.filterMap EventAttributes.version?).length_le
      have hmore := congrArg List.length hstep.versions
      rw [Option.mem_def.mp hx, he, List.length_append] at hmore
      change (markersOf b'.events).versions.length ≤ (markersOf d.events).versions.length at hle
      simp only [Option.toList_some, List.map_cons, List.map_nil, List.length_singleton] at hmore
      omega
    rw [if_pos hb]
    exact version_recorded hc hrec hd hstep hon hx
  · intro id p hp
    obtain ⟨later, hlater, -⟩ := hon.changes id
    have hb : b.issued.length < base := by
      refine hlt fun he => ?_
      have hsame : b.changes s.world.converter id = d.changes s.world.converter id := by
        rw [Progress.changes, he]
        rfl
      rw [hlater, hp] at hsame
      simpa using congrArg List.length hsame
    rw [hm, hlater, hp, if_pos hb, List.append_assoc, List.getElem?_append_right le_rfl,
      Nat.sub_self]
    rfl
  · intro id hsame p hp
    obtain ⟨later, hlater, hge⟩ := hon.changes id
    rw [hm, hlater, hsame, List.getElem?_append_right le_rfl, Nat.sub_self] at hp
    exact (hge p (List.mem_of_getElem? hp)).1

/-- The step is new. -/
theorem of_known (hc : s.world.converter.RoundTrips) {base : Nat}
    (hk : KnownMarkers scan b.events) (hb : b.Versioned s) (hstep : Progress.MarksStep s b b')
    (hbase : base ≤ b.issued.length) : Anchored s scan base b b' := by
  have hge := Nat.not_lt.mpr hbase
  have hnone (id : String) : (Runner.changes s.world.converter id scan.mutableSideEffectMarkers)[
      (b.changes s.world.converter id).length]? = none :=
    List.getElem?_eq_none (Runner.changes_isPrefix _ id hk.mutables).length_le
  constructor
  · intro x hx
    have hpre := hk.versions
    rw [hb.markers] at hpre
    rw [if_neg hge, List.prefix_iff_eq_take.mp hpre, ← List.map_take]
    refine Runner.recordedVersions_of_not_mem hc fun hmem => hstep.fresh x hx ?_
    rw [List.map_take] at hmem
    exact List.mem_of_mem_take hmem
  · intro id p _
    rw [hnone, if_neg hge]
  · intro id _ p hp
    rw [hnone] at hp
    cases hp

end Anchored

/-- A runner remembers of versions and mutable side effects what its body has done, and what its
scan kept of the rest. -/
structure Marks {σ : Type} (s : Setting σ) (r : Runner σ) (b : Progress σ) : Prop where
  versions : ∀ id, id ∉ (s.program.versions b.trace).map Prod.fst → r.changeVersions id =
    Runner.recordedVersions s.world.converter r.scan.versionMarkers id
  mseRecorded : r.mseRecorded =
    Runner.recordedMutable s.world.converter r.scan.mutableSideEffectMarkers
  mseCallCount : r.mseCallCount = b.mseCallCount
  mseCurrent : ∀ id, r.mseCurrent id = (b.mseCurrent id).map s.world.converter.toPayload
  mseCursor : ∀ id, (r.mseCursor id).getD 0 = min (b.changes s.world.converter id).length
    (Runner.changes s.world.converter id r.scan.mutableSideEffectMarkers).length

namespace Marks

variable {σ : Type} {s : Setting σ} {r r' : Runner σ} {b b' : Progress σ}

/-- What leaves mutable side effects alone, and versions that have not been asked for, keeps them
together. -/
theorem of_same (h : Marks s r b) {versions : PartialMap String Int}
    (hr : r'.memory = { r.memory with changeVersions := versions })
    (hscan : r'.scan.markers = r.scan.markers)
    (hv : ∀ id, id ∉ (s.program.versions b'.trace).map Prod.fst →
      id ∉ (s.program.versions b.trace).map Prod.fst ∧ versions id = r.changeVersions id)
    (he : (markersOf b'.events).mutables = (markersOf b.events).mutables)
    (hm : b'.mseCallCount = b.mseCallCount) (hcur : b'.mseCurrent = b.mseCurrent) :
    Marks s r' b' := by
  have hvm : r'.scan.versionMarkers = r.scan.versionMarkers := congrArg MarkerLists.versions hscan
  have hmm : r'.scan.mutableSideEffectMarkers = r.scan.mutableSideEffectMarkers :=
    congrArg MarkerLists.mutables hscan
  have hch (id : String) : b'.changes s.world.converter id = b.changes s.world.converter id := by
    rw [Progress.changes, he]
    rfl
  constructor
  · intro id hid
    rw [hvm, ← h.versions id (hv id hid).1, ← (hv id hid).2]
    exact congrArg (fun m => Runner.Memory.changeVersions m id) hr
  · rw [hmm, ← h.mseRecorded]
    exact congrArg Runner.Memory.mseRecorded hr
  · rw [hm, ← h.mseCallCount]
    exact congrArg Runner.Memory.mseCallCount hr
  · intro id
    rw [hcur, ← h.mseCurrent]
    exact congrArg (fun m => Runner.Memory.mseCurrent m id) hr
  · intro id
    rw [hmm, hch, ← h.mseCursor]
    exact congrArg (fun m => (Runner.Memory.mseCursor m id).getD 0) hr

end Marks
end TemporalSdk
