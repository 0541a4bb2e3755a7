import TemporalSdk.Frame

/-! `GetVersion`: which version a call gets, whatever else the body does in between. -/
namespace TemporalSdk
namespace Runner

variable {σ : Type}

/-- Operations made one after the other on one runner, with their answers; an operation that
parks has none. -/
def answers : Runner σ → List (Op σ) → List (Op σ × Resp σ)
  | _, [] => []
  | r, op :: ops =>
    match r.exec op with
    | some (r', resp) => (op, resp) :: r'.answers ops
    | none => r.answers ops

/-- The version a change id gets at its first call. -/
def firstVersion (r : Runner σ) (maxSupported : Int) : Int :=
  if r.isReplaying then defaultVersion else maxSupported

section Calls

variable {r : Runner σ} {id : String} {v : Int}

theorem getVersion_known (h : r.changeVersions id = some v) (lo hi : Int) :
    (r.getVersion id lo hi).1.changeVersions = r.changeVersions ∧
      (lo ≤ v → v ≤ hi → (r.getVersion id lo hi).2 = .version v) ∧
      (¬ (lo ≤ v ∧ v ≤ hi) →
        ∃ message, (r.getVersion id lo hi).2 = .applicationError message "VersionMismatch") := by
  simp only [getVersion, h]
  by_cases hr : v < lo ∨ hi < v
  · rw [if_pos hr]
    exact ⟨rfl, fun _ _ => by omega, fun _ => ⟨_, rfl⟩⟩
  · rw [if_neg hr]
    exact ⟨rfl, fun _ _ => rfl, fun hn => by omega⟩

theorem getVersion_new (h : r.changeVersions id = none) (lo hi : Int) :
    (r.getVersion id lo hi).1.changeVersions =
        r.changeVersions.insert id (r.firstVersion hi) ∧
      (r.getVersion id lo hi).2 = .version (r.firstVersion hi) := by
  simp only [getVersion, h, firstVersion]
  split <;> exact ⟨rfl, rfl⟩

/-- What is known stays. -/
theorem changeVersions_kept (h : r.changeVersions id = some v) {op : Op σ} {r' : Runner σ}
    {resp : Resp σ} (he : r.exec op = some (r', resp)) : r'.changeVersions id = some v := by
  by_cases hop : ∃ j lo hi, op = .getVersion j lo hi
  · obtain ⟨j, lo, hi, rfl⟩ := hop
    have hr' : (r.getVersion j lo hi).1 = r' := congrArg Prod.fst (Option.some.inj he)
    rw [← hr']
    cases hj : r.changeVersions j with
    | some w => rw [(getVersion_known hj lo hi).1, h]
    | none =>
      have hne : id ≠ j := by
        rintro rfl
        rw [h] at hj
        cases hj
      rw [(getVersion_new hj lo hi).1, PartialMap.insert_of_ne _ hne, h]
  · rw [r.exec_changeVersions (fun j lo hi ho => hop ⟨j, lo, hi, ho⟩) he, h]

/-- A version, once known, is the answer to every call whose range contains it. -/
theorem version_of_known (ops : List (Op σ)) (h : r.changeVersions id = some v) {lo hi : Int}
    {resp : Resp σ} (hx : (.getVersion id lo hi, resp) ∈ r.answers ops) :
    (lo ≤ v → v ≤ hi → resp = .version v) ∧
      (¬ (lo ≤ v ∧ v ≤ hi) → ∃ message, resp = .applicationError message "VersionMismatch") := by
  induction ops generalizing r with
  | nil => cases hx
  | cons op ops ih =>
    rw [answers] at hx
    cases he : r.exec op with
    | none =>
      rw [he] at hx
      exact ih h hx
    | some x =>
      obtain ⟨r', resp'⟩ := x
      rw [he] at hx
      have hkept := changeVersions_kept h he
      rcases List.mem_cons.mp hx with hx | hx
      · obtain ⟨rfl, rfl⟩ := Prod.ext_iff.mp hx
        have hresp : (r.getVersion id lo hi).2 = resp := congrArg Prod.snd (Option.some.inj he)
        rw [← hresp]
        exact (getVersion_known h lo hi).2
      · exact ih hkept hx

/-- An id is unknown until it is asked for. -/
theorem changeVersions_unknown (h : r.changeVersions id = none) {op : Op σ}
    (hop : ∀ lo hi, op ≠ .getVersion id lo hi) {r' : Runner σ} {resp : Resp σ}
    (he : r.exec op = some (r', resp)) : r'.changeVersions id = none := by
  by_cases hj : ∃ j lo hi, op = .getVersion j lo hi
  · obtain ⟨j, lo, hi, rfl⟩ := hj
    have hne : id ≠ j := by
      rintro rfl
      exact hop lo hi rfl
    have hr' : (r.getVersion j lo hi).1 = r' := congrArg Prod.fst (Option.some.inj he)
    rw [← hr']
    cases hj : r.changeVersions j with
    | some w => rw [(getVersion_known hj lo hi).1, h]
    | none => rw [(getVersion_new hj lo hi).1, PartialMap.insert_of_ne _ hne, h]
  · rw [r.exec_changeVersions (fun j lo hi ho => hj ⟨j, lo, hi, ho⟩) he, h]

theorem firstVersion_exec {op : Op σ} {r' : Runner σ} {resp : Resp σ}
    (he : r.exec op = some (r', resp)) (hi : Int) : r'.firstVersion hi = r.firstVersion hi := by
  rw [firstVersion, firstVersion, (r.exec_frame he).isReplaying]

/-- The first call for an unknown id is answered without a look at its range. -/
theorem mem_answers_first (pre post : List (Op σ)) (h : r.changeVersions id = none) {lo hi : Int}
    (hpre : ∀ lo' hi', .getVersion id lo' hi' ∉ pre) :
    (.getVersion id lo hi, .version (r.firstVersion hi)) ∈
      r.answers (pre ++ .getVersion id lo hi :: post) := by
  induction pre generalizing r with
  | nil =>
    rw [List.nil_append, answers]
    have hx := (getVersion_new h lo hi).2
    simp only [exec]
    rw [hx]
    exact List.mem_cons_self
  | cons op pre ih =>
    have hop : ∀ lo' hi', op ≠ .getVersion id lo' hi' := fun lo' hi' ho =>
      hpre lo' hi' (ho ▸ List.mem_cons_self)
    have hrest : ∀ lo' hi', .getVersion id lo' hi' ∉ pre := fun lo' hi' hm =>
      hpre lo' hi' (List.mem_cons_of_mem op hm)
    rw [List.cons_append, answers]
    cases he : r.exec op with
    | none => exact ih h hrest
    | some x =>
      obtain ⟨r', resp⟩ := x
      rw [← firstVersion_exec he]
      exact List.mem_cons_of_mem _ (ih (changeVersions_unknown h hop he) hrest)

theorem mem_of_mem_answers {ops : List (Op σ)} {op : Op σ} {resp : Resp σ}
    (hx : (op, resp) ∈ r.answers ops) : op ∈ ops := by
  induction ops generalizing r with
  | nil => cases hx
  | cons op' ops ih =>
    rw [answers] at hx
    cases he : r.exec op' with
    | none =>
      rw [he] at hx
      exact List.mem_cons_of_mem op' (ih hx)
    | some x =>
      rw [he] at hx
      rcases List.mem_cons.mp hx with hx | hx
      · exact List.mem_cons.mpr (.inl (Prod.ext_iff.mp hx).1)
      · exact List.mem_cons_of_mem op' (ih hx)

/-- If an id is asked for, some call is the first. -/
theorem exists_first {ops : List (Op σ)} {lo hi : Int} (h : .getVersion id lo hi ∈ ops) :
    ∃ pre lo₁ hi₁ post, ops = pre ++ .getVersion id lo₁ hi₁ :: post ∧
      ∀ lo' hi', .getVersion id lo' hi' ∉ pre := by
  induction ops with
  | nil => cases h
  | cons op ops ih =>
    by_cases hop : ∃ lo' hi', op = .getVersion id lo' hi'
    · obtain ⟨lo', hi', rfl⟩ := hop
      exact ⟨[], lo', hi', ops, rfl, fun _ _ => List.not_mem_nil⟩
    · have hne : ∀ lo' hi', op ≠ .getVersion id lo' hi' := fun lo' hi' ho => hop ⟨lo', hi', ho⟩
      have hmem := (List.mem_cons.mp h).resolve_left fun ho => hne lo hi ho.symm
      obtain ⟨pre, lo₁, hi₁, post, rfl, hpre⟩ := ih hmem
      refine ⟨op :: pre, lo₁, hi₁, post, rfl, fun lo' hi' hm => ?_⟩
      exact (List.mem_cons.mp hm).elim (fun ho => hne lo' hi' ho.symm) (hpre lo' hi')

/-- A call is either the first for its id, or finds the version of the first. -/
theorem answers_of_first (pre post : List (Op σ)) (h : r.changeVersions id = none) {lo₁ hi₁ : Int}
    (hpre : ∀ lo' hi', .getVersion id lo' hi' ∉ pre) {lo hi : Int} {resp : Resp σ}
    (hx : (.getVersion id lo hi, resp) ∈ r.answers (pre ++ .getVersion id lo₁ hi₁ :: post)) :
    (lo = lo₁ ∧ hi = hi₁ ∧ resp = .version (r.firstVersion hi₁)) ∨
      ((lo ≤ r.firstVersion hi₁ → r.firstVersion hi₁ ≤ hi →
          resp = .version (r.firstVersion hi₁)) ∧
        (¬ (lo ≤ r.firstVersion hi₁ ∧ r.firstVersion hi₁ ≤ hi) →
          ∃ message, resp = .applicationError message "VersionMismatch")) := by
  induction pre generalizing r with
  | nil =>
    obtain ⟨hmap, hresp⟩ := getVersion_new h lo₁ hi₁
    simp only [List.nil_append, answers, exec] at hx
    rcases List.mem_cons.mp hx with hx | hx
    · simp only [Prod.mk.injEq, Op.getVersion.injEq, true_and] at hx
      exact .inl ⟨hx.1.1, hx.1.2, hx.2.trans hresp⟩
    · refine .inr (version_of_known post ?_ hx)
      rw [hmap, PartialMap.insert_self]
  | cons op pre ih =>
    have hop : ∀ lo' hi', op ≠ .getVersion id lo' hi' := fun lo' hi' ho =>
      hpre lo' hi' (ho ▸ List.mem_cons_self)
    have hrest : ∀ lo' hi', .getVersion id lo' hi' ∉ pre := fun lo' hi' hm =>
      hpre lo' hi' (List.mem_cons_of_mem op hm)
    rw [List.cons_append, answers] at hx
    cases he : r.exec op with
    | none =>
      rw [he] at hx
      exact ih h hrest hx
    | some x =>
      rw [he] at hx
      rcases List.mem_cons.mp hx with hx | hx
      · exact absurd (Prod.ext_iff.mp hx).1.symm (hop lo hi)
      · rw [← firstVersion_exec he]
        exact ih (changeVersions_unknown h hop he) hrest hx

end Calls

/-- An answer to a call for a version in `[lo, hi]` that does not surprise its caller. -/
def InRange (lo hi : Int) (resp : Resp σ) : Prop :=
  (∃ v, resp = .version v ∧ lo ≤ v ∧ v ≤ hi) ∨
    ∃ message, resp = .applicationError message "VersionMismatch"

/-- Every call stays in its range, and one id has one version: the first call for an id must
have in its range the version it is given. -/
theorem versions_in_range_and_stable_iff (r : Runner σ) (ops : List (Op σ)) :
    ((∀ id lo hi resp, (.getVersion id lo hi, resp) ∈ r.answers ops → InRange lo hi resp) ∧
      ∀ id, ∃ v, ∀ lo hi resp, (.getVersion id lo hi, resp) ∈ r.answers ops →
        lo ≤ v → v ≤ hi → resp = .version v) ↔
    ∀ pre id lo hi post, ops = pre ++ .getVersion id lo hi :: post →
      r.changeVersions id = none → (∀ lo' hi', .getVersion id lo' hi' ∉ pre) →
      if r.isReplaying then lo ≤ defaultVersion ∧ defaultVersion ≤ hi else lo ≤ hi := by
  have hallowed (lo hi : Int) :
      (if r.isReplaying then lo ≤ defaultVersion ∧ defaultVersion ≤ hi else lo ≤ hi) ↔
        lo ≤ r.firstVersion hi ∧ r.firstVersion hi ≤ hi := by
    unfold firstVersion
    split
    · rfl
    · exact ⟨fun h => ⟨h, le_rfl⟩, And.left⟩
  constructor
  · rintro ⟨hrange, -⟩ pre id lo hi post rfl hnew hpre
    rw [hallowed]
    rcases hrange id lo hi _ (mem_answers_first pre post hnew hpre) with ⟨v, hv, hlo, hhi⟩ | ⟨_, hm⟩
    · cases hv
      exact ⟨hlo, hhi⟩
    · cases hm
  · intro hfirst
    refine ⟨fun id lo hi resp hx => ?_, fun id => ?_⟩
    · cases hid : r.changeVersions id with
      | some v =>
        obtain ⟨hin, hout⟩ := version_of_known ops hid hx
        by_cases hb : lo ≤ v ∧ v ≤ hi
        · exact .inl ⟨v, hin hb.1 hb.2, hb⟩
        · exact .inr (hout hb)
      | none =>
        obtain ⟨pre, lo₁, hi₁, post, rfl, hpre⟩ := exists_first (mem_of_mem_answers hx)
        have hok := (hallowed lo₁ hi₁).mp (hfirst pre id lo₁ hi₁ post rfl hid hpre)
        rcases answers_of_first pre post hid hpre hx with ⟨rfl, rfl, rfl⟩ | ⟨hin, hout⟩
        · exact .inl ⟨_, rfl, hok⟩
        · by_cases hb : lo ≤ r.firstVersion hi₁ ∧ r.firstVersion hi₁ ≤ hi
          · exact .inl ⟨_, hin hb.1 hb.2, hb⟩
          · exact .inr (hout hb)
    · cases hid : r.changeVersions id with
      | some v => exact ⟨v, fun lo hi resp hx => (version_of_known ops hid hx).1⟩
      | none =>
        by_cases hasked : ∃ lo hi, .getVersion id lo hi ∈ ops
        · obtain ⟨lo, hi, hmem⟩ := hasked
          obtain ⟨pre, lo₁, hi₁, post, rfl, hpre⟩ := exists_first hmem
          refine ⟨r.firstVersion hi₁, fun lo hi resp hx hlo hhi => ?_⟩
          rcases answers_of_first pre post hid hpre hx with ⟨-, -, hresp⟩ | ⟨hin, -⟩
          · exact hresp
          · exact hin hlo hhi
        · exact ⟨0, fun lo hi resp hx => absurd ⟨lo, hi, mem_of_mem_answers hx⟩ hasked⟩

/-- A runner that replays a history without the marker gives a body that no longer supports the
unversioned branch exactly that version. -/
theorem retired_version_out_of_range :
    let r : Runner Unit := replay {} true (.plain .tagged) ⟨(), fun _ _ => .isCancelled⟩
      [⟨1, .workflowExecutionStarted "Pricing" [] []⟩]
    (.getVersion "pricing" 1 2, .version (-1)) ∈ r.answers [.getVersion "pricing" 1 2] ∧
      ¬ InRange 1 2 (.version (-1) : Resp Unit) := by
  refine ⟨List.mem_cons_self, ?_⟩
  rintro (⟨v, hv, hlo, -⟩ | ⟨message, hm⟩)
  · cases hv
    omega
  · cases hm

end Runner
end TemporalSdk
