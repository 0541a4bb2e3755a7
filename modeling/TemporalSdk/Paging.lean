import TemporalSdk.History
import Mathlib.Data.List.Basic

/-! Paging a history in: `GrpcClient::UnaryCall` and the three loops over
`GetWorkflowExecutionHistory`, against a server that keeps the history as linked pages. -/
namespace TemporalSdk

inductive StatusCode where
  | ok | deadlineExceeded | notFound | other (code : Nat)
  deriving DecidableEq, Repr, Inhabited

/-- `grpc::Status`. -/
structure GrpcStatus where
  code : StatusCode
  message : String := ""
  deriving DecidableEq, Repr, Inhabited

/-- What `UnaryCall` throws. -/
inductive RpcError where
  | rpcError (message : String)
  | notFoundError (message : String)
  deriving DecidableEq, Repr, Inhabited

/-- `UnaryCall` on the status and response its stub call produced; `empty` is `Resp{}`. -/
def unaryCall {Resp : Type} (name : String) (poll : Bool) (empty : Resp)
    (invoked : GrpcStatus × Resp) : Except RpcError Resp :=
  if invoked.1.code ≠ .ok then
    if poll && invoked.1.code = .deadlineExceeded then .ok empty
    else
      let msg := "rpc " ++ name ++ " failed: " ++ invoked.1.message
      if invoked.1.code = .notFound then .error (.notFoundError msg) else .error (.rpcError msg)
  else .ok invoked.2

structure GetHistoryRequest where
  ns : String
  workflowId : String
  runId : Option String
  skipArchival : Bool
  nextPageToken : String
  deriving DecidableEq, Repr, Inhabited

/-- `GetWorkflowExecutionHistoryResponse`, and the part of a polled task with the same shape. -/
structure HistoryPage where
  events : History := []
  nextPageToken : String := ""
  deriving DecidableEq, Repr, Inhabited

/-- The stub behind the client: what the `i`-th call of a loop gets. -/
abbrev Stub := Nat → GetHistoryRequest → GrpcStatus × HistoryPage

def getWorkflowExecutionHistory (stub : Stub) (i : Nat) (req : GetHistoryRequest) :
    Except RpcError HistoryPage :=
  unaryCall "GetWorkflowExecutionHistory" true {} (stub i req)

/-- The `while` loop of `Handle`; `none` when the fuel runs out. -/
def pageLoop (call : Nat → String → Except RpcError HistoryPage) :
    Nat → Nat → String → History → Option (Except RpcError History)
  | 0, _, _, _ => none
  | fuel + 1, i, token, acc =>
    if token.isEmpty then some (.ok acc)
    else
      match call i token with
      | .error e => some (.error e)
      | .ok resp => pageLoop call fuel (i + 1) resp.nextPageToken (acc ++ resp.events)

/-- The `for (;;)` loop of `BuildRunnerForQuery` and `FetchHistoryJson`. -/
def fetchLoop (call : Nat → String → Except RpcError HistoryPage) :
    Nat → Nat → String → History → Option (Except RpcError History)
  | 0, _, _, _ => none
  | fuel + 1, i, token, acc =>
    match call i token with
    | .error e => some (.error e)
    | .ok resp =>
      if resp.nextPageToken.isEmpty then some (.ok (acc ++ resp.events))
      else fetchLoop call fuel (i + 1) resp.nextPageToken (acc ++ resp.events)

/-- The history `Handle` works on: the task's own page, or all pages from it on. -/
def assembleHistory (stub : Stub) (ns workflowId runId : String) (fuel : Nat)
    (task : HistoryPage) : Option (Except RpcError History) :=
  if task.nextPageToken.isEmpty then some (.ok task.events)
  else
    pageLoop
      (fun i token => getWorkflowExecutionHistory stub i ⟨ns, workflowId, some runId, false, token⟩)
      fuel 0 task.nextPageToken task.events

def optionalRunId (runId : String) : Option String := if runId.isEmpty then none else some runId

/-- The history `BuildRunnerForQuery` replays; an error makes it return a null runner. -/
def queryHistory (stub : Stub) (ns workflowId runId : String) (fuel : Nat) :
    Option (Except RpcError History) :=
  fetchLoop
    (fun i token => getWorkflowExecutionHistory stub i
      ⟨ns, workflowId, optionalRunId runId, true, token⟩) fuel 0 "" []

/-- The history `FetchHistoryJson` renders. -/
def fetchHistoryJson (stub : Stub) (ns workflowId runId : String) (fuel : Nat) :
    Option (Except RpcError History) :=
  fetchLoop
    (fun i token => getWorkflowExecutionHistory stub i
      ⟨ns, workflowId, optionalRunId runId, true, token⟩) fuel 0 "" []

/-- The pages of a run on the server. Page `k + 1` is asked for with `token k`. -/
structure ServerHistory where
  first : History
  rest : List History
  token : Nat → String
  token_ne : ∀ k, token k ≠ ""
  token_inj : Function.Injective token

/-- What happens to one call. -/
inductive CallOutcome where
  | page
  | failed (notFound : Bool) (code : Nat) (message : String)
  | deadlineExceeded
  deriving DecidableEq, Repr, Inhabited

namespace ServerHistory

variable (s : ServerHistory)

def pages : List History := s.first :: s.rest

def events : History := s.pages.flatten

/-- Page `k` with the token of the page after it. -/
def page (k : Nat) : HistoryPage where
  events := (s.pages[k]?).getD []
  nextPageToken := if k + 1 < s.pages.length then s.token k else ""

/-- The page a request asks for. -/
def lookup (token : String) : Option Nat :=
  if token = "" then some 0
  else ((List.range s.rest.length).find? fun k => s.token k = token).map (· + 1)

/-- The stub of a client connected to this server, under a pattern of call outcomes. -/
def stub (outcomes : Nat → CallOutcome) : Stub := fun i req =>
  match outcomes i with
  | .deadlineExceeded => (⟨.deadlineExceeded, "Deadline Exceeded"⟩, {})
  | .failed notFound code message =>
    (⟨if notFound then .notFound else .other code, message⟩, {})
  | .page =>
    match s.lookup req.nextPageToken with
    | some k => (⟨.ok, ""⟩, s.page k)
    | none => (⟨.other 3, "invalid page token"⟩, {})

end ServerHistory

/-- What a loop over the remaining pages collects under a pattern of call outcomes. -/
def collected (outcomes : Nat → CallOutcome) : Nat → List History → Except RpcError History
  | _, [] => .ok []
  | i, p :: ps =>
    match outcomes i with
    | .page => (collected outcomes (i + 1) ps).map (p ++ ·)
    | .deadlineExceeded => .ok []
    | .failed notFound _ message =>
      let msg := "rpc GetWorkflowExecutionHistory failed: " ++ message
      .error (if notFound then .notFoundError msg else .rpcError msg)

/-- All of `pages`, or an error. -/
def CompleteOrError (pages : List History) : Except RpcError History → Prop
  | .ok h => h = pages.flatten
  | .error _ => True

/-- The first call that does not return its page runs into the deadline, and events are still
to come. -/
def CutOff (outcomes : Nat → CallOutcome) (i : Nat) (pages : List History) : Prop :=
  ∃ j < pages.length, (∀ m < j, outcomes (i + m) = .page) ∧
    outcomes (i + j) = .deadlineExceeded ∧ (pages.drop j).flatten ≠ []

theorem cutOff_cons_page {outcomes : Nat → CallOutcome} {i : Nat} (h : outcomes i = .page)
    (p : History) (ps : List History) :
    CutOff outcomes i (p :: ps) ↔ CutOff outcomes (i + 1) ps := by
  constructor
  · rintro ⟨j, hj, hpre, hd, hne⟩
    cases j with
    | zero => simp [h] at hd
    | succ j =>
      refine ⟨j, by simpa using hj, fun m hm => ?_, by rw [← hd]; congr 1; omega, hne⟩
      rw [← hpre (m + 1) (by omega)]
      congr 1
      omega
  · rintro ⟨j, hj, hpre, hd, hne⟩
    refine ⟨j + 1, by simpa using hj, fun m hm => ?_, by rw [← hd]; congr 1; omega, hne⟩
    cases m with
    | zero => exact h
    | succ m =>
      rw [← hpre m (by omega)]
      congr 1
      omega

/-- A loop ends with all pages or an error unless it is cut off. -/
theorem collected_completeOrError_iff (outcomes : Nat → CallOutcome) (i : Nat)
    (pages : List History) :
    CompleteOrError pages (collected outcomes i pages) ↔ ¬ CutOff outcomes i pages := by
  induction pages generalizing i with
  | nil => simp [collected, CompleteOrError, CutOff]
  | cons p ps ih =>
    cases ho : outcomes i with
    | page =>
      rw [cutOff_cons_page ho, ← ih (i + 1)]
      simp only [collected, ho]
      cases collected outcomes (i + 1) ps with
      | error e => simp [CompleteOrError, Except.map]
      | ok h => simp [CompleteOrError, Except.map]
    | failed notFound code message =>
      simp only [collected, ho, CompleteOrError, true_iff]
      rintro ⟨j, -, hpre, hd, -⟩
      cases j with
      | zero => simp [ho] at hd
      | succ j => simpa [ho] using hpre 0 (by omega)
    | deadlineExceeded =>
      simp only [collected, ho, CompleteOrError]
      constructor
      · rintro he ⟨j, hj, hpre, hd, hne⟩
        cases j with
        | zero => exact hne he.symm
        | succ j => simpa [ho] using hpre 0 (by omega)
      · intro hn
        by_contra he
        exact hn ⟨0, by simp, by simp, by simpa using ho, fun h => he h.symm⟩

namespace ServerHistory

variable (s : ServerHistory) (outcomes : Nat → CallOutcome)

/-- The token page `k` is asked for with. -/
def tokenOf : Nat → String
  | 0 => ""
  | k + 1 => s.token k

theorem lookup_tokenOf {k : Nat} (hk : k < s.pages.length) : s.lookup (s.tokenOf k) = some k := by
  cases k with
  | zero => rfl
  | succ k =>
    have hlt : k < s.rest.length := by simpa [pages] using hk
    have hfind : (List.range s.rest.length).find? (fun j => s.token j = s.token k) = some k := by
      rw [List.find?_range_eq_some]
      refine ⟨by simp, List.mem_range.mpr hlt, fun j hj => ?_⟩
      simpa using fun e => absurd (s.token_inj e) (by omega)
    rw [lookup, tokenOf, if_neg (s.token_ne k)]
    exact congrArg (Option.map (· + 1)) hfind

theorem nextPageToken_page {k : Nat} :
    (s.page k).nextPageToken = if k + 1 < s.pages.length then s.tokenOf (k + 1) else "" := rfl

theorem drop_eq_cons {k : Nat} (hk : k < s.pages.length) :
    s.pages.drop k = (s.page k).events :: s.pages.drop (k + 1) := by
  rw [List.drop_eq_getElem_cons hk]
  simp [page, hk]

/-- One call for a page that exists. -/
theorem call_tokenOf {k : Nat} (hk : k < s.pages.length) (i : Nat) (ns workflowId : String)
    (runId : Option String) (skip : Bool) :
    getWorkflowExecutionHistory (s.stub outcomes) i ⟨ns, workflowId, runId, skip, s.tokenOf k⟩ =
      match outcomes i with
      | .page => .ok (s.page k)
      | .deadlineExceeded => .ok {}
      | .failed notFound _ message =>
        let msg := "rpc GetWorkflowExecutionHistory failed: " ++ message
        .error (if notFound then .notFoundError msg else .rpcError msg) := by
  unfold getWorkflowExecutionHistory stub unaryCall
  cases outcomes i with
  | page => simp [s.lookup_tokenOf hk]
  | deadlineExceeded => simp
  | failed notFound code message => cases notFound <;> simp

/-- The loop of `Handle`, entered after page `k`. -/
theorem pageLoop_eq (ns workflowId : String) (runId : Option String) (skip : Bool) {k : Nat}
    (hk : k < s.pages.length) (fuel i : Nat) (hf : s.pages.length - k < fuel) (acc : History) :
    pageLoop (fun i token => getWorkflowExecutionHistory (s.stub outcomes) i
        ⟨ns, workflowId, runId, skip, token⟩) fuel i (s.page k).nextPageToken acc =
      some ((collected outcomes i (s.pages.drop (k + 1))).map (acc ++ ·)) := by
  induction fuel generalizing k i acc with
  | zero => omega
  | succ fuel ih =>
    rw [nextPageToken_page]
    by_cases hlast : k + 1 < s.pages.length
    · have hne : (s.tokenOf (k + 1)).isEmpty = false := by
        simpa [tokenOf] using s.token_ne k
      simp only [pageLoop, hlast, if_true, hne, Bool.false_eq_true, if_false,
        s.call_tokenOf outcomes hlast]
      rw [s.drop_eq_cons hlast]
      cases ho : outcomes i with
      | page =>
        simp only [collected, ho]
        rw [ih hlast (i + 1) (by omega) (acc ++ (s.page (k + 1)).events)]
        cases collected outcomes (i + 1) (s.pages.drop (k + 1 + 1)) <;> simp [Except.map]
      | deadlineExceeded =>
        obtain ⟨n, rfl⟩ : ∃ n, fuel = n + 1 := ⟨fuel - 1, by omega⟩
        simp [collected, ho, pageLoop, Except.map]
      | failed notFound code message => simp [collected, ho, Except.map]
    · have hnil : s.pages.drop (k + 1) = [] := List.drop_eq_nil_of_le (by omega)
      simp [pageLoop, hlast, hnil, collected, Except.map]

/-- The loop of the other two, about to ask for page `k`. -/
theorem fetchLoop_eq (ns workflowId : String) (runId : Option String) (skip : Bool) {k : Nat}
    (hk : k < s.pages.length) (fuel i : Nat) (hf : s.pages.length - k ≤ fuel) (acc : History) :
    fetchLoop (fun i token => getWorkflowExecutionHistory (s.stub outcomes) i
        ⟨ns, workflowId, runId, skip, token⟩) fuel i (s.tokenOf k) acc =
      some ((collected outcomes i (s.pages.drop k)).map (acc ++ ·)) := by
  induction fuel generalizing k i acc with
  | zero => omega
  | succ fuel ih =>
    simp only [fetchLoop, s.call_tokenOf outcomes hk]
    rw [s.drop_eq_cons hk]
    cases ho : outcomes i with
    | page =>
      simp only [collected, ho, nextPageToken_page]
      by_cases hlast : k + 1 < s.pages.length
      · have hne : (s.tokenOf (k + 1)).isEmpty = false := by
          simpa [tokenOf] using s.token_ne k
        simp only [hlast, if_true, hne, Bool.false_eq_true, if_false]
        rw [ih hlast (i + 1) (by omega) (acc ++ (s.page k).events)]
        cases collected outcomes (i + 1) (s.pages.drop (k + 1)) <;> simp [Except.map]
      · have hnil : s.pages.drop (k + 1) = [] := List.drop_eq_nil_of_le (by omega)
        simp [hlast, hnil, collected, Except.map]
    | deadlineExceeded => simp [collected, ho, Except.map]
    | failed notFound code message => simp [collected, ho, Except.map]

end ServerHistory

theorem completeOrError_map (pages : List History) (p : History) (x : Except RpcError History) :
    CompleteOrError (p :: pages) (x.map (p ++ ·)) ↔ CompleteOrError pages x := by
  cases x <;> simp [CompleteOrError, Except.map]

/-- The history each of the three loops ends with is complete, or an error is reported. -/
def NeverTruncated (s : ServerHistory) (loop : Option (Except RpcError History)) : Prop :=
  ∃ x, loop = some x ∧ CompleteOrError s.pages x

/-- No history is used truncated exactly when no loop is cut off by a deadline while events
are still to come. `Handle` has the first page from its task, the other two ask for it. -/
theorem history_complete_iff_not_cutOff (s : ServerHistory) (outcomes : Nat → CallOutcome)
    (ns workflowId runId : String) (fuel : Nat) (hf : s.pages.length < fuel) :
    (NeverTruncated s (assembleHistory (s.stub outcomes) ns workflowId runId fuel (s.page 0)) ↔
      ¬ CutOff outcomes 0 s.rest) ∧
    (NeverTruncated s (queryHistory (s.stub outcomes) ns workflowId runId fuel) ↔
      ¬ CutOff outcomes 0 s.pages) ∧
    (NeverTruncated s (fetchHistoryJson (s.stub outcomes) ns workflowId runId fuel) ↔
      ¬ CutOff outcomes 0 s.pages) := by
  have hpos : 0 < s.pages.length := by simp [ServerHistory.pages]
  have hfetch := s.fetchLoop_eq outcomes ns workflowId (optionalRunId runId) true hpos fuel 0
    (by omega) []
  have hquery : ∀ loop, loop = some ((collected outcomes 0 s.pages).map ([] ++ ·)) →
      (NeverTruncated s loop ↔ ¬ CutOff outcomes 0 s.pages) := by
    rintro loop rfl
    rw [← collected_completeOrError_iff]
    cases collected outcomes 0 s.pages <;> simp [NeverTruncated, CompleteOrError, Except.map]
  refine ⟨?_, hquery _ hfetch, hquery _ hfetch⟩
  have hassemble : assembleHistory (s.stub outcomes) ns workflowId runId fuel (s.page 0) =
      some ((collected outcomes 0 s.rest).map (s.first ++ ·)) := by
    unfold assembleHistory
    split
    · next he =>
      have hrest : s.rest = [] := by
        by_contra hne
        have hlt : 0 + 1 < s.pages.length := by
          simpa [ServerHistory.pages] using List.length_pos_iff.mpr hne
        simp only [ServerHistory.page, hlt, if_true] at he
        exact s.token_ne 0 (by simpa using he)
      simp [hrest, collected, Except.map, ServerHistory.page, ServerHistory.pages]
    · exact s.pageLoop_eq outcomes ns workflowId (some runId) false hpos fuel 0 (by omega) s.first
  rw [hassemble, ← collected_completeOrError_iff, ← completeOrError_map s.rest s.first]
  simp [NeverTruncated, ServerHistory.pages]

/-- A started workflow whose signal is on the second page. -/
def twoPages : ServerHistory where
  first := [⟨1, .workflowExecutionStarted "Greeting" [] []⟩, ⟨2, .other⟩, ⟨3, .other⟩]
  rest := [[⟨4, .other⟩, ⟨5, .workflowExecutionSignaled "nudge" []⟩]]
  token k := "page" ++ toString k
  token_ne k := by simp
  token_inj m n h := toString_nat_injective ((String.append_right_inj _).mp h)

/-- When every call returns its page nothing is cut off. -/
theorem history_complete_of_twoPages :
    twoPages.pages.length < 3 ∧
      NeverTruncated twoPages
        (assembleHistory (twoPages.stub fun _ => .page) "default" "wf" "run" 3 (twoPages.page 0)) ∧
      NeverTruncated twoPages (queryHistory (twoPages.stub fun _ => .page) "default" "wf" "run" 3) ∧
      NeverTruncated twoPages
        (fetchHistoryJson (twoPages.stub fun _ => .page) "default" "wf" "run" 3) := by
  have hf : twoPages.pages.length < 3 := by decide
  have h := history_complete_iff_not_cutOff twoPages (fun _ => .page) "default" "wf" "run" 3 hf
  have hn : ∀ pages, ¬ CutOff (fun _ => .page) 0 pages := by
    rintro pages ⟨j, -, -, hd, -⟩
    cases hd
  exact ⟨hf, h.1.mpr (hn _), h.2.1.mpr (hn _), h.2.2.mpr (hn _)⟩

/-- The second page misses its deadline: the first page alone is taken for the history. -/
theorem history_truncated_on_deadline :
    let toHandle : Nat → CallOutcome := fun _ => .deadlineExceeded
    let others : Nat → CallOutcome := fun i => if i = 0 then .page else .deadlineExceeded
    ¬ NeverTruncated twoPages
        (assembleHistory (twoPages.stub toHandle) "default" "wf" "run" 3 (twoPages.page 0)) ∧
      ¬ NeverTruncated twoPages (queryHistory (twoPages.stub others) "default" "wf" "run" 3) ∧
      ¬ NeverTruncated twoPages
        (fetchHistoryJson (twoPages.stub others) "default" "wf" "run" 3) := by
  intro toHandle others
  have h : assembleHistory (twoPages.stub toHandle) "default" "wf" "run" 3 (twoPages.page 0) =
      some (.ok twoPages.first) := by decide
  have hq : queryHistory (twoPages.stub others) "default" "wf" "run" 3 =
      some (.ok twoPages.first) := by decide
  have hcut : ¬ CompleteOrError twoPages.pages (.ok twoPages.first) := by
    simp only [CompleteOrError]
    decide
  refine ⟨?_, ?_, ?_⟩
  · rintro ⟨x, hx, hc⟩
    cases h.symm.trans hx
    exact hcut hc
  · rintro ⟨x, hx, hc⟩
    cases hq.symm.trans hx
    exact hcut hc
  · rintro ⟨x, hx, hc⟩
    cases (show fetchHistoryJson _ _ _ _ _ = _ from hq).symm.trans hx
    exact hcut hc

end TemporalSdk
