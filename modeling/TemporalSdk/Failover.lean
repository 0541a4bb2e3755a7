import Mathlib.Data.Finset.Lattice.Fold
import TemporalSdk.Answers
import TemporalSdk.Worlds
import TemporalSdk.RunServer

/-! Several workers on one task queue. The tasks of a run may go to any of them, more than once and
in any order, each with its whole history or with the new events alone. -/
namespace TemporalSdk

namespace History

theorem lastId_append (p : History) {q : History} (hq : q ≠ []) :
    lastId (p ++ q) = lastId q := by
  obtain ⟨q, e, rfl⟩ := (List.eq_nil_or_concat' q).resolve_left hq
  rw [← List.append_assoc, lastId_concat, lastId_concat]

theorem scanAll_lastEventId (h : History) : (scanAll h).lastEventId = h.lastId := by
  rcases List.eq_nil_or_concat' h with rfl | ⟨p, e, rfl⟩
  · rfl
  · rw [scanAll_concat, Prescan.scanOne_lastEventId, lastId_concat]

variable {p q : History}

theorem le_lastId (hp : p.Pairwise fun a b => a.eventId < b.eventId) {e : HistoryEvent}
    (he : e ∈ p) : e.eventId ≤ p.lastId := by
  rcases List.eq_nil_or_concat' p with rfl | ⟨p, l, rfl⟩
  · cases he
  · rw [lastId_concat]
    rcases List.mem_append.mp he with he | he
    · exact ((List.pairwise_append.mp hp).2.2 e he l List.mem_cons_self).le
    · rw [List.mem_singleton.mp he]

theorem lastId_lt (hpos : ∀ e ∈ q, 0 < e.eventId)
    (hpq : (p ++ q).Pairwise fun a b => a.eventId < b.eventId) {e : HistoryEvent} (he : e ∈ q) :
    p.lastId < e.eventId := by
  rcases List.eq_nil_or_concat' p with rfl | ⟨p, l, rfl⟩
  · exact hpos e he
  · rw [lastId_concat]
    exact (List.pairwise_append.mp hpq).2.2 l (by simp) e he

/-- The events of the first `n` tasks. -/
def upTo (batches : List History) (n : Nat) : History := (batches.take n).flatten

theorem upTo_succ {batches : List History} {n : Nat} (hn : n < batches.length) :
    upTo batches (n + 1) = upTo batches n ++ batches[n] := by
  rw [upTo, upTo, List.take_succ_eq_append_getElem hn, List.flatten_append, List.flatten_singleton]

/-- What comes after them. -/
theorem upTo_append (batches : List History) (n : Nat) :
    upTo batches n ++ (batches.drop n).flatten = batches.flatten := by
  rw [upTo, ← List.flatten_append, List.take_append_drop]

end History

variable {σ : Type}

namespace Runner

/-- New events move the runner to the last of them. -/
theorem applyEvents_lastEventId {r : Runner σ} {events : History}
    (hinc : events.Pairwise fun a b => a.eventId < b.eventId) (hne : events ≠ [])
    (hnew : ∀ e ∈ events, r.lastEventId < e.eventId) :
    (r.applyEvents events).lastEventId = events.lastId := by
  induction events generalizing r with
  | nil => exact absurd rfl hne
  | cons e events ih =>
    obtain ⟨hlt, hinc⟩ := List.pairwise_cons.mp hinc
    rw [applyEvents_cons_new r (hnew e List.mem_cons_self)]
    cases events with
    | nil => rfl
    | cons e' events =>
      have happly := ih (r := r.applyOne e) hinc (List.cons_ne_nil _ _) hlt
      rw [happly]
      exact (History.lastId_append [e] (List.cons_ne_nil e' events)).symm

section Serving

variable {fuel : Nat} {info : WorkflowInfo} {world : World σ} {fn : WorkflowFn σ}
  {evicted : Nat → Bool} {n : Nat} {past batch : History} {cached : Option (Runner σ)}
  {batches : List History}

theorem length_serveAll :
    (serveAll fuel info world fn evicted n past cached batches).length = batches.length := by
  induction batches generalizing n past cached with
  | nil => rfl
  | cons h batches ih => exact congrArg Nat.succ ih

/-- Where the runner was lost, a fresh one took the task. -/
theorem serveAll_lost {i : Nat} (hl : evicted (n + i) = true) (hi : batches[i]? = some batch) :
    (serveAll fuel info world fn evicted n past cached batches)[i]? =
      some (serve fuel info world fn none (past ++ (batches.take i).flatten) batch) := by
  induction batches generalizing n past cached i with
  | nil => cases hi
  | cons h batches ih =>
    cases i with
    | zero =>
      cases Option.some.inj hi
      have hlost : evicted n = true := hl
      rw [serveAll, serveAllIn, if_pos hlost, List.getElem?_cons_zero, List.take_zero,
        List.flatten_nil, List.append_nil]
    | succ i =>
      rw [serveAll, serveAllIn, List.getElem?_cons_succ, List.take_succ_cons, List.flatten_cons,
        ← List.append_assoc]
      exact ih (Nat.add_right_comm n 1 i ▸ hl) hi

/-- Where it was kept, it went on. -/
theorem serveAll_kept {i : Nat} {r : Runner σ} (hl : evicted (n + i + 1) = false)
    (hr : (serveAll fuel info world fn evicted n past cached batches)[i]? = some r)
    (hi : batches[i + 1]? = some batch) :
    (serveAll fuel info world fn evicted n past cached batches)[i + 1]? =
      some (r.applyAndResume fuel batch) := by
  induction batches generalizing n past cached i with
  | nil => cases hi
  | cons h batches ih =>
    cases i with
    | zero =>
      cases batches with
      | nil => cases hi
      | cons h' batches =>
        cases Option.some.inj hi
        cases Option.some.inj hr
        rw [serveAll, serveAllIn, List.getElem?_cons_succ, serveAllIn, List.getElem?_cons_zero]
        have hkept : evicted (n + 1) = false := hl
        rw [if_neg (Bool.not_eq_true _ ▸ hkept)]
        rfl
    | succ i =>
      rw [serveAll, serveAllIn, List.getElem?_cons_succ] at hr ⊢
      exact ih (Nat.add_right_comm n 1 i ▸ hl) hr hi

end Serving
end Runner

section Sharing

variable {info : WorkflowInfo} {world : World σ} {fn : WorkflowFn σ} {batches : List History}

theorem ServesAll.getElem? {s : Setting σ} {evicted : Nat → Bool} {n : Nat} {first : Bool}
    {past : History} {b : Progress σ} {hs : List History} {bs : List (Progress σ)}
    {rs : List (Runner σ)} (h : ServesAll s evicted n first past b hs bs rs) {i : Nat}
    {r : Runner σ} (hr : rs[i]? = some r) :
    ∃ b₀ b' fresh, Serves s (past ++ (hs.take (i + 1)).flatten) b₀ b' fresh r := by
  induction h generalizing i with
  | nil => cases hr
  | cons hserves _ ih =>
    cases i with
    | zero =>
      cases Option.some.inj hr
      rw [zero_add, List.take_succ_cons, List.take_zero, List.flatten_singleton]
      exact ⟨_, _, _, hserves⟩
    | succ i =>
      rw [List.take_succ_cons, List.flatten_cons, ← List.append_assoc]
      exact ih hr

/-- What a runner reports to the server. -/
def Runner.reported (r : Runner σ) : List Command := r.commands ++ r.terminalCommand.toList

/-- An execution nothing interrupts: one runner serves the tasks, of which `batches` are the new
events, and the server records what it reports. The workflow only waits, so that nothing it does
depends on when it is asked. -/
structure Uninterrupted (fuel : Nat) (info : WorkflowInfo) (world : World σ) (fn : WorkflowFn σ)
    (batches : List History) : Prop where
  waiting : ∀ input answers, ((Runner.chain world fn).body input answers).Waiting world
  converter : world.converter.RoundTrips
  served : Served batches.flatten
  updateFree : UpdateFree batches.flatten
  nonempty : ∀ b ∈ batches, b ≠ []
  starts : ∀ b ∈ batches.head?, TaskHandler.isFullHistory b = true
  startsOnce : ∀ b ∈ batches.tail, ∀ e ∈ b, e.attributes.isStarted = false
  recorded : RecordedBy (Runner.tasks fuel info world fn (fun _ => false) batches) batches
  live : ∀ r ∈ Runner.tasks fuel info world fn (fun _ => false) batches, r.deadlocked = false

/-- `r` answers the task that brings the history to `h` the way `q` does. -/
structure AnswersLike (h : History) (q r : Runner σ) : Prop where
  same : SameAnswer q r
  live : r.deadlocked = false
  lastEventId : r.lastEventId = h.lastId

theorem AnswersLike.rewired {h : History} {q r r' : Runner σ} (ha : AnswersLike h q r)
    (hr : r.Rewired r') : AnswersLike h q r' where
  same := ha.same.trans hr.sameAnswer
  live := by
    rw [hr.same]
    exact ha.live
  lastEventId := by
    rw [hr.same]
    exact ha.lastEventId

/-- Whichever task was replayed last, the tasks from there on are answered as they are without
interruption. -/
theorem Uninterrupted.exists_enough {fuel : Nat}
    (hx : Uninterrupted fuel info world fn batches) :
    ∃ enough, ∀ fuel' ≥ enough, ∀ j < batches.length, ∀ n r,
      (Runner.tasks fuel' info world fn (· == j) batches)[n]? = some r →
      ∃ q, (Runner.tasks fuel info world fn (fun _ => false) batches)[n]? = some q ∧
        AnswersLike (History.upTo batches (n + 1)) q r ∧ (n = j → r.checkDeterminism = none) := by
  have hrepeats (m : Nat) (lost : Nat → Bool) :
      Runner.Throughout m info world fn Runner.Repeats lost 0 [] none batches :=
    .of_replayable (fun input answers => (hx.waiting input answers).1) hx.updateFree
  have hlooks : Runner.Throughout fuel info world fn
      (fun q => (q.program q.trace).isObservation = false) (fun _ => false) 0 [] none batches := by
    refine .of_body (fun q hq => ?_) hx.updateFree (fun r hr => absurd hr (Option.not_mem_none r))
    rw [hq.program]
    exact (hx.waiting q.input q.trace).2
  have heach (j : Nat) : ∃ enough, ∀ fuel' ≥ enough, ∀ n r,
      (Runner.tasks fuel' info world fn (· == j) batches)[n]? = some r →
      ∃ q, (Runner.tasks fuel info world fn (fun _ => false) batches)[n]? = some q ∧
        AnswersLike (History.upTo batches (n + 1)) q r ∧
        (n = j → r.checkDeterminism = none) := by
    obtain ⟨bs, -, href, enough, henough⟩ := Runner.tasks_course info world fn hx.converter
      hx.served hx.updateFree hx.startsOnce
      ((hrepeats fuel fun _ => false).imp fun _ => Runner.Repeats.redoes)
      (.of_repeats (hrepeats fuel fun _ => false)) (.of_waiting hlooks) hx.recorded hx.live
      (· == j) rfl
    refine ⟨enough, fun fuel' hfuel n r hr => ?_⟩
    obtain ⟨hall, hdet⟩ := henough fuel' hfuel
      ((hrepeats fuel' (· == j)).imp fun _ => Runner.Repeats.dated)
    obtain ⟨hlen, hsame⟩ := List.forall₂_iff_get.mp (href.sameAnswers hall)
    obtain ⟨hn, rfl⟩ := List.getElem?_eq_some_iff.mp hr
    obtain ⟨_, b', _, hserves⟩ := hall.getElem? hr
    obtain ⟨_, _, hcarries⟩ := hserves.cached.carries
    refine ⟨_, List.getElem?_eq_getElem (hlen ▸ hn), ⟨hsame n (hlen ▸ hn) hn, ?_, ?_⟩, ?_⟩
    · exact hcarries.deadlocked
    · exact hserves.cached.lastEventId.trans (History.scanAll_lastEventId _)
    · intro hj
      exact hdet n _ hr (.inr (beq_iff_eq.mpr hj))
  choose enough henough using heach
  refine ⟨(Finset.range batches.length).sup enough, fun fuel' hfuel j hj n r hr => ?_⟩
  have hle : enough j ≤ fuel' := (Finset.le_sup (Finset.mem_range.mpr hj)).trans hfuel
  exact henough j fuel' hle n r hr

namespace Uninterrupted

variable {fuel : Nat} (hx : Uninterrupted fuel info world fn batches)
include hx

/-- Task `n` goes on from task `m` only if it is the next. -/
theorem next_task {m n : Nat} (hm : m < batches.length) (hn : n < batches.length)
    (hnext : TaskHandler.firstEventId batches[n] = (History.upTo batches (m + 1)).lastId + 1) :
    n = m + 1 := by
  have hinc := hx.served.increasing
  have hsplit := (History.upTo_append batches (m + 1)).symm
  obtain ⟨e, hs, he⟩ := List.exists_cons_of_ne_nil (hx.nonempty _ (List.getElem_mem hn))
  have hmem : e ∈ batches[n] := he ▸ List.mem_cons_self
  have hfirst : e.eventId = (History.upTo batches (m + 1)).lastId + 1 := by
    rw [← hnext, he]
    rfl
  rcases Nat.lt_trichotomy n (m + 1) with hlt | heq | hgt
  · have hbefore : e ∈ (History.upTo batches (m + 1)) :=
      List.mem_flatten.mpr ⟨_, List.mem_take_iff_getElem.mpr ⟨n, by omega, rfl⟩, hmem⟩
    rw [hsplit] at hinc
    have := History.le_lastId (List.pairwise_append.mp hinc).1 hbefore
    omega
  · exact heq
  · have hm' : m + 1 < batches.length := by omega
    obtain ⟨e', hs', he'⟩ := List.exists_cons_of_ne_nil (hx.nonempty _ (List.getElem_mem hm'))
    have hmem' : e' ∈ batches[m + 1] := he' ▸ List.mem_cons_self
    have hbetween : e'.eventId < e.eventId :=
      List.pairwise_iff_getElem.mp (List.pairwise_flatten.mp hinc).2 (m + 1) n hm' hn hgt e' hmem'
        e hmem
    have hafter : e' ∈ (batches.drop (m + 1)).flatten :=
      List.mem_flatten.mpr ⟨_, List.mem_drop_iff_getElem.mpr ⟨0, by omega, rfl⟩, hmem'⟩
    have hpos : ∀ x ∈ (batches.drop (m + 1)).flatten, 0 < x.eventId := fun x hx' =>
      hx.served.positive x (hsplit ▸ List.mem_append_right _ hx')
    rw [hsplit] at hinc
    have := History.lastId_lt hpos hinc hafter
    omega

theorem updateFree_upTo (n : Nat) : UpdateFree (History.upTo batches n) := fun e he =>
  hx.updateFree e (History.upTo_append batches n ▸ List.mem_append_left _ he)

theorem isFullHistory_take {n : Nat} (hn : n < batches.length) :
    TaskHandler.isFullHistory (History.upTo batches (n + 1)) = true := by
  obtain ⟨b, bs, rfl⟩ := List.exists_cons_of_length_pos (Nat.zero_lt_of_lt hn)
  have hb := hx.starts b rfl
  obtain ⟨e, es, rfl⟩ := List.exists_cons_of_ne_nil (hx.nonempty b List.mem_cons_self)
  exact hb

theorem isFullHistory_batch {n : Nat} (hpos : 0 < n) (hn : n < batches.length) :
    TaskHandler.isFullHistory batches[n] = false := by
  obtain ⟨e, es, he⟩ := List.exists_cons_of_ne_nil (hx.nonempty _ (List.getElem_mem hn))
  have htail : batches[n] ∈ batches.tail := by
    rw [List.mem_iff_getElem]
    refine ⟨n - 1, by rw [List.length_tail]; omega, ?_⟩
    rw [List.getElem_tail]
    congr 1
    omega
  have hno := hx.startsOnce _ htail e (he ▸ List.mem_cons_self)
  rw [he]
  obtain ⟨eid, a⟩ := e
  cases a with
  | workflowExecutionStarted => cases hno
  | _ => rfl

end Uninterrupted
end Sharing

namespace TaskHandler

section Attempts

variable {h : TaskHandler σ} {info : WorkflowInfo} {world : World σ} {fn : WorkflowFn σ}
  {batches : List History} {remote : Remote} {task : WorkflowTask} {resident : Option (Runner σ)}

/-- The events of a task as the worker gets to see them. -/
def Assembles (h : TaskHandler σ) (remote : Remote) (task : WorkflowTask) (events : History) :
    Prop :=
  assembleHistory remote.stub h.ns task.workflowId task.runId remote.pageFuel task.page =
    some (.ok events)

/-- Task `n` in the hands of a worker: with the whole history or, after the first, with the new
events alone. A worker that gets the whole history does what `world` does beyond it. -/
structure Offered (h : TaskHandler σ) (info : WorkflowInfo) (world : World σ) (fn : WorkflowFn σ)
    (batches : List History) (remote : Remote) (task : WorkflowTask) (n : Nat) : Prop where
  within : n < batches.length
  registered : h.workflows task.workflowType = some fn
  sameInfo : h.info task = info
  query : task.query = none
  queries : task.queries = []
  messages : task.messages = []
  replaying : 0 < task.previousStartedEventId ↔ 0 < n
  history : h.Assembles remote task (History.upTo batches (n + 1)) ∨
    0 < n ∧ h.Assembles remote task batches[n]
  beyond : h.Assembles remote task (History.upTo batches (n + 1)) →
    world.AgreesBeyond (scanAll (History.upTo batches (n + 1))) h.world

/-- A task of which the answer came to nothing: it holds some of the events that were new to
another, or events that were never recorded. -/
structure Abandoned (h : TaskHandler σ) (batches : List History) (remote : Remote)
    (task : WorkflowTask) : Prop where
  query : task.query = none
  increasing : ∀ events, h.Assembles remote task events →
    events.Pairwise fun a b => a.eventId < b.eventId
  astray : ∀ events, h.Assembles remote task events →
    ∀ b ∈ batches, firstEventId b ≠ events.lastId + 1

/-- The response reports what `q` has to report, and nothing else. -/
def Reports (q : Runner σ) (sent : List Response) : Prop :=
  ∃ req, sent = [.workflowTaskCompleted req] ∧ req.commands = q.reported ∧ req.messages = [] ∧
    req.queryResults = []

/-- The answer to task `n`: what the uninterrupted execution reports or, to a task that came without
its whole history, a request for it. -/
def AnswersTask (h : TaskHandler σ) (fuel : Nat) (info : WorkflowInfo) (world : World σ)
    (fn : WorkflowFn σ) (batches : List History) (remote : Remote) (task : WorkflowTask) (n : Nat)
    (sent : List Response) : Prop :=
  (∃ q, (Runner.tasks fuel info world fn (fun _ => false) batches)[n]? = some q ∧
    Reports q sent) ∨
  ¬ h.Assembles remote task (History.upTo batches (n + 1)) ∧
    sent = [.workflowTaskFailed task.taskToken h.identity .resetStickyTaskQueue none]

/-- The worker has time enough for every task, whichever it replayed last. -/
def Suffices (h : TaskHandler σ) (fuel : Nat) (info : WorkflowInfo) (world : World σ)
    (fn : WorkflowFn σ) (batches : List History) : Prop :=
  ∀ j < batches.length, ∀ n r,
    (Runner.tasks h.fuel info world fn (· == j) batches)[n]? = some r →
    ∃ q, (Runner.tasks fuel info world fn (fun _ => false) batches)[n]? = some q ∧
      AnswersLike (History.upTo batches (n + 1)) q r ∧ (n = j → r.checkDeterminism = none)

/-- Where a resident runner stands: behind a task of the execution, if in a world of its own, or
where no task goes on. -/
def Standing (fuel : Nat) (info : WorkflowInfo) (world : World σ) (fn : WorkflowFn σ)
    (batches : List History) (r : Runner σ) : Prop :=
  (∃ j n q, j < batches.length ∧ j ≤ n ∧
    (Runner.tasks fuel info world fn (· == j) batches)[n]? = some q ∧ q.Rewired r) ∨
  ∀ b ∈ batches, firstEventId b ≠ r.lastEventId + 1

theorem serveCompletion_plain (h : TaskHandler σ) (remote : Remote) (hqueries : task.queries = [])
    (hmessages : task.messages = []) (r : Runner σ) :
    Reports r (h.serveCompletion remote task r).sent ∧
      ∀ r' ∈ (h.serveCompletion remote task r).resident, r' = r := by
  unfold serveCompletion
  rw [hqueries, hmessages]
  simp only [Runner.processMessages, Runner.answerQueries]
  cases remote.respond _ with
  | error e =>
    refine ⟨⟨_, rfl, rfl, rfl, rfl⟩, ?_⟩
    rintro r' ⟨⟩
    rfl
  | ok _ =>
    refine ⟨⟨_, rfl, rfl, rfl, rfl⟩, fun r' hr' => ?_⟩
    dsimp only at hr'
    split at hr'
    · cases hr'
    · exact (Option.some.inj hr').symm

/-- Answering a task does not move the runner on. -/
theorem serveCompletion_lastEventId {r r' : Runner σ}
    (hr : r' ∈ (h.serveCompletion remote task r).resident) : r'.lastEventId = r.lastEventId := by
  have hinvoke : ∀ (x : Runner σ) p, x.lastEventId = r.lastEventId →
      (x.invoke h.fuel p).1.lastEventId = r.lastEventId := fun x p hx =>
    (congrArg Prescan.lastEventId (x.invoke_scan h.fuel p)).trans hx
  have hm := Runner.processMessages_keeps hinvoke rfl h.identity task.messages
  rcases mem_serveCompletion hr with rfl | rfl
  · exact hm
  · exact Runner.answerQueries_keeps hinvoke hm task.queries

theorem applyAndResume_lastEventId {fuel : Nat} {r : Runner σ} {events : History}
    (hinc : events.Pairwise fun a b => a.eventId < b.eventId)
    (hfit : firstEventId events = r.lastEventId + 1) :
    (r.applyAndResume fuel events).lastEventId = events.lastId := by
  cases events with
  | nil => cases hfit
  | cons e events =>
    have hfirst : e.eventId = r.lastEventId + 1 := hfit
    have hlt : ∀ e' ∈ e :: events, r.lastEventId < e'.eventId := by
      intro e' he'
      rcases List.mem_cons.mp he' with rfl | he'
      · omega
      · have := (List.pairwise_cons.mp hinc).1 e' he'
        omega
    have happly := Runner.applyEvents_lastEventId
      (r := { r with commands := [], producedCommands := [] }) hinc (List.cons_ne_nil _ _) hlt
    rw [← happly]
    unfold Runner.applyAndResume
    dsimp only
    split
    · exact congrArg Prescan.lastEventId (Runner.resumeCoroutine_scan _ _)
    · rfl

/-- Nothing is ever continued from an abandoned task. -/
theorem serve_abandoned (ha : h.Abandoned batches remote task)
    (hres : ∀ r ∈ resident, Standing h.fuel info world fn batches r) :
    ∀ r ∈ (h.serve remote resident task).resident, Standing h.fuel info world fn batches r := by
  intro r hr
  rcases mem_serve hr with hr | ⟨q, r₀, -, hq, -⟩ | ⟨fn', events, r₀, -, -, hev, hr₀, hr⟩
  · exact hres r hr
  · cases ha.query.symm.trans hq
  · have hlast : r₀.lastEventId = events.lastId := by
      rcases hr₀ with rfl | ⟨r₁, -, hnext, rfl⟩
      · exact Runner.replay_run_lastEventId _ _ _ _ _ events
      · exact applyAndResume_lastEventId (ha.increasing events hev) hnext
    right
    rw [serveCompletion_lastEventId hr, hlast]
    exact ha.astray events hev

/-- A replay is neither hung nor left by an exception. -/
theorem replayed_flags (h : TaskHandler σ) (task : WorkflowTask) {fuel : Nat}
    (hx : Uninterrupted fuel info world fn batches) (n : Nat) :
    (h.replayed fn task (History.upTo batches n)).hung = false ∧
      (h.replayed fn task (History.upTo batches n)).escaped = false := by
  rw [TaskHandler.replayed, Runner.run_of_updateFree (hx.updateFree_upTo n)]
  exact Runner.resumeCoroutine_flags _ _

section Offering

variable {fuel : Nat} (hx : Uninterrupted fuel info world fn batches) {n : Nat}
  (ho : h.Offered info world fn batches remote task n)
include hx ho

/-- The runner a replay of task `n` builds, but for its world. -/
theorem Offered.replayed (hall : h.Assembles remote task (History.upTo batches (n + 1))) :
    ∃ r, (Runner.tasks h.fuel info world fn (· == n) batches)[n]? = some r ∧
      r.Rewired (h.replayed fn task (History.upTo batches (n + 1))) := by
  have hn := ho.within
  have hpast : decide (0 < task.previousStartedEventId) = !(History.upTo batches n).isEmpty := by
    cases n with
    | zero => simpa [History.upTo] using ho.replaying
    | succ k =>
      obtain ⟨b, bs, rfl⟩ := List.exists_cons_of_length_pos (Nat.zero_lt_of_lt hn)
      obtain ⟨e, es, rfl⟩ := List.exists_cons_of_ne_nil (hx.nonempty b List.mem_cons_self)
      exact decide_eq_true (ho.replaying.mpr (Nat.succ_pos k))
  have hself : (0 + n == n) = true := beq_iff_eq.mpr (Nat.zero_add n)
  have hu := hx.updateFree_upTo (n + 1)
  refine ⟨_, Runner.serveAll_lost hself (List.getElem?_eq_getElem hn), ?_⟩
  rw [List.nil_append, Runner.serve, ← History.upTo, ← History.upTo_succ hn,
    Runner.run_of_updateFree hu, TaskHandler.replayed, Runner.run_of_updateFree hu, ho.sameInfo,
    hpast]
  exact (Runner.Rewired.replay _ hu (ho.beyond hall)).resumeCoroutine h.fuel

/-- Task `n`, handed to a worker whose resident runner stands anywhere it can, is answered with what
the uninterrupted execution reports, or sent back for its whole history. -/
theorem serve_offered (hgood : h.Suffices fuel info world fn batches)
    (hres : ∀ r ∈ resident, Standing h.fuel info world fn batches r) :
    (∀ r ∈ (h.serve remote resident task).resident, Standing h.fuel info world fn batches r) ∧
      h.AnswersTask fuel info world fn batches remote task n
        (h.serve remote resident task).sent := by
  have hn := ho.within
  have hfull := hx.isFullHistory_take hn
  have hbatch := List.getElem?_eq_getElem hn
  -- a runner that has served task `n` in time answers it
  have hanswer (j : Nat) (hj : j < batches.length) (hjn : j ≤ n) (r₀ r : Runner σ)
      (hr₀ : (Runner.tasks h.fuel info world fn (· == j) batches)[n]? = some r₀)
      (hr : r₀.Rewired r) :
      (∀ r' ∈ (h.serveCompletion remote task r).resident,
        Standing h.fuel info world fn batches r') ∧
      h.AnswersTask fuel info world fn batches remote task n
        (h.serveCompletion remote task r).sent := by
    obtain ⟨hreports, hkeeps⟩ := serveCompletion_plain h remote ho.queries
      ho.messages r
    obtain ⟨q, hq, hlike, -⟩ := hgood j hj n r₀ hr₀
    refine ⟨fun r' hr' => .inl ⟨j, n, r₀, hj, hjn, hr₀, hkeeps r' hr' ▸ hr⟩, .inl ⟨q, hq, ?_⟩⟩
    obtain ⟨req, hsent, hcommands, hrest⟩ := hreports
    refine ⟨req, hsent, hcommands.trans ?_, hrest⟩
    have hsame := (hlike.rewired hr).same
    rw [Runner.reported, Runner.reported, hsame.commands, hsame.terminalCommand]
  unfold serve
  rw [ho.registered]
  dsimp only
  rcases ho.history with hall | ⟨hpos, hnew⟩
  · rw [show assembleHistory _ _ _ _ _ _ = _ from hall]
    obtain ⟨r₀, hr₀, hrew⟩ := ho.replayed hx hall
    obtain ⟨q, hq, hlike, hdet⟩ := hgood n hn n r₀ hr₀
    obtain ⟨hhung, hescaped⟩ := replayed_flags h task hx (n + 1)
    simp only [serveEvents, fitting, hfull, if_true, ho.query, serveReplay,
      (hlike.rewired hrew).live, hhung, hescaped, hrew.checkDeterminism, hdet rfl,
      Bool.false_eq_true, if_false]
    exact hanswer n hn le_rfl _ _ hr₀ hrew
  · rw [show assembleHistory _ _ _ _ _ _ = _ from hnew]
    have hpart := hx.isFullHistory_batch hpos hn
    have hnot : ¬ h.Assembles remote task (History.upTo batches (n + 1)) := fun hall => by
      have heq : History.upTo batches (n + 1) = batches[n] :=
        Except.ok.inj (Option.some.inj (hall.symm.trans hnew))
      rw [heq, hpart] at hfull
      cases hfull
    dsimp only [serveEvents]
    rw [ho.query]
    cases hfit : fitting resident batches[n] (none : Option WorkflowQuery).isSome with
    | none =>
      simp only [hpart, Bool.false_eq_true, if_false, settle_resident, settle_sent]
      exact ⟨hres, .inr ⟨hnot, rfl⟩⟩
    | some r =>
      obtain ⟨-, hr, hnext⟩ := fitting_eq_some.mp hfit
      rcases hres r hr with ⟨j, m, r₀, hj, hjm, htask, hrew⟩ | hastray
      · obtain ⟨q, hq, hlike, -⟩ := hgood j hj m r₀ htask
        have hm : m < batches.length := by
          rw [← Runner.length_serveAll]
          exact (List.getElem?_eq_some_iff.mp htask).1
        have hnm := hx.next_task hm hn ((hlike.rewired hrew).lastEventId ▸ hnext)
        subst hnm
        have hkept : (0 + m + 1 == j) = false := beq_false_of_ne (by omega)
        have htask' := Runner.serveAll_kept hkept htask hbatch
        have hrew' := hrew.applyAndResume h.fuel batches[m + 1]
        obtain ⟨q', hq', hlike', -⟩ := hgood j hj (m + 1) _ htask'
        simp only [serveContinuation, (hlike'.rewired hrew').live, Bool.false_eq_true, if_false]
        exact hanswer j hj (by omega) _ _ htask' hrew'
      · exact absurd hnext (hastray _ (List.getElem_mem hn))

end Offering

end Attempts
end TaskHandler

/-- A task on its way to one of the workers `W`. -/
structure Job (W : Type) where
  worker : W
  remote : Remote
  task : WorkflowTask

section Workers

variable {W : Type} [DecidableEq W] {handlers : W → TaskHandler σ} {info : WorkflowInfo}
  {world : World σ} {fn : WorkflowFn σ} {batches : List History}

/-- `P` holds of the responses to each job, as the workers handle them one after the other. -/
def EachJob (handlers : W → TaskHandler σ) (P : Job W → List Response → Prop) :
    (W → HandlerState σ) → List (Job W) → Prop
  | _, [] => True
  | states, job :: jobs =>
    let out := (handlers job.worker).handle job.remote (states job.worker) job.task
    P job out.sent ∧
      EachJob handlers P (Function.update states job.worker out.state) jobs

/-- The jobs of the run are its tasks or attempts at them that come to nothing. -/
def Attempts (handlers : W → TaskHandler σ) (info : WorkflowInfo) (world : World σ)
    (fn : WorkflowFn σ) (batches : List History) (job : Job W) : Prop :=
  (∃ n, (handlers job.worker).Offered info world fn batches job.remote job.task n) ∨
    (handlers job.worker).Abandoned batches job.remote job.task

/-- Whatever worker holds a runner of the run, it is one that can be gone on from. -/
def AllStanding (handlers : W → TaskHandler σ) (info : WorkflowInfo) (world : World σ)
    (fn : WorkflowFn σ) (batches : List History) (states : W → HandlerState σ) : Prop :=
  ∀ w, (states w).Sound ∧ ∀ r ∈ (states w).resident info.runId,
    TaskHandler.Standing (handlers w).fuel info world fn batches r

/-- A job leaves the workers it does not go to alone. -/
theorem AllStanding.update {states : W → HandlerState σ}
    (hs : AllStanding handlers info world fn batches states) {w : W} {s : HandlerState σ}
    (hsound : s.Sound) (hstand : ∀ r ∈ s.resident info.runId,
      TaskHandler.Standing (handlers w).fuel info world fn batches r) :
    AllStanding handlers info world fn batches (Function.update states w s) := by
  intro w'
  by_cases hw : w' = w
  · subst hw
    rw [Function.update_self]
    exact ⟨hsound, hstand⟩
  · rw [Function.update_of_ne hw]
    exact hs w'

/-- A workflow that only waits does not notice its workers: whichever of them its tasks go to, in
whatever order and however often, mixed with attempts that come to nothing and with the tasks of
other runs, each is answered with the commands that an uninterrupted execution reports, or sent back
for its whole history. -/
theorem failover_transparent {fuel : Nat} (hx : Uninterrupted fuel info world fn batches) :
    ∃ enough, ∀ (handlers : W → TaskHandler σ) (capacity : W → Nat) (jobs : List (Job W)),
      (∀ w, enough ≤ (handlers w).fuel) →
      (∀ job ∈ jobs, job.task.runId = info.runId →
        Attempts handlers info world fn batches job) →
      EachJob handlers (fun job sent => ∀ n,
          (handlers job.worker).Offered info world fn batches job.remote job.task n →
          (handlers job.worker).AnswersTask fuel info world fn batches job.remote job.task n sent)
        (fun w => { cache := .empty (capacity w) }) jobs := by
  obtain ⟨enough, henough⟩ := hx.exists_enough
  refine ⟨enough, fun handlers capacity jobs hfuel hjobs => ?_⟩
  have hgood (w : W) : (handlers w).Suffices fuel info world fn batches :=
    henough _ (hfuel w)
  have hstart : AllStanding handlers info world fn batches
      fun w => { cache := .empty (capacity w) } :=
    fun w => ⟨.empty (capacity w), fun r hr => by cases hr⟩
  revert hstart
  generalize (fun w => ({ cache := .empty (capacity w) } : HandlerState σ)) = states
  intro hs
  induction jobs generalizing states with
  | nil => trivial
  | cons job jobs ih =>
    obtain ⟨hjob, hjobs⟩ := List.forall_mem_cons.mp hjobs
    obtain ⟨hsound, hstand⟩ := hs job.worker
    have href := TaskHandler.handle_refines (h := handlers job.worker) job.remote job.task hsound
    have hsound' := TaskHandler.handle_sound (h := handlers job.worker) job.remote job.task hsound
    refine ⟨fun n ho => ?_, ih hjobs _ (hs.update hsound' ?_)⟩
    · have hrun : job.task.runId = info.runId := congrArg WorkflowInfo.runId ho.sameInfo
      rw [href.sent, hrun]
      exact (TaskHandler.serve_offered hx ho (hgood _) hstand).2
    · by_cases hrun : job.task.runId = info.runId
      · rw [← hrun, href.resident, hrun]
        rcases hjob hrun with ⟨n, ho⟩ | ha
        · exact (TaskHandler.serve_offered hx ho (hgood _) hstand).1
        · exact TaskHandler.serve_abandoned ha hstand
      · intro r hr
        rcases href.others.resident info.runId (Ne.symm hrun) with he | ⟨-, hn⟩
        · exact hstand r (he ▸ hr)
        · rw [hn] at hr
          cases hr

end Workers

/-- A worker that has lost what is on record of the first `n` tasks. -/
def rollWorker (fuel n : Nat) : TaskHandler Unit where
  workflows name := if name = "RollThenQuote" then some rollThenQuote else none
  world := rollThenQuoteWorld.spent (scanAll (History.upTo rollThenQuoteTasks n))
  fuel := fuel

def rollTask (events : History) (previousStartedEventId : Nat) : WorkflowTask where
  taskToken := "token"
  workflowId := "roll-1"
  runId := "run-1"
  workflowType := "RollThenQuote"
  page := { events }
  previousStartedEventId := previousStartedEventId

def rollInfo : WorkflowInfo where
  workflowId := "roll-1"
  runId := "run-1"
  workflowType := "RollThenQuote"
  ns := "default"

theorem rollThenQuote_uninterrupted :
    Uninterrupted 10 rollInfo rollThenQuoteWorld rollThenQuote rollThenQuoteTasks := by
  have hreports : (Runner.tasks 10 rollInfo rollThenQuoteWorld rollThenQuote (fun _ => false)
      rollThenQuoteTasks).map Runner.report =
      [([rolled 0 (.int 6), .timerStarted "t0"], none, false),
        ([quoted (.ok [{ data := [7] }]), .timerStarted "t1"], none, false),
        ([], some (.completeWorkflowExecution []), false)] := by decide +kernel
  exact
    { waiting := rollThenQuote_waiting
      converter := DataConverter.tagged_roundTrips
      served := ⟨by decide +kernel, by decide +kernel, by decide +kernel, by decide +kernel⟩
      updateFree := by decide +kernel
      nonempty := by decide
      starts := by decide
      startsOnce := by decide
      recorded := .of_reports hreports (by decide +kernel) (by decide +kernel)
      live := Runner.live_of_reports hreports (by decide +kernel) }

/-- The first worker takes the first task and loses the second halfway, and the other one, where the
die cannot be rolled again, takes over from its history. -/
def rollJobs : List (Job Bool) :=
  [⟨false, .accepting, rollTask rollThenQuoteTasks[0] 0⟩,
    ⟨false, .accepting, rollTask (rollThenQuoteTasks[1].take 2) 3⟩,
    ⟨true, .accepting, rollTask (rollThenQuoteTasks[0] ++ rollThenQuoteTasks[1]) 3⟩,
    ⟨true, .accepting, rollTask rollThenQuoteTasks[2] 10⟩]

def rollWorkers (fuel : Nat) (second : Bool) : TaskHandler Unit :=
  rollWorker fuel (if second then 2 else 1)

theorem roll_taken_over : ∃ enough, ∀ fuel ≥ enough,
    EachJob (rollWorkers fuel) (fun job sent => ∀ n,
        (rollWorkers fuel job.worker).Offered rollInfo rollThenQuoteWorld rollThenQuote
          rollThenQuoteTasks job.remote job.task n →
        (rollWorkers fuel job.worker).AnswersTask 10 rollInfo rollThenQuoteWorld rollThenQuote
          rollThenQuoteTasks job.remote job.task n sent)
      (fun _ => { cache := .empty 1 }) rollJobs := by
  obtain ⟨enough, henough⟩ := failover_transparent (W := Bool) rollThenQuote_uninterrupted
  refine ⟨enough, fun fuel hfuel => henough _ (fun _ => 1) rollJobs (fun _ => hfuel) ?_⟩
  intro job hjob _
  simp only [rollJobs, List.mem_cons, List.not_mem_nil, or_false] at hjob
  rcases hjob with rfl | rfl | rfl | rfl
  · exact .inl ⟨0, by decide, rfl, rfl, rfl, rfl, rfl, by decide, .inl rfl,
      fun _ => World.agreesBeyond_spent _ _⟩
  · refine .inr ⟨rfl, fun events he => ?_, fun events he => ?_⟩ <;> cases he <;> decide
  · exact .inl ⟨1, by decide, rfl, rfl, rfl, rfl, rfl, by decide, .inl rfl,
      fun _ => World.agreesBeyond_spent _ _⟩
  · exact .inl ⟨2, by decide, rfl, rfl, rfl, rfl, rfl, by decide, .inr ⟨by decide, rfl⟩,
      fun he => by cases he⟩

end TemporalSdk
