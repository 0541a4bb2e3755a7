import Mathlib.Algebra.Group.Int.Defs
import Mathlib.Data.List.Induction
import TemporalSdk.ActivityHandler

/-! Heartbeats of an activity: how often `RecordHeartbeat` reports to the server, and what a report
leaves behind. Times are nanoseconds of the steady clock. -/
namespace TemporalSdk

/-- `int64_t` arithmetic. -/
def wrap64 (n : Int) : Int := n.bmod (2 ^ 64)

/-- `kDefaultInterval`. -/
def kDefaultInterval : Int := 30 * 1000000000

/-- `HeartbeatThrottleInterval`, on the heartbeat timeout of a task if it carries one. -/
def heartbeatThrottleInterval (heartbeatTimeout : Option Duration) : Int :=
  match heartbeatTimeout with
  | none => kDefaultInterval
  | some d =>
    let timeout := wrap64 (wrap64 (d.seconds * 1000000000) + d.nanos)
    if timeout ≤ 0 then kDefaultInterval
    else (wrap64 (timeout * 8)).tdiv 10

structure RecordActivityTaskHeartbeatRequest where
  taskToken : String
  ns : String
  identity : String
  details : Option Payloads
  deriving DecidableEq, Repr

/-- The `heartbeat` callback of `ActivityTaskHandler::Handle`; `stub` is the server's answer, with
its cancel flag. -/
def ActivityTaskHandler.heartbeat {ω : Type} (h : ActivityTaskHandler ω) (ns : String)
    (task : ActivityTask) (stub : RecordActivityTaskHeartbeatRequest → GrpcStatus × Bool)
    (details : Payloads) : Except Thrown Bool :=
  let req : RecordActivityTaskHeartbeatRequest :=
    { taskToken := task.taskToken, ns, identity := h.identity
      details := if details.isEmpty then none else some details }
  match unaryCall "RecordActivityTaskHeartbeat" false false (stub req) with
  | .ok cancelRequested => .ok cancelRequested
  | .error e => .error e.thrown

/-- The part of `activity::Context` behind `RecordHeartbeat`. -/
structure HeartbeatContext where
  hasHeartbeat : Bool := true
  throttleInterval : Int
  lastReport : Int := 0
  reported : Bool := false
  cancelRequested : Bool := false
  deriving DecidableEq, Repr

/-- A call of `RecordHeartbeat`: when it is made, what `ToPayloads` makes of its details, and what
the callback would answer. -/
structure HeartbeatCall where
  now : Int
  details : Except Thrown Payloads := .ok []
  heartbeat : Payloads → Except Thrown Bool

/-- `heartbeat_(converter_->ToPayloads(details...))`. -/
def HeartbeatCall.report (call : HeartbeatCall) : Except Thrown Bool :=
  match call.details with
  | .error e => .error e
  | .ok payloads => call.heartbeat payloads

/-- How a call of `RecordHeartbeat` ends. -/
inductive HeartbeatOutcome where
  | throttled
  | reported (cancelRequested : Bool)
  | threw (e : Thrown)
  deriving DecidableEq, Repr

namespace HeartbeatContext

/-- `RecordHeartbeat`. The state is set before the report is made. -/
def recordHeartbeat (ctx : HeartbeatContext) (call : HeartbeatCall) :
    HeartbeatContext × HeartbeatOutcome :=
  if !ctx.hasHeartbeat then (ctx, .throttled)
  else if ctx.reported && decide (call.now - ctx.lastReport < ctx.throttleInterval) then
    (ctx, .throttled)
  else
    let ctx := { ctx with lastReport := call.now, reported := true }
    match call.report with
    | .error e => (ctx, .threw e)
    | .ok flag => ({ ctx with cancelRequested := flag }, .reported flag)

def isCancelled (ctx : HeartbeatContext) : Bool := ctx.cancelRequested

/-- The context after a sequence of calls. -/
def after (ctx : HeartbeatContext) (calls : List HeartbeatCall) : HeartbeatContext :=
  calls.foldl (fun ctx call => (ctx.recordHeartbeat call).1) ctx

/-- The reports that were made, with their times and the answers they got. -/
def reports (ctx : HeartbeatContext) : List HeartbeatCall → List (Int × Bool)
  | [] => []
  | call :: calls =>
    let (ctx', outcome) := ctx.recordHeartbeat call
    match outcome with
    | .reported flag => (call.now, flag) :: reports ctx' calls
    | _ => reports ctx' calls

variable {ctx : HeartbeatContext} {call : HeartbeatCall} {calls : List HeartbeatCall}

/-- Too soon after the last report. -/
def TooSoon (ctx : HeartbeatContext) (call : HeartbeatCall) : Prop :=
  ctx.reported = true ∧ call.now - ctx.lastReport < ctx.throttleInterval

instance (ctx : HeartbeatContext) (call : HeartbeatCall) : Decidable (ctx.TooSoon call) :=
  inferInstanceAs (Decidable (_ ∧ _))

theorem recordHeartbeat_of_tooSoon (h : ctx.TooSoon call) :
    ctx.recordHeartbeat call = (ctx, .throttled) := by
  unfold recordHeartbeat
  split
  · rfl
  · rw [h.1, decide_eq_true h.2]
    rfl

/-- A call that is due attempts a report, and whatever becomes of it counts as one. -/
theorem recordHeartbeat_of_due (hb : ctx.hasHeartbeat = true) (h : ¬ ctx.TooSoon call) :
    ctx.recordHeartbeat call =
      match call.report with
      | .error e => ({ ctx with lastReport := call.now, reported := true }, .threw e)
      | .ok flag =>
        ({ ctx with lastReport := call.now, reported := true, cancelRequested := flag },
          .reported flag) := by
  have hdue : ¬ (ctx.reported &&
      decide (call.now - ctx.lastReport < ctx.throttleInterval)) = true := by
    intro hsoon
    obtain ⟨hrep, hlt⟩ := Bool.and_eq_true_iff.mp hsoon
    exact h ⟨hrep, of_decide_eq_true hlt⟩
  rw [recordHeartbeat, hb, Bool.not_true, if_neg Bool.false_ne_true, if_neg hdue]

/-- What a call can do. -/
theorem recordHeartbeat_cases (ctx : HeartbeatContext) (call : HeartbeatCall) :
    ctx.recordHeartbeat call = (ctx, .throttled) ∧
      (ctx.hasHeartbeat = false ∨ ctx.TooSoon call) ∨
    ctx.hasHeartbeat = true ∧ ¬ ctx.TooSoon call ∧
      ctx.recordHeartbeat call =
        match call.report with
        | .error e => ({ ctx with lastReport := call.now, reported := true }, .threw e)
        | .ok flag =>
          ({ ctx with lastReport := call.now, reported := true, cancelRequested := flag },
            .reported flag) := by
  rcases Bool.eq_false_or_eq_true ctx.hasHeartbeat with hb | hb
  · by_cases hsoon : ctx.TooSoon call
    · exact .inl ⟨recordHeartbeat_of_tooSoon hsoon, .inr hsoon⟩
    · exact .inr ⟨hb, hsoon, recordHeartbeat_of_due hb hsoon⟩
  · refine .inl ⟨?_, .inl hb⟩
    rw [recordHeartbeat, hb, Bool.not_false, if_pos rfl]

end HeartbeatContext

section Intervals

theorem wrap64_of_range {n : Int} (hlo : -2 ^ 63 ≤ n) (hhi : n < 2 ^ 63) : wrap64 n = n := by
  have hcast : ((2 ^ 64 : Nat) : Int) = 18446744073709551616 := rfl
  refine Int.bmod_eq_of_le_mul_two ?_ ?_ <;> rw [hcast] <;> omega

theorem wrap64_add_wrap64 (m n : Int) : wrap64 (wrap64 m + n) = wrap64 (m + n) :=
  Int.bmod_add_bmod

theorem wrap64_mul_wrap64 (m n : Int) : wrap64 (wrap64 m * n) = wrap64 (m * n) :=
  Int.bmod_mul_bmod

/-- A duration in nanoseconds. -/
def Duration.total (d : Duration) : Int := d.seconds * 1000000000 + d.nanos

theorem heartbeatThrottleInterval_eq (d : Duration) :
    heartbeatThrottleInterval (some d) =
      if wrap64 d.total ≤ 0 then kDefaultInterval else (wrap64 (d.total * 8)).tdiv 10 := by
  rw [heartbeatThrottleInterval, wrap64_add_wrap64, wrap64_mul_wrap64]
  rfl

/-- Four fifths of a timeout that is set, rounded down, as long as nothing overflows. -/
theorem heartbeatThrottleInterval_of_pos {d : Duration} (hpos : 0 < d.total)
    (hhi : d.total * 8 < 2 ^ 63) : heartbeatThrottleInterval (some d) = d.total * 8 / 10 := by
  rw [heartbeatThrottleInterval_eq, wrap64_of_range (by omega) (by omega),
    wrap64_of_range (by omega) (by omega), if_neg (by omega), Int.tdiv_eq_ediv_of_nonneg (by omega)]

theorem heartbeatThrottleInterval_of_nonpos {d : Duration} (hlo : -2 ^ 63 ≤ d.total)
    (hnonpos : d.total ≤ 0) : heartbeatThrottleInterval (some d) = kDefaultInterval := by
  rw [heartbeatThrottleInterval_eq, wrap64_of_range hlo (by omega), if_pos hnonpos]

end Intervals

namespace HeartbeatContext

variable {ctx : HeartbeatContext} {call : HeartbeatCall} {calls : List HeartbeatCall}

/-- Every call that attempts a report would get an answer. -/
def AllAnswered (calls : List HeartbeatCall) : Prop :=
  ∀ call ∈ calls, ∃ flag, call.report = .ok flag

/-- After a report that got its answer. -/
def answered (ctx : HeartbeatContext) (now : Int) (flag : Bool) : HeartbeatContext :=
  { ctx with lastReport := now, reported := true, cancelRequested := flag }

theorem recordHeartbeat_of_answered (hb : ctx.hasHeartbeat = true) (h : ¬ ctx.TooSoon call)
    {flag : Bool} (hr : call.report = .ok flag) :
    ctx.recordHeartbeat call = (ctx.answered call.now flag, .reported flag) := by
  rw [recordHeartbeat_of_due hb h, hr]
  rfl

theorem reports_of_tooSoon (h : ctx.TooSoon call) :
    ctx.reports (call :: calls) = ctx.reports calls := by
  rw [reports, recordHeartbeat_of_tooSoon h]

theorem reports_of_answered (hb : ctx.hasHeartbeat = true) (h : ¬ ctx.TooSoon call) {flag : Bool}
    (hr : call.report = .ok flag) :
    ctx.reports (call :: calls) =
      (call.now, flag) :: (ctx.answered call.now flag).reports calls := by
  rw [reports, recordHeartbeat_of_answered hb h hr]

/-- Reports keep the interval, from the last one on. -/
theorem reports_apart (hb : ctx.hasHeartbeat = true) (hrep : ctx.reported = true)
    (hok : AllAnswered calls) :
    (ctx.lastReport :: (ctx.reports calls).map Prod.fst).IsChain
      fun s t => s + ctx.throttleInterval ≤ t := by
  induction calls generalizing ctx with
  | nil => exact .singleton _
  | cons call calls ih =>
    obtain ⟨⟨flag, hflag⟩, hok⟩ := List.forall_mem_cons.mp hok
    by_cases hsoon : ctx.TooSoon call
    · rw [reports_of_tooSoon hsoon]
      exact ih hb hrep hok
    · rw [reports_of_answered hb hsoon hflag, List.map_cons]
      have hanswered : (ctx.answered call.now flag).hasHeartbeat = true := hb
      refine .cons_cons ?_ (ih hanswered rfl hok)
      have hdue := mt (And.intro hrep) hsoon
      dsimp only
      omega

/-- While calls come every fifth of the timeout, so do reports within it: `p` is the time of the
call before, which was a report or came too soon for one. -/
theorem reports_close {T p : Int} (hb : ctx.hasHeartbeat = true) (hrep : ctx.reported = true)
    (hok : AllAnswered calls) (hpos : 0 < T → ctx.throttleInterval = T * 8 / 10)
    (hzero : T = 0 → 0 < ctx.throttleInterval)
    (hp : p = ctx.lastReport ∨ p - ctx.lastReport < ctx.throttleInterval)
    (htimes : (p :: calls.map HeartbeatCall.now).IsChain (· ≤ ·))
    (hgap : (p :: calls.map HeartbeatCall.now).IsChain fun s t => 5 * (t - s) ≤ T) :
    (ctx.lastReport :: (ctx.reports calls).map Prod.fst).IsChain fun s t => t - s < T := by
  induction calls generalizing ctx p with
  | nil => exact .singleton _
  | cons call calls ih =>
    obtain ⟨⟨flag, hflag⟩, hok⟩ := List.forall_mem_cons.mp hok
    rw [List.map_cons, List.isChain_cons_cons] at htimes hgap
    by_cases hsoon : ctx.TooSoon call
    · rw [reports_of_tooSoon hsoon]
      exact ih hb hrep hok hpos hzero (.inr hsoon.2) htimes.2 hgap.2
    · rw [reports_of_answered hb hsoon hflag, List.map_cons]
      have hanswered : (ctx.answered call.now flag).hasHeartbeat = true := hb
      refine .cons_cons ?_ (ih hanswered rfl hok hpos hzero (.inl rfl) htimes.2 hgap.2)
      have hdue := mt (And.intro hrep) hsoon
      have hle := htimes.1
      have hnear := hgap.1
      dsimp only
      omega

/-- The flag is the answer to the last report. -/
theorem cancelRequested_after (ctx : HeartbeatContext) (calls : List HeartbeatCall) :
    (ctx.after calls).cancelRequested =
      ((ctx.reports calls).getLast?.map Prod.snd).getD ctx.cancelRequested := by
  induction calls generalizing ctx with
  | nil => rfl
  | cons call calls ih =>
    have hstep : ctx.after (call :: calls) = (ctx.recordHeartbeat call).1.after calls := rfl
    rw [hstep, ih, reports]
    rcases ctx.recordHeartbeat_cases call with ⟨h, -⟩ | ⟨-, -, h⟩
    · rw [h]
    · rw [h]
      cases call.report with
      | error e => rfl
      | ok flag =>
        rw [List.getLast?_cons, Option.map_some, Option.getD_some]
        cases (reports _ calls).getLast? <;> rfl

/-- The context of a task with this heartbeat timeout, before its first heartbeat. -/
def ofTimeout (d : Duration) : HeartbeatContext :=
  { throttleInterval := heartbeatThrottleInterval (some d) }

/-- Throttling keeps the activity alive: the first call reports, reports keep the interval, an
activity that heartbeats every fifth of its timeout is never late, and the cancel flag is the
answer to the last report, after every call. -/
theorem throttling_keeps_alive (d : Duration) (hT : d.total * 8 < 2 ^ 63)
    (calls : List HeartbeatCall) (hok : AllAnswered calls)
    (htimes : (calls.map HeartbeatCall.now).IsChain (· ≤ ·)) :
    (((ofTimeout d).reports calls).head?.map Prod.fst = calls.head?.map HeartbeatCall.now) ∧
      (((ofTimeout d).reports calls).map Prod.fst).IsChain
        (fun s t => s + heartbeatThrottleInterval (some d) ≤ t) ∧
      ((calls.map HeartbeatCall.now).IsChain (fun s t => 5 * (t - s) ≤ d.total) →
        (((ofTimeout d).reports calls).map Prod.fst).IsChain fun s t => t - s < d.total) ∧
      ∀ n, ((ofTimeout d).after (calls.take n)).isCancelled =
        ((((ofTimeout d).reports (calls.take n)).getLast?.map Prod.snd).getD false) := by
  have hflags := fun n => cancelRequested_after (ofTimeout d) (calls.take n)
  cases calls with
  | nil => exact ⟨rfl, .nil, fun _ => .nil, hflags⟩
  | cons call calls =>
    obtain ⟨⟨flag, hflag⟩, hok⟩ := List.forall_mem_cons.mp hok
    -- no report was made before the first call, so that one is due
    have hfirst : ¬ (ofTimeout d).TooSoon call := fun hsoon => Bool.false_ne_true hsoon.1
    rw [reports_of_answered rfl hfirst hflag]
    have hanswered : ((ofTimeout d).answered call.now flag).hasHeartbeat = true := rfl
    refine ⟨rfl, ?_, fun hgap => ?_, hflags⟩
    · exact reports_apart hanswered rfl hok
    · refine reports_close hanswered rfl hok (fun hpos => heartbeatThrottleInterval_of_pos hpos hT)
        (fun hzero => ?_) (.inl rfl) htimes hgap
      change 0 < heartbeatThrottleInterval (some d)
      rw [heartbeatThrottleInterval_of_nonpos (by omega) (by omega)]
      decide

/-- Ten seconds of timeout, and a heartbeat every two. -/
theorem throttling_keeps_alive_every_two_seconds :
    let d : Duration := ⟨10, 0⟩
    let calls := [0, 2, 4, 6, 8, 10].map fun s : Int =>
      ({ now := s * 1000000000, heartbeat := fun _ => .ok (decide (8 ≤ s)) } : HeartbeatCall)
    ((ofTimeout d).reports calls = [(0, false), (8000000000, true)]) ∧
      (((ofTimeout d).reports calls).map Prod.fst).IsChain fun s t => t - s < d.total :=
  ⟨by decide, (throttling_keeps_alive ⟨10, 0⟩ (by decide) _
    (by simp [AllAnswered, HeartbeatCall.report]) (by decide)).2.2.1 (by decide)⟩

section Failures

theorem reports_append (ctx : HeartbeatContext) (calls calls' : List HeartbeatCall) :
    ctx.reports (calls ++ calls') = ctx.reports calls ++ (ctx.after calls).reports calls' := by
  induction calls generalizing ctx with
  | nil => rfl
  | cons call calls ih =>
    have hstep : ctx.after (call :: calls) = (ctx.recordHeartbeat call).1.after calls := rfl
    rw [List.cons_append, reports, reports, hstep]
    dsimp only
    split <;> rw [ih]
    rfl

theorem after_append (ctx : HeartbeatContext) (calls calls' : List HeartbeatCall) :
    ctx.after (calls ++ calls') = (ctx.after calls).after calls' :=
  List.foldl_append

/-- The context before its first heartbeat. -/
def fresh (interval : Int) : HeartbeatContext := { throttleInterval := interval }

/-- A call that throws leaves no trace, and one is skipped only soon after a report that got its
answer: in particular every call attempts a report while none has. -/
def FailuresNotCounted (interval : Int) (calls : List HeartbeatCall) : Prop :=
  ∀ pre call post, calls = pre ++ call :: post →
    let ctx := (fresh interval).after pre
    (∀ e, (ctx.recordHeartbeat call).2 = .threw e → (ctx.recordHeartbeat call).1 = ctx) ∧
      ((ctx.recordHeartbeat call).2 = .throttled →
        ∃ report ∈ ((fresh interval).reports pre).getLast?, call.now - report.1 < interval)

/-- A call that would throw is skipped, or finds the state that it sets. -/
def Unmarked (ctx : HeartbeatContext) (call : HeartbeatCall) : Prop :=
  ctx.reported = true ∧
    (call.now - ctx.lastReport < ctx.throttleInterval ∨ ctx.lastReport = call.now)

/-- The throttle state is that of the last report that got its answer. -/
def Faithful (ctx : HeartbeatContext) (reports : List (Int × Bool)) : Prop :=
  ctx.reported = true → ∃ report ∈ reports.getLast?, report.1 = ctx.lastReport

theorem recordHeartbeat_hasHeartbeat (ctx : HeartbeatContext) (call : HeartbeatCall) :
    (ctx.recordHeartbeat call).1.hasHeartbeat = ctx.hasHeartbeat ∧
      (ctx.recordHeartbeat call).1.throttleInterval = ctx.throttleInterval := by
  rcases ctx.recordHeartbeat_cases call with ⟨h, -⟩ | ⟨-, -, h⟩
  · rw [h]
    exact ⟨rfl, rfl⟩
  · rw [h]
    cases call.report <;> exact ⟨rfl, rfl⟩

theorem after_hasHeartbeat (ctx : HeartbeatContext) (calls : List HeartbeatCall) :
    (ctx.after calls).hasHeartbeat = ctx.hasHeartbeat ∧
      (ctx.after calls).throttleInterval = ctx.throttleInterval := by
  induction calls generalizing ctx with
  | nil => exact ⟨rfl, rfl⟩
  | cons call calls ih =>
    obtain ⟨hb, hint⟩ := recordHeartbeat_hasHeartbeat ctx call
    exact hb ▸ hint ▸ ih (ctx.recordHeartbeat call).1

theorem recordHeartbeat_of_failed (hb : ctx.hasHeartbeat = true) {e : Thrown}
    (he : call.report = .error e) :
    (∀ e, (ctx.recordHeartbeat call).2 = .threw e → (ctx.recordHeartbeat call).1 = ctx) ↔
      ctx.Unmarked call := by
  by_cases hsoon : ctx.TooSoon call
  · rw [recordHeartbeat_of_tooSoon hsoon]
    exact ⟨fun _ => ⟨hsoon.1, .inl hsoon.2⟩, fun _ _ h => by cases h⟩
  · rw [recordHeartbeat_of_due hb hsoon, he]
    constructor
    · intro hsame
      have hctx := hsame e rfl
      have hrep : ctx.reported = true := by rw [← hctx]
      have hlast : ctx.lastReport = call.now := by rw [← hctx]
      exact ⟨hrep, .inr hlast⟩
    · rintro ⟨hrep, hlt | hlast⟩ _ -
      · exact absurd ⟨hrep, hlt⟩ hsoon
      · rw [← hlast, ← hrep]

theorem recordHeartbeat_faithful (hb : ctx.hasHeartbeat = true) {reports : List (Int × Bool)}
    (hf : ctx.Faithful reports) (hcall : ∀ e, call.report = .error e → ctx.Unmarked call) :
    (ctx.recordHeartbeat call).1.Faithful (reports ++ ctx.reports [call]) := by
  by_cases hsoon : ctx.TooSoon call
  · rw [reports_of_tooSoon hsoon, recordHeartbeat_of_tooSoon hsoon, HeartbeatContext.reports,
      List.append_nil]
    exact hf
  · cases hreport : call.report with
    | error e =>
      have hkept := (recordHeartbeat_of_failed hb hreport).mpr (hcall e hreport) e
      have hnone : ctx.reports [call] = [] := by
        unfold HeartbeatContext.reports
        rw [recordHeartbeat_of_due hb hsoon, hreport]
        rfl
      rw [recordHeartbeat_of_due hb hsoon, hreport] at hkept ⊢
      rw [hkept rfl, hnone, List.append_nil]
      exact hf
    | ok flag =>
      rw [reports_of_answered hb hsoon hreport, recordHeartbeat_of_answered hb hsoon hreport]
      intro _
      exact ⟨(call.now, flag), by rw [HeartbeatContext.reports, List.getLast?_concat]; rfl, rfl⟩

theorem after_faithful (interval : Int) (calls : List HeartbeatCall)
    (hcalls : ∀ pre call post, calls = pre ++ call :: post → ∀ e, call.report = .error e →
      ((fresh interval).after pre).Unmarked call) :
    ((fresh interval).after calls).Faithful ((fresh interval).reports calls) := by
  induction calls using List.reverseRecOn with
  | nil => exact fun h => absurd h Bool.false_ne_true
  | append_singleton calls call ih =>
    have hbefore := ih fun pre c post hsplit e he =>
      hcalls pre c (post ++ [call]) (by rw [hsplit, List.append_assoc, List.cons_append]) e he
    rw [after_append, reports_append]
    exact recordHeartbeat_faithful (after_hasHeartbeat _ _).1 hbefore (hcalls calls call [] rfl)

/-- The state is set before the report is made, so a report that throws is counted as one. Failures
go uncounted exactly in the runs whose failing calls are skipped, or find the state they set. -/
theorem failuresNotCounted_iff (interval : Int) (calls : List HeartbeatCall) :
    FailuresNotCounted interval calls ↔
      ∀ pre call post, calls = pre ++ call :: post → ∀ e, call.report = .error e →
        ((fresh interval).after pre).Unmarked call := by
  constructor
  · intro h pre call post hsplit e he
    exact (recordHeartbeat_of_failed (after_hasHeartbeat _ pre).1 he).mp (h pre call post hsplit).1
  · intro h pre call post hsplit
    have hb := (after_hasHeartbeat (fresh interval) pre).1
    have hint := (after_hasHeartbeat (fresh interval) pre).2
    constructor
    · intro e hthrew
      cases hreport : call.report with
      | error e' =>
        have hflag := h pre call post hsplit e' hreport
        exact (recordHeartbeat_of_failed hb hreport).mpr hflag e hthrew
      | ok flag =>
        by_cases hsoon : ((fresh interval).after pre).TooSoon call
        · rw [recordHeartbeat_of_tooSoon hsoon] at hthrew
          cases hthrew
        · rw [recordHeartbeat_of_answered hb hsoon hreport] at hthrew
          cases hthrew
    · intro hskip
      have hsoon : ((fresh interval).after pre).TooSoon call := by
        by_contra hdue
        rw [recordHeartbeat_of_due hb hdue] at hskip
        cases hreport : call.report <;> rw [hreport] at hskip <;> cases hskip
      have hfaithful := after_faithful interval pre fun pre' c post' hsplit' =>
        h pre' c (post' ++ call :: post) (by rw [hsplit, hsplit', List.append_assoc,
          List.cons_append])
      obtain ⟨report, hlast, htime⟩ := hfaithful hsoon.1
      refine ⟨report, hlast, ?_⟩
      rw [htime]
      exact hsoon.2.trans_eq hint

/-- A heartbeat lost to an unavailable server at second 0 silences the next one, a second later:
none has got through, and none does before second 8. -/
theorem failed_heartbeat_counted :
    let lost : HeartbeatCall :=
      { now := 0, heartbeat := fun _ => .error (.stdException "unavailable") }
    let retry : HeartbeatCall := { now := 1000000000, heartbeat := fun _ => .ok false }
    let ctx := (ofTimeout ⟨10, 0⟩).after [lost]
    (ofTimeout ⟨10, 0⟩).reports [lost, retry] = [] ∧
      (ctx.recordHeartbeat retry).2 = .throttled ∧
      ¬ FailuresNotCounted (heartbeatThrottleInterval (some ⟨10, 0⟩)) [lost, retry] := by
  refine ⟨by decide, by decide, fun h => ?_⟩
  obtain ⟨report, hreport, -⟩ := (h [_] _ [] rfl).2 (by decide)
  exact absurd hreport (Option.not_mem_none report)

end Failures

end HeartbeatContext
end TemporalSdk
