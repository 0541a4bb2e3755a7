import TemporalSdk.Heartbeat
import TemporalSdk.ClientStart
import TemporalSdk.Runner

/-! Durations on their way to and from the wire, in 64-bit arithmetic: what the timeouts and retry
intervals of the options become, and what becomes of a heartbeat timeout. -/
namespace TemporalSdk

/-- `ToProtoDuration` as the machine computes it, with a 32-bit `nanos`. -/
def toProtoDuration64 (ns : Int) : Duration :=
  let secs := ns.tdiv 1000000000
  ⟨secs, (wrap64 (ns - wrap64 (secs * 1000000000))).bmod (2 ^ 32)⟩

/-- Seconds and nanoseconds of the same sign, fewer than a second of the latter. -/
structure Duration.WellFormed (d : Duration) : Prop where
  nanos_lt : d.nanos < 1000000000
  lt_nanos : -1000000000 < d.nanos
  nonneg : 0 ≤ d.total → 0 ≤ d.seconds ∧ 0 ≤ d.nanos
  nonpos : d.total ≤ 0 → d.seconds ≤ 0 ∧ d.nanos ≤ 0

theorem toProtoDuration_total (ns : Int) : (toProtoDuration ns).total = ns := by
  rw [Duration.total, toProtoDuration, Int.tdiv_mul_add_tmod]

theorem toProtoDuration_wellFormed (ns : Int) : (toProtoDuration ns).WellFormed where
  nanos_lt := Int.tmod_lt_of_pos ns (by decide)
  lt_nanos := Int.lt_tmod_of_pos ns (by decide)
  nonneg h := by
    rw [toProtoDuration_total] at h
    exact ⟨Int.tdiv_nonneg h (by decide), Int.tmod_nonneg _ h⟩
  nonpos h := by
    rw [toProtoDuration_total] at h
    have hsecond : (0 : Int) ≤ 1000000000 := by decide
    have hdiv := Int.tdiv_nonneg (Int.neg_nonneg_of_nonpos h) hsecond
    have hmod := Int.tmod_nonneg 1000000000 (Int.neg_nonneg_of_nonpos h)
    rw [Int.neg_tdiv] at hdiv
    rw [Int.neg_tmod] at hmod
    exact ⟨Int.nonpos_of_neg_nonneg hdiv, Int.nonpos_of_neg_nonneg hmod⟩

/-- Nothing overflows in it. -/
theorem toProtoDuration64_eq {ns : Int} (hlo : -2 ^ 63 ≤ ns) (hhi : ns < 2 ^ 63) :
    toProtoDuration64 ns = toProtoDuration ns := by
  obtain ⟨hlt, hgt, hnonneg, hnonpos⟩ := toProtoDuration_wellFormed ns
  have htotal : ns.tdiv 1000000000 * 1000000000 + ns.tmod 1000000000 = ns :=
    Int.tdiv_mul_add_tmod ns 1000000000
  rw [toProtoDuration_total] at hnonneg hnonpos
  dsimp only [toProtoDuration] at hlt hgt hnonneg hnonpos
  have hmul : wrap64 (ns.tdiv 1000000000 * 1000000000) = ns.tdiv 1000000000 * 1000000000 :=
    wrap64_of_range (by omega) (by omega)
  have hsub : ns - ns.tdiv 1000000000 * 1000000000 = ns.tmod 1000000000 := by omega
  have hcast : ((2 ^ 32 : Nat) : Int) = 4294967296 := rfl
  dsimp only [toProtoDuration64, toProtoDuration]
  rw [hmul, hsub, wrap64_of_range (by omega) (by omega), Int.bmod_eq_of_le_mul_two] <;>
    rw [hcast] <;> omega

section Milliseconds

/-- The wire carries these milliseconds, as a duration with a nonnegative fraction. -/
def Denotes (ms : Int) (d : Option Duration) : Prop :=
  ∃ p ∈ d, p.total = ms * 1000000 ∧ 0 ≤ p.nanos ∧ p.nanos < 1000000000

/-- A positive number of milliseconds is sent as it is up to some 292 years. -/
theorem positiveMillis_denotes_iff {ms : Int} (hpos : 0 < ms) :
    Denotes ms (positiveMillis ms) ↔ ms ≤ 9223372036854 := by
  have htotal : (toProtoMillis ms).total = wrap64 (ms * 1000000) := toProtoDuration_total _
  rw [positiveMillis, if_pos hpos]
  constructor
  · rintro ⟨p, hp, hms, -⟩
    have hwrap : wrap64 (ms * 1000000) = ms * 1000000 := by
      rw [← htotal, ← hms, Option.mem_some.mp hp]
    have hlt : wrap64 (ms * 1000000) < 2 ^ 63 := by
      have := Int.bmod_lt (x := ms * 1000000) (m := 2 ^ 64) (by decide)
      exact this
    omega
  · intro hms
    rw [wrap64_of_range (by omega) (by omega)] at htotal
    have hwf : (toProtoMillis ms).WellFormed := toProtoDuration_wellFormed _
    exact ⟨_, rfl, htotal, (hwf.nonneg (by omega)).2, hwf.nanos_lt⟩

def RetryPolicy.intervals (p : RetryPolicy) : List Int := [p.initialInterval, p.maximumInterval]

def ProtoRetryPolicy.durations (p : ProtoRetryPolicy) : List (Option Duration) :=
  [p.initialInterval, p.maximumInterval]

/-- The timeouts of an activity, and the intervals of its retry policy. -/
def ActivityOptions.intervals (o : ActivityOptions) : List Int :=
  [o.scheduleToCloseTimeout, o.scheduleToStartTimeout, o.startToCloseTimeout, o.heartbeatTimeout] ++
    o.retryPolicy.toList.flatMap RetryPolicy.intervals

def ScheduleActivityAttributes.durations (a : ScheduleActivityAttributes) :
    List (Option Duration) :=
  [a.scheduleToCloseTimeout, a.scheduleToStartTimeout, a.startToCloseTimeout, a.heartbeatTimeout] ++
    a.retryPolicy.toList.flatMap ProtoRetryPolicy.durations

def Command.activityDurations : Command → List (Option Duration)
  | .scheduleActivityTask a => a.durations
  | _ => []

def StartWorkflowOptions.intervals (o : StartWorkflowOptions) : List Int :=
  [o.executionTimeout, o.runTimeout, o.taskTimeout] ++
    o.retryPolicy.toList.flatMap RetryPolicy.intervals

def WorkflowStart.durations (s : WorkflowStart) : List (Option Duration) :=
  [s.workflowExecutionTimeout, s.workflowRunTimeout, s.workflowTaskTimeout] ++
    s.retryPolicy.toList.flatMap ProtoRetryPolicy.durations

theorem retryPolicy_durations (p : Option RetryPolicy) :
    (p.map toProtoRetryPolicy).toList.flatMap ProtoRetryPolicy.durations =
      (p.toList.flatMap RetryPolicy.intervals).map positiveMillis := by
  cases p <;> rfl

/-- Every positive interval of the options is denoted by its field of the message. -/
def CrossExactly (intervals : List Int) (durations : List (Option Duration)) : Prop :=
  List.Forall₂ (fun ms d => 0 < ms → Denotes ms d) intervals durations

theorem crossExactly_iff (intervals : List Int) :
    CrossExactly intervals (intervals.map positiveMillis) ↔
      ∀ ms ∈ intervals, ms ≤ 9223372036854 := by
  rw [CrossExactly, List.forall₂_map_right_iff, List.forall₂_same]
  apply forall₂_congr
  intro ms _
  constructor
  · intro h
    by_cases hpos : 0 < ms
    · exact (positiveMillis_denotes_iff hpos).mp (h hpos)
    · omega
  · intro h hpos
    exact (positiveMillis_denotes_iff hpos).mpr h

variable {σ υ : Type}

theorem activity_crossExactly_iff (r : Runner σ) (id type : String) (input : Payloads)
    (o : ActivityOptions) :
    CrossExactly o.intervals (r.scheduleActivityCommand id type input o).activityDurations ↔
      ∀ ms ∈ o.intervals, ms ≤ 9223372036854 := by
  rw [← crossExactly_iff, ActivityOptions.intervals, List.map_append, ← retryPolicy_durations]
  rfl

theorem start_crossExactly_iff (c : WorkflowClient υ) (workflowId requestId : String)
    (args : StartWorkflowInput) (header : Header) :
    CrossExactly args.options.intervals
        (c.startRequest workflowId requestId args header).durations ↔
      ∀ ms ∈ args.options.intervals, ms ≤ 9223372036854 := by
  rw [← crossExactly_iff, StartWorkflowOptions.intervals, List.map_append, ← retryPolicy_durations]
  rfl

end Milliseconds

section Throttle

/-- What an interval between heartbeats must be: positive, and four fifths of a positive timeout. -/
def ThrottleSound (d : Duration) : Prop :=
  0 < heartbeatThrottleInterval (some d) ∧
    (0 < d.total → heartbeatThrottleInterval (some d) = d.total * 8 / 10)

theorem exists_wrap64 (n : Int) :
    ∃ k, wrap64 n = n - k * 18446744073709551616 ∧ -2 ^ 63 ≤ wrap64 n ∧ wrap64 n < 2 ^ 63 := by
  have hlo : -2 ^ 63 ≤ n.bmod (2 ^ 64) := Int.le_bmod (m := 2 ^ 64) (by decide)
  have hhi : n.bmod (2 ^ 64) < 2 ^ 63 := Int.bmod_lt (m := 2 ^ 64) (by decide)
  refine ⟨n.bdiv (2 ^ 64), ?_, hlo, hhi⟩
  exact Int.bmod_eq_self_sub_bdiv_mul n (2 ^ 64)

theorem throttleSound_iff (d : Duration) :
    ThrottleSound d ↔
      (0 < d.total → 2 ≤ d.total ∧ d.total * 8 < 2 ^ 63) ∧
        (d.total < -2 ^ 63 → wrap64 d.total ≤ 0 ∨ 10 ≤ wrap64 (d.total * 8)) := by
  obtain ⟨k, hk, hklo, hkhi⟩ := exists_wrap64 d.total
  obtain ⟨l, hl, hllo, hlhi⟩ := exists_wrap64 (d.total * 8)
  unfold ThrottleSound
  rw [heartbeatThrottleInterval_eq]
  have hdefault : kDefaultInterval = 30000000000 := rfl
  by_cases hwrap : wrap64 d.total ≤ 0
  · rw [if_pos hwrap, hdefault]
    omega
  · rw [if_neg hwrap]
    by_cases hneg : 0 ≤ wrap64 (d.total * 8)
    · rw [Int.tdiv_eq_ediv_of_nonneg hneg]
      -- the quotient is that of the timeout only if nothing was wrapped off
      rcases Int.lt_trichotomy l 0 with hl0 | hl0 | hl0 <;> omega
    · have htdiv : (wrap64 (d.total * 8)).tdiv 10 ≤ 0 := by
        have := Int.tdiv_nonneg (a := -wrap64 (d.total * 8)) (b := 10) (by omega) (by decide)
        rw [Int.neg_tdiv] at this
        omega
      omega

end Throttle

/-- Durations cross the wire exactly: every positive count of milliseconds, alone and in the
messages that carry it, up to some 292 years and no further; every count of nanoseconds; and a
heartbeat timeout gives a sound interval unless it is a single nanosecond, from some 36 years on, or
is below the range of 64 bits and wraps to one of these. -/
theorem durations_cross_iff {σ υ : Type} :
    (∀ ms, 0 < ms → (Denotes ms (positiveMillis ms) ↔ ms ≤ 9223372036854)) ∧
      (∀ (r : Runner σ) id type input (o : ActivityOptions),
        CrossExactly o.intervals (r.scheduleActivityCommand id type input o).activityDurations ↔
          ∀ ms ∈ o.intervals, ms ≤ 9223372036854) ∧
      (∀ (c : WorkflowClient υ) workflowId requestId (args : StartWorkflowInput) header,
        CrossExactly args.options.intervals
            (c.startRequest workflowId requestId args header).durations ↔
          ∀ ms ∈ args.options.intervals, ms ≤ 9223372036854) ∧
      (∀ ns, -2 ^ 63 ≤ ns → ns < 2 ^ 63 →
        (toProtoDuration64 ns).total = ns ∧ (toProtoDuration64 ns).WellFormed) ∧
      ∀ d, ThrottleSound d ↔
        (0 < d.total → 2 ≤ d.total ∧ d.total * 8 < 2 ^ 63) ∧
          (d.total < -2 ^ 63 → wrap64 d.total ≤ 0 ∨ 10 ≤ wrap64 (d.total * 8)) := by
  refine ⟨fun ms => positiveMillis_denotes_iff, activity_crossExactly_iff, start_crossExactly_iff,
    ?_, throttleSound_iff⟩
  intro ns hlo hhi
  rw [toProtoDuration64_eq hlo hhi]
  exact ⟨toProtoDuration_total ns, toProtoDuration_wellFormed ns⟩

/-- A second, its longest negative, a minute's heartbeat timeout. -/
theorem durations_cross_of_bounds :
    Denotes 1000 (positiveMillis 1000) ∧
      (toProtoDuration64 (-9223372036854775808)).total = -9223372036854775808 ∧
      ThrottleSound ⟨60, 0⟩ :=
  have h := durations_cross_iff (σ := Unit) (υ := Unit)
  ⟨(h.1 1000 (by decide)).mpr (by decide),
    (h.2.2.2.1 (-9223372036854775808) (by decide) (by decide)).1,
    (h.2.2.2.2 ⟨60, 0⟩).mpr ⟨by decide, by decide⟩⟩

/-- The largest `std::chrono::milliseconds` is sent as minus one millisecond, a heartbeat timeout of
a nanosecond is throttled at no interval at all, and one of some sixty years at a negative one. -/
theorem durations_overflow :
    positiveMillis (2 ^ 63 - 1) = some ⟨0, -1000000⟩ ∧
      ¬ Denotes (2 ^ 63 - 1) (positiveMillis (2 ^ 63 - 1)) ∧
      heartbeatThrottleInterval (some ⟨0, 1⟩) = 0 ∧
      heartbeatThrottleInterval (some ⟨2000000000, 0⟩) < 0 ∧
      ¬ ThrottleSound ⟨2000000000, 0⟩ := by
  refine ⟨by decide, ?_, by decide, by decide, ?_⟩
  · rw [positiveMillis_denotes_iff (by decide)]
    decide
  · rintro ⟨hpos, -⟩
    exact absurd hpos (by decide)

end TemporalSdk
