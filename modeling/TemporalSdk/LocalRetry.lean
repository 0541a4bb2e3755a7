import TemporalSdk.Execution

/-! The inline retries of a local activity, against what its retry policy says. -/
namespace TemporalSdk

/-- The attempt settles the call whatever the policy says: a success, or a failure marked
non-retryable. -/
def ActivityResult.isFinal : ActivityResult → Bool
  | .returned _ => true
  | .applicationError _ _ nonRetryable => nonRetryable
  | .stdException _ => false

/-- What is recorded of an attempt: its result, or its failure type and message. -/
def ActivityResult.outcome : ActivityResult → Except (String × String) Payloads
  | .returned result => .ok result
  | .applicationError message type _ => .error (type, message)
  | .stdException what => .error ("", what)

/-- A failure whose type the policy lists as not worth a retry. -/
def RetryPolicy.lists (p : RetryPolicy) : ActivityResult → Bool
  | .applicationError _ type _ => p.nonRetryableErrorTypes.contains type
  | _ => false

/-- The policy lets the call end with attempt `k`; no bound on the attempts means no end. -/
def RetryPolicy.StopsAt (p : RetryPolicy) (call : Nat → ActivityResult) (k : Nat) : Prop :=
  (call k).isFinal = true ∨ p.lists (call k) = true ∨
    p.maximumAttempts ≠ 0 ∧ p.maximumAttempts ≤ k

/-- The attempt that is the last one under the policy. -/
structure RetryPolicy.LastAttempt (p : RetryPolicy) (call : Nat → ActivityResult) (k : Nat) :
    Prop where
  pos : 1 ≤ k
  stops : p.StopsAt call k
  first : ∀ j, 1 ≤ j → j < k → ¬ p.StopsAt call j

namespace Runner

variable {σ : Type}

/-- The numbers of the attempts the retry loop makes. -/
def attemptNumbers (call : Nat → ActivityResult) (maxAttempts : Nat) : Nat → Nat → List Nat
  | 0, _ => []
  | n + 1, attempt =>
    attempt :: match call attempt with
      | .returned _ => []
      | .applicationError _ _ nonRetryable =>
        if nonRetryable || attempt == maxAttempts then []
        else attemptNumbers call maxAttempts n (attempt + 1)
      | .stdException _ =>
        if attempt == maxAttempts then [] else attemptNumbers call maxAttempts n (attempt + 1)

section Loop

variable (call : Nat → ActivityResult) (bound : Nat)

/-- One round of the loop: the attempt settles the call, or the loop goes on. -/
theorem attempts_succ (n attempt : Nat) (fail : String × String) :
    if (call attempt).isFinal = true ∨ attempt = bound then
      attempts call bound (n + 1) attempt fail = (call attempt).outcome ∧
        attemptNumbers call bound (n + 1) attempt = [attempt]
    else
      (∃ fail', attempts call bound (n + 1) attempt fail =
        attempts call bound n (attempt + 1) fail') ∧
        attemptNumbers call bound (n + 1) attempt =
          attempt :: attemptNumbers call bound n (attempt + 1) := by
  cases hc : call attempt with
  | returned result =>
    simp [attempts, attemptNumbers, hc, ActivityResult.isFinal, ActivityResult.outcome]
  | applicationError message type nonRetryable =>
    cases nonRetryable with
    | true =>
      simp [attempts, attemptNumbers, hc, ActivityResult.isFinal, ActivityResult.outcome]
    | false =>
      by_cases hb : attempt = bound
      · subst hb
        simp [attempts, attemptNumbers, hc, ActivityResult.outcome]
      · simp only [attempts, attemptNumbers, hc, ActivityResult.isFinal, hb, Bool.false_eq_true,
          or_self, if_false, Bool.false_or, beq_iff_eq, and_true]
        exact ⟨_, rfl⟩
  | stdException what =>
    by_cases hb : attempt = bound
    · subst hb
      simp [attempts, attemptNumbers, hc, ActivityResult.outcome]
    · simp only [attempts, attemptNumbers, hc, ActivityResult.isFinal, hb, Bool.false_eq_true,
        or_self, if_false, beq_iff_eq, and_true]
      exact ⟨_, rfl⟩

variable {bound} in
/-- The loop ends with the first attempt that settles the call, or with the last allowed one. -/
theorem attempts_spec {n attempt : Nat} (h : n + attempt = bound) (fail : String × String) :
    ∃ c, attempt ≤ c ∧ c ≤ bound ∧ (∀ j, attempt ≤ j → j < c → (call j).isFinal = false) ∧
      ((call c).isFinal = true ∨ c = bound) ∧
      attempts call bound (n + 1) attempt fail = (call c).outcome ∧
      attemptNumbers call bound (n + 1) attempt = List.range' attempt (c + 1 - attempt) := by
  induction n generalizing attempt fail with
  | zero =>
    have hround := attempts_succ call bound 0 attempt fail
    have hb : attempt = bound := by omega
    rw [if_pos (.inr hb)] at hround
    refine ⟨attempt, le_rfl, hb.le, fun j hj hlt => by omega, .inr hb, hround.1, ?_⟩
    rw [hround.2, show attempt + 1 - attempt = 1 by omega]
    rfl
  | succ n ih =>
    have hround := attempts_succ call bound (n + 1) attempt fail
    by_cases hf : (call attempt).isFinal = true ∨ attempt = bound
    · rw [if_pos hf] at hround
      refine ⟨attempt, le_rfl, by omega, fun j hj hlt => by omega, hf, hround.1, ?_⟩
      rw [hround.2, show attempt + 1 - attempt = 1 by omega]
      rfl
    · rw [if_neg hf] at hround
      obtain ⟨⟨fail', hout⟩, hnum⟩ := hround
      obtain ⟨c, hle, hcb, hbefore, hlast, hres, hnums⟩ :=
        ih (show n + (attempt + 1) = bound by omega) fail'
      refine ⟨c, by omega, hcb, fun j hj hlt => ?_, hlast, hout.trans hres, ?_⟩
      · rcases Nat.eq_or_lt_of_le hj with rfl | hj
        · exact Bool.eq_false_iff.mpr fun hx => hf (.inl hx)
        · exact hbefore j hj hlt
      · rw [hnum, hnums, show c + 1 - attempt = (c + 1 - (attempt + 1)) + 1 by omega,
          List.range'_succ]

end Loop

/-- The activity behind a local call, by attempt number. -/
def localCall (r : Runner σ) (fn : ActivityFn) (type : String) (input : Payloads)
    (attempt : Nat) : ActivityResult :=
  fn r.localActivitySeq
    { activityType := type, workflowId := r.info.workflowId, runId := r.info.runId,
      taskQueue := r.info.taskQueue, headers := r.info.headers, attempt := attempt } input

/-- The attempts of a local call. -/
def localAttempts (r : Runner σ) (fn : ActivityFn) (type : String) (input : Payloads)
    (options : LocalActivityOptions) : List Nat :=
  attemptNumbers (r.localCall fn type input) (maxAttempts options) (maxAttempts options) 1

theorem maxAttempts_pos (options : LocalActivityOptions) : 1 ≤ maxAttempts options := by
  unfold maxAttempts
  split
  · split
    · next p _ hp => exact Int.lt_toNat.mpr hp
    · exact le_rfl
  · exact le_rfl

/-- A new call of a registered local activity: some attempt is its last, and the marker and the
answer are that attempt's. -/
theorem executeLocalActivity_spec (r : Runner σ) (type : String) (input : Payloads)
    (options : LocalActivityOptions) {resolve : String → Option ActivityFn} {fn : ActivityFn}
    (hres : r.world.localActivityResolver = some resolve) (hfn : resolve type = some fn)
    (hlive : r.scan.localActivities[r.localActivitySeq]? = none) :
    ∃ c, 1 ≤ c ∧ c ≤ maxAttempts options ∧
      (∀ j, 1 ≤ j → j < c → (r.localCall fn type input j).isFinal = false) ∧
      ((r.localCall fn type input c).isFinal = true ∨ c = maxAttempts options) ∧
      r.localAttempts fn type input options = List.range' 1 c ∧
      (r.executeLocalActivity type input options).1.commands =
        r.commands ++ [.recordMarker "LocalActivity" (localActivityDetails r.world.converter
          (r.localCall fn type input c).outcome)] ∧
      (r.executeLocalActivity type input options).2 =
        localActivityResp (r.localCall fn type input c).outcome := by
  have hpos := maxAttempts_pos options
  obtain ⟨n, hn⟩ : ∃ n, maxAttempts options = n + 1 := ⟨maxAttempts options - 1, by omega⟩
  obtain ⟨c, hc, hcb, hbefore, hlast, hout, hnum⟩ :=
    attempts_spec (r.localCall fn type input) (show n + 1 = n + 1 from rfl) ("", "")
  refine ⟨c, hc, hn ▸ hcb, hbefore, hn ▸ hlast, ?_, ?_⟩
  · rw [localAttempts, hn, hnum, Nat.add_sub_cancel]
  · have hrun : runLocalActivity r.info fn r.localActivitySeq type input options =
        (r.localCall fn type input c).outcome := by
      rw [runLocalActivity, hn]
      exact hout
    simp only [executeLocalActivity, hlive, hres, hfn, hrun, and_true]
    rfl

/-- The code ends a call where the policy does exactly when an unlimited policy needs one attempt
only, and a bounded one lists no failure that is then tried again. -/
theorem localActivity_follows_policy_iff (r : Runner σ) (type : String) (input : Payloads)
    (options : LocalActivityOptions) (p : RetryPolicy) (hp : options.retryPolicy = some p)
    {resolve : String → Option ActivityFn} {fn : ActivityFn}
    (hres : r.world.localActivityResolver = some resolve) (hfn : resolve type = some fn)
    (hlive : r.scan.localActivities[r.localActivitySeq]? = none) {k : Nat}
    (hk : p.LastAttempt (r.localCall fn type input) k) :
    (r.localAttempts fn type input options = List.range' 1 k ∧
      (r.executeLocalActivity type input options).1.commands =
        r.commands ++ [.recordMarker "LocalActivity" (localActivityDetails r.world.converter
          (r.localCall fn type input k).outcome)] ∧
      (r.executeLocalActivity type input options).2 =
        localActivityResp (r.localCall fn type input k).outcome) ↔
    if p.maximumAttempts = 0 then p.StopsAt (r.localCall fn type input) 1
    else ∀ i : Nat, 1 ≤ i → (i : Int) < p.maximumAttempts →
      p.lists (r.localCall fn type input i) = true →
        ∃ j, 1 ≤ j ∧ j ≤ i ∧ (r.localCall fn type input j).isFinal = true := by
  set call := r.localCall fn type input with hcall
  obtain ⟨c, hc, hcb, hbefore, hlast, hnum, hout⟩ :=
    r.executeLocalActivity_spec type input options hres hfn hlive
  -- the code's last attempt is `c`, the policy's is `k`
  have hsame : (r.localAttempts fn type input options = List.range' 1 k ∧
      (r.executeLocalActivity type input options).1.commands =
        r.commands ++ [.recordMarker "LocalActivity" (localActivityDetails r.world.converter
          (call k).outcome)] ∧
      (r.executeLocalActivity type input options).2 = localActivityResp (call k).outcome) ↔
      c = k := by
    constructor
    · rintro ⟨hn, -⟩
      have hlen := congrArg List.length (hnum.symm.trans hn)
      rwa [List.length_range', List.length_range'] at hlen
    · rintro rfl
      exact ⟨hnum, hout⟩
  rw [hsame]
  have hmax : 0 < p.maximumAttempts ∧ maxAttempts options = p.maximumAttempts.toNat ∨
      p.maximumAttempts ≤ 0 ∧ maxAttempts options = 1 := by
    rw [maxAttempts, hp]
    by_cases hpos : 0 < p.maximumAttempts
    · exact .inl ⟨hpos, if_pos hpos⟩
    · exact .inr ⟨by omega, if_neg hpos⟩
  have hpos := hk.pos
  by_cases h0 : p.maximumAttempts = 0
  · rw [if_pos h0]
    have hc1 : c = 1 := by omega
    subst hc1
    constructor
    · rintro rfl
      exact hk.stops
    · intro hstop
      by_contra hne
      exact hk.first 1 le_rfl (by omega) hstop
  · rw [if_neg h0]
    have hstop : p.StopsAt call c := by
      rcases hlast with hf | hb
      · exact .inl hf
      · exact .inr (.inr ⟨h0, by omega⟩)
    have hkc : k ≤ c := by
      by_contra hlt
      exact hk.first c hc (by omega) hstop
    constructor
    · rintro rfl i hi hlt hlisted
      by_contra hnone
      have hle : c ≤ i := by
        by_contra hci
        exact hk.first i hi (by omega) (.inr (.inl hlisted))
      rcases hlast with hf | hb
      · exact hnone ⟨c, hc, hle, hf⟩
      · omega
    · intro hlisted
      by_contra hne
      have hlt : k < c := by omega
      have hnot := hbefore k hpos hlt
      rcases hk.stops with hf | hl | ⟨-, hb⟩
      · rw [hf] at hnot
        cases hnot
      · obtain ⟨j, hj, hjk, hf⟩ := hlisted k hpos (by omega) hl
        rw [hbefore j hj (by omega)] at hf
        cases hf
      · omega

/-- An activity that is busy at its first attempt. -/
def busyOnce : ActivityFn := fun _ info _ =>
  if info.attempt = 1 then .applicationError "try later" "Busy" false else .returned []

def busyRunner : Runner Unit :=
  replay {} false { World.plain .tagged with localActivityResolver := some fun _ => some busyOnce }
    ⟨(), fun _ _ => .isCancelled⟩ []

theorem busyOnce_lastAttempt {p : RetryPolicy} (hmax : p.maximumAttempts ≠ 1)
    (hneg : 0 ≤ p.maximumAttempts) (hlist : p.nonRetryableErrorTypes.contains "Busy" = false) :
    p.LastAttempt (busyRunner.localCall busyOnce "Fetch" []) 2 where
  pos := by decide
  stops := .inl rfl
  first j hj hlt := by
    obtain rfl : j = 1 := by omega
    rintro (hf | hl | ⟨h0, hle⟩)
    · cases hf
    · have hbusy : p.lists (busyRunner.localCall busyOnce "Fetch" [] 1) =
        p.nonRetryableErrorTypes.contains "Busy" := rfl
      rw [hbusy, hlist] at hl
      cases hl
    · push_cast at hle
      omega

/-- Three attempts are allowed and the second succeeds. -/
theorem busyOnce_retried_once :
    busyRunner.localAttempts busyOnce "Fetch" [] { retryPolicy := some { maximumAttempts := 3 } } =
        [1, 2] ∧
      (busyRunner.executeLocalActivity "Fetch" []
        { retryPolicy := some { maximumAttempts := 3 } }).2 = .localResult [] := by
  have h := (busyRunner.localActivity_follows_policy_iff "Fetch" []
    { retryPolicy := some { maximumAttempts := 3 } } { maximumAttempts := 3 } rfl
    (show busyRunner.world.localActivityResolver = some fun _ => some busyOnce from rfl) rfl rfl
    (busyOnce_lastAttempt (by decide) (by decide) rfl)).mpr (by
      rw [if_neg (by decide)]
      intro i _ _ hl
      unfold RetryPolicy.lists at hl
      split at hl <;> cases hl)
  exact ⟨h.1, h.2.2⟩

/-- An unlimited policy is given one attempt, and a listed failure is tried again. -/
theorem policy_not_followed :
    ((({} : RetryPolicy).LastAttempt (busyRunner.localCall busyOnce "Fetch" []) 2 ∧
      busyRunner.localAttempts busyOnce "Fetch" [] { retryPolicy := some {} } = [1] ∧
      (busyRunner.executeLocalActivity "Fetch" [] { retryPolicy := some {} }).2 =
        .applicationError "try later" "Busy") ∧
    (({ maximumAttempts := 3, nonRetryableErrorTypes := ["Busy"] } : RetryPolicy).LastAttempt
      (busyRunner.localCall busyOnce "Fetch" []) 1 ∧
      busyRunner.localAttempts busyOnce "Fetch" []
        { retryPolicy := some { maximumAttempts := 3, nonRetryableErrorTypes := ["Busy"] } } =
          [1, 2])) := by
  refine ⟨⟨busyOnce_lastAttempt (by decide) (by decide) rfl, rfl, rfl⟩, ⟨le_rfl, ?_, ?_⟩, rfl⟩
  · exact .inr (.inl (by decide))
  · intro j hj hlt
    omega

end Runner
end TemporalSdk
