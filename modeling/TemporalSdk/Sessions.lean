import TemporalSdk.ActivityHandler
import TemporalSdk.Lib.CasLoop

/-! `WorkerImpl::RegisterSessionActivities`: the two session activities, run any number at a time
against `active_sessions_`. -/
namespace TemporalSdk
open CasLoop

inductive SessionActivity where
  | creation
  | completion
  deriving DecidableEq, Repr

/-- What the session activities of a worker use; `toPayloads` is `converter_->ToPayloads` of a
string. -/
structure SessionWorker where
  maxConcurrentSessions : ℤ
  sessionQueue : String
  toPayloads : String → Except Thrown Payloads

namespace SessionWorker

variable {T : Type} [DecidableEq T] (w : SessionWorker)

/-- What an activity does to `active_sessions_`, an unbounded integer here. A creation without a cap
makes no test. -/
def op : SessionActivity → Rmw ℤ
  | .creation =>
    if 0 < w.maxConcurrentSessions then
      .loop fun cur => if w.maxConcurrentSessions ≤ cur then none else some (cur + 1)
    else .fetch fun cur => cur + 1
  | .completion => .loop fun cur => if 0 < cur then some (cur - 1) else none

def capacityReached : Thrown :=
  .applicationError "worker session capacity reached" "SessionCapacityError" false

/-- What a call has returned or thrown. -/
def result : SessionActivity → Place ℤ → Option (Except Thrown Payloads)
  | .creation, .done _ none => some (.error capacityReached)
  | .creation, .done _ (some _) => some (w.toPayloads w.sessionQueue)
  | .completion, .done _ _ => some (.ok [])
  | _, _ => none

/-- The calls of a run, each of its activity. -/
def ops (activity : T → SessionActivity) (t : T) : Rmw ℤ := w.op (activity t)

/-- A run from the start of the worker, every call still to come. -/
def run (activity : T → SessionActivity) (moves : List (Move T)) : Option (Atomic T ℤ) :=
  CasLoop.run (w.ops activity) (fresh T 0) moves

/-- What the moves of `t` did to `active_sessions_`. -/
def changes (activity : T → SessionActivity) (t : T) (moves : List (Move T)) : List (ℤ × ℤ) :=
  CasLoop.changes (w.ops activity) (fresh T 0) t moves

variable {w} {activity : T → SessionActivity} {moves : List (Move T)} {c : Atomic T ℤ} {t : T}

theorem creation_update (hcap : 0 < w.maxConcurrentSessions) (cur : ℤ) :
    (w.op .creation).update cur =
      if w.maxConcurrentSessions ≤ cur then none else some (cur + 1) := by
  simp [op, hcap, Rmw.update]

theorem completion_update (cur : ℤ) :
    (w.op .completion).update cur = if 0 < cur then some (cur - 1) else none := rfl

/-- The counter between none and all sessions. -/
def Bounded (w : SessionWorker) (v : ℤ) : Prop := 0 ≤ v ∧ v ≤ w.maxConcurrentSessions

theorem bounded_zero (hcap : 0 < w.maxConcurrentSessions) : w.Bounded 0 := by
  constructor <;> omega

omit [DecidableEq T] in
theorem keeps_bounded (hcap : 0 < w.maxConcurrentSessions) :
    Keeps (w.ops activity) w.Bounded := by
  intro t v new hv hu
  unfold ops at hu
  obtain ⟨hlow, hhigh⟩ := hv
  cases ha : activity t with
  | creation =>
    rw [ha, creation_update hcap] at hu
    split at hu
    · cases hu
    · obtain rfl := Option.some.inj hu
      constructor <;> omega
  | completion =>
    rw [ha, completion_update] at hu
    split at hu
    · obtain rfl := Option.some.inj hu
      constructor <;> omega
    · cases hu

omit [DecidableEq T] in
theorem strict (w : SessionWorker) (activity : T → SessionActivity) :
    Strict (w.ops activity) := by
  intro t v hu
  unfold ops at hu
  cases ha : activity t with
  | creation =>
    rw [ha, op] at hu
    split at hu
    · simp only [Rmw.update] at hu
      split at hu
      · cases hu
      · have := Option.some.inj hu
        omega
    · have hv : v + 1 = v := Option.some.inj hu
      omega
  | completion =>
    rw [ha, completion_update] at hu
    split at hu
    · have hv : v - 1 = v := Option.some.inj hu
      omega
    · cases hu

/-- `t` has made a move within its call that found `cur` in `active_sessions_` and left `left`. -/
def Moved (w : SessionWorker) (activity : T → SessionActivity) (moves : List (Move T)) (t : T)
    (cur left : ℤ) : Prop :=
  CasLoop.Moved (w.ops activity) (fresh T 0) moves t cur left

theorem sound (hcap : 0 < w.maxConcurrentSessions) (h : w.run activity moves = some c) :
    Sound (w.ops activity) w.Bounded c :=
  (sound_fresh (bounded_zero hcap)).run (keeps_bounded hcap) h

theorem changes_eq (hcap : 0 < w.maxConcurrentSessions) (h : w.run activity moves = some c)
    (t : T) : w.changes activity t moves = (c.place t).written := by
  have hsound : Sound (w.ops activity) w.Bounded (fresh T 0) := sound_fresh (bounded_zero hcap)
  exact (run_changes (keeps_bounded hcap) (w.strict activity) hsound h t).symm

theorem decided (h : w.run activity moves = some c) (t : T) :
    (c.place t).Decided (w.ops activity) (fresh T 0) moves t :=
  run_decided rfl h

/-- What is found in `active_sessions_` is within the bounds. -/
theorem Moved.bounded (hcap : 0 < w.maxConcurrentSessions) {cur left : ℤ}
    (h : w.Moved activity moves t cur left) : w.Bounded cur := by
  obtain ⟨before, m, after, s, s', -, hrun, -, -, -, rfl, -⟩ := h
  exact (sound hcap hrun).value

/-- A call that has ended holds what its activity says of the value it found. -/
theorem update_of_done (hcap : 0 < w.maxConcurrentSessions) (h : w.run activity moves = some c)
    {a : SessionActivity} (ha : activity t = a) {cur : ℤ} {new : Option ℤ}
    (hp : c.place t = .done cur new) : new = (w.op a).update cur := by
  have hfits := (sound hcap h).fits t
  rw [hp, ops, ha] at hfits
  exact hfits

/-- What a call that has ended found, it found in `active_sessions_` within its time. -/
theorem moved_of_done (h : w.run activity moves = some c) {cur : ℤ} {new : Option ℤ}
    (hp : c.place t = .done cur new) : w.Moved activity moves t cur (new.getD cur) := by
  have hdecided := decided h t
  rwa [hp] at hdecided

/-- A creation that has taken its slot. -/
theorem creation_written (hcap : 0 < w.maxConcurrentSessions) (h : w.run activity moves = some c)
    (ha : activity t = .creation) {cur new : ℤ} (hp : c.place t = .done cur (some new)) :
    w.changes activity t moves = [(cur, cur + 1)] := by
  have hnew := update_of_done hcap h ha hp
  rw [creation_update hcap] at hnew
  split at hnew
  · cases hnew
  · obtain rfl := Option.some.inj hnew
    rw [changes_eq hcap h, hp]
    rfl

/-- A creation that has given up read the counter at its cap. -/
theorem creation_gaveUp (hcap : 0 < w.maxConcurrentSessions) (h : w.run activity moves = some c)
    (ha : activity t = .creation) {cur : ℤ} (hp : c.place t = .done cur none) :
    w.changes activity t moves = [] ∧
      w.Moved activity moves t w.maxConcurrentSessions w.maxConcurrentSessions := by
  have hmoved : w.Moved activity moves t cur cur := moved_of_done h hp
  have hnone := update_of_done hcap h ha hp
  rw [creation_update hcap] at hnone
  split at hnone
  · next hfull =>
    have hcur : cur = w.maxConcurrentSessions := by
      have hle := (hmoved.bounded hcap).2
      omega
    rw [hcur] at hmoved
    refine ⟨?_, hmoved⟩
    rw [changes_eq hcap h, hp]
    rfl
  · cases hnone

/-- A completion that has ended was decided by a value it found. -/
theorem completion_done (hcap : 0 < w.maxConcurrentSessions) (h : w.run activity moves = some c)
    (ha : activity t = .completion) {cur : ℤ} {new : Option ℤ} (hp : c.place t = .done cur new) :
    w.Moved activity moves t cur (if 0 < cur then cur - 1 else cur) ∧
      w.changes activity t moves = if 0 < cur then [(cur, cur - 1)] else [] := by
  have hmoved := moved_of_done h hp
  have hnew := update_of_done hcap h ha hp
  rw [completion_update] at hnew
  rw [changes_eq hcap h, hp]
  split at hnew
  · next hpos =>
    subst hnew
    rw [if_pos hpos, if_pos hpos]
    exact ⟨hmoved, rfl⟩
  · next hzero =>
    subst hnew
    rw [if_neg hzero, if_neg hzero]
    exact ⟨hmoved, rfl⟩

/-- The write of a completion, whether or not the call has ended. -/
theorem completion_changes (hcap : 0 < w.maxConcurrentSessions) (h : w.run activity moves = some c)
    (ha : activity t = .completion) :
    w.changes activity t moves = [] ∨ ∃ cur, w.changes activity t moves = [(cur, cur - 1)] := by
  cases hp : c.place t with
  | done cur new =>
    rw [(completion_done hcap h ha hp).2]
    split
    · exact .inr ⟨cur, rfl⟩
    · exact .inl rfl
  | _ =>
    rw [changes_eq hcap h, hp]
    exact .inl rfl

section Results

variable {p : Place ℤ}

theorem done_of_returned {queue payloads : Payloads}
    (hencode : w.toPayloads w.sessionQueue = .ok queue)
    (h : w.result .creation p = some (.ok payloads)) :
    payloads = queue ∧ ∃ cur new, p = .done cur (some new) := by
  cases p with
  | done cur new =>
    cases new with
    | none => cases h
    | some v =>
      rw [result, hencode] at h
      cases h
      exact ⟨rfl, cur, v, rfl⟩
  | _ => cases h

theorem done_of_thrown {queue : Payloads} (hencode : w.toPayloads w.sessionQueue = .ok queue)
    {e : Thrown} (h : w.result .creation p = some (.error e)) :
    e = capacityReached ∧ ∃ cur, p = .done cur none := by
  cases p with
  | done cur new =>
    cases new with
    | none =>
      cases h
      exact ⟨rfl, cur, rfl⟩
    | some v =>
      rw [result, hencode] at h
      cases h
  | _ => cases h

theorem done_of_completed {r : Except Thrown Payloads} (h : w.result .completion p = some r) :
    ∃ cur new, p = .done cur new := by
  cases p with
  | done cur new => exact ⟨cur, new, rfl⟩
  | _ => cases h

end Results

/-- In every run of the session activities the counter stays between zero and the cap. A creation
that returns has added one to it, one that throws has left it alone and found it at the cap. A
completion takes one off at most, and does so if it was decided by a positive value. -/
theorem session_slots (hcap : 0 < w.maxConcurrentSessions) {queue : Payloads}
    (hencode : w.toPayloads w.sessionQueue = .ok queue) (h : w.run activity moves = some c) :
    (0 ≤ c.value ∧ c.value ≤ w.maxConcurrentSessions) ∧
    (∀ t, activity t = .creation →
      (∀ payloads, w.result .creation (c.place t) = some (.ok payloads) →
        payloads = queue ∧ ∃ cur, w.changes activity t moves = [(cur, cur + 1)]) ∧
      ∀ e, w.result .creation (c.place t) = some (.error e) →
        e = capacityReached ∧ w.changes activity t moves = [] ∧
          w.Moved activity moves t w.maxConcurrentSessions w.maxConcurrentSessions) ∧
    ∀ t, activity t = .completion →
      (w.changes activity t moves = [] ∨ ∃ cur, w.changes activity t moves = [(cur, cur - 1)]) ∧
      ∀ r, w.result .completion (c.place t) = some r →
        ∃ cur, w.Moved activity moves t cur (if 0 < cur then cur - 1 else cur) ∧
          w.changes activity t moves = if 0 < cur then [(cur, cur - 1)] else [] := by
  refine ⟨(sound hcap h).value, ?_, ?_⟩
  · intro t ha
    constructor
    · intro payloads hr
      obtain ⟨hqueue, cur, new, hp⟩ := done_of_returned hencode hr
      exact ⟨hqueue, cur, creation_written hcap h ha hp⟩
    · intro e hr
      obtain ⟨he, cur, hp⟩ := done_of_thrown hencode hr
      exact ⟨he, creation_gaveUp hcap h ha hp⟩
  · intro t ha
    constructor
    · exact completion_changes hcap h ha
    · intro r hr
      obtain ⟨cur, new, hp⟩ := done_of_completed hr
      exact ⟨cur, completion_done hcap h ha hp⟩

/-- A worker for one session. -/
def oneSession : SessionWorker := ⟨1, "host", fun _ => .ok []⟩

/-- Two creations and a completion. -/
def threeCalls : Fin 3 → SessionActivity := fun t => if t = 2 then .completion else .creation

/-- The first creation needs a second exchange, the next comes too late, and the completion makes
room again. -/
def threeCallsMoves : List (Move (Fin 3)) :=
  [⟨0, false⟩, ⟨0, false⟩, ⟨0, false⟩, ⟨0, true⟩, ⟨0, false⟩, ⟨0, false⟩,
    ⟨1, false⟩, ⟨1, false⟩, ⟨1, false⟩, ⟨2, false⟩, ⟨2, false⟩, ⟨2, false⟩, ⟨2, false⟩]

theorem one_session_at_a_time : ∃ c, oneSession.run threeCalls threeCallsMoves = some c ∧
    oneSession.result .creation (c.place 0) = some (.ok []) ∧
    oneSession.result .creation (c.place 1) = some (.error capacityReached) ∧
    oneSession.changes threeCalls 2 threeCallsMoves = [(1, 0)] ∧ 0 ≤ c.value ∧ c.value ≤ 1 := by
  refine ⟨_, rfl, rfl, rfl, rfl, ?_⟩
  exact (session_slots (by decide) rfl
    (show oneSession.run threeCalls threeCallsMoves = some _ from rfl)).1

end SessionWorker
end TemporalSdk
