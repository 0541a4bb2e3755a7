import TemporalSdk.Gate

/-! The poll loops of `WorkerImpl` and `WorkerImpl::Stop` (`internal/worker_impl.cpp`), as far as
they decide what becomes of a task. The gates act as they do under their mutex, and a loop that
waits for a poll slot may miss the notification of `Stop`. -/
namespace TemporalSdk
open Monitor

/-- The tasks with a gate of their own. A session loop polls activities. -/
inductive TaskKind where
  | workflow
  | activity
  | session
  | nexus
  deriving DecidableEq, Repr

namespace TaskKind

/-- The gates in the order in which `Stop` goes through them. -/
def all : List TaskKind := [.workflow, .activity, .session, .nexus]

theorem mem_all (k : TaskKind) : k ∈ all := by cases k <;> decide

/-- `ActivityPollLoop` passes the rate limiter. -/
def isPaced : TaskKind → Bool
  | .activity | .session => true
  | .workflow | .nexus => false

end TaskKind

/-- A bounded gate that is not released lets pass while there is room. -/
theorem ConcurrencyGate.inFlight_lt {g : ConcurrencyGate} (h : g.mayPass = true)
    (hl : 0 < g.limit) (hr : g.released = false) : (g.inFlight : Int) < g.limit := by
  have hl' : ¬ g.limit ≤ 0 := by omega
  simpa [mayPass, hl', hr] using h

/-- What `Start` launches a loop for. -/
structure LoopRole where
  kind : TaskKind
  scalable : Bool := false
  deriving DecidableEq, Repr

/-- Where a loop is, with the task it has in hand. -/
inductive LoopPlace where
  /-- At the test of `stop_` that begins an iteration. -/
  | head
  /-- In `PollerScaler::Acquire`, about to test its predicate. -/
  | waiting
  /-- The predicate was false. -/
  | parking
  | asleep
  | polling
  /-- The poll has answered and the slot is given back; `stop_` is tested next. -/
  | polled (task : Option ℕ)
  /-- The success is counted; `draining_` is tested next. -/
  | counted (task : ℕ)
  /-- In `RateLimiter::Acquire`; `stop_` is tested next. -/
  | pacing (task : ℕ)
  /-- In `ConcurrencyGate::Acquire`. -/
  | acquiring (task : ℕ)
  | permitted (task : ℕ)
  | handling (task : ℕ)
  /-- `Handle` has returned, and the guard still lives. -/
  | reporting
  /-- At the test of `stop_` in the `catch` block. -/
  | caught
  | left
  deriving DecidableEq, Repr

namespace LoopPlace

/-- The task that is not yet done with. -/
def task? : LoopPlace → Option ℕ
  | .polled task => task
  | .counted n | .pacing n | .acquiring n | .permitted n | .handling n => some n
  | _ => none

/-- The loop has a live `GateGuard` that holds a permit. -/
def permit : LoopPlace → Bool
  | .permitted _ | .handling _ | .reporting => true
  | _ => false

/-- The metrics handler is called from here, inside the `try` block. -/
def reports : LoopPlace → Bool
  | .polled _ | .permitted _ | .reporting => true
  | _ => false

/-- The loop is in, or about to enter, the wait for a poll slot. -/
def parks : LoopPlace → Bool
  | .waiting | .parking | .asleep => true
  | _ => false

def awake : LoopPlace → LoopPlace
  | .asleep => .waiting
  | q => q

end LoopPlace

/-- What became of a task: `Handle` returned or threw, the loop dropped it on its way out, or an
exception came before `Handle`. -/
inductive TaskFate where
  | handled
  | failed
  | dropped
  | interrupted
  deriving DecidableEq, Repr

inductive GateUse where
  | keep
  | acquire
  | release
  deriving DecidableEq, Repr

def GateUse.on (g : ConcurrencyGate) : GateUse → ConcurrencyGate
  | .keep => g
  | .acquire => g.acquire.1
  | .release => g.release

/-- What a step of a loop does besides moving the loop. -/
structure Effect where
  delivers : Bool := false
  starts : Option ℕ := none
  ends : Option (ℕ × TaskFate) := none
  gate : GateUse := .keep
  deriving DecidableEq, Repr

/-- Where `Stop` is. The flags say whether every `Drain` so far has returned true. -/
inductive StopPlace where
  | idle
  /-- `draining_` is stored. -/
  | drainingStored
  /-- `stop_` is stored, and these gates are still to be released. -/
  | releasing (rest : List TaskKind)
  | draining (rest : List TaskKind) (drained : Bool)
  | joining (drained : Bool)
  | returned (drained : Bool)
  deriving DecidableEq, Repr

/-- The loops that `Start` has launched, whether there is a metrics handler, and whether
`graceful_shutdown_timeout` is positive. -/
structure LoopPool (T : Type) where
  role : T → LoopRole
  metrics : Bool := false
  graceful : Bool := false

/-- A worker. The tasks are numbered in the order in which the polls return them; `started` has the
`Handle` calls and `ended` what became of the tasks the loops are done with. -/
structure Worker (T : Type) where
  gate : TaskKind → ConcurrencyGate
  place : T → LoopPlace := fun _ => .head
  draining : Bool := false
  stop : Bool := false
  stopper : StopPlace := .idle
  delivered : ℕ := 0
  started : List (T × ℕ) := []
  ended : List (ℕ × TaskFate) := []

namespace Worker

variable {T : Type} [DecidableEq T]

def goto (c : Worker T) (t : T) (q : LoopPlace) : Worker T :=
  { c with place := Function.update c.place t q }

/-- The gate the loop takes its permits from. -/
def gateOf (p : LoopPool T) (c : Worker T) (t : T) : ConcurrencyGate := c.gate (p.role t).kind

/-- A loop goes to a place. -/
def apply (p : LoopPool T) (c : Worker T) (t : T) (q : LoopPlace) (e : Effect) : Worker T :=
  { c.goto t q with
    gate := Function.update c.gate (p.role t).kind (e.gate.on (c.gateOf p t))
    delivered := c.delivered + e.delivers.toNat
    started := c.started ++ e.starts.toList.map fun n => (t, n)
    ended := c.ended ++ e.ends.toList }

/-- One step of a loop: where it goes, and what else it does. -/
inductive Move (p : LoopPool T) (c : Worker T) (t : T) : LoopPlace → Effect → Prop
  | leave (hp : c.place t = .head) (hs : c.stop = true) : Move p c t .left {}
  | callAcquire (hp : c.place t = .head) (hs : c.stop = false)
    (ht : (p.role t).scalable = true) : Move p c t .waiting {}
  | poll (hp : c.place t = .head) (hs : c.stop = false) (ht : (p.role t).scalable = false) :
    Move p c t .polling {}
  /-- `PollerScaler::Acquire` tests its predicate, and returns false once `stop_` is set. -/
  | waitStopped (hp : c.place t = .waiting) (hs : c.stop = true) : Move p c t .left {}
  | waitPass (hp : c.place t = .waiting) (hs : c.stop = false) : Move p c t .polling {}
  | waitFail (hp : c.place t = .waiting) (hs : c.stop = false) : Move p c t .parking {}
  | sleep (hp : c.place t = .parking) : Move p c t .asleep {}
  | pollEmpty (hp : c.place t = .polling) : Move p c t (.polled none) {}
  | pollTask (hp : c.place t = .polling) :
    Move p c t (.polled (some c.delivered)) { delivers := true }
  | pollThrows (hp : c.place t = .polling) : Move p c t .caught {}
  | leavePolled (task : Option ℕ) (hp : c.place t = .polled task) (hs : c.stop = true) :
    Move p c t .left { ends := task.map fun n => (n, .dropped) }
  | countTimeout (hp : c.place t = .polled none) (hs : c.stop = false) : Move p c t .head {}
  | countSuccess (n : ℕ) (hp : c.place t = .polled (some n)) (hs : c.stop = false) :
    Move p c t (.counted n) {}
  | drop (n : ℕ) (hp : c.place t = .counted n) (hd : c.draining = true) :
    Move p c t .head { ends := some (n, .dropped) }
  | callPace (n : ℕ) (hp : c.place t = .counted n) (hd : c.draining = false)
    (hk : (p.role t).kind.isPaced = true) : Move p c t (.pacing n) {}
  | callGate (n : ℕ) (hp : c.place t = .counted n) (hd : c.draining = false)
    (hk : (p.role t).kind.isPaced = false) : Move p c t (.acquiring n) {}
  | leavePacing (n : ℕ) (hp : c.place t = .pacing n) (hs : c.stop = true) :
    Move p c t .left { ends := some (n, .dropped) }
  | paced (n : ℕ) (hp : c.place t = .pacing n) (hs : c.stop = false) :
    Move p c t (.acquiring n) {}
  | permit (n : ℕ) (hp : c.place t = .acquiring n) (hm : (c.gateOf p t).mayPass = true)
    (hg : (c.gateOf p t).acquire.2 = true) :
    Move p c t (.permitted n) { gate := .acquire }
  | refuse (n : ℕ) (hp : c.place t = .acquiring n) (hm : (c.gateOf p t).mayPass = true)
    (hg : (c.gateOf p t).acquire.2 = false) :
    Move p c t .left { ends := some (n, .dropped) }
  | handle (n : ℕ) (hp : c.place t = .permitted n) :
    Move p c t (.handling n) { starts := some n }
  | handleReturns (n : ℕ) (hp : c.place t = .handling n) :
    Move p c t .reporting { ends := some (n, .handled) }
  | handleThrows (n : ℕ) (hp : c.place t = .handling n) :
    Move p c t .caught { ends := some (n, .failed), gate := .release }
  | finish (hp : c.place t = .reporting) : Move p c t .head { gate := .release }
  /-- The metrics handler throws. Unwinding destroys the guard, if there is one. -/
  | metricsThrow (hm : p.metrics = true) (hp : (c.place t).reports = true) :
    Move p c t .caught
      { ends := (c.place t).task?.map fun n => (n, .interrupted)
        gate := if (c.place t).permit then .release else .keep }
  | leaveCaught (hp : c.place t = .caught) (hs : c.stop = true) : Move p c t .left {}
  | retry (hp : c.place t = .caught) (hs : c.stop = false) : Move p c t .head {}

/-- One step of `Stop`. -/
inductive Halt (p : LoopPool T) : Worker T → Worker T → Prop
  | storeDraining (c : Worker T) (hp : c.stopper = .idle) :
    Halt p c { c with draining := true, stopper := .drainingStored }
  | storeStop (c : Worker T) (hp : c.stopper = .drainingStored) :
    Halt p c { c with stop := true, stopper := .releasing TaskKind.all }
  | releaseAll (c : Worker T) (k : TaskKind) (rest : List TaskKind)
    (hp : c.stopper = .releasing (k :: rest)) :
    Halt p c { c with
      gate := Function.update c.gate k (c.gate k).releaseAll
      stopper := .releasing rest }
  /-- `Wake` reaches the loops that sleep. -/
  | wake (c : Worker T) (hp : c.stopper = .releasing []) :
    Halt p c { c with
      place := fun t => (c.place t).awake
      stopper := if p.graceful then .draining TaskKind.all true else .joining false }
  | drainPass (c : Worker T) (k : TaskKind) (rest : List TaskKind) (drained : Bool)
    (hp : c.stopper = .draining (k :: rest) drained) (h : (c.gate k).inFlight = 0) :
    Halt p c { c with stopper := .draining rest drained }
  | drainTimeout (c : Worker T) (k : TaskKind) (rest : List TaskKind) (drained : Bool)
    (hp : c.stopper = .draining (k :: rest) drained) (h : (c.gate k).inFlight ≠ 0) :
    Halt p c { c with stopper := .draining rest false }
  | drained (c : Worker T) (drained : Bool) (hp : c.stopper = .draining [] drained) :
    Halt p c { c with stopper := .joining drained }
  /-- A loop that has left stays out, so the joins one after another are one wait. -/
  | join (c : Worker T) (drained : Bool) (hp : c.stopper = .joining drained)
    (h : ∀ t, c.place t = .left) : Halt p c { c with stopper := .returned drained }

/-- One step of the worker. -/
inductive Step (p : LoopPool T) : Worker T → Worker T → Prop
  | move (c : Worker T) (t : T) (q : LoopPlace) (e : Effect) (h : c.Move p t q e) :
    Step p c (c.apply p t q e)
  /-- A notification that is not `Stop`'s, or a spurious wake-up. -/
  | notified (c : Worker T) (t : T) (hp : c.place t = .asleep) : Step p c (c.goto t .waiting)
  | halt (c d : Worker T) (h : Halt p c d) : Step p c d

/-- A worker that `Start` has just launched. -/
def init (limit : TaskKind → Int) : Worker T := { gate := fun k => { limit := limit k } }

def Steps (p : LoopPool T) : Worker T → Worker T → Prop := Relation.ReflTransGen (Step p)

def Reachable (p : LoopPool T) (limit : TaskKind → Int) (c : Worker T) : Prop :=
  Steps p (init limit) c

end Worker

namespace LoopPlace

/-- How often a task is in hand, and how often it is inside `Handle`. -/
def hand (n : ℕ) (q : LoopPlace) : ℕ := if q.task? = some n then 1 else 0

def runs (n : ℕ) (q : LoopPlace) : ℕ := if q = .handling n then 1 else 0

/-- How many more calls of `Handle` the loop may start once `stop_` is set. -/
def pending : LoopPlace → ℕ
  | .acquiring _ | .permitted _ => 1
  | _ => 0

/-- How many more it may start once its bounded gate has been released. -/
def granted : LoopPlace → ℕ
  | .permitted _ => 1
  | _ => 0

/-- The task has passed the test of `draining_`. -/
def admitted? : LoopPlace → Option ℕ
  | .pacing n | .acquiring n | .permitted n | .handling n => some n
  | _ => none

/-- A bound on the steps the loop still takes once `stop_` is set. -/
def fuel : LoopPlace → ℕ
  | .left => 0
  | .head | .caught | .waiting | .pacing _ => 1
  | .asleep | .polled _ | .counted _ | .reporting => 2
  | .parking | .polling | .handling _ => 3
  | .permitted _ => 4
  | .acquiring _ => 5

theorem hand_ne_zero {n : ℕ} {q : LoopPlace} : q.hand n ≠ 0 ↔ q.task? = some n := by
  simp [hand]

/-- What is inside `Handle` is in hand. -/
theorem runs_le_hand (n : ℕ) (q : LoopPlace) : q.runs n ≤ q.hand n := by
  unfold runs
  split
  · next hq => simp [hq, hand, task?]
  · exact Nat.zero_le _

theorem fuel_le (q : LoopPlace) : q.fuel ≤ 5 := by cases q <;> simp [fuel]

theorem admitted?_le_task? {q : LoopPlace} {n : ℕ} (h : q.admitted? = some n) :
    q.task? = some n := by
  cases q <;> first | exact h | cases h

@[simp] theorem task?_awake (q : LoopPlace) : q.awake.task? = q.task? := by cases q <;> rfl

@[simp] theorem permit_awake (q : LoopPlace) : q.awake.permit = q.permit := by cases q <;> rfl

@[simp] theorem admitted?_awake (q : LoopPlace) : q.awake.admitted? = q.admitted? := by
  cases q <;> rfl

@[simp] theorem parks_awake (q : LoopPlace) : q.awake.parks = q.parks := by cases q <;> rfl

@[simp] theorem pending_awake (q : LoopPlace) : q.awake.pending = q.pending := by cases q <;> rfl

@[simp] theorem granted_awake (q : LoopPlace) : q.awake.granted = q.granted := by cases q <;> rfl

@[simp] theorem hand_awake (n : ℕ) (q : LoopPlace) : q.awake.hand n = q.hand n := by
  simp [hand]

@[simp] theorem runs_awake (n : ℕ) (q : LoopPlace) : q.awake.runs n = q.runs n := by
  cases q <;> rfl

theorem fuel_awake_le (q : LoopPlace) : q.awake.fuel ≤ q.fuel := by
  cases q <;> simp [awake, fuel]

end LoopPlace

namespace Worker

variable {T : Type} {p : LoopPool T} {c d : Worker T}

/-- A step that neither moves a task nor a permit: some sleepers may wake. -/
structure Calm (c d : Worker T) : Prop where
  started : d.started = c.started
  ended : d.ended = c.ended
  delivered : d.delivered = c.delivered
  place : ∀ t, d.place t = c.place t ∨ d.place t = (c.place t).awake
  inFlight : ∀ k, (d.gate k).inFlight = (c.gate k).inFlight
  limit : ∀ k, (d.gate k).limit = (c.gate k).limit
  released : ∀ k, (c.gate k).released = true → (d.gate k).released = true
  draining : c.draining = true → d.draining = true
  stop : c.stop = true → d.stop = true

theorem Halt.calm (h : Halt p c d) : Calm c d := by
  cases h with
  | releaseAll k rest hp =>
    have hgate : ∀ l, Function.update c.gate k (c.gate k).releaseAll l = c.gate l ∨
        Function.update c.gate k (c.gate k).releaseAll l = (c.gate l).releaseAll := by
      intro l
      by_cases hl : l = k
      · subst hl
        exact .inr (Function.update_self ..)
      · exact .inl (Function.update_of_ne hl ..)
    refine ⟨rfl, rfl, rfl, fun _ => .inl rfl, fun l => ?_, fun l => ?_, fun l hr => ?_, id, id⟩ <;>
      rcases hgate l with hl | hl <;> simp_all [ConcurrencyGate.releaseAll]
  | wake hp =>
    exact ⟨rfl, rfl, rfl, fun _ => .inr rfl, fun _ => rfl, fun _ => rfl, fun _ h => h, id, id⟩
  | storeDraining hp =>
    exact ⟨rfl, rfl, rfl, fun _ => .inl rfl, fun _ => rfl, fun _ => rfl, fun _ h => h,
      fun _ => rfl, id⟩
  | storeStop hp =>
    exact ⟨rfl, rfl, rfl, fun _ => .inl rfl, fun _ => rfl, fun _ => rfl, fun _ h => h, id,
      fun _ => rfl⟩
  | drainPass | drainTimeout | drained | join =>
    exact ⟨rfl, rfl, rfl, fun _ => .inl rfl, fun _ => rfl, fun _ => rfl, fun _ h => h, id, id⟩

namespace Move

variable {t : T} {q : LoopPlace} {e : Effect}

/-- A task comes by a poll, and goes with what is written down of it. -/
theorem hand (h : c.Move p t q e) (n : ℕ) :
    q.hand n + (if e.ends.map Prod.fst = some n then 1 else 0) =
      (c.place t).hand n + if e.delivers = true ∧ c.delivered = n then 1 else 0 := by
  cases h with
  | leavePolled task hp => cases task <;> simp [LoopPlace.hand, LoopPlace.task?, hp]
  | metricsThrow hm hp =>
    have hcaught : LoopPlace.caught.task? = none := rfl
    simp [LoopPlace.hand, hcaught, Option.map_map, Function.comp_def]
  | _ => simp [LoopPlace.hand, LoopPlace.task?, *]

/-- A call of `Handle` begins once, and ends by returning or by throwing. -/
theorem runs (h : c.Move p t q e) (n : ℕ) :
    q.runs n + (if e.ends = some (n, .handled) then 1 else 0) +
        (if e.ends = some (n, .failed) then 1 else 0) =
      (c.place t).runs n + if e.starts = some n then 1 else 0 := by
  cases h with
  | leavePolled task hp => cases task <;> simp [LoopPlace.runs, hp]
  | metricsThrow hm hp =>
    cases hq : c.place t with
    | handling m => simp [hq, LoopPlace.reports] at hp
    | _ => simp [LoopPlace.runs, LoopPlace.task?]
  | _ => simp [LoopPlace.runs, *]

/-- A permit is taken by going where it is held, and given back by leaving. -/
theorem gate_cases (h : c.Move p t q e) :
    (e.gate = .keep ∧ q.permit = (c.place t).permit) ∨
    (e.gate = .acquire ∧ (c.gateOf p t).mayPass = true ∧ (c.gateOf p t).acquire.2 = true ∧
      (c.place t).permit = false ∧ q.permit = true) ∨
    (e.gate = .release ∧ (c.place t).permit = true ∧ q.permit = false) := by
  cases h with
  | permit n hp hm hg => exact .inr (.inl ⟨rfl, hm, hg, by simp [hp, LoopPlace.permit], rfl⟩)
  | handleThrows n hp => exact .inr (.inr ⟨rfl, by simp [hp, LoopPlace.permit], rfl⟩)
  | finish hp => exact .inr (.inr ⟨rfl, by simp [hp, LoopPlace.permit], rfl⟩)
  | metricsThrow hm hp =>
    cases hq : (c.place t).permit with
    | false => exact .inl ⟨by simp, rfl⟩
    | true => exact .inr (.inr ⟨by simp, rfl, rfl⟩)
  | _ => exact .inl ⟨rfl, by simp [LoopPlace.permit, *]⟩

/-- What is written down of a task, and why. -/
theorem ends_cases (h : c.Move p t q e) {n : ℕ} {o : TaskFate} (he : e.ends = some (n, o)) :
    match o with
    | .handled | .failed => c.place t = .handling n
    | .dropped => (c.stop = true ∨ c.draining = true ∨
        (0 < (c.gateOf p t).limit ∧ (c.gateOf p t).released = true))
    | .interrupted => p.metrics = true := by
  cases h with
  | leavePolled task hp hs =>
    obtain ⟨m, -, hm⟩ := Option.map_eq_some_iff.mp he
    cases hm
    exact .inl hs
  | leavePacing m hp hs =>
    cases he
    exact .inl hs
  | drop m hp hd =>
    cases he
    exact .inr (.inl hd)
  | refuse m hp hm hg =>
    cases he
    rcases (c.gateOf p t).acquire_cases with ⟨ha, -⟩ | ⟨-, hlimit, hreleased⟩
    · rw [ha] at hg
      cases hg
    · exact .inr (.inr ⟨hlimit, hreleased⟩)
  | handleReturns m hp =>
    cases he
    exact hp
  | handleThrows m hp =>
    cases he
    exact hp
  | metricsThrow hm hp =>
    obtain ⟨m, -, hm'⟩ := Option.map_eq_some_iff.mp he
    cases hm'
    exact hm
  | _ => cases he

/-- After `stop_` has been stored, a loop starts what it had already let pass. -/
theorem pending (h : c.Move p t q e) (hs : c.stop = true) (hd : c.draining = true) :
    q.pending + e.starts.toList.length ≤ (c.place t).pending := by
  cases h <;> simp_all [LoopPlace.pending]

/-- A bounded gate that has been released grants nothing. -/
theorem granted (h : c.Move p t q e) (hl : 0 < (c.gateOf p t).limit)
    (hr : (c.gateOf p t).released = true) :
    q.granted + e.starts.toList.length ≤ (c.place t).granted := by
  cases h with
  | permit n hp hm hg =>
    rcases (c.gateOf p t).acquire_cases with ⟨-, hlimit | hopen⟩ | ⟨ha, -⟩
    · omega
    · rw [hr] at hopen
      cases hopen
    · rw [ha] at hg
      cases hg
  | _ => simp_all [LoopPlace.granted]

/-- Once `draining_` is stored, no further task passes the test of it. -/
theorem admitted (h : c.Move p t q e) (hd : c.draining = true) {n : ℕ}
    (hq : q.admitted? = some n ∨ e.starts = some n) : (c.place t).admitted? = some n := by
  cases h <;> simp_all [LoopPlace.admitted?]

/-- Only loops that scale wait for a poll slot. -/
theorem parks (h : c.Move p t q e) (hq : q.parks = true) :
    (c.place t).parks = true ∨ (p.role t).scalable = true := by
  cases h <;> simp_all [LoopPlace.parks]

theorem fuel (h : c.Move p t q e) (hs : c.stop = true) (hd : c.draining = true) :
    q.fuel < (c.place t).fuel := by
  cases h with
  | metricsThrow hm hp => cases hq : c.place t <;> simp_all [LoopPlace.fuel, LoopPlace.reports]
  | _ => simp_all [LoopPlace.fuel]

end Move

variable [DecidableEq T]

theorem calm_notified {t : T} (hp : c.place t = .asleep) : Calm c (c.goto t .waiting) := by
  refine ⟨rfl, rfl, rfl, fun u => ?_, fun _ => rfl, fun _ => rfl, fun _ h => h, id, id⟩
  by_cases hu : u = t
  · subst hu
    exact .inr (by rw [hp]; exact Function.update_self ..)
  · exact .inl (Function.update_of_ne hu ..)

/-- A step is the move of one loop, or calm. -/
theorem Step.cases (h : Step p c d) :
    (∃ t q e, c.Move p t q e ∧ d = c.apply p t q e) ∨ Calm c d := by
  cases h with
  | move t q e h => exact .inl ⟨t, q, e, h, rfl⟩
  | notified t hp => exact .inr (calm_notified hp)
  | halt _ h => exact .inr h.calm

@[simp] theorem apply_place (t : T) (q : LoopPlace) (e : Effect) :
    (c.apply p t q e).place = Function.update c.place t q := rfl

theorem apply_gate (t : T) (q : LoopPlace) (e : Effect) (k : TaskKind) :
    (c.apply p t q e).gate k = if k = (p.role t).kind then e.gate.on (c.gate k) else c.gate k := by
  by_cases hk : k = (p.role t).kind
  · subst hk
    simp [apply, gateOf]
  · simp [apply, goto, hk]

@[simp] theorem apply_limit (t : T) (q : LoopPlace) (e : Effect) (k : TaskKind) :
    ((c.apply p t q e).gate k).limit = (c.gate k).limit := by
  rw [apply_gate]
  split
  · cases e.gate <;> simp [GateUse.on, ConcurrencyGate.release]
  · rfl

@[simp] theorem apply_released (t : T) (q : LoopPlace) (e : Effect) (k : TaskKind) :
    ((c.apply p t q e).gate k).released = (c.gate k).released := by
  rw [apply_gate]
  split
  · cases e.gate <;> simp [GateUse.on, ConcurrencyGate.release]
  · rfl

/-- The permits of a gate that are in the hands of the loops. -/
def permitOf (p : LoopPool T) (k : TaskKind) (x : T × LoopPlace) : ℕ :=
  if (p.role x.1).kind = k ∧ x.2.permit = true then 1 else 0

/-- What the place of `Stop` says of the worker. -/
def Fits (c : Worker T) : StopPlace → Prop
  | .idle => c.draining = false ∧ c.stop = false ∧ ∀ k, (c.gate k).released = false
  | .drainingStored => c.draining = true ∧ c.stop = false
  | .releasing rest => c.draining = true ∧ c.stop = true ∧
      ∀ k, k ∈ rest ∨ (c.gate k).released = true
  | .draining rest drained => c.draining = true ∧ c.stop = true ∧
      (∀ k, (c.gate k).released = true) ∧
      (drained = true → ∀ k, k ∈ rest ∨ (c.gate k).limit ≤ 0 ∨ (c.gate k).inFlight = 0)
  | .joining drained => c.draining = true ∧ c.stop = true ∧
      (∀ k, (c.gate k).released = true) ∧
      (drained = true → ∀ k, (c.gate k).limit ≤ 0 ∨ (c.gate k).inFlight = 0)
  | .returned _ => c.draining = true ∧ c.stop = true ∧ (∀ k, (c.gate k).released = true) ∧
      ∀ t, c.place t = .left

variable [Fintype T]

/-- What every step keeps. -/
structure Sound (p : LoopPool T) (c : Worker T) : Prop where
  task : ∀ n, total (LoopPlace.hand n) c.place + (c.ended.map Prod.fst).count n =
    if n < c.delivered then 1 else 0
  calls : ∀ n, (c.started.map Prod.snd).count n =
    total (LoopPlace.runs n) c.place + c.ended.count (n, .handled) + c.ended.count (n, .failed)
  permits : ∀ k, (c.gate k).inFlight = total (permitOf p k) fun t => (t, c.place t)
  limit : ∀ k, 0 < (c.gate k).limit → ((c.gate k).inFlight : Int) ≤ (c.gate k).limit
  dropped : ∀ n, (n, .dropped) ∈ c.ended → c.draining = true
  interrupted : ∀ n, (n, .interrupted) ∈ c.ended → p.metrics = true
  stopper : c.Fits c.stopper

omit [DecidableEq T] in
theorem Sound.init (limit : TaskKind → Int) : (init (T := T) limit).Sound p where
  task n := by simp [Worker.init, total, LoopPlace.hand, LoopPlace.task?]
  calls n := by simp [Worker.init, total, LoopPlace.runs]
  permits k := by simp [Worker.init, total, permitOf, LoopPlace.permit]
  limit k h := by simpa [Worker.init] using h.le
  dropped n h := by simp [Worker.init] at h
  interrupted n h := by simp [Worker.init] at h
  stopper := ⟨rfl, rfl, fun _ => rfl⟩

/-- A list that may have got one more element. -/
theorem count_append_toList {α : Type*} [BEq α] [LawfulBEq α] [DecidableEq α] (l : List α)
    (o : Option α) (a : α) :
    (l ++ o.toList).count a = l.count a + if o = some a then 1 else 0 := by
  cases o <;> simp [List.count_singleton]

/-- The permits in the hands of the loops after one of them has moved. -/
theorem permits_goto (k : TaskKind) (t : T) (q : LoopPlace) :
    total (permitOf p k) (fun u => (u, Function.update c.place t q u)) +
        permitOf p k (t, c.place t) =
      total (permitOf p k) (fun u => (u, c.place u)) + permitOf p k (t, q) := by
  have hpair : (fun u => (u, Function.update c.place t q u)) =
      Function.update (fun u => (u, c.place u)) t (t, q) := by
    funext u
    by_cases hu : u = t
    · subst hu
      simp
    · simp [hu]
  rw [hpair]
  exact total_update (permitOf p k) (fun u => (u, c.place u)) t (t, q)

namespace Sound

omit [DecidableEq T] in
/-- What a calm step leaves as it is. -/
theorem calm (hcalm : Calm c d) (hf : d.Fits d.stopper) (h : c.Sound p) : d.Sound p where
  task n := by
    have hsame : total (LoopPlace.hand n) d.place = total (LoopPlace.hand n) c.place :=
      total_congr fun t => by rcases hcalm.place t with ht | ht <;> simp [ht]
    rw [hsame, hcalm.ended, hcalm.delivered, h.task]
  calls n := by
    have hsame : total (LoopPlace.runs n) d.place = total (LoopPlace.runs n) c.place :=
      total_congr fun t => by rcases hcalm.place t with ht | ht <;> simp [ht]
    rw [hsame, hcalm.ended, hcalm.started, h.calls]
  permits k := by
    rw [hcalm.inFlight, h.permits]
    exact total_congr fun t => by rcases hcalm.place t with ht | ht <;> simp [permitOf, ht]
  limit k := by
    rw [hcalm.inFlight, hcalm.limit]
    exact h.limit k
  dropped n hn := hcalm.draining (h.dropped n (hcalm.ended ▸ hn))
  interrupted n hn := h.interrupted n (hcalm.ended ▸ hn)
  stopper := hf

omit [DecidableEq T] in
/-- The place of `Stop` after a step of its own. -/
theorem fits_halt (h : c.Sound p) (hs : Halt p c d) : d.Fits d.stopper := by
  have hfits := h.stopper
  cases hs with
  | storeDraining hp =>
    rw [hp] at hfits
    exact ⟨rfl, hfits.2.1⟩
  | storeStop hp =>
    rw [hp] at hfits
    exact ⟨hfits.1, rfl, fun k => .inl k.mem_all⟩
  | releaseAll k rest hp =>
    rw [hp] at hfits
    refine ⟨hfits.1, hfits.2.1, fun l => ?_⟩
    by_cases hl : l = k
    · subst hl
      exact .inr (by simp [ConcurrencyGate.releaseAll])
    · rcases hfits.2.2 l with hmem | hrel
      · rcases List.mem_cons.mp hmem with heq | hrest
        · exact absurd heq hl
        · exact .inl hrest
      · exact .inr (by simpa [hl] using hrel)
  | wake hp =>
    rw [hp] at hfits
    have hall : ∀ k, (c.gate k).released = true := fun k =>
      (hfits.2.2 k).resolve_left List.not_mem_nil
    cases hg : p.graceful with
    | true => exact ⟨hfits.1, hfits.2.1, hall, fun _ k => .inl k.mem_all⟩
    | false => exact ⟨hfits.1, hfits.2.1, hall, nofun⟩
  | drainPass k rest drained hp hzero =>
    rw [hp] at hfits
    refine ⟨hfits.1, hfits.2.1, hfits.2.2.1, fun hd l => ?_⟩
    rcases hfits.2.2.2 hd l with hmem | hl
    · rcases List.mem_cons.mp hmem with rfl | hrest
      · exact .inr (.inr hzero)
      · exact .inl hrest
    · exact .inr hl
  | drainTimeout k rest drained hp hn =>
    rw [hp] at hfits
    exact ⟨hfits.1, hfits.2.1, hfits.2.2.1, nofun⟩
  | drained drained hp =>
    rw [hp] at hfits
    exact ⟨hfits.1, hfits.2.1, hfits.2.2.1, fun hd k =>
      (hfits.2.2.2 hd k).resolve_left List.not_mem_nil⟩
  | join drained hp hl =>
    rw [hp] at hfits
    exact ⟨hfits.1, hfits.2.1, hfits.2.2.1, hl⟩

omit [DecidableEq T] in
theorem draining_of_stop (h : c.Sound p) (hs : c.stop = true) : c.draining = true := by
  have hfits := h.stopper
  cases hp : c.stopper <;> rw [hp] at hfits <;> simp_all [Fits]

omit [DecidableEq T] in
theorem draining_of_released (h : c.Sound p) {k : TaskKind} (hr : (c.gate k).released = true) :
    c.draining = true := by
  have hfits := h.stopper
  cases hp : c.stopper <;> rw [hp] at hfits <;> simp_all [Fits]

/-- A loop moves, and what the place of `Stop` says still holds. -/
theorem fits_move (h : c.Sound p) {t : T} {q : LoopPlace} {e : Effect} (hm : c.Move p t q e) :
    (c.apply p t q e).Fits c.stopper := by
  have hfits := h.stopper
  have hidle : ∀ k, (c.gate k).released = true → 0 < (c.gate k).limit →
      (c.gate k).inFlight = 0 → ((c.apply p t q e).gate k).inFlight = 0 := by
    intro k hr hl hzero
    rw [apply_gate]
    split
    · next hk =>
      subst hk
      rcases hm.gate_cases with ⟨hg, -⟩ | ⟨-, -, hgrant, -⟩ | ⟨hg, -⟩
      · simpa only [hg, GateUse.on] using hzero
      · rcases (c.gate (p.role t).kind).acquire_cases with ⟨-, hlimit | hopen⟩ | ⟨ha, -⟩
        · omega
        · rw [hr] at hopen
          cases hopen
        · rw [gateOf, ha] at hgrant
          cases hgrant
      · simp [hg, GateUse.on, ConcurrencyGate.release, hzero]
    · exact hzero
  have hkept : ∀ k, (c.gate k).released = true →
      (c.gate k).limit ≤ 0 ∨ (c.gate k).inFlight = 0 →
      ((c.apply p t q e).gate k).limit ≤ 0 ∨ ((c.apply p t q e).gate k).inFlight = 0 := by
    intro k hr hk
    rw [apply_limit]
    by_cases hl : (c.gate k).limit ≤ 0
    · exact .inl hl
    · exact .inr (hidle k hr (by omega) (hk.resolve_left hl))
  cases hp : c.stopper with
  | idle =>
    rw [hp] at hfits
    exact ⟨hfits.1, hfits.2.1, fun k => by rw [apply_released]; exact hfits.2.2 k⟩
  | drainingStored =>
    rw [hp] at hfits
    exact hfits
  | releasing rest =>
    rw [hp] at hfits
    exact ⟨hfits.1, hfits.2.1, fun k => by rw [apply_released]; exact hfits.2.2 k⟩
  | draining rest drained =>
    rw [hp] at hfits
    obtain ⟨hd, hs, hr, hdrained⟩ := hfits
    refine ⟨hd, hs, fun k => by rw [apply_released]; exact hr k, fun hflag k => ?_⟩
    exact (hdrained hflag k).imp_right (hkept k (hr k))
  | joining drained =>
    rw [hp] at hfits
    obtain ⟨hd, hs, hr, hdrained⟩ := hfits
    exact ⟨hd, hs, fun k => by rw [apply_released]; exact hr k,
      fun hflag k => hkept k (hr k) (hdrained hflag k)⟩
  | returned drained =>
    rw [hp] at hfits
    obtain ⟨hd, hs, hr, hleft⟩ := hfits
    -- nobody is left to move
    have hfuel := hm.fuel hs hd
    rw [hleft t] at hfuel
    exact absurd hfuel (Nat.not_lt_zero _)

theorem move (h : c.Sound p) {t : T} {q : LoopPlace} {e : Effect} (hm : c.Move p t q e) :
    (c.apply p t q e).Sound p where
  task n := by
    have htotal := total_update (LoopPlace.hand n) c.place t q
    have hmove := hm.hand n
    have hold := h.task n
    have hended : (((c.apply p t q e).ended).map Prod.fst).count n =
        (c.ended.map Prod.fst).count n + if e.ends.map Prod.fst = some n then 1 else 0 := by
      rw [← count_append_toList]
      cases he : e.ends <;> simp [apply, he]
    have hdelivered : (if n < (c.apply p t q e).delivered then 1 else 0) =
        (if n < c.delivered then 1 else 0) +
          if e.delivers = true ∧ c.delivered = n then 1 else 0 := by
      show (if n < c.delivered + e.delivers.toNat then 1 else 0) = _
      cases e.delivers <;> simp only [Bool.toNat_true, Bool.toNat_false, Nat.add_zero,
        Bool.false_eq_true, false_and, true_and, if_false]
      split_ifs <;> omega
    rw [hended, hdelivered, apply_place]
    omega
  calls n := by
    have htotal := total_update (LoopPlace.runs n) c.place t q
    have hmove := hm.runs n
    have hold := h.calls n
    have hstarted : (((c.apply p t q e).started).map Prod.snd).count n =
        (c.started.map Prod.snd).count n + if e.starts = some n then 1 else 0 := by
      rw [← count_append_toList]
      cases he : e.starts <;> simp [apply, he]
    have hended : ∀ x, (c.apply p t q e).ended.count x =
        c.ended.count x + if e.ends = some x then 1 else 0 := fun x =>
      count_append_toList c.ended e.ends x
    rw [hstarted, hended, hended, apply_place]
    omega
  permits k := by
    have htotal := permits_goto (p := p) (c := c) k t q
    have hold := h.permits k
    have hle := le_total (permitOf p k) (fun u => (u, c.place u)) t
    rw [apply_gate, apply_place]
    by_cases hk : k = (p.role t).kind
    · subst hk
      rw [if_pos rfl]
      rcases hm.gate_cases with ⟨hg, hq⟩ | ⟨hg, -, hgrant, hfrom, hto⟩ | ⟨hg, hfrom, hto⟩
      · simp only [permitOf, hq] at htotal
        simp only [hg, GateUse.on]
        omega
      · simp only [permitOf, hfrom, hto, and_self, if_true, Bool.false_eq_true, and_false,
          if_false] at htotal
        have hacquire : ((c.gate (p.role t).kind).acquire.1).inFlight =
            (c.gate (p.role t).kind).inFlight + 1 := by
          rcases (c.gate (p.role t).kind).acquire_cases with ⟨ha, -⟩ | ⟨ha, -⟩
          · rw [ha]
          · rw [gateOf, ha] at hgrant
            cases hgrant
        simp only [hg, GateUse.on, hacquire]
        omega
      · simp only [permitOf, hfrom, hto, and_self, if_true, Bool.false_eq_true, and_false,
          if_false] at htotal hle
        have hpos : 0 < (c.gate (p.role t).kind).inFlight := by omega
        simp only [hg, GateUse.on, ConcurrencyGate.release, hpos, if_true]
        omega
    · have hne : ¬ (p.role t).kind = k := fun heq => hk heq.symm
      rw [if_neg hk]
      simp only [permitOf, hne, false_and, if_false] at htotal
      omega
  limit k hl := by
    rw [apply_limit] at hl ⊢
    have hold := h.limit k hl
    rw [apply_gate]
    split
    · next hk =>
      subst hk
      rcases hm.gate_cases with ⟨hg, -⟩ | ⟨hg, hpass, hgrant, -⟩ | ⟨hg, -⟩
      · simpa only [hg, GateUse.on] using hold
      · -- the wait has ended, so either there was room or the gate was released
        rcases (c.gate (p.role t).kind).acquire_cases with ⟨ha, hopen⟩ | ⟨ha, -⟩
        · have hroom := ConcurrencyGate.inFlight_lt hpass hl (hopen.resolve_left (by
            show ¬ (c.gate (p.role t).kind).limit ≤ 0
            omega))
          simp only [hg, GateUse.on, ha, Int.natCast_add, Int.natCast_one]
          exact hroom
        · rw [gateOf, ha] at hgrant
          cases hgrant
      · simp only [hg, GateUse.on, ConcurrencyGate.release]
        split <;> omega
    · exact hold
  dropped n hn := by
    rcases List.mem_append.mp hn with hn | hn
    · exact h.dropped n hn
    · rcases hm.ends_cases (Option.mem_toList.mp hn) with hs | hd | ⟨-, hr⟩
      · exact h.draining_of_stop hs
      · exact hd
      · exact h.draining_of_released hr
  interrupted n hn := by
    rcases List.mem_append.mp hn with hn | hn
    · exact h.interrupted n hn
    · exact hm.ends_cases (Option.mem_toList.mp hn)
  stopper := h.fits_move hm

theorem step (h : c.Sound p) (hs : Step p c d) : d.Sound p := by
  cases hs with
  | move t q e hm => exact h.move hm
  | halt _ hhalt => exact h.calm hhalt.calm (h.fits_halt hhalt)
  | notified t hp =>
    refine h.calm (calm_notified hp) ?_
    have hfits := h.stopper
    show (c.goto t .waiting).Fits c.stopper
    cases hstop : c.stopper with
    | returned drained =>
      rw [hstop] at hfits
      rw [hfits.2.2.2 t] at hp
      cases hp
    | _ =>
      rw [hstop] at hfits
      exact hfits

theorem of_steps (h : c.Sound p) (hs : Steps p c d) : d.Sound p :=
  invariant_of_step (I := Sound p) (fun _ _ ha hab => ha.step hab) h hs

theorem of_reachable {limit : TaskKind → Int} (h : Reachable p limit c) : c.Sound p :=
  (Sound.init limit).of_steps h

end Sound

omit [Fintype T] in
theorem Step.limit_eq (hs : Step p c d) (k : TaskKind) : (d.gate k).limit = (c.gate k).limit := by
  rcases hs.cases with ⟨t, q, e, -, rfl⟩ | hcalm
  · exact apply_limit t q e k
  · exact hcalm.limit k

omit [Fintype T] in
theorem Reachable.limit_eq {limit : TaskKind → Int} (h : Reachable p limit c) (k : TaskKind) :
    (c.gate k).limit = limit k :=
  invariant_of_step (I := fun c : Worker T => (c.gate k).limit = limit k)
    (fun _ _ hc hs => (hs.limit_eq k).trans hc) rfl h

/-- The loops that may be inside `Handle` with a permit of the gate. -/
def holders (p : LoopPool T) (c : Worker T) (k : TaskKind) : Finset T :=
  Finset.univ.filter fun t => (p.role t).kind = k ∧ (c.place t).permit = true

omit [DecidableEq T] in
theorem card_holders (k : TaskKind) :
    (c.holders p k).card = total (permitOf p k) fun t => (t, c.place t) := by
  rw [holders, Finset.card_filter]
  rfl

/-- What becomes of the tasks of a worker. -/
structure Accounted (p : LoopPool T) (limit : TaskKind → Int) (c : Worker T) : Prop where
  /-- A task that a poll has returned is in the hands of one loop, or one thing is written down of
  it. -/
  once : ∀ n < c.delivered,
    ((∃! t, (c.place t).task? = some n) ∧ ∀ o, (n, o) ∉ c.ended) ∨
    ((∀ t, (c.place t).task? ≠ some n) ∧ ∃! o, (n, o) ∈ c.ended)
  known : ∀ t n, (c.place t).task? = some n → n < c.delivered
  handleOnce : (c.started.map Prod.snd).Nodup
  handled : ∀ n o, (n, o) ∈ c.ended →
    (n ∈ c.started.map Prod.snd ↔ o = .handled ∨ o = .failed)
  dropped : ∀ n, (n, .dropped) ∈ c.ended → c.draining = true
  interrupted : ∀ n, (n, .interrupted) ∈ c.ended → p.metrics = true
  bounded : ∀ k, 0 < limit k → ((c.holders p k).card : Int) ≤ limit k
  returned : ∀ drained, c.stopper = .returned drained →
    (∀ t, c.place t = .left) ∧ (∀ k, (c.gate k).inFlight = 0) ∧
      ∀ n < c.delivered, ∃! o, (n, o) ∈ c.ended

namespace Sound

omit [DecidableEq T] in
theorem count_fst_le_one (h : c.Sound p) (n : ℕ) : (c.ended.map Prod.fst).count n ≤ 1 := by
  have htask := h.task n
  split_ifs at htask <;> omega

omit [DecidableEq T] in
theorem mem_ended_inj (h : c.Sound p) {n : ℕ} {o o' : TaskFate} (ho : (n, o) ∈ c.ended)
    (ho' : (n, o') ∈ c.ended) : o = o' := by
  have hnodup := List.nodup_iff_count_le_one.mpr h.count_fst_le_one
  exact congrArg Prod.snd (List.inj_on_of_nodup_map hnodup ho ho' rfl)

omit [DecidableEq T] in
/-- Nothing is written down of a task in hand, and a task of which something is written down is in
nobody's hands. -/
theorem hand_or_ended (h : c.Sound p) {n : ℕ} (hn : n < c.delivered) :
    (total (LoopPlace.hand n) c.place = 1 ∧ n ∉ c.ended.map Prod.fst) ∨
    (total (LoopPlace.hand n) c.place = 0 ∧ n ∈ c.ended.map Prod.fst) := by
  have htask := h.task n
  rw [if_pos hn] at htask
  by_cases hmem : n ∈ c.ended.map Prod.fst
  · have hpos := List.count_pos_iff.mpr hmem
    exact .inr ⟨by omega, hmem⟩
  · rw [List.count_eq_zero_of_not_mem hmem] at htask
    exact .inl ⟨by omega, hmem⟩

omit [DecidableEq T] in
theorem known (h : c.Sound p) {t : T} {n : ℕ} (ht : (c.place t).task? = some n) :
    n < c.delivered := by
  have htask := h.task n
  have hle := le_total (LoopPlace.hand n) c.place t
  have hone : (c.place t).hand n = 1 := by simp [LoopPlace.hand, ht]
  by_contra hn
  rw [if_neg hn] at htask
  omega

/-- The calls that have ended, among what is written down. -/
theorem count_calls_le (l : List (ℕ × TaskFate)) (n : ℕ) :
    l.count (n, .handled) + l.count (n, .failed) ≤ (l.map Prod.fst).count n := by
  induction l with
  | nil => simp
  | cons x l ih =>
    obtain ⟨m, o⟩ := x
    simp only [List.count_cons, List.map_cons, beq_iff_eq, Prod.mk.injEq]
    by_cases hm : m = n
    · cases o <;> simp [hm] <;> omega
    · simpa [hm] using ih

omit [DecidableEq T] in
theorem runs_le (c : Worker T) (n : ℕ) :
    total (LoopPlace.runs n) c.place ≤ total (LoopPlace.hand n) c.place :=
  Finset.sum_le_sum fun t _ => LoopPlace.runs_le_hand n (c.place t)

omit [DecidableEq T] in
theorem count_started_le_one (h : c.Sound p) (n : ℕ) :
    (c.started.map Prod.snd).count n ≤ 1 := by
  have htask := h.task n
  have hcalls := h.calls n
  have hruns := runs_le c n
  have hended := count_calls_le c.ended n
  split_ifs at htask <;> omega

omit [DecidableEq T] in
theorem mem_started_iff (h : c.Sound p) {n : ℕ} {o : TaskFate} (ho : (n, o) ∈ c.ended) :
    n ∈ c.started.map Prod.snd ↔ o = .handled ∨ o = .failed := by
  have hcalls := h.calls n
  have hmem : n ∈ c.ended.map Prod.fst := List.mem_map_of_mem (f := Prod.fst) ho
  constructor
  · intro hstarted
    have hpos := List.count_pos_iff.mpr hstarted
    have hidle : total (LoopPlace.runs n) c.place = 0 := by
      have htask := h.task n
      have hfst := List.count_pos_iff.mpr hmem
      have hruns := runs_le c n
      split_ifs at htask <;> omega
    have hsome : 0 < c.ended.count (n, .handled) ∨ 0 < c.ended.count (n, .failed) := by omega
    exact hsome.imp (fun hc => h.mem_ended_inj ho (List.count_pos_iff.mp hc))
      fun hc => h.mem_ended_inj ho (List.count_pos_iff.mp hc)
  · rintro (rfl | rfl) <;>
    · have hpos := List.count_pos_iff.mpr ho
      exact List.count_pos_iff.mp (by omega)

omit [DecidableEq T] in
theorem once (h : c.Sound p) {n : ℕ} (hn : n < c.delivered) :
    ((∃! t, (c.place t).task? = some n) ∧ ∀ o, (n, o) ∉ c.ended) ∨
    ((∀ t, (c.place t).task? ≠ some n) ∧ ∃! o, (n, o) ∈ c.ended) := by
  rcases h.hand_or_ended hn with ⟨hone, hnone⟩ | ⟨hzero, hmem⟩
  · refine .inl ⟨?_, fun o ho => hnone (List.mem_map_of_mem (f := Prod.fst) ho)⟩
    simpa only [LoopPlace.hand_ne_zero] using existsUnique_of_total_eq_one hone
  · refine .inr ⟨fun t ht => LoopPlace.hand_ne_zero.mpr ht (total_eq_zero.mp hzero t), ?_⟩
    obtain ⟨⟨m, o⟩, ho, rfl⟩ := List.mem_map.mp hmem
    exact ⟨o, ho, fun o' ho' => h.mem_ended_inj ho' ho⟩

end Sound

/-- How often a loop has called `Handle`. -/
def callsOf (c : Worker T) (t : T) : ℕ := (c.started.map Prod.fst).count t

/-- One workflow loop, with a graceful timeout. -/
def oneLoop : LoopPool Unit where
  role _ := { kind := .workflow }
  graceful := true

/-- The loop has its permit when `Stop` begins, and handles its task after that. -/
theorem oneLoop_shutdown : ∃ c d : Worker Unit, Reachable oneLoop (fun _ => 1) c ∧
    Steps oneLoop c d ∧ c.stop = true ∧ c.callsOf () = 0 ∧ d.callsOf () = 1 ∧
    d.ended = [(0, .handled)] ∧ d.stopper = .returned true := by
  have hpermit : Reachable oneLoop (fun _ => 1) _ :=
    (((((Relation.ReflTransGen.refl.tail (.move _ () _ _ (.poll rfl rfl rfl))).tail
      (.move _ () _ _ (.pollTask rfl))).tail
      (.move _ () _ _ (.countSuccess 0 rfl rfl))).tail
      (.move _ () _ _ (.callGate 0 rfl rfl rfl))).tail
      (.move _ () _ _ (.permit 0 rfl rfl rfl)))
  have hstop := (hpermit.tail (.halt _ _ (.storeDraining _ rfl))).tail
    (.halt _ _ (.storeStop _ rfl))
  have hstart : ∀ {c : Worker Unit}, Reachable oneLoop (fun _ => 1) c → Steps oneLoop c c :=
    fun _ => .refl
  have hreleased := (((((hstart hstop).tail (.halt _ _ (.releaseAll _ _ _ rfl))).tail
    (.halt _ _ (.releaseAll _ _ _ rfl))).tail
    (.halt _ _ (.releaseAll _ _ _ rfl))).tail
    (.halt _ _ (.releaseAll _ _ _ rfl))).tail (.halt _ _ (.wake _ rfl))
  have hhandled := (((hreleased.tail (.move _ () _ _ (.handle 0 rfl))).tail
    (.move _ () _ _ (.handleReturns 0 rfl))).tail
    (.move _ () _ _ (.finish rfl))).tail
    (.move _ () _ _ (.leave rfl rfl))
  have hjoined := (((((hhandled.tail (.halt _ _ (.drainPass _ _ _ _ rfl rfl))).tail
    (.halt _ _ (.drainPass _ _ _ _ rfl rfl))).tail
    (.halt _ _ (.drainPass _ _ _ _ rfl rfl))).tail
    (.halt _ _ (.drainPass _ _ _ _ rfl rfl))).tail
    (.halt _ _ (.drained _ _ rfl))).tail
    (.halt _ _ (.join _ _ rfl fun _ => rfl))
  exact ⟨_, _, hstop, hjoined, rfl, rfl, rfl, rfl, rfl⟩

/-- In every state a worker can reach, every task that a poll has returned is in the hands of one
loop or is done with, it has been given to `Handle` at most once, and it was dropped only because
the worker shuts down. When `Stop` has returned, nothing is in hand. -/
theorem accounted {limit : TaskKind → Int} (hr : Reachable p limit c) : c.Accounted p limit := by
  have h := Sound.of_reachable hr
  refine ⟨fun n hn => h.once hn, fun t n ht => h.known ht, ?_, fun n o ho => h.mem_started_iff ho,
    h.dropped, h.interrupted, fun k hk => ?_, fun drained hd => ?_⟩
  · exact List.nodup_iff_count_le_one.mpr h.count_started_le_one
  · rw [card_holders, ← h.permits, ← hr.limit_eq k]
    exact h.limit k (by rwa [hr.limit_eq])
  · have hfits := h.stopper
    rw [hd] at hfits
    have hleft := hfits.2.2.2
    refine ⟨hleft, fun k => ?_, fun n hn => ?_⟩
    · rw [h.permits, total_eq_zero]
      intro t
      simp [permitOf, hleft t, LoopPlace.permit]
    · rcases h.once hn with ⟨⟨t, ht, -⟩, -⟩ | ⟨-, hone⟩
      · rw [show (c.place t).task? = none by rw [hleft t]; rfl] at ht
        cases ht
      · exact hone

theorem oneLoop_accounted : ∃ d : Worker Unit, d.stopper = .returned true ∧
    d.ended = [(0, .handled)] ∧ d.Accounted oneLoop fun _ => 1 := by
  obtain ⟨c, d, hc, hd, -, -, -, hended, hreturned⟩ := oneLoop_shutdown
  exact ⟨d, hreturned, hended, accounted (hc.trans hd)⟩

end Worker

end TemporalSdk
