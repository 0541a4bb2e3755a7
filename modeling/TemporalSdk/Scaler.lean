import TemporalSdk.Lib.Monitor
import Mathlib.Algebra.BigOperators.Fin

/-! `PollerScaler` (`internal/worker_impl.h`), the pools `WorkerImpl::Start` launches and the part
of the poll loops that takes and gives back poll slots. -/
namespace TemporalSdk
open Monitor

structure PollerScaler where
  alwaysHot : Int := 0
  maxScalable : Int := 0
  emptyThreshold : Int := 1
  target : Int := 0
  scalableActive : Int := 0
  emptyStreak : Int := 0
  deriving DecidableEq, Repr

namespace PollerScaler

/-- `Configure` of a scaler that nobody has used yet. -/
def configure (alwaysHot maxScalable emptyPollsBeforeScaleDown : Int) : PollerScaler where
  alwaysHot
  maxScalable
  emptyThreshold := if emptyPollsBeforeScaleDown > 0 then emptyPollsBeforeScaleDown else 1

/-- What `Acquire` waits for. -/
def mayPoll (s : PollerScaler) (stop : Bool) : Bool := stop || s.scalableActive < s.target

/-- `Acquire` once its wait is over and `stop` reads false. -/
def acquire (s : PollerScaler) : PollerScaler := { s with scalableActive := s.scalableActive + 1 }

def release (s : PollerScaler) : PollerScaler :=
  { s with scalableActive :=
      if s.scalableActive > 0 then s.scalableActive - 1 else s.scalableActive }

/-- `Report` notifies when it raises the target. -/
def raises (s : PollerScaler) (gotTask : Bool) : Bool := gotTask && s.target < s.maxScalable

def report (s : PollerScaler) (gotTask : Bool) : PollerScaler :=
  if gotTask then
    { s with
      emptyStreak := 0
      target := if s.target < s.maxScalable then s.target + 1 else s.target }
  else if s.emptyStreak + 1 ≥ s.emptyThreshold then
    { s with emptyStreak := 0, target := if s.target > 0 then s.target - 1 else s.target }
  else { s with emptyStreak := s.emptyStreak + 1 }

@[simp] theorem report_alwaysHot (s : PollerScaler) (b : Bool) :
    (s.report b).alwaysHot = s.alwaysHot := by
  unfold report
  split_ifs <;> rfl

@[simp] theorem report_maxScalable (s : PollerScaler) (b : Bool) :
    (s.report b).maxScalable = s.maxScalable := by
  unfold report
  split_ifs <;> rfl

@[simp] theorem report_scalableActive (s : PollerScaler) (b : Bool) :
    (s.report b).scalableActive = s.scalableActive := by
  unfold report
  split_ifs <;> rfl

/-- The ranges of the target and of the streak of empty polls. -/
structure InRange (s : PollerScaler) : Prop where
  target_nonneg : 0 ≤ s.target
  target_le : s.target ≤ s.maxScalable
  streak_nonneg : 0 ≤ s.emptyStreak
  streak_lt : s.emptyStreak < s.emptyThreshold

theorem InRange.configure {hot max idle : Int} (hmax : 0 ≤ max) :
    (configure hot max idle).InRange where
  target_nonneg := le_rfl
  target_le := hmax
  streak_nonneg := le_rfl
  streak_lt := by
    unfold PollerScaler.configure
    dsimp only
    split_ifs <;> omega

theorem InRange.report {s : PollerScaler} (h : s.InRange) (gotTask : Bool) :
    (s.report gotTask).InRange := by
  obtain ⟨h₁, h₂, h₃, h₄⟩ := h
  unfold PollerScaler.report
  split_ifs <;> constructor <;> dsimp only <;> omega

end PollerScaler

/-- The worker options that decide how many pollers there are. -/
structure WorkerOptions where
  workflowTaskPollers : Int := 1
  activityTaskPollers : Int := 1
  enablePollerAutoscaling : Bool := false
  minConcurrentPollers : Int := 1
  maxConcurrentPollers : Int := 4
  autoscalingIdlePollsBeforePark : Int := 5
  deriving Repr

/-- The loops that share a scaler: the normal and the sticky workflow loops, or the normal
activity loops. -/
inductive PollerKind where
  | workflow
  | activity
  deriving DecidableEq, Repr

/-- A loop thread, by the queue it polls and its position in the pool. -/
structure Poller where
  sticky : Bool
  index : ℕ
  deriving DecidableEq, Repr

namespace WorkerOptions

/-- `wf_base` and `act_base`. -/
def base (o : WorkerOptions) : PollerKind → Int
  | .workflow => if o.workflowTaskPollers > 0 then o.workflowTaskPollers else 1
  | .activity => if o.activityTaskPollers > 0 then o.activityTaskPollers else 1

def minHot (o : WorkerOptions) : Int :=
  if o.enablePollerAutoscaling then max 1 o.minConcurrentPollers else 0

/-- `wf_pool` and `act_pool`. -/
def poolSize (o : WorkerOptions) (k : PollerKind) : Int :=
  if o.enablePollerAutoscaling then max (max (o.base k) o.maxConcurrentPollers) o.minHot
  else o.base k

/-- Workflow loops come in pairs. -/
def alwaysHot (o : WorkerOptions) (k : PollerKind) : Int :=
  match k with
  | .workflow =>
    if o.enablePollerAutoscaling then 2 * min o.minHot (o.poolSize k) else 2 * o.poolSize k
  | .activity => if o.enablePollerAutoscaling then min o.minHot (o.poolSize k) else o.poolSize k

def maxScalable (o : WorkerOptions) (k : PollerKind) : Int :=
  match k with
  | .workflow => 2 * o.poolSize k - o.alwaysHot k
  | .activity => o.poolSize k - o.alwaysHot k

/-- The scaler of the kind after `Start` has configured it. -/
def scaler (o : WorkerOptions) (k : PollerKind) : PollerScaler :=
  .configure (o.alwaysHot k) (o.maxScalable k) o.autoscalingIdlePollsBeforePark

/-- The threads `Start` launches for the kind, in order. -/
def launched (o : WorkerOptions) (k : PollerKind) : List Poller :=
  match k with
  | .workflow => (List.range (o.poolSize k).toNat).flatMap fun i => [⟨false, i⟩, ⟨true, i⟩]
  | .activity => (List.range (o.poolSize k).toNat).map fun i => ⟨false, i⟩

/-- `scalable` of a loop. -/
def scalable (o : WorkerOptions) (p : Poller) : Bool :=
  o.enablePollerAutoscaling && max 1 o.minConcurrentPollers ≤ (p.index : Int)

end WorkerOptions

/-- Where a loop thread is. -/
inductive PollPlace where
  /-- At the test of `stop_` that begins an iteration. -/
  | head
  | acquiring (s : Stage)
  /-- In the `try` block, up to the answer of the poll. -/
  | polling
  | reporting (gotTask : Bool) (s : Stage)
  | reported (gotTask : Bool)
  /-- In `Release`, with the answer of the poll, or from the `catch` block. -/
  | releasing (gotTask : Option Bool) (s : Stage)
  /-- The slot is given back, `stop_` is tested next. -/
  | polled (gotTask : Bool)
  /-- In the rest of the `try` block. -/
  | handling
  /-- At the head of the `catch` block. -/
  | thrown
  /-- At the test of `stop_` in the `catch` block. -/
  | caught
  | left
  deriving DecidableEq, Repr

def PollPlace.holds : PollPlace → Bool
  | .acquiring s | .reporting _ s | .releasing _ s => s.holds
  | _ => false

/-- In the `try` block, outside of the scaler's own methods. -/
def PollPlace.mayThrow : PollPlace → Bool
  | .polling | .reported _ | .polled _ | .handling => true
  | _ => false

def PollPlace.awake : PollPlace → PollPlace
  | .acquiring s => .acquiring s.awake
  | p => p

/-- Asleep in `Acquire`, or about to be. -/
def PollPlace.parks : PollPlace → Bool
  | .acquiring .park | .acquiring .asleep => true
  | _ => false

/-- A notification reaches whoever sleeps, not who is about to. -/
theorem PollPlace.parks_awake_of_ne_park {q : PollPlace} (h : q ≠ .acquiring .park) :
    q.awake.parks = false := by
  cases q with
  | acquiring s => cases s <;> first | rfl | exact absurd rfl h
  | _ => rfl

theorem PollPlace.parks_awake {q : PollPlace} (h : q.parks = false) : q.awake.parks = false := by
  cases q with
  | acquiring s => cases s <;> first | rfl | cases h
  | _ => rfl

/-- A loop thread with its `slot_released`. `released` records for each iteration that took a
slot, the latest first, how often it gave the slot back. -/
structure PollThread where
  place : PollPlace := .head
  slotReleased : Bool := false
  released : List ℕ := []
  deriving DecidableEq, Repr

def PollThread.holds (x : PollThread) : Bool := x.place.holds

def PollThread.awake (x : PollThread) : PollThread := { x with place := x.place.awake }

/-- The thread is between a successful `Acquire` and its `Release`. -/
def PollThread.busy (x : PollThread) : Bool := x.released.head? = some 0

/-- `Release` has returned. -/
def PollThread.afterRelease (x : PollThread) : Option Bool → PollThread
  | some gotTask => { x with place := .polled gotTask, slotReleased := true }
  | none => { x with place := .caught }

/-- What the options fix for the loops of one kind. -/
structure PollerPool (T : Type) where
  scale : Bool
  scalable : T → Bool

def PollerPool.scalableThreads {T : Type} [Fintype T] (p : PollerPool T) : Finset T :=
  Finset.univ.filter fun t => p.scalable t = true

/-- A scaler, its loop threads and `WorkerImpl::Stop`: `stop` is `stop_`, and `woken` says that
`Wake` has returned. -/
structure Polling (T : Type) where
  scaler : PollerScaler
  thread : T → PollThread := fun _ => {}
  stop : Bool := false
  woken : Bool := false

namespace Polling

variable {T : Type} [DecidableEq T]

def set (c : Polling T) (t : T) (x : PollThread) : Polling T :=
  { c with thread := Function.update c.thread t x }

def goto (c : Polling T) (t : T) (p : PollPlace) : Polling T :=
  c.set t { c.thread t with place := p }

/-- `notify_all`. -/
def wakeAll (c : Polling T) : Polling T := { c with thread := fun t => (c.thread t).awake }

/-- The mutex is free. -/
def Unlocked (c : Polling T) : Prop := Free PollThread.holds c.thread

instance [Fintype T] (c : Polling T) : Decidable c.Unlocked :=
  inferInstanceAs (Decidable (Free PollThread.holds c.thread))

/-- One step of one loop thread, or of `Stop`. -/
inductive Step (p : PollerPool T) : Polling T → Polling T → Prop
  | leave (c : Polling T) (t : T) (hp : (c.thread t).place = .head) (hs : c.stop = true) :
    Step p c (c.goto t .left)
  | callAcquire (c : Polling T) (t : T) (hp : (c.thread t).place = .head) (hs : c.stop = false)
    (ht : p.scalable t = true) : Step p c (c.goto t (.acquiring .lock))
  | pollHot (c : Polling T) (t : T) (hp : (c.thread t).place = .head) (hs : c.stop = false)
    (ht : p.scalable t = false) :
    Step p c (c.set t { c.thread t with place := .polling, slotReleased := true })
  | lockAcquire (c : Polling T) (t : T) (hp : (c.thread t).place = .acquiring .lock)
    (hf : c.Unlocked) : Step p c (c.goto t (.acquiring .test))
  | acquirePass (c : Polling T) (t : T) (hp : (c.thread t).place = .acquiring .test)
    (h : c.scaler.mayPoll c.stop = true) : Step p c (c.goto t (.acquiring .act))
  | acquireFail (c : Polling T) (t : T) (hp : (c.thread t).place = .acquiring .test)
    (h : c.scaler.mayPoll c.stop = false) : Step p c (c.goto t (.acquiring .park))
  | sleep (c : Polling T) (t : T) (hp : (c.thread t).place = .acquiring .park) :
    Step p c (c.goto t (.acquiring .asleep))
  /-- A spurious wake-up. -/
  | wake (c : Polling T) (t : T) (hp : (c.thread t).place = .acquiring .asleep) :
    Step p c (c.goto t (.acquiring .lock))
  /-- `Acquire` returns false. -/
  | acquireStopped (c : Polling T) (t : T) (hp : (c.thread t).place = .acquiring .act)
    (hs : c.stop = true) : Step p c (c.goto t .left)
  | acquire (c : Polling T) (t : T) (hp : (c.thread t).place = .acquiring .act)
    (hs : c.stop = false) :
    Step p c { c.set t ⟨.polling, false, 0 :: (c.thread t).released⟩ with
      scaler := c.scaler.acquire }
  | pollReturns (c : Polling T) (t : T) (gotTask : Bool) (hp : (c.thread t).place = .polling) :
    Step p c (c.goto t (if p.scale then .reporting gotTask .lock else .reported gotTask))
  /-- An exception anywhere in the `try` block. -/
  | throws (c : Polling T) (t : T) (hp : (c.thread t).place.mayThrow = true) :
    Step p c (c.goto t .thrown)
  | lockReport (c : Polling T) (t : T) (gotTask : Bool)
    (hp : (c.thread t).place = .reporting gotTask .lock) (hf : c.Unlocked) :
    Step p c (c.goto t (.reporting gotTask .act))
  /-- `Report` notifies before it unlocks. -/
  | report (c : Polling T) (t : T) (gotTask : Bool)
    (hp : (c.thread t).place = .reporting gotTask .act) :
    Step p c { (if c.scaler.raises gotTask then c.wakeAll else c).goto t (.reported gotTask) with
      scaler := c.scaler.report gotTask }
  | callRelease (c : Polling T) (t : T) (gotTask : Bool)
    (hp : (c.thread t).place = .reported gotTask) (ht : p.scalable t = true) :
    Step p c (c.goto t (.releasing (some gotTask) .lock))
  | keepPolling (c : Polling T) (t : T) (gotTask : Bool)
    (hp : (c.thread t).place = .reported gotTask) (ht : p.scalable t = false) :
    Step p c (c.goto t (.polled gotTask))
  | lockRelease (c : Polling T) (t : T) (b : Option Bool)
    (hp : (c.thread t).place = .releasing b .lock) (hf : c.Unlocked) :
    Step p c (c.goto t (.releasing b .act))
  | release (c : Polling T) (t : T) (b : Option Bool)
    (hp : (c.thread t).place = .releasing b .act) :
    Step p c { c.set t { c.thread t with
        place := .releasing b .notify
        released := (c.thread t).released.modifyHead (· + 1) } with
      scaler := c.scaler.release }
  /-- `notify_one` while some thread sleeps. -/
  | notifyOne (c : Polling T) (t u : T) (b : Option Bool)
    (hp : (c.thread t).place = .releasing b .notify)
    (hu : (c.thread u).place = .acquiring .asleep) :
    Step p c ((c.goto u (.acquiring .lock)).set t ((c.thread t).afterRelease b))
  /-- `notify_one` while nobody sleeps. -/
  | notifyNone (c : Polling T) (t : T) (b : Option Bool)
    (hp : (c.thread t).place = .releasing b .notify)
    (hn : ∀ u, (c.thread u).place ≠ .acquiring .asleep) :
    Step p c (c.set t ((c.thread t).afterRelease b))
  | leavePolled (c : Polling T) (t : T) (b : Bool) (hp : (c.thread t).place = .polled b)
    (hs : c.stop = true) : Step p c (c.goto t .left)
  | emptyPoll (c : Polling T) (t : T) (hp : (c.thread t).place = .polled false)
    (hs : c.stop = false) : Step p c (c.goto t .head)
  | handle (c : Polling T) (t : T) (hp : (c.thread t).place = .polled true)
    (hs : c.stop = false) : Step p c (c.goto t .handling)
  /-- The task is handled, or dropped because the worker drains. -/
  | handled (c : Polling T) (t : T) (hp : (c.thread t).place = .handling) :
    Step p c (c.goto t .head)
  /-- The rate limiter or the gate was stopped. -/
  | breaks (c : Polling T) (t : T) (hp : (c.thread t).place = .handling) :
    Step p c (c.goto t .left)
  | catchRelease (c : Polling T) (t : T) (hp : (c.thread t).place = .thrown)
    (ht : p.scalable t = true) (hr : (c.thread t).slotReleased = false) :
    Step p c (c.goto t (.releasing none .lock))
  | catchKeep (c : Polling T) (t : T) (hp : (c.thread t).place = .thrown)
    (hr : p.scalable t = false ∨ (c.thread t).slotReleased = true) :
    Step p c (c.goto t .caught)
  | leaveCaught (c : Polling T) (t : T) (hp : (c.thread t).place = .caught)
    (hs : c.stop = true) : Step p c (c.goto t .left)
  | retry (c : Polling T) (t : T) (hp : (c.thread t).place = .caught) (hs : c.stop = false) :
    Step p c (c.goto t .head)
  /-- `Stop` stores `stop_`. -/
  | storeStop (c : Polling T) (hw : c.woken = false) : Step p c { c with stop := true }
  /-- `Stop` calls `Wake`, which notifies without the mutex. -/
  | wakeOnStop (c : Polling T) (hs : c.stop = true) (hw : c.woken = false) :
    Step p c { c.wakeAll with woken := true }

/-- A configured scaler with every loop about to begin. -/
def init (s : PollerScaler) : Polling T := { scaler := s }

def Reachable (p : PollerPool T) (s : PollerScaler) (c : Polling T) : Prop :=
  Relation.ReflTransGen (Step p) (init s) c

end Polling

/-- At which places a thread holds a slot, and what `slot_released` says of it. The `catch` block
relies on the flag alone. -/
def PollPlace.Fits (scalable slotReleased busy : Bool) : PollPlace → Prop
  | .polling | .reporting _ _ | .reported _ => slotReleased = !scalable ∧ busy = scalable
  | .releasing _ .notify => busy = false
  | .releasing _ _ => scalable = true ∧ busy = true
  | .polled _ | .handling => slotReleased = true ∧ busy = false
  | .thrown => busy = (scalable && !slotReleased)
  | .acquiring _ => scalable = true ∧ busy = false
  | .head | .caught | .left => busy = false

/-- The flag tells the `catch` block whether the slot is still held. -/
theorem PollPlace.Fits.thrown {scalable slotReleased busy : Bool} {q : PollPlace}
    (h : q.Fits scalable slotReleased busy) (hq : q.mayThrow = true) :
    PollPlace.thrown.Fits scalable slotReleased busy := by
  cases q <;> simp_all [PollPlace.Fits, mayThrow]

theorem PollPlace.Fits.scalable_of_busy {scalable slotReleased : Bool} {q : PollPlace}
    (h : q.Fits scalable slotReleased true) : scalable = true := by
  cases q with
  | releasing b s => cases s <;> simp_all [PollPlace.Fits]
  | _ => simp_all [PollPlace.Fits]

def PollThread.Fits (scalable : Bool) (x : PollThread) : Prop :=
  x.place.Fits scalable x.slotReleased x.busy

/-- Every iteration but the current one has given its slot back once, the current one at most
once. -/
def PollThread.Once (x : PollThread) : Prop :=
  (∀ n ∈ x.released.tail, n = 1) ∧ ∀ n ∈ x.released, n ≤ 1

/-- The state of a scaler and its threads. -/
structure ScalerSound {T : Type} [Fintype T] (p : PollerPool T) (s : PollerScaler)
    (thread : T → PollThread) : Prop where
  exclusive : Exclusive PollThread.holds thread
  active : s.scalableActive = total (fun x : PollThread => x.busy.toNat) thread
  range : s.InRange
  fits : ∀ t, (thread t).Fits (p.scalable t)
  once : ∀ t, (thread t).Once

namespace PollThread

variable {x : PollThread}

@[simp] theorem holds_awake (x : PollThread) : x.awake.holds = x.holds := by
  obtain ⟨p, _, _⟩ := x
  cases p <;> simp [awake, holds, PollPlace.awake, PollPlace.holds]

theorem Fits.awake {b : Bool} (h : x.Fits b) : x.awake.Fits b := by
  obtain ⟨p, _, _⟩ := x
  cases p <;> exact h

/-- A thread that holds no slot has given back every slot it took. -/
theorem Once.all_one (h : x.Once) (hb : x.busy = false) : ∀ n ∈ x.released, n = 1 := by
  obtain ⟨htail, hle⟩ := h
  unfold busy at hb
  cases hr : x.released with
  | nil => simp
  | cons k l =>
    rw [hr] at htail hle hb
    intro n hn
    rcases List.mem_cons.mp hn with rfl | hn
    · have := hle n List.mem_cons_self
      simp at hb
      omega
    · exact htail n hn

/-- A slot is taken. -/
theorem Once.take (h : x.Once) (hb : x.busy = false) (q : PollPlace) (f : Bool) :
    Once ⟨q, f, 0 :: x.released⟩ := by
  have hall := h.all_one hb
  refine ⟨hall, fun n hn => ?_⟩
  rcases List.mem_cons.mp hn with rfl | hn
  · exact Nat.zero_le 1
  · exact (hall n hn).le

theorem released_of_busy (hb : x.busy = true) : ∃ l, x.released = 0 :: l := by
  unfold busy at hb
  cases hr : x.released with
  | nil => simp [hr] at hb
  | cons k l =>
    simp only [hr, List.head?_cons, Option.some.injEq, decide_eq_true_eq] at hb
    exact ⟨l, by rw [hb]⟩

end PollThread

namespace ScalerSound

variable {T : Type} [Fintype T] [DecidableEq T] {p : PollerPool T} {s s' : PollerScaler}
  {thread : T → PollThread}

/-- A thread goes on with the slot it has. -/
theorem move (h : ScalerSound p s thread) {t : T} {x : PollThread}
    (hr : x.released = (thread t).released)
    (hholds : x.holds = true → Free PollThread.holds thread ∨ (thread t).holds = true)
    (hfits : x.Fits (p.scalable t)) : ScalerSound p s (Function.update thread t x) where
  exclusive := by
    by_cases hx : x.holds = true
    · rcases hholds hx with hfree | hold
      · exact Exclusive.lock hfree t x
      · exact h.exclusive.move fun _ => hold
    · exact h.exclusive.move fun hh => absurd hh hx
  active := by
    rw [h.active, total_update_of_eq (f := fun x : PollThread => x.busy.toNat)]
    simp [PollThread.busy, hr]
  range := h.range
  fits u := by
    by_cases hu : u = t
    · subst hu
      rwa [Function.update_self]
    · rw [Function.update_of_ne hu]
      exact h.fits u
  once u := by
    by_cases hu : u = t
    · subst hu
      rw [Function.update_self, PollThread.Once, hr]
      exact h.once u
    · rw [Function.update_of_ne hu]
      exact h.once u

/-- A thread changes the scaler. -/
theorem act (h : ScalerSound p s thread) {t : T} {x : PollThread} (hx : x.holds = false)
    (hactive : s'.scalableActive + (thread t).busy.toNat = s.scalableActive + x.busy.toNat)
    (hrange : s'.InRange) (hfits : x.Fits (p.scalable t)) (honce : x.Once) :
    ScalerSound p s' (Function.update thread t x) where
  exclusive := h.exclusive.move fun hh => by rw [hx] at hh; cases hh
  active := by
    have htotal := total_update (fun x : PollThread => x.busy.toNat) thread t x
    have hold := h.active
    omega
  range := hrange
  fits u := by
    by_cases hu : u = t
    · subst hu
      rwa [Function.update_self]
    · rw [Function.update_of_ne hu]
      exact h.fits u
  once u := by
    by_cases hu : u = t
    · subst hu
      rwa [Function.update_self]
    · rw [Function.update_of_ne hu]
      exact h.once u

omit [DecidableEq T] in
/-- A notification. -/
theorem awake (h : ScalerSound p s thread) : ScalerSound p s fun t => (thread t).awake where
  exclusive := h.exclusive.map PollThread.holds_awake
  active := by
    rw [h.active]
    have := total_map (f := fun x : PollThread => x.busy.toNat) (g := PollThread.awake)
      (fun _ => rfl) thread
    rw [this]
  range := h.range
  fits t := (h.fits t).awake
  once := h.once

omit [DecidableEq T] in
theorem fits_at (h : ScalerSound p s thread) {t : T} {q : PollPlace} (hp : (thread t).place = q) :
    q.Fits (p.scalable t) (thread t).slotReleased (thread t).busy := by
  rw [← hp]
  exact h.fits t

/-- A thread goes from place to place. -/
theorem goto (h : ScalerSound p s thread) {t : T} {q q' : PollPlace}
    (hp : (thread t).place = q)
    (hholds : q'.holds = true → Free PollThread.holds thread ∨ q.holds = true)
    (hfits : q.Fits (p.scalable t) (thread t).slotReleased (thread t).busy →
      q'.Fits (p.scalable t) (thread t).slotReleased (thread t).busy) :
    ScalerSound p s (Function.update thread t { thread t with place := q' }) := by
  refine h.move rfl (fun hh => (hholds hh).imp_right fun hq => ?_) (hfits (h.fits_at hp))
  rw [PollThread.holds, hp, hq]

/-- `Release` of a thread that holds a slot. -/
theorem release (h : ScalerSound p s thread) {t : T} {b : Option Bool}
    (hp : (thread t).place = .releasing b .act) :
    ScalerSound p s.release (Function.update thread t { thread t with
      place := .releasing b .notify
      released := (thread t).released.modifyHead (· + 1) }) := by
  obtain ⟨-, hbusy⟩ : p.scalable t = true ∧ (thread t).busy = true := h.fits_at hp
  obtain ⟨l, hl⟩ := PollThread.released_of_busy hbusy
  have hone : 1 ≤ total (fun x : PollThread => x.busy.toNat) thread := by
    have hle := le_total (fun x : PollThread => x.busy.toNat) thread t
    simpa [hbusy] using hle
  have hpos : s.scalableActive > 0 := by
    have := h.active
    omega
  have honce := h.once t
  rw [PollThread.Once, hl] at honce
  rw [hl]
  refine h.act rfl ?_ ⟨h.range.1, h.range.2, h.range.3, h.range.4⟩ rfl ?_
  · rw [hbusy]
    simp [PollerScaler.release, if_pos hpos, PollThread.busy]
  · refine ⟨honce.1, fun n hn => ?_⟩
    rcases List.mem_cons.mp hn with rfl | hn
    · rfl
    · exact honce.2 n (List.mem_cons_of_mem _ hn)

/-- A thread comes back from `Release`. -/
theorem afterRelease (h : ScalerSound p s thread) {t : T} {b : Option Bool}
    (hp : (thread t).place = .releasing b .notify) :
    ScalerSound p s (Function.update thread t ((thread t).afterRelease b)) := by
  have hbusy : (thread t).busy = false := h.fits_at hp
  cases b with
  | none => exact h.move rfl nofun hbusy
  | some gotTask => exact h.move rfl nofun ⟨rfl, hbusy⟩

/-- One step of any thread, or of `Stop`. -/
theorem step {c c' : Polling T} (h : ScalerSound p c.scaler c.thread)
    (hs : Polling.Step p c c') : ScalerSound p c'.scaler c'.thread := by
  cases hs with
  | leave t hp hs => exact h.goto hp nofun id
  | callAcquire t hp hs ht => exact h.goto hp nofun fun hb => ⟨ht, hb⟩
  | pollHot t hp hs ht =>
    have hbusy : (c.thread t).busy = false := h.fits_at hp
    exact h.move rfl nofun ⟨by rw [ht]; rfl, hbusy.trans ht.symm⟩
  | lockAcquire t hp hf => exact h.goto hp (fun _ => .inl hf) id
  | acquirePass t hp hpass => exact h.goto hp (fun _ => .inr rfl) id
  | acquireFail t hp hpass => exact h.goto hp (fun _ => .inr rfl) id
  | sleep t hp => exact h.goto hp nofun id
  | wake t hp => exact h.goto hp nofun id
  | acquireStopped t hp hs => exact h.goto hp nofun And.right
  | acquire t hp hs =>
    obtain ⟨hsc, hbusy⟩ : p.scalable t = true ∧ (c.thread t).busy = false := h.fits_at hp
    refine h.act rfl ?_ ⟨h.range.1, h.range.2, h.range.3, h.range.4⟩ ?_ ((h.once t).take hbusy _ _)
    · rw [hbusy]
      simp [PollerScaler.acquire, PollThread.busy]
    · rw [hsc]
      exact ⟨rfl, rfl⟩
  | pollReturns t gotTask hp =>
    cases hsc : p.scale with
    | false => exact h.goto hp nofun id
    | true => exact h.goto hp nofun id
  | throws t hp =>
    exact h.goto rfl nofun fun hf => hf.thrown hp
  | lockReport t gotTask hp hf => exact h.goto hp (fun _ => .inl hf) id
  | report t gotTask hp =>
    have hfit := h.fits_at hp
    have hactive : (c.scaler.report gotTask).scalableActive + (c.thread t).busy.toNat =
        c.scaler.scalableActive + (c.thread t).busy.toNat := by simp
    cases hr : c.scaler.raises gotTask with
    | false => exact h.act rfl hactive (h.range.report gotTask) hfit (h.once t)
    | true => exact h.awake.act rfl hactive (h.range.report gotTask) hfit (h.once t)
  | callRelease t gotTask hp ht => exact h.goto hp nofun fun hf => ⟨ht, hf.2.trans ht⟩
  | keepPolling t gotTask hp ht =>
    refine h.goto hp nofun fun hf => ⟨?_, hf.2.trans ht⟩
    rw [hf.1, ht]
    rfl
  | lockRelease t b hp hf => exact h.goto hp (fun _ => .inl hf) id
  | release t b hp => exact h.release hp
  | notifyOne t u b hp hu =>
    have hne : t ≠ u := by
      rintro rfl
      rw [hp] at hu
      cases hu
    have hwake : ScalerSound p c.scaler
        (Function.update c.thread u { c.thread u with place := .acquiring .lock }) :=
      h.goto hu nofun id
    have hstay : Function.update c.thread u { c.thread u with place := .acquiring .lock } t =
        c.thread t := Function.update_of_ne hne _ _
    have hback := hwake.afterRelease (t := t) (b := b) (by rw [hstay, hp])
    rwa [hstay] at hback
  | notifyNone t b hp hn => exact h.afterRelease hp
  | leavePolled t b hp hs => exact h.goto hp nofun And.right
  | emptyPoll t hp hs => exact h.goto hp nofun And.right
  | handle t hp hs => exact h.goto hp nofun id
  | handled t hp => exact h.goto hp nofun And.right
  | breaks t hp => exact h.goto hp nofun And.right
  | catchRelease t hp ht hr =>
    refine h.goto hp nofun fun hf => ?_
    rw [PollPlace.Fits, ht, hr] at hf
    exact ⟨ht, hf⟩
  | catchKeep t hp hr =>
    refine h.goto hp nofun fun hf => ?_
    change (c.thread t).busy = false
    rw [PollPlace.Fits] at hf
    rcases hr with hr | hr <;> simpa [hr] using hf
  | leaveCaught t hp hs => exact h.goto hp nofun id
  | retry t hp hs => exact h.goto hp nofun id
  | storeStop hw => exact h
  | wakeOnStop hs hw => exact h.awake

omit [DecidableEq T] in
theorem init {hot max idle : Int} (hmax : 0 ≤ max) :
    ScalerSound p (.configure hot max idle) fun _ => {} where
  exclusive := Free.exclusive fun _ => rfl
  active := by simp [total, PollThread.busy, PollerScaler.configure]
  range := .configure hmax
  fits _ := rfl
  once _ := ⟨nofun, nofun⟩

theorem of_reachable {hot max idle : Int} (hmax : 0 ≤ max) {c : Polling T}
    (h : Polling.Reachable p (.configure hot max idle) c) : ScalerSound p c.scaler c.thread :=
  invariant_of_step (I := fun c : Polling T => ScalerSound p c.scaler c.thread)
    (fun _ _ h hs => h.step hs) (init hmax) h

end ScalerSound

namespace Polling

variable {T : Type} [DecidableEq T] {p : PollerPool T}

/-- No step changes what `Configure` set. -/
theorem Step.config_eq {c c' : Polling T} (hs : Step p c c') :
    c'.scaler.alwaysHot = c.scaler.alwaysHot ∧ c'.scaler.maxScalable = c.scaler.maxScalable := by
  cases hs <;> first
    | exact ⟨rfl, rfl⟩
    | exact ⟨PollerScaler.report_alwaysHot _ _, PollerScaler.report_maxScalable _ _⟩

theorem Reachable.config_eq {s : PollerScaler} {c : Polling T} (h : Reachable p s c) :
    c.scaler.alwaysHot = s.alwaysHot ∧ c.scaler.maxScalable = s.maxScalable :=
  invariant_of_step (I := fun c : Polling T =>
      c.scaler.alwaysHot = s.alwaysHot ∧ c.scaler.maxScalable = s.maxScalable)
    (fun _ _ hc hs => ⟨hs.config_eq.1.trans hc.1, hs.config_eq.2.trans hc.2⟩) ⟨rfl, rfl⟩ h

/-- What autoscaling promises: the pool is made up of hot and scalable threads, the scaler's
numbers stay in their ranges, the active slots are those of the scalable threads between a
successful `Acquire` and its `Release`, and each iteration that took a slot gives it back exactly
once before the loop begins anew or ends. -/
structure Autoscaled [Fintype T] (p : PollerPool T) (c : Polling T) : Prop where
  launched : c.scaler.alwaysHot + p.scalableThreads.card = Fintype.card T
  maxScalable : c.scaler.maxScalable = p.scalableThreads.card
  target : 0 ≤ c.scaler.target ∧ c.scaler.target ≤ c.scaler.maxScalable
  active : 0 ≤ c.scaler.scalableActive ∧ c.scaler.scalableActive ≤ c.scaler.maxScalable
  streak : c.scaler.emptyStreak < c.scaler.emptyThreshold
  slots : c.scaler.scalableActive =
    (p.scalableThreads.filter fun t => (c.thread t).busy = true).card
  once : ∀ t, (∀ n ∈ (c.thread t).released.tail, n = 1) ∧ ∀ n ∈ (c.thread t).released, n ≤ 1
  released : ∀ t, (c.thread t).place = .head ∨ (c.thread t).place = .left →
    ∀ n ∈ (c.thread t).released, n = 1

end Polling

namespace WorkerOptions

variable (o : WorkerOptions) (k : PollerKind)

/-- The loops of one kind. -/
def pool : PollerPool (Fin (o.launched k).length) where
  scale := o.enablePollerAutoscaling
  scalable t := o.scalable (o.launched k)[t]

theorem one_le_base : 1 ≤ o.base k := by
  cases k <;> unfold base <;> dsimp only <;> split_ifs <;> omega

theorem one_le_poolSize : 1 ≤ o.poolSize k := by
  have := o.one_le_base k
  unfold poolSize
  split_ifs <;> omega

/-- The hot pollers among those of one queue. -/
theorem minHot_le_poolSize : o.minHot ≤ o.poolSize k := by
  have := o.one_le_base k
  rw [poolSize]
  split_ifs with hs
  · exact le_max_right _ _
  · rw [minHot, if_neg hs]
    omega

/-- How many positions of a pool are scalable. -/
theorem countP_scalable_range (n : ℕ) (b : Bool) :
    (List.range n).countP (fun i => o.scalable ⟨b, i⟩) =
      if o.enablePollerAutoscaling then n - o.minHot.toNat else 0 := by
  induction n with
  | zero => simp
  | succ n ih =>
    rw [List.range_succ, List.countP_append, ih, List.countP_singleton]
    by_cases hs : o.enablePollerAutoscaling = true
    · simp only [hs, scalable, minHot, if_true, Bool.true_and, decide_eq_true_eq]
      split_ifs <;> omega
    · simp [hs, scalable]

theorem countP_scalable_launched :
    ((o.launched k).countP o.scalable : Int) = o.maxScalable k := by
  have hle := o.minHot_le_poolSize k
  have hone := o.one_le_poolSize k
  have hnonneg : 0 ≤ o.minHot := by
    unfold minHot
    split_ifs <;> omega
  have hrange (b : Bool) := o.countP_scalable_range (o.poolSize k).toNat b
  cases k with
  | workflow =>
    have hpairs (l : List ℕ) :
        (l.flatMap fun i => [Poller.mk false i, ⟨true, i⟩]).countP o.scalable =
        l.countP (fun i => o.scalable ⟨false, i⟩) + l.countP fun i => o.scalable ⟨true, i⟩ := by
      induction l with
      | nil => rfl
      | cons i l ih =>
        simp only [List.flatMap_cons, List.countP_append, ih, List.countP_cons, List.countP_nil]
        omega
    rw [launched, hpairs, hrange, hrange, maxScalable, alwaysHot]
    split_ifs with hs
    · omega
    · simp
  | activity =>
    rw [launched, List.countP_map, maxScalable, alwaysHot]
    have := hrange false
    rw [Function.comp_def, this]
    split_ifs with hs
    · omega
    · simp

theorem length_launched :
    ((o.launched k).length : Int) = o.alwaysHot k + o.maxScalable k := by
  have hone := o.one_le_poolSize k
  cases k with
  | workflow =>
    have hlen : (o.launched .workflow).length = 2 * (o.poolSize .workflow).toNat := by
      simp [launched, List.length_flatMap]
      omega
    rw [hlen, maxScalable]
    omega
  | activity =>
    rw [launched, List.length_map, List.length_range, maxScalable]
    omega

/-- The scalable threads, counted over the pool. -/
theorem card_scalable :
    (o.pool k).scalableThreads.card = (o.launched k).countP o.scalable := by
  have hsum (l : List Poller) : (l.map fun x => if o.scalable x = true then 1 else 0).sum =
      l.countP o.scalable := by
    induction l with
    | nil => rfl
    | cons x l ih =>
      rw [List.map_cons, List.sum_cons, ih, List.countP_cons]
      omega
  rw [PollerPool.scalableThreads, Finset.card_filter, ← hsum]
  exact Fin.sum_univ_fun_getElem (o.launched k) fun x => if o.scalable x = true then 1 else 0

/-- Whatever the options, the pools and the scaler agree in every reachable state. -/
theorem autoscaled_of_reachable {c : Polling (Fin (o.launched k).length)}
    (h : Polling.Reachable (o.pool k) (o.scaler k) c) : c.Autoscaled (o.pool k) := by
  have hcount := o.countP_scalable_launched k
  have hcard := o.card_scalable k
  have hmax : 0 ≤ o.maxScalable k := by omega
  have hs := ScalerSound.of_reachable hmax h
  obtain ⟨hhot, hscalable⟩ := h.config_eq
  have hsame : c.scaler.maxScalable = (o.pool k).scalableThreads.card := by
    rw [hscalable, hcard, hcount]
    rfl
  have hactive : c.scaler.scalableActive =
      ((o.pool k).scalableThreads.filter fun t => (c.thread t).busy = true).card := by
    rw [hs.active, total, PollerPool.scalableThreads, Finset.filter_filter, Finset.card_filter]
    congr 1
    refine Finset.sum_congr rfl fun t _ => ?_
    cases hb : (c.thread t).busy with
    | false => simp
    | true =>
      have hfit := hs.fits t
      rw [PollThread.Fits, hb] at hfit
      simp [hfit.scalable_of_busy]
  exact {
    launched := by
      rw [hhot, ← hsame, hscalable, Fintype.card_fin, o.length_launched k]
      rfl
    maxScalable := hsame
    target := ⟨hs.range.target_nonneg, hs.range.target_le⟩
    active := by
      have hle := Finset.card_filter_le (o.pool k).scalableThreads fun t => (c.thread t).busy = true
      omega
    streak := hs.range.streak_lt
    slots := hactive
    once := fun t => hs.once t
    released := fun t ht => by
      refine (hs.once t).all_one ?_
      rcases ht with ht | ht <;> exact hs.fits_at ht }

/-- One hot and one scalable poller for each workflow queue. -/
def onePair : WorkerOptions := { enablePollerAutoscaling := true, maxConcurrentPollers := 2 }

def onePairThread (i : Fin 4) : Fin (onePair.launched .workflow).length := i.cast (by decide)

/-- A hot poller reports a task, and a scalable one takes the slot that this opens. -/
theorem autoscaled_after_task :
    ∃ c : Polling (Fin (onePair.launched .workflow).length),
      Polling.Reachable (onePair.pool .workflow) (onePair.scaler .workflow) c ∧
      c.scaler.target = 1 ∧ c.scaler.scalableActive = 1 ∧
      (c.thread (onePairThread 2)).busy = true ∧ c.Autoscaled (onePair.pool .workflow) := by
  have h₁ : Polling.Reachable (onePair.pool .workflow) (onePair.scaler .workflow) _ :=
    .tail (.tail (.tail (.tail .refl (.pollHot _ (onePairThread 0) rfl rfl (by decide)))
      (.pollReturns _ (onePairThread 0) true rfl))
      (.lockReport _ (onePairThread 0) true rfl (by decide))) (.report _ (onePairThread 0) true rfl)
  have h₂ : Polling.Reachable (onePair.pool .workflow) (onePair.scaler .workflow) _ :=
    .tail (.tail (.tail (.tail h₁ (.callAcquire _ (onePairThread 2) rfl rfl (by decide)))
      (.lockAcquire _ (onePairThread 2) rfl (by decide)))
      (.acquirePass _ (onePairThread 2) rfl (by decide))) (.acquire _ (onePairThread 2) rfl rfl)
  exact ⟨_, h₂, by decide, by decide, by decide, autoscaled_of_reachable onePair .workflow h₂⟩

end WorkerOptions

namespace Polling

variable {T : Type} [DecidableEq T] {p : PollerPool T}

/-- If the step is `Wake`, it finds no `Acquire` between its failed test and its sleep. -/
def WakesClear (c c' : Polling T) : Prop :=
  c.woken = false → c'.woken = true → ∀ t, (c.thread t).place ≠ .acquiring .park

/-- Once `Wake` has returned nobody sleeps in `Acquire`, nor is about to. -/
structure Roused (stop woken : Bool) (thread : T → PollThread) : Prop where
  stopped : woken = true → stop = true
  parked : woken = true → ∀ t, (thread t).place.parks = false

namespace Roused

variable {stop woken : Bool} {thread : T → PollThread} {c c' : Polling T}

/-- A thread moves. -/
theorem move (h : Roused stop woken thread) {t : T} {x : PollThread}
    (hx : woken = true → x.place.parks = false) :
    Roused stop woken (Function.update thread t x) where
  stopped := h.stopped
  parked hw u := by
    by_cases hu : u = t
    · subst hu
      rw [Function.update_self]
      exact hx hw
    · rw [Function.update_of_ne hu]
      exact h.parked hw u

omit [DecidableEq T] in
theorem awake (h : Roused stop woken thread) : Roused stop woken fun t => (thread t).awake where
  stopped := h.stopped
  parked hw t := PollPlace.parks_awake (h.parked hw t)

/-- One step, if `Wake` comes at a clear moment: after it the test of `Acquire` sees `stop_`. -/
theorem step (h : Roused c.stop c.woken c.thread) (hs : Step p c c') (hclear : WakesClear c c') :
    Roused c'.stop c'.woken c'.thread := by
  cases hs with
  | acquireFail t hp hpass =>
    refine h.move fun hw => ?_
    rw [h.stopped hw] at hpass
    cases hpass
  | sleep t hp =>
    refine h.move fun hw => ?_
    have hpark := h.parked hw t
    rw [hp] at hpark
    cases hpark
  | pollReturns t gotTask hp => cases p.scale <;> exact h.move fun _ => rfl
  | acquire t hp hs => exact h.move fun _ => rfl
  | report t gotTask hp =>
    cases hr : c.scaler.raises gotTask with
    | false => exact h.move fun _ => rfl
    | true => exact h.awake.move fun _ => rfl
  | release t b hp => exact h.move fun _ => rfl
  | notifyOne t u b hp hu =>
    have hwoken := h.move (t := u) (x := { c.thread u with place := .acquiring .lock }) fun _ => rfl
    refine hwoken.move fun _ => ?_
    cases b <;> rfl
  | notifyNone t b hp hn =>
    refine h.move fun _ => ?_
    cases b <;> rfl
  | storeStop hw => exact ⟨fun _ => rfl, h.parked⟩
  | wakeOnStop hs hw =>
    refine ⟨fun _ => hs, fun _ t => ?_⟩
    exact PollPlace.parks_awake_of_ne_park (hclear hw rfl t)
  | _ => exact h.move fun _ => rfl

end Roused

/-- If `Wake` always comes at a clear moment, then in every state with `stop_` set and `Wake`
returned nobody sleeps in `Acquire`, or is about to. -/
theorem nobody_parked_of_wakesClear {s : PollerScaler} {c : Polling T}
    (h : Relation.ReflTransGen (fun a b => Step p a b ∧ WakesClear a b) (init s) c)
    (hw : c.woken = true) (t : T) :
    (c.thread t).place ≠ .acquiring .park ∧ (c.thread t).place ≠ .acquiring .asleep := by
  have hinit : Roused false false (init s : Polling T).thread := by
    constructor <;> (intro h; cases h)
  have hr : Roused c.stop c.woken c.thread :=
    invariant_of_step (I := fun c : Polling T => Roused c.stop c.woken c.thread)
      (fun _ _ hc hs => hc.step hs.1 hs.2) hinit h
  have hparked := hr.parked hw t
  constructor <;> (intro hp; rw [hp] at hparked; cases hparked)

/-- A hot and a scalable poller. -/
def twoPollers : PollerPool (Fin 2) where
  scale := true
  scalable := ![false, true]

/-- The scalable poller sleeps when `Stop` comes, and is woken. -/
theorem sleeper_woken_on_stop : ∃ c : Polling (Fin 2),
    Relation.ReflTransGen (fun a b => Step twoPollers a b ∧ WakesClear a b)
      (init (.configure 1 1 1)) c ∧ c.woken = true ∧ (c.thread 1).place = .acquiring .lock ∧
    (c.thread 0).place ≠ .acquiring .asleep ∧ (c.thread 1).place ≠ .acquiring .asleep := by
  have h₁ : Relation.ReflTransGen (fun a b => Step twoPollers a b ∧ WakesClear a b)
      (init (.configure 1 1 1)) _ :=
    .tail (.tail (.tail (.tail .refl ⟨.callAcquire _ 1 rfl rfl rfl, fun _ h => by cases h⟩)
      ⟨.lockAcquire _ 1 rfl (by decide), fun _ h => by cases h⟩)
      ⟨.acquireFail _ 1 rfl (by decide), fun _ h => by cases h⟩)
      ⟨.sleep _ 1 rfl, fun _ h => by cases h⟩
  have h₂ := Relation.ReflTransGen.tail (h₁.tail ⟨.storeStop _ rfl, fun _ h => by cases h⟩)
    ⟨.wakeOnStop _ rfl rfl, fun _ _ => by decide⟩
  exact ⟨_, h₂, rfl, rfl, (nobody_parked_of_wakesClear h₂ rfl 0).2,
    (nobody_parked_of_wakesClear h₂ rfl 1).2⟩

/-- Where every loop has left or sleeps and `Stop` has done its part, all that can happen is a
spurious wake-up. -/
theorem spurious_of_quiet {c c' : Polling T} (hw : c.woken = true)
    (hq : ∀ t, (c.thread t).place = .left ∨ (c.thread t).place = .acquiring .asleep)
    (hs : Step p c c') :
    ∃ t, (c.thread t).place = .acquiring .asleep ∧ c' = c.goto t (.acquiring .lock) := by
  cases hs with
  | wake t hp => exact ⟨t, hp, rfl⟩
  | storeStop h => rw [hw] at h; cases h
  | wakeOnStop _ h => rw [hw] at h; cases h
  | throws t hp => rcases hq t with ht | ht <;> rw [ht] at hp <;> cases hp
  | notifyOne t u b hp hu => rcases hq t with ht | ht <;> rw [ht] at hp <;> cases hp
  | leave t hp | callAcquire t hp | pollHot t hp | lockAcquire t hp | acquirePass t hp
  | acquireFail t hp | sleep t hp | acquireStopped t hp | acquire t hp | pollReturns t b hp
  | lockReport t b hp | report t b hp | callRelease t b hp | keepPolling t b hp
  | lockRelease t b hp | release t b hp | notifyNone t b hp | leavePolled t b hp | emptyPoll t hp
  | handle t hp | handled t hp | breaks t hp | catchRelease t hp | catchKeep t hp
  | leaveCaught t hp | retry t hp => rcases hq t with ht | ht <;> rw [ht] at hp <;> cases hp

/-- The scalable poller tests before `stop_` is stored and falls asleep after `Wake`. The other one
has left, and nothing but a spurious wake-up can happen any more. -/
theorem wake_lost : ∃ c : Polling (Fin 2), Reachable twoPollers (.configure 1 1 1) c ∧
    c.stop = true ∧ c.woken = true ∧ (c.thread 0).place = .left ∧
    (c.thread 1).place = .acquiring .asleep ∧
    ∀ c', Step twoPollers c c' → c' = c.goto 1 (.acquiring .lock) := by
  have h₁ : Reachable twoPollers (.configure 1 1 1) _ :=
    .tail (.tail (.tail .refl (.callAcquire _ 1 rfl rfl rfl)) (.lockAcquire _ 1 rfl (by decide)))
      (.acquireFail _ 1 rfl (by decide))
  have h₂ : Reachable twoPollers (.configure 1 1 1) _ :=
    .tail (.tail (.tail (.tail h₁ (.storeStop _ rfl)) (.wakeOnStop _ rfl rfl)) (.sleep _ 1 rfl))
      (.leave _ 0 rfl rfl)
  refine ⟨_, h₂, rfl, rfl, rfl, rfl, fun c' hs => ?_⟩
  obtain ⟨t, ht, rfl⟩ := spurious_of_quiet rfl (Fin.forall_fin_two.mpr ⟨Or.inl rfl, Or.inr rfl⟩) hs
  match t, ht with
  | 0, ht => cases ht
  | 1, _ => rfl

end Polling
end TemporalSdk
