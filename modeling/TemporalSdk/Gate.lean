import TemporalSdk.Lib.Monitor

/-! `ConcurrencyGate` and `GateGuard` (`internal/worker_impl.h`) under any number of threads. -/
namespace TemporalSdk
open Monitor

/-- `ConcurrencyGate`. A limit that is not positive means unlimited. -/
structure ConcurrencyGate where
  limit : Int
  inFlight : Nat := 0
  released : Bool := false
  deriving DecidableEq, Repr

namespace ConcurrencyGate

/-- What `Acquire` waits for; an unlimited gate does not wait. -/
def mayPass (g : ConcurrencyGate) : Bool :=
  g.limit ≤ 0 || g.released || (g.inFlight : Int) < g.limit

/-- `Acquire` once its wait is over. -/
def acquire (g : ConcurrencyGate) : ConcurrencyGate × Bool :=
  if g.limit ≤ 0 then ({ g with inFlight := g.inFlight + 1 }, true)
  else if g.released then (g, false)
  else ({ g with inFlight := g.inFlight + 1 }, true)

def release (g : ConcurrencyGate) : ConcurrencyGate :=
  { g with inFlight := if 0 < g.inFlight then g.inFlight - 1 else g.inFlight }

def releaseAll (g : ConcurrencyGate) : ConcurrencyGate := { g with released := true }

/-- A grant takes one permit, a refusal none. -/
theorem acquire_cases (g : ConcurrencyGate) :
    (g.acquire = ({ g with inFlight := g.inFlight + 1 }, true) ∧
      (g.limit ≤ 0 ∨ g.released = false)) ∨
    (g.acquire = (g, false) ∧ 0 < g.limit ∧ g.released = true) := by
  unfold acquire
  split
  · next h => exact .inl ⟨rfl, .inl h⟩
  · next h =>
    split
    · next hr => exact .inr ⟨rfl, by omega, hr⟩
    · next hr => exact .inl ⟨rfl, .inr (by simpa using hr)⟩

@[simp] theorem acquire_limit (g : ConcurrencyGate) : g.acquire.1.limit = g.limit := by
  rcases g.acquire_cases with ⟨h, -⟩ | ⟨h, -⟩ <;> rw [h]

@[simp] theorem acquire_released (g : ConcurrencyGate) : g.acquire.1.released = g.released := by
  rcases g.acquire_cases with ⟨h, -⟩ | ⟨h, -⟩ <;> rw [h]

/-- Taking a permit lets nobody pass who could not pass before. -/
theorem mayPass_of_acquire {g : ConcurrencyGate} (h : g.acquire.1.mayPass = true) :
    g.mayPass = true := by
  rcases g.acquire_cases with ⟨he, -⟩ | ⟨he, -⟩ <;> rw [he] at h
  · simp only [mayPass, Bool.or_eq_true, decide_eq_true_eq, Int.natCast_add] at h ⊢
    rcases h with h | h
    · exact .inl h
    · exact .inr (by omega)
  · exact h

end ConcurrencyGate

/-- The methods of the gate. `late` calls started after some `ReleaseAll` had returned. -/
inductive GateMethod where
  | acquire (late : Bool)
  | release
  | releaseAll
  | drain (late : Bool)
  deriving DecidableEq, Repr

/-- Where a thread is: in its own code, out of its loop, or in a method. -/
inductive GatePlace where
  | running
  | left
  | inside (m : GateMethod) (s : Stage)
  deriving DecidableEq, Repr

/-- The thread came after `released_` was set. -/
def GatePlace.late : GatePlace → Bool
  | .inside (.acquire late) _ | .inside (.drain late) _ => late
  | .inside .releaseAll .notify => true
  | _ => false

def GatePlace.holds : GatePlace → Bool
  | .inside _ s => s.holds
  | _ => false

def GatePlace.awake : GatePlace → GatePlace
  | .inside m s => .inside m s.awake
  | p => p

/-- A thread with its live `GateGuard`s, each with its flag `held_`. A guard is initialised by
the result of `Acquire` in the same expression, and lives until its destructor has released. -/
structure GateThread where
  place : GatePlace := .running
  guards : List Bool := []
  deriving DecidableEq, Repr

def GateThread.holds (t : GateThread) : Bool := t.place.holds

def GateThread.awake (t : GateThread) : GateThread := { t with place := t.place.awake }

/-- The permits a thread holds. -/
def GateThread.permits (t : GateThread) : ℕ := t.guards.count true

@[simp] theorem GatePlace.late_awake (p : GatePlace) : p.awake.late = p.late := by
  rcases p with _ | _ | ⟨m, s⟩
  · rfl
  · rfl
  · cases m <;> cases s <;> rfl

@[simp] theorem GatePlace.holds_awake (p : GatePlace) : p.awake.holds = p.holds := by
  cases p <;> simp [GatePlace.awake, GatePlace.holds]

/-- A gate and the threads that use it. The flags record what has happened: some `ReleaseAll` has
returned, a late `Acquire` has taken a permit, a late `Drain` has returned true, and a `Handle`
call was started after that. -/
structure GateUsers (T : Type) where
  gate : ConcurrencyGate
  thread : T → GateThread := fun _ => {}
  closed : Bool := false
  lateTaken : Bool := false
  drained : Bool := false
  handledLate : Bool := false

namespace GateUsers

variable {T : Type} [DecidableEq T]

def set (c : GateUsers T) (t : T) (x : GateThread) : GateUsers T :=
  { c with thread := Function.update c.thread t x }

def goto (c : GateUsers T) (t : T) (p : GatePlace) : GateUsers T :=
  c.set t { c.thread t with place := p }

/-- `notify_all`. -/
def wakeAll (c : GateUsers T) : GateUsers T :=
  { c with thread := fun t => (c.thread t).awake }

/-- The mutex is free. -/
def Unlocked (c : GateUsers T) : Prop := Free GateThread.holds c.thread

instance [Fintype T] (c : GateUsers T) : Decidable c.Unlocked :=
  inferInstanceAs (Decidable (Free GateThread.holds c.thread))

theorem goto_of_ne (c : GateUsers T) {t u : T} (h : t ≠ u) (p : GatePlace) :
    (c.goto u p).thread t = c.thread t := Function.update_of_ne h _ _

/-- One step of one thread. -/
inductive Step : GateUsers T → GateUsers T → Prop
  | callAcquire (c : GateUsers T) (t : T) (hp : (c.thread t).place = .running) :
    Step c (c.goto t (.inside (.acquire c.closed) .lock))
  | callReleaseAll (c : GateUsers T) (t : T) (hp : (c.thread t).place = .running) :
    Step c (c.goto t (.inside .releaseAll .lock))
  | callDrain (c : GateUsers T) (t : T) (hp : (c.thread t).place = .running) :
    Step c (c.goto t (.inside (.drain c.closed) .lock))
  | lockWaiting (c : GateUsers T) (t : T) (m : GateMethod)
    (hm : (∃ late, m = .acquire late) ∨ ∃ late, m = .drain late)
    (hp : (c.thread t).place = .inside m .lock) (hf : c.Unlocked) :
    Step c (c.goto t (.inside m .test))
  | lock (c : GateUsers T) (t : T) (m : GateMethod) (hm : m = .release ∨ m = .releaseAll)
    (hp : (c.thread t).place = .inside m .lock) (hf : c.Unlocked) :
    Step c (c.goto t (.inside m .act))
  | acquirePass (c : GateUsers T) (t : T) (late : Bool)
    (hp : (c.thread t).place = .inside (.acquire late) .test) (h : c.gate.mayPass = true) :
    Step c (c.goto t (.inside (.acquire late) .act))
  | acquireFail (c : GateUsers T) (t : T) (late : Bool)
    (hp : (c.thread t).place = .inside (.acquire late) .test) (h : c.gate.mayPass = false) :
    Step c (c.goto t (.inside (.acquire late) .park))
  /-- `Acquire` returns, and initialises a guard with what it returns. -/
  | acquire (c : GateUsers T) (t : T) (late : Bool)
    (hp : (c.thread t).place = .inside (.acquire late) .act) :
    Step c { c.set t ⟨.running, c.gate.acquire.2 :: (c.thread t).guards⟩ with
      gate := c.gate.acquire.1
      lateTaken := c.lateTaken || late && c.gate.acquire.2 }
  | drainPass (c : GateUsers T) (t : T) (late : Bool)
    (hp : (c.thread t).place = .inside (.drain late) .test) (h : c.gate.inFlight = 0) :
    Step c { c.goto t .running with drained := c.drained || late }
  | drainFail (c : GateUsers T) (t : T) (late : Bool)
    (hp : (c.thread t).place = .inside (.drain late) .test) (h : c.gate.inFlight ≠ 0) :
    Step c (c.goto t (.inside (.drain late) .park))
  /-- The deadline has passed and the predicate is still false. -/
  | drainTimeout (c : GateUsers T) (t : T) (late : Bool)
    (hp : (c.thread t).place = .inside (.drain late) .test) (h : c.gate.inFlight ≠ 0) :
    Step c (c.goto t .running)
  | sleep (c : GateUsers T) (t : T) (m : GateMethod) (hp : (c.thread t).place = .inside m .park) :
    Step c (c.goto t (.inside m .asleep))
  /-- A spurious wake-up, or the deadline of `Drain`. -/
  | wake (c : GateUsers T) (t : T) (m : GateMethod) (hp : (c.thread t).place = .inside m .asleep) :
    Step c (c.goto t (.inside m .lock))
  | release (c : GateUsers T) (t : T) (hp : (c.thread t).place = .inside .release .act) :
    Step c { c.set t ⟨.inside .release .notify, (c.thread t).guards.erase true⟩ with
      gate := c.gate.release }
  | releaseAll (c : GateUsers T) (t : T) (hp : (c.thread t).place = .inside .releaseAll .act) :
    Step c { c.goto t (.inside .releaseAll .notify) with gate := c.gate.releaseAll }
  | notifyRelease (c : GateUsers T) (t : T)
    (hp : (c.thread t).place = .inside .release .notify) : Step c (c.wakeAll.goto t .running)
  | notifyReleaseAll (c : GateUsers T) (t : T)
    (hp : (c.thread t).place = .inside .releaseAll .notify) :
    Step c { c.wakeAll.goto t .running with closed := true }
  /-- The move constructor: the new guard takes over the flag of the old one. -/
  | moveGuard (c : GateUsers T) (t : T) (b : Bool) (hp : (c.thread t).place = .running)
    (hb : b ∈ (c.thread t).guards) :
    Step c (c.set t ⟨.running, b :: false :: (c.thread t).guards.erase b⟩)
  /-- `~GateGuard` of a guard that holds nothing. -/
  | dropEmpty (c : GateUsers T) (t : T) (hp : (c.thread t).place = .running)
    (hb : false ∈ (c.thread t).guards) :
    Step c (c.set t ⟨.running, (c.thread t).guards.erase false⟩)
  /-- `~GateGuard` of a guard that holds a permit, on any way out of its scope. -/
  | dropHeld (c : GateUsers T) (t : T) (hp : (c.thread t).place = .running)
    (hb : true ∈ (c.thread t).guards) : Step c (c.goto t (.inside .release .lock))
  /-- A `Handle` call is started, which returns or throws while the guard lives. -/
  | handle (c : GateUsers T) (t : T) (hp : (c.thread t).place = .running)
    (hb : true ∈ (c.thread t).guards) :
    Step c { c with handledLate := c.handledLate || c.drained }
  | leave (c : GateUsers T) (t : T) (hp : (c.thread t).place = .running)
    (hg : (c.thread t).guards = []) : Step c (c.goto t .left)

/-- A gate with all threads outside of it. -/
def init (limit : Int) : GateUsers T := { gate := { limit } }

/-- The states the threads can bring about. -/
def Reachable (limit : Int) (c : GateUsers T) : Prop := Relation.ReflTransGen Step (init limit) c

end GateUsers

/-- What a thread relies on while it is in a method: a test made under the mutex still stands, and
a guard that is being destroyed holds its permit. Only releases notify. -/
def GateThread.Fits (g : ConcurrencyGate) (x : GateThread) : Prop :=
  match x.place with
  | .inside (.acquire _) .act => g.mayPass = true
  | .inside (.acquire _) .park => g.mayPass = false
  | .inside (.acquire _) .notify | .inside (.drain _) .notify => False
  | .inside .release .notify => True
  | .inside .release _ => true ∈ x.guards
  | _ => True

/-- A thread without the mutex relies on nothing the gate says. -/
theorem GateThread.Fits.of_not_holds {g g' : ConcurrencyGate} {x : GateThread} (h : x.Fits g)
    (hx : x.holds = false) : x.Fits g' := by
  obtain ⟨p, guards⟩ := x
  unfold GateThread.Fits at h ⊢
  cases p with
  | running => trivial
  | left => trivial
  | inside m s => cases m <;> cases s <;> trivial

theorem GateThread.Fits.awake {g : ConcurrencyGate} {x : GateThread} (h : x.Fits g) :
    x.awake.Fits g := by
  obtain ⟨p, guards⟩ := x
  unfold GateThread.Fits GateThread.awake at *
  cases p with
  | running => trivial
  | left => trivial
  | inside m s => cases m <;> cases s <;> trivial

/-- The state of a gate and its threads. -/
structure GateSound {T : Type} [Fintype T] (g : ConcurrencyGate) (thread : T → GateThread) :
    Prop where
  exclusive : Exclusive GateThread.holds thread
  permits : g.inFlight = total GateThread.permits thread
  limit : 0 < g.limit → (g.inFlight : Int) ≤ g.limit
  fits : ∀ t, (thread t).Fits g
  awaited : g.mayPass = true → ∀ t late, (thread t).place = .inside (.acquire late) .asleep →
    ∃ u m, (thread u).place = .inside m .notify

namespace GateSound

variable {T : Type} [Fintype T] [DecidableEq T] {g g' : ConcurrencyGate} {thread : T → GateThread}

omit [DecidableEq T] in
theorem others_out (h : GateSound g thread) {t u : T} (ht : (thread t).holds = true)
    (hu : u ≠ t) : (thread u).holds = false := by
  rw [← Bool.not_eq_true]
  intro hh
  exact hu (h.exclusive u t hh ht)

/-- A thread goes on without touching the gate. -/
theorem move (h : GateSound g thread) {t : T} {x : GateThread}
    (hguards : x.permits = (thread t).permits)
    (hholds : x.holds = true → Free GateThread.holds thread ∨ (thread t).holds = true)
    (hfits : x.Fits g) (hnot : ∀ m, (thread t).place ≠ .inside m .notify)
    (hsleep : ∀ late, x.place = .inside (.acquire late) .asleep → g.mayPass = false) :
    GateSound g (Function.update thread t x) where
  exclusive := by
    by_cases hx : x.holds = true
    · rcases hholds hx with hfree | hold
      · exact Exclusive.lock hfree t x
      · exact h.exclusive.move fun _ => hold
    · exact h.exclusive.move fun hh => absurd hh hx
  permits := by rw [h.permits, total_update_of_eq hguards]
  limit := h.limit
  fits u := by
    by_cases hu : u = t
    · subst hu
      rwa [Function.update_self]
    · rw [Function.update_of_ne hu]
      exact h.fits u
  awaited hpass u late hu := by
    by_cases hut : u = t
    · subst hut
      rw [Function.update_self] at hu
      rw [hsleep late hu] at hpass
      cases hpass
    · rw [Function.update_of_ne hut] at hu
      obtain ⟨v, m, hv⟩ := h.awaited hpass u late hu
      have hvt : v ≠ t := by
        rintro rfl
        exact hnot m hv
      exact ⟨v, m, by rwa [Function.update_of_ne hvt]⟩

/-- The thread that holds the mutex changes the gate. -/
theorem act (h : GateSound g thread) {t : T} {x : GateThread} (ht : (thread t).holds = true)
    (hx : x.holds = false) (hfits : x.Fits g')
    (hpermits : g'.inFlight + (thread t).permits = g.inFlight + x.permits)
    (hlimit : 0 < g'.limit → (g'.inFlight : Int) ≤ g'.limit)
    (hwake : g'.mayPass = true → g.mayPass = true ∨ ∃ m, x.place = .inside m .notify)
    (hsleep : ∀ late, x.place ≠ .inside (.acquire late) .asleep) :
    GateSound g' (Function.update thread t x) where
  exclusive := h.exclusive.move fun hh => by rw [hx] at hh; cases hh
  permits := by
    have htotal := total_update GateThread.permits thread t x
    have hp := h.permits
    omega
  limit := hlimit
  fits u := by
    by_cases hu : u = t
    · subst hu
      rwa [Function.update_self]
    · rw [Function.update_of_ne hu]
      exact (h.fits u).of_not_holds (h.others_out ht hu)
  awaited hpass u late hu := by
    by_cases hut : u = t
    · subst hut
      rw [Function.update_self] at hu
      exact absurd hu (hsleep late)
    · rw [Function.update_of_ne hut] at hu
      rcases hwake hpass with hold | ⟨m, hm⟩
      · obtain ⟨v, m, hv⟩ := h.awaited hold u late hu
        have hvt : v ≠ t := by
          rintro rfl
          rw [GateThread.holds, hv] at ht
          cases ht
        exact ⟨v, m, by rwa [Function.update_of_ne hvt]⟩
      · exact ⟨t, m, by rwa [Function.update_self]⟩

/-- A notification leaves nobody asleep. -/
theorem notify (h : GateSound g thread) {t : T} {x : GateThread}
    (hguards : x.permits = (thread t).permits) (hx : x.holds = false) (hfits : x.Fits g)
    (hsleep : ∀ late, x.place ≠ .inside (.acquire late) .asleep) :
    GateSound g (Function.update (fun u => (thread u).awake) t x) where
  exclusive := by
    have hmap := h.exclusive.map (f := GateThread.awake) fun l => by
      simp [GateThread.holds, GateThread.awake]
    exact hmap.move fun hh => by rw [hx] at hh; cases hh
  permits := by
    have hmap := total_map (f := GateThread.permits) (g := GateThread.awake) (fun _ => rfl) thread
    have hmove : total GateThread.permits (Function.update (fun u => (thread u).awake) t x) =
        total GateThread.permits fun u => (thread u).awake := total_update_of_eq hguards
    rw [h.permits, hmove, hmap]
  limit := h.limit
  fits u := by
    by_cases hu : u = t
    · subst hu
      rwa [Function.update_self]
    · rw [Function.update_of_ne hu]
      exact (h.fits u).awake
  awaited _ u late hu := by
    by_cases hut : u = t
    · subst hut
      rw [Function.update_self] at hu
      exact absurd hu (hsleep late)
    · rw [Function.update_of_ne hut, GateThread.awake] at hu
      cases hp : (thread u).place with
      | running => simp [hp, GatePlace.awake] at hu
      | left => simp [hp, GatePlace.awake] at hu
      | inside m s => cases s <;> simp [hp, GatePlace.awake, Stage.awake] at hu

omit [DecidableEq T] in
theorem init (limit : Int) : GateSound (T := T) { limit } fun _ => {} where
  exclusive := Free.exclusive fun _ => rfl
  permits := by simp [total, GateThread.permits]
  limit hl := hl.le
  fits _ := trivial
  awaited _ _ _ ht := by cases ht

/-- One step of any thread. -/
theorem step {c c' : GateUsers T} (h : GateSound c.gate c.thread) (hs : GateUsers.Step c c') :
    GateSound c'.gate c'.thread := by
  cases hs with
  | callAcquire t hp => exact h.move rfl nofun trivial (by simp [hp]) (by simp)
  | callReleaseAll t hp => exact h.move rfl nofun trivial (by simp [hp]) nofun
  | callDrain t hp => exact h.move rfl nofun trivial (by simp [hp]) nofun
  | lockWaiting t m hm hp hf =>
    refine h.move rfl (fun _ => .inl hf) ?_ (by simp [hp]) nofun
    rcases hm with ⟨late, rfl⟩ | ⟨late, rfl⟩ <;> trivial
  | lock t m hm hp hf =>
    refine h.move rfl (fun _ => .inl hf) ?_ (by simp [hp]) nofun
    have hfit := h.fits t
    rw [GateThread.Fits, hp] at hfit
    rcases hm with rfl | rfl
    · exact hfit
    · trivial
  | acquirePass t late hp hpass =>
    exact h.move rfl (fun _ => .inr (by rw [GateThread.holds, hp]; rfl)) hpass (by simp [hp]) nofun
  | acquireFail t late hp hpass =>
    exact h.move rfl (fun _ => .inr (by rw [GateThread.holds, hp]; rfl)) hpass (by simp [hp]) nofun
  | acquire t late hp =>
    have hfit := h.fits t
    rw [GateThread.Fits, hp] at hfit
    refine h.act (by rw [GateThread.holds, hp]; rfl) rfl trivial ?_ ?_
      (fun hpass => .inl (ConcurrencyGate.mayPass_of_acquire hpass)) nofun
    · rcases c.gate.acquire_cases with ⟨he, -⟩ | ⟨he, -⟩ <;> rw [he]
      · simp only [GateThread.permits, List.count_cons_self]
        omega
      · simp [GateThread.permits]
    · intro hl
      have hold := h.limit (by simpa using hl)
      rcases c.gate.acquire_cases with ⟨he, hr⟩ | ⟨he, -⟩ <;> rw [he] at hl ⊢
      · simp only [ConcurrencyGate.mayPass, Bool.or_eq_true, decide_eq_true_eq] at hfit
        simp only at hl ⊢
        rcases hfit with (hfit | hfit) | hfit
        · omega
        · rw [hfit] at hr
          simp at hr
          omega
        · omega
      · exact hold
  | drainPass t late hp hz => exact h.move rfl nofun trivial (by simp [hp]) nofun
  | drainFail t late hp hz =>
    have hholds : (c.thread t).holds = true := by rw [GateThread.holds, hp]; rfl
    exact h.move rfl (fun _ => .inr hholds) trivial (by simp [hp]) nofun
  | drainTimeout t late hp hz => exact h.move rfl nofun trivial (by simp [hp]) nofun
  | sleep t m hp =>
    have hfit := h.fits t
    rw [GateThread.Fits, hp] at hfit
    refine h.move rfl nofun ?_ (by simp [hp]) ?_
    · cases m <;> trivial
    · intro late hlate
      cases hlate
      exact hfit
  | wake t m hp =>
    have hfit := h.fits t
    rw [GateThread.Fits, hp] at hfit
    refine h.move rfl nofun ?_ (by simp [hp]) nofun
    cases m <;> trivial
  | release t hp =>
    have hfit := h.fits t
    rw [GateThread.Fits, hp] at hfit
    have hcount :
        (c.thread t).guards.count true = ((c.thread t).guards.erase true).count true + 1 := by
      have hpos : 0 < (c.thread t).guards.count true := List.count_pos_iff.mpr hfit
      rw [List.count_erase_self]
      omega
    have hle := le_total GateThread.permits c.thread t
    have hp' := h.permits
    have hpos : 0 < c.gate.inFlight := by
      simp only [GateThread.permits] at hle hp'
      omega
    have hholds : (c.thread t).holds = true := by rw [GateThread.holds, hp]; rfl
    refine h.act hholds rfl trivial ?_ ?_ (fun _ => .inr ⟨_, rfl⟩) nofun
    · simp only [ConcurrencyGate.release, GateThread.permits, if_pos hpos]
      omega
    · intro hl
      have hold := h.limit hl
      simp only [ConcurrencyGate.release, if_pos hpos]
      omega
  | releaseAll t hp =>
    exact h.act (by rw [GateThread.holds, hp]; rfl) rfl trivial rfl h.limit (fun _ => .inr ⟨_, rfl⟩)
      nofun
  | notifyRelease t hp => exact h.notify rfl rfl trivial nofun
  | notifyReleaseAll t hp => exact h.notify rfl rfl trivial nofun
  | moveGuard t b hp hb =>
    refine h.move ?_ nofun trivial (by simp [hp]) nofun
    cases b with
    | false => simp [GateThread.permits]
    | true =>
      have hpos : 0 < (c.thread t).guards.count true := List.count_pos_iff.mpr hb
      simp [GateThread.permits]
      omega
  | dropEmpty t hp hb =>
    refine h.move ?_ nofun trivial (by simp [hp]) nofun
    simp [GateThread.permits]
  | dropHeld t hp hb => exact h.move rfl nofun hb (by simp [hp]) nofun
  | handle t hp hb => exact h
  | leave t hp hg => exact h.move rfl nofun trivial (by simp [hp]) nofun

theorem of_reachable {limit : Int} {c : GateUsers T} (h : GateUsers.Reachable limit c) :
    GateSound c.gate c.thread :=
  invariant_of_step (I := fun c : GateUsers T => GateSound c.gate c.thread)
    (fun _ _ h hs => h.step hs) (init limit) h

end GateSound
namespace GateUsers

variable {T : Type} [DecidableEq T]

/-- No step changes the limit. -/
theorem Step.limit_eq {c c' : GateUsers T} (hs : Step c c') : c'.gate.limit = c.gate.limit := by
  cases hs <;> first
    | rfl
    | exact ConcurrencyGate.acquire_limit _

theorem Reachable.limit_eq {limit : Int} {c : GateUsers T} (h : Reachable limit c) :
    c.gate.limit = limit :=
  invariant_of_step (I := fun c : GateUsers T => c.gate.limit = limit)
    (fun _ _ hc hs => hs.limit_eq.trans hc) rfl h

section

variable [Fintype T]

/-- A notification that is still to be sent reaches every sleeper. -/
theorem wakes_of_notify {c : GateUsers T} (h : GateSound c.gate c.thread) {u t : T}
    {m : GateMethod} (hu : (c.thread u).place = .inside m .notify) {late : Bool}
    (ht : (c.thread t).place = .inside (.acquire late) .asleep) :
    ∃ c', Step c c' ∧ (c'.thread t).place = .inside (.acquire late) .lock := by
  have htu : t ≠ u := by
    rintro rfl
    rw [hu] at ht
    cases ht
  have hawake : (c.wakeAll.thread t).place = .inside (.acquire late) .lock := by
    simp [wakeAll, GateThread.awake, ht, GatePlace.awake, Stage.awake]
  have hfit := h.fits u
  rw [GateThread.Fits, hu] at hfit
  cases m with
  | acquire late => exact hfit.elim
  | drain late => exact hfit.elim
  | release =>
    refine ⟨_, .notifyRelease c u hu, ?_⟩
    rwa [goto_of_ne _ htu]
  | releaseAll =>
    refine ⟨_, .notifyReleaseAll c u hu, ?_⟩
    change ((c.wakeAll.goto u .running).thread t).place = _
    rwa [goto_of_ne _ htu]

/-- Permits are accounted for in every reachable state: the count is that of the live guards that
hold one and keeps to a positive limit, no release finds the count at zero, and whenever a waiting
`Acquire` could pass, a notification that wakes it is on its way. -/
theorem permits_accounted {limit : Int} {c : GateUsers T} (h : Reachable limit c) :
    c.gate.inFlight = ∑ t, (c.thread t).guards.count true ∧
      (0 < limit → (c.gate.inFlight : Int) ≤ limit) ∧
      (∀ t, (c.thread t).place = .inside .release .act → 0 < c.gate.inFlight) ∧
      (c.gate.mayPass = true → ∀ t late, (c.thread t).place = .inside (.acquire late) .asleep →
        ∃ u m c', (c.thread u).place = .inside m .notify ∧ Step c c' ∧
          (c'.thread t).place = .inside (.acquire late) .lock) := by
  have hs := GateSound.of_reachable h
  refine ⟨hs.permits, fun hl => ?_, fun t ht => ?_, fun hpass t late ht => ?_⟩
  · have hlim := hs.limit
    rw [h.limit_eq] at hlim
    exact hlim hl
  · have hfit := hs.fits t
    rw [GateThread.Fits, ht] at hfit
    have hpos : 0 < (c.thread t).permits := List.count_pos_iff.mpr hfit
    have hle := le_total GateThread.permits c.thread t
    have hp := hs.permits
    omega
  · obtain ⟨u, m, hu⟩ := hs.awaited hpass t late ht
    obtain ⟨c', hstep, hwoken⟩ := wakes_of_notify hs hu ht
    exact ⟨u, m, c', hu, hstep, hwoken⟩

/-- Two pollers on a gate for one: the first works, the second sleeps until the first's guard is
destroyed. -/
theorem permits_accounted_for_two : ∃ c : GateUsers (Fin 2), Reachable 1 c ∧
    c.gate.inFlight = 0 ∧ (c.thread 0).place = .inside .release .notify ∧
    (c.thread 1).place = .inside (.acquire false) .asleep ∧
    ∃ c', Step c c' ∧ (c'.thread 1).place = .inside (.acquire false) .lock := by
  have h₁ : Reachable (T := Fin 2) 1 _ :=
    .tail (.tail (.tail (.tail .refl (.callAcquire _ 0 rfl))
      (.lockWaiting _ 0 _ (.inl ⟨_, rfl⟩) rfl (by decide))) (.acquirePass _ 0 _ rfl (by decide)))
      (.acquire _ 0 _ rfl)
  have h₂ : Reachable (T := Fin 2) 1 _ :=
    .tail (.tail (.tail (.tail h₁ (.callAcquire _ 1 rfl))
      (.lockWaiting _ 1 _ (.inl ⟨_, rfl⟩) rfl (by decide))) (.acquireFail _ 1 _ rfl (by decide)))
      (.sleep _ 1 _ rfl)
  have h₃ : Reachable (T := Fin 2) 1 _ :=
    .tail (.tail (.tail h₂ (.dropHeld _ 0 rfl (by decide)))
      (.lock _ 0 _ (.inl rfl) rfl (by decide))) (.release _ 0 rfl)
  obtain ⟨-, -, -, hwake⟩ := permits_accounted h₃
  obtain ⟨u, m, c', -, hstep, hwoken⟩ := hwake (by decide) 1 false rfl
  exact ⟨_, h₃, rfl, rfl, rfl, c', hstep, hwoken⟩

/-- No late `Acquire` has taken a permit, and since a late `Drain` returned true nothing is in
flight and no `Handle` call was started. -/
def StaysDrained (c : GateUsers T) : Prop :=
  c.lateTaken = false ∧ (c.drained = true → c.gate.inFlight = 0) ∧ c.handledLate = false

/-- What shutdown rests on when the gate is bounded: whoever came late, and whoever relies on a
drained gate, finds `released` set. -/
structure Shut (c : GateUsers T) : Prop where
  bounded : 0 < c.gate.limit
  closed : c.closed = true → c.gate.released = true
  late : ∀ t, (c.thread t).place.late = true → c.gate.released = true
  drained : c.drained = true → c.gate.released = true ∧ c.gate.inFlight = 0
  lateTaken : c.lateTaken = false
  handledLate : c.handledLate = false

namespace Shut

variable {c : GateUsers T}

omit [Fintype T] in
/-- A thread moves without coming late. -/
theorem move (h : Shut c) {t : T} {x : GateThread}
    (hx : x.place.late = true → c.closed = true ∨ (c.thread t).place.late = true) :
    Shut (c.set t x) where
  bounded := h.bounded
  closed := h.closed
  late u hu := by
    by_cases hut : u = t
    · subst hut
      simp only [set, Function.update_self] at hu
      rcases hx hu with hc | ht
      · exact h.closed hc
      · exact h.late u ht
    · simp only [set, Function.update_of_ne hut] at hu
      exact h.late u hu
  drained := h.drained
  lateTaken := h.lateTaken
  handledLate := h.handledLate

omit [Fintype T] [DecidableEq T] in
theorem wakeAll (h : Shut c) : Shut c.wakeAll where
  bounded := h.bounded
  closed := h.closed
  late t ht := h.late t (by simpa [GateUsers.wakeAll, GateThread.awake] using ht)
  drained := h.drained
  lateTaken := h.lateTaken
  handledLate := h.handledLate

/-- One step of any thread. A grant is only given while the gate is not released, a late call only
made once it is. -/
theorem step {c' : GateUsers T} (h : Shut c) (hg : GateSound c.gate c.thread)
    (hs : Step c c') : Shut c' := by
  cases hs with
  | callAcquire t hp => exact h.move fun hx => .inl hx
  | callReleaseAll t hp => exact h.move nofun
  | callDrain t hp => exact h.move fun hx => .inl hx
  | lockWaiting t m hm hp hf =>
    refine h.move fun hx => .inr ?_
    rcases hm with ⟨late, rfl⟩ | ⟨late, rfl⟩ <;> simpa [hp, GatePlace.late] using hx
  | lock t m hm hp hf =>
    refine h.move fun hx => ?_
    rcases hm with rfl | rfl <;> cases hx
  | acquirePass t late hp hpass =>
    exact h.move fun hx => .inr (by simpa [hp, GatePlace.late] using hx)
  | acquireFail t late hp hpass =>
    exact h.move fun hx => .inr (by simpa [hp, GatePlace.late] using hx)
  | acquire t late hp =>
    have hout := h.move (t := t) (x := ⟨.running, c.gate.acquire.2 :: (c.thread t).guards⟩) nofun
    rcases c.gate.acquire_cases with ⟨he, hr⟩ | ⟨he, -⟩
    · have hopen : c.gate.released = false := hr.resolve_left (by have := h.bounded; omega)
      have hlate : late = false := by
        by_contra hl
        have := h.late t (by simpa [hp, GatePlace.late] using hl)
        rw [hopen] at this
        cases this
      have hnot : c.drained = false := by
        by_contra hd
        have := (h.drained (by simpa using hd)).1
        rw [hopen] at this
        cases this
      rw [he] at hout ⊢
      exact {
        bounded := hout.bounded
        closed := hout.closed
        late := hout.late
        drained hd := by
          change c.drained = true at hd
          rw [hnot] at hd
          cases hd
        lateTaken := by simp [h.lateTaken, hlate]
        handledLate := hout.handledLate }
    · rw [he] at hout ⊢
      exact { hout with lateTaken := by simp [h.lateTaken] }
  | drainPass t late hp hz =>
    have hout := h.move (t := t) (x := { c.thread t with place := .running }) nofun
    exact { hout with
      drained hd := by
        rcases Bool.or_eq_true_iff.mp hd with hd | hd
        · exact h.drained hd
        · exact ⟨h.late t (by rw [hp]; exact hd), hz⟩ }
  | drainFail t late hp hz => exact h.move fun hx => .inr (by simpa [hp, GatePlace.late] using hx)
  | drainTimeout t late hp hz => exact h.move nofun
  | sleep t m hp =>
    refine h.move fun hx => .inr ?_
    cases m <;> simp_all [GatePlace.late]
  | wake t m hp =>
    refine h.move fun hx => .inr ?_
    cases m <;> simp_all [GatePlace.late]
  | release t hp =>
    have hout := h.move (t := t)
      (x := ⟨.inside .release .notify, (c.thread t).guards.erase true⟩) nofun
    exact { hout with
      drained hd := by
        obtain ⟨hr, hz⟩ := h.drained hd
        exact ⟨hr, by simp [ConcurrencyGate.release, hz]⟩ }
  | releaseAll t hp =>
    exact {
      bounded := h.bounded
      closed := fun _ => rfl
      late := fun _ _ => rfl
      drained := fun hd => ⟨rfl, (h.drained hd).2⟩
      lateTaken := h.lateTaken
      handledLate := h.handledLate }
  | notifyRelease t hp => exact h.wakeAll.move nofun
  | notifyReleaseAll t hp =>
    have hout := h.wakeAll.move (t := t) (x := { c.wakeAll.thread t with place := .running }) nofun
    exact { hout with closed := fun _ => h.late t (by rw [hp]; rfl) }
  | moveGuard t b hp hb => exact h.move nofun
  | dropEmpty t hp hb => exact h.move nofun
  | dropHeld t hp hb => exact h.move nofun
  | handle t hp hb =>
    have hnot : c.drained = false := by
      by_contra hd
      have hz := (h.drained (by simpa using hd)).2
      have hpos : 0 < (c.thread t).permits := List.count_pos_iff.mpr hb
      have hle := le_total GateThread.permits c.thread t
      have := hg.permits
      omega
    exact { h with handledLate := by simp [h.handledLate, hnot] }
  | leave t hp hg => exact h.move nofun

omit [Fintype T] [DecidableEq T] in
theorem staysDrained (h : Shut c) : c.StaysDrained :=
  ⟨h.lateTaken, fun hd => (h.drained hd).2, h.handledLate⟩

theorem of_reachable {limit : Int} (hl : 0 < limit) (h : Reachable limit c) : Shut c := by
  have hboth : GateSound c.gate c.thread ∧ Shut c := by
    refine invariant_of_step (I := fun c : GateUsers T => GateSound c.gate c.thread ∧ Shut c)
      (fun _ _ hc hs => ⟨hc.1.step hs, hc.2.step hc.1 hs⟩) ⟨GateSound.init limit, ?_⟩ h
    exact {
      bounded := hl
      closed := nofun
      late := fun _ ht => by cases ht
      drained := nofun
      lateTaken := rfl
      handledLate := rfl }
  exact hboth.2

end Shut

omit [Fintype T] in
theorem unlocked_of_alone {c : GateUsers T} {t : T} {p : GatePlace} (hc : ∀ u, c.thread u = {})
    (hp : p.holds = false) : (c.goto t p).Unlocked := by
  intro u
  by_cases hu : u = t
  · subst hu
    simpa [goto, set, GateThread.holds] using hp
  · rw [goto_of_ne _ hu, hc]
    rfl

omit [Fintype T] in
theorem goto_self_place (c : GateUsers T) (t : T) (p : GatePlace) :
    ((c.goto t p).thread t).place = p := by simp [goto, set]

omit [Fintype T] in
/-- `ReleaseAll` called and returned while nobody else does anything. -/
theorem exists_closed (limit : Int) (t : T) :
    ∃ c : GateUsers T, Reachable limit c ∧ c.closed = true ∧ ∀ u, c.thread u = {} := by
  have hfree : ((init limit : GateUsers T).goto t (.inside .releaseAll .lock)).Unlocked :=
    unlocked_of_alone (fun _ => rfl) rfl
  refine ⟨_, .tail (.tail (.tail (.tail .refl (.callReleaseAll _ t rfl))
    (.lock _ t _ (.inr rfl) (goto_self_place _ _ _) hfree))
    (.releaseAll _ t (goto_self_place _ _ _)))
    (.notifyReleaseAll _ t (goto_self_place _ _ _)), rfl, fun u => ?_⟩
  by_cases hu : u = t
  · subst hu
    simp [goto, set, wakeAll, init, GateThread.awake]
  · simp [goto, set, wakeAll, init, GateThread.awake, GatePlace.awake, hu]

omit [Fintype T] in
/-- An unlimited gate never looks at `released_`: whoever calls `Acquire` after `ReleaseAll` gets
a permit. -/
theorem late_grant_of_unlimited {limit : Int} (hl : limit ≤ 0) (t : T) :
    ∃ c : GateUsers T, Reachable limit c ∧ c.lateTaken = true := by
  obtain ⟨c, hc, hclosed, halone⟩ := exists_closed limit t
  have hlimit : c.gate.limit ≤ 0 := by
    rw [hc.limit_eq]
    exact hl
  have hfree : (c.goto t (.inside (.acquire c.closed) .lock)).Unlocked :=
    unlocked_of_alone halone rfl
  have hpass : c.gate.mayPass = true := by simp [ConcurrencyGate.mayPass, hlimit]
  refine ⟨_, .tail (.tail (.tail (.tail hc (.callAcquire _ t (by rw [halone])))
    (.lockWaiting _ t _ (.inl ⟨_, rfl⟩) (goto_self_place _ _ _) hfree))
    (.acquirePass _ t _ (goto_self_place _ _ _) hpass))
    (.acquire _ t _ (goto_self_place _ _ _)), ?_⟩
  simp [goto, set, ConcurrencyGate.acquire, hlimit, hclosed]

/-- A drained gate stays drained in every run exactly when its limit is positive. -/
theorem staysDrained_iff_bounded [Inhabited T] (limit : Int) :
    (∀ c : GateUsers T, Reachable limit c → c.StaysDrained) ↔ 0 < limit := by
  constructor
  · intro h
    by_contra hl
    have hlimit : limit ≤ 0 := by omega
    obtain ⟨c, hc, htaken⟩ := late_grant_of_unlimited (T := T) hlimit default
    rw [(h c hc).1] at htaken
    cases htaken
  · intro hl c hc
    exact (Shut.of_reachable hl hc).staysDrained

/-- One thread closes an unlimited gate and drains it, and the other, which polled before that,
still gets a permit and starts its task. -/
theorem drained_unlimited_gate_handles : ∃ c : GateUsers (Fin 2), Reachable 0 c ∧
    c.lateTaken = true ∧ c.drained = true ∧ c.gate.inFlight = 1 ∧ c.handledLate = true ∧
    ¬ c.StaysDrained := by
  have h₁ : Reachable (T := Fin 2) 0 _ :=
    .tail (.tail (.tail (.tail .refl (.callReleaseAll _ 0 rfl))
      (.lock _ 0 _ (.inr rfl) rfl (by decide))) (.releaseAll _ 0 rfl)) (.notifyReleaseAll _ 0 rfl)
  have h₂ : Reachable (T := Fin 2) 0 _ :=
    .tail (.tail (.tail h₁ (.callDrain _ 0 rfl))
      (.lockWaiting _ 0 _ (.inr ⟨_, rfl⟩) rfl (by decide))) (.drainPass _ 0 _ rfl rfl)
  have h₃ : Reachable (T := Fin 2) 0 _ :=
    .tail (.tail (.tail (.tail h₂ (.callAcquire _ 1 rfl))
      (.lockWaiting _ 1 _ (.inl ⟨_, rfl⟩) rfl (by decide))) (.acquirePass _ 1 _ rfl (by decide)))
      (.acquire _ 1 _ rfl)
  exact ⟨_, .tail h₃ (.handle _ 1 rfl (by decide)), rfl, rfl, rfl, rfl, fun hd => nomatch hd.1⟩

end
end GateUsers
end TemporalSdk
