import TemporalSdk.Lib.Monitor

/-! `Coroutine` (`internal/coroutine.cpp`) as two threads that hand one turn to each other under a
mutex and a condition variable. -/
namespace TemporalSdk
open Monitor

/-- What the code of a body does next. -/
inductive BodyAct (B : Type) where
  | work (b : B)
  /-- Call `Yield`, to continue at `b`. -/
  | yield (b : B)
  /-- Leave the body, by an exception if `threw`. -/
  | leave (threw : Bool)

/-- A body with its variables. `unwind b` is where it goes on when `Yield` throws `CoroutineAbort`
at `b`, if some code on its stack swallows that; `touch` is what the controller may do to the
variables while the body is suspended. -/
structure Body (B : Type) where
  start : B → Prop
  next : B → BodyAct B
  unwind : B → Option B
  touch : B → B → Prop

inductive Turn where
  | controller
  | coroutine
  deriving DecidableEq, Repr

/-- The methods the controller calls; the destructor comes last. -/
inductive CoroutineMethod where
  | resume
  | done
  | destroy
  deriving DecidableEq, Repr

inductive ControllerPlace where
  /-- In its own code. -/
  | free
  | calling (m : CoroutineMethod)
  /-- Holding the mutex. -/
  | entered (m : CoroutineMethod)
  /-- In the wait for `turn_ == Controller`. -/
  | waiting (m : CoroutineMethod) (s : Stage)
  | joining
  | gone
  deriving DecidableEq, Repr

inductive BodyPlace (B : Type) where
  /-- In the wait for `turn_ == Coroutine`: the first one of `RunBody`, or that of `Yield`. -/
  | waiting (b : Option B) (s : Stage)
  /-- About to read `abort_`. -/
  | started
  /-- In the code of the body. -/
  | running (b : B)
  | yielding (b : B)
  /-- In `Yield`, holding the mutex. -/
  | handing (b : B)
  | finishing
  /-- At the end of `RunBody`, holding the mutex. -/
  | ending
  | exited

structure Coroutine (B : Type) where
  turn : Turn := .controller
  done : Bool := false
  abort : Bool := false
  error : Bool := false
  controller : ControllerPlace := .free
  body : BodyPlace B := .waiting none .lock
  /-- `Resume` calls that have handed over the turn, and those of them that have returned. -/
  resumed : ℕ := 0
  returned : ℕ := 0
  /-- The segments the body has finished, by a yield or by its end. -/
  segments : ℕ := 0

def ControllerPlace.holds : ControllerPlace → Bool
  | .entered _ => true
  | .waiting _ s => s.holds
  | _ => false

def ControllerPlace.awake : ControllerPlace → ControllerPlace
  | .waiting m s => .waiting m s.awake
  | p => p

/-- Outside of the waits of `Resume` and of the destructor. -/
def ControllerPlace.active : ControllerPlace → Bool
  | .waiting _ _ => false
  | _ => true

variable {B : Type}

def BodyPlace.holds : BodyPlace B → Bool
  | .waiting _ s => s.holds
  | .handing _ | .ending => true
  | _ => false

def BodyPlace.awake : BodyPlace B → BodyPlace B
  | .waiting b s => .waiting b s.awake
  | p => p

/-- Between a wait that has ended and the next hand-over. -/
def BodyPlace.active : BodyPlace B → Bool
  | .waiting _ _ | .exited => false
  | _ => true

namespace Coroutine

/-- One step of the controller or of the body's thread. -/
inductive Step (P : Body B) : Coroutine B → Coroutine B → Prop
  | call (c : Coroutine B) (m : CoroutineMethod) (hc : c.controller = .free) :
    Step P c { c with controller := .calling m }
  /-- The controller works on what the suspended body will see. -/
  | touch (c : Coroutine B) (b b' : B) (s : Stage) (hc : c.controller = .free)
    (hb : c.body = .waiting (some b) s) (ht : P.touch b b') :
    Step P c { c with body := .waiting (some b') s }
  | enter (c : Coroutine B) (m : CoroutineMethod) (hc : c.controller = .calling m)
    (hf : c.body.holds = false) : Step P c { c with controller := .entered m }
  | resumeDone (c : Coroutine B) (hc : c.controller = .entered .resume) (hd : c.done = true) :
    Step P c { c with controller := .free }
  | resume (c : Coroutine B) (hc : c.controller = .entered .resume) (hd : c.done = false) :
    Step P c { c with
      turn := .coroutine
      body := c.body.awake
      controller := .waiting .resume .test
      resumed := c.resumed + 1 }
  | readDone (c : Coroutine B) (hc : c.controller = .entered .done) :
    Step P c { c with controller := .free }
  | destroyDone (c : Coroutine B) (hc : c.controller = .entered .destroy) (hd : c.done = true) :
    Step P c { c with controller := .joining }
  | destroy (c : Coroutine B) (hc : c.controller = .entered .destroy) (hd : c.done = false) :
    Step P c { c with
      abort := true
      turn := .coroutine
      body := c.body.awake
      controller := .waiting .destroy .test }
  | resumeReturns (c : Coroutine B) (hc : c.controller = .waiting .resume .test)
    (ht : c.turn = .controller) :
    Step P c { c with controller := .free, returned := c.returned + 1 }
  | unwound (c : Coroutine B) (hc : c.controller = .waiting .destroy .test)
    (ht : c.turn = .controller) : Step P c { c with controller := .joining }
  | waitFails (c : Coroutine B) (m : CoroutineMethod) (hc : c.controller = .waiting m .test)
    (ht : c.turn = .coroutine) : Step P c { c with controller := .waiting m .park }
  | sleep (c : Coroutine B) (m : CoroutineMethod) (hc : c.controller = .waiting m .park) :
    Step P c { c with controller := .waiting m .asleep }
  /-- A spurious wake-up. -/
  | wake (c : Coroutine B) (m : CoroutineMethod) (hc : c.controller = .waiting m .asleep) :
    Step P c { c with controller := .waiting m .lock }
  | relock (c : Coroutine B) (m : CoroutineMethod) (hc : c.controller = .waiting m .lock)
    (hf : c.body.holds = false) : Step P c { c with controller := .waiting m .test }
  | join (c : Coroutine B) (hc : c.controller = .joining) (hb : c.body = .exited) :
    Step P c { c with controller := .gone }
  | bodyLock (c : Coroutine B) (b : Option B) (hb : c.body = .waiting b .lock)
    (hf : c.controller.holds = false) : Step P c { c with body := .waiting b .test }
  | bodyFails (c : Coroutine B) (b : Option B) (hb : c.body = .waiting b .test)
    (ht : c.turn = .controller) : Step P c { c with body := .waiting b .park }
  | bodySleep (c : Coroutine B) (b : Option B) (hb : c.body = .waiting b .park) :
    Step P c { c with body := .waiting b .asleep }
  | bodyWake (c : Coroutine B) (b : Option B) (hb : c.body = .waiting b .asleep) :
    Step P c { c with body := .waiting b .lock }
  | bodyStart (c : Coroutine B) (hb : c.body = .waiting none .test)
    (ht : c.turn = .coroutine) : Step P c { c with body := .started }
  | bodyBegin (c : Coroutine B) (b : B) (hb : c.body = .started) (ha : c.abort = false)
    (hs : P.start b) : Step P c { c with body := .running b }
  | bodySkipped (c : Coroutine B) (hb : c.body = .started) (ha : c.abort = true) :
    Step P c { c with body := .finishing }
  | yieldReturns (c : Coroutine B) (b : B) (hb : c.body = .waiting (some b) .test)
    (ht : c.turn = .coroutine) (ha : c.abort = false) : Step P c { c with body := .running b }
  /-- `Yield` throws and the stack unwinds. -/
  | yieldThrows (c : Coroutine B) (b : B) (hb : c.body = .waiting (some b) .test)
    (ht : c.turn = .coroutine) (ha : c.abort = true) (hu : P.unwind b = none) :
    Step P c { c with body := .finishing }
  /-- `Yield` throws and the exception is swallowed. -/
  | yieldSwallowed (c : Coroutine B) (b b' : B) (hb : c.body = .waiting (some b) .test)
    (ht : c.turn = .coroutine) (ha : c.abort = true) (hu : P.unwind b = some b') :
    Step P c { c with body := .running b' }
  | bodyWork (c : Coroutine B) (b b' : B) (hb : c.body = .running b)
    (hn : P.next b = .work b') : Step P c { c with body := .running b' }
  | callYield (c : Coroutine B) (b b' : B) (hb : c.body = .running b)
    (hn : P.next b = .yield b') : Step P c { c with body := .yielding b' }
  | leave (c : Coroutine B) (b : B) (threw : Bool) (hb : c.body = .running b)
    (hn : P.next b = .leave threw) : Step P c { c with body := .finishing, error := threw }
  | enterYield (c : Coroutine B) (b : B) (hb : c.body = .yielding b)
    (hf : c.controller.holds = false) : Step P c { c with body := .handing b }
  | hand (c : Coroutine B) (b : B) (hb : c.body = .handing b) :
    Step P c { c with
      turn := .controller
      controller := c.controller.awake
      body := .waiting (some b) .test
      segments := c.segments + 1 }
  | enterEnd (c : Coroutine B) (hb : c.body = .finishing) (hf : c.controller.holds = false) :
    Step P c { c with body := .ending }
  | finish (c : Coroutine B) (hb : c.body = .ending) :
    Step P c { c with
      done := true
      turn := .controller
      controller := c.controller.awake
      body := .exited
      segments := c.segments + 1 }

/-- The states that a controller and a body can bring about. -/
def Reachable (P : Body B) (c : Coroutine B) : Prop := Relation.ReflTransGen (Step P) {} c

end Coroutine

/-- What `turn_` and `abort_` must be at the places of the controller. A controller that sleeps
waits for a body that still has the turn. -/
def ControllerPlace.Fits (turn : Turn) (abort : Bool) : ControllerPlace → Prop
  | .free | .calling _ | .entered _ => turn = .controller ∧ abort = false
  | .waiting .resume s => s.waits = true ∧ abort = false ∧ (s.dozes = true → turn = .coroutine)
  | .waiting .destroy s => s.waits = true ∧ abort = true ∧ (s.dozes = true → turn = .coroutine)
  | .waiting .done _ => False
  | .joining | .gone => turn = .controller

/-- What `turn_` and `done_` must be at the places of the body's thread. -/
def BodyPlace.Fits (turn : Turn) (done : Bool) : BodyPlace B → Prop
  | .waiting _ s => s.waits = true ∧ done = false ∧ (s.dozes = true → turn = .controller)
  | .exited => done = true ∧ turn = .controller
  | _ => done = false ∧ turn = .coroutine

/-- The call of `Resume` that has handed over the turn and not returned yet. -/
def ControllerPlace.pending : ControllerPlace → ℕ
  | .waiting .resume _ => 1
  | _ => 0

def Turn.pending : Turn → ℕ
  | .coroutine => 1
  | .controller => 0

/-- The hand-over protocol: the mutex, the two threads' places, and the count of the turns. -/
structure HandOver (c : Coroutine B) : Prop where
  exclusive : c.controller.holds = true → c.body.holds = false
  controller : c.controller.Fits c.turn c.abort
  body : c.body.Fits c.turn c.done
  resumed : c.returned + c.controller.pending = c.resumed
  segments : c.segments + c.turn.pending = c.resumed + c.abort.toNat

namespace HandOver

variable {c c' : Coroutine B} {P : Body B}

theorem init : HandOver ({} : Coroutine B) where
  exclusive := nofun
  controller := ⟨rfl, rfl⟩
  body := ⟨rfl, rfl, nofun⟩
  resumed := rfl
  segments := rfl

theorem controller_at (h : HandOver c) {p : ControllerPlace} (hp : c.controller = p) :
    p.Fits c.turn c.abort := by
  rw [← hp]
  exact h.controller

theorem body_at (h : HandOver c) {q : BodyPlace B} (hq : c.body = q) : q.Fits c.turn c.done := by
  rw [← hq]
  exact h.body

theorem controller_out (h : HandOver c) (hb : c.body.holds = true) :
    c.controller.holds = false := by
  by_contra hc
  rw [Bool.not_eq_false] at hc
  rw [h.exclusive hc] at hb
  cases hb

/-- The controller goes from one place to another. -/
theorem controller_moves (h : HandOver c) {p p' : ControllerPlace} (hp : c.controller = p)
    (hholds : p'.holds = true → p.holds = true ∨ c.body.holds = false)
    (hfits : p.Fits c.turn c.abort → p'.Fits c.turn c.abort) (hpending : p'.pending = p.pending) :
    HandOver { c with controller := p' } where
  exclusive hh := by
    rcases hholds hh with hold | hfree
    · exact h.exclusive (by rw [hp, hold])
    · exact hfree
  controller := hfits (h.controller_at hp)
  body := h.body
  resumed := by rw [← h.resumed, hp, hpending]
  segments := h.segments

/-- The body's thread goes from one place to another. -/
theorem body_moves (h : HandOver c) {q q' : BodyPlace B} {e : Bool} (hq : c.body = q)
    (hholds : q'.holds = true → q.holds = true ∨ c.controller.holds = false)
    (hfits : q.Fits c.turn c.done → q'.Fits c.turn c.done) :
    HandOver { c with body := q', error := e } where
  exclusive hc := by
    by_contra hh
    rw [Bool.not_eq_false] at hh
    rcases hholds hh with hold | hfree
    · have hbusy := h.exclusive hc
      rw [hq, hold] at hbusy
      cases hbusy
    · rw [hfree] at hc
      cases hc
  controller := h.controller
  body := hfits (h.body_at hq)
  resumed := h.resumed
  segments := h.segments

/-- While the controller holds the mutex, a notification gets a suspended body going. -/
theorem body_awake (h : HandOver c) (hc : c.controller.holds = true) (ht : c.turn = .controller)
    (hd : c.done = false) : c.body.awake.Fits .coroutine false := by
  have hfree := h.exclusive hc
  have hfits := h.body
  rw [ht, hd] at hfits
  cases hq : c.body with
  | waiting b s =>
    rw [hq] at hfree hfits
    refine ⟨s.waits_awake.trans hfits.1, rfl, fun hs => ?_⟩
    rw [Stage.dozes_awake hfree] at hs
    cases hs
  | exited =>
    rw [hq] at hfits
    cases hfits.1
  | _ =>
    rw [hq] at hfits
    cases hfits.2

/-- While the body holds the mutex and has the turn, the controller is in a wait, from which a
notification wakes it. -/
theorem controller_awake (h : HandOver c) (hb : c.body.holds = true) (ht : c.turn = .coroutine) :
    c.controller.awake.Fits .controller c.abort ∧
      c.controller.awake.pending = c.controller.pending ∧ c.controller.awake.holds = false := by
  have hfits := h.controller
  rw [ht] at hfits
  have hnot := h.controller_out hb
  cases hp : c.controller with
  | waiting m s =>
    rw [hp] at hfits hnot
    have hwaits := s.waits_awake
    have hdoze (hs : s.awake.dozes = true) : Turn.controller = .coroutine := by
      rw [Stage.dozes_awake hnot] at hs
      cases hs
    cases m with
    | resume => exact ⟨⟨hwaits.trans hfits.1, hfits.2.1, hdoze⟩, rfl, s.holds_awake.trans hnot⟩
    | destroy => exact ⟨⟨hwaits.trans hfits.1, hfits.2.1, hdoze⟩, rfl, s.holds_awake.trans hnot⟩
    | done => exact hfits.elim
  | free => rw [hp] at hfits; cases hfits.1
  | calling m => rw [hp] at hfits; cases hfits.1
  | entered m => rw [hp] at hfits; cases hfits.1
  | joining => rw [hp] at hfits; cases hfits
  | gone => rw [hp] at hfits; cases hfits

/-- The two ways in which the controller gives the turn away. -/
theorem give_turn (h : HandOver c) {m : CoroutineMethod} (hc : c.controller = .entered m)
    (hd : c.done = false) :
    c.body.awake.holds = false ∧ c.body.awake.Fits .coroutine c.done ∧ c.abort = false ∧
      c.returned = c.resumed ∧ c.segments = c.resumed := by
  obtain ⟨ht, ha⟩ := h.controller_at hc
  have hres := h.resumed
  have hseg := h.segments
  rw [hc] at hres
  rw [ht, ha] at hseg
  have hheld : c.controller.holds = true := by rw [hc]; rfl
  refine ⟨?_, ?_, ha, hres, hseg⟩
  · have hfree := h.exclusive hheld
    cases hq : c.body with
    | waiting b s =>
      rw [hq] at hfree
      exact s.holds_awake.trans hfree
    | _ =>
      rw [hq] at hfree
      exact hfree
  · rw [hd]
    exact h.body_awake hheld ht hd

/-- The body gives the turn back. -/
theorem give_back (h : HandOver c) (hb : c.body.holds = true) (ht : c.turn = .coroutine)
    {q : BodyPlace B} {d : Bool} (hq : q.Fits .controller d) :
    HandOver { c with
      done := d
      turn := .controller
      controller := c.controller.awake
      body := q
      segments := c.segments + 1 } := by
  obtain ⟨hfits, hpending, hout⟩ := h.controller_awake hb ht
  have hseg := h.segments
  rw [ht] at hseg
  exact {
    exclusive := fun hh => by rw [hout] at hh; cases hh
    controller := hfits
    body := hq
    resumed := by rw [hpending, h.resumed]
    segments := hseg }

/-- One step of either thread. -/
theorem step (h : HandOver c) (hs : Coroutine.Step P c c') : HandOver c' := by
  cases hs with
  | call m hc => exact h.controller_moves hc nofun id rfl
  | touch b b' s hc hb ht => exact h.body_moves hb (fun hq => .inl hq) id
  | enter m hc hf => exact h.controller_moves hc (fun _ => .inr hf) id rfl
  | resumeDone hc hd => exact h.controller_moves hc nofun id rfl
  | resume hc hd =>
    obtain ⟨hout, hfits, ha, hres, hseg⟩ := h.give_turn hc hd
    exact {
      exclusive := fun _ => hout
      controller := ⟨rfl, ha, nofun⟩
      body := hfits
      resumed := by rw [hres]; rfl
      segments := by rw [hseg, ha]; rfl }
  | readDone hc => exact h.controller_moves hc nofun id rfl
  | destroyDone hc hd => exact h.controller_moves hc nofun And.left rfl
  | destroy hc hd =>
    obtain ⟨hout, hfits, ha, hres, hseg⟩ := h.give_turn hc hd
    exact {
      exclusive := fun _ => hout
      controller := ⟨rfl, rfl, nofun⟩
      body := hfits
      resumed := hres
      segments := by rw [hseg]; rfl }
  | resumeReturns hc ht =>
    have hres := h.resumed
    rw [hc] at hres
    exact {
      exclusive := nofun
      controller := ⟨ht, (h.controller_at hc).2.1⟩
      body := h.body
      resumed := hres
      segments := h.segments }
  | unwound hc ht => exact h.controller_moves hc nofun (fun _ => ht) rfl
  | waitFails m hc ht =>
    cases m with
    | resume =>
      exact h.controller_moves hc (fun _ => .inl rfl) (fun hf => ⟨rfl, hf.2.1, fun _ => ht⟩) rfl
    | destroy =>
      exact h.controller_moves hc (fun _ => .inl rfl) (fun hf => ⟨rfl, hf.2.1, fun _ => ht⟩) rfl
    | done => exact (h.controller_at hc).elim
  | sleep m hc => cases m <;> exact h.controller_moves hc nofun id rfl
  | wake m hc =>
    cases m with
    | resume => exact h.controller_moves hc nofun (fun hf => ⟨rfl, hf.2.1, nofun⟩) rfl
    | destroy => exact h.controller_moves hc nofun (fun hf => ⟨rfl, hf.2.1, nofun⟩) rfl
    | done => exact (h.controller_at hc).elim
  | relock m hc hfree =>
    cases m with
    | resume =>
      exact h.controller_moves hc (fun _ => .inr hfree) (fun hf => ⟨rfl, hf.2.1, nofun⟩) rfl
    | destroy =>
      exact h.controller_moves hc (fun _ => .inr hfree) (fun hf => ⟨rfl, hf.2.1, nofun⟩) rfl
    | done => exact (h.controller_at hc).elim
  | join hc hb => exact h.controller_moves hc nofun id rfl
  | bodyLock b hb hf => exact h.body_moves hb (fun _ => .inr hf) fun hq => ⟨rfl, hq.2.1, nofun⟩
  | bodyFails b hb ht =>
    exact h.body_moves hb (fun _ => .inl rfl) fun hq => ⟨rfl, hq.2.1, fun _ => ht⟩
  | bodySleep b hb => exact h.body_moves hb nofun id
  | bodyWake b hb => exact h.body_moves hb nofun fun hq => ⟨rfl, hq.2.1, nofun⟩
  | bodyStart hb ht => exact h.body_moves hb nofun fun hq => ⟨hq.2.1, ht⟩
  | bodyBegin b hb ha hs => exact h.body_moves hb nofun id
  | bodySkipped hb ha => exact h.body_moves hb nofun id
  | yieldReturns b hb ht ha => exact h.body_moves hb nofun fun hq => ⟨hq.2.1, ht⟩
  | yieldThrows b hb ht ha hu => exact h.body_moves hb nofun fun hq => ⟨hq.2.1, ht⟩
  | yieldSwallowed b b' hb ht ha hu => exact h.body_moves hb nofun fun hq => ⟨hq.2.1, ht⟩
  | bodyWork b b' hb hn => exact h.body_moves hb nofun id
  | callYield b b' hb hn => exact h.body_moves hb nofun id
  | leave b threw hb hn => exact h.body_moves hb nofun id
  | enterYield b hb hf => exact h.body_moves hb (fun _ => .inr hf) id
  | hand b hb =>
    obtain ⟨hd, ht⟩ := h.body_at hb
    exact h.give_back (by rw [hb]; rfl) ht ⟨rfl, hd, nofun⟩
  | enterEnd hb hf => exact h.body_moves hb (fun _ => .inr hf) id
  | finish hb =>
    obtain ⟨hd, ht⟩ := h.body_at hb
    exact h.give_back (by rw [hb]; rfl) ht ⟨rfl, rfl⟩

theorem of_reachable (h : Coroutine.Reachable P c) : HandOver c :=
  invariant_of_step (I := HandOver) (fun _ _ hc hs => hc.step hs) init h

/-- At most one of the threads runs. -/
theorem not_both_active (h : HandOver c) :
    ¬ (c.controller.active = true ∧ c.body.active = true) := by
  rintro ⟨hc, hb⟩
  have hturn : c.turn = .coroutine := by
    have hfits := h.body
    cases hq : c.body <;> rw [hq] at hb hfits <;> first | exact hfits.2 | cases hb
  have hfits := h.controller
  rw [hturn] at hfits
  cases hp : c.controller <;> rw [hp] at hc hfits
  case waiting => cases hc
  case joining | gone => cases hfits
  case free | calling | entered => cases hfits.1

/-- A suspended body that has been asked to wait lets go of the mutex. -/
theorem body_lets_go (h : HandOver c) (ht : c.turn = .controller) :
    ∃ c', Relation.ReflTransGen (Coroutine.Step P) c c' ∧ c'.body.holds = false ∧
      c'.turn = .controller ∧ c'.controller = c.controller ∧ c'.segments = c.segments := by
  have hfits := h.body
  rw [ht] at hfits
  cases hq : c.body with
  | waiting b s =>
    rw [hq] at hfits
    cases s with
    | lock => exact ⟨c, .refl, by rw [hq]; rfl, ht, rfl, rfl⟩
    | asleep => exact ⟨c, .refl, by rw [hq]; rfl, ht, rfl, rfl⟩
    | park => exact ⟨_, .single (.bodySleep c b hq), rfl, ht, rfl, rfl⟩
    | test =>
      exact ⟨_, .tail (.single (.bodyFails c b hq ht)) (.bodySleep _ b rfl), rfl, ht, rfl, rfl⟩
    | act => cases hfits.1
    | notify => cases hfits.1
  | exited => exact ⟨c, .refl, by rw [hq]; rfl, ht, rfl, rfl⟩
  | _ =>
    rw [hq] at hfits
    cases hfits.2

/-- Once the turn is back, the wait of `Resume` comes to its end: the controller is up, and the
body keeps the mutex for no longer than it takes to fall asleep. -/
theorem resume_returns (h : HandOver c) {s : Stage} (hc : c.controller = .waiting .resume s)
    (ht : c.turn = .controller) :
    ∃ c', Relation.ReflTransGen (Coroutine.Step P) c c' ∧ c'.controller = .free ∧
      c'.segments = c.segments := by
  obtain ⟨hwaits, -, hdoze⟩ := h.controller_at hc
  rw [ht] at hdoze
  cases s with
  | test => exact ⟨_, .single (.resumeReturns c hc ht), rfl, rfl⟩
  | lock =>
    obtain ⟨d, hd, hfree, hturn, hsame, hseg⟩ := h.body_lets_go (P := P) ht
    have hlock : d.controller = .waiting .resume .lock := hsame.trans hc
    exact ⟨_, .tail (.tail hd (.relock d _ hlock hfree)) (.resumeReturns _ rfl hturn), rfl, hseg⟩
  | park => cases hdoze rfl
  | asleep => cases hdoze rfl
  | act => cases hwaits
  | notify => cases hwaits

/-- While the body has the turn, nothing ends the wait of `Resume`. -/
theorem resume_waits {s : Stage} (hc : c.controller = .waiting .resume s)
    (ht : c.turn = .coroutine) (hs : Coroutine.Step P c c') : c'.controller ≠ .free := by
  cases hs with
  | resumeDone h' => rw [hc] at h'; cases h'
  | readDone h' => rw [hc] at h'; cases h'
  | resumeReturns h' ht' => rw [ht] at ht'; cases ht'
  | hand b hb => rw [hc]; nofun
  | finish hb => rw [hc]; nofun
  | touch | bodyLock | bodyFails | bodySleep | bodyWake | bodyStart | bodyBegin | bodySkipped
  | yieldReturns | yieldThrows | yieldSwallowed | bodyWork | callYield | leave | enterYield
  | enterEnd => rw [hc]; nofun
  | _ => nofun

theorem exited_of_done (h : HandOver c) (hd : c.done = true) : c.body = .exited := by
  have hfits := h.body
  rw [hd] at hfits
  cases hq : c.body with
  | exited => rfl
  | waiting b s => rw [hq] at hfits; cases hfits.2.1
  | _ => rw [hq] at hfits; cases hfits.1

/-- `done_` never reverts, and a body that is done does nothing any more. -/
theorem done_stays (h : HandOver c) (hd : c.done = true) (hs : Coroutine.Step P c c') :
    c'.done = true ∧ c'.body = .exited := by
  have hexited := h.exited_of_done hd
  cases hs with
  | resume hc hnot => rw [hd] at hnot; cases hnot
  | destroy hc hnot => rw [hd] at hnot; cases hnot
  | call | enter | resumeDone | readDone | destroyDone | resumeReturns | unwound | waitFails | sleep
  | wake | relock | join => exact ⟨hd, hexited⟩
  | touch b b' s hc hb | bodyLock b hb | bodyFails b hb | bodySleep b hb | bodyWake b hb
  | bodyStart hb | bodyBegin b hb | bodySkipped hb | yieldReturns b hb | yieldThrows b hb
  | yieldSwallowed b b' hb | bodyWork b b' hb | callYield b b' hb | leave b e hb | enterYield b hb
  | hand b hb | enterEnd hb | finish hb => rw [hexited] at hb; cases hb

end HandOver

namespace Coroutine

/-- What the engine relies on: the controller and the body never run at once; a `Resume` goes on
for exactly as long as the body has the turn, so that whenever the controller is back in its own
code the body has made one segment for each `Resume`; and a finished body stays finished. -/
structure Alternates (P : Body B) (c : Coroutine B) : Prop where
  exclusive : ¬ (c.controller.active = true ∧ c.body.active = true)
  oneSegment : c.controller = .free → c.segments = c.returned ∧ c.returned = c.resumed
  ends : ∀ s, c.controller = .waiting .resume s → c.turn = .controller →
    c.segments = c.returned + 1 ∧ ∃ c', Relation.ReflTransGen (Step P) c c' ∧
      c'.controller = .free ∧ c'.segments = c.segments
  lasts : ∀ s, c.controller = .waiting .resume s → c.turn = .coroutine →
    c.segments = c.returned ∧ ∀ c', Step P c c' → c'.controller ≠ .free
  finished : c.done = true →
    c.body = .exited ∧ ∀ c', Step P c c' → c'.done = true ∧ c'.body = .exited

/-- In every reachable state of every interleaving. -/
theorem alternates_of_reachable {P : Body B} {c : Coroutine B} (h : Reachable P c) :
    c.Alternates P := by
  have hover := HandOver.of_reachable h
  have hres := hover.resumed
  have hseg := hover.segments
  exact {
    exclusive := hover.not_both_active
    oneSegment := fun hc => by
      obtain ⟨ht, ha⟩ := hover.controller_at hc
      rw [hc] at hres
      rw [ht, ha] at hseg
      simp only [ControllerPlace.pending, Turn.pending, Bool.toNat_false] at hres hseg
      omega
    ends := fun s hc ht => by
      obtain ⟨-, ha, -⟩ := hover.controller_at hc
      rw [hc] at hres
      rw [ht, ha] at hseg
      simp only [ControllerPlace.pending, Turn.pending, Bool.toNat_false] at hres hseg
      exact ⟨by omega, hover.resume_returns hc ht⟩
    lasts := fun s hc ht => by
      obtain ⟨-, ha, -⟩ := hover.controller_at hc
      rw [hc] at hres
      rw [ht, ha] at hseg
      simp only [ControllerPlace.pending, Turn.pending, Bool.toNat_false] at hres hseg
      exact ⟨by omega, fun c' hs => HandOver.resume_waits hc ht hs⟩
    finished := fun hd => ⟨hover.exited_of_done hd, fun c' hs => hover.done_stays hd hs⟩ }

/-- A body that yields once and returns. -/
def yieldsOnce : Body (Fin 2) where
  start b := b = 0
  next b := if b = 0 then .yield 1 else .leave false
  unwind _ := none
  touch := Eq

/-- The first `Resume` sleeps until the body yields. -/
theorem alternates_after_resume : ∃ c, Reachable yieldsOnce c ∧ c.controller = .free ∧
    c.body = .waiting (some 1) .asleep ∧ c.segments = 1 ∧ c.Alternates yieldsOnce := by
  have h₁ : Reachable yieldsOnce _ :=
    .tail (.tail (.tail (.tail (.tail .refl (.call _ .resume rfl)) (.enter _ _ rfl rfl))
      (.resume _ rfl rfl)) (.waitFails _ _ rfl rfl)) (.sleep _ _ rfl)
  have h₂ : Reachable yieldsOnce _ :=
    .tail (.tail (.tail (.tail (.tail (.tail h₁ (.bodyLock _ _ rfl rfl)) (.bodyStart _ rfl rfl))
      (.bodyBegin _ 0 rfl rfl rfl)) (.callYield _ 0 1 rfl rfl)) (.enterYield _ 1 rfl rfl))
      (.hand _ 1 rfl)
  have h₃ : Reachable yieldsOnce _ :=
    .tail (.tail (.tail (.tail h₂ (.bodyFails _ _ rfl rfl)) (.bodySleep _ _ rfl))
      (.relock _ _ rfl rfl)) (.resumeReturns _ rfl rfl)
  exact ⟨_, h₃, rfl, rfl, rfl, alternates_of_reachable h₃⟩

end Coroutine
end TemporalSdk
