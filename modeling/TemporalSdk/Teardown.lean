import TemporalSdk.Coroutine
import TemporalSdk.Runner

/-! Destroying a coroutine whose body is suspended: what the exception that unwinds it meets on its
way, and what workflow bodies do with it. -/
namespace TemporalSdk
open Monitor

variable {B : Type}

/-- The code from here on ends without another `Yield`. -/
inductive Body.Ends (P : Body B) : B → Prop
  | leave {b : B} {threw : Bool} (h : P.next b = .leave threw) : P.Ends b
  | work {b b' : B} (h : P.next b = .work b') (hb : P.Ends b') : P.Ends b

theorem Body.Ends.of_work {P : Body B} {b b' : B} (h : P.Ends b) (hn : P.next b = .work b') :
    P.Ends b' := by
  cases h with
  | leave h => rw [hn] at h; cases h
  | work h hb => rw [hn] at h; cases h; exact hb

theorem Body.Ends.not_yield {P : Body B} {b b' : B} (h : P.Ends b) : P.next b ≠ .yield b' := by
  intro hn
  cases h with
  | leave h => rw [hn] at h; cases h
  | work h hb => rw [hn] at h; cases h

/-- The exception passes from here, or whoever swallows it ends without another `Yield`. -/
def Body.Unwinds (P : Body B) (b : B) : Prop := ∀ b', P.unwind b = some b' → P.Ends b'

namespace Coroutine

variable {P : Body B} {c c' : Coroutine B}

/-- If the step hands the turn over for the unwinding, the suspended body lets it happen. -/
def DestroysClear (P : Body B) (c c' : Coroutine B) : Prop :=
  c.abort = false → c'.abort = true → ∀ b s, c.body = .waiting (some b) s → P.Unwinds b

/-- The places of a body that is being unwound. -/
def Unwinding (P : Body B) (turn : Turn) : BodyPlace B → Prop
  | .waiting (some b) _ => turn = .coroutine ∧ P.Unwinds b
  | .waiting none _ => turn = .coroutine
  | .running b => P.Ends b
  | .yielding _ | .handing _ => False
  | .started | .finishing | .ending | .exited => True

/-- What holds of the destruction of a coroutine: the body is on its way out, and only a finished
one is waited for. -/
structure Teardown (P : Body B) (c : Coroutine B) : Prop where
  unwinding : c.abort = true → Unwinding P c.turn c.body
  joining : c.controller = .joining ∨ c.controller = .gone → c.done = true

namespace Teardown

theorem init : Teardown P ({} : Coroutine B) := ⟨nofun, by rintro (h | h) <;> cases h⟩

/-- A step that leaves the body, the turn and `abort_` alone. -/
theorem controller_moves (h : Teardown P c) {p : ControllerPlace} {n : ℕ}
    (hp : p = .joining ∨ p = .gone → c.done = true) :
    Teardown P { c with controller := p, returned := n } :=
  ⟨h.unwinding, hp⟩

/-- A step of the body's thread that keeps the turn. -/
theorem body_moves (h : Teardown P c) {q : BodyPlace B} {e : Bool}
    (hq : c.abort = true → Unwinding P c.turn c.body → Unwinding P c.turn q) :
    Teardown P { c with body := q, error := e } :=
  ⟨fun ha => hq ha (h.unwinding ha), h.joining⟩

/-- A body that has given the turn back while it is being unwound is done. -/
theorem done_of_turn (h : Teardown P c) (ho : HandOver c) (ha : c.abort = true)
    (ht : c.turn = .controller) : c.done = true := by
  have hu := h.unwinding ha
  have hb := ho.body
  rw [ht] at hu hb
  cases hq : c.body with
  | exited => rw [hq] at hb; exact hb.1
  | waiting b s =>
    rw [hq] at hu
    cases b with
    | none => cases hu
    | some b => cases hu.1
  | _ => rw [hq] at hb; cases hb.2

theorem abort_false (ho : HandOver c) {m : CoroutineMethod}
    (hc : c.controller = .free ∨ c.controller = .entered m) : c.abort = false := by
  rcases hc with hc | hc <;> exact (ho.controller_at hc).2

/-- The destructor hands the turn over. -/
theorem destroy (ho : HandOver c) (hc : c.controller = .entered .destroy)
    (hclear : ∀ b s, c.body = .waiting (some b) s → P.Unwinds b) :
    Unwinding P .coroutine c.body.awake := by
  have ht := (ho.controller_at hc).1
  have hb := ho.body
  rw [ht] at hb
  cases hq : c.body with
  | waiting b s =>
    cases b with
    | none => rfl
    | some b => exact ⟨rfl, hclear b s hq⟩
  | exited => trivial
  | _ => rw [hq] at hb; cases hb.2

/-- One step, where a destruction comes at a clear moment. -/
theorem step (h : Teardown P c) (ho : HandOver c) (hs : Step P c c')
    (hclear : DestroysClear P c c') : Teardown P c' := by
  cases hs with
  | call m hc => exact h.controller_moves nofun
  | touch b b' s hc hb ht =>
    refine h.body_moves fun ha _ => ?_
    rw [abort_false ho (m := .done) (.inl hc)] at ha
    cases ha
  | enter m hc hf => exact h.controller_moves nofun
  | resumeDone hc hd => exact h.controller_moves nofun
  | resume hc hd =>
    refine ⟨fun ha => ?_, nofun⟩
    change c.abort = true at ha
    rw [abort_false ho (.inr hc)] at ha
    cases ha
  | readDone hc => exact h.controller_moves nofun
  | destroyDone hc hd => exact h.controller_moves fun _ => hd
  | destroy hc hd =>
    refine ⟨fun _ => destroy ho hc ?_, nofun⟩
    exact hclear (abort_false ho (.inr hc)) rfl
  | resumeReturns hc ht => exact h.controller_moves nofun
  | unwound hc ht =>
    exact h.controller_moves fun _ => h.done_of_turn ho (ho.controller_at hc).2.1 ht
  | waitFails m hc ht => exact h.controller_moves nofun
  | sleep m hc => exact h.controller_moves nofun
  | wake m hc => exact h.controller_moves nofun
  | relock m hc hf => exact h.controller_moves nofun
  | join hc hb => exact h.controller_moves fun _ => h.joining (.inl hc)
  | bodyLock b hb hf =>
    refine h.body_moves fun _ hu => ?_
    rw [hb] at hu
    cases b <;> exact hu
  | bodyFails b hb ht =>
    refine h.body_moves fun _ hu => ?_
    rw [hb, ht] at hu
    cases b with
    | none => cases hu
    | some b => cases hu.1
  | bodySleep b hb =>
    refine h.body_moves fun _ hu => ?_
    rw [hb] at hu
    cases b <;> exact hu
  | bodyWake b hb =>
    refine h.body_moves fun _ hu => ?_
    rw [hb] at hu
    cases b <;> exact hu
  | bodyStart hb ht => exact h.body_moves fun _ _ => trivial
  | bodyBegin b hb ha hs =>
    refine h.body_moves fun ha' _ => ?_
    rw [ha] at ha'
    cases ha'
  | bodySkipped hb ha => exact h.body_moves fun _ _ => trivial
  | yieldReturns b hb ht ha =>
    refine h.body_moves fun ha' _ => ?_
    rw [ha] at ha'
    cases ha'
  | yieldThrows b hb ht ha hn => exact h.body_moves fun _ _ => trivial
  | yieldSwallowed b b' hb ht ha hn =>
    refine h.body_moves fun _ hu => ?_
    rw [hb] at hu
    exact hu.2 b' hn
  | bodyWork b b' hb hn =>
    refine h.body_moves fun _ hu => ?_
    rw [hb] at hu
    exact hu.of_work hn
  | callYield b b' hb hn =>
    refine h.body_moves fun _ hu => ?_
    rw [hb] at hu
    exact hu.not_yield hn
  | leave b threw hb hn => exact h.body_moves fun _ _ => trivial
  | enterYield b hb hf =>
    refine h.body_moves fun _ hu => ?_
    rw [hb] at hu
    exact hu
  | hand b hb =>
    refine ⟨fun ha => ?_, fun hc => ?_⟩
    · have hu := h.unwinding ha
      rw [hb] at hu
      exact hu.elim
    · refine h.joining ?_
      cases hp : c.controller <;> rw [hp] at hc <;> simp_all [ControllerPlace.awake]
  | enterEnd hb hf => exact h.body_moves fun _ _ => trivial
  | finish hb => exact ⟨fun _ => trivial, fun _ => rfl⟩

end Teardown

section

variable (P)

/-- A controller that waits lets go of the mutex. -/
theorem controller_lets_go (ho : HandOver c) (ha : c.abort = true) (ht : c.turn = .coroutine) :
    ∃ s, s.holds = false ∧ s.waits = true ∧
      Relation.ReflTransGen (Step P) c { c with controller := .waiting .destroy s } := by
  have hfits := ho.controller
  rw [ha, ht] at hfits
  cases hp : c.controller with
  | waiting m s =>
    rw [hp] at hfits
    cases m with
    | resume => cases hfits.2.1
    | done => exact hfits.elim
    | destroy =>
      cases s with
      | lock => exact ⟨.lock, rfl, rfl, by rw [← hp]⟩
      | asleep => exact ⟨.asleep, rfl, rfl, by rw [← hp]⟩
      | park => exact ⟨.asleep, rfl, rfl, .single (.sleep c _ hp)⟩
      | test => exact ⟨.asleep, rfl, rfl, .tail (.single (.waitFails c _ hp ht)) (.sleep _ _ rfl)⟩
      | act => cases hfits.1
      | notify => cases hfits.1
  | free => rw [hp] at hfits; cases hfits.1
  | calling m => rw [hp] at hfits; cases hfits.1
  | entered m => rw [hp] at hfits; cases hfits.1
  | joining => rw [hp] at hfits; cases hfits
  | gone => rw [hp] at hfits; cases hfits

variable {P}

/-- Code that ends without waiting is left. -/
theorem leaves {b : B} (hb : c.body = .running b) (h : P.Ends b) :
    ∃ e, Relation.ReflTransGen (Step P) c { c with body := .finishing, error := e } := by
  induction h generalizing c with
  | leave hn => exact ⟨_, .single (.leave c _ _ hb hn)⟩
  | work hn _ ih =>
    obtain ⟨e, he⟩ := ih (c := { c with body := .running _ }) rfl
    exact ⟨e, .head (.bodyWork c _ _ hb hn) he⟩

/-- A body that is being unwound comes to the end of `RunBody`. -/
theorem Unwinding.finishing (h : Unwinding P c.turn c.body) (ho : HandOver c)
    (ha : c.abort = true) (ht : c.turn = .coroutine) (hout : c.controller.holds = false)
    (hq : c.body ≠ .ending) :
    ∃ e, Relation.ReflTransGen (Step P) c { c with body := .finishing, error := e } := by
  have hfits := ho.body
  rw [ht] at hfits
  cases hb : c.body with
  | waiting b s =>
    rw [hb] at h hfits
    have htest : Relation.ReflTransGen (Step P) c { c with body := .waiting b .test } := by
      cases s with
      | lock => exact .single (.bodyLock c b hb hout)
      | test => rw [← hb]
      | park => cases hfits.2.2 rfl
      | asleep => cases hfits.2.2 rfl
      | act => cases hfits.1
      | notify => cases hfits.1
    cases b with
    | none => exact ⟨_, .tail (.tail htest (.bodyStart _ rfl ht)) (.bodySkipped _ rfl ha)⟩
    | some b =>
      cases hu : P.unwind b with
      | none => exact ⟨_, .tail htest (.yieldThrows _ b rfl ht ha hu)⟩
      | some b' =>
        obtain ⟨e, he⟩ := leaves (c := { c with body := .running b' }) rfl (h.2 b' hu)
        exact ⟨e, (htest.tail (.yieldSwallowed _ b b' rfl ht ha hu)).trans he⟩
  | started => exact ⟨_, .single (.bodySkipped c hb ha)⟩
  | running b =>
    rw [hb] at h
    exact leaves hb h
  | yielding b => rw [hb] at h; exact h.elim
  | handing b => rw [hb] at h; exact h.elim
  | finishing => exact ⟨c.error, by rw [← hb]⟩
  | ending => exact absurd hb hq
  | exited => rw [hb] at hfits; cases hfits.2

/-- From the end of `RunBody` to the end of the destructor. -/
theorem joins_of_ending {s : Stage} (hs : s.holds = false) (hw : s.waits = true)
    (hb : c.body = .ending) (hc : c.controller = .waiting .destroy s) :
    ∃ c', Relation.ReflTransGen (Step P) c c' ∧ c'.controller = .gone ∧ c'.done = true := by
  have hup : c.controller.awake = .waiting .destroy .lock := by
    rw [hc]
    cases s <;> simp_all [ControllerPlace.awake, Stage.awake, Stage.holds, Stage.waits]
  have hlocked : Relation.ReflTransGen (Step P) c _ :=
    .tail (.single (.finish c hb)) (.relock _ .destroy hup rfl)
  exact ⟨_, .tail (.tail hlocked (.unwound _ rfl rfl)) (.join _ rfl rfl), rfl, rfl⟩

/-- A destruction under way can go on to its end. -/
theorem Teardown.finishes (h : Teardown P c) (ho : HandOver c) (ha : c.abort = true)
    (ht : c.turn = .coroutine) :
    ∃ c', Relation.ReflTransGen (Step P) c c' ∧ c'.controller = .gone ∧ c'.done = true := by
  obtain ⟨s, hs, hw, hgo⟩ := controller_lets_go P ho ha ht
  have hover := invariant_of_step (I := HandOver) (fun _ _ hc hs => hc.step hs) ho hgo
  by_cases hq : c.body = .ending
  · obtain ⟨d, hd, hdone⟩ := joins_of_ending (P := P) hs hw hq
      (c := { c with controller := .waiting .destroy s }) rfl
    exact ⟨d, hgo.trans hd, hdone⟩
  · obtain ⟨e, he⟩ := Unwinding.finishing (P := P)
      (c := { c with controller := .waiting .destroy s }) (h.unwinding ha) hover ha ht hs hq
    obtain ⟨d, hd, hdone⟩ := joins_of_ending (P := P) hs hw
      (c := { c with controller := .waiting .destroy s, body := .ending, error := e }) rfl rfl
    exact ⟨d, ((hgo.trans he).tail (.enterEnd _ rfl hs)).trans hd, hdone⟩

end

/-- If every destruction comes at a moment at which the suspended body lets the exception pass, then
in every state a body that is being unwound gives the turn back only by its end, the destructor
never joins a body that waits for the turn, and a destruction under way can go on to its end. -/
theorem torn_down_of_destroysClear
    (h : Relation.ReflTransGen (fun a b => Step P a b ∧ DestroysClear P a b) {} c) :
    (c.abort = true → c.turn = .controller → c.done = true) ∧
      (c.controller = .joining → ∀ b s, c.body ≠ .waiting b s) ∧
      (c.abort = true → c.turn = .coroutine → ∃ c', Relation.ReflTransGen (Step P) c c' ∧
        c'.controller = .gone ∧ c'.done = true) := by
  obtain ⟨ho, hd⟩ : HandOver c ∧ Teardown P c :=
    invariant_of_step (I := fun c => HandOver c ∧ Teardown P c)
      (fun _ _ hc hs => ⟨hc.1.step hs.1, hc.2.step hc.1 hs.1 hs.2⟩) ⟨.init, .init⟩ h
  refine ⟨hd.done_of_turn ho, fun hj b s hb => ?_, hd.finishes ho⟩
  rw [ho.exited_of_done (hd.joining (.inl hj))] at hb
  cases hb

end Coroutine

/-- What workflow code asks for: an operation, or `Context::CompleteSession`, the one routine of
the library that catches whatever a `Get` throws. -/
inductive BodyCall (σ : Type) where
  | op (o : Op σ)
  | completeSession (taskQueue : String)

/-- A workflow body in the middle of its run: the runner, the answers seen so far, and the future
whose `Get` it is in inside `CompleteSession`. -/
structure BodyFrame (σ : Type) where
  runner : Runner σ
  answers : List (Resp σ) := []
  completing : Option Nat := none

namespace BodyFrame

variable {σ : Type}

def answer (f : BodyFrame σ) (r : Runner σ) (a : Resp σ) : BodyFrame σ :=
  { runner := r, answers := f.answers ++ [a], completing := none }

def kSessionCompletionActivityType : String := "__temporal_session_completion"

/-- The options of the completion activity, which is routed to the owning host. -/
def completionOptions (taskQueue : String) : ActivityOptions where
  taskQueue
  startToCloseTimeout := 10000

/-- One operation on the runner; whatever is not there yet is waited for in `Yield`. -/
def perform (f : BodyFrame σ) (o : Op σ) (resp : Resp σ → Resp σ) : BodyAct (BodyFrame σ) :=
  match f.runner.exec o with
  | some (r, a) => .work (f.answer r (resp a))
  | none => .yield f

/-- What the code does next. The `Get` of `CompleteSession` gives nothing away of what it met. -/
def next (code : List (Resp σ) → BodyCall σ) (f : BodyFrame σ) : BodyAct (BodyFrame σ) :=
  match f.completing with
  | some addr => f.perform (.get addr) fun _ => .unit
  | none =>
    match code f.answers with
    | .completeSession queue =>
      if queue.isEmpty then .work (f.answer f.runner .unit)
      else .work { f with
        runner := f.runner.scheduleActivity kSessionCompletionActivityType []
          (completionOptions queue)
        completing := some f.runner.futureCount }
    | .op o =>
      match o.outcome? with
      | some outcome => .leave (outcome = .otherException)
      | none => f.perform o id

/-- `CoroutineAbort` is not a `std::exception` and passes every handler but the one of
`CompleteSession`, after which the code goes on. -/
def unwind (f : BodyFrame σ) : Option (BodyFrame σ) :=
  match f.completing with
  | some _ => some (f.answer f.runner .unit)
  | none => none

/-- The coroutine body of a workflow. Between two resumptions the engine may do anything to the
runner. -/
def body (code : List (Resp σ) → BodyCall σ) : Body (BodyFrame σ) where
  start f := f.answers = [] ∧ f.completing = none
  next := next code
  unwind := unwind
  touch f f' := f'.answers = f.answers ∧ f'.completing = f.completing

/-- The body is not suspended in the `Get` of `CompleteSession`, or its code after that call ends
without waiting again. -/
def LetsGo (code : List (Resp σ) → BodyCall σ) (f : BodyFrame σ) : Prop :=
  f.completing = none ∨ (body code).Ends (f.answer f.runner .unit)

theorem unwinds_iff (code : List (Resp σ) → BodyCall σ) (f : BodyFrame σ) :
    (body code).Unwinds f ↔ LetsGo code f := by
  unfold Body.Unwinds LetsGo
  cases hc : f.completing with
  | none => simp [body, unwind, hc]
  | some addr => simp [body, unwind, hc]

/-- If the step is a destruction, the suspended body lets go. -/
def DestroysClear (code : List (Resp σ) → BodyCall σ) (c c' : Coroutine (BodyFrame σ)) : Prop :=
  c.abort = false → c'.abort = true → ∀ f s, c.body = .waiting (some f) s → LetsGo code f

/-- The states that runs with such destructions bring about. -/
def ClearReachable (code : List (Resp σ) → BodyCall σ) (c : Coroutine (BodyFrame σ)) : Prop :=
  Relation.ReflTransGen (fun a b => Coroutine.Step (body code) a b ∧ DestroysClear code a b) {} c

/-- Workflow bodies are torn down, if every destruction finds the body outside of
`CompleteSession` or about to end. -/
theorem torn_down_of_letsGo {code : List (Resp σ) → BodyCall σ} {c : Coroutine (BodyFrame σ)}
    (h : ClearReachable code c) :
    (c.abort = true → c.turn = .controller → c.done = true) ∧
      (c.controller = .joining → ∀ b s, c.body ≠ .waiting b s) ∧
      (c.abort = true → c.turn = .coroutine →
        ∃ c', Relation.ReflTransGen (Coroutine.Step (body code)) c c' ∧
          c'.controller = .gone ∧ c'.done = true) := by
  have hclear : ∀ a b, Coroutine.Step (body code) a b ∧ DestroysClear code a b →
      Coroutine.Step (body code) a b ∧ Coroutine.DestroysClear (body code) a b := by
    rintro a b ⟨hs, hd⟩
    exact ⟨hs, fun ha hb f s hf => (unwinds_iff code f).mpr (hd ha hb f s hf)⟩
  exact Coroutine.torn_down_of_destroysClear (Relation.ReflTransGen.mono hclear _ _ h)

/-- A runner on an empty history. -/
def idle : BodyFrame Unit where
  runner := .new {} false (scanHistory []) (.plain .tagged)
    ⟨(), fun _ _ => .finish (.returned [])⟩ []

/-- A body that sleeps for a second. -/
def sleeps : List (Resp Unit) → BodyCall Unit
  | [] => .op (.startTimer 1000000000)
  | [.future a] => .op (.get a)
  | _ => .op (.finish (.returned []))

theorem destroysClear_of_abort_eq {code : List (Resp σ) → BodyCall σ}
    {c c' : Coroutine (BodyFrame σ)} (h : c'.abort = c.abort) : DestroysClear code c c' := by
  intro ha ha'
  rw [h, ha] at ha'
  cases ha'

/-- A sleeping body is destroyed, and its destructor can go on to its end. -/
theorem sleeper_torn_down : ∃ c, ClearReachable sleeps c ∧ c.abort = true ∧
    (∃ f, c.body = .waiting (some f) .lock) ∧
    ∃ c', Relation.ReflTransGen (Coroutine.Step (body sleeps)) c c' ∧
      c'.controller = .gone ∧ c'.done = true := by
  have hsame {c c' : Coroutine (BodyFrame Unit)} (h : c'.abort = c.abort) :
      DestroysClear sleeps c c' := destroysClear_of_abort_eq h
  have h₁ : ClearReachable sleeps _ :=
    .tail (.tail (.tail (.tail (.tail .refl ⟨.call _ .resume rfl, hsame rfl⟩)
      ⟨.enter _ _ rfl rfl, hsame rfl⟩) ⟨.resume _ rfl rfl, hsame rfl⟩)
      ⟨.waitFails _ _ rfl rfl, hsame rfl⟩) ⟨.sleep _ _ rfl, hsame rfl⟩
  have h₂ : ClearReachable sleeps _ :=
    .tail (.tail (.tail (.tail (.tail (.tail (.tail h₁ ⟨.bodyLock _ _ rfl rfl, hsame rfl⟩)
      ⟨.bodyStart _ rfl rfl, hsame rfl⟩) ⟨.bodyBegin _ idle rfl rfl ⟨rfl, rfl⟩, hsame rfl⟩)
      ⟨.bodyWork _ _ _ rfl rfl, hsame rfl⟩) ⟨.callYield _ _ _ rfl rfl, hsame rfl⟩)
      ⟨.enterYield _ _ rfl rfl, hsame rfl⟩) ⟨.hand _ _ rfl, hsame rfl⟩
  have h₃ : ClearReachable sleeps _ :=
    .tail (.tail (.tail (.tail h₂ ⟨.bodyFails _ _ rfl rfl, hsame rfl⟩)
      ⟨.bodySleep _ _ rfl, hsame rfl⟩) ⟨.relock _ _ rfl rfl, hsame rfl⟩)
      ⟨.resumeReturns _ rfl rfl, hsame rfl⟩
  have h₄ : ClearReachable sleeps _ :=
    .tail (.tail (.tail h₃ ⟨.call _ .destroy rfl, hsame rfl⟩) ⟨.enter _ _ rfl rfl, hsame rfl⟩)
      ⟨.destroy _ rfl rfl, fun _ _ f s hf => by cases hf; exact .inl rfl⟩
  obtain ⟨-, -, hfinishes⟩ := torn_down_of_letsGo h₄
  exact ⟨_, h₄, rfl, ⟨_, rfl⟩, hfinishes rfl rfl⟩

/-- A body that completes a session and then sleeps. -/
def completesThenSleeps : List (Resp Unit) → BodyCall Unit
  | [] => .completeSession "host"
  | _ :: answers => sleeps answers

/-- The body is destroyed while it completes the session. The exception is swallowed, the body goes
on to its timer and waits for the turn, and the destructor waits for the body. -/
theorem teardown_hangs : ∃ c, Coroutine.Reachable (body completesThenSleeps) c ∧
    c.abort = true ∧ c.controller = .joining ∧ ∃ f, c.body = .waiting (some f) .asleep := by
  have h₁ : Coroutine.Reachable (body completesThenSleeps) _ :=
    .tail (.tail (.tail (.tail (.tail .refl (.call _ .resume rfl)) (.enter _ _ rfl rfl))
      (.resume _ rfl rfl)) (.waitFails _ _ rfl rfl)) (.sleep _ _ rfl)
  have h₂ : Coroutine.Reachable (body completesThenSleeps) _ :=
    .tail (.tail (.tail (.tail (.tail (.tail (.tail h₁ (.bodyLock _ _ rfl rfl))
      (.bodyStart _ rfl rfl)) (.bodyBegin _ idle rfl rfl ⟨rfl, rfl⟩)) (.bodyWork _ _ _ rfl rfl))
      (.callYield _ _ _ rfl rfl)) (.enterYield _ _ rfl rfl)) (.hand _ _ rfl)
  have h₃ : Coroutine.Reachable (body completesThenSleeps) _ :=
    .tail (.tail (.tail (.tail h₂ (.bodyFails _ _ rfl rfl)) (.bodySleep _ _ rfl))
      (.relock _ _ rfl rfl)) (.resumeReturns _ rfl rfl)
  have h₄ : Coroutine.Reachable (body completesThenSleeps) _ :=
    .tail (.tail (.tail (.tail (.tail h₃ (.call _ .destroy rfl)) (.enter _ _ rfl rfl))
      (.destroy _ rfl rfl)) (.waitFails _ _ rfl rfl)) (.sleep _ _ rfl)
  have h₅ : Coroutine.Reachable (body completesThenSleeps) _ :=
    .tail (.tail (.tail (.tail (.tail (.tail h₄ (.bodyLock _ _ rfl rfl))
      (.yieldSwallowed _ _ _ rfl rfl rfl rfl)) (.bodyWork _ _ _ rfl rfl))
      (.callYield _ _ _ rfl rfl)) (.enterYield _ _ rfl rfl)) (.hand _ _ rfl)
  have h₆ : Coroutine.Reachable (body completesThenSleeps) _ :=
    .tail (.tail (.tail (.tail h₅ (.bodyFails _ _ rfl rfl)) (.bodySleep _ _ rfl))
      (.relock _ _ rfl rfl)) (.unwound _ rfl rfl)
  exact ⟨_, h₆, rfl, rfl, _, rfl⟩

end BodyFrame
end TemporalSdk
