import TemporalSdk.Calls

/-! Calls of `Handle` made by several poller threads. `cache_mu_` covers the lookup alone, so
the runner a call has found is then used while other calls may find it too. -/
namespace TemporalSdk

/-- The poller threads of a worker: the handler's state and the calls in flight. -/
structure Pollers (σ : Type) where
  state : HandlerState σ
  calls : PartialMap Nat (Call σ)

/-- A poller receives a task, or takes the next step of its call. -/
inductive Action where
  | deliver (t : Nat) (remote : Remote) (task : WorkflowTask)
  | advance (t : Nat)

def Action.poller : Action → Nat
  | .deliver t _ _ | .advance t => t

namespace Pollers

variable {σ : Type} (h : TaskHandler σ)

def init (capacity : Nat) : Pollers σ := ⟨{ cache := .empty capacity }, fun _ => none⟩

/-- The server has one workflow task and any number of queries outstanding for a run. -/
def Admits (p : Pollers σ) (task : WorkflowTask) : Prop :=
  task.query = none → ∀ t c, p.calls t = some c → c.task.query = none → c.task.runId ≠ task.runId

def Enabled (p : Pollers σ) : Action → Prop
  | .deliver t _ task => p.calls t = none ∧ p.Admits task
  | .advance t => p.calls t ≠ none

/-- The worker after an action. -/
def after (p : Pollers σ) : Action → Pollers σ
  | .deliver t remote task => { p with calls := Function.update p.calls t (h.begin remote task) }
  | .advance t =>
    match p.calls t with
    | none => p
    | some c => ⟨(h.callStep p.state c).1, Function.update p.calls t
        ((h.callStep p.state c).2.map fun phase => { c with phase })⟩

/-- No call resumes a runner or runs a handler of it while another has its coroutine running. -/
def Exclusive (p : Pollers σ) : Prop :=
  ∀ t u c d addr k, t ≠ u → p.calls t = some c → p.calls u = some d →
    c.phase.using? = some (addr, .resume) → d.phase.using? ≠ some (addr, k)

/-- A call takes a cached runner only if neither it nor a call that holds the runner has still
to resume it. -/
def TakesParked (p : Pollers σ) : Action → Prop
  | .deliver .. => True
  | .advance t => ∀ c fn events addr, p.calls t = some c → c.phase = .lookup fn events →
      (TaskHandler.lookupCached p.state c.task.runId events c.task.query.isSome).1 = some addr →
      ∀ u d, u ≠ t → p.calls u = some d → d.phase.addr? = some addr →
        c.task.query ≠ none ∧ d.phase.mayResume = false

/-- The worker goes from one state to another by actions that meet `ok`. -/
inductive Runs (ok : Pollers σ → Action → Prop) : Pollers σ → Pollers σ → Prop
  | refl (p : Pollers σ) : Runs ok p p
  | tail {p q : Pollers σ} {a : Action} :
    Runs ok p q → q.Enabled a → ok q a → Runs ok p (q.after h a)

/-- Pointers are allocated, and a runner that some call has still to resume is in the hands of
that call alone. -/
structure Separated (p : Pollers σ) : Prop where
  cached : ∀ k addr, p.state.cache.peek k = some addr → addr < p.state.nextRunner
  held : ∀ t c addr, p.calls t = some c → c.phase.addr? = some addr → addr < p.state.nextRunner
  alone : ∀ t u c d addr, t ≠ u → p.calls t = some c → p.calls u = some d →
    c.phase.addr? = some addr → d.phase.addr? = some addr → c.phase.mayResume = false

variable {h}

theorem Separated.exclusive {p : Pollers σ} (hp : p.Separated) : p.Exclusive := by
  intro t u c d addr k htu hc hd hr hk
  have hmay := hp.alone t u c d addr htu hc hd (Phase.addr?_of_using? hr) (Phase.addr?_of_using? hk)
  rw [Phase.mayResume_of_using? hr] at hmay
  cases hmay

theorem Separated.init (capacity : Nat) : (Pollers.init (σ := σ) capacity).Separated where
  cached _ _ h := by cases h
  held _ _ _ h := by cases h
  alone _ _ _ _ _ _ h := by cases h

/-- A poller whose call holds no runner. -/
theorem Separated.deliver {p : Pollers σ} (hp : p.Separated) {t : Nat} {call : Option (Call σ)}
    (hnone : ∀ c, call = some c → c.phase.addr? = none) :
    Separated { p with calls := Function.update p.calls t call } := by
  have hold : ∀ u c addr, Function.update p.calls t call u = some c →
      c.phase.addr? = some addr → p.calls u = some c := by
    intro u c addr hu ha
    by_cases hut : u = t
    · subst hut
      rw [Function.update_self] at hu
      rw [hnone c hu] at ha
      cases ha
    · rw [Function.update_of_ne hut] at hu
      exact hu
  refine ⟨hp.cached, fun u c addr hu ha => ?_, fun t' u c d addr htu hc hd ha hb => ?_⟩
  · exact hp.held u c addr (hold u c addr hu ha) ha
  · exact hp.alone t' u c d addr htu (hold t' c addr hc ha) (hold u d addr hd hb) ha hb

/-- A step that keeps the pointer, or ends the call. -/
theorem Separated.keep {p : Pollers σ} (hp : p.Separated) {t : Nat} {c : Call σ}
    (hc : p.calls t = some c) {s' : HandlerState σ} {next : Option (Phase σ)}
    (hnext : ∀ q, next = some q →
      q.addr? = c.phase.addr? ∧ (q.mayResume = true → c.phase.mayResume = true))
    (hn : s'.nextRunner = p.state.nextRunner)
    (hcache : ∀ k addr, s'.cache.peek k = some addr →
      p.state.cache.peek k = some addr ∨ c.phase.addr? = some addr) :
    Separated ⟨s', Function.update p.calls t (next.map fun phase => { c with phase })⟩ := by
  -- every call of the new state goes back to one of the old state that holds the same runner
  have hold : ∀ u d, Function.update p.calls t (next.map fun phase => { c with phase }) u = some d →
      ∃ d', p.calls u = some d' ∧ d.phase.addr? = d'.phase.addr? ∧
        (d.phase.mayResume = true → d'.phase.mayResume = true) := by
    intro u d hu
    by_cases hut : u = t
    · subst hut
      rw [Function.update_self] at hu
      obtain ⟨q, hq, rfl⟩ := Option.map_eq_some_iff.mp hu
      exact ⟨c, hc, hnext q hq⟩
    · rw [Function.update_of_ne hut] at hu
      exact ⟨d, hu, rfl, fun hm => hm⟩
  refine ⟨fun k addr hk => ?_, fun u d addr hu ha => ?_, fun u v d e addr huv hd he ha hb => ?_⟩
  · change addr < s'.nextRunner
    rw [hn]
    rcases hcache k addr hk with hold | hmine
    · exact hp.cached k addr hold
    · exact hp.held t c addr hc hmine
  · change addr < s'.nextRunner
    obtain ⟨d', hd', haddr, -⟩ := hold u d hu
    rw [hn]
    exact hp.held u d' addr hd' (haddr ▸ ha)
  · obtain ⟨d', hd', haddr, hmay⟩ := hold u d hd
    obtain ⟨e', he', haddr', -⟩ := hold v e he
    have hfree := hp.alone u v d' e' addr huv hd' he' (haddr ▸ ha) (haddr' ▸ hb)
    by_contra hm
    rw [Bool.not_eq_false] at hm
    rw [hmay hm] at hfree
    cases hfree

/-- A step that takes up a runner which nobody else has still to resume. -/
theorem Separated.take {p : Pollers σ} (hp : p.Separated) {t : Nat} {c : Call σ}
    {s' : HandlerState σ} {q : Phase σ} {addr : Nat} (ha : q.addr? = some addr)
    (hn : p.state.nextRunner ≤ s'.nextRunner) (hlt : addr < s'.nextRunner)
    (hcache : ∀ k, s'.cache.peek k = p.state.cache.peek k)
    (hfree : ∀ u d, u ≠ t → p.calls u = some d → d.phase.addr? = some addr →
      q.mayResume = false ∧ d.phase.mayResume = false) :
    Separated ⟨s', Function.update p.calls t (some { c with phase := q })⟩ := by
  have hold : ∀ u d, Function.update p.calls t (some { c with phase := q }) u = some d →
      (u = t ∧ d.phase = q) ∨ (u ≠ t ∧ p.calls u = some d) := by
    intro u d hu
    by_cases hut : u = t
    · subst hut
      rw [Function.update_self, Option.some.injEq] at hu
      exact .inl ⟨rfl, by rw [← hu]⟩
    · rw [Function.update_of_ne hut] at hu
      exact .inr ⟨hut, hu⟩
  have heq : ∀ a, q.addr? = some a → a = addr := fun a hq => by
    rw [ha, Option.some.injEq] at hq
    exact hq.symm
  refine ⟨fun k a hk => ?_, fun u d a hu hd => ?_, fun u v d e a huv hd he hda hea => ?_⟩
  · exact Nat.lt_of_lt_of_le (hp.cached k a (hcache k ▸ hk)) hn
  · rcases hold u d hu with ⟨-, rfl⟩ | ⟨-, hu⟩
    · exact heq a hd ▸ hlt
    · exact Nat.lt_of_lt_of_le (hp.held u d a hu hd) hn
  · rcases hold u d hd with ⟨rfl, hq⟩ | ⟨hut, hd'⟩ <;>
      rcases hold v e he with ⟨rfl, hq'⟩ | ⟨hvt, he'⟩
    · exact absurd rfl huv
    · exact hq ▸ (hfree v e hvt he' (heq a (hq ▸ hda) ▸ hea)).1
    · exact (hfree u d hut hd' (heq a (hq' ▸ hea) ▸ hda)).2
    · exact hp.alone u v d e a huv hd' he' hda hea

theorem begin_addr? {remote : Remote} {task : WorkflowTask} {c : Call σ}
    (hc : h.begin remote task = some c) : c.phase.addr? = none := by
  unfold TaskHandler.begin at hc
  split at hc
  · cases hc
  · split at hc <;> cases hc
    rfl

theorem Separated.after {p : Pollers σ} (hp : p.Separated) {a : Action} (hok : p.TakesParked a) :
    (p.after h a).Separated := by
  cases a with
  | deliver t remote task => exact hp.deliver fun c hc => begin_addr? hc
  | advance t =>
    unfold Pollers.after
    dsimp only
    split
    · exact hp
    · next c hc =>
      cases TaskHandler.callStep_moves (h := h) (s := p.state) (c := c) with
      | keep hnext hn hcache => exact hp.keep hc hnext hn hcache
      | fresh q hq ha hn hcache =>
        rw [hq]
        refine hp.take ha (by omega) (by omega) hcache fun u d _ hd hda => ?_
        exact absurd (hp.held u d _ hd hda) (Nat.lt_irrefl _)
      | hit fn events q addr hphase hl hq ha hresume hn hcache =>
        rw [hq]
        have hlt := hp.cached _ _ (TaskHandler.peek_of_lookupCached hl)
        refine hp.take ha (Nat.le_of_eq hn.symm) (hn ▸ hlt) hcache fun u d hut hd hda => ?_
        obtain ⟨hquery, hmay⟩ := hok c fn events addr hc hphase hl u d hut hd hda
        refine ⟨?_, hmay⟩
        by_contra hm
        exact hquery (hresume (Bool.not_eq_false _ ▸ hm))

/-- In every run in which no call takes a cached runner that it or a holder of it has still to
resume, a runner is used by one call while its coroutine runs. -/
theorem exclusive_of_takesParked (capacity : Nat) {p : Pollers σ}
    (hrun : Runs h TakesParked (init capacity) p) : p.Exclusive := by
  suffices hsep : p.Separated from hsep.exclusive
  induction hrun with
  | refl => exact .init capacity
  | tail _ _ hok ih => exact ih.after hok

end Pollers

/-- An order that can be asked for its status while it waits. -/
def askedWorkflow : WorkflowFn Unit where
  init := ()
  body _ trace :=
    match trace with
    | [] => .setQueryHandler "status" fun _ _ => .finish (.returned [])
    | _ => .receive "done"

def askedHandler : TaskHandler Unit :=
  { orderHandler with workflows := fun _ => some askedWorkflow }

/-- A direct query of the order's run. -/
def statusQuery : WorkflowTask :=
  { orderTask [] with page := {}, query := some { queryType := "status" } }

/-- One poller serves the first task to its end and goes on with the signal; while it has the
coroutine running, the other poller looks the run up for a query and calls its handler. -/
def racingActions : List Action :=
  .deliver 0 .accepting (orderTask []) :: List.replicate 5 (.advance 0) ++
    [.deliver 0 .accepting (orderContinuation "Order" 3), .advance 0, .advance 0,
      .deliver 1 .accepting statusQuery, .advance 1, .advance 1]

namespace Pollers

variable {σ : Type}

/-- `Enabled`, when only the pollers `ts` have calls. -/
def enabledAmong (ts : List Nat) (p : Pollers σ) : Action → Bool
  | .deliver t _ task => (p.calls t).isNone && (task.query.isSome ||
      ts.all fun u => (p.calls u).all fun c => c.task.query.isSome || c.task.runId != task.runId)
  | .advance t => (p.calls t).isSome

/-- No other call of the pollers `ts` that holds the runner has still to resume it. -/
def parkedFor (ts : List Nat) (p : Pollers σ) (t : Nat) (c : Call σ) (addr : Nat) : Bool :=
  ts.all fun u => u == t || (p.calls u).all fun d =>
    d.phase.addr? != some addr || (c.task.query.isSome && !d.phase.mayResume)

/-- `TakesParked`, when only the pollers `ts` have calls. -/
def parkedAmong (ts : List Nat) (p : Pollers σ) : Action → Bool
  | .deliver .. => true
  | .advance t => (p.calls t).all fun c =>
    match c.phase with
    | .lookup _ events => (TaskHandler.lookupCached p.state c.task.runId events
        c.task.query.isSome).1.all (p.parkedFor ts t c)
    | _ => true

/-- A sequence of actions of the pollers `ts` that are all possible and pass a check. -/
def runsAmong (h : TaskHandler σ) (ts : List Nat) (check : Pollers σ → Action → Bool)
    (p : Pollers σ) : List Action → Bool
  | [] => true
  | a :: as => ts.contains a.poller && p.enabledAmong ts a && check p a &&
      runsAmong h ts check (p.after h a) as

section Among

variable {h : TaskHandler σ} {ts : List Nat} {p : Pollers σ}

theorem enabled_of_among (hothers : ∀ u, u ∉ ts → p.calls u = none) {a : Action}
    (ha : p.enabledAmong ts a = true) : p.Enabled a := by
  cases a with
  | advance t => exact Option.isSome_iff_ne_none.mp ha
  | deliver t remote task =>
    simp only [enabledAmong, Bool.and_eq_true, Bool.or_eq_true, Option.isNone_iff_eq_none] at ha
    refine ⟨ha.1, fun hquery u c hc hworkflow => ?_⟩
    have hu : u ∈ ts := by
      by_contra hu
      cases hc.symm.trans (hothers u hu)
    rw [hquery] at ha
    have hall := List.all_eq_true.mp (ha.2.resolve_left Bool.false_ne_true) u hu
    rw [hc, Option.all_some, hworkflow] at hall
    simpa using hall

theorem takesParked_of_among (hothers : ∀ u, u ∉ ts → p.calls u = none) {a : Action}
    (ha : p.parkedAmong ts a = true) : p.TakesParked a := by
  cases a with
  | deliver t remote task => trivial
  | advance t =>
    intro c fn events addr hc hphase hfound u d hut hd haddr
    have hu : u ∈ ts := by
      by_contra hu
      cases hd.symm.trans (hothers u hu)
    simp only [parkedAmong, hc, Option.all_some, hphase, hfound] at ha
    have hone := List.all_eq_true.mp ha u hu
    simpa [hut, hd, haddr, Option.isSome_iff_ne_none] using hone

theorem after_calls_of_ne {a : Action} {t : Nat} (hne : t ≠ a.poller) :
    (p.after h a).calls t = p.calls t := by
  cases a with
  | deliver u remote task => exact Function.update_of_ne hne _ _
  | advance u =>
    unfold after
    dsimp only
    split
    · rfl
    · exact Function.update_of_ne hne _ _

/-- What is checked of the given pollers holds, as the others have no calls. -/
theorem runs_of_among (ts : List Nat) (check : Pollers σ → Action → Bool)
    {ok : Pollers σ → Action → Prop}
    (hok : ∀ q a, (∀ u, u ∉ ts → q.calls u = none) → check q a = true → ok q a)
    {as : List Action} {q : Pollers σ} (hr : Runs h ok p q)
    (hothers : ∀ u, u ∉ ts → q.calls u = none) (has : q.runsAmong h ts check as = true) :
    Runs h ok p (as.foldl (after h) q) := by
  induction as generalizing q with
  | nil => exact hr
  | cons a as ih =>
    simp only [runsAmong, Bool.and_eq_true, List.contains_iff_mem] at has
    obtain ⟨⟨⟨hmem, henabled⟩, hcheck⟩, hrest⟩ := has
    refine ih (hr.tail (enabled_of_among hothers henabled) (hok q a hothers hcheck))
      (fun u hu => ?_) hrest
    have hne : u ≠ a.poller := fun hua => hu (hua ▸ hmem)
    rw [after_calls_of_ne hne, hothers u hu]

end Among
end Pollers

/-- The first poller resumes the signaled order while the second has a query of it in hand. The
coroutine yields, the second poller finds the runner that the first still holds and calls the
handler, and the first goes on to resume another order. -/
def takingTurns : List Action :=
  .deliver 0 .accepting (orderTask []) :: List.replicate 5 (.advance 0) ++
    [.deliver 0 .accepting (orderContinuation "Order" 3), .advance 0, .advance 0,
      .deliver 1 .accepting statusQuery, .advance 0, .advance 1, .advance 1,
      .advance 0, .advance 0, .deliver 0 .accepting { orderTask [] with runId := "run-2" },
      .advance 0, .advance 0]

/-- What the pollers of a state are doing, and to which runner. -/
def Pollers.uses {σ : Type} (p : Pollers σ) (ts : List Nat) : List (Option (Nat × Use)) :=
  ts.map fun t => (p.calls t).bind (·.phase.using?)

/-- Two pollers, of which the second takes a runner that the first holds past its resume: in the
end one resumes a coroutine and the other runs a handler, of another runner. -/
theorem exclusive_of_takingTurns :
    (((takingTurns.take 12).foldl (Pollers.after askedHandler) (.init 0)).calls 0).bind
        (·.phase.addr?) = some 0 ∧
      ((takingTurns.take 13).foldl (Pollers.after askedHandler) (.init 0)).uses [0, 1] =
        [none, some (0, .handler)] ∧
      (takingTurns.foldl (Pollers.after askedHandler) (.init 0)).uses [0, 1] =
        [some (1, .resume), some (0, .handler)] ∧
      (takingTurns.foldl (Pollers.after askedHandler) (.init 0)).Exclusive :=
  ⟨by decide +kernel, by decide +kernel, by decide +kernel,
    Pollers.exclusive_of_takesParked 0
      (Pollers.runs_of_among [0, 1] (Pollers.parkedAmong [0, 1])
        (fun _ _ hothers => Pollers.takesParked_of_among hothers) (.refl _) (fun _ _ => rfl)
        (by decide +kernel))⟩

/-- A query handler runs while the coroutine of its runner is between `Resume` and `Yield`. -/
theorem query_races_resume :
    ∃ p, Pollers.Runs askedHandler (fun _ _ => True) (.init 0) p ∧ ¬ p.Exclusive := by
  refine ⟨racingActions.foldl (Pollers.after askedHandler) (.init 0),
    Pollers.runs_of_among [0, 1] (fun _ _ => true) (fun _ _ _ _ => trivial) (.refl _)
      (fun _ _ => rfl) (by decide +kernel), fun hex => ?_⟩
  have h₀ : ((racingActions.foldl (Pollers.after askedHandler) (.init 0)).calls 0).bind
      (·.phase.using?) = some (0, .resume) := by decide +kernel
  have h₁ : ((racingActions.foldl (Pollers.after askedHandler) (.init 0)).calls 1).bind
      (·.phase.using?) = some (0, .handler) := by decide +kernel
  obtain ⟨c, hc, hcu⟩ := Option.bind_eq_some_iff.mp h₀
  obtain ⟨d, hd, hdu⟩ := Option.bind_eq_some_iff.mp h₁
  exact hex 0 1 c d 0 .handler (by decide) hc hd hcu hdu

end TemporalSdk
