import Mathlib.Data.Rat.Floor
import TemporalSdk.Lib.Monitor
import TemporalSdk.Lib.Spacing

/-! `RateLimiter` (`internal/worker_impl.h`) under any number of threads and a clock that never
goes back. -/
namespace TemporalSdk
open Monitor Spacing

/-- `RateLimiter`. Times are ticks of the steady clock, as unbounded integers; `interval` is what
`1.0 / per_second_` comes to in ticks, `none` when the rate is not positive. -/
structure RateLimiter where
  interval : Option ℤ
  nextSlot : ℤ := 0
  deriving DecidableEq, Repr

/-- A start time that was handed out: the time of the call, the clock read under the lock, and the
slot found there. -/
structure Grant where
  asked : ℤ
  now : ℤ
  slot : ℤ
  deriving DecidableEq, Repr

namespace Grant

def allowed (g : Grant) : ℤ := if g.slot < g.now then g.now else g.slot

theorem now_le_allowed (g : Grant) : g.now ≤ g.allowed := by
  unfold allowed
  split <;> omega

theorem slot_le_allowed (g : Grant) : g.slot ≤ g.allowed := by
  unfold allowed
  split <;> omega

theorem allowed_of_slot_le {g : Grant} (h : g.slot ≤ g.now) : g.allowed = g.now := by
  unfold allowed
  split <;> omega

end Grant

/-- Where a thread is in `Acquire`. -/
inductive PacePlace where
  | outside
  | lock (asked : ℤ)
  | readClock (asked : ℤ)
  | readSlot (asked now : ℤ)
  | writeSlot (g : Grant)
  | testStop (g : Grant) (slept : Bool)
  | testClock (g : Grant) (slept : Bool)
  | sleeping (g : Grant)
  deriving DecidableEq, Repr

def PacePlace.holds : PacePlace → Bool
  | .readClock _ | .readSlot _ _ | .writeSlot _ => true
  | _ => false

/-- A call that returned: its grant, the clock then, whether it left because it saw `stop`, and
whether it slept before. -/
structure PacedReturn where
  grant : Grant
  time : ℤ
  stopped : Bool
  slept : Bool
  deriving DecidableEq, Repr

/-- A limiter and its threads. Grants and returns are listed from the latest to the first. -/
structure PacedThreads (T : Type) where
  limiter : RateLimiter
  clock : ℤ
  stop : Bool := false
  place : T → PacePlace := fun _ => .outside
  grants : List Grant := []
  returns : List PacedReturn := []

namespace PacedThreads

variable {T : Type} [DecidableEq T]

def goto (c : PacedThreads T) (t : T) (p : PacePlace) : PacedThreads T :=
  { c with place := Function.update c.place t p }

/-- The mutex is free. -/
def Unlocked (c : PacedThreads T) : Prop := Free PacePlace.holds c.place

instance [Fintype T] (c : PacedThreads T) : Decidable c.Unlocked :=
  inferInstanceAs (Decidable (Free PacePlace.holds c.place))

/-- The slot is reserved, and the mutex released. -/
def reserve (c : PacedThreads T) (t : T) (d : ℤ) (g : Grant) : PacedThreads T :=
  { c.goto t (.testStop g false) with
    limiter := { c.limiter with nextSlot := g.allowed + d }
    grants := g :: c.grants }

def leave (c : PacedThreads T) (t : T) (g : Grant) (stopped slept : Bool) : PacedThreads T :=
  { c.goto t .outside with returns := ⟨g, c.clock, stopped, slept⟩ :: c.returns }

/-- One step of one thread, of the clock, or of whoever stops the worker. -/
inductive Step : PacedThreads T → PacedThreads T → Prop
  | tick (c : PacedThreads T) (now : ℤ) (h : c.clock ≤ now) : Step c { c with clock := now }
  | setStop (c : PacedThreads T) : Step c { c with stop := true }
  /-- An unlimited limiter: `Acquire` returns at once. -/
  | callUnlimited (c : PacedThreads T) (t : T) (hp : c.place t = .outside)
    (hi : c.limiter.interval = none) : Step c c
  | call (c : PacedThreads T) (t : T) (d : ℤ) (hp : c.place t = .outside)
    (hi : c.limiter.interval = some d) : Step c (c.goto t (.lock c.clock))
  | lock (c : PacedThreads T) (t : T) (asked : ℤ) (hp : c.place t = .lock asked)
    (hf : c.Unlocked) : Step c (c.goto t (.readClock asked))
  | readClock (c : PacedThreads T) (t : T) (asked : ℤ) (hp : c.place t = .readClock asked) :
    Step c (c.goto t (.readSlot asked c.clock))
  | readSlot (c : PacedThreads T) (t : T) (asked now : ℤ)
    (hp : c.place t = .readSlot asked now) :
    Step c (c.goto t (.writeSlot ⟨asked, now, c.limiter.nextSlot⟩))
  | writeSlot (c : PacedThreads T) (t : T) (g : Grant) (d : ℤ) (hp : c.place t = .writeSlot g)
    (hi : c.limiter.interval = some d) : Step c (c.reserve t d g)
  | stopSeen (c : PacedThreads T) (t : T) (g : Grant) (slept : Bool)
    (hp : c.place t = .testStop g slept) (hs : c.stop = true) : Step c (c.leave t g true slept)
  | stopUnseen (c : PacedThreads T) (t : T) (g : Grant) (slept : Bool)
    (hp : c.place t = .testStop g slept) (hs : c.stop = false) :
    Step c (c.goto t (.testClock g slept))
  | due (c : PacedThreads T) (t : T) (g : Grant) (slept : Bool)
    (hp : c.place t = .testClock g slept) (h : ¬ c.clock < g.allowed) :
    Step c (c.leave t g false slept)
  | early (c : PacedThreads T) (t : T) (g : Grant) (slept : Bool)
    (hp : c.place t = .testClock g slept) (h : c.clock < g.allowed) :
    Step c (c.goto t (.sleeping g))
  | wake (c : PacedThreads T) (t : T) (g : Grant) (hp : c.place t = .sleeping g) :
    Step c (c.goto t (.testStop g true))

/-- A new limiter, and nobody in `Acquire`. -/
def init (interval : Option ℤ) (start : ℤ) : PacedThreads T :=
  { limiter := { interval }, clock := start }

/-- The states the threads can bring about. -/
def Reachable (interval : Option ℤ) (start : ℤ) (c : PacedThreads T) : Prop :=
  Relation.ReflTransGen Step (init interval start) c

end PacedThreads

/-- The slot that follows the last one handed out; the limiter starts at the epoch. -/
def slotAfter (d : ℤ) : List Grant → ℤ
  | [] => 0
  | g :: _ => g.allowed + d

/-- Each grant found the slot that its predecessor left. -/
def Booked (d : ℤ) : List Grant → Prop
  | [] => True
  | g :: before => g.asked ≤ g.now ∧ g.slot = slotAfter d before ∧ Booked d before

namespace Booked

variable {d : ℤ} {g : Grant} {before grants : List Grant}

theorem of_suffix (h : Booked d grants) (hs : before <:+ grants) : Booked d before := by
  induction grants with
  | nil =>
    rw [List.suffix_nil.mp hs]
    trivial
  | cons g rest ih =>
    rcases List.suffix_cons_iff.mp hs with rfl | hrest
    · exact h
    · exact ih h.2.2 hrest

theorem asked_le (h : Booked d grants) (hg : g ∈ grants) : g.asked ≤ g.now := by
  obtain ⟨after, before, rfl⟩ := List.mem_iff_append.mp hg
  exact (h.of_suffix (List.suffix_append after _)).1

/-- The slot only moves forward. -/
theorem allowed_le_slotAfter (hd : 0 ≤ d) (h : Booked d grants) :
    ∀ g ∈ grants, g.allowed + d ≤ slotAfter d grants := by
  induction grants with
  | nil => simp
  | cons e rest ih =>
    intro g hg
    rcases List.mem_cons.mp hg with rfl | hrest
    · exact le_refl _
    · have hle := ih h.2.2 g hrest
      have hslot := e.slot_le_allowed
      rw [h.2.1] at hslot
      show g.allowed + d ≤ e.allowed + d
      omega

theorem descending (hd : 0 ≤ d) (h : Booked d grants) :
    grants.Pairwise fun a b => b.allowed + d ≤ a.allowed := by
  induction grants with
  | nil => exact .nil
  | cons g rest ih =>
    apply List.Pairwise.cons _ (ih h.2.2)
    intro e he
    have hle := allowed_le_slotAfter hd h.2.2 e he
    have hslot := g.slot_le_allowed
    rw [h.2.1] at hslot
    omega

end Booked

/-- What a thread relies on where it is; only the holder of the mutex relies on the slot. -/
def PacePlace.Fits (clock slot : ℤ) (grants : List Grant) : PacePlace → Prop
  | .outside => True
  | .lock asked | .readClock asked => asked ≤ clock
  | .readSlot asked now => asked ≤ now ∧ now ≤ clock
  | .writeSlot g => g.asked ≤ g.now ∧ g.now ≤ clock ∧ g.slot = slot
  | .testStop g slept | .testClock g slept => g ∈ grants ∧ (slept = true → g.now < g.allowed)
  | .sleeping g => g ∈ grants ∧ g.now < g.allowed

theorem PacePlace.Fits.mono {clock clock' slot slot' : ℤ} {grants grants' : List Grant}
    {p : PacePlace} (h : p.Fits clock slot grants) (hclock : clock ≤ clock')
    (hgrants : ∀ g ∈ grants, g ∈ grants') (hslot : p.holds = true → slot' = slot) :
    p.Fits clock' slot' grants' := by
  cases p with
  | outside => trivial
  | lock asked => exact le_trans h hclock
  | readClock asked => exact le_trans h hclock
  | readSlot asked now => exact ⟨h.1, h.2.trans hclock⟩
  | writeSlot g => exact ⟨h.1, h.2.1.trans hclock, h.2.2.trans (hslot rfl).symm⟩
  | testStop g slept => exact ⟨hgrants g h.1, h.2⟩
  | testClock g slept => exact ⟨hgrants g h.1, h.2⟩
  | sleeping g => exact ⟨hgrants g h.1, h.2⟩

/-- What a return says: it came after its granted time or saw `stop`, and slept only if that time
lay ahead. -/
def PacedReturn.Fits (stop : Bool) (grants : List Grant) (r : PacedReturn) : Prop :=
  r.grant ∈ grants ∧ (r.stopped = true → stop = true) ∧
    (r.stopped = false → r.grant.allowed ≤ r.time) ∧
    (r.slept = true → r.grant.now < r.grant.allowed)

/-- The state of a limiter and its threads. -/
structure Paced {T : Type} (d : ℤ) (c : PacedThreads T) : Prop where
  interval : c.limiter.interval = some d
  exclusive : Exclusive PacePlace.holds c.place
  slot : c.limiter.nextSlot = slotAfter d c.grants
  booked : Booked d c.grants
  read : ∀ g ∈ c.grants, g.now ≤ c.clock
  fits : ∀ t, (c.place t).Fits c.clock c.limiter.nextSlot c.grants
  returned : ∀ r ∈ c.returns, r.Fits c.stop c.grants

namespace Paced

variable {T : Type} [DecidableEq T] {d : ℤ} {c c' : PacedThreads T}

omit [DecidableEq T] in
theorem fits_at (h : Paced d c) {t : T} {p : PacePlace} (hp : c.place t = p) :
    p.Fits c.clock c.limiter.nextSlot c.grants := by
  rw [← hp]
  exact h.fits t

/-- One thread goes on, and nothing else changes. -/
theorem goto (h : Paced d c) {t : T} {p : PacePlace}
    (hholds : p.holds = true → c.Unlocked ∨ (c.place t).holds = true)
    (hfits : p.Fits c.clock c.limiter.nextSlot c.grants) : Paced d (c.goto t p) where
  interval := h.interval
  exclusive := by
    by_cases hp : p.holds = true
    · rcases hholds hp with hfree | hold
      · exact Exclusive.lock hfree t p
      · exact h.exclusive.move fun _ => hold
    · exact h.exclusive.move fun hh => absurd hh hp
  slot := h.slot
  booked := h.booked
  read := h.read
  fits u := by
    by_cases hu : u = t
    · subst hu
      simpa [PacedThreads.goto] using hfits
    · simpa [PacedThreads.goto, hu] using h.fits u
  returned := h.returned

/-- The holder of the mutex reserves its slot. -/
theorem reserve (h : Paced d c) {t : T} {g : Grant} (hp : c.place t = .writeSlot g) :
    Paced d (c.reserve t d g) := by
  obtain ⟨hasked, hnow, hslot⟩ := h.fits_at hp
  exact {
    interval := h.interval
    exclusive := h.exclusive.move (l := .testStop g false) fun hh => by cases hh
    slot := rfl
    booked := ⟨hasked, hslot.trans h.slot, h.booked⟩
    read e he := by
      rcases List.mem_cons.mp he with rfl | hold
      · exact hnow
      · exact h.read e hold
    fits u := by
      by_cases hu : u = t
      · subst hu
        simp [PacedThreads.reserve, PacedThreads.goto, PacePlace.Fits]
      · have hfree : (c.place u).holds = false := by
          rw [← Bool.not_eq_true]
          intro hh
          exact hu (h.exclusive u t hh (by rw [hp]; rfl))
        have hold : ((c.reserve t d g).place u) = c.place u := Function.update_of_ne hu _ _
        rw [hold]
        apply (h.fits u).mono le_rfl fun e he => List.mem_cons_of_mem g he
        rw [hfree]
        intro hh
        cases hh
    returned r hr := by
      obtain ⟨hgrant, hrest⟩ := h.returned r hr
      exact ⟨List.mem_cons_of_mem g hgrant, hrest⟩ }

theorem leave (h : Paced d c) {t : T} {g : Grant} {stopped slept : Bool} (hg : g ∈ c.grants)
    (hstop : stopped = true → c.stop = true) (hdue : stopped = false → g.allowed ≤ c.clock)
    (hslept : slept = true → g.now < g.allowed) : Paced d (c.leave t g stopped slept) := by
  have hgone : Paced d (c.goto t .outside) := h.goto (fun hh => by cases hh) trivial
  exact { hgone with
    returned := by
      intro r hr
      rcases List.mem_cons.mp hr with rfl | hold
      · exact ⟨hg, hstop, hdue, hslept⟩
      · exact h.returned r hold }

/-- One step of anybody. -/
theorem step (h : Paced d c) (hs : PacedThreads.Step c c') : Paced d c' := by
  cases hs with
  | tick now hnow =>
    exact { h with
      read := fun g hg => (h.read g hg).trans hnow
      fits := fun t => (h.fits t).mono hnow (fun _ hg => hg) fun _ => rfl }
  | setStop =>
    exact { h with
      returned := by
        intro r hr
        obtain ⟨hgrant, -, hrest⟩ := h.returned r hr
        exact ⟨hgrant, fun _ => rfl, hrest⟩ }
  | callUnlimited t hp hi => exact h
  | call t d' hp hi =>
    apply h.goto
    · intro hh
      cases hh
    · exact le_refl c.clock
  | lock t asked hp hf =>
    apply h.goto
    · intro _
      exact .inl hf
    · exact h.fits_at (p := .lock asked) hp
  | readClock t asked hp =>
    apply h.goto
    · intro _
      exact .inr (by rw [hp]; rfl)
    · exact ⟨h.fits_at hp, le_refl _⟩
  | readSlot t asked now hp =>
    apply h.goto
    · intro _
      exact .inr (by rw [hp]; rfl)
    · obtain ⟨hasked, hnow⟩ := h.fits_at hp
      exact ⟨hasked, hnow, rfl⟩
  | writeSlot t g d' hp hi =>
    have hd : d' = d := Option.some.inj (hi.symm.trans h.interval)
    subst hd
    exact h.reserve hp
  | stopSeen t g slept hp hs =>
    obtain ⟨hg, hslept⟩ := h.fits_at hp
    exact h.leave hg (fun _ => hs) (fun hh => by cases hh) hslept
  | stopUnseen t g slept hp hs =>
    apply h.goto
    · intro hh
      cases hh
    · exact h.fits_at (p := .testStop g slept) hp
  | due t g slept hp hdue =>
    obtain ⟨hg, hslept⟩ := h.fits_at hp
    exact h.leave hg (fun hh => by cases hh) (fun _ => not_lt.mp hdue) hslept
  | early t g slept hp hearly =>
    obtain ⟨hg, -⟩ := h.fits_at hp
    apply h.goto
    · intro hh
      cases hh
    · exact ⟨hg, (h.read g hg).trans_lt hearly⟩
  | wake t g hp =>
    obtain ⟨hg, hlate⟩ := h.fits_at hp
    apply h.goto
    · intro hh
      cases hh
    · exact ⟨hg, fun _ => hlate⟩

omit [DecidableEq T] in
theorem init (d start : ℤ) : Paced d (PacedThreads.init (some d) start : PacedThreads T) where
  interval := rfl
  exclusive := Free.exclusive fun _ => rfl
  slot := rfl
  booked := trivial
  read g hg := by cases hg
  fits _ := trivial
  returned r hr := by cases hr

theorem of_reachable {start : ℤ} (h : PacedThreads.Reachable (some d) start c) : Paced d c :=
  invariant_of_step (fun _ _ hc hs => hc.step hs) (init d start) h

end Paced

namespace PacedThreads

variable {T : Type} [DecidableEq T] {d start : ℤ} {c : PacedThreads T}

/-- The grants of a run, as points of the rational line. -/
theorem Reachable.spaced (hd : 0 ≤ d) (h : Reachable (some d) start c) :
    Spaced (d : ℚ) (fun g : Grant => (g.allowed : ℚ)) c.grants := by
  apply Spaced.of_descending
  apply ((Paced.of_reachable h).booked.descending hd).imp
  intro a b hab
  exact_mod_cast hab

/-- A caller that found the limiter idle never sleeps. -/
theorem Reachable.idle_call (h : Reachable (some d) start c) {g : Grant} (hg : g.slot ≤ g.now) :
    g.allowed = g.now ∧ (∀ t, c.place t ≠ .sleeping g) ∧
      ∀ r ∈ c.returns, r.grant = g → r.slept = false := by
  have hpaced := Paced.of_reachable h
  have hown := Grant.allowed_of_slot_le hg
  refine ⟨hown, ?_, ?_⟩
  · intro t ht
    obtain ⟨-, hlate⟩ := hpaced.fits_at ht
    omega
  · rintro r hr rfl
    obtain ⟨-, -, -, hslept⟩ := hpaced.returned r hr
    rw [← Bool.not_eq_true]
    intro hs
    have hlate := hslept hs
    omega

/-- In every run grants are at least an interval apart, none lies before its call, nobody goes
before its granted time unless it saw `stop`, a window holds no more grants than intervals, and a
call that finds no slot ahead of it goes at once. -/
theorem acquire_paces (hd : 0 < d) (h : Reachable (some d) start c) :
    c.grants.Pairwise (fun g e => d ≤ |g.allowed - e.allowed|) ∧
    (∀ g ∈ c.grants, g.asked ≤ g.now ∧ g.now ≤ g.allowed) ∧
    (∀ r ∈ c.returns, r.grant ∈ c.grants ∧ (c.stop = false → r.grant.allowed ≤ r.time)) ∧
    (∀ x W : ℚ, (c.grants.filter fun g => x ≤ g.allowed ∧ (g.allowed : ℚ) < x + W).length ≤
      ⌈W / d⌉₊) ∧
    ∀ g before, g :: before <:+ c.grants → slotAfter d before ≤ g.now →
      g.allowed = g.now ∧ (∀ t, c.place t ≠ .sleeping g) ∧
        ∀ r ∈ c.returns, r.grant = g → r.slept = false := by
  have hpaced := Paced.of_reachable h
  refine ⟨?_, ?_, ?_, ?_, ?_⟩
  · apply (hpaced.booked.descending hd.le).imp
    intro a b hab
    exact (le_sub_iff_add_le'.mpr hab).trans (le_abs_self _)
  · intro g hg
    exact ⟨hpaced.booked.asked_le hg, g.now_le_allowed⟩
  · intro r hr
    obtain ⟨hgrant, hstop, hdue, -⟩ := hpaced.returned r hr
    refine ⟨hgrant, fun hclear => hdue ?_⟩
    rw [← Bool.not_eq_true]
    intro hs
    rw [hstop hs] at hclear
    cases hclear
  · exact (h.spaced hd.le).window_le (by exact_mod_cast hd)
  · intro g before hs hidle
    have hslot := (hpaced.booked.of_suffix hs).2.1
    exact h.idle_call (hslot.trans_le hidle)

/-- Two threads call a limiter of ten ticks at tick 100. The second is granted tick 110, sleeps and
goes at 112. -/
theorem two_calls_paced : ∃ c : PacedThreads (Fin 2), c.stop = false ∧
    c.grants.map Grant.allowed = [110, 100] ∧ c.returns.map PacedReturn.time = [112, 100] ∧
    c.grants.Pairwise (fun g e => 10 ≤ |g.allowed - e.allowed|) := by
  have h₁ : Reachable (T := Fin 2) (some 10) 100 _ :=
    .tail (.tail (.tail (.tail (.tail .refl (.call _ 0 10 rfl rfl)) (.call _ 1 10 rfl rfl))
      (.lock _ 0 100 rfl (by decide))) (.readClock _ 0 100 rfl)) (.readSlot _ 0 100 100 rfl)
  have h₂ : Reachable (T := Fin 2) (some 10) 100 _ :=
    .tail (.tail (.tail h₁ (.writeSlot _ 0 ⟨100, 100, 0⟩ 10 rfl rfl))
      (.stopUnseen _ 0 ⟨100, 100, 0⟩ false rfl rfl))
      (.due _ 0 ⟨100, 100, 0⟩ false rfl (by decide))
  have h₃ : Reachable (T := Fin 2) (some 10) 100 _ :=
    .tail (.tail (.tail (.tail h₂ (.lock _ 1 100 rfl (by decide))) (.readClock _ 1 100 rfl))
      (.readSlot _ 1 100 100 rfl)) (.writeSlot _ 1 ⟨100, 100, 110⟩ 10 rfl rfl)
  have h₄ : Reachable (T := Fin 2) (some 10) 100 _ :=
    .tail (.tail (.tail h₃ (.stopUnseen _ 1 ⟨100, 100, 110⟩ false rfl rfl))
      (.early _ 1 ⟨100, 100, 110⟩ false rfl (by decide))) (.tick _ 112 (by decide))
  have h₅ : Reachable (T := Fin 2) (some 10) 100 _ :=
    .tail (.tail (.tail h₄ (.wake _ 1 ⟨100, 100, 110⟩ rfl))
      (.stopUnseen _ 1 ⟨100, 100, 110⟩ true rfl rfl))
      (.due _ 1 ⟨100, 100, 110⟩ true rfl (by decide))
  exact ⟨_, rfl, rfl, rfl, (acquire_paces (by decide) h₅).1⟩

end PacedThreads
end TemporalSdk
