import Mathlib.Data.List.Induction
import Mathlib.Logic.Function.Basic

/-! Compare-and-exchange loops on one atomic cell. Every load, test and exchange is a move of its
own, and an exchange may fail spuriously. -/
namespace CasLoop

variable {T V : Type*}

/-- What a call does to the cell: a loop around what `update` says, which may be to give up, or one
read-modify-write. -/
inductive Rmw (V : Type*) where
  | loop (update : V → Option V)
  | fetch (update : V → V)

def Rmw.update : Rmw V → V → Option V
  | .loop update, v => update v
  | .fetch update, v => some (update v)

/-- Where a call is. `cur` is the expected value; `done` keeps it with what was written, if
anything was. -/
inductive Place (V : Type*) where
  | idle
  | load
  | fetch
  | test (cur : V)
  | swap (cur new : V)
  | done (cur : V) (new : Option V)
  deriving DecidableEq, Repr

/-- The call has begun and not ended. -/
def Place.Active : Place V → Prop
  | .idle | .done _ _ => False
  | _ => True

/-- What the call has written. -/
def Place.written : Place V → List (V × V)
  | .done cur (some new) => [(cur, new)]
  | _ => []

theorem Place.Active.written {p : Place V} (h : p.Active) : p.written = [] := by
  cases p with
  | done cur new => cases h
  | _ => rfl

def Rmw.first : Rmw V → Place V
  | .loop _ => .load
  | .fetch _ => .fetch

def Rmw.tested (op : Rmw V) (cur : V) : Place V :=
  match op.update cur with
  | none => .done cur none
  | some new => .swap cur new

@[simp] theorem Rmw.first_written (op : Rmw V) : op.first.written = [] := by cases op <;> rfl

@[simp] theorem Rmw.tested_written (op : Rmw V) (cur : V) : (op.tested cur).written = [] := by
  unfold tested
  split <;> rfl

/-- The cell and its calls. -/
structure Atomic (T V : Type*) where
  value : V
  place : T → Place V := fun _ => .idle

/-- One atomic move of one call; `spurious` is the will of the hardware. -/
structure Move (T : Type*) where
  call : T
  spurious : Bool := false
  deriving DecidableEq, Repr

section Run

variable [DecidableEq T]

def Atomic.goto (c : Atomic T V) (t : T) (p : Place V) : Atomic T V :=
  { c with place := Function.update c.place t p }

/-- The call ends with its write. -/
def Atomic.finish (c : Atomic T V) (t : T) (cur : V) (new : Option V) : Atomic T V :=
  { value := new.getD c.value, place := Function.update c.place t (.done cur new) }

@[simp] theorem Atomic.goto_self (c : Atomic T V) (t : T) (p : Place V) :
    (c.goto t p).place t = p :=
  Function.update_self ..

@[simp] theorem Atomic.goto_value (c : Atomic T V) (t : T) (p : Place V) :
    (c.goto t p).value = c.value := rfl

theorem Atomic.goto_of_ne (c : Atomic T V) {t u : T} (h : u ≠ t) (p : Place V) :
    (c.goto t p).place u = c.place u :=
  Function.update_of_ne h ..

@[simp] theorem Atomic.finish_value (c : Atomic T V) (t : T) (cur : V) (new : Option V) :
    (c.finish t cur new).value = new.getD c.value := rfl

theorem Atomic.finish_of_ne (c : Atomic T V) {t u : T} (h : u ≠ t) (cur : V) (new : Option V) :
    (c.finish t cur new).place u = c.place u :=
  Function.update_of_ne h ..

@[simp] theorem Atomic.finish_self (c : Atomic T V) (t : T) (cur : V) (new : Option V) :
    (c.finish t cur new).place t = .done cur new :=
  Function.update_self ..

variable [DecidableEq V] (ops : T → Rmw V)

def step (c : Atomic T V) (m : Move T) : Option (Atomic T V) :=
  match c.place m.call with
  | .idle => some (c.goto m.call (ops m.call).first)
  | .load => some (c.goto m.call (.test c.value))
  | .fetch => some (c.finish m.call c.value ((ops m.call).update c.value))
  | .test cur => some (c.goto m.call ((ops m.call).tested cur))
  | .swap cur new =>
    if c.value = cur ∧ m.spurious = false then some (c.finish m.call cur (some new))
    else some (c.goto m.call (.test c.value))
  | .done _ _ => none

def run (c : Atomic T V) : List (Move T) → Option (Atomic T V)
  | [] => some c
  | m :: ms => (step ops c m).bind fun c' => run c' ms

/-- The values before and after each move of `t` that changed the cell. -/
def changes (c : Atomic T V) (t : T) : List (Move T) → List (V × V)
  | [] => []
  | m :: ms =>
    match step ops c m with
    | none => []
    | some c' =>
      (if m.call = t ∧ c'.value ≠ c.value then [(c.value, c'.value)] else []) ++ changes c' t ms

variable {ops} {c c' : Atomic T V} {m : Move T} {t : T} {ms : List (Move T)}

/-- Everything a move can do: begin, read, test, or end with a write. -/
theorem step_cases (h : step ops c m = some c') :
    (c.place m.call = .idle ∧ c' = c.goto m.call (ops m.call).first) ∨
    ((c.place m.call).Active ∧ c' = c.goto m.call (.test c.value)) ∨
    (∃ cur, c.place m.call = .test cur ∧ c' = c.goto m.call ((ops m.call).tested cur)) ∨
    (∃ new, c.place m.call = .swap c.value new ∧ c' = c.finish m.call c.value (some new)) ∨
    (c.place m.call = .fetch ∧
      c' = c.finish m.call c.value ((ops m.call).update c.value)) := by
  unfold step at h
  cases hp : c.place m.call with
  | idle =>
    rw [hp] at h
    exact .inl ⟨rfl, (Option.some.inj h).symm⟩
  | load =>
    rw [hp] at h
    exact .inr (.inl ⟨trivial, (Option.some.inj h).symm⟩)
  | fetch =>
    rw [hp] at h
    exact .inr (.inr (.inr (.inr ⟨rfl, (Option.some.inj h).symm⟩)))
  | test cur =>
    rw [hp] at h
    exact .inr (.inr (.inl ⟨cur, rfl, (Option.some.inj h).symm⟩))
  | swap cur new =>
    rw [hp] at h
    by_cases heq : c.value = cur ∧ m.spurious = false
    · obtain ⟨rfl, hs⟩ := heq
      simp only [hs, and_self, if_true] at h
      exact .inr (.inr (.inr (.inl ⟨new, rfl, (Option.some.inj h).symm⟩)))
    · simp only [heq, if_false] at h
      exact .inr (.inl ⟨trivial, (Option.some.inj h).symm⟩)
  | done cur new =>
    rw [hp] at h
    cases h

theorem step_place_of_ne (h : step ops c m = some c') (ht : t ≠ m.call) :
    c'.place t = c.place t := by
  rcases step_cases h with ⟨-, rfl⟩ | ⟨-, rfl⟩ | ⟨cur, -, rfl⟩ | ⟨new, -, rfl⟩ | ⟨-, rfl⟩
  all_goals exact Function.update_of_ne ht _ _

theorem run_append (c : Atomic T V) (ms ns : List (Move T)) :
    run ops c (ms ++ ns) = (run ops c ms).bind fun s => run ops s ns := by
  induction ms generalizing c with
  | nil => rfl
  | cons m ms ih =>
    rw [List.cons_append, run, run, Option.bind_assoc]
    congr 1
    funext s
    exact ih s

theorem run_concat_iff : run ops c (ms ++ [m]) = some c' ↔
    ∃ s, run ops c ms = some s ∧ step ops s m = some c' := by
  rw [run_append, Option.bind_eq_some_iff]
  simp [run]

/-- What each step keeps, each run keeps. -/
theorem run_invariant {I : Atomic T V → Prop} (hkeep : ∀ a m b, I a → step ops a m = some b → I b)
    (h : I c) (hr : run ops c ms = some c') : I c' := by
  induction ms generalizing c with
  | nil =>
    obtain rfl : c = c' := Option.some.inj hr
    exact h
  | cons m ms ih =>
    obtain ⟨s, hs, hrest⟩ := Option.bind_eq_some_iff.mp hr
    exact ih (hkeep c m s h hs) hrest

/-- A value is only exchanged for what the update says of it, and a finished call tells what it
said. -/
def Place.Fits (op : Rmw V) : Place V → Prop
  | .swap cur new => op.update cur = some new
  | .done cur new => new = op.update cur
  | _ => True

omit [DecidableEq V] in
theorem Rmw.fits_first (op : Rmw V) : op.first.Fits op := by cases op <;> trivial

omit [DecidableEq V] in
theorem Rmw.fits_tested (op : Rmw V) (cur : V) : (op.tested cur).Fits op := by
  unfold tested
  cases hu : op.update cur with
  | none => exact hu.symm
  | some new => exact hu

/-- The updates never leave `I`. -/
def Keeps (ops : T → Rmw V) (I : V → Prop) : Prop :=
  ∀ t v new, I v → (ops t).update v = some new → I new

/-- The cell holds a good value and its calls fit. -/
structure Sound (ops : T → Rmw V) (I : V → Prop) (c : Atomic T V) : Prop where
  value : I c.value
  fits : ∀ t, (c.place t).Fits (ops t)

namespace Sound

variable {I : V → Prop}

omit [DecidableEq V] in
theorem goto (h : Sound ops I c) {p : Place V} (hp : p.Fits (ops t)) :
    Sound ops I (c.goto t p) where
  value := h.value
  fits u := by
    by_cases hu : u = t
    · subst hu
      rwa [Atomic.goto_self]
    · rw [c.goto_of_ne hu]
      exact h.fits u

omit [DecidableEq V] in
theorem finish (hI : Keeps ops I) (h : Sound ops I c) {new : Option V}
    (hnew : new = (ops t).update c.value) : Sound ops I (c.finish t c.value new) where
  value := by
    cases hu : new with
    | none => exact h.value
    | some v => exact hI t c.value v h.value (hnew.symm.trans hu)
  fits u := by
    by_cases hut : u = t
    · subst hut
      rwa [Atomic.finish_self]
    · rw [c.finish_of_ne hut]
      exact h.fits u

theorem step (hI : Keeps ops I) (h : Sound ops I c) (hs : step ops c m = some c') :
    Sound ops I c' := by
  rcases step_cases hs with ⟨-, rfl⟩ | ⟨-, rfl⟩ | ⟨cur, -, rfl⟩ | ⟨new, hp, rfl⟩ | ⟨-, rfl⟩
  · exact h.goto (ops m.call).fits_first
  · exact h.goto trivial
  · exact h.goto ((ops m.call).fits_tested cur)
  · apply h.finish hI
    have hfits := h.fits m.call
    rw [hp] at hfits
    exact hfits.symm
  · exact h.finish hI rfl

theorem run (hI : Keeps ops I) (h : Sound ops I c) (hr : run ops c ms = some c') :
    Sound ops I c' :=
  run_invariant (fun _ _ _ ha hs => ha.step hI hs) h hr

end Sound

/-- A cell that no call has come to yet. -/
def fresh (T : Type*) (v : V) : Atomic T V := { value := v }

omit [DecidableEq T] [DecidableEq V] in
theorem sound_fresh {I : V → Prop} {v : V} (hv : I v) : Sound ops I (fresh T v) where
  value := hv
  fits _ := trivial

section Changes

/-- No update writes back what it found. -/
def Strict (ops : T → Rmw V) : Prop := ∀ t v, (ops t).update v ≠ some v

theorem step_written (hstrict : Strict ops) (hfits : ∀ t, (c.place t).Fits (ops t))
    (hs : step ops c m = some c') (t : T) :
    (c'.place t).written = (c.place t).written ++
      if m.call = t ∧ c'.value ≠ c.value then [(c.value, c'.value)] else [] := by
  by_cases ht : t = m.call
  · subst ht
    rcases step_cases hs with ⟨hp, rfl⟩ | ⟨hp, rfl⟩ | ⟨cur, hp, rfl⟩ | ⟨new, hp, rfl⟩ | ⟨hp, rfl⟩
    · rw [Atomic.goto_self, Rmw.first_written, hp]
      simp [Place.written]
    · rw [hp.written]
      simp [Place.written]
    · rw [Atomic.goto_self, Rmw.tested_written, hp]
      simp [Place.written]
    · have hne : new ≠ c.value := by
        rintro rfl
        have hupdate := hfits m.call
        rw [hp] at hupdate
        exact hstrict m.call c.value hupdate
      simp [hp, Place.written, hne]
    · cases hu : (ops m.call).update c.value with
      | none => simp [hp, Place.written]
      | some new =>
        have hne : new ≠ c.value := by
          rintro rfl
          exact hstrict m.call c.value hu
        simp [hp, Place.written, hne]
  · have hne : ¬ m.call = t := fun heq => ht heq.symm
    simp [step_place_of_ne hs ht, hne]

/-- A call changes the cell by the write it ends with, and by nothing else. -/
theorem run_changes {I : V → Prop} (hI : Keeps ops I) (hstrict : Strict ops)
    (h : Sound ops I c) (hr : run ops c ms = some c') (t : T) :
    (c'.place t).written = (c.place t).written ++ changes ops c t ms := by
  induction ms generalizing c with
  | nil =>
    obtain rfl : c = c' := Option.some.inj hr
    simp [changes]
  | cons m ms ih =>
    obtain ⟨s, hs, hrest⟩ := Option.bind_eq_some_iff.mp hr
    rw [ih (h.step hI hs) hrest, step_written hstrict h.fits hs t, changes, hs,
      List.append_assoc]

end Changes

section Linearisation

/-- Within its call `t` makes a move that finds `cur` in the cell and leaves `left`. -/
def Moved (ops : T → Rmw V) (c : Atomic T V) (ms : List (Move T)) (t : T) (cur left : V) : Prop :=
  ∃ before m after s s', ms = before ++ m :: after ∧ run ops c before = some s ∧
    step ops s m = some s' ∧ m.call = t ∧ (s.place t).Active ∧ s.value = cur ∧ s'.value = left

theorem Moved.append {cur left : V} (h : Moved ops c ms t cur left) (ns : List (Move T)) :
    Moved ops c (ms ++ ns) t cur left := by
  obtain ⟨before, m, after, s, s', rfl, hrest⟩ := h
  exact ⟨before, m, after ++ ns, s, s', by simp, hrest⟩

theorem Moved.last {s s' : Atomic T V} (hr : run ops c ms = some s) (hs : step ops s m = some s')
    (hactive : (s.place m.call).Active) : Moved ops c (ms ++ [m]) m.call s.value s'.value :=
  ⟨ms, m, [], s, s', rfl, hr, hs, rfl, hactive, rfl, rfl⟩

/-- Where a call has been decided, or has the value that will decide it. -/
def Place.Decided (ops : T → Rmw V) (c : Atomic T V) (ms : List (Move T)) (t : T) :
    Place V → Prop
  | .test cur => Moved ops c ms t cur cur
  | .done cur new => Moved ops c ms t cur (new.getD cur)
  | _ => True

theorem Place.Decided.append {p : Place V} (h : p.Decided ops c ms t) (ns : List (Move T)) :
    p.Decided ops c (ms ++ ns) t := by
  cases p with
  | test cur => exact Moved.append h ns
  | done cur new => exact Moved.append h ns
  | _ => trivial

/-- A call ends by a move that finds the value it is decided by: the exchange that succeeds, or the
read after which it gives up. -/
theorem run_decided (hc : c.place t = .idle) (hr : run ops c ms = some c') :
    (c'.place t).Decided ops c ms t := by
  induction ms using List.reverseRecOn generalizing c' with
  | nil =>
    obtain rfl : c = c' := Option.some.inj hr
    rw [hc]
    trivial
  | append_singleton ms m ih =>
    obtain ⟨s, hrun, hs⟩ := run_concat_iff.mp hr
    have hold := ih hrun
    by_cases ht : t = m.call
    · subst ht
      rcases step_cases hs with ⟨-, rfl⟩ | ⟨hp, rfl⟩ | ⟨cur, hp, rfl⟩ | ⟨new, hp, rfl⟩ | ⟨hp, rfl⟩
      · rw [Atomic.goto_self]
        cases ops m.call <;> trivial
      · have hread := Moved.last hrun hs hp
        rw [Atomic.goto_value] at hread
        rwa [Atomic.goto_self]
      · rw [Atomic.goto_self]
        rw [hp] at hold
        unfold Rmw.tested
        split
        · exact Moved.append hold [m]
        · trivial
      · rw [Atomic.finish_self]
        exact Moved.last hrun hs (by rw [hp]; trivial)
      · rw [Atomic.finish_self]
        exact Moved.last hrun hs (by rw [hp]; trivial)
    · rw [step_place_of_ne hs ht]
      exact hold.append [m]

end Linearisation

end Run

end CasLoop
