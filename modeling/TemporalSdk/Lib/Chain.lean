import Mathlib.Logic.Function.Basic

/-! Chains of links in front of a terminal. A factory is shown the link behind it and may put a
wrapper in front of that; a chain is built from its last factory to its first, which ends up
outermost. A log in the state that calls change says which links they have entered. -/
namespace Chain

variable {F E L : Type*}

/-- What a factory makes of the link behind it: a wrapper, or that link itself. -/
def wrap (intercept : F → L → Except E (Option L)) (next : L) (factory : F) : Except E L := do
  return (← intercept factory next).getD next

/-- The head of the chain. -/
def build (intercept : F → L → Except E (Option L)) (factories : List F) (terminal : L) :
    Except E L :=
  factories.reverse.foldlM (wrap intercept) terminal

variable {intercept : F → L → Except E (Option L)} {factory : F} {factories : List F}
  {terminal next link : L}

@[simp] theorem build_nil : build intercept [] terminal = .ok terminal := rfl

@[simp] theorem build_cons :
    build intercept (factory :: factories) terminal =
      build intercept factories terminal >>= fun next => wrap intercept next factory := by
  simp [build, List.foldlM_append]

/-- `link` heads a chain in which `wrapping` are the factories that put a wrapper, in list
order. -/
inductive Links (intercept : F → L → Except E (Option L)) (terminal : L) :
    List F → List F → L → Prop
  | terminal : Links intercept terminal [] [] terminal
  | wrapped {factory : F} {factories wrapping : List F} {next link : L} :
      intercept factory next = .ok (some link) → Links intercept terminal factories wrapping next →
      Links intercept terminal (factory :: factories) (factory :: wrapping) link
  | skipped {factory : F} {factories wrapping : List F} {next : L} :
      intercept factory next = .ok none → Links intercept terminal factories wrapping next →
      Links intercept terminal (factory :: factories) wrapping next

/-- Factories that do not throw build a chain. -/
theorem exists_links (terminal : L)
    (h : ∀ factory ∈ factories, ∀ next, ∃ wrapper, intercept factory next = .ok wrapper) :
    ∃ wrapping head, build intercept factories terminal = .ok head ∧
      Links intercept terminal factories wrapping head := by
  induction factories with
  | nil => exact ⟨[], terminal, rfl, .terminal⟩
  | cons factory factories ih =>
    obtain ⟨hfactory, hrest⟩ := List.forall_mem_cons.mp h
    obtain ⟨wrapping, next, hbuild, hlinks⟩ := ih hrest
    obtain ⟨wrapper, hwrapper⟩ := hfactory next
    rw [build_cons, hbuild]
    cases wrapper with
    | none =>
      refine ⟨wrapping, next, ?_, .skipped hwrapper hlinks⟩
      simp only [wrap, bind, Except.bind, hwrapper]
      rfl
    | some link =>
      refine ⟨factory :: wrapping, link, ?_, .wrapped hwrapper hlinks⟩
      simp only [wrap, bind, Except.bind, hwrapper]
      rfl

/-- The factories that wrap, where that does not depend on the link behind. -/
theorem Links.wrapping_eq_filter {wrapping : List F} {head : L}
    (h : Links intercept terminal factories wrapping head) (wraps : F → Bool)
    (hwraps : ∀ factory ∈ factories, ∀ next wrapper, intercept factory next = .ok wrapper →
      wrapper.isSome = wraps factory) :
    wrapping = factories.filter wraps := by
  induction h with
  | terminal => rfl
  | wrapped hfactory _ ih =>
    obtain ⟨hthis, hrest⟩ := List.forall_mem_cons.mp hwraps
    rw [List.filter_cons_of_pos (hthis _ _ hfactory).symm, ih hrest]
  | skipped hfactory _ ih =>
    obtain ⟨hthis, hrest⟩ := List.forall_mem_cons.mp hwraps
    have hnone := (hthis _ _ hfactory).symm
    rw [List.filter_cons_of_neg (Bool.not_eq_true _ ▸ hnone), ih hrest]

section Log

variable {ν ω α : Type*} (log : ω → List ν)

/-- A call enters these links, in this order. -/
def Visits (run : α → ω → ω) (visits : List ν) : Prop :=
  ∀ a w, log (run a w) = log w ++ visits

/-- A call enters `v` and calls `next` once, with whatever argument and in whatever state. -/
def CallsThrough (v : ν) (run next : α → ω → ω) : Prop :=
  ∀ a w, ∃ a' w', log w' = log w ++ [v] ∧ log (run a w) = log (next a' w')

variable {log} {v : ν} {run next : α → ω → ω} {vs : List ν}

theorem CallsThrough.visits (h : CallsThrough log v run next) (hnext : Visits log next vs) :
    Visits log run (v :: vs) := by
  intro a w
  obtain ⟨a', w', henter, hrun⟩ := h a w
  rw [hrun, hnext a' w', henter, List.append_assoc, List.singleton_append]

end Log

section Order

variable {ν ω α : Type*} {log : ω → List ν} {name : F → ν} {vs : List ν}

/-- A call of the head enters the wrappers in list order, and then what the terminal enters. -/
theorem Links.visits {wrapping : List F} {head : L}
    (h : Links intercept terminal factories wrapping head) (run : L → α → ω → ω)
    (hwrap : ∀ factory ∈ factories, ∀ next link, intercept factory next = .ok (some link) →
      CallsThrough log (name factory) (run link) (run next))
    (hterminal : Visits log (run terminal) vs) :
    Visits log (run head) (wrapping.map name ++ vs) := by
  induction h with
  | terminal => exact hterminal
  | wrapped hfactory _ ih =>
    obtain ⟨hthis, hrest⟩ := List.forall_mem_cons.mp hwrap
    exact (hthis _ _ hfactory).visits (ih hrest)
  | skipped _ _ ih => exact ih (List.forall_mem_cons.mp hwrap).2

end Order

section Handed

variable {ν ω O : Type*} {name : F → ν} {wraps : F → Bool}

/-- An object handed down the chain, and wrapped on the way, reaches the terminal with the wrapper
of the last link outermost. -/
theorem Links.handed {wrapping : List F} {head : L}
    (h : Links intercept terminal factories wrapping head) (hand : L → O → ω → ω)
    (slot : ω → Option O) (Enters : O → List ν → Prop) (Wraps : ν → O → O → Prop)
    (hwraps : ∀ {v o o' vs}, Wraps v o' o → Enters o vs → Enters o' (v :: vs))
    (hpass : ∀ factory ∈ factories, ∀ next link, intercept factory next = .ok (some link) →
      ∀ o w, ∃ o' w', slot (hand link o w) = slot (hand next o' w') ∧
        if wraps factory then Wraps (name factory) o' o else o' = o)
    (hterminal : ∀ o w, slot (hand terminal o w) = some o)
    {o : O} {vs : List ν} (ho : Enters o vs) (w : ω) :
    ∃ o', slot (hand head o w) = some o' ∧
      Enters o' (((wrapping.filter wraps).map name).reverse ++ vs) := by
  induction h generalizing o vs w with
  | terminal => exact ⟨o, hterminal o w, ho⟩
  | @wrapped factory factories wrapping next link hfactory _ ih =>
    obtain ⟨hthis, hrest⟩ := List.forall_mem_cons.mp hpass
    obtain ⟨o', w', hslot, hwrapped⟩ := hthis next link hfactory o w
    rw [hslot]
    cases hw : wraps factory with
    | true =>
      rw [if_pos hw] at hwrapped
      obtain ⟨o'', hcaptured, henters⟩ := ih hrest (hwraps hwrapped ho) w'
      refine ⟨o'', hcaptured, ?_⟩
      rw [List.filter_cons_of_pos hw, List.map_cons, List.reverse_cons, List.append_assoc,
        List.singleton_append]
      exact henters
    | false =>
      have hw' : ¬ wraps factory = true := by rw [hw]; exact Bool.false_ne_true
      rw [if_neg hw'] at hwrapped
      rw [List.filter_cons_of_neg hw']
      exact hwrapped ▸ ih hrest ho w'
  | skipped _ _ ih => exact ih (List.forall_mem_cons.mp hpass).2 ho w

end Handed

section Related

variable {R : L → L → Prop}

/-- Both throw the same, or both come to related links. -/
inductive Agree (R : L → L → Prop) : Except E L → Except E L → Prop
  | ok {link link' : L} (h : R link link') : Agree R (.ok link) (.ok link')
  | error (e : E) : Agree R (.error e) (.error e)

/-- In front of related links the factory makes related ones. -/
def Keeps (intercept : F → L → Except E (Option L)) (R : L → L → Prop) (factory : F) : Prop :=
  ∀ next next', R next next' → Agree R (wrap intercept next factory) (wrap intercept next' factory)

theorem Agree.bind {made made' : Except E L} {f f' : L → Except E L} (h : Agree R made made')
    (hf : ∀ link link', R link link' → Agree R (f link) (f' link')) :
    Agree R (made >>= f) (made' >>= f') := by
  cases h with
  | ok h => exact hf _ _ h
  | error e => exact .error e

theorem Agree.bind_left {made made' : Except E L} {f : L → Except E L} (h : Agree R made made')
    (hf : ∀ link link', R link link' → ∃ made, f link = .ok made ∧ R made link') :
    Agree R (made >>= f) made' := by
  cases h with
  | @ok link link' h =>
    obtain ⟨made, hmade, hrelated⟩ := hf link link' h
    show Agree R (f link) _
    rw [hmade]
    exact .ok hrelated
  | error e => exact .error e

theorem build_keeps {terminal' : L} (hkeeps : ∀ factory ∈ factories, Keeps intercept R factory)
    (hterminal : R terminal terminal') :
    Agree R (build intercept factories terminal) (build intercept factories terminal') := by
  induction factories with
  | nil => exact .ok hterminal
  | cons factory factories ih =>
    obtain ⟨hthis, hrest⟩ := List.forall_mem_cons.mp hkeeps
    rw [build_cons, build_cons]
    exact (ih hrest).bind hthis

/-- One more factory, whose link is related to the link behind it, changes nothing that shows. -/
theorem build_insert {front back : List F} {terminal' : L}
    (hkeeps : ∀ factory ∈ front ++ back, Keeps intercept R factory)
    (hinsert : ∀ next next', R next next' → ∃ link, wrap intercept next factory = .ok link ∧
      R link next')
    (hterminal : R terminal terminal') :
    Agree R (build intercept (front ++ factory :: back) terminal)
      (build intercept (front ++ back) terminal') := by
  induction front with
  | nil =>
    rw [List.nil_append, build_cons]
    exact (build_keeps hkeeps hterminal).bind_left hinsert
  | cons first front ih =>
    obtain ⟨hthis, hrest⟩ := List.forall_mem_cons.mp hkeeps
    rw [List.cons_append, List.cons_append, build_cons, build_cons]
    exact (ih hrest).bind hthis

end Related

end Chain
