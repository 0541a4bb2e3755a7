import Mathlib.Data.List.Basic

/-! Forests that grow node by node: a new node is a root, or is put under one that is there. A node
is a place in the list of what each is under. -/
namespace Forest

variable {parents : List (Option Nat)} {i j r : Nat}

/-- Nodes are under older nodes only. -/
def Grown (parents : List (Option Nat)) : Prop :=
  ∀ i j : Nat, parents[i]? = some (some j) → j < i

/-- The root of the tree a node is in. -/
inductive RootOf (parents : List (Option Nat)) : Nat → Nat → Prop
  | root {i : Nat} (h : parents[i]? = some none) : RootOf parents i i
  | under {i j r : Nat} (h : parents[i]? = some (some j)) (above : RootOf parents j r) :
      RootOf parents i r

theorem grown_nil : Grown [] := by
  intro i j h
  simp at h

theorem getElem?_concat_eq_some {α : Type*} {l : List α} {a b : α} {i : Nat} :
    (l ++ [a])[i]? = some b ↔ l[i]? = some b ∨ i = l.length ∧ a = b := by
  rcases Nat.lt_trichotomy i l.length with hlt | heq | hgt
  · rw [List.getElem?_append_left hlt]
    constructor
    · exact .inl
    · rintro (h | ⟨rfl, -⟩)
      · exact h
      · omega
  · subst heq
    rw [List.getElem?_concat_length, List.getElem?_eq_none (Nat.le_refl _)]
    simp
  · rw [List.getElem?_eq_none (by simp; omega), List.getElem?_eq_none (by omega)]
    constructor
    · intro h
      cases h
    · rintro (h | ⟨rfl, -⟩)
      · cases h
      · omega

/-- Two lists that grow together have both entries of a place from before, or both new. -/
theorem getElem?_concat_both {α β : Type*} {l : List α} {m : List β} (hlen : l.length = m.length)
    {a b : α} {c d : β} {i : Nat} (hl : (l ++ [a])[i]? = some b) (hm : (m ++ [c])[i]? = some d) :
    (l[i]? = some b ∧ m[i]? = some d) ∨ (i = l.length ∧ a = b ∧ c = d) := by
  rcases getElem?_concat_eq_some.mp hl with hl | ⟨rfl, rfl⟩
  · have hi := (List.getElem?_eq_some_iff.mp hl).1
    rw [List.getElem?_append_left (hlen ▸ hi)] at hm
    exact .inl ⟨hl, hm⟩
  · rw [hlen, List.getElem?_concat_length] at hm
    exact .inr ⟨rfl, rfl, Option.some.inj hm⟩

theorem Grown.append (h : Grown parents) {parent : Option Nat}
    (hparent : ∀ j, parent = some j → j < parents.length) : Grown (parents ++ [parent]) := by
  intro i j hi
  rcases getElem?_concat_eq_some.mp hi with hi | ⟨rfl, hj⟩
  · exact h i j hi
  · exact hparent j hj

/-- Every node is in a tree. The induction is on its age. -/
theorem Grown.exists_root (h : Grown parents) (hi : i < parents.length) :
    ∃ r, RootOf parents i r := by
  induction i using Nat.strongRecOn with
  | ind i ih =>
    cases hparent : parents[i] with
    | none => exact ⟨i, .root (by rw [List.getElem?_eq_getElem hi, hparent])⟩
    | some j =>
      have hunder : parents[i]? = some (some j) := by rw [List.getElem?_eq_getElem hi, hparent]
      have hlt := h i j hunder
      obtain ⟨r, hr⟩ := ih j hlt (Nat.lt_trans hlt hi)
      exact ⟨r, .under hunder hr⟩

theorem RootOf.isRoot (h : RootOf parents i r) : parents[r]? = some none := by
  induction h with
  | root h => exact h
  | under _ _ ih => exact ih

/-- What is handed down is the same in a tree, and what is new with each root tells the trees
apart. -/
theorem Grown.label_eq_iff {L : Type*} (label : Nat → L) (h : Grown parents)
    (hdown : ∀ i j, parents[i]? = some (some j) → label i = label j)
    (hroots : ∀ r r', parents[r]? = some none → parents[r']? = some none →
      label r = label r' → r = r') (hi : i < parents.length) (hj : j < parents.length) :
    label i = label j ↔ ∃ r, RootOf parents i r ∧ RootOf parents j r := by
  have hlabel {i r : Nat} (hr : RootOf parents i r) : label i = label r := by
    induction hr with
    | root h => rfl
    | under h _ ih => exact (hdown _ _ h).trans ih
  constructor
  · intro heq
    obtain ⟨r, hr⟩ := h.exists_root hi
    obtain ⟨r', hr'⟩ := h.exists_root hj
    have hrr' := hroots r r' hr.isRoot hr'.isRoot ((hlabel hr).symm.trans (heq.trans (hlabel hr')))
    exact ⟨r, hr, hrr' ▸ hr'⟩
  · rintro ⟨r, hr, hr'⟩
    exact (hlabel hr).trans (hlabel hr').symm

end Forest
