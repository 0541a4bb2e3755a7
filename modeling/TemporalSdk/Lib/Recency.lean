import Mathlib.Data.List.Basic
import Mathlib.Data.List.Induction
import Mathlib.Data.List.Nodup

/-! A bounded table that forgets the entry used least recently. The entries stand in a list, the
one used last in front; how long ago a key was used is read off the calls alone, and the list
turns out to be sorted by it. -/
namespace Recency

variable {K V : Type*} [DecidableEq K]

inductive Call (K V : Type*) where
  | get (key : K)
  | put (key : K) (value : V)
  | erase (key : K)
  | contains (key : K)
  | size

/-- What a call gives back. -/
inductive Result (V : Type*) where
  | found (value : Option V)
  | flag (b : Bool)
  | count (n : ℕ)
  | none
  deriving DecidableEq

/-- The calls that count as a use of a key. -/
def Call.uses (key : K) : Call K V → Bool
  | .get k | .put k _ => k == key
  | _ => false

/-- How many calls ago a key was used. -/
def age (calls : List (Call K V)) (key : K) : ℕ := calls.reverse.findIdx (Call.uses key)

/-- Put in front, in place of what the key had. -/
def touch (l : List (K × V)) (key : K) (value : V) : List (K × V) :=
  (key, value) :: l.filter (·.1 ≠ key)

/-- One call. A capacity of 0 means that there is no bound. -/
def step (capacity : ℕ) (l : List (K × V)) : Call K V → List (K × V) × Result V
  | .get key =>
    match l.lookup key with
    | Option.none => (l, .found Option.none)
    | some v => (touch l key v, .found (some v))
  | .put key value =>
    if (l.lookup key).isSome then (touch l key value, .none)
    else if capacity ≠ 0 ∧ capacity ≤ l.length then ((key, value) :: l.dropLast, .none)
    else ((key, value) :: l, .none)
  | .erase key => (l.filter (·.1 ≠ key), .none)
  | .contains key => (l, .flag (l.lookup key).isSome)
  | .size => (l, .count l.length)

/-- The entries after some calls. -/
def entries (capacity : ℕ) (calls : List (Call K V)) : List (K × V) :=
  calls.foldl (fun l c => (step capacity l c).1) []

/-- What the calls give back, one after the other. -/
def resultsFrom (capacity : ℕ) : List (K × V) → List (Call K V) → List (Result V)
  | _, [] => []
  | l, c :: calls => (step capacity l c).2 :: resultsFrom capacity (step capacity l c).1 calls

@[simp] theorem entries_concat (capacity : ℕ) (calls : List (Call K V)) (c : Call K V) :
    entries capacity (calls ++ [c]) = (step capacity (entries capacity calls) c).1 := by
  simp [entries]

section Age

variable (calls : List (Call K V)) {c : Call K V} {key : K}

theorem age_concat_of_uses (h : c.uses key = true) : age (calls ++ [c]) key = 0 := by
  simp [age, List.findIdx_cons, h]

theorem age_concat_of_not_uses (h : c.uses key = false) :
    age (calls ++ [c]) key = age calls key + 1 := by
  simp [age, List.findIdx_cons, h]

end Age

/-- Used later. -/
def Younger (calls : List (Call K V)) (p q : K × V) : Prop := age calls p.1 < age calls q.1

/-- The list holds distinct keys, the ones used last in front, and keeps to the capacity. -/
structure Sorted (capacity : ℕ) (calls : List (Call K V)) (l : List (K × V)) : Prop where
  younger : l.Pairwise (Younger calls)
  bounded : capacity ≠ 0 → l.length ≤ capacity

theorem mem_keys_of_lookup {l : List (K × V)} {key : K} {v : V} (h : l.lookup key = some v) :
    (key, v) ∈ l := by
  obtain ⟨l₁, l₂, rfl, -⟩ := List.lookup_eq_some_iff.mp h
  simp

theorem ne_of_lookup_eq_none {l : List (K × V)} {key : K} (h : l.lookup key = Option.none)
    {p : K × V} (hp : p ∈ l) : p.1 ≠ key := by
  have := List.lookup_eq_none_iff.mp h p hp
  exact fun he => by simp [he] at this

namespace Sorted

variable {capacity : ℕ} {calls : List (Call K V)} {l : List (K × V)}

theorem nodup (h : Sorted capacity calls l) : (l.map Prod.fst).Nodup := by
  rw [List.Nodup, List.pairwise_map]
  refine h.younger.imp fun {p q} hlt he => ?_
  rw [Younger, he] at hlt
  exact Nat.lt_irrefl _ hlt

/-- A call that uses none of the keys makes them all older. -/
theorem pairwise_concat (h : l.Pairwise (Younger calls)) {c : Call K V}
    (hc : ∀ p ∈ l, c.uses p.1 = false) : l.Pairwise (Younger (calls ++ [c])) := by
  refine h.imp_of_mem fun {p q} hp hq hlt => ?_
  rw [Younger, age_concat_of_not_uses _ (hc p hp), age_concat_of_not_uses _ (hc q hq)]
  exact Nat.succ_lt_succ hlt

/-- The key a call uses comes to the front. -/
theorem pairwise_cons (h : l.Pairwise (Younger calls)) {c : Call K V} {key : K} {value : V}
    (hkey : c.uses key = true) (hc : ∀ p ∈ l, c.uses p.1 = false) :
    ((key, value) :: l).Pairwise (Younger (calls ++ [c])) := by
  refine List.pairwise_cons.mpr ⟨fun p hp => ?_, pairwise_concat h hc⟩
  rw [Younger, age_concat_of_uses _ hkey, age_concat_of_not_uses _ (hc p hp)]
  exact Nat.succ_pos _

theorem filter_ne_subset {key : K} {p : K × V} (hp : p ∈ l.filter (·.1 ≠ key)) : p.1 ≠ key := by
  simpa using (List.mem_filter.mp hp).2

theorem touch (h : Sorted capacity calls l) {c : Call K V} {key : K} {v : V}
    (hv : l.lookup key = some v) (value : V) (hc : ∀ k, c.uses k = (key == k)) :
    Sorted capacity (calls ++ [c]) (touch l key value) where
  younger := by
    refine pairwise_cons (h.younger.sublist List.filter_sublist) (by simp [hc]) fun p hp => ?_
    rw [hc]
    exact beq_eq_false_iff_ne.mpr (filter_ne_subset hp).symm
  bounded h0 := by
    have hlt : (l.filter (·.1 ≠ key)).length < l.length :=
      List.length_filter_lt_length_iff_exists.mpr ⟨_, mem_keys_of_lookup hv, by simp⟩
    have := h.bounded h0
    simp only [Recency.touch, List.length_cons]
    omega

theorem step (h : Sorted capacity calls l) (c : Call K V) :
    Sorted capacity (calls ++ [c]) (step capacity l c).1 := by
  cases c with
  | get key =>
    simp only [Recency.step]
    cases hv : l.lookup key with
    | none =>
      have hne : ∀ p ∈ l, (Call.get key : Call K V).uses p.1 = false := fun p hp =>
        beq_eq_false_iff_ne.mpr (ne_of_lookup_eq_none hv hp).symm
      exact ⟨pairwise_concat h.younger hne, h.bounded⟩
    | some v => exact h.touch hv v fun _ => rfl
  | put key value =>
    simp only [Recency.step]
    cases hv : l.lookup key with
    | some v => exact h.touch hv value fun _ => rfl
    | none =>
      have hne : ∀ p ∈ l, (Call.put key value).uses p.1 = false := fun p hp =>
        beq_eq_false_iff_ne.mpr (ne_of_lookup_eq_none hv hp).symm
      simp only [Option.isSome_none, Bool.false_eq_true, if_false]
      by_cases hfull : capacity ≠ 0 ∧ capacity ≤ l.length
      · rw [if_pos hfull]
        refine ⟨pairwise_cons (h.younger.sublist (List.dropLast_sublist l)) (by simp [Call.uses])
          fun p hp => hne p ((List.dropLast_sublist l).subset hp), fun h0 => ?_⟩
        have := h.bounded h0
        simp only [List.length_cons, List.length_dropLast]
        omega
      · rw [if_neg hfull]
        refine ⟨pairwise_cons h.younger (by simp [Call.uses]) hne, fun h0 => ?_⟩
        simp only [List.length_cons]
        omega
  | erase key =>
    exact ⟨pairwise_concat (h.younger.sublist List.filter_sublist) fun _ _ => rfl,
      fun h0 => Nat.le_trans (List.length_filter_le _ _) (h.bounded h0)⟩
  | contains key => exact ⟨pairwise_concat h.younger fun _ _ => rfl, h.bounded⟩
  | size => exact ⟨pairwise_concat h.younger fun _ _ => rfl, h.bounded⟩

end Sorted

/-- After any calls the entries stand in the order in which their keys were used. -/
theorem sorted_entries (capacity : ℕ) (calls : List (Call K V)) :
    Sorted capacity calls (entries capacity calls) := by
  induction calls using List.reverseRecOn with
  | nil => exact ⟨List.Pairwise.nil, fun _ => Nat.zero_le _⟩
  | append_singleton calls c ih =>
    rw [entries_concat]
    exact ih.step c

end Recency
