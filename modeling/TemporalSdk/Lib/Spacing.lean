import Mathlib.Algebra.Order.Floor.Semiring
import Mathlib.Data.Finset.Card
import Mathlib.Tactic.Linarith

/-! Times at least a fixed distance apart, and how many of them a window can hold. -/
namespace Spacing

variable {ι K : Type*} [Field K] [LinearOrder K] [IsStrictOrderedRing K]

/-- Any two entries lie at least `d` apart. -/
def Spaced (d : K) (time : ι → K) (l : List ι) : Prop :=
  l.Pairwise fun a b => d ≤ |time a - time b|

/-- Entries listed from the latest to the first. -/
theorem Spaced.of_descending {d : K} {time : ι → K} {l : List ι}
    (h : l.Pairwise fun a b => time b + d ≤ time a) : Spaced d time l := by
  apply h.imp
  intro a b hab
  exact (le_sub_iff_add_le'.mpr hab).trans (le_abs_self _)

omit [IsStrictOrderedRing K] in
theorem Spaced.filter {d : K} {time : ι → K} {l : List ι} (h : Spaced d time l)
    (p : ι → Bool) : Spaced d time (l.filter p) :=
  List.Pairwise.filter p h

section Window

variable [FloorSemiring K]

/-- The window that starts at `x` is cut into pieces of length `d`; `a` lies in this one. -/
def piece (d x a : K) : ℕ := ⌊(a - x) / d⌋₊

theorem piece_lt {d x W a : K} (hd : 0 < d) (hx : x ≤ a) (ha : a < x + W) :
    piece d x a < ⌈W / d⌉₊ := by
  rw [Nat.lt_ceil]
  have hfloor : (piece d x a : K) ≤ (a - x) / d :=
    Nat.floor_le (div_nonneg (sub_nonneg.mpr hx) hd.le)
  have hlt : (a - x) / d < W / d := (div_lt_div_iff_of_pos_right hd).mpr (by linarith)
  exact hfloor.trans_lt hlt

/-- A piece is half-open: two of its points are less than its length apart. -/
theorem abs_sub_lt_of_piece_eq {d x a b : K} (hd : 0 < d) (ha : x ≤ a) (hb : x ≤ b)
    (h : piece d x a = piece d x b) : |a - b| < d := by
  have hbounds : ∀ c, x ≤ c → (piece d x c : K) * d ≤ c - x ∧ c - x < (piece d x c + 1) * d := by
    intro c hc
    have hnonneg : 0 ≤ (c - x) / d := div_nonneg (sub_nonneg.mpr hc) hd.le
    constructor
    · exact (le_div_iff₀ hd).mp (Nat.floor_le hnonneg)
    · exact (div_lt_iff₀ hd).mp (Nat.lt_floor_add_one _)
  obtain ⟨hla, hua⟩ := hbounds a ha
  obtain ⟨hlb, hub⟩ := hbounds b hb
  rw [h] at hla hua
  rw [abs_sub_lt_iff]
  constructor <;> linarith

/-- No two entries of a window share a piece. -/
theorem Spaced.nodup_pieces {d x : K} {time : ι → K} {l : List ι} (hd : 0 < d)
    (h : Spaced d time l) (hx : ∀ a ∈ l, x ≤ time a) :
    (l.map fun a => piece d x (time a)).Nodup := by
  rw [List.Nodup, List.pairwise_map]
  apply List.Pairwise.imp_of_mem _ h
  intro a b ha hb hab heq
  have hlt := abs_sub_lt_of_piece_eq hd (hx a ha) (hx b hb) heq
  exact absurd hab (not_le.mpr hlt)

/-- A half-open window of length `W` holds at most `⌈W / d⌉` entries. -/
theorem Spaced.window_le {d : K} {time : ι → K} {l : List ι} (hd : 0 < d)
    (h : Spaced d time l) (x W : K) :
    (l.filter fun a => x ≤ time a ∧ time a < x + W).length ≤ ⌈W / d⌉₊ := by
  have hin : ∀ a ∈ l.filter fun a => x ≤ time a ∧ time a < x + W,
      x ≤ time a ∧ time a < x + W := by
    intro a ha
    simpa using (List.mem_filter.mp ha).2
  have hnodup := (h.filter _).nodup_pieces hd fun a ha => (hin a ha).1
  have hsub : ((l.filter fun a => x ≤ time a ∧ time a < x + W).map fun a =>
      piece d x (time a)).toFinset ⊆ Finset.range ⌈W / d⌉₊ := by
    intro n hn
    obtain ⟨a, ha, rfl⟩ := List.mem_map.mp (List.mem_toFinset.mp hn)
    exact Finset.mem_range.mpr (piece_lt hd (hin a ha).1 (hin a ha).2)
  have hcard := Finset.card_le_card hsub
  rwa [List.toFinset_card_of_nodup hnodup, List.length_map, Finset.card_range] at hcard

end Window

end Spacing
