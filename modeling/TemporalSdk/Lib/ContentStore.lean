import Mathlib.Data.Set.Function
import Mathlib.Logic.Function.Basic

/-!
A table that files every body under its digest, over whatever is there. All bodies put are found
again just if no two of them share a digest.
-/
namespace ContentStore

variable {K B : Type*} [DecidableEq K] (digest : B → K)

/-- File `body` under its digest. -/
def put (table : K → Option B) (body : B) : K → Option B :=
  Function.update table (digest body) (some body)

/-- File one body after the other. -/
def puts (table : K → Option B) (bodies : List B) : K → Option B :=
  bodies.foldl (put digest) table

@[simp]
theorem puts_nil (table : K → Option B) : puts digest table [] = table := rfl

@[simp]
theorem puts_cons (table : K → Option B) (body : B) (bodies : List B) :
    puts digest table (body :: bodies) = puts digest (put digest table body) bodies := rfl

/-- A key holds what it held before or one of the bodies with that digest. -/
theorem puts_apply (table : K → Option B) (bodies : List B) (key : K) :
    puts digest table bodies key = table key ∨
      ∃ b ∈ bodies, digest b = key ∧ puts digest table bodies key = some b := by
  induction bodies generalizing table with
  | nil => exact .inl rfl
  | cons b rest ih =>
    rw [puts_cons]
    obtain h | ⟨c, hc, hkey, h⟩ := ih (put digest table b)
    · by_cases hb : key = digest b
      · refine .inr ⟨b, List.mem_cons_self, hb.symm, ?_⟩
        rw [h, put, hb, Function.update_self]
      · left
        rw [h, put, Function.update_of_ne hb]
    · exact .inr ⟨c, List.mem_cons_of_mem _ hc, hkey, h⟩

/-- The key of a body that was put holds a body that was put. -/
theorem exists_puts_of_mem (table : K → Option B) {bodies : List B} {body : B}
    (h : body ∈ bodies) :
    ∃ b ∈ bodies, digest b = digest body ∧ puts digest table bodies (digest body) = some b := by
  induction bodies generalizing table with
  | nil => cases h
  | cons b rest ih =>
    rw [puts_cons]
    obtain rfl | hrest := List.mem_cons.mp h
    · obtain h | ⟨c, hc, hkey, h⟩ :=
        puts_apply digest (put digest table body) rest (digest body)
      · refine ⟨body, List.mem_cons_self, rfl, ?_⟩
        rw [h, put, Function.update_self]
      · exact ⟨c, List.mem_cons_of_mem _ hc, hkey, h⟩
    · obtain ⟨c, hc, hkey, h⟩ := ih (put digest table b) hrest
      exact ⟨c, List.mem_cons_of_mem _ hc, hkey, h⟩

theorem puts_eq_some_iff (table : K → Option B) (bodies : List B) :
    (∀ b ∈ bodies, puts digest table bodies (digest b) = some b) ↔
      ∀ b ∈ bodies, ∀ c ∈ bodies, digest b = digest c → b = c := by
  constructor
  · intro hfound b hb c hc heq
    have hbody := hfound b hb
    rw [heq, hfound c hc] at hbody
    exact (Option.some.inj hbody).symm
  · intro hapart b hb
    obtain ⟨c, hc, hkey, h⟩ := exists_puts_of_mem digest table hb
    rw [h, hapart c hc b hb hkey]

end ContentStore
