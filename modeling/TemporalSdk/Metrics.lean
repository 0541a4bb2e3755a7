import TemporalSdk.Lib.Deltas

/-! `WorkerImpl::EmitStickyCacheMetrics` (`internal/worker_impl.cpp`) and the counters of
`WorkflowTaskHandler::Handle`, under any number of workflow poll loops. -/
namespace TemporalSdk
open Monitor Deltas

/-- The counter a `Handle` call has incremented: a sticky continuation, or a replay. -/
inductive CacheOutcome where
  | hit
  | replay
  deriving DecidableEq, Repr

/-- Where a loop is between two tasks, with the local variables of `EmitStickyCacheMetrics`. -/
inductive EmitPlace where
  | idle
  | handling (counted : Option CacheOutcome)
  | readHits
  | readReplays (hits : ℕ)
  | locking (hits misses : ℕ)
  | emitHits (hitDelta missDelta : ℤ)
  | emitMisses (missDelta : ℤ)
  deriving DecidableEq, Repr

inductive EmitStep where
  | handle
  | count (k : CacheOutcome)
  | handled
  | readHits
  | readReplays
  | compute
  | emitHits
  | emitMisses
  | throws
  deriving DecidableEq, Repr

/-- The counters of the handler, the values of the last computation, what has been emitted, and
the loops. -/
structure StickyMetrics (T : Type) where
  cacheHits : ℕ := 0
  replays : ℕ := 0
  lastCacheHits : ℕ := 0
  lastReplays : ℕ := 0
  emittedHits : ℕ := 0
  emittedMisses : ℕ := 0
  place : T → EmitPlace := fun _ => .idle

namespace StickyMetrics

variable {T : Type} [DecidableEq T]

def goto (c : StickyMetrics T) (t : T) (p : EmitPlace) : StickyMetrics T :=
  { c with place := Function.update c.place t p }

/-- One step of a loop. Every read, the computation under the mutex and every emission is a step of
its own, and an exception ends the iteration. -/
inductive Step (c : StickyMetrics T) (t : T) : EmitStep → StickyMetrics T → Prop
  | handle (hp : c.place t = .idle) : Step c t .handle (c.goto t (.handling none))
  | countHit (hp : c.place t = .handling none) :
    Step c t (.count .hit)
      { c.goto t (.handling (some .hit)) with cacheHits := c.cacheHits + 1 }
  | countReplay (hp : c.place t = .handling none) :
    Step c t (.count .replay)
      { c.goto t (.handling (some .replay)) with replays := c.replays + 1 }
  | handled {k : Option CacheOutcome} (hp : c.place t = .handling k) :
    Step c t .handled (c.goto t .readHits)
  | readHits (hp : c.place t = .readHits) :
    Step c t .readHits (c.goto t (.readReplays c.cacheHits))
  | readReplays {h : ℕ} (hp : c.place t = .readReplays h) :
    Step c t .readReplays (c.goto t (.locking h c.replays))
  | compute {h m : ℕ} (hp : c.place t = .locking h m) :
    Step c t .compute { c.goto t (.emitHits (h - c.lastCacheHits) (m - c.lastReplays)) with
      lastCacheHits := h
      lastReplays := m }
  | emitHits {dh dm : ℤ} (hp : c.place t = .emitHits dh dm) :
    Step c t .emitHits { c.goto t (.emitMisses dm) with
      emittedHits := c.emittedHits + if dh > 0 then dh.toNat else 0 }
  | emitMisses {dm : ℤ} (hp : c.place t = .emitMisses dm) :
    Step c t .emitMisses { c.goto t .idle with
      emittedMisses := c.emittedMisses + if dm > 0 then dm.toNat else 0 }
  | throws (hp : c.place t ≠ .idle) : Step c t .throws (c.goto t .idle)

/-- The states any number of loops can bring about. -/
def Reachable (c : StickyMetrics T) : Prop :=
  Relation.ReflTransGen (fun a b => ∃ t e, Step a t e b) {} c

/-- A computation uses values that are not behind those of the last one, and no iteration that has
counted, or has begun to emit, ends by an exception. -/
def Orderly (c : StickyMetrics T) (t : T) : EmitStep → Prop
  | .compute => ∀ h m, c.place t = .locking h m → c.lastCacheHits ≤ h ∧ c.lastReplays ≤ m
  | .throws => c.place t = .handling none
  | _ => True

/-- The states that runs of orderly steps bring about. -/
def OrderlyReachable (c : StickyMetrics T) : Prop :=
  Relation.ReflTransGen (fun a b => ∃ t e, Step a t e b ∧ a.Orderly t e) {} c

end StickyMetrics

/-- What a loop still has to do for the counter of hits. -/
def EmitPlace.hitShare : EmitPlace → Share
  | .idle | .handling none | .handling (some .replay) | .emitMisses _ => .out
  | .handling (some .hit) | .readHits => .due
  | .readReplays h | .locking h _ => .sampled h
  | .emitHits dh _ => .owing dh

/-- What it still has to do for the counter of replays. -/
def EmitPlace.missShare : EmitPlace → Share
  | .idle | .handling none | .handling (some .hit) => .out
  | .handling (some .replay) | .readHits | .readReplays _ => .due
  | .locking _ m => .sampled m
  | .emitHits _ dm | .emitMisses dm => .owing dm

/-- Both counters are accounted for. -/
structure MetricsSound {T : Type} [Fintype T] (c : StickyMetrics T) : Prop where
  hits : Tallied c.cacheHits c.lastCacheHits c.emittedHits (EmitPlace.hitShare ∘ c.place)
  misses : Tallied c.replays c.lastReplays c.emittedMisses (EmitPlace.missShare ∘ c.place)

namespace MetricsSound

variable {T : Type} [Fintype T] [DecidableEq T] {c c' : StickyMetrics T}

omit [DecidableEq T] in
theorem init : MetricsSound ({} : StickyMetrics T) := ⟨.start, .start⟩

omit [Fintype T] [DecidableEq T] in
theorem share_at {f : EmitPlace → Share} {t : T} {p : EmitPlace} {x : Share}
    (hp : c.place t = p) (hx : f p = x) : (f ∘ c.place) t = x := by
  rw [Function.comp_apply, hp, hx]

theorem emitted_eq (d : ℤ) : (if d > 0 then d.toNat else 0) = d.toNat := by
  split_ifs <;> omega

/-- One orderly step. -/
theorem step {t : T} {e : EmitStep} (h : MetricsSound c) (hs : StickyMetrics.Step c t e c')
    (ho : c.Orderly t e) : MetricsSound c' := by
  obtain ⟨hh, hm⟩ := h
  cases hs with
  | handle hp =>
    constructor <;> simp only [StickyMetrics.goto, Function.comp_update]
    · exact hh.stay (share_at hp rfl)
    · exact hm.stay (share_at hp rfl)
  | countHit hp =>
    constructor <;> simp only [StickyMetrics.goto, Function.comp_update]
    · exact hh.count (by rw [share_at hp rfl]; rfl)
    · exact hm.stay (share_at hp rfl)
  | countReplay hp =>
    constructor <;> simp only [StickyMetrics.goto, Function.comp_update]
    · exact hh.stay (share_at hp rfl)
    · exact hm.count (by rw [share_at hp rfl]; rfl)
  | @handled k hp =>
    constructor <;> simp only [StickyMetrics.goto, Function.comp_update]
    · exact hh.become_due (by rw [share_at hp rfl]; rcases k with _ | _ | _ <;> rfl)
    · exact hm.become_due (by rw [share_at hp rfl]; rcases k with _ | _ | _ <;> rfl)
  | readHits hp =>
    constructor <;> simp only [StickyMetrics.goto, Function.comp_update]
    · exact hh.sample (share_at hp rfl)
    · exact hm.stay (share_at hp rfl)
  | readReplays hp =>
    constructor <;> simp only [StickyMetrics.goto, Function.comp_update]
    · exact hh.stay (share_at hp rfl)
    · exact hm.sample (share_at hp rfl)
  | compute hp =>
    obtain ⟨hfresh, mfresh⟩ := ho _ _ hp
    constructor <;> simp only [StickyMetrics.goto, Function.comp_update]
    · exact hh.settle (share_at hp rfl) hfresh
    · exact hm.settle (share_at hp rfl) mfresh
  | emitHits hp =>
    constructor <;> simp only [StickyMetrics.goto, Function.comp_update, emitted_eq]
    · exact hh.add (share_at hp rfl)
    · exact hm.stay (share_at hp rfl)
  | emitMisses hp =>
    constructor <;> simp only [StickyMetrics.goto, Function.comp_update, emitted_eq]
    · exact hh.stay (share_at hp rfl)
    · exact hm.add (share_at hp rfl)
  | throws _ =>
    constructor <;> simp only [StickyMetrics.goto, Function.comp_update]
    · exact hh.stay (share_at ho rfl)
    · exact hm.stay (share_at ho rfl)

end MetricsSound

namespace StickyMetrics

variable {T : Type} [DecidableEq T]

/-- In a run of orderly steps the emitted increments never exceed the counters, and they equal
them whenever every loop is idle. -/
theorem deltas_exact_of_orderly [Fintype T] {c : StickyMetrics T}
    (h : OrderlyReachable c) :
    c.emittedHits ≤ c.cacheHits ∧ c.emittedMisses ≤ c.replays ∧
      ((∀ t, c.place t = .idle) → c.emittedHits = c.cacheHits ∧ c.emittedMisses = c.replays) := by
  have hs : MetricsSound c := by
    refine invariant_of_step (I := MetricsSound) ?_ .init h
    rintro a b ha ⟨t, e, hstep, ho⟩
    exact ha.step hstep ho
  refine ⟨hs.hits.sum_le, hs.misses.sum_le, fun hidle => ?_⟩
  exact ⟨hs.hits.sum_eq fun t => by rw [Function.comp_apply, hidle t]; rfl,
    hs.misses.sum_eq fun t => by rw [Function.comp_apply, hidle t]; rfl⟩

/-- A loop handles a sticky continuation and reports it before the other one computes. -/
theorem deltas_exact_after_hit : ∃ c : StickyMetrics (Fin 2), OrderlyReachable c ∧
    c.cacheHits = 1 ∧ c.place 1 = .handling (some .replay) ∧ c.emittedHits ≤ c.cacheHits ∧
      c.emittedMisses ≤ c.replays := by
  have h₁ : OrderlyReachable (T := Fin 2) _ :=
    .tail (.tail (.tail (.tail .refl ⟨0, _, .handle rfl, trivial⟩) ⟨0, _, .countHit rfl, trivial⟩)
      ⟨0, _, .handled rfl, trivial⟩) ⟨0, _, .readHits rfl, trivial⟩
  have h₂ : OrderlyReachable (T := Fin 2) _ :=
    .tail (.tail h₁ ⟨1, _, .handle rfl, trivial⟩) ⟨1, _, .countReplay rfl, trivial⟩
  have h₃ : OrderlyReachable (T := Fin 2) _ :=
    .tail (.tail (.tail h₂ ⟨0, _, .readReplays rfl, trivial⟩)
      ⟨0, _, .compute rfl, fun h m hp => ⟨Nat.zero_le h, Nat.zero_le m⟩⟩)
      ⟨0, _, .emitHits rfl, trivial⟩
  obtain ⟨hhits, hmisses, -⟩ := deltas_exact_of_orderly h₃
  exact ⟨_, h₃, rfl, rfl, hhits, hmisses⟩

/-- The first loop reads one hit and waits; the second reports two, so that the first then takes
the last value back to one; the next report, of three hits, counts the second one again. -/
theorem deltas_overcount : ∃ c : StickyMetrics (Fin 2), Reachable c ∧
    (∀ t, c.place t = .idle) ∧ c.cacheHits = 3 ∧ c.emittedHits = 4 := by
  have h₁ : Reachable (T := Fin 2) _ :=
    .tail (.tail (.tail (.tail (.tail .refl ⟨0, _, .handle rfl⟩) ⟨0, _, .countHit rfl⟩)
      ⟨0, _, .handled rfl⟩) ⟨0, _, .readHits rfl⟩) ⟨0, _, .readReplays rfl⟩
  have h₂ : Reachable (T := Fin 2) _ :=
    .tail (.tail (.tail (.tail (.tail h₁ ⟨1, _, .handle rfl⟩) ⟨1, _, .countHit rfl⟩)
      ⟨1, _, .handled rfl⟩) ⟨1, _, .readHits rfl⟩) ⟨1, _, .readReplays rfl⟩
  have h₃ : Reachable (T := Fin 2) _ :=
    .tail (.tail (.tail h₂ ⟨1, _, .compute rfl⟩) ⟨1, _, .emitHits rfl⟩) ⟨1, _, .emitMisses rfl⟩
  have h₄ : Reachable (T := Fin 2) _ :=
    .tail (.tail (.tail h₃ ⟨0, _, .compute rfl⟩) ⟨0, _, .emitHits rfl⟩) ⟨0, _, .emitMisses rfl⟩
  have h₅ : Reachable (T := Fin 2) _ :=
    .tail (.tail (.tail (.tail (.tail h₄ ⟨1, _, .handle rfl⟩) ⟨1, _, .countHit rfl⟩)
      ⟨1, _, .handled rfl⟩) ⟨1, _, .readHits rfl⟩) ⟨1, _, .readReplays rfl⟩
  have h₆ : Reachable (T := Fin 2) _ :=
    .tail (.tail (.tail h₅ ⟨1, _, .compute rfl⟩) ⟨1, _, .emitHits rfl⟩) ⟨1, _, .emitMisses rfl⟩
  exact ⟨_, h₆, by decide, rfl, rfl⟩

end StickyMetrics
end TemporalSdk
