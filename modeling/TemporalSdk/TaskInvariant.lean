import TemporalSdk.Emission
import TemporalSdk.Recall

/-! Invariants of the runners of one execution, over all its tasks, and the answers a body has got
to one kind of call. -/
namespace TemporalSdk
open StateTransition (Reaches)

variable {σ : Type}

section Tasks

variable {fuel : Nat} {info : WorkflowInfo} {world : World σ} {fn : WorkflowFn σ}
  {evicted : Nat → Bool}

/-- What holds of a runner and of the command events that were on record before its task: kept by
what the body does and by the events of a continuation, and regained by a runner that is built on
the history of such tasks. -/
structure TaskInvariant (info : WorkflowInfo) (world : World σ) (fn : WorkflowFn σ)
    (evicted : Nat → Bool) (P : Runner σ → Prop) (I : List EventAttributes → Runner σ → Prop) :
    Prop where
  first : ∀ batch, UpdateFree batch → History.commandEvents batch = [] →
    I [] (Runner.atTask info world fn none [] batch)
  rebuilt : ∀ n past batch r, evicted n = true → UpdateFree (past ++ batch) →
    I (History.commandEvents past) r →
    History.commandEvents batch = r.commands.map Command.event →
    I (History.commandEvents (past ++ batch)) (Runner.atTask info world fn none past batch)
  applied : ∀ past batch r, I (History.commandEvents past) r →
    History.commandEvents batch = r.commands.map Command.event →
    I (History.commandEvents (past ++ batch)) (Runner.atTask info world fn (some r) past batch)
  step : ∀ past r r', P r → r.step = some r' → I past r → I past r'
  deadlocked : ∀ past r, I past r → I past { r with deadlocked := true }

namespace TaskInvariant

variable {P : Runner σ → Prop} {I : List EventAttributes → Runner σ → Prop}

theorem reaches (h : TaskInvariant info world fn evicted P I) {past : List EventAttributes}
    {r r' : Runner σ} (hP : ∀ q, Reaches Runner.step r q → P q) (hr : Reaches Runner.step r r')
    (hI : I past r) : I past r' := by
  induction hr with
  | refl => exact hI
  | tail hb hs ih => exact h.step past _ _ (hP _ hb) hs ih

theorem serve (h : TaskInvariant info world fn evicted P I) {past batch : History}
    {cached : Option (Runner σ)} (hu : UpdateFree (past ++ batch))
    (hP : ∀ q, Reaches Runner.step (Runner.atTask info world fn cached past batch) q → P q)
    (hI : I (History.commandEvents (past ++ batch))
      (Runner.atTask info world fn cached past batch)) :
    I (History.commandEvents (past ++ batch))
      (Runner.serve fuel info world fn cached past batch) := by
  by_cases hst : (Runner.atTask info world fn cached past batch).started = true
  · rw [Runner.serve_eq hu hst]
    unfold Runner.resumeCoroutine
    split
    · next r' hr =>
      exact h.reaches hP (StateTransition.mem_eval.mp (Parking.runFor_mem_eval hr)).1 hI
    · exact h.deadlocked _ _ hI
  · cases cached with
    | none => exact absurd rfl hst
    | some r =>
      have hkept : Runner.serve fuel info world fn (some r) past batch =
          Runner.atTask info world fn (some r) past batch := if_neg hst
      rw [hkept]
      exact hI

theorem serveAll (h : TaskInvariant info world fn evicted P I) {n : Nat} {past : History}
    {cached : Option (Runner σ)} {hs : List History} (hu : UpdateFree (past ++ hs.flatten))
    (hP : Runner.Throughout fuel info world fn P evicted n past cached hs)
    (hfirst : cached = none → past = [] ∧ ∀ b, hs[0]? = some b → History.commandEvents b = [])
    (hcached : ∀ r ∈ cached, I (History.commandEvents past) r ∧
      ∀ b, hs[0]? = some b → History.commandEvents b = r.commands.map Command.event)
    (hnext : ∀ i r b, (Runner.serveAll fuel info world fn evicted n past cached hs)[i]? = some r →
      hs[i + 1]? = some b → History.commandEvents b = r.commands.map Command.event)
    {r : Runner σ}
    (hr : (Runner.serveAll fuel info world fn evicted n past cached hs).getLast? = some r) :
    I (History.commandEvents (past ++ hs.flatten)) r := by
  induction hs generalizing n past cached with
  | nil => cases hr
  | cons batch hs ih =>
    rw [List.flatten_cons, ← List.append_assoc] at hu ⊢
    have hat : I (History.commandEvents (past ++ batch))
        (Runner.atTask info world fn (if evicted n then none else cached) past batch) := by
      cases cached with
      | none =>
        obtain ⟨rfl, hempty⟩ := hfirst rfl
        have hb := hempty batch rfl
        rw [ite_self, List.nil_append, hb]
        exact h.first batch hu.left hb
      | some q =>
        obtain ⟨hq, hb⟩ := hcached q rfl
        split
        · next hev => exact h.rebuilt n past batch q hev hu.left hq (hb batch rfl)
        · exact h.applied past batch q hq (hb batch rfl)
    have hserve : I (History.commandEvents (past ++ batch)) (Runner.serve fuel info world fn
        (if evicted n then none else cached) past batch) := h.serve hu.left hP.1 hat
    cases hs with
    | nil =>
      have hr' : Runner.serve fuel info world fn (if evicted n then none else cached) past batch =
          r := Option.some.inj hr
      rw [List.flatten_nil, List.append_nil, ← hr']
      exact hserve
    | cons next rest =>
      have hlast : (Runner.serveAll fuel info world fn evicted (n + 1) (past ++ batch)
          (some (Runner.serve fuel info world fn (if evicted n then none else cached) past batch))
          (next :: rest)).getLast? = some r := by
        rw [← hr]
        exact List.getLast?_cons_cons.symm
      refine ih hu hP.2 nofun (fun q hq => ?_) (fun i q b hq hb => hnext (i + 1) q b hq hb) hlast
      obtain rfl : _ = q := Option.some.inj hq
      exact ⟨hserve, fun b hb => hnext 0 _ b rfl hb⟩

/-- What holds of every runner of an execution holds of the last. -/
theorem recording (h : TaskInvariant info world fn evicted P I) {batches : List History}
    {last : History} {r : Runner σ} (hr : Recording fuel info world fn evicted batches last r)
    (hP : Runner.Throughout fuel info world fn P evicted 0 [] none batches) :
    I (History.commandEvents batches.flatten) r := by
  have hu : UpdateFree ([] ++ batches.flatten) := by
    have := hr.updateFree
    rw [List.flatten_append] at this
    exact this.left
  exact h.serveAll hu hP (fun _ => ⟨rfl, hr.recorded.first⟩)
    (fun q hq => absurd hq (Option.not_mem_none q))
    (fun i q b hq hb => (hr.recorded.next i q b hq hb).2) hr.final

end TaskInvariant
end Tasks

section Answers

variable (isCall : Op σ → Prop) [DecidablePred isCall]

/-- The answers a body has got to one kind of call, in order. -/
def Program.answersTo (p : Program σ) (answers : List (Resp σ)) : List (Resp σ) :=
  (List.range answers.length).filterMap fun i =>
    if isCall (p (answers.take i)) then answers[i]? else none

theorem Program.answersTo_concat (p : Program σ) (answers : List (Resp σ)) (resp : Resp σ) :
    p.answersTo isCall (answers ++ [resp]) =
      p.answersTo isCall answers ++ if isCall (p answers) then [resp] else [] := by
  have hinit : (List.range answers.length).filterMap (fun i =>
      if isCall (p ((answers ++ [resp]).take i)) then (answers ++ [resp])[i]? else none) =
      p.answersTo isCall answers := by
    refine List.filterMap_congr fun i hi => ?_
    have hlt := List.mem_range.mp hi
    rw [List.take_append_of_le_length hlt.le, List.getElem?_append_left hlt]
  have hlast : [answers.length].filterMap (fun i =>
      if isCall (p ((answers ++ [resp]).take i)) then (answers ++ [resp])[i]? else none) =
      if isCall (p answers) then [resp] else [] := by
    rw [List.filterMap_cons, List.take_left, List.getElem?_concat_length]
    by_cases hcall : isCall (p answers)
    · rw [if_pos hcall, if_pos hcall]
      rfl
    · rw [if_neg hcall, if_neg hcall]
      rfl
  rw [answersTo, List.length_append, List.length_singleton, List.range_succ,
    List.filterMap_append, hinit, hlast]

end Answers

end TemporalSdk
