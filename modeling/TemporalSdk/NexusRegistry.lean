import Mathlib.Data.List.Basic
import TemporalSdk.ActivityHandler
import TemporalSdk.Lib.PartialMap

/-! `NexusTaskHandler::Register` and the dispatch of `Handle`: one table, whose keys join the two
names. -/
namespace TemporalSdk
open PartialMap

/-- The arguments of one `Register`. -/
structure NexusRegistration (ω : Type) where
  service : String
  operation : String
  fn : NexusOperationFn ω

namespace NexusTaskHandler

variable {ω : Type}

/-- A handler as it is constructed. -/
def create (ns identity : String) (stub : NexusResponse → ω → GrpcStatus × ω) :
    NexusTaskHandler ω where
  ns := ns
  identity := identity
  operations := fun _ => none
  stub := stub

/-- `Register`: `insert_or_assign` under the joined key. -/
def register (h : NexusTaskHandler ω) (service operation : String) (fn : NexusOperationFn ω) :
    NexusTaskHandler ω :=
  { h with operations := PartialMap.insert h.operations (key service operation) fn }

/-- A sequence of `Register` calls. -/
def registerAll (h : NexusTaskHandler ω) (regs : List (NexusRegistration ω)) :
    NexusTaskHandler ω :=
  regs.foldl (fun h r => h.register r.service r.operation r.fn) h

/-- The `try` block of `Handle` with its catch clause, once the operation is found. -/
def serve (h : NexusTaskHandler ω) (task : NexusTask) (fn : NexusOperationFn ω)
    (payload : Payload) (w : ω) : Answered NexusResponse ω :=
  let tried := h.complete task (fn payload w)
  match tried.escaped.bind Thrown.what? with
  | none => tried
  | some what =>
    let caught := h.send (h.failed task "INTERNAL" what) tried.world
    { caught with attempts := tried.attempts ++ caught.attempts }

/-- The answer to a task whose pair has no operation. -/
def notFound (h : NexusTaskHandler ω) (task : NexusTask) (service operation : String) :
    NexusResponse :=
  h.failed task "NOT_FOUND" ("no Nexus operation registered for service '" ++ service ++
    "' operation '" ++ operation ++ "'")

section Handle

variable (h : NexusTaskHandler ω) (token service operation : String) (payload : Payload) (w : ω)

theorem handle_of_some {fn : NexusOperationFn ω}
    (hfn : h.operations (key service operation) = some fn) :
    h.handle ⟨token, .startOperation service operation payload⟩ w =
      h.serve ⟨token, .startOperation service operation payload⟩ fn payload w := by
  simp only [handle, hfn]
  rfl

theorem handle_of_none (hfn : h.operations (key service operation) = none) :
    h.handle ⟨token, .startOperation service operation payload⟩ w =
      h.send (h.notFound ⟨token, .startOperation service operation payload⟩ service operation)
        w := by
  simp only [handle, hfn]
  rfl

end Handle

/-- A served task is answered by a completion or by an internal error. -/
theorem serve_attempts (h : NexusTaskHandler ω) (task : NexusTask) (fn : NexusOperationFn ω)
    (payload : Payload) (w : ω) : ∀ r ∈ (h.serve task fn payload w).attempts,
      (∃ result, r = h.completion task result) ∨ ∃ what, r = h.failed task "INTERNAL" what := by
  have hcomplete : ∀ r ∈ (h.complete task (fn payload w)).attempts,
      ∃ result, r = h.completion task result := by
    intro r hr
    unfold complete at hr
    split at hr
    · cases hr
    · exact ⟨_, List.mem_singleton.mp hr⟩
  intro r hr
  unfold serve at hr
  simp only at hr
  split at hr
  · exact .inl (hcomplete r hr)
  · rcases List.mem_append.mp hr with htried | hcaught
    · exact .inl (hcomplete r htried)
    · exact .inr ⟨_, List.mem_singleton.mp hcaught⟩

theorem notFound_not_served (h : NexusTaskHandler ω) (task : NexusTask)
    (fn : NexusOperationFn ω) (payload : Payload) (w : ω) (message : String) :
    h.failed task "NOT_FOUND" message ∉ (h.serve task fn payload w).attempts := by
  intro hr
  rcases h.serve_attempts task fn payload w _ hr with ⟨result, heq⟩ | ⟨what, heq⟩
  · cases heq
  · simp [failed] at heq

end NexusTaskHandler

namespace NexusRegistration

variable {ω : Type}

/-- The operation registered last for exactly this pair. -/
def mostRecent (regs : List (NexusRegistration ω)) (service operation : String) :
    Option (NexusOperationFn ω) :=
  lastWrite (regs.map fun r => ((r.service, r.operation), r.fn)) (service, operation)

/-- Some call registered exactly this pair. -/
def Registered (regs : List (NexusRegistration ω)) (service operation : String) : Prop :=
  ∃ r ∈ regs, r.service = service ∧ r.operation = operation

theorem mostRecent_isSome {regs : List (NexusRegistration ω)} {service operation : String} :
    (mostRecent regs service operation).isSome = true ↔ Registered regs service operation := by
  unfold mostRecent
  rw [lastWrite_isSome]
  constructor
  · rintro ⟨fn, hfn⟩
    obtain ⟨r, hr, heq⟩ := List.mem_map.mp hfn
    simp only [Prod.mk.injEq] at heq
    exact ⟨r, hr, heq.1.1, heq.1.2⟩
  · rintro ⟨r, hr, rfl, rfl⟩
    exact ⟨r.fn, List.mem_map.mpr ⟨r, hr, rfl⟩⟩

/-- The separator of the joined key. -/
def nul : Char := Char.ofNat 0

/-- Neither name contains the separator. -/
def NulFree (r : NexusRegistration ω) : Prop :=
  nul ∉ r.service.toList ∧ nul ∉ r.operation.toList

end NexusRegistration

namespace NexusTaskHandler
open NexusRegistration

variable {ω : Type}

section Keys

variable {service operation service' operation' : String}

theorem key_toList (service operation : String) :
    (key service operation).toList = service.toList ++ nul :: operation.toList := by
  simp [key, nul]

/-- A name pair without the separator shares its key with no other pair. -/
theorem key_inj_of_nulFree (hs : nul ∉ service.toList) (ho : nul ∉ operation.toList)
    (h : key service operation = key service' operation') :
    service = service' ∧ operation = operation' := by
  have hlist := congrArg String.toList h
  rw [key_toList, key_toList, List.append_cons_inj_of_notMem hs ho] at hlist
  exact ⟨String.toList_injective hlist.1, String.toList_injective hlist.2.2⟩

/-- A pair with the separator in one of its names has a twin: the same key cut elsewhere. -/
theorem exists_twin (h : nul ∈ service.toList ∨ nul ∈ operation.toList) :
    ∃ service' operation', (service', operation') ≠ (service, operation) ∧
      key service' operation' = key service operation := by
  rcases h with hs | ho
  · obtain ⟨a, b, hab⟩ := List.append_of_mem hs
    refine ⟨String.ofList a, String.ofList (b ++ nul :: operation.toList), ?_, ?_⟩
    · intro heq
      have hlen := congrArg (fun p => p.1.toList.length) heq
      simp [hab] at hlen
    · apply String.toList_injective
      simp [key_toList, hab]
  · obtain ⟨a, b, hab⟩ := List.append_of_mem ho
    refine ⟨String.ofList (service.toList ++ nul :: a), String.ofList b, ?_, ?_⟩
    · intro heq
      have hlen := congrArg (fun p => p.1.toList.length) heq
      simp at hlen
    · apply String.toList_injective
      simp [key_toList, hab]

end Keys

section Registered

variable (ns identity : String) (stub : NexusResponse → ω → GrpcStatus × ω)
  {regs : List (NexusRegistration ω)} {service operation : String}

/-- The handler after a sequence of `Register` calls. -/
def registered (regs : List (NexusRegistration ω)) : NexusTaskHandler ω :=
  (create ns identity stub).registerAll regs

theorem registered_operations (regs : List (NexusRegistration ω)) :
    (registered ns identity stub regs).operations =
      ofWrites (regs.map fun r => (key r.service r.operation, r.fn)) := by
  induction regs using List.reverseRecOn with
  | nil => rfl
  | append_singleton regs r ih =>
    have hstep : registered ns identity stub (regs ++ [r]) =
        (registered ns identity stub regs).register r.service r.operation r.fn := by
      simp [registered, registerAll]
    rw [hstep, register, ih]
    simp [ofWrites]

/-- An entry is found exactly when some registered pair has its key. -/
theorem registered_isSome :
    ((registered ns identity stub regs).operations (key service operation)).isSome = true ↔
      ∃ r ∈ regs, key r.service r.operation = key service operation := by
  rw [registered_operations, ofWrites_apply, lastWrite_isSome]
  constructor
  · rintro ⟨fn, hfn⟩
    obtain ⟨r, hr, heq⟩ := List.mem_map.mp hfn
    exact ⟨r, hr, congrArg Prod.fst heq⟩
  · rintro ⟨r, hr, heq⟩
    exact ⟨r.fn, List.mem_map.mpr ⟨r, hr, by rw [heq]⟩⟩

/-- Without the separator in a registered name, the table is read as one over pairs. -/
theorem registered_lookup (hfree : ∀ r ∈ regs, r.NulFree) :
    (registered ns identity stub regs).operations (key service operation) =
      mostRecent regs service operation := by
  have hapart : ∀ e ∈ regs.map fun r => ((r.service, r.operation), r.fn),
      key e.1.1 e.1.2 = key service operation → e.1 = (service, operation) := by
    intro e he heq
    obtain ⟨r, hr, rfl⟩ := List.mem_map.mp he
    obtain ⟨hs, ho⟩ := key_inj_of_nulFree (hfree r hr).1 (hfree r hr).2 heq
    rw [hs, ho]
  have hmap := lastWrite_map (fun p : String × String => key p.1 p.2) (k := (service, operation))
    hapart
  rw [List.map_map] at hmap
  rw [registered_operations, ofWrites_apply]
  exact hmap

end Registered

/-- `Handle` runs the operation registered last for exactly the pair of its task, says `NOT_FOUND`
exactly for the pairs never registered, and serves no two pairs from one entry. -/
structure DispatchesExactly (h : NexusTaskHandler ω) (regs : List (NexusRegistration ω)) :
    Prop where
  runs : ∀ service operation fn, mostRecent regs service operation = some fn →
    ∀ token payload w, h.handle ⟨token, .startOperation service operation payload⟩ w =
      h.serve ⟨token, .startOperation service operation payload⟩ fn payload w
  notFound : ∀ service operation token payload w,
    (∃ message, h.failed ⟨token, .startOperation service operation payload⟩ "NOT_FOUND" message ∈
      (h.handle ⟨token, .startOperation service operation payload⟩ w).attempts) ↔
      ¬ Registered regs service operation
  apart : ∀ service operation service' operation',
    (service, operation) ≠ (service', operation') →
    (h.operations (key service operation)).isSome = true →
    (h.operations (key service' operation')).isSome = true →
    key service operation ≠ key service' operation'

/-- A table that is read as one over pairs dispatches by pairs. -/
theorem DispatchesExactly.of_lookup {h : NexusTaskHandler ω} {regs : List (NexusRegistration ω)}
    (hlookup : ∀ service operation,
      h.operations (key service operation) = mostRecent regs service operation)
    (hapart : ∀ service operation service' operation', Registered regs service operation →
      key service operation = key service' operation' →
      (service, operation) = (service', operation')) : DispatchesExactly h regs where
  runs service operation fn hfn token payload w :=
    h.handle_of_some token service operation payload w ((hlookup service operation).trans hfn)
  notFound service operation token payload w := by
    rw [← mostRecent_isSome, ← hlookup]
    cases hfn : h.operations (key service operation) with
    | none =>
      rw [h.handle_of_none token service operation payload w hfn]
      constructor
      · intro _ hsome
        cases hsome
      · intro _
        exact ⟨_, List.mem_singleton_self _⟩
    | some fn =>
      rw [h.handle_of_some token service operation payload w hfn]
      constructor
      · rintro ⟨message, hm⟩
        exact absurd hm (h.notFound_not_served _ fn payload w message)
      · intro hnone
        exact absurd rfl hnone
  apart service operation service' operation' hne hsome _ heq := by
    rw [hlookup, mostRecent_isSome] at hsome
    exact hne (hapart service operation service' operation' hsome heq)

/-- After a sequence of `Register` calls the dispatch is exact if and only if no registered name
contains a zero character. -/
theorem dispatchesExactly_iff (ns identity : String) (stub : NexusResponse → ω → GrpcStatus × ω)
    (regs : List (NexusRegistration ω)) :
    DispatchesExactly (registered ns identity stub regs) regs ↔ ∀ r ∈ regs, r.NulFree := by
  constructor
  · intro h r hr
    by_contra hnul
    have hname : nul ∈ r.service.toList ∨ nul ∈ r.operation.toList := by
      unfold NulFree at hnul
      rwa [not_and_or, not_not, not_not] at hnul
    obtain ⟨service, operation, hne, hkey⟩ := exists_twin hname
    -- the twin finds the entry that was written for `r`
    have hown := (registered_isSome ns identity stub).mpr ⟨r, hr, rfl⟩
    have htwin := (registered_isSome ns identity stub).mpr ⟨r, hr, hkey.symm⟩
    exact h.apart service operation r.service r.operation hne htwin hown hkey
  · intro hfree
    apply DispatchesExactly.of_lookup
    · intro service operation
      exact registered_lookup ns identity stub hfree
    · rintro service operation service' operation' ⟨r, hr, rfl, rfl⟩ heq
      obtain ⟨hs, ho⟩ := key_inj_of_nulFree (hfree r hr).1 (hfree r hr).2 heq
      rw [hs, ho]

/-- An operation that answers with its input. -/
def echo : NexusOperationFn Unit := fun payload w => (.ok payload, w)

/-- A server that accepts every answer. -/
def accepting : NexusResponse → Unit → GrpcStatus × Unit := fun _ w => ({ code := .ok }, w)

/-- One operation, of a service whose name contains the separator. -/
def nulInService : List (NexusRegistration Unit) := [⟨"a\x00b", "c", echo⟩]

/-- The pair with the same key was never registered, and its task is completed by that
operation. -/
theorem nul_in_service_misroutes :
    ¬ DispatchesExactly (registered "ns" "me" accepting nulInService) nulInService ∧
      ¬ Registered nulInService "a" "b\x00c" ∧
      ((registered "ns" "me" accepting nulInService).handle
        ⟨"token", .startOperation "a" "b\x00c" {}⟩ ()).attempts =
          [.respondNexusTaskCompleted "ns" "me" "token" {}] := by
  have hunknown : ¬ Registered nulInService "a" "b\x00c" := by
    rintro ⟨r, hr, hservice, -⟩
    obtain rfl := List.mem_singleton.mp hr
    revert hservice
    decide
  have hanswer : ((registered "ns" "me" accepting nulInService).handle
      ⟨"token", .startOperation "a" "b\x00c" {}⟩ ()).attempts =
        [.respondNexusTaskCompleted "ns" "me" "token" {}] := by
    decide
  refine ⟨?_, hunknown, hanswer⟩
  intro h
  obtain ⟨message, hm⟩ := (h.notFound "a" "b\x00c" "token" {} ()).mpr hunknown
  rw [hanswer] at hm
  cases List.mem_singleton.mp hm

end NexusTaskHandler
end TemporalSdk
