import Mathlib.Data.List.Nodup
import Mathlib.Data.List.Perm.Basic
import TemporalSdk.Lib.Recency

/-! `internal/lru_cache.h`: a list of nodes in order of use and an index from keys to nodes.
A node keeps its identity while it moves, as a `std::list` node does under `splice`. -/
namespace TemporalSdk

/-- A node of `order_`. -/
structure LruNode (K V : Type) where
  id : Nat
  key : K
  value : V

/-- The fields of `LruCache`; `nextNode` numbers the nodes to be allocated. -/
structure RawLru (K V : Type) where
  capacity : Nat := 0
  order : List (LruNode K V) := []
  index : List (K × Nat) := []
  nextNode : Nat := 0

namespace RawLru

variable {K V : Type} [DecidableEq K]

/-- `index_.find`. -/
def find (c : RawLru K V) (key : K) : Option Nat := c.index.lookup key

/-- Follow an iterator. -/
def node (c : RawLru K V) (id : Nat) : Option (LruNode K V) := c.order.find? (·.id = id)

/-- Move a node to the front, as it is now. -/
def splice (c : RawLru K V) (n : LruNode K V) : RawLru K V :=
  { c with order := n :: c.order.filter (·.id ≠ n.id) }

def get (c : RawLru K V) (key : K) : Option V × RawLru K V :=
  match (c.find key).bind c.node with
  | none => (none, c)
  | some n => (some n.value, c.splice n)

/-- The loop of `EvictToCapacity` with at most `fuel` rounds. -/
def evict (c : RawLru K V) : Nat → RawLru K V
  | 0 => c
  | fuel + 1 =>
    if c.capacity ≠ 0 ∧ c.capacity < c.index.length then
      match c.order.getLast? with
      | none => c
      | some victim =>
        { c with
          order := c.order.dropLast
          index := c.index.filter (·.1 ≠ victim.key) : RawLru K V }.evict fuel
    else c

def evictToCapacity (c : RawLru K V) : RawLru K V := c.evict c.index.length

def put (c : RawLru K V) (key : K) (value : V) : RawLru K V :=
  match (c.find key).bind c.node with
  | some n => (c.splice { n with value }).evictToCapacity
  | none =>
    { c with
      order := ⟨c.nextNode, key, value⟩ :: c.order
      index := (key, c.nextNode) :: c.index
      nextNode := c.nextNode + 1 : RawLru K V }.evictToCapacity

def erase (c : RawLru K V) (key : K) : RawLru K V :=
  match c.find key with
  | none => c
  | some id =>
    { c with order := c.order.filter (·.id ≠ id), index := c.index.filter (·.1 ≠ key) }

def contains (c : RawLru K V) (key : K) : Bool := (c.find key).isSome

def size (c : RawLru K V) : Nat := c.index.length

/-- What the cache holds, most recently used first. -/
def entries (c : RawLru K V) : List (K × V) := c.order.map fun n => (n.key, n.value)

/-- The index points at the nodes and nowhere else, one node for each key. -/
structure Coherent (c : RawLru K V) : Prop where
  ids : (c.order.map LruNode.id).Nodup
  keys : (c.order.map LruNode.key).Nodup
  fresh : ∀ n ∈ c.order, n.id < c.nextNode
  index : c.index.Perm (c.order.map fun n => (n.key, n.id))

namespace Coherent

variable {c : RawLru K V}

omit [DecidableEq K] in
theorem id_eq_iff (h : c.Coherent) {m n : LruNode K V} (hm : m ∈ c.order) (hn : n ∈ c.order) :
    m.id = n.id ↔ m.key = n.key :=
  ⟨fun e => by rw [List.inj_on_of_nodup_map h.ids hm hn e],
    fun e => by rw [List.inj_on_of_nodup_map h.keys hm hn e]⟩

theorem find_eq (h : c.Coherent) (key : K) :
    c.find key = (c.order.find? (·.key = key)).map LruNode.id := by
  cases hf : c.order.find? (·.key = key) with
  | none =>
    rw [find, Option.map_none, List.lookup_eq_none_iff]
    intro p hp
    obtain ⟨n, hn, rfl⟩ := List.mem_map.mp (h.index.mem_iff.mp hp)
    have hne : n.key ≠ key := by simpa using List.find?_eq_none.mp hf n hn
    exact bne_iff_ne.mpr hne.symm
  | some n =>
    have hn : n ∈ c.order := List.mem_of_find?_eq_some hf
    have hk : n.key = key := by simpa using List.find?_some hf
    have hmem : (key, n.id) ∈ c.index :=
      h.index.mem_iff.mpr (List.mem_map.mpr ⟨n, hn, by rw [hk]⟩)
    cases hl : c.find key with
    | none =>
      rw [find, List.lookup_eq_none_iff] at hl
      simpa using hl _ hmem
    | some id =>
      obtain ⟨l₁, l₂, hi, -⟩ := List.lookup_eq_some_iff.mp hl
      have hid : (key, id) ∈ c.index := by rw [hi]; simp
      obtain ⟨m, hm, he⟩ := List.mem_map.mp (h.index.mem_iff.mp hid)
      simp only [Prod.mk.injEq] at he
      rw [← he.2, (h.id_eq_iff hm hn).mpr (he.1.trans hk.symm), Option.map_some]

omit [DecidableEq K] in
theorem node_id (h : c.Coherent) {n : LruNode K V} (hn : n ∈ c.order) : c.node n.id = some n := by
  rw [node, List.find?_eq_some_iff_append]
  obtain ⟨l₁, l₂, hl⟩ := List.append_of_mem hn
  refine ⟨by simp, l₁, l₂, hl, fun m hm => ?_⟩
  have hne := h.ids
  rw [hl, List.map_append, List.nodup_append] at hne
  simpa using hne.2.2 m.id (List.mem_map_of_mem hm) n.id (by simp)

/-- Through the index a key leads to its node. -/
theorem find_bind_node (h : c.Coherent) (key : K) :
    (c.find key).bind c.node = c.order.find? (·.key = key) := by
  rw [h.find_eq]
  cases hf : c.order.find? (·.key = key) with
  | none => rfl
  | some n => exact h.node_id (List.mem_of_find?_eq_some hf)

omit [DecidableEq K] in
theorem splice (h : c.Coherent) {n m : LruNode K V} (hn : n ∈ c.order) (hid : m.id = n.id)
    (hk : m.key = n.key) : (c.splice m).Coherent := by
  have hperm : c.order.Perm (n :: c.order.filter (·.id ≠ n.id)) := by
    obtain ⟨l₁, l₂, hl⟩ := List.append_of_mem hn
    have hne := h.ids
    rw [hl, List.map_append, List.map_cons, List.nodup_append, List.nodup_cons] at hne
    have h₁ : l₁.filter (·.id ≠ n.id) = l₁ := List.filter_eq_self.mpr fun m hm => by
      simpa using hne.2.2 m.id (List.mem_map_of_mem hm) n.id (by simp)
    have h₂ : l₂.filter (·.id ≠ n.id) = l₂ := List.filter_eq_self.mpr fun m hm => by
      have hx := hne.2.1.1
      simp only [ne_eq, decide_not, Bool.not_eq_eq_eq_not, Bool.not_true, decide_eq_false_iff_not]
      exact fun e => hx (e ▸ List.mem_map_of_mem hm)
    rw [hl, List.filter_append, List.filter_cons_of_neg (by simp), h₁, h₂]
    exact List.perm_middle
  refine ⟨?_, ?_, fun x hx => ?_, h.index.trans ?_⟩
  · have hp := (hperm.map LruNode.id).nodup_iff.mp h.ids
    simpa [RawLru.splice, hid] using hp
  · have hp := (hperm.map LruNode.key).nodup_iff.mp h.keys
    simpa [RawLru.splice, hid, hk] using hp
  · simp only [RawLru.splice, List.mem_cons, List.mem_filter] at hx
    rcases hx with rfl | ⟨hx, -⟩
    · rw [hid]
      exact h.fresh n hn
    · exact h.fresh x hx
  · have hp := hperm.map fun n => (n.key, n.id)
    simpa [RawLru.splice, hid, hk] using hp

omit [DecidableEq K] in
theorem length_index (h : c.Coherent) : c.index.length = c.order.length := by
  rw [h.index.length_eq, List.length_map]

/-- Dropping the last node and its key. -/
theorem dropLast (h : c.Coherent) {victim : LruNode K V} (hv : c.order.getLast? = some victim) :
    { c with
      order := c.order.dropLast
      index := c.index.filter (·.1 ≠ victim.key) : RawLru K V }.Coherent := by
  obtain ⟨l, hl⟩ : ∃ l, c.order = l ++ [victim] := by
    obtain ⟨hne, he⟩ := List.getLast?_eq_some_iff.mp hv
    exact ⟨hne, he⟩
  have hkeys := h.keys
  rw [hl, List.map_append, List.nodup_append] at hkeys
  refine ⟨?_, ?_, fun n hn => ?_, ?_⟩
  · exact h.ids.sublist ((List.dropLast_sublist _).map _)
  · exact h.keys.sublist ((List.dropLast_sublist _).map _)
  · exact h.fresh n ((List.dropLast_sublist _).subset hn)
  · have hp := h.index.filter (fun p => p.1 ≠ victim.key)
    rw [hl, List.map_append, List.filter_append] at hp
    have h₁ : (l.map fun n => (n.key, n.id)).filter (fun p => p.1 ≠ victim.key) =
        l.map fun n => (n.key, n.id) := List.filter_eq_self.mpr fun p hp => by
      obtain ⟨n, hn, rfl⟩ := List.mem_map.mp hp
      simpa using hkeys.2.2 n.key (List.mem_map_of_mem hn) victim.key (by simp)
    rw [h₁] at hp
    simpa [hl] using hp

/-- Evicting keeps the front of the list. -/
theorem evict (h : c.Coherent) (fuel : Nat) (hf : c.order.length ≤ fuel) :
    (c.evict fuel).Coherent ∧
      (c.evict fuel).entries = if c.capacity = 0 then c.entries else c.entries.take c.capacity := by
  induction fuel generalizing c with
  | zero =>
    have hnil : c.order = [] := List.length_eq_zero_iff.mp (by omega)
    exact ⟨h, by simp [RawLru.evict, entries, hnil]⟩
  | succ fuel ih =>
    by_cases hc : c.capacity ≠ 0 ∧ c.capacity < c.index.length
    · have hlen := h.length_index
      cases hv : c.order.getLast? with
      | none =>
        have hnil : c.order = [] := List.getLast?_eq_none_iff.mp hv
        rw [hnil] at hlen
        simp only [List.length_nil] at hlen
        omega
      | some victim =>
        have hd := h.dropLast hv
        have hih := ih hd (by simp only [List.length_dropLast]; omega)
        have hstep : c.evict (fuel + 1) =
            { c with
              order := c.order.dropLast
              index := c.index.filter (·.1 ≠ victim.key) : RawLru K V }.evict fuel := by
          simp only [RawLru.evict, hc, hv, ne_eq, not_false_eq_true, and_self, if_true]
        rw [hstep]
        refine ⟨hih.1, hih.2.trans ?_⟩
        simp only [hc.1, if_false, entries, List.map_dropLast]
        rw [List.dropLast_eq_take, List.take_take]
        congr 1
        simp only [List.length_map]
        omega
    · have hstep : c.evict (fuel + 1) = c := by simp only [RawLru.evict, hc, if_false]
      rw [hstep]
      refine ⟨h, ?_⟩
      by_cases h0 : c.capacity = 0
      · simp [h0]
      · have hle : c.order.length ≤ c.capacity := by
          have := h.length_index
          have hnot : ¬ c.capacity < c.index.length := fun hlt => hc ⟨h0, hlt⟩
          omega
        rw [if_neg h0, List.take_of_length_le (by simpa [entries] using hle)]

theorem evictToCapacity (h : c.Coherent) :
    c.evictToCapacity.Coherent ∧ c.evictToCapacity.entries =
      if c.capacity = 0 then c.entries else c.entries.take c.capacity :=
  h.evict _ (Nat.le_of_eq h.length_index.symm)

/-- The entry of a key is that of its node. -/
theorem lookup_entries (c : RawLru K V) (key : K) :
    c.entries.lookup key = (c.order.find? (·.key = key)).map LruNode.value := by
  unfold entries
  induction c.order with
  | nil => rfl
  | cons n ns ih =>
    by_cases hk : n.key = key
    · simp [hk]
    · have hne : (key == n.key) = false := beq_eq_false_iff_ne.mpr fun e => hk e.symm
      rw [List.map_cons, List.lookup_cons, hne, List.find?_cons_of_neg (by simpa using hk)]
      exact ih

/-- A node that is moved to the front takes its entry with it. -/
theorem entries_splice (h : c.Coherent) {n m : LruNode K V} (hn : n ∈ c.order)
    (hid : m.id = n.id) (hk : m.key = n.key) :
    (c.splice m).entries = (n.key, m.value) :: c.entries.filter (·.1 ≠ n.key) := by
  have hf : c.order.filter (fun m => m.id ≠ n.id) = c.order.filter fun m => m.key ≠ n.key :=
    List.filter_congr fun m hm => by simp [h.id_eq_iff hm hn]
  simp only [RawLru.splice, entries, List.map_cons, hid, hk, List.filter_map]
  rw [hf]
  rfl

theorem get (h : c.Coherent) (key : K) :
    (c.get key).1 = c.entries.lookup key ∧ (c.get key).2.Coherent ∧
      (c.get key).2.entries = match c.entries.lookup key with
        | none => c.entries
        | some v => (key, v) :: c.entries.filter (·.1 ≠ key) := by
  rw [RawLru.get, h.find_bind_node, lookup_entries]
  cases hf : c.order.find? (·.key = key) with
  | none => exact ⟨rfl, h, rfl⟩
  | some n =>
    have hn : n ∈ c.order := List.mem_of_find?_eq_some hf
    have hk : n.key = key := by simpa using List.find?_some hf
    refine ⟨rfl, h.splice hn rfl rfl, ?_⟩
    rw [h.entries_splice hn rfl rfl, hk]
    rfl

theorem put (h : c.Coherent) (key : K) (value : V) :
    (c.put key value).Coherent ∧ (c.put key value).entries =
      let touched := (key, value) :: c.entries.filter (·.1 ≠ key)
      if c.capacity = 0 then touched else touched.take c.capacity := by
  rw [RawLru.put, h.find_bind_node]
  cases hf : c.order.find? (·.key = key) with
  | none =>
    have hne : ∀ n ∈ c.order, n.key ≠ key := by
      simpa using List.find?_eq_none.mp hf
    have hself : c.entries.filter (·.1 ≠ key) = c.entries := List.filter_eq_self.mpr fun p hp => by
      obtain ⟨n, hn, rfl⟩ := List.mem_map.mp hp
      simpa using hne n hn
    have hc : { c with
        order := ⟨c.nextNode, key, value⟩ :: c.order
        index := (key, c.nextNode) :: c.index
        nextNode := c.nextNode + 1 : RawLru K V }.Coherent := by
      refine ⟨?_, ?_, fun n hn => ?_, h.index.cons _⟩
      · rw [List.map_cons, List.nodup_cons]
        refine ⟨fun hm => ?_, h.ids⟩
        obtain ⟨n, hn, hid⟩ := List.mem_map.mp hm
        have := h.fresh n hn
        simp only at hid
        omega
      · rw [List.map_cons, List.nodup_cons]
        refine ⟨fun hm => ?_, h.keys⟩
        obtain ⟨n, hn, hk⟩ := List.mem_map.mp hm
        exact hne n hn hk
      · rcases List.mem_cons.mp hn with rfl | hn
        · exact Nat.lt_succ_self _
        · exact Nat.lt_succ_of_lt (h.fresh n hn)
    refine ⟨hc.evictToCapacity.1, hc.evictToCapacity.2.trans ?_⟩
    rw [hself]
    rfl
  | some n =>
    have hn : n ∈ c.order := List.mem_of_find?_eq_some hf
    have hk : n.key = key := by simpa using List.find?_some hf
    have hs := h.splice (m := { n with value }) hn rfl rfl
    have he := h.entries_splice (m := { n with value }) hn rfl rfl
    refine ⟨hs.evictToCapacity.1, hs.evictToCapacity.2.trans ?_⟩
    rw [he, hk]
    rfl

theorem erase (h : c.Coherent) (key : K) :
    (c.erase key).Coherent ∧ (c.erase key).entries = c.entries.filter (·.1 ≠ key) := by
  rw [RawLru.erase, h.find_eq]
  cases hf : c.order.find? (·.key = key) with
  | none =>
    refine ⟨h, (List.filter_eq_self.mpr fun p hp => ?_).symm⟩
    obtain ⟨n, hn, rfl⟩ := List.mem_map.mp hp
    simpa using List.find?_eq_none.mp hf n hn
  | some n =>
    have hn : n ∈ c.order := List.mem_of_find?_eq_some hf
    have hk : n.key = key := by simpa using List.find?_some hf
    have hfilter : c.order.filter (fun m => m.id ≠ n.id) = c.order.filter fun m => m.key ≠ key :=
      List.filter_congr fun m hm => by simp [h.id_eq_iff hm hn, hk]
    simp only [Option.map_some]
    refine ⟨⟨?_, ?_, fun m hm => h.fresh m (List.mem_filter.mp hm).1, ?_⟩, ?_⟩
    · exact h.ids.sublist (List.filter_sublist.map _)
    · exact h.keys.sublist (List.filter_sublist.map _)
    · rw [hfilter]
      have hp := h.index.filter fun p => p.1 ≠ key
      rwa [List.filter_map] at hp
    · simp only [entries, hfilter, List.filter_map]
      rfl

end Coherent
end RawLru

/-- `LruCache`: the fields with their invariant. -/
structure LruCache (K V : Type) [DecidableEq K] where
  raw : RawLru K V
  coherent : raw.Coherent

namespace LruCache

variable {K V : Type} [DecidableEq K]

def empty (capacity : Nat) : LruCache K V := ⟨{ capacity }, by constructor <;> simp⟩

def get (c : LruCache K V) (key : K) : Option V × LruCache K V :=
  ((c.raw.get key).1, ⟨(c.raw.get key).2, (c.coherent.get key).2.1⟩)

def put (c : LruCache K V) (key : K) (value : V) : LruCache K V :=
  ⟨c.raw.put key value, (c.coherent.put key value).1⟩

def erase (c : LruCache K V) (key : K) : LruCache K V :=
  ⟨c.raw.erase key, (c.coherent.erase key).1⟩

/-- The value a key is cached under. -/
def peek (c : LruCache K V) (key : K) : Option V := c.raw.entries.lookup key

theorem lookup_filter_ne (l : List (K × V)) (key j : K) :
    (l.filter (·.1 ≠ key)).lookup j = if j = key then none else l.lookup j := by
  induction l with
  | nil => simp
  | cons p l ih =>
    obtain ⟨k, v⟩ := p
    by_cases hk : k = key
    · rw [List.filter_cons_of_neg (by simpa using hk), ih]
      by_cases hj : j = key
      · simp [hj]
      · have hne : (j == k) = false := beq_eq_false_iff_ne.mpr (hk ▸ hj)
        simp [hj, List.lookup_cons, hne]
    · rw [List.filter_cons_of_pos (by simpa using hk), List.lookup_cons, List.lookup_cons, ih]
      by_cases hj : j = key
      · have hne : (j == k) = false := beq_eq_false_iff_ne.mpr fun e => hk (e ▸ hj)
        simp [hj, hj ▸ hne]
      · simp [hj]

theorem lookup_take {l : List (K × V)} {n : Nat} {j : K} {v : V}
    (h : (l.take n).lookup j = some v) : l.lookup j = some v := by
  obtain ⟨l₁, l₂, he, hne⟩ := List.lookup_eq_some_iff.mp h
  rw [List.lookup_eq_some_iff]
  refine ⟨l₁, l₂ ++ l.drop n, ?_, hne⟩
  rw [← List.cons_append, ← List.append_assoc, ← he, List.take_append_drop]

@[simp] theorem get_fst (c : LruCache K V) (key : K) : (c.get key).1 = c.peek key :=
  (c.coherent.get key).1

/-- Looking a key up moves it to the front and changes nothing else. -/
@[simp] theorem peek_get (c : LruCache K V) (key j : K) : (c.get key).2.peek j = c.peek j := by
  change (c.raw.get key).2.entries.lookup j = c.raw.entries.lookup j
  rw [(c.coherent.get key).2.2]
  cases hv : c.raw.entries.lookup key with
  | none => rfl
  | some v =>
    simp only [List.lookup_cons, lookup_filter_ne]
    by_cases hj : j = key
    · simp [hj, hv]
    · have hne : (j == key) = false := beq_eq_false_iff_ne.mpr hj
      simp [hj, hne]

theorem peek_put_self (c : LruCache K V) (key : K) (value : V) :
    (c.put key value).peek key = some value := by
  change (c.raw.put key value).entries.lookup key = some value
  rw [(c.coherent.put key value).2]
  by_cases hc : c.raw.capacity = 0
  · simp [hc]
  · obtain ⟨n, hn⟩ : ∃ n, c.raw.capacity = n + 1 := ⟨c.raw.capacity - 1, by omega⟩
    simp [hn]

/-- Other keys keep their value or are evicted. -/
theorem peek_put_of_ne (c : LruCache K V) {key j : K} (hj : j ≠ key) (value v : V)
    (h : (c.put key value).peek j = some v) : c.peek j = some v := by
  have htouched : ∀ l, l = (key, value) :: c.raw.entries.filter (·.1 ≠ key) →
      l.lookup j = some v → c.peek j = some v := by
    rintro l rfl hl
    have hne : (j == key) = false := beq_eq_false_iff_ne.mpr hj
    simp only [List.lookup_cons, hne, lookup_filter_ne, hj, if_false] at hl
    exact hl
  change (c.raw.put key value).entries.lookup j = some v at h
  rw [(c.coherent.put key value).2] at h
  by_cases hc : c.raw.capacity = 0
  · simp only [hc, if_true] at h
    exact htouched _ rfl h
  · simp only [hc, if_false] at h
    exact htouched _ rfl (lookup_take h)

@[simp] theorem peek_erase (c : LruCache K V) (key j : K) :
    (c.erase key).peek j = if j = key then none else c.peek j := by
  change (c.raw.erase key).entries.lookup j = _
  rw [(c.coherent.erase key).2, lookup_filter_ne]
  rfl

end LruCache

namespace RawLru

variable {K V : Type} [DecidableEq K]

/-- One call of a cache's user. -/
def call (c : RawLru K V) : Recency.Call K V → RawLru K V × Recency.Result V
  | .get key => ((c.get key).2, .found (c.get key).1)
  | .put key value => (c.put key value, .none)
  | .erase key => (c.erase key, .none)
  | .contains key => (c, .flag (c.contains key))
  | .size => (c, .count c.size)

/-- A cache after some calls. -/
def after (capacity : Nat) (calls : List (Recency.Call K V)) : RawLru K V :=
  calls.foldl (fun c x => (c.call x).1) { capacity }

/-- What a cache gives back, call by call. -/
def results : RawLru K V → List (Recency.Call K V) → List (Recency.Result V)
  | _, [] => []
  | c, x :: calls => (c.call x).2 :: (c.call x).1.results calls

theorem after_concat (capacity : Nat) (calls : List (Recency.Call K V)) (x : Recency.Call K V) :
    after capacity (calls ++ [x]) = ((after capacity calls).call x).1 := by
  simp [after]

theorem evict_capacity (c : RawLru K V) (fuel : Nat) : (c.evict fuel).capacity = c.capacity := by
  induction fuel generalizing c with
  | zero => rfl
  | succ fuel ih =>
    unfold evict
    split
    · split
      · rfl
      · exact ih _
    · rfl

theorem call_capacity (c : RawLru K V) (x : Recency.Call K V) :
    (c.call x).1.capacity = c.capacity := by
  cases x with
  | get key =>
    simp only [call, get]
    split <;> rfl
  | put key value =>
    simp only [call, put, evictToCapacity]
    split <;> exact evict_capacity _ _
  | erase key =>
    simp only [call, erase]
    split <;> rfl
  | contains key => rfl
  | size => rfl

theorem contains_eq {c : RawLru K V} (h : c.Coherent) (key : K) :
    c.contains key = (c.entries.lookup key).isSome := by
  rw [contains, h.find_eq, Coherent.lookup_entries, Option.isSome_map, Option.isSome_map]

omit [DecidableEq K] in
theorem size_eq {c : RawLru K V} (h : c.Coherent) : c.size = c.entries.length := by
  rw [size, h.length_index, entries, List.length_map]

/-- Putting a key evicts at most the entry used least recently, and only for a new key. -/
theorem entries_put {c : RawLru K V} (h : c.Coherent)
    (hle : c.capacity ≠ 0 → c.entries.length ≤ c.capacity) (key : K) (value : V) :
    (c.put key value).entries = (Recency.step c.capacity c.entries (.put key value)).1 := by
  rw [(h.put key value).2]
  simp only [Recency.step]
  cases hv : c.entries.lookup key with
  | some v =>
    have hlt : (c.entries.filter (·.1 ≠ key)).length < c.entries.length :=
      List.length_filter_lt_length_iff_exists.mpr ⟨_, Recency.mem_keys_of_lookup hv, by simp⟩
    simp only [Option.isSome_some, if_true, Recency.touch]
    split
    · rfl
    · next h0 =>
      have := hle h0
      exact List.take_of_length_le (by simp only [List.length_cons]; omega)
  | none =>
    have hself : c.entries.filter (·.1 ≠ key) = c.entries :=
      List.filter_eq_self.mpr fun p hp => by simpa using Recency.ne_of_lookup_eq_none hv hp
    simp only [Option.isSome_none, Bool.false_eq_true, if_false, hself]
    by_cases h0 : c.capacity = 0
    · simp [h0]
    · have hlen := hle h0
      rw [if_neg h0]
      by_cases hfull : c.capacity ≤ c.entries.length
      · obtain ⟨n, hn⟩ : ∃ n, c.capacity = n + 1 := ⟨c.capacity - 1, by omega⟩
        rw [if_pos ⟨h0, hfull⟩, hn, List.take_succ_cons, List.dropLast_eq_take]
        congr 2
        omega
      · rw [if_neg fun hx => hfull hx.2]
        exact List.take_of_length_le (by simp only [List.length_cons]; omega)

/-- One call does to the entries what it does to the reference list, and answers alike. -/
theorem call_refines {c : RawLru K V} (h : c.Coherent)
    (hle : c.capacity ≠ 0 → c.entries.length ≤ c.capacity) (x : Recency.Call K V) :
    (c.call x).1.Coherent ∧
      ((c.call x).1.entries, (c.call x).2) = Recency.step c.capacity c.entries x := by
  cases x with
  | get key =>
    obtain ⟨hv, hc, he⟩ := h.get key
    refine ⟨hc, ?_⟩
    simp only [call, Recency.step, hv, he]
    cases c.entries.lookup key <;> rfl
  | put key value =>
    refine ⟨(h.put key value).1, Prod.ext (entries_put h hle key value) ?_⟩
    simp only [call, Recency.step]
    split_ifs <;> rfl
  | erase key => exact ⟨(h.erase key).1, Prod.ext (h.erase key).2 rfl⟩
  | contains key =>
    exact ⟨h, congrArg (fun b => (c.entries, Recency.Result.flag b)) (contains_eq h key)⟩
  | size => exact ⟨h, congrArg (fun n => (c.entries, Recency.Result.count n)) (size_eq h)⟩

/-- A cache after some calls, over the reference list after the same calls. -/
structure Represents (capacity : Nat) (calls : List (Recency.Call K V)) (c : RawLru K V) :
    Prop where
  coherent : c.Coherent
  capacity_eq : c.capacity = capacity
  entries_eq : c.entries = Recency.entries capacity calls

theorem Represents.call {capacity : Nat} {calls : List (Recency.Call K V)} {c : RawLru K V}
    (h : Represents capacity calls c) (x : Recency.Call K V) :
    Represents capacity (calls ++ [x]) (c.call x).1 ∧
      (c.call x).2 = (Recency.step capacity (Recency.entries capacity calls) x).2 := by
  have hle : c.capacity ≠ 0 → c.entries.length ≤ c.capacity := by
    rw [h.capacity_eq, h.entries_eq]
    exact (Recency.sorted_entries capacity calls).bounded
  obtain ⟨hc, he⟩ := call_refines h.coherent hle x
  rw [h.capacity_eq, h.entries_eq, Prod.ext_iff] at he
  refine ⟨⟨hc, (c.call_capacity x).trans h.capacity_eq, ?_⟩, he.2⟩
  rw [Recency.entries_concat]
  exact he.1

theorem represents_after (capacity : Nat) (calls : List (Recency.Call K V)) :
    Represents capacity calls (after capacity calls) := by
  induction calls using List.reverseRecOn with
  | nil => exact ⟨by constructor <;> simp [after], rfl, rfl⟩
  | append_singleton calls x ih =>
    rw [after_concat]
    exact (ih.call x).1

theorem Represents.results {capacity : Nat} {calls : List (Recency.Call K V)} {c : RawLru K V}
    (h : Represents capacity calls c) (more : List (Recency.Call K V)) :
    c.results more = Recency.resultsFrom capacity (Recency.entries capacity calls) more := by
  induction more generalizing calls c with
  | nil => rfl
  | cons x more ih =>
    obtain ⟨hr, hx⟩ := h.call x
    rw [RawLru.results, Recency.resultsFrom, hx, ih hr, Recency.entries_concat]

/-- A full cache makes room for a new key by dropping the key that was used longest ago. -/
theorem Represents.put_full {capacity : Nat} {calls : List (Recency.Call K V)} {c : RawLru K V}
    (h : Represents capacity calls c) {key : K} (hnew : c.contains key = false)
    (h0 : capacity ≠ 0) (hfull : c.size = capacity) (value : V) :
    ∃ front victim, c.entries = front ++ [victim] ∧
      (∀ p ∈ front, Recency.Younger calls p victim) ∧
      (c.put key value).entries = (key, value) :: front := by
  have hlen : c.entries.length = capacity := (size_eq h.coherent).symm.trans hfull
  have hne : c.entries ≠ [] := fun he => h0 (by rw [← hlen, he, List.length_nil])
  have hsplit := (List.dropLast_append_getLast hne).symm
  have hsorted := (Recency.sorted_entries capacity calls).younger
  rw [← h.entries_eq, hsplit] at hsorted
  refine ⟨_, _, hsplit, fun p hp => ?_, ?_⟩
  · exact (List.pairwise_append.mp hsorted).2.2 p hp _ (List.mem_singleton.mpr rfl)
  · have hcap : c.capacity ≠ 0 ∧ c.capacity ≤ c.entries.length := by
      rw [h.capacity_eq]
      exact ⟨h0, Nat.le_of_eq hlen.symm⟩
    rw [contains_eq h.coherent] at hnew
    rw [entries_put h.coherent (fun _ => by rw [h.capacity_eq]; exact Nat.le_of_eq hlen)]
    simp only [Recency.step, hnew, Bool.false_eq_true, if_false, if_pos hcap]

/-- A cache behaves as a list that is sorted by last use. After any calls the index leads to the
nodes and back, one node to a key, a positive capacity is kept to, the answers are those of the
list, and the entries stand in the order of their last use. A present key is replaced and moves to
the front, a new one takes the place of the key used longest ago, and erasing keeps the order of
the other keys. -/
theorem refines_recency_list (capacity : Nat) (calls : List (Recency.Call K V)) :
    let c : RawLru K V := after capacity calls
    ((c.index.map Prod.fst).Nodup ∧ (c.order.map LruNode.key).Nodup ∧
      (c.order.map LruNode.id).Nodup ∧
      ∀ key id, (key, id) ∈ c.index ↔ ∃ n ∈ c.order, n.key = key ∧ n.id = id) ∧
    (capacity ≠ 0 → c.size ≤ capacity) ∧
    (({ capacity } : RawLru K V).results calls = Recency.resultsFrom capacity [] calls ∧
      c.entries = Recency.entries capacity calls) ∧
    c.entries.Pairwise (Recency.Younger calls) ∧
    (∀ key value, c.contains key = true →
      (c.put key value).entries = Recency.touch c.entries key value) ∧
    (∀ key value, c.contains key = false → capacity ≠ 0 → c.size = capacity →
      ∃ front victim, c.entries = front ++ [victim] ∧
        (∀ p ∈ front, Recency.Younger calls p victim) ∧
        (c.put key value).entries = (key, value) :: front) ∧
    (∀ key value, c.contains key = false → (capacity ≠ 0 → c.size < capacity) →
      (c.put key value).entries = (key, value) :: c.entries) ∧
    ∀ key, (c.erase key).entries = c.entries.filter (·.1 ≠ key) := by
  intro c
  have h : Represents capacity calls c := represents_after capacity calls
  have hsorted := Recency.sorted_entries capacity calls
  have hle : c.capacity ≠ 0 → c.entries.length ≤ c.capacity := by
    rw [h.capacity_eq, h.entries_eq]
    exact hsorted.bounded
  have hstart : Represents capacity [] ({ capacity } : RawLru K V) := represents_after capacity []
  refine ⟨⟨?_, h.coherent.keys, h.coherent.ids, fun key id => ?_⟩, fun h0 => ?_,
    ⟨hstart.results calls, h.entries_eq⟩, h.entries_eq ▸ hsorted.younger, fun key value hk => ?_,
    fun key value hnew h0 hfull => h.put_full hnew h0 hfull value, fun key value hnew hroom => ?_,
    fun key => (h.coherent.erase key).2⟩
  · rw [(h.coherent.index.map Prod.fst).nodup_iff, List.map_map]
    exact h.coherent.keys
  · rw [h.coherent.index.mem_iff, List.mem_map]
    simp only [Prod.mk.injEq]
  · rw [size_eq h.coherent, h.entries_eq]
    exact hsorted.bounded h0
  · rw [contains_eq h.coherent] at hk
    rw [entries_put h.coherent hle, Recency.step, if_pos hk]
  · rw [contains_eq h.coherent] at hnew
    rw [size_eq h.coherent, ← h.capacity_eq] at hroom
    rw [entries_put h.coherent hle]
    simp only [Recency.step, hnew, Bool.false_eq_true, if_false]
    rw [if_neg fun hx => absurd (hroom hx.1) (Nat.not_lt.mpr hx.2)]

end RawLru
end TemporalSdk
