import TemporalSdk.Payload
import TemporalSdk.Lib.ContentStore
import TemporalSdk.Lib.OrderedMap
import Mathlib.Data.Fintype.Pigeonhole
import Mathlib.Data.Fintype.BigOperators

/-!
The two bundled payload storages. Both name a body by its hash and size and write it over whatever
has that name, so each refines a table that files bodies under a digest.
-/
namespace TemporalSdk
open OrderedMap

/-- `PayloadStorage`, with the state behind its methods; an error is the text of the
`DataConverterError`. -/
structure PayloadStorage where
  State : Type
  init : State
  store : Payload → State → Except String Payload × State
  resolve : State → Payload → Except String Payload

/-- `kRemoteRefKey`. -/
def kRemoteRefKey : String := "remote-codec-ref"

/-- `PayloadStorageKey`, of the body alone; `hash` is `std::hash<std::string>`. -/
def payloadStorageKey (hash : List UInt8 → UInt64) (data : List UInt8) : String :=
  toString (hash data).toNat ++ "-" ++ toString data.length

/-- The reference both stores return. -/
def reference (key : String) (payload : Payload) : Payload where
  metadata := assign payload.metadata kRemoteRefKey key
  data := key.toUTF8.data.toList

/-- The payload both stores resolve a reference to. -/
def restored (body : List UInt8) (payload : Payload) : Payload where
  metadata := erase payload.metadata kRemoteRefKey
  data := body

/-- `InMemoryPayloadStorage`; the state is `blobs_`. -/
def inMemoryPayloadStorage (hash : List UInt8 → UInt64) : PayloadStorage where
  State := List (String × List UInt8)
  init := []
  store payload blobs :=
    let key := payloadStorageKey hash payload.data
    (.ok (reference key payload), assign blobs key payload.data)
  resolve blobs payload :=
    match find? payload.metadata kRemoteRefKey with
    | none => .ok payload
    | some ref =>
      match find? blobs ref with
      | none => .error ("payload storage reference not found: " ++ ref)
      | some body => .ok (restored body payload)

/-- `std::filesystem::path::operator/`. -/
def pathAppend (dir name : String) : String :=
  if name.toList.head? = some '/' then name
  else if dir.isEmpty ∨ dir.toList.getLast? = some '/' then dir ++ name
  else dir ++ "/" ++ name

/-- How the file operations of one call turn out. A write that fails has written some bytes of the
body. -/
structure FileOps where
  createDirectories : Option String := none
  opensForWriting : Bool := true
  writeFailsAfter : Option ℕ := none
  existsOk : Bool := true
  opensForReading : Bool := true
  readBad : Bool := false
  deriving DecidableEq, Repr

namespace FilePayloadStorage

/-- The regular files by their paths. -/
abbrev Files := String → Option (List UInt8)

def store (hash : List UInt8 → UInt64) (dir : String) (ops : FileOps) (payload : Payload)
    (files : Files) : Except String Payload × Files :=
  let key := payloadStorageKey hash payload.data
  let file := pathAppend dir key
  match ops.createDirectories with
  | some message =>
    (.error ("payload storage: cannot create directory " ++ dir ++ ": " ++ message), files)
  | none =>
    if !ops.opensForWriting then
      (.error ("payload storage: cannot open file for writing: " ++ file), files)
    else
      match ops.writeFailsAfter with
      | some n =>
        (.error ("payload storage: failed to write file: " ++ file),
          Function.update files file (some (payload.data.take n)))
      | none => (.ok (reference key payload), Function.update files file (some payload.data))

def resolve (dir : String) (ops : FileOps) (files : Files) (payload : Payload) :
    Except String Payload :=
  match find? payload.metadata kRemoteRefKey with
  | none => .ok payload
  | some ref =>
    let file := pathAppend dir ref
    match files file with
    | none => .error ("payload storage reference not found: " ++ file)
    | some body =>
      if !ops.existsOk then .error ("payload storage reference not found: " ++ file)
      else if !ops.opensForReading then
        .error ("payload storage: cannot open file for reading: " ++ file)
      else if ops.readBad then .error ("payload storage: failed to read file: " ++ file)
      else .ok (restored body payload)

end FilePayloadStorage

/-- `FilePayloadStorage` over the files that are there, while its file operations succeed. -/
def filePayloadStorage (hash : List UInt8 → UInt64) (dir : String)
    (files : FilePayloadStorage.Files) : PayloadStorage where
  State := FilePayloadStorage.Files
  init := files
  store := FilePayloadStorage.store hash dir {}
  resolve := FilePayloadStorage.resolve dir {}

namespace PayloadStorage

variable (storage : PayloadStorage)

/-- `Store` on one payload after the other: what each call returned, and the state left. -/
def storeAll : List Payload → storage.State → List (Except String Payload) × storage.State
  | [], s => ([], s)
  | payload :: rest, s =>
    let (ref, s) := storage.store payload s
    let (refs, s) := storeAll rest s
    (ref :: refs, s)

/-- What `issuer` returned resolves in `storage` to what was stored, after the same calls. -/
def Resolves (issuer storage : PayloadStorage) (stored : List Payload) : Prop :=
  List.Forall₂ (fun returned payload => ∃ ref, returned = .ok ref ∧
      storage.resolve (storage.storeAll stored storage.init).2 ref = .ok payload)
    (issuer.storeAll stored issuer.init).1 stored

end PayloadStorage

theorem digit_of_mem_toString {n : ℕ} {c : Char} (h : c ∈ (toString n).toList) : c.isDigit := by
  rw [Nat.toString_eq_repr, Nat.toList_repr] at h
  exact Nat.isDigit_of_mem_toDigits (by omega) (by omega) h

section

variable {hash : List UInt8 → UInt64} {a b : List UInt8} {dir : String}

theorem payloadStorageKey_eq_iff : payloadStorageKey hash a = payloadStorageKey hash b ↔
    hash a = hash b ∧ a.length = b.length := by
  have hdash (n : ℕ) : '-' ∉ (toString n).toList := fun h => by
    simpa using digit_of_mem_toString h
  constructor
  · intro h
    have hl := congrArg String.toList h
    simp only [payloadStorageKey, String.toList_append, List.append_assoc] at hl
    obtain ⟨hhash, -, hlen⟩ := (List.append_cons_inj_of_notMem (hdash _) (hdash _)).mp hl
    exact ⟨UInt64.toNat_inj.mp (toString_nat_injective (String.toList_inj.mp hhash)),
      toString_nat_injective (String.toList_inj.mp hlen)⟩
  · rintro ⟨hhash, hlen⟩
    rw [payloadStorageKey, payloadStorageKey, hhash, hlen]

/-- A key is no absolute path, so `operator/` puts one prefix before all keys. -/
theorem exists_pathAppend_key (dir : String) :
    ∃ base, ∀ hash data, pathAppend dir (payloadStorageKey hash data) =
      base ++ payloadStorageKey hash data := by
  have hrel (hash data) : (payloadStorageKey hash data).toList.head? ≠ some '/' := by
    have hdigit (c) (hc : c ∈ (toString (hash data).toNat).toList) := digit_of_mem_toString hc
    simp only [payloadStorageKey, String.toList_append, List.append_assoc]
    cases hl : (toString (hash data).toNat).toList with
    | nil => simp
    | cons c rest =>
      have hc := hdigit c (hl ▸ List.mem_cons_self)
      rintro ⟨⟩
      simp at hc
  by_cases hdir : dir.isEmpty ∨ dir.toList.getLast? = some '/'
  · exact ⟨dir, fun hash data => by rw [pathAppend, if_neg (hrel hash data), if_pos hdir]⟩
  · exact ⟨dir ++ "/", fun hash data => by rw [pathAppend, if_neg (hrel hash data), if_neg hdir]⟩

theorem pathAppend_key_inj : pathAppend dir (payloadStorageKey hash a) =
    pathAppend dir (payloadStorageKey hash b) ↔
      payloadStorageKey hash a = payloadStorageKey hash b := by
  obtain ⟨base, hbase⟩ := exists_pathAppend_key dir
  rw [hbase, hbase, String.append_right_inj]

/-- A storage as a table that files bodies under their keys: `Store` puts the body there and returns
the reference, and a reference resolves to the body in the table. -/
structure PayloadStorage.ContentView (hash : List UInt8 → UInt64) (storage : PayloadStorage) where
  table : storage.State → String → Option (List UInt8)
  fst_store : ∀ payload s, (storage.store payload s).1 =
    .ok (reference (payloadStorageKey hash payload.data) payload)
  table_store : ∀ payload s data,
    table (storage.store payload s).2 (payloadStorageKey hash data) =
      ContentStore.put (payloadStorageKey hash) (table s) payload.data (payloadStorageKey hash data)
  resolve_eq : ∀ s payload data body,
    find? payload.metadata kRemoteRefKey = some (payloadStorageKey hash data) →
      table s (payloadStorageKey hash data) = some body →
        storage.resolve s payload = .ok (restored body payload)

def inMemoryPayloadStorage.view (hash : List UInt8 → UInt64) :
    (inMemoryPayloadStorage hash).ContentView hash where
  table := find?
  fst_store _ _ := rfl
  table_store payload blobs data := by
    by_cases h : payloadStorageKey hash data = payloadStorageKey hash payload.data
    · rw [h, ContentStore.put, Function.update_self]
      exact find?_assign_self _ _ _
    · rw [ContentStore.put, Function.update_of_ne h]
      exact find?_assign_of_ne _ h _
  resolve_eq blobs payload data body href hbody := by
    simp only [inMemoryPayloadStorage, href, hbody]

/-- A `Store` that succeeds writes one file, the one of its key. -/
theorem FilePayloadStorage.store_apply (files : Files) (payload : Payload) (data : List UInt8) :
    (store hash dir {} payload files).2 (pathAppend dir (payloadStorageKey hash data)) =
      ContentStore.put (payloadStorageKey hash) (fun key => files (pathAppend dir key))
        payload.data (payloadStorageKey hash data) := by
  simp only [store, Bool.not_true, Bool.false_eq_true, if_false]
  by_cases h : payloadStorageKey hash data = payloadStorageKey hash payload.data
  · rw [h, ContentStore.put, Function.update_self, Function.update_self]
  · rw [ContentStore.put, Function.update_of_ne h,
      Function.update_of_ne (mt pathAppend_key_inj.mp h)]

def filePayloadStorage.view (hash : List UInt8 → UInt64) (dir : String)
    (files : FilePayloadStorage.Files) : (filePayloadStorage hash dir files).ContentView hash where
  table files key := files (pathAppend dir key)
  fst_store _ _ := rfl
  table_store payload files data := FilePayloadStorage.store_apply files payload data
  resolve_eq files payload data body href hbody := by
    simp [filePayloadStorage, FilePayloadStorage.resolve, href, hbody]

namespace PayloadStorage.ContentView

variable {storage issuer : PayloadStorage}

theorem fst_storeAll (view : storage.ContentView hash) (stored : List Payload) (s : storage.State) :
    (storage.storeAll stored s).1 =
      stored.map fun p => .ok (reference (payloadStorageKey hash p.data) p) := by
  induction stored generalizing s with
  | nil => rfl
  | cons p rest ih => rw [storeAll, List.map_cons, ← ih, ← view.fst_store p s]

/-- A run of `Store`s files all the bodies in the table. -/
theorem table_storeAll (view : storage.ContentView hash) (stored : List Payload) (s : storage.State)
    (table : String → Option (List UInt8))
    (h : ∀ data, view.table s (payloadStorageKey hash data) = table (payloadStorageKey hash data))
    (data : List UInt8) : view.table (storage.storeAll stored s).2 (payloadStorageKey hash data) =
      ContentStore.puts (payloadStorageKey hash) table (stored.map Payload.data)
        (payloadStorageKey hash data) := by
  induction stored generalizing s table with
  | nil => exact h data
  | cons p rest ih =>
    apply ih
    intro data
    rw [view.table_store]
    by_cases hkey : payloadStorageKey hash data = payloadStorageKey hash p.data
    · rw [hkey, ContentStore.put, ContentStore.put, Function.update_self, Function.update_self]
    · rw [ContentStore.put, ContentStore.put, Function.update_of_ne hkey,
        Function.update_of_ne hkey, h]

/-- Resolving a reference gives the payload back just if the table holds its body. -/
theorem resolve_reference_iff (view : storage.ContentView hash) {s : storage.State} {p : Payload}
    {body : List UInt8} (hfree : find? p.metadata kRemoteRefKey = none)
    (hbody : view.table s (payloadStorageKey hash p.data) = some body) :
    storage.resolve s (reference (payloadStorageKey hash p.data) p) = .ok p ↔ body = p.data := by
  have href : find? (reference (payloadStorageKey hash p.data) p).metadata kRemoteRefKey =
      some (payloadStorageKey hash p.data) := find?_assign_self _ _ _
  have hmeta : erase (assign p.metadata kRemoteRefKey (payloadStorageKey hash p.data))
      kRemoteRefKey = p.metadata := by rw [erase_assign, erase_of_find?_none hfree]
  rw [view.resolve_eq s _ _ body href hbody, restored, reference, hmeta]
  constructor
  · intro h
    exact congrArg Payload.data (Except.ok.inj h)
  · rintro rfl
    rfl

/-- The references of one store all resolve in another just if no two bodies share a key. -/
theorem resolves_iff (issued : issuer.ContentView hash) (view : storage.ContentView hash)
    (stored : List Payload)
    (hfree : ∀ p ∈ stored, find? p.metadata kRemoteRefKey = none) :
    issuer.Resolves storage stored ↔ ∀ p ∈ stored, ∀ q ∈ stored,
      payloadStorageKey hash p.data = payloadStorageKey hash q.data → p.data = q.data := by
  have hputs := ContentStore.puts_eq_some_iff (payloadStorageKey hash) (view.table storage.init)
    (stored.map Payload.data)
  simp only [List.forall_mem_map] at hputs
  rw [← hputs, Resolves, issued.fst_storeAll, List.forall₂_map_left_iff, List.forall₂_same]
  refine forall₂_congr fun p hp => ?_
  have htable := view.table_storeAll stored storage.init _ (fun _ => rfl) p.data
  obtain ⟨body, -, -, hbody⟩ := ContentStore.exists_puts_of_mem (payloadStorageKey hash)
    (view.table storage.init) (List.mem_map_of_mem (f := Payload.data) hp)
  rw [hbody] at htable
  simp only [Except.ok.injEq, exists_eq_left', hbody, Option.some.injEq]
  exact view.resolve_reference_iff (hfree p hp) htable

end PayloadStorage.ContentView

/-- The storages of the SDK: the in-memory one, and a file one in any directory. -/
inductive PayloadStorage.Bundled (hash : List UInt8 → UInt64) : PayloadStorage → Prop
  | inMemory : Bundled hash (inMemoryPayloadStorage hash)
  | file (dir : String) (files : FilePayloadStorage.Files) :
    Bundled hash (filePayloadStorage hash dir files)

theorem PayloadStorage.Bundled.nonempty_view {storage : PayloadStorage}
    (h : Bundled hash storage) : Nonempty (storage.ContentView hash) := by
  cases h with
  | inMemory => exact ⟨inMemoryPayloadStorage.view hash⟩
  | file dir files => exact ⟨filePayloadStorage.view hash dir files⟩

/-- After any run of `Store`s the references resolve to the payloads that were stored, in the
storage that returned them and in the other one, just if no two bodies that differ have the same
hash and size. -/
theorem PayloadStorage.resolves_iff_noCollision (hash : List UInt8 → UInt64)
    (issuer storage : PayloadStorage) (hissuer : Bundled hash issuer)
    (hstorage : Bundled hash storage) (stored : List Payload)
    (hfree : ∀ p ∈ stored, find? p.metadata kRemoteRefKey = none) :
    issuer.Resolves storage stored ↔ ∀ p ∈ stored, ∀ q ∈ stored, hash p.data = hash q.data →
      p.data.length = q.data.length → p.data = q.data := by
  obtain ⟨issued⟩ := hissuer.nonempty_view
  obtain ⟨view⟩ := hstorage.nonempty_view
  simp only [issued.resolves_iff view stored hfree, payloadStorageKey_eq_iff, and_imp]

theorem PayloadStorage.resolves_iff_noCollision_sizes :
    (inMemoryPayloadStorage fun data => data.length.toUInt64).Resolves
      (filePayloadStorage (fun data => data.length.toUInt64) "/var/blobs" fun _ => none)
      [⟨[("encoding", "json/plain")], [49]⟩, ⟨[], [50, 51]⟩] :=
  (resolves_iff_noCollision _ _ _ .inMemory (.file _ _) _ (by decide)).mpr (by decide)

/-- Under a hash that collides, the second body replaces the first, whose reference then resolves to
the wrong body. -/
theorem inMemoryPayloadStorage_overwrites :
    let storage := inMemoryPayloadStorage fun _ => 0
    let stored : List Payload := [⟨[], [1]⟩, ⟨[], [2]⟩]
    storage.resolve (storage.storeAll stored storage.init).2 (reference "0-1" ⟨[], [1]⟩) =
        .ok ⟨[], [2]⟩ ∧ ¬ storage.Resolves storage stored := by
  intro storage stored
  have hwrong : storage.resolve (storage.storeAll stored storage.init).2
      (reference "0-1" ⟨[], [1]⟩) = .ok ⟨[], [2]⟩ := by rfl
  refine ⟨hwrong, ?_⟩
  intro h
  obtain ⟨⟨ref, href, hres⟩, -⟩ := List.forall₂_cons.mp h
  obtain rfl := Except.ok.inj href
  have hbodies := congrArg Payload.data (Except.ok.inj (hwrong.symm.trans hres))
  exact absurd hbodies (by decide)

/-- Every hash collides on some two bodies of nine bytes. -/
theorem exists_collision (hash : List UInt8 → UInt64) :
    ∃ a b, a ≠ b ∧ a.length = b.length ∧ hash a = hash b := by
  let body (x : Fin 9 → Fin 256) : List UInt8 := List.ofFn fun i => UInt8.ofFin (x i)
  obtain ⟨x, y, hne, h⟩ := Fintype.exists_ne_map_eq_of_card_lt
    (fun x => (hash (body x)).toFin) (by simp [UInt64.size])
  refine ⟨body x, body y, ?_, by simp [body], UInt64.toFin_inj.mp h⟩
  intro heq
  apply hne
  funext i
  exact congrArg UInt8.toFin (congrFun (List.ofFn_inj.mp heq) i)

/-- So each storage loses a payload in some run. -/
theorem PayloadStorage.Bundled.exists_not_resolves {issuer storage : PayloadStorage}
    (hissuer : Bundled hash issuer) (hstorage : Bundled hash storage) :
    ∃ stored, (∀ p ∈ stored, find? p.metadata kRemoteRefKey = none) ∧
      ¬ issuer.Resolves storage stored := by
  obtain ⟨a, b, hne, hlen, hhash⟩ := exists_collision hash
  obtain ⟨issued⟩ := hissuer.nonempty_view
  obtain ⟨view⟩ := hstorage.nonempty_view
  have hfree : ∀ p ∈ ([⟨[], a⟩, ⟨[], b⟩] : List Payload),
      find? p.metadata kRemoteRefKey = none := by
    simp [find?]
  refine ⟨_, hfree, ?_⟩
  intro h
  apply hne
  have hkeys := (issued.resolves_iff view _ hfree).mp h
  exact hkeys ⟨[], a⟩ (by simp) ⟨[], b⟩ (by simp) (payloadStorageKey_eq_iff.mpr ⟨hhash, hlen⟩)

end

end TemporalSdk
