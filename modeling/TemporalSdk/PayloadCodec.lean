import Mathlib.Data.List.TakeWhile
import TemporalSdk.Payload
import TemporalSdk.Base64
import TemporalSdk.Lib.OrderedMap

/-!
The bundled payload codecs and the chain a data converter runs them in. Every codec marks its
payloads under the same metadata key, so of a chain only the last marker survives and decoding
undoes the last layer alone.
-/
namespace TemporalSdk
open OrderedMap

/-- zlib as the gzip codec calls it: a return code and the bytes written. `uncompress` is given
the size of the buffer. -/
structure Zlib where
  compress2 : List UInt8 → ℤ × List UInt8
  uncompress : List UInt8 → ℕ → ℤ × List UInt8

namespace Zlib

/-- `Z_OK`. -/
def zOk : ℤ := 0

/-- What is compressed is restored into a buffer of the original size, and a zlib stream is never
empty: it opens with a two-byte header. -/
structure RoundTrips (z : Zlib) : Prop where
  compress2_ok : ∀ x, (z.compress2 x).1 = zOk
  uncompress_compress2 : ∀ x, z.uncompress (z.compress2 x).2 x.length = (zOk, x)
  compress2_ne_nil : ∀ x, (z.compress2 x).2 ≠ []

end Zlib

/-- `kCodecKey`. -/
def kCodecKey : String := "codec"

/-- `kGzipCodecValue`. -/
def kGzipCodecValue : String := "gzip"

/-- `kGzipLenKey`. -/
def kGzipLenKey : String := "codec-gzip-len"

/-- The white space `std::stoull` skips. -/
def isSpace (c : Char) : Bool :=
  c = ' ' || (9 ≤ c.toNat && c.toNat ≤ 13)

/-- The optional sign: whether it is a minus, and what follows it. -/
def splitSign : List Char → Bool × List Char
  | '-' :: rest => (true, rest)
  | '+' :: rest => (false, rest)
  | cs => (false, cs)

/-- `std::stoull`: white space, a sign, the longest run of digits; `none` where it throws. -/
def stoull (s : String) : Option ℕ :=
  let (negative, cs) := splitSign (s.toList.dropWhile isSpace)
  let digits := cs.takeWhile Char.isDigit
  let n := Nat.ofDigitChars 10 digits 0
  if digits = [] ∨ 2 ^ 64 ≤ n then none
  else some (if negative then (2 ^ 64 - n) % 2 ^ 64 else n)

def gzipCompress (z : Zlib) (data : List UInt8) : Except String (List UInt8) :=
  let (rc, out) := z.compress2 data
  if rc ≠ Zlib.zOk then
    .error ("gzip codec: compression failed (zlib code " ++ toString rc ++ ")")
  else .ok out

def gzipDecompress (z : Zlib) (data : List UInt8) (originalLen : ℕ) :
    Except String (List UInt8) :=
  let (rc, out) := z.uncompress data originalLen
  if rc ≠ Zlib.zOk then
    .error ("gzip codec: decompression failed (zlib code " ++ toString rc ++ ")")
  else .ok out

/-- The bundled codecs: `Base64PayloadCodec` and `GzipPayloadCodec`. -/
inductive PayloadCodec where
  | base64 | gzip
  deriving DecidableEq, Repr

namespace PayloadCodec

/-- `Encode`. -/
def encode (z : Zlib) (codec : PayloadCodec) (payload : Payload) : Except String Payload :=
  match codec with
  | .base64 => .ok
      { metadata := assign payload.metadata kCodecKey "base64"
        data := Base64.base64Encode payload.data }
  | .gzip => do
    let metadata := assign payload.metadata kGzipLenKey (toString payload.data.length)
    let data ← gzipCompress z payload.data
    return { metadata := assign metadata kCodecKey kGzipCodecValue, data }

/-- `Decode`: a payload without this codec's marker passes through. -/
def decode (z : Zlib) (codec : PayloadCodec) (payload : Payload) : Except String Payload :=
  match codec with
  | .base64 =>
    if find? payload.metadata kCodecKey ≠ some "base64" then .ok payload
    else .ok
      { metadata := erase payload.metadata kCodecKey
        data := Base64.base64Decode payload.data }
  | .gzip =>
    if find? payload.metadata kCodecKey ≠ some kGzipCodecValue then .ok payload
    else match find? payload.metadata kGzipLenKey with
      | none => .error "gzip codec: payload missing original-length marker"
      | some text => match stoull text with
        | none => .error ("gzip codec: invalid original-length marker: " ++ text)
        | some originalLen => do
          let data ← gzipDecompress z payload.data originalLen
          return { metadata := erase (erase payload.metadata kCodecKey) kGzipLenKey, data }

end PayloadCodec

/-- `DataConverter::ApplyCodecsEncode` of a converter made by `WithCodecs`. -/
def applyCodecsEncode (z : Zlib) (codecs : List PayloadCodec) (payload : Payload) :
    Except String Payload :=
  codecs.foldlM (fun p codec => codec.encode z p) payload

/-- `DataConverter::ApplyCodecsDecode`: the codecs from the last to the first. -/
def applyCodecsDecode (z : Zlib) (codecs : List PayloadCodec) (payload : Payload) :
    Except String Payload :=
  codecs.reverse.foldlM (fun p codec => codec.decode z p) payload

/-- Encode through the chain, then decode through it. -/
def throughCodecs (z : Zlib) (codecs : List PayloadCodec) (payload : Payload) :
    Except String Payload :=
  applyCodecsEncode z codecs payload >>= applyCodecsDecode z codecs

/-- The metadata holds none of the codecs' own keys. -/
def Payload.Unmarked (p : Payload) : Prop :=
  find? p.metadata kCodecKey = none ∧ find? p.metadata kGzipLenKey = none

instance (p : Payload) : Decidable p.Unmarked :=
  inferInstanceAs (Decidable (_ ∧ _))

theorem not_isSpace_of_isDigit {c : Char} (h : c.isDigit = true) : isSpace c = false := by
  have hc : 48 ≤ c.toNat := by
    simp only [Char.isDigit, Bool.and_eq_true, decide_eq_true_eq] at h
    exact h.1
  have hne : c ≠ ' ' := by
    rintro rfl
    simp at hc
  have hle : ¬ c.toNat ≤ 13 := by omega
  simp [isSpace, hne, hle]

theorem splitSign_of_isDigit {c : Char} (h : c.isDigit = true) (cs : List Char) :
    splitSign (c :: cs) = (false, c :: cs) := by
  unfold splitSign
  split
  next heq =>
    injection heq with hc
    rw [hc] at h
    exact absurd h (by decide)
  next heq =>
    injection heq with hc
    rw [hc] at h
    exact absurd h (by decide)
  next => rfl

/-- The size the gzip codec writes down is read back, unless no `size_t` holds it. -/
theorem stoull_toString (n : ℕ) :
    stoull (toString n) = if 2 ^ 64 ≤ n then none else some n := by
  have hlist : (toString n).toList = Nat.toDigits 10 n := Nat.toList_repr
  have hvalue : Nat.ofDigitChars 10 (Nat.toDigits 10 n) 0 = n := Nat.ofDigitChars_ten_toDigits
  obtain ⟨c, cs, hcs⟩ := List.exists_cons_of_ne_nil (Nat.toDigits_ne_nil (n := n) (b := 10))
  have hdigit : ∀ d ∈ c :: cs, d.isDigit = true := fun d hd =>
    Nat.isDigit_of_mem_toDigits (by omega) (by omega) (hcs ▸ hd)
  have hc := hdigit c List.mem_cons_self
  have htake : (c :: cs).takeWhile Char.isDigit = c :: cs :=
    List.takeWhile_eq_self_iff.mpr hdigit
  rw [hcs] at hvalue
  unfold stoull
  rw [hlist, hcs,
    List.dropWhile_cons_of_neg (by rw [not_isSpace_of_isDigit hc]; exact Bool.false_ne_true),
    splitSign_of_isDigit hc]
  simp only [htake, hvalue, reduceCtorEq, false_or]
  rfl

namespace PayloadCodec

/-- What a codec does to the bytes. -/
def encodeData (z : Zlib) : PayloadCodec → List UInt8 → List UInt8
  | .base64, data => Base64.base64Encode data
  | .gzip, data => (z.compress2 data).2

/-- What a codec does to the metadata of a payload with these bytes. -/
def mark (data : List UInt8) (metadata : List (String × String)) :
    PayloadCodec → List (String × String)
  | .base64 => assign metadata kCodecKey "base64"
  | .gzip => assign (assign metadata kGzipLenKey (toString data.length)) kCodecKey kGzipCodecValue

/-- What a codec takes off again. -/
def unmark (metadata : List (String × String)) : PayloadCodec → List (String × String)
  | .base64 => erase metadata kCodecKey
  | .gzip => erase (erase metadata kCodecKey) kGzipLenKey

/-- `Encode` where zlib does not fail. -/
def encoded (z : Zlib) (codec : PayloadCodec) (p : Payload) : Payload :=
  { metadata := codec.mark p.data p.metadata, data := codec.encodeData z p.data }

theorem encode_eq {z : Zlib} (hz : z.RoundTrips) (codec : PayloadCodec) (p : Payload) :
    codec.encode z p = .ok (codec.encoded z p) := by
  cases codec with
  | base64 => rfl
  | gzip =>
    have hrc : ¬ (z.compress2 p.data).1 ≠ Zlib.zOk := not_not_intro (hz.compress2_ok p.data)
    simp only [encode, gzipCompress, if_neg hrc]
    rfl

theorem decode_unmarked (z : Zlib) (codec : PayloadCodec) {p : Payload}
    (h : find? p.metadata kCodecKey = none) : codec.decode z p = .ok p := by
  cases codec with
  | base64 => simp only [decode, h, ne_eq, reduceCtorEq, not_false_eq_true, ↓reduceIte]
  | gzip => simp only [decode, h, ne_eq, reduceCtorEq, not_false_eq_true, ↓reduceIte]

theorem unmark_mark (codec : PayloadCodec) (data : List UInt8)
    (metadata : List (String × String)) :
    codec.unmark (codec.mark data metadata) = codec.unmark metadata := by
  cases codec with
  | base64 => exact erase_assign _ _ _
  | gzip =>
    simp only [unmark, mark]
    rw [erase_assign, erase_comm, erase_assign, erase_comm]

/-- A codec undoes its own layer and takes the markers below it off with its own; the gzip codec
refuses a size that no `size_t` holds. -/
theorem decode_encoded {z : Zlib} (hz : z.RoundTrips) (codec : PayloadCodec) (p q : Payload) :
    codec.decode z (codec.encoded z p) = .ok q ↔
      (codec = .gzip → p.data.length < 2 ^ 64) ∧
        q = { metadata := codec.unmark p.metadata, data := p.data } := by
  have hmarks := unmark_mark codec p.data p.metadata
  cases codec with
  | base64 =>
    have hfind : find? (mark p.data p.metadata .base64) kCodecKey = some "base64" :=
      find?_assign_self _ _ _
    simp only [unmark] at hmarks
    simp only [decode, encoded, encodeData, hfind, ne_eq, not_true_eq_false, ↓reduceIte,
      Base64.base64Decode_base64Encode, hmarks, unmark]
    simp [eq_comm]
  | gzip =>
    have hfind : find? (mark p.data p.metadata .gzip) kCodecKey = some kGzipCodecValue :=
      find?_assign_self _ _ _
    have hlen : find? (mark p.data p.metadata .gzip) kGzipLenKey =
        some (toString p.data.length) := by
      rw [mark, find?_assign_of_ne _ (by decide), find?_assign_self]
    simp only [unmark] at hmarks
    simp only [decode, encoded, encodeData, hfind, hlen, stoull_toString, ne_eq,
      not_true_eq_false, ↓reduceIte, unmark]
    by_cases hsize : 2 ^ 64 ≤ p.data.length
    · simp only [if_pos hsize, reduceCtorEq, false_iff]
      exact fun h => absurd (h.1 trivial) (Nat.not_lt.mpr hsize)
    · have hlt := Nat.not_le.mp hsize
      simp only [if_neg hsize, gzipDecompress, hz.uncompress_compress2 p.data, ne_eq,
        not_true_eq_false, ↓reduceIte, hmarks, hlt, implies_true, true_and]
      exact ⟨fun h => (Except.ok.inj h).symm, fun h => congrArg Except.ok h.symm⟩

theorem find?_unmark (codec : PayloadCodec) (metadata : List (String × String)) :
    find? (codec.unmark metadata) kCodecKey = none := by
  cases codec with
  | base64 => exact find?_erase_self _ _
  | gzip => rw [unmark, find?_erase_of_ne _ (by decide), find?_erase_self]

/-- The payload under all the layers of a chain. -/
def layered (z : Zlib) (codecs : List PayloadCodec) (p : Payload) : Payload :=
  codecs.foldl (fun q codec => codec.encoded z q) p

/-- The bytes under all the layers of a chain. -/
def layeredData (z : Zlib) (codecs : List PayloadCodec) (data : List UInt8) : List UInt8 :=
  codecs.foldl (fun d codec => codec.encodeData z d) data

theorem data_layered (z : Zlib) (codecs : List PayloadCodec) (p : Payload) :
    (layered z codecs p).data = layeredData z codecs p.data := by
  induction codecs generalizing p with
  | nil => rfl
  | cons codec rest ih => exact ih (codec.encoded z p)

/-- Under any number of layers the payload's own metadata is what is left without the markers. -/
theorem unmark_gzip_layered (z : Zlib) (codecs : List PayloadCodec) (p : Payload) :
    gzip.unmark (layered z codecs p).metadata = gzip.unmark p.metadata := by
  induction codecs generalizing p with
  | nil => rfl
  | cons codec rest ih =>
    rw [layered, List.foldl_cons, ← layered, ih]
    cases codec with
    | base64 =>
      simp only [unmark, encoded, mark]
      rw [erase_assign]
    | gzip => exact unmark_mark .gzip p.data p.metadata

theorem unmark_base64_layered (z : Zlib) {codecs : List PayloadCodec} (p : Payload)
    (h : gzip ∉ codecs) : base64.unmark (layered z codecs p).metadata =
      base64.unmark p.metadata := by
  induction codecs generalizing p with
  | nil => rfl
  | cons codec rest ih =>
    have hcodec : gzip ≠ codec := List.ne_of_not_mem_cons h
    have hrest : gzip ∉ rest := List.not_mem_of_not_mem_cons h
    rw [layered, List.foldl_cons, ← layered, ih _ hrest]
    cases codec with
    | base64 => exact unmark_mark .base64 p.data p.metadata
    | gzip => exact absurd rfl hcodec

/-- A size marker, once written, is only taken off by a gzip codec. -/
theorem find?_len_layered (z : Zlib) {codecs : List PayloadCodec} (p : Payload)
    (h : gzip ∈ codecs ∨ find? p.metadata kGzipLenKey ≠ none) :
    find? (layered z codecs p).metadata kGzipLenKey ≠ none := by
  induction codecs generalizing p with
  | nil => exact h.resolve_left List.not_mem_nil
  | cons codec rest ih =>
    rw [layered, List.foldl_cons, ← layered]
    apply ih
    cases codec with
    | base64 =>
      refine h.imp (fun hmem => (List.mem_cons.mp hmem).resolve_left (by decide)) ?_
      intro hp
      rw [encoded, mark, find?_assign_of_ne _ (by decide)]
      exact hp
    | gzip =>
      right
      rw [encoded, mark, find?_assign_of_ne _ (by decide), find?_assign_self]
      exact Option.some_ne_none _

/-- What the last codec leaves of the metadata is the payload's own, unless a gzip layer below it
left its size marker. -/
theorem unmark_layered (z : Zlib) (codecs : List PayloadCodec) (last : PayloadCodec)
    {p : Payload} (hp : p.Unmarked) :
    last.unmark (layered z codecs p).metadata = p.metadata ↔ (gzip ∈ codecs → last = .gzip) := by
  cases last with
  | gzip =>
    rw [unmark_gzip_layered, unmark, erase_of_find?_none hp.1, erase_of_find?_none hp.2]
    simp
  | base64 =>
    by_cases hmem : gzip ∈ codecs
    · refine ⟨fun heq => ?_, fun himp => absurd (himp hmem) (by decide)⟩
      have hlen := find?_len_layered z p (.inl hmem)
      rw [← find?_erase_of_ne _ (show kGzipLenKey ≠ kCodecKey by decide)] at hlen
      rw [unmark] at heq
      rw [heq] at hlen
      exact absurd hp.2 hlen
    · rw [unmark_base64_layered z p hmem, unmark, erase_of_find?_none hp.1]
      exact ⟨fun _ h => absurd h hmem, fun _ => rfl⟩

end PayloadCodec

section Chain

variable {z : Zlib} (hz : z.RoundTrips)

include hz in
theorem applyCodecsEncode_eq (codecs : List PayloadCodec) (p : Payload) :
    applyCodecsEncode z codecs p = .ok (PayloadCodec.layered z codecs p) := by
  induction codecs generalizing p with
  | nil => rfl
  | cons codec rest ih =>
    rw [applyCodecsEncode, List.foldlM_cons, PayloadCodec.encode_eq hz]
    exact ih (codec.encoded z p)

theorem foldlM_decode_unmarked (z : Zlib) (codecs : List PayloadCodec) {p : Payload}
    (h : find? p.metadata kCodecKey = none) :
    codecs.foldlM (fun q codec => codec.decode z q) p = .ok p := by
  induction codecs with
  | nil => rfl
  | cons codec rest ih =>
    rw [List.foldlM_cons, PayloadCodec.decode_unmarked z codec h]
    exact ih

include hz in
/-- Decoding a chain undoes its last layer and nothing else. -/
theorem throughCodecs_concat (codecs : List PayloadCodec) (last : PayloadCodec) (p q : Payload) :
    throughCodecs z (codecs ++ [last]) p = .ok q ↔
      (last = .gzip → (PayloadCodec.layeredData z codecs p.data).length < 2 ^ 64) ∧
        q = { metadata := last.unmark (PayloadCodec.layered z codecs p).metadata
              data := PayloadCodec.layeredData z codecs p.data } := by
  have hlast : PayloadCodec.layered z (codecs ++ [last]) p =
      last.encoded z (PayloadCodec.layered z codecs p) := by
    simp only [PayloadCodec.layered, List.foldl_append, List.foldl_cons, List.foldl_nil]
  rw [throughCodecs, applyCodecsEncode_eq hz, hlast, ← PayloadCodec.data_layered,
    ← PayloadCodec.decode_encoded hz]
  show applyCodecsDecode z (codecs ++ [last]) _ = _ ↔ _
  rw [applyCodecsDecode, List.reverse_concat, List.foldlM_cons]
  cases hdecode : last.decode z (last.encoded z (PayloadCodec.layered z codecs p)) with
  | error e => exact Iff.rfl
  | ok r =>
    have hr := ((PayloadCodec.decode_encoded hz last _ r).mp hdecode).2
    have hfind : find? r.metadata kCodecKey = none := by
      rw [hr]
      exact PayloadCodec.find?_unmark last _
    show codecs.reverse.foldlM _ r = _ ↔ _
    rw [foldlM_decode_unmarked z _ hfind]

/-- Base 64 lengthens every string but the empty one. -/
theorem length_layeredData (z : Zlib) {codecs : List PayloadCodec} {data : List UInt8}
    (h : PayloadCodec.gzip ∉ codecs) (hdata : 0 < data.length) :
    data.length + codecs.length ≤ (PayloadCodec.layeredData z codecs data).length := by
  induction codecs generalizing data with
  | nil => exact Nat.le_refl _
  | cons codec rest ih =>
    have hcodec : PayloadCodec.gzip ≠ codec := List.ne_of_not_mem_cons h
    have hrest : PayloadCodec.gzip ∉ rest := List.not_mem_of_not_mem_cons h
    cases codec with
    | gzip => exact absurd rfl hcodec
    | base64 =>
      have hlonger : data.length < (Base64.base64Encode data).length := by
        rw [Base64.base64Encode_eq_rfc4648, Base64.length_rfc4648]
        omega
      have hlayers := ih hrest (Nat.lt_of_le_of_lt (Nat.zero_le _) hlonger)
      rw [List.length_cons]
      exact Nat.le_trans (by omega) hlayers

include hz in
/-- Neither codec makes a string empty, and the gzip codec makes every string non-empty. -/
theorem layeredData_ne_nil {codecs : List PayloadCodec} {data : List UInt8}
    (h : 0 < data.length ∨ PayloadCodec.gzip ∈ codecs) :
    PayloadCodec.layeredData z codecs data ≠ [] := by
  induction codecs generalizing data with
  | nil => exact List.length_pos_iff.mp (h.resolve_right List.not_mem_nil)
  | cons codec rest ih =>
    rw [PayloadCodec.layeredData, List.foldl_cons, ← PayloadCodec.layeredData]
    apply ih
    cases codec with
    | base64 =>
      refine h.imp (fun hdata => ?_) (fun hmem => (List.mem_cons.mp hmem).resolve_left (by decide))
      rw [PayloadCodec.encodeData, Base64.base64Encode_eq_rfc4648, Base64.length_rfc4648]
      omega
    | gzip => exact .inl (List.length_pos_iff.mpr (hz.compress2_ne_nil data))

include hz in
/-- Every chain with a layer changes the bytes of some short payload. -/
theorem exists_layeredData_ne {codecs : List PayloadCodec} (h : codecs ≠ []) :
    ∃ data : List UInt8, data.length ≤ 1 ∧ PayloadCodec.layeredData z codecs data ≠ data := by
  by_cases hmem : PayloadCodec.gzip ∈ codecs
  · exact ⟨[], Nat.zero_le _, layeredData_ne_nil hz (.inr hmem)⟩
  · refine ⟨[0], Nat.le_refl _, fun heq => ?_⟩
    have hlen := length_layeredData z hmem (List.length_pos_iff.mpr (List.cons_ne_nil 0 []))
    have hpos := List.length_pos_iff.mpr h
    rw [heq] at hlen
    omega

include hz in
theorem throughCodecs_iff (codecs : List PayloadCodec) {p : Payload} (hp : p.Unmarked)
    (hsize : p.data.length < 2 ^ 64) :
    throughCodecs z codecs p = .ok p ↔ codecs.length ≤ 1 ∨
      (PayloadCodec.layeredData z codecs.dropLast p.data = p.data ∧
        (PayloadCodec.gzip ∈ codecs.dropLast → codecs.getLast? = some .gzip)) := by
  induction codecs using List.reverseRecOn with
  | nil => exact iff_of_true rfl (.inl (Nat.zero_le _))
  | append_singleton rest last =>
    rw [throughCodecs_concat hz, List.dropLast_concat, List.getLast?_concat, Option.some_inj,
      ← PayloadCodec.unmark_layered z rest last hp]
    constructor
    · rintro ⟨-, heq⟩
      right
      exact ⟨(congrArg Payload.data heq).symm, (congrArg Payload.metadata heq).symm⟩
    · intro h
      have hboth : PayloadCodec.layeredData z rest p.data = p.data ∧
          last.unmark (PayloadCodec.layered z rest p).metadata = p.metadata := by
        rcases h with hshort | hboth
        · have hrest : rest = [] := List.eq_nil_of_length_eq_zero (by simpa using hshort)
          rw [hrest]
          exact ⟨rfl, (PayloadCodec.unmark_layered z [] last hp).mpr (by simp)⟩
        · exact hboth
      rw [hboth.1, hboth.2]
      exact ⟨fun _ => hsize, rfl⟩

/-- A chain inverts on a payload exactly if its codecs but the last leave the bytes as they are
and no gzip layer is hidden below a last base 64 one; it inverts on every payload exactly if it
has at most one codec. -/
theorem codecs_invert_iff {z : Zlib} (hz : z.RoundTrips) (codecs : List PayloadCodec) :
    (∀ p : Payload, p.Unmarked → p.data.length < 2 ^ 64 →
      (throughCodecs z codecs p = .ok p ↔ codecs.length ≤ 1 ∨
        (PayloadCodec.layeredData z codecs.dropLast p.data = p.data ∧
          (PayloadCodec.gzip ∈ codecs.dropLast → codecs.getLast? = some .gzip)))) ∧
    ((∀ p : Payload, p.Unmarked → p.data.length < 2 ^ 64 → throughCodecs z codecs p = .ok p) ↔
      codecs.length ≤ 1) := by
  refine ⟨fun p hp hsize => throughCodecs_iff hz codecs hp hsize, ?_, ?_⟩
  · intro hall
    by_contra hlong
    have hlayers : codecs.dropLast ≠ [] := by
      rw [← List.length_pos_iff, List.length_dropLast]
      omega
    obtain ⟨data, hdata, hne⟩ := exists_layeredData_ne hz hlayers
    have hunmarked : ({ data := data } : Payload).Unmarked := ⟨rfl, rfl⟩
    have hsize : data.length < 2 ^ 64 := by omega
    rcases (throughCodecs_iff hz codecs hunmarked hsize).mp (hall _ hunmarked hsize) with h | h
    · exact hlong h
    · exact hne h.1
  · intro hshort p hp hsize
    exact (throughCodecs_iff hz codecs hp hsize).mpr (.inl hshort)

/-- A stand-in for zlib that agrees with it on the empty string. -/
def Zlib.framed : Zlib where
  compress2
    | [] => (zOk, [0x78, 0xda, 3, 0, 0, 0, 0, 1])
    | data => (zOk, 0x78 :: 0xda :: 0 :: data)
  uncompress
    | 0x78 :: 0xda :: 0 :: data, _ => (zOk, data)
    | [0x78, 0xda, 3, 0, 0, 0, 0, 1], _ => (zOk, [])
    | _, _ => (-3, [])

theorem Zlib.framed_roundTrips : Zlib.framed.RoundTrips where
  compress2_ok x := by cases x <;> rfl
  uncompress_compress2 x := by cases x <;> rfl
  compress2_ne_nil x := by cases x <;> simp [framed]

/-- One gzip codec gives a JSON text back with its metadata. -/
theorem gzip_alone_inverts :
    throughCodecs Zlib.framed [.gzip]
        { metadata := [("encoding", "json/plain")], data := [34, 104, 105, 34] } =
      .ok { metadata := [("encoding", "json/plain")], data := [34, 104, 105, 34] } :=
  (codecs_invert_iff Zlib.framed_roundTrips [.gzip]).2.mpr (by decide) _ (by decide) (by decide)

/-- Two base 64 codecs turn the text `hi` into `aGk=`: only the outer layer is taken off. -/
theorem base64_twice_does_not_invert :
    Zlib.framed.RoundTrips ∧
      throughCodecs Zlib.framed [.base64, .base64] { data := [104, 105] } =
        .ok { data := [97, 71, 107, 61] } ∧
      throughCodecs Zlib.framed [.base64, .base64] { data := [104, 105] } ≠
        .ok { data := [104, 105] } := by
  have hdata : PayloadCodec.layeredData Zlib.framed [.base64] [104, 105] = [97, 71, 107, 61] := by
    show Base64.base64Encode [104, 105] = _
    rw [Base64.base64Encode_eq_rfc4648]
    decide
  have hout : throughCodecs Zlib.framed ([.base64] ++ [.base64]) { data := [104, 105] } =
      .ok { data := [97, 71, 107, 61] } := by
    rw [throughCodecs_concat Zlib.framed_roundTrips, hdata]
    exact ⟨by decide, rfl⟩
  refine ⟨Zlib.framed_roundTrips, hout, ?_⟩
  rw [show ([.base64, .base64] : List PayloadCodec) = [.base64] ++ [.base64] from rfl, hout]
  decide

end Chain

end TemporalSdk
