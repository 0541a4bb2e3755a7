import TemporalSdk.PayloadCodec

/-!
The stack of a data converter: payload converters, tried in their order to encode a value and chosen
by the encoding to decode it, under a chain of codecs.
-/
namespace TemporalSdk
open OrderedMap

/-- What a conversion throws: a `DataConverterError`, or what a converter or codec lets through. -/
inductive ConversionError where
  | dataConverterError (message : String)
  | other (what : String)
  deriving DecidableEq, Repr

/-- `PayloadConverter`, for JSON values `J`: no payload is `std::nullopt`, no value is `false`. -/
structure PayloadConverter (J : Type) where
  encoding : String
  toPayload : J → Except ConversionError (Option Payload)
  fromPayload : Payload → Except ConversionError (Option J)

/-- The methods of a `PayloadCodec` object. -/
structure CodecObject where
  encode : Payload → Except ConversionError Payload
  decode : Payload → Except ConversionError Payload

/-- The data of a `DataConverter` behind `ToPayload<json>` and `FromPayload<json>`. -/
structure ConverterStack (J : Type) where
  converters : List (PayloadConverter J)
  codecs : List CodecObject

/-- `metadata_keys::kEncoding`. -/
def kEncoding : String := "encoding"

/-- The encoding a payload names; the empty text if it names none. -/
def Payload.encoding (p : Payload) : String := (find? p.metadata kEncoding).getD ""

variable {J : Type}

/-- `ToPayloadJson`: the first converter that accepts the value encodes it. -/
def toPayloadJson : List (PayloadConverter J) → J → Except ConversionError Payload
  | [], _ => .error (.dataConverterError "no payload converter could encode the value")
  | c :: rest, value => do
    match ← c.toPayload value with
    | some p => return p
    | none => toPayloadJson rest value

/-- The loop of `FromPayloadJson`: a converter is asked if it owns `enc`. -/
def decodeAs (enc : String) : List (PayloadConverter J) → Payload → Except ConversionError J
  | [], _ => .error (.dataConverterError ("no payload converter for encoding: " ++ enc))
  | c :: rest, payload =>
    if c.encoding = enc then do
      match ← c.fromPayload payload with
      | some value => return value
      | none => decodeAs enc rest payload
    else decodeAs enc rest payload

def fromPayloadJson (converters : List (PayloadConverter J)) (payload : Payload) :
    Except ConversionError J :=
  decodeAs payload.encoding converters payload

namespace ConverterStack

/-- `ApplyCodecsEncode`. -/
def applyCodecsEncode (codecs : List CodecObject) (payload : Payload) :
    Except ConversionError Payload :=
  codecs.foldlM (fun p codec => codec.encode p) payload

/-- `ApplyCodecsDecode`: the codecs from the last to the first. -/
def applyCodecsDecode (codecs : List CodecObject) (payload : Payload) :
    Except ConversionError Payload :=
  codecs.reverse.foldlM (fun p codec => codec.decode p) payload

/-- `ToPayload<json>`. -/
def toPayload (stack : ConverterStack J) (value : J) : Except ConversionError Payload := do
  let p ← toPayloadJson stack.converters value
  applyCodecsEncode stack.codecs p

/-- `FromPayload<json>`. -/
def fromPayload (stack : ConverterStack J) (payload : Payload) : Except ConversionError J := do
  let decoded ← applyCodecsDecode stack.codecs payload
  fromPayloadJson stack.converters decoded

end ConverterStack

namespace PayloadConverter

def Accepts (c : PayloadConverter J) (value : J) : Prop :=
  ∃ p, c.toPayload value = .ok (some p)

/-- What the interface asks of a converter: it returns a payload or nothing, stamps its own encoding
on what it encodes, and decodes what it encoded. -/
structure Lawful (c : PayloadConverter J) : Prop where
  returns : ∀ value, ∃ result, c.toPayload value = .ok result
  stamps : ∀ value p, c.toPayload value = .ok (some p) →
    find? p.metadata kEncoding = some c.encoding
  decodes : ∀ value p, c.toPayload value = .ok (some p) → c.fromPayload p = .ok (some value)

end PayloadConverter

/-- `c` is the first of the converters to accept the value, which it encodes as `p`. -/
def FirstAccepts (converters : List (PayloadConverter J)) (value : J) (c : PayloadConverter J)
    (p : Payload) : Prop :=
  ∃ before after, converters = before ++ c :: after ∧
    (∀ b ∈ before, b.toPayload value = .ok none) ∧ c.toPayload value = .ok (some p)

/-- `ApplyCodecsDecode` inverts `ApplyCodecsEncode`. -/
def CodecsInvert (codecs : List CodecObject) : Prop :=
  ∀ p, (ConverterStack.applyCodecsEncode codecs p >>= ConverterStack.applyCodecsDecode codecs) =
    .ok p

section

variable {converters before after : List (PayloadConverter J)} {c : PayloadConverter J} {value : J}
  {p : Payload}

theorem FirstAccepts.mem (h : FirstAccepts converters value c p) : c ∈ converters := by
  obtain ⟨before, after, rfl, -⟩ := h
  simp

theorem FirstAccepts.head (h : c.toPayload value = .ok (some p)) :
    FirstAccepts (c :: after) value c p :=
  ⟨[], after, rfl, fun _ hb => absurd hb List.not_mem_nil, h⟩

theorem FirstAccepts.tail {b : PayloadConverter J} (hb : b.toPayload value = .ok none)
    (h : FirstAccepts converters value c p) : FirstAccepts (b :: converters) value c p := by
  obtain ⟨before, after, rfl, hbefore, hc⟩ := h
  exact ⟨b :: before, after, rfl, List.forall_mem_cons.mpr ⟨hb, hbefore⟩, hc⟩

/-- If a converter accepts the value, there is a first one that does. -/
theorem exists_firstAccepts (hret : ∀ b ∈ converters, ∃ result, b.toPayload value = .ok result)
    (h : ∃ c ∈ converters, c.Accepts value) : ∃ c p, FirstAccepts converters value c p := by
  induction converters with
  | nil => simp at h
  | cons b rest ih =>
    obtain ⟨⟨result, hb⟩, hrest⟩ := List.forall_mem_cons.mp hret
    cases result with
    | some p => exact ⟨b, p, .head hb⟩
    | none =>
      have hacc : ∃ c ∈ rest, c.Accepts value := by
        obtain ⟨c, hc, p, hp⟩ := h
        obtain rfl | hc := List.mem_cons.mp hc
        · simp [hb] at hp
        · exact ⟨c, hc, p, hp⟩
      obtain ⟨c, p, hfirst⟩ := ih hrest hacc
      exact ⟨c, p, hfirst.tail hb⟩

theorem FirstAccepts.toPayloadJson_eq (h : FirstAccepts converters value c p) :
    toPayloadJson converters value = .ok p := by
  obtain ⟨before, after, rfl, hbefore, hc⟩ := h
  induction before with
  | nil => rw [List.nil_append, toPayloadJson, hc]; rfl
  | cons b rest ih =>
    obtain ⟨hb, hrest⟩ := List.forall_mem_cons.mp hbefore
    rw [List.cons_append, toPayloadJson, hb]
    exact ih hrest

theorem toPayloadJson_of_none (h : ∀ b ∈ converters, b.toPayload value = .ok none) :
    toPayloadJson converters value =
      .error (.dataConverterError "no payload converter could encode the value") := by
  induction converters with
  | nil => rfl
  | cons b rest ih =>
    obtain ⟨hb, hrest⟩ := List.forall_mem_cons.mp h
    rw [toPayloadJson, hb]
    exact ih hrest

/-- Converters of other encodings are not asked. -/
theorem decodeAs_append {enc : String} (h : ∀ b ∈ before, b.encoding ≠ enc) (p : Payload) :
    decodeAs enc (before ++ converters) p = decodeAs enc converters p := by
  induction before with
  | nil => rfl
  | cons b rest ih =>
    obtain ⟨hb, hrest⟩ := List.forall_mem_cons.mp h
    rw [List.cons_append, decodeAs, if_neg hb, ih hrest]

/-- Wherever the owner of an encoding stands, it decodes. -/
theorem fromPayloadJson_of_mem (hdistinct : (converters.map PayloadConverter.encoding).Nodup)
    (hc : c ∈ converters) (henc : find? p.metadata kEncoding = some c.encoding)
    (hdec : c.fromPayload p = .ok (some value)) : fromPayloadJson converters p = .ok value := by
  obtain ⟨before, after, rfl⟩ := List.append_of_mem hc
  have hbefore : ∀ b ∈ before, b.encoding ≠ c.encoding := by
    intro b hb heq
    rw [List.map_append, List.nodup_append'] at hdistinct
    exact hdistinct.2.2 (List.mem_map_of_mem hb) (by simp [heq])
  have hname : p.encoding = c.encoding := by rw [Payload.encoding, henc, Option.getD_some]
  rw [fromPayloadJson, hname, decodeAs_append hbefore, decodeAs, if_pos rfl, hdec]
  rfl

theorem fromPayloadJson_of_unowned (h : ∀ b ∈ converters, b.encoding ≠ p.encoding) :
    fromPayloadJson converters p =
      .error (.dataConverterError ("no payload converter for encoding: " ++ p.encoding)) := by
  rw [fromPayloadJson, ← List.append_nil converters, decodeAs_append h]
  rfl

/-- What the first converter to accept encoded is decoded in any stack with the same codecs that has
this converter in some position. -/
theorem FirstAccepts.fromPayload_toPayload {codecs : List CodecObject}
    {others : List (PayloadConverter J)} (h : FirstAccepts converters value c p)
    (hstamp : find? p.metadata kEncoding = some c.encoding)
    (hdec : c.fromPayload p = .ok (some value)) (hcodecs : CodecsInvert codecs) (hc : c ∈ others)
    (hdistinct : (others.map PayloadConverter.encoding).Nodup) :
    (ConverterStack.toPayload ⟨converters, codecs⟩ value >>=
      ConverterStack.fromPayload ⟨others, codecs⟩) = .ok value := by
  have hinv := hcodecs p
  have hjson := fromPayloadJson_of_mem hdistinct hc hstamp hdec
  rw [ConverterStack.toPayload, h.toPayloadJson_eq]
  show (ConverterStack.applyCodecsEncode codecs p >>=
    ConverterStack.fromPayload ⟨others, codecs⟩) = _
  cases henc : ConverterStack.applyCodecsEncode codecs p with
  | error e => rw [henc] at hinv; cases hinv
  | ok q =>
    rw [henc] at hinv
    have hq : ConverterStack.applyCodecsDecode codecs q = .ok p := hinv
    show ConverterStack.fromPayload ⟨others, codecs⟩ q = _
    rw [ConverterStack.fromPayload, hq]
    exact hjson

/-- `NilPayloadConverter`. -/
def nilPayloadConverter (null : J) (isNull : J → Bool) : PayloadConverter J where
  encoding := "binary/null"
  toPayload value :=
    .ok (if isNull value then some { metadata := [(kEncoding, "binary/null")] } else none)
  fromPayload _ := .ok (some null)

/-- `BytesPayloadConverter`. -/
def bytesPayloadConverter (binary : List UInt8 → J) (getBinary? : J → Option (List UInt8)) :
    PayloadConverter J where
  encoding := "binary/plain"
  toPayload value := .ok ((getBinary? value).map fun bin =>
    { metadata := [(kEncoding, "binary/plain")], data := bin })
  fromPayload p := .ok (some (binary p.data))

/-- `JsonPayloadConverter`: it accepts every value, and lets through what `dump` and `parse`
throw. -/
def jsonPayloadConverter (dump : J → Except String (List UInt8))
    (parse : List UInt8 → Except String J) : PayloadConverter J where
  encoding := "json/plain"
  toPayload value :=
    match dump value with
    | .error what => .error (.other what)
    | .ok text => .ok (some { metadata := [(kEncoding, "json/plain")], data := text })
  fromPayload p :=
    match parse p.data with
    | .error what => .error (.other what)
    | .ok value => .ok (some value)

theorem nilPayloadConverter_lawful {null : J} {isNull : J → Bool}
    (hnull : ∀ value, isNull value = true → value = null) :
    (nilPayloadConverter null isNull).Lawful where
  returns _ := ⟨_, rfl⟩
  stamps value p h := by
    simp only [nilPayloadConverter, Except.ok.injEq, Option.ite_none_right_eq_some,
      Option.some.injEq] at h
    obtain ⟨-, rfl⟩ := h
    rfl
  decodes value p h := by
    simp only [nilPayloadConverter, Except.ok.injEq, Option.ite_none_right_eq_some] at h
    rw [hnull value h.1]
    rfl

theorem bytesPayloadConverter_lawful {binary : List UInt8 → J}
    {getBinary? : J → Option (List UInt8)}
    (hbinary : ∀ value bin, getBinary? value = some bin → value = binary bin) :
    (bytesPayloadConverter binary getBinary?).Lawful where
  returns _ := ⟨_, rfl⟩
  stamps value p h := by
    simp only [bytesPayloadConverter, Except.ok.injEq, Option.map_eq_some_iff] at h
    obtain ⟨bin, -, rfl⟩ := h
    rfl
  decodes value p h := by
    simp only [bytesPayloadConverter, Except.ok.injEq, Option.map_eq_some_iff] at h
    obtain ⟨bin, hbin, rfl⟩ := h
    rw [hbinary value bin hbin]
    rfl

theorem jsonPayloadConverter_lawful {dump : J → Except String (List UInt8)}
    {parse : List UInt8 → Except String J}
    (hdump : ∀ value, ∃ text, dump value = .ok text ∧ parse text = .ok value) :
    (jsonPayloadConverter dump parse).Lawful where
  returns value := by
    obtain ⟨text, htext, -⟩ := hdump value
    exact ⟨some { metadata := [(kEncoding, "json/plain")], data := text },
      by simp only [jsonPayloadConverter, htext]⟩
  stamps value p h := by
    obtain ⟨text, htext, -⟩ := hdump value
    simp only [jsonPayloadConverter, htext, Except.ok.injEq, Option.some.injEq] at h
    rw [← h]
    rfl
  decodes value p h := by
    obtain ⟨text, htext, hparse⟩ := hdump value
    simp only [jsonPayloadConverter, htext, Except.ok.injEq, Option.some.injEq] at h
    rw [← h]
    simp only [jsonPayloadConverter, hparse]

/-- In a stack of lawful converters with distinct encodings under codecs that invert: a value that
some converter accepts comes back, encoded by the first that accepts it and decoded by the same one
in any stack that has it; a value that none accepts is refused; and a payload whose encoding no
converter owns is refused. -/
theorem ConverterStack.round_trip (stack : ConverterStack J)
    (hdistinct : (stack.converters.map PayloadConverter.encoding).Nodup)
    (hlawful : ∀ c ∈ stack.converters, c.Lawful) (hcodecs : CodecsInvert stack.codecs) :
    (∀ value, (∃ c ∈ stack.converters, c.Accepts value) →
      (stack.toPayload value >>= stack.fromPayload) = .ok value ∧
        ∃ c p, FirstAccepts stack.converters value c p ∧
          stack.toPayload value = applyCodecsEncode stack.codecs p ∧
          ∀ others, c ∈ others → (others.map PayloadConverter.encoding).Nodup →
            (stack.toPayload value >>= fromPayload ⟨others, stack.codecs⟩) = .ok value) ∧
    (∀ value, (∀ c ∈ stack.converters, ¬ c.Accepts value) → stack.toPayload value =
      .error (.dataConverterError "no payload converter could encode the value")) ∧
    ∀ payload decoded, applyCodecsDecode stack.codecs payload = .ok decoded →
      (∀ c ∈ stack.converters, c.encoding ≠ decoded.encoding) → stack.fromPayload payload =
        .error (.dataConverterError
          ("no payload converter for encoding: " ++ decoded.encoding)) := by
  refine ⟨?_, ?_, ?_⟩
  · intro value hacc
    obtain ⟨c, p, hfirst⟩ := exists_firstAccepts (fun b hb => (hlawful b hb).returns value) hacc
    have hc := hlawful c hfirst.mem
    have ⟨_, _, _, _, hp⟩ := hfirst
    have htrip (others : List (PayloadConverter J)) (hmem : c ∈ others)
        (hnd : (others.map PayloadConverter.encoding).Nodup) :
        (stack.toPayload value >>= fromPayload ⟨others, stack.codecs⟩) = .ok value :=
      hfirst.fromPayload_toPayload (hc.stamps value p hp) (hc.decodes value p hp) hcodecs hmem hnd
    refine ⟨htrip _ hfirst.mem hdistinct, c, p, hfirst, ?_, htrip⟩
    rw [toPayload, hfirst.toPayloadJson_eq]
    rfl
  · intro value hrefused
    have hnone : ∀ b ∈ stack.converters, b.toPayload value = .ok none := by
      intro b hb
      obtain ⟨result, hresult⟩ := (hlawful b hb).returns value
      cases result with
      | none => exact hresult
      | some p => exact absurd ⟨p, hresult⟩ (hrefused b hb)
    rw [toPayload, toPayloadJson_of_none hnone]
    rfl
  · intro payload decoded hdec hunowned
    rw [fromPayload, hdec]
    exact fromPayloadJson_of_unowned hunowned

/-- Bytes in the reverse order, both ways. -/
def reverseCodec : CodecObject where
  encode p := .ok { p with data := p.data.reverse }
  decode p := .ok { p with data := p.data.reverse }

theorem reverseCodec_inverts : CodecsInvert [reverseCodec] := by
  intro p
  show Except.ok { p with data := p.data.reverse.reverse } = _
  rw [List.reverse_reverse]

/-- The JSON texts of `null`, `true` and `false`. -/
def dumpBool : Option Bool → Except String (List UInt8)
  | none => .ok [110, 117, 108, 108]
  | some true => .ok [116, 114, 117, 101]
  | some false => .ok [102, 97, 108, 115, 101]

def parseBool (text : List UInt8) : Except String (Option Bool) :=
  if text = [110, 117, 108, 108] then .ok none
  else if text = [116, 114, 117, 101] then .ok (some true)
  else if text = [102, 97, 108, 115, 101] then .ok (some false)
  else .error "parse_error.101"

theorem ConverterStack.round_trip_true :
    let stack : ConverterStack (Option Bool) :=
      ⟨[nilPayloadConverter none Option.isNone, jsonPayloadConverter dumpBool parseBool],
        [reverseCodec]⟩
    (stack.toPayload (some true) >>= stack.fromPayload) = .ok (some true) := by
  have hnil : (nilPayloadConverter (none : Option Bool) Option.isNone).Lawful :=
    nilPayloadConverter_lawful fun _ h => Option.isNone_iff_eq_none.mp h
  have hjson : (jsonPayloadConverter dumpBool parseBool).Lawful :=
    jsonPayloadConverter_lawful fun
      | none => ⟨_, rfl, rfl⟩
      | some true => ⟨_, rfl, rfl⟩
      | some false => ⟨_, rfl, rfl⟩
  refine ((round_trip _ (by decide) ?_ reverseCodec_inverts).1 _ ?_).1
  · exact List.forall_mem_cons.mpr ⟨hnil, List.forall_mem_singleton.mpr hjson⟩
  · exact ⟨_, List.mem_cons_of_mem _ List.mem_cons_self, _, rfl⟩

/-- What the default converters use of `nlohmann::json`. -/
structure JsonLibrary (J : Type) where
  null : J
  isNull : J → Bool
  binary : List UInt8 → J
  getBinary? : J → Option (List UInt8)
  dump : J → Except String (List UInt8)
  parse : List UInt8 → Except String J

/-- `DefaultConverters`. -/
def JsonLibrary.defaultConverters (json : JsonLibrary J) : List (PayloadConverter J) :=
  [nilPayloadConverter json.null json.isNull, bytesPayloadConverter json.binary json.getBinary?,
    jsonPayloadConverter json.dump json.parse]

/-- The default stack gives back null, binary values, and every other value whose text parses back,
though its last converter would not give back the binary ones. -/
theorem JsonLibrary.defaultConverters_round_trip (json : JsonLibrary J)
    (hnull : ∀ value, json.isNull value = true → value = json.null)
    (hbinary : ∀ value bin, json.getBinary? value = some bin → value = json.binary bin)
    {codecs : List CodecObject} (hcodecs : CodecsInvert codecs) (value : J)
    (htext : json.isNull value = false → json.getBinary? value = none →
      ∃ text, json.dump value = .ok text ∧ json.parse text = .ok value) :
    (ConverterStack.toPayload ⟨json.defaultConverters, codecs⟩ value >>=
      ConverterStack.fromPayload ⟨json.defaultConverters, codecs⟩) = .ok value := by
  have hdistinct : (json.defaultConverters.map PayloadConverter.encoding).Nodup := by
    simp [defaultConverters, nilPayloadConverter, bytesPayloadConverter, jsonPayloadConverter]
  cases hn : json.isNull value with
  | true =>
    have hp : (nilPayloadConverter json.null json.isNull).toPayload value =
        .ok (some { metadata := [(kEncoding, "binary/null")] }) := by
      simp only [nilPayloadConverter, hn, if_true]
    have hfirst : FirstAccepts json.defaultConverters value _ _ := .head hp
    have hdec := (nilPayloadConverter_lawful hnull).decodes value _ hp
    exact hfirst.fromPayload_toPayload rfl hdec hcodecs hfirst.mem hdistinct
  | false =>
    have hnil : (nilPayloadConverter json.null json.isNull).toPayload value = .ok none := by
      simp [nilPayloadConverter, hn]
    cases hb : json.getBinary? value with
    | some bin =>
      have hp : (bytesPayloadConverter json.binary json.getBinary?).toPayload value =
          .ok (some { metadata := [(kEncoding, "binary/plain")], data := bin }) := by
        simp only [bytesPayloadConverter, hb, Option.map_some]
      have hfirst : FirstAccepts json.defaultConverters value _ _ :=
        (FirstAccepts.head hp).tail hnil
      have hdec := (bytesPayloadConverter_lawful hbinary).decodes value _ hp
      exact hfirst.fromPayload_toPayload rfl hdec hcodecs hfirst.mem hdistinct
    | none =>
      obtain ⟨text, hdump, hparse⟩ := htext hn hb
      have hbytes : (bytesPayloadConverter json.binary json.getBinary?).toPayload value =
          .ok none := by
        simp [bytesPayloadConverter, hb]
      have hp : (jsonPayloadConverter json.dump json.parse).toPayload value =
          .ok (some { metadata := [(kEncoding, "json/plain")], data := text }) := by
        simp only [jsonPayloadConverter, hdump]
      have hdec : (jsonPayloadConverter json.dump json.parse).fromPayload
          { metadata := [(kEncoding, "json/plain")], data := text } = .ok (some value) := by
        simp only [jsonPayloadConverter, hparse]
      have hfirst : FirstAccepts json.defaultConverters value _ _ :=
        ((FirstAccepts.head hp).tail hbytes).tail hnil
      exact hfirst.fromPayload_toPayload rfl hdec hcodecs hfirst.mem hdistinct

end

end TemporalSdk
