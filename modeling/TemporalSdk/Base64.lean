import TemporalSdk.Lib.ShiftRegister

/-!
`Base64Encode` and `Base64Decode` of the data converter. Both loops keep their bits in one
32-bit `int` that is never masked: left shifts wrap, right shifts are arithmetic, and the word
is soon negative. The standard's encoding is stated apart, quantum by quantum.
-/
namespace TemporalSdk.Base64
open ShiftRegister

/-- `kB64`. -/
def kB64 : List UInt8 :=
  "ABCDEFGHIJKLMNOPQRSTUVWXYZabcdefghijklmnopqrstuvwxyz0123456789+/".toList.map
    fun c => c.toNat.toUInt8

/-- `kB64[i]`. -/
def symbol (i : ℕ) : UInt8 :=
  kB64.getD i 0

/-- The padding character. -/
def padChar : UInt8 := 61

/-- `while (bits >= 0)` of the encoder: emit every whole sextet. -/
def emitSextets (val : BitVec 32) (bits : ℤ) (out : List UInt8) : ℤ × List UInt8 :=
  if 0 ≤ bits then
    emitSextets val (bits - 6) (out ++ [symbol (window val bits.toNat 6).toNat])
  else (bits, out)
  termination_by (bits + 6).toNat

/-- The locals of either loop. -/
structure Locals where
  val : BitVec 32
  bits : ℤ
  out : List UInt8
  deriving DecidableEq, Repr

/-- One turn of the encoder's loop over the input bytes. -/
def encodeByte (s : Locals) (c : UInt8) : Locals :=
  let val := shiftIn s.val 8 (c.toBitVec.setWidth 32)
  let (bits, out) := emitSextets val (s.bits + 8) s.out
  { val, bits, out }

/-- `while (out.size() % 4 != 0)`. -/
def padToQuantum (out : List UInt8) : List UInt8 :=
  if out.length % 4 ≠ 0 then padToQuantum (out ++ [padChar]) else out
  termination_by (4 - out.length % 4) % 4
  decreasing_by
    simp only [List.length_append, List.length_singleton]
    omega

/-- The bits left over after the last byte, filled up with zeros. -/
def encodeRest (s : Locals) : List UInt8 :=
  if s.bits > -6 then
    s.out ++ [symbol (window (shiftIn s.val 8 0) (s.bits + 8).toNat 6).toNat]
  else s.out

/-- `Base64Encode`. -/
def base64Encode (input : List UInt8) : List UInt8 :=
  padToQuantum (encodeRest (input.foldl encodeByte { val := 0, bits := -6, out := [] }))

/-- `rev`: the value of an alphabet character, `-1` for every other byte. -/
def rev (c : UInt8) : ℤ :=
  match kB64.idxOf? c with
  | some i => i
  | none => -1

/-- One turn of the decoder's loop, past the test for the end of the alphabet characters. -/
def decodeSymbol (s : Locals) (c : UInt8) : Locals :=
  let val := shiftIn s.val 6 (BitVec.ofInt 32 (rev c))
  let bits := s.bits + 6
  if 0 ≤ bits then
    { val, bits := bits - 8, out := s.out ++ [UInt8.ofNat (window val bits.toNat 8).toNat] }
  else { s with val, bits }

/-- The decoder's loop: it stops at padding and at any character outside the alphabet. -/
def decodeLoop (s : Locals) : List UInt8 → List UInt8
  | [] => s.out
  | c :: rest => if rev c = -1 then s.out else decodeLoop (decodeSymbol s c) rest

/-- `Base64Decode`. -/
def base64Decode (input : List UInt8) : List UInt8 :=
  decodeLoop { val := 0, bits := -8, out := [] } input

/-- The standard's base 64 encoding: three bytes are four sextets; a last quantum of one or two
bytes is filled up with zero bits to whole sextets and padded to four characters. -/
def rfc4648 : List UInt8 → List UInt8
  | a :: b :: c :: rest =>
    let n := a.toNat * 2 ^ 16 + b.toNat * 2 ^ 8 + c.toNat
    [symbol (n / 2 ^ 18 % 64), symbol (n / 2 ^ 12 % 64), symbol (n / 2 ^ 6 % 64),
      symbol (n % 64)] ++ rfc4648 rest
  | [a, b] =>
    let n := (a.toNat * 2 ^ 8 + b.toNat) * 2 ^ 2
    [symbol (n / 2 ^ 12 % 64), symbol (n / 2 ^ 6 % 64), symbol (n % 64), padChar]
  | [a] =>
    let n := a.toNat * 2 ^ 4
    [symbol (n / 2 ^ 6 % 64), symbol (n % 64), padChar, padChar]
  | [] => []

theorem toNat_byte (c : UInt8) : (c.toBitVec.setWidth 32).toNat = c.toNat := by
  have hc := c.toNat_lt
  rw [BitVec.toNat_setWidth, UInt8.toNat_toBitVec, Nat.mod_eq_of_lt (by omega)]

/-- The last byte is in the register, above whatever bits the earlier ones left. -/
theorem low_encodeByte (v : BitVec 32) (c : UInt8) {k : ℕ} (hk : k + 8 ≤ 32) :
    low (shiftIn v 8 (c.toBitVec.setWidth 32)) (k + 8) = low v k * 2 ^ 8 + c.toNat := by
  rw [low_shiftIn v (by rw [toNat_byte]; exact c.toNat_lt) hk, toNat_byte]

theorem emitSextets_neg (val : BitVec 32) {bits : ℤ} (h : bits < 0) (out : List UInt8) :
    emitSextets val bits out = (bits, out) := by
  rw [emitSextets, if_neg (by omega)]

theorem emitSextets_nonneg (val : BitVec 32) {bits : ℤ} (h : 0 ≤ bits) (out : List UInt8) :
    emitSextets val bits out =
      emitSextets val (bits - 6) (out ++ [symbol (window val bits.toNat 6).toNat]) := by
  rw [emitSextets, if_pos h]

/-- First byte of a quantum: nothing in the register matters. -/
theorem encodeByte_first (v : BitVec 32) (out : List UInt8) (a : UInt8) :
    ∃ v', low v' 2 = a.toNat % 4 ∧
      encodeByte { val := v, bits := -6, out := out } a =
        { val := v', bits := -4, out := out ++ [symbol (a.toNat / 4)] } := by
  have hlow := low_encodeByte v a (k := 0) (by omega)
  refine ⟨shiftIn v 8 (a.toBitVec.setWidth 32), ?_, ?_⟩
  · rw [low_of_low _ (show 2 ≤ 0 + 8 by omega), hlow, low_zero]
    omega
  · simp only [encodeByte]
    rw [emitSextets_nonneg _ (by omega), emitSextets_neg _ (by omega),
      show ((-6 : ℤ) + 8).toNat = 2 from rfl, toNat_window _ (by omega),
      show 2 + 6 = 0 + 8 from rfl, hlow, low_zero, Nat.zero_mul, Nat.zero_add]
    rfl

/-- Second byte: the two bits left by the first open the next sextet. -/
theorem encodeByte_second {v : BitVec 32} {m : ℕ} (hv : low v 2 = m) (out : List UInt8)
    (b : UInt8) :
    ∃ v', low v' 4 = b.toNat % 16 ∧
      encodeByte { val := v, bits := -4, out := out } b =
        { val := v', bits := -2, out := out ++ [symbol (m * 16 + b.toNat / 16)] } := by
  have hlow := low_encodeByte v b (k := 2) (by omega)
  refine ⟨shiftIn v 8 (b.toBitVec.setWidth 32), ?_, ?_⟩
  · rw [low_of_low _ (show 4 ≤ 2 + 8 by omega), hlow]
    omega
  · have hsextet : (m * 2 ^ 8 + b.toNat) / 2 ^ 4 = m * 16 + b.toNat / 16 := by omega
    simp only [encodeByte]
    rw [emitSextets_nonneg _ (by omega), emitSextets_neg _ (by omega),
      show ((-4 : ℤ) + 8).toNat = 4 from rfl, toNat_window _ (by omega),
      show 4 + 6 = 2 + 8 from rfl, hlow, hv, hsextet]
    rfl

/-- Third byte: it completes the quantum with two sextets. -/
theorem encodeByte_third {v : BitVec 32} {m : ℕ} (hv : low v 4 = m) (out : List UInt8)
    (c : UInt8) :
    ∃ v', encodeByte { val := v, bits := -2, out := out } c =
      { val := v', bits := -6,
        out := out ++ [symbol (m * 4 + c.toNat / 64), symbol (c.toNat % 64)] } := by
  have hlow := low_encodeByte v c (k := 4) (by omega)
  have hlast : low (shiftIn v 8 (c.toBitVec.setWidth 32)) (0 + 6) = c.toNat % 64 := by
    rw [low_of_low _ (show 0 + 6 ≤ 4 + 8 by omega), hlow]
    omega
  have hhigh : (m * 2 ^ 8 + c.toNat) / 2 ^ 6 = m * 4 + c.toNat / 64 := by omega
  refine ⟨shiftIn v 8 (c.toBitVec.setWidth 32), ?_⟩
  simp only [encodeByte]
  rw [emitSextets_nonneg _ (by omega), emitSextets_nonneg _ (by omega),
    emitSextets_neg _ (by omega), show ((-2 : ℤ) + 8).toNat = 6 from rfl,
    show ((-2 : ℤ) + 8 - 6).toNat = 0 from rfl, toNat_window _ (by omega),
    toNat_window _ (by omega), hlast, show 6 + 6 = 4 + 8 from rfl, hlow, hv, hhigh,
    Nat.pow_zero, Nat.div_one, List.append_assoc]
  rfl

theorem padToQuantum_of_dvd {out : List UInt8} (h : out.length % 4 = 0) :
    padToQuantum out = out := by
  rw [padToQuantum, if_neg (by omega)]

theorem padToQuantum_step {out : List UInt8} (h : out.length % 4 ≠ 0) :
    padToQuantum out = padToQuantum (out ++ [padChar]) := by
  rw [padToQuantum, if_pos h]

/-- One byte left over: its two low bits are filled up with four zeros. -/
theorem encodeRest_one {v : BitVec 32} {m : ℕ} (hv : low v 2 = m) (out : List UInt8) :
    encodeRest { val := v, bits := -4, out := out } = out ++ [symbol (m * 16)] := by
  have hlow : low (shiftIn v 8 0) (2 + 8) = m * 2 ^ 8 := by
    rw [low_shiftIn_zero v (by omega), hv]
  have hsextet : m * 2 ^ 8 / 2 ^ 4 = m * 16 := by omega
  simp only [encodeRest]
  rw [if_pos (by omega), show ((-4 : ℤ) + 8).toNat = 4 from rfl, toNat_window _ (by omega),
    show 4 + 6 = 2 + 8 from rfl, hlow, hsextet]

/-- Two bytes left over: the four low bits of the second are filled up with two zeros. -/
theorem encodeRest_two {v : BitVec 32} {m : ℕ} (hv : low v 4 = m) (out : List UInt8) :
    encodeRest { val := v, bits := -2, out := out } = out ++ [symbol (m * 4)] := by
  have hlow : low (shiftIn v 8 0) (4 + 8) = m * 2 ^ 8 := by
    rw [low_shiftIn_zero v (by omega), hv]
  have hsextet : m * 2 ^ 8 / 2 ^ 6 = m * 4 := by omega
  simp only [encodeRest]
  rw [if_pos (by omega), show ((-2 : ℤ) + 8).toNat = 6 from rfl, toNat_window _ (by omega),
    show 6 + 6 = 4 + 8 from rfl, hlow, hsextet]

/-- From a quantum boundary on, whatever the register holds, the encoder appends the standard's
encoding of the rest of the input. -/
theorem encode_from_boundary (x : List UInt8) (v : BitVec 32) {out : List UInt8}
    (hout : out.length % 4 = 0) :
    padToQuantum (encodeRest (x.foldl encodeByte { val := v, bits := -6, out := out })) =
      out ++ rfc4648 x := by
  induction x using rfc4648.induct generalizing v out with
  | case1 a b c rest ih =>
    have ha := a.toNat_lt
    have hb := b.toNat_lt
    have hc := c.toNat_lt
    obtain ⟨v₁, h₁, e₁⟩ := encodeByte_first v out a
    obtain ⟨v₂, h₂, e₂⟩ := encodeByte_second h₁ (out ++ [symbol (a.toNat / 4)]) b
    obtain ⟨v₃, e₃⟩ := encodeByte_third h₂
      (out ++ [symbol (a.toNat / 4)] ++ [symbol (a.toNat % 4 * 16 + b.toNat / 16)]) c
    rw [List.foldl_cons, List.foldl_cons, List.foldl_cons, e₁, e₂, e₃, ih v₃ (by simp; omega),
      rfc4648]
    have s₀ : a.toNat / 4 = (a.toNat * 2 ^ 16 + b.toNat * 2 ^ 8 + c.toNat) / 2 ^ 18 % 64 := by
      omega
    have s₁ : a.toNat % 4 * 16 + b.toNat / 16 =
        (a.toNat * 2 ^ 16 + b.toNat * 2 ^ 8 + c.toNat) / 2 ^ 12 % 64 := by omega
    have s₂ : b.toNat % 16 * 4 + c.toNat / 64 =
        (a.toNat * 2 ^ 16 + b.toNat * 2 ^ 8 + c.toNat) / 2 ^ 6 % 64 := by omega
    have s₃ : c.toNat % 64 =
        (a.toNat * 2 ^ 16 + b.toNat * 2 ^ 8 + c.toNat) % 64 := by omega
    rw [s₀, s₁, s₂, s₃]
    simp only [List.append_assoc, List.cons_append, List.nil_append]
  | case2 a b =>
    have ha := a.toNat_lt
    have hb := b.toNat_lt
    obtain ⟨v₁, h₁, e₁⟩ := encodeByte_first v out a
    obtain ⟨v₂, h₂, e₂⟩ := encodeByte_second h₁ (out ++ [symbol (a.toNat / 4)]) b
    rw [List.foldl_cons, List.foldl_cons, List.foldl_nil, e₁, e₂, encodeRest_two h₂,
      padToQuantum_step (by simp; omega), padToQuantum_of_dvd (by simp; omega), rfc4648]
    have s₀ : a.toNat / 4 = (a.toNat * 2 ^ 8 + b.toNat) * 2 ^ 2 / 2 ^ 12 % 64 := by omega
    have s₁ : a.toNat % 4 * 16 + b.toNat / 16 =
        (a.toNat * 2 ^ 8 + b.toNat) * 2 ^ 2 / 2 ^ 6 % 64 := by omega
    have s₂ : b.toNat % 16 * 4 = (a.toNat * 2 ^ 8 + b.toNat) * 2 ^ 2 % 64 := by omega
    rw [s₀, s₁, s₂]
    simp only [List.append_assoc, List.cons_append, List.nil_append]
  | case3 a =>
    have ha := a.toNat_lt
    obtain ⟨v₁, h₁, e₁⟩ := encodeByte_first v out a
    rw [List.foldl_cons, List.foldl_nil, e₁, encodeRest_one h₁,
      padToQuantum_step (by simp; omega), padToQuantum_step (by simp; omega),
      padToQuantum_of_dvd (by simp; omega), rfc4648]
    have s₀ : a.toNat / 4 = a.toNat * 2 ^ 4 / 2 ^ 6 % 64 := by omega
    have s₁ : a.toNat % 4 * 16 = a.toNat * 2 ^ 4 % 64 := by omega
    rw [s₀, s₁]
    simp only [List.append_assoc, List.cons_append, List.nil_append]
  | case4 =>
    rw [List.foldl_nil, encodeRest, if_neg (by simp), padToQuantum_of_dvd hout, rfc4648,
      List.append_nil]

theorem base64Encode_eq_rfc4648 (x : List UInt8) : base64Encode x = rfc4648 x :=
  encode_from_boundary x 0 rfl

theorem rev_symbol {i : ℕ} (h : i < 64) : rev (symbol i) = i := by
  have hall : ∀ i : Fin 64, rev (symbol i) = (i : ℕ) := by decide +kernel
  exact hall ⟨i, h⟩

theorem rev_padChar : rev padChar = -1 := by decide

theorem symbol_mem_kB64 {i : ℕ} (h : i < 64) : symbol i ∈ kB64 := by
  have hall : ∀ i : Fin 64, symbol i ∈ kB64 := by decide +kernel
  exact hall ⟨i, h⟩

theorem toNat_rev_symbol {i : ℕ} (h : i < 64) :
    (BitVec.ofInt 32 (rev (symbol i))).toNat = i := by
  rw [rev_symbol h, BitVec.ofInt_natCast, BitVec.toNat_ofNat, Nat.mod_eq_of_lt (by omega)]

/-- The last sextet is in the register, above whatever bits the earlier ones left. -/
theorem low_decodeSymbol (v : BitVec 32) {i k : ℕ} (h : i < 64) (hk : k + 6 ≤ 32) :
    low (shiftIn v 6 (BitVec.ofInt 32 (rev (symbol i)))) (k + 6) = low v k * 2 ^ 6 + i := by
  rw [low_shiftIn v (by rw [toNat_rev_symbol h]; exact h) hk, toNat_rev_symbol h]

theorem decodeLoop_symbol (s : Locals) {i : ℕ} (h : i < 64) (rest : List UInt8) :
    decodeLoop s (symbol i :: rest) = decodeLoop (decodeSymbol s (symbol i)) rest := by
  rw [decodeLoop, if_neg (by rw [rev_symbol h]; omega)]

theorem decodeLoop_padChar (s : Locals) (rest : List UInt8) :
    decodeLoop s (padChar :: rest) = s.out := by
  rw [decodeLoop, if_pos rev_padChar]

/-- Between two turns of the decoder: `k` bits with value `m` wait for their byte, everything
above them is of no account. -/
structure Waits (s : Locals) (k m : ℕ) (out : List UInt8) : Prop where
  bits : s.bits = k - 8
  low : low s.val k = m
  out : s.out = out

/-- First sextet of a quantum: no whole byte yet. -/
theorem Waits.first {s : Locals} {out : List UInt8} (hs : Waits s 0 0 out) {i : ℕ} (h : i < 64) :
    Waits (decodeSymbol s (symbol i)) 6 i out := by
  have hneg : ¬ 0 ≤ s.bits + 6 := by
    rw [hs.bits]
    omega
  have hlow : ShiftRegister.low (shiftIn s.val 6 (BitVec.ofInt 32 (rev (symbol i)))) 6 =
      ShiftRegister.low s.val 0 * 2 ^ 6 + i := low_decodeSymbol s.val h (by omega)
  simp only [decodeSymbol, if_neg hneg]
  refine ⟨?_, ?_, hs.out⟩
  · simp only [hs.bits]
    omega
  · rw [hlow, low_zero]
    omega

/-- Every later sextet completes a byte; `b` of its bits stay for the next one. -/
theorem Waits.next {s : Locals} {k m b i : ℕ} {out : List UInt8} {x : UInt8}
    (hs : Waits s k m out) (hkb : k + 6 = 8 + b) (hb : b ≤ 6) (h : i < 64)
    (hx : (m * 2 ^ 6 + i) / 2 ^ b = x.toNat) :
    Waits (decodeSymbol s (symbol i)) b (i % 2 ^ b) (out ++ [x]) := by
  have hpos : 0 ≤ s.bits + 6 := by
    rw [hs.bits]
    omega
  have hlow := low_decodeSymbol s.val (k := k) h (by omega)
  simp only [decodeSymbol, if_pos hpos]
  refine ⟨?_, ?_, ?_⟩
  · simp only [hs.bits]
    omega
  · have hpow : (2 : ℕ) ^ 6 = 2 ^ (6 - b) * 2 ^ b := by
      rw [← Nat.pow_add, Nat.sub_add_cancel hb]
    rw [low_of_low _ (show b ≤ k + 6 by omega), hlow, hpow, ← Nat.mul_assoc, Nat.add_comm,
      Nat.add_mul_mod_self_right]
  · have hbits : (s.bits + 6).toNat = b := by
      rw [hs.bits]
      omega
    rw [hbits, toNat_window _ (by omega), Nat.add_comm b 8, ← hkb, hlow, hs.low, hx, hs.out,
      UInt8.ofNat_toNat]

/-- From a quantum boundary on, whatever the register holds, the decoder gives back the bytes
that were encoded. -/
theorem decode_from_boundary (x : List UInt8) {s : Locals} {out : List UInt8}
    (hs : Waits s 0 0 out) : decodeLoop s (rfc4648 x) = out ++ x := by
  induction x using rfc4648.induct generalizing s out with
  | case1 a b c rest ih =>
    have ha := a.toNat_lt
    have hb := b.toNat_lt
    have hc := c.toNat_lt
    obtain ⟨n, hn⟩ : ∃ n, n = a.toNat * 2 ^ 16 + b.toNat * 2 ^ 8 + c.toNat := ⟨_, rfl⟩
    have h₀ := hs.first (i := n / 2 ^ 18 % 64) (by omega)
    have h₁ := h₀.next (b := 4) (i := n / 2 ^ 12 % 64) (x := a) rfl (by omega) (by omega)
      (by omega)
    have h₂ := h₁.next (b := 2) (i := n / 2 ^ 6 % 64) (x := b) rfl (by omega) (by omega)
      (by omega)
    have h₃ := h₂.next (b := 0) (i := n % 64) (x := c) rfl (by omega) (by omega) (by omega)
    rw [Nat.pow_zero, Nat.mod_one] at h₃
    rw [rfc4648, ← hn]
    simp only [List.cons_append, List.nil_append]
    rw [decodeLoop_symbol _ (by omega), decodeLoop_symbol _ (by omega),
      decodeLoop_symbol _ (by omega), decodeLoop_symbol _ (by omega), ih h₃]
    simp only [List.append_assoc, List.cons_append, List.nil_append]
  | case2 a b =>
    have ha := a.toNat_lt
    have hb := b.toNat_lt
    obtain ⟨n, hn⟩ : ∃ n, n = (a.toNat * 2 ^ 8 + b.toNat) * 2 ^ 2 := ⟨_, rfl⟩
    have h₀ := hs.first (i := n / 2 ^ 12 % 64) (by omega)
    have h₁ := h₀.next (b := 4) (i := n / 2 ^ 6 % 64) (x := a) rfl (by omega) (by omega)
      (by omega)
    have h₂ := h₁.next (b := 2) (i := n % 64) (x := b) rfl (by omega) (by omega) (by omega)
    rw [rfc4648, ← hn, decodeLoop_symbol _ (by omega), decodeLoop_symbol _ (by omega),
      decodeLoop_symbol _ (by omega), decodeLoop_padChar, h₂.out]
    simp only [List.append_assoc, List.cons_append, List.nil_append]
  | case3 a =>
    have ha := a.toNat_lt
    obtain ⟨n, hn⟩ : ∃ n, n = a.toNat * 2 ^ 4 := ⟨_, rfl⟩
    have h₀ := hs.first (i := n / 2 ^ 6 % 64) (by omega)
    have h₁ := h₀.next (b := 4) (i := n % 64) (x := a) rfl (by omega) (by omega) (by omega)
    rw [rfc4648, ← hn, decodeLoop_symbol _ (by omega), decodeLoop_symbol _ (by omega),
      decodeLoop_padChar, h₁.out]
  | case4 => rw [rfc4648, decodeLoop, hs.out, List.append_nil]

theorem base64Decode_base64Encode (x : List UInt8) : base64Decode (base64Encode x) = x := by
  rw [base64Encode_eq_rfc4648, base64Decode, decode_from_boundary x ⟨rfl, low_zero _, rfl⟩,
    List.nil_append]

/-- Four characters for every three bytes begun. -/
theorem length_rfc4648 (x : List UInt8) : (rfc4648 x).length = 4 * ((x.length + 2) / 3) := by
  induction x using rfc4648.induct with
  | case1 a b c rest ih =>
    rw [rfc4648]
    simp only [List.length_append, List.length_cons, List.length_nil, ih]
    omega
  | case2 a b => simp [rfc4648]
  | case3 a => simp [rfc4648]
  | case4 => rfl

/-- Alphabet characters, then at most two padding characters. -/
theorem rfc4648_shape (x : List UInt8) :
    ∃ body k, rfc4648 x = body ++ List.replicate k padChar ∧ k ≤ 2 ∧ ∀ c ∈ body, c ∈ kB64 := by
  induction x using rfc4648.induct with
  | case1 a b c rest ih =>
    obtain ⟨body, k, heq, hk, hbody⟩ := ih
    rw [rfc4648, heq]
    refine ⟨_, k, (List.append_assoc _ _ _).symm, hk, ?_⟩
    intro c hc
    rcases List.mem_append.mp hc with hc | hc
    · simp only [List.mem_cons, List.not_mem_nil, or_false] at hc
      rcases hc with rfl | rfl | rfl | rfl <;> exact symbol_mem_kB64 (by omega)
    · exact hbody c hc
  | case2 a b =>
    refine ⟨(rfc4648 [a, b]).take 3, 1, rfl, by omega, ?_⟩
    intro c hc
    simp only [rfc4648, List.take_succ_cons, List.take_zero, List.mem_cons, List.not_mem_nil,
      or_false] at hc
    rcases hc with rfl | rfl | rfl <;> exact symbol_mem_kB64 (by omega)
  | case3 a =>
    refine ⟨(rfc4648 [a]).take 2, 2, rfl, by omega, ?_⟩
    intro c hc
    simp only [rfc4648, List.take_succ_cons, List.take_zero, List.mem_cons, List.not_mem_nil,
      or_false] at hc
    rcases hc with rfl | rfl <;> exact symbol_mem_kB64 (by omega)
  | case4 => exact ⟨[], 0, rfl, by omega, by simp⟩

/-- The codec's base 64, computed in a wrapping signed word, is the standard's and inverts. -/
theorem base64_correct (x : List UInt8) :
    base64Decode (base64Encode x) = x ∧
      (base64Encode x).length = 4 * ((x.length + 2) / 3) ∧
      (∃ body k, base64Encode x = body ++ List.replicate k padChar ∧ k ≤ 2 ∧
        ∀ c ∈ body, c ∈ kB64) ∧
      base64Encode x = rfc4648 x := by
  refine ⟨base64Decode_base64Encode x, ?_, ?_, base64Encode_eq_rfc4648 x⟩
  · rw [base64Encode_eq_rfc4648, length_rfc4648]
  · rw [base64Encode_eq_rfc4648]
    exact rfc4648_shape x

end TemporalSdk.Base64
