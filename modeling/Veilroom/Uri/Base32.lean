import Veilroom.Basic
import Veilroom.Library.BitString

/-!
`decode_base32` (`uri.rs`): the loop that collects five bits a symbol and gives out an octet as soon
as it is complete.
-/
namespace Veilroom
namespace Uri

/-- The value of a base32 symbol. -/
def base32Value (byte : UInt8) : Option UInt8 :=
  if 97 ≤ byte ∧ byte ≤ 122 then some (byte - 97)
  else if 50 ≤ byte ∧ byte ≤ 55 then some (byte - 50 + 26)
  else none

/-- The base32 symbol of a value. -/
def base32Symbol (value : UInt8) : UInt8 :=
  if value < 26 then 97 + value else 50 + (value - 26)

theorem base32Value_eq_some {byte value : UInt8} :
    base32Value byte = some value ↔ value.toNat < 32 ∧ base32Symbol value = byte := by
  change _ ↔ value < 32 ∧ _
  unfold base32Value base32Symbol
  grind

/-- The variables of `decode_base32`. -/
structure Base32 where
  output : Bytes
  accumulator : UInt32
  bits : UInt8
deriving DecidableEq

namespace Base32

/-- One turn of the inner loop. -/
def extract (s : Base32) : Base32 :=
  let bits := s.bits - 8
  { output := s.output ++ [(s.accumulator >>> bits.toUInt32).toUInt8]
    accumulator := s.accumulator &&& ((1 <<< bits.toUInt32) - 1)
    bits }

/-- `while bits >= 8`, at most `turns` times. -/
def drain : Nat → Base32 → Base32
  | 0, s => s
  | turns + 1, s => if 8 ≤ s.bits then drain turns s.extract else s

/-- What one symbol does. A turn of the inner loop takes bits off, so there are no more turns
than bits. -/
def push (s : Base32) (value : UInt8) : Base32 :=
  drain (s.bits + 5).toNat
    { s with accumulator := (s.accumulator <<< 5) ||| value.toUInt32, bits := s.bits + 5 }

/-- The outer loop. -/
def collect (s : Base32) : Bytes → Option Base32
  | [] => some s
  | byte :: rest =>
    match base32Value byte with
    | none => none
    | some value => (s.push value).collect rest

end Base32

/-- `decode_base32`, on the bytes of the text. -/
def decodeBase32 (text : Bytes) : Option Bytes :=
  match Base32.collect ⟨[], 0, 0⟩ text with
  | none => none
  | some s => if s.bits ≠ 0 ∧ s.accumulator ≠ 0 then none else some s.output

/-! ### The bits of the output -/

/-- The bits of octets. -/
def octetBits (octets : Bytes) : List Bool := BitString.concat 8 (octets.map UInt8.toNat)

/-- The bits of symbols that are there, five a symbol. -/
def symbolBits (values : Bytes) : List Bool := BitString.concat 5 (values.map UInt8.toNat)

namespace Base32
variable {s : Base32} {values : Bytes} {value : UInt8}

/-- The octets given out and the bits still held are the bits of the symbols so far. -/
structure Collected (values : Bytes) (s : Base32) : Prop where
  bits_lt : s.bits.toNat < 8
  accumulator_lt : s.accumulator.toNat < 2 ^ s.bits.toNat
  bits : symbolBits values =
    octetBits s.output ++ BitString.encode s.bits.toNat s.accumulator.toNat

theorem octetBits_append (octets octets' : Bytes) :
    octetBits (octets ++ octets') = octetBits octets ++ octetBits octets' := by
  simp [octetBits, BitString.concat]

theorem symbolBits_append (values values' : Bytes) :
    symbolBits (values ++ values') = symbolBits values ++ symbolBits values' := by
  simp [symbolBits, BitString.concat]

/-- Shifting five bits in loses none. -/
theorem toNat_shifted {accumulator : UInt32} (h : accumulator.toNat < 2 ^ 7)
    (hvalue : value.toNat < 32) :
    ((accumulator <<< 5) ||| value.toUInt32).toNat = accumulator.toNat * 32 + value.toNat := by
  have hshift : (accumulator <<< 5).toNat = accumulator.toNat <<< 5 := by
    rw [UInt32.toNat_shiftLeft]
    apply Nat.mod_eq_of_lt
    rw [show (5 : UInt32).toNat % 32 = 5 from rfl, Nat.shiftLeft_eq]
    omega
  rw [UInt32.toNat_or, hshift, UInt8.toNat_toUInt32,
    ← Nat.shiftLeft_add_eq_or_of_lt (show value.toNat < 2 ^ 5 from hvalue), Nat.shiftLeft_eq]

/-- One turn of the inner loop cuts the eight highest bits off. -/
theorem extract_bits {s : Base32} {low : Nat} (hlow : low ≤ 4) (hbits : s.bits.toNat = 8 + low)
    (hlt : s.accumulator.toNat < 2 ^ (8 + low)) :
    s.extract.bits.toNat = low ∧ s.extract.accumulator.toNat < 2 ^ low ∧
      octetBits s.output ++ BitString.encode (8 + low) s.accumulator.toNat =
        octetBits s.extract.output ++ BitString.encode low s.extract.accumulator.toNat := by
  have hrest : (s.bits - 8).toNat = low := by
    rw [UInt8.toNat_sub_of_le _ _ (by rw [UInt8.le_iff_toNat_le]; simp [hbits]), hbits]
    simp
  have hshift : (s.accumulator >>> (s.bits - 8).toUInt32).toNat =
      s.accumulator.toNat / 2 ^ low := by
    rw [UInt32.toNat_shiftRight, UInt8.toNat_toUInt32, hrest, Nat.mod_eq_of_lt (by omega),
      Nat.shiftRight_eq_div_pow]
  have hpow : 2 ^ low ≤ 2 ^ 4 := Nat.pow_le_pow_right Nat.two_pos hlow
  have hone : (((1 : UInt32) <<< (s.bits - 8).toUInt32) - 1).toNat = 2 ^ low - 1 := by
    have hpower : ((1 : UInt32) <<< (s.bits - 8).toUInt32).toNat = 2 ^ low := by
      rw [UInt32.toNat_shiftLeft, UInt8.toNat_toUInt32, hrest,
        Nat.mod_eq_of_lt (by omega : low < 32), UInt32.toNat_one, Nat.one_shiftLeft]
      exact Nat.mod_eq_of_lt (by omega)
    have hle : (1 : UInt32) ≤ (1 : UInt32) <<< (s.bits - 8).toUInt32 := by
      rw [UInt32.le_iff_toNat_le, hpower]
      exact Nat.one_le_two_pow
    rw [UInt32.toNat_sub_of_le _ _ hle, hpower]
    rfl
  have hkept : (s.accumulator &&& (((1 : UInt32) <<< (s.bits - 8).toUInt32) - 1)).toNat =
      s.accumulator.toNat % 2 ^ low := by
    rw [UInt32.toNat_and, hone, Nat.and_two_pow_sub_one_eq_mod]
  have hhigh : s.accumulator.toNat / 2 ^ low < 2 ^ 8 := by
    rw [Nat.div_lt_iff_lt_mul (Nat.two_pow_pos low), ← Nat.pow_add]
    exact hlt
  have hoctet : (s.accumulator >>> (s.bits - 8).toUInt32).toUInt8.toNat =
      s.accumulator.toNat / 2 ^ low := by
    rw [UInt32.toNat_toUInt8, hshift, Nat.mod_eq_of_lt hhigh]
  refine ⟨hrest, ?_, ?_⟩
  · rw [extract, hkept]
    exact Nat.mod_lt _ (Nat.two_pow_pos low)
  · rw [extract, hkept, octetBits_append, BitString.encode_add, List.append_assoc]
    simp only [octetBits, BitString.concat, List.map_cons, List.map_nil, List.flatMap_cons,
      List.flatMap_nil, List.append_nil, hoctet]

theorem drain_of_lt {turns : Nat} (h : s.bits.toNat < 8) : drain turns s = s := by
  cases turns with
  | zero => rfl
  | succ turns =>
      rw [drain, if_neg]
      rw [UInt8.le_iff_toNat_le, Nat.not_le]
      exact h

/-- The counter and the accumulator once five more bits are in. -/
theorem Collected.shifted (h : Collected values s) (hvalue : value.toNat < 32) :
    (s.bits + 5).toNat = s.bits.toNat + 5 ∧
      ((s.accumulator <<< 5) ||| value.toUInt32).toNat = s.accumulator.toNat * 32 + value.toNat ∧
      s.accumulator.toNat * 32 + value.toNat < 2 ^ (s.bits.toNat + 5) := by
  refine ⟨?_, ?_, ?_⟩
  · have hlt := h.bits_lt
    rw [UInt8.toNat_add]
    apply Nat.mod_eq_of_lt
    change s.bits.toNat + 5 < 256
    omega
  · apply toNat_shifted _ hvalue
    exact h.accumulator_lt.trans_le
      (Nat.pow_le_pow_right Nat.two_pos (Nat.le_of_lt_succ h.bits_lt))
  · have haccumulator := h.accumulator_lt
    rw [Nat.pow_add]
    omega

theorem Collected.push (h : Collected values s) (hvalue : value.toNat < 32) :
    Collected (values ++ [value]) (s.push value) := by
  obtain ⟨hbits, hshifted, hlt⟩ := h.shifted hvalue
  have hcoded : symbolBits (values ++ [value]) = octetBits s.output ++
      BitString.encode (s.bits.toNat + 5) (s.accumulator.toNat * 32 + value.toNat) := by
    have hdiv : (s.accumulator.toNat * 32 + value.toNat) / 2 ^ 5 = s.accumulator.toNat := by omega
    have hmod : (s.accumulator.toNat * 32 + value.toNat) % 2 ^ 5 = value.toNat := by omega
    rw [symbolBits_append, h.bits, BitString.encode_add, hdiv, hmod, List.append_assoc]
    simp [symbolBits, BitString.concat]
  unfold Base32.push
  rw [hbits]
  -- five more bits complete an octet or they do not
  by_cases hfull : s.bits.toNat + 5 < 8
  · rw [drain_of_lt (by rw [hbits]; exact hfull)]
    refine ⟨by rw [hbits]; exact hfull, ?_, ?_⟩
    · rw [hbits, hshifted]
      exact hlt
    · rw [hbits, hshifted]
      exact hcoded
  · obtain ⟨low, hlow⟩ := Nat.exists_eq_add_of_le (not_lt.mp hfull)
    have hlow4 : low ≤ 4 := by
      have hlt := h.bits_lt
      omega
    rw [hlow] at hcoded hlt
    obtain ⟨hrest, hkept, hcut⟩ := extract_bits (s := { s with
      accumulator := (s.accumulator <<< 5) ||| value.toUInt32, bits := s.bits + 5 }) hlow4
      (by rw [hbits, hlow]) (by rw [hshifted]; exact hlt)
    rw [drain, if_pos (by rw [UInt8.le_iff_toNat_le, hbits, hlow]; exact Nat.le_add_right 8 low),
      drain_of_lt (by rw [hrest]; omega)]
    refine ⟨by rw [hrest]; omega, by rw [hrest]; exact hkept, ?_⟩
    rw [hrest, ← hcut, hshifted]
    exact hcoded

/-- The outer loop stops at the first byte that is no symbol. -/
theorem Collected.collect (h : Collected values s) (text : Bytes) :
    (∃ more s', text.mapM base32Value = some more ∧ s.collect text = some s' ∧
        Collected (values ++ more) s') ∨
      text.mapM base32Value = none ∧ s.collect text = none := by
  induction text generalizing s values with
  | nil => exact .inl ⟨[], s, rfl, rfl, by rwa [List.append_nil]⟩
  | cons byte rest ih =>
      rw [Base32.collect, List.mapM_cons]
      cases hvalue : base32Value byte with
      | none => exact .inr ⟨rfl, rfl⟩
      | some value =>
          have hlt := (base32Value_eq_some.mp hvalue).1
          obtain ⟨more, s', hmore, hcollect, hs'⟩ | ⟨hmore, hcollect⟩ := ih (h.push hlt)
          · refine .inl ⟨value :: more, s', by simp [hmore], hcollect, ?_⟩
            rwa [List.append_assoc] at hs'
          · exact .inr ⟨by simp [hmore], hcollect⟩

theorem collected_nil : Collected [] ⟨[], 0, 0⟩ := ⟨by decide, by decide, rfl⟩

end Base32

/-! ### The inverse of the encoding -/

/-- The base32 encoding of RFC 4648, lowercase and without its padding character. -/
def base32Encode (octets : Bytes) : Bytes :=
  (BitString.regroup 8 5 (octets.map UInt8.toNat)).map fun value => base32Symbol (UInt8.ofNat value)

theorem octetBits_length (octets : Bytes) : (octetBits octets).length = 8 * octets.length := by
  simp [octetBits]

theorem octetBits_inj {octets octets' : Bytes} {rest rest' : List Bool} (hrest : rest.length < 8)
    (hrest' : rest'.length < 8) (h : octetBits octets ++ rest = octetBits octets' ++ rest') :
    octets = octets' := by
  have hoctets : ∀ (os : Bytes), ∀ d ∈ os.map UInt8.toNat, d < 2 ^ 8 := by
    intro os d hd
    obtain ⟨octet, -, rfl⟩ := List.mem_map.mp hd
    exact octet.toNat_lt
  have hback := BitString.digits_concat (Nat.succ_pos 7) (hoctets octets) hrest
  have hback' := BitString.digits_concat (Nat.succ_pos 7) (hoctets octets') hrest'
  rw [octetBits, octetBits] at h
  rw [h, hback'] at hback
  exact (List.map_injective_iff.mpr fun _ _ => UInt8.toNat_inj.mp) hback.symm

theorem mapM_base32Value {text values : Bytes} :
    text.mapM base32Value = some values ↔
      (∀ value ∈ values, value.toNat < 32) ∧ values.map base32Symbol = text := by
  induction text generalizing values with
  | nil =>
      constructor
      · intro h
        cases h
        exact ⟨nofun, rfl⟩
      · rintro ⟨-, h⟩
        rw [List.map_eq_nil_iff.mp h]
        rfl
  | cons byte rest ih =>
      rw [List.mapM_cons]
      constructor
      · intro h
        simp only [Option.bind_eq_bind, Option.bind_eq_some_iff, Option.pure_def,
          Option.some.injEq] at h
        obtain ⟨value, hvalue, more, hmore, rfl⟩ := h
        obtain ⟨hlt, hsymbol⟩ := base32Value_eq_some.mp hvalue
        obtain ⟨hlts, hsymbols⟩ := ih.mp hmore
        exact ⟨List.forall_mem_cons.mpr ⟨hlt, hlts⟩, by rw [List.map_cons, hsymbol, hsymbols]⟩
      · rintro ⟨hlts, hsymbols⟩
        cases values with
        | nil => cases hsymbols
        | cons value more =>
            obtain ⟨hlt, hlts⟩ := List.forall_mem_cons.mp hlts
            obtain ⟨hsymbol, hsymbols⟩ := List.cons.inj hsymbols
            rw [base32Value_eq_some.mpr ⟨hlt, hsymbol⟩, ih.mpr ⟨hlts, hsymbols⟩]
            rfl

theorem map_ofNat_toNat (octets : Bytes) : (octets.map UInt8.toNat).map UInt8.ofNat = octets := by
  rw [List.map_map]
  exact (List.map_congr_left fun octet _ => UInt8.ofNat_toNat).trans octets.map_id

/-- The symbols of the encoding stand for its digits. -/
theorem symbolBits_base32Encode (octets : Bytes) :
    ∃ values, (base32Encode octets).mapM base32Value = some values ∧ symbolBits values =
      octetBits octets ++ List.replicate (BitString.padding 5 (8 * octets.length)) false := by
  let digits := BitString.regroup 8 5 (octets.map UInt8.toNat)
  have hdigits : ∀ d ∈ digits, d < 2 ^ 5 := BitString.digits_lt 5 _
  have hsame : (digits.map UInt8.ofNat).map UInt8.toNat = digits := by
    rw [List.map_map]
    refine (List.map_congr_left fun d hd => ?_).trans digits.map_id
    exact UInt8.toNat_ofNat_of_lt' ((hdigits d hd).trans (by decide))
  refine ⟨digits.map UInt8.ofNat, mapM_base32Value.mpr ⟨?_, ?_⟩, ?_⟩
  · intro value hvalue
    have hmem := List.mem_map_of_mem (f := UInt8.toNat) hvalue
    rw [hsame] at hmem
    exact hdigits _ hmem
  · rw [List.map_map]
    rfl
  · have hconcat : BitString.concat 5 digits = _ :=
      BitString.concat_regroup (Nat.succ_pos 4) (octets.map UInt8.toNat)
    rw [List.length_map] at hconcat
    rw [symbolBits, hsame, hconcat]
    rfl

/-- On whole groups of eight symbols, decoding is the inverse of the encoding of RFC 4648. -/
theorem decodeBase32_eq_some_iff {text octets : Bytes} (h : text.length % 8 = 0) :
    decodeBase32 text = some octets ↔ octets.length % 5 = 0 ∧ base32Encode octets = text := by
  have hlength : ∀ {values : Bytes}, text.mapM base32Value = some values →
      values.length = text.length := by
    intro values hvalues
    rw [← (mapM_base32Value.mp hvalues).2, List.length_map]
  unfold decodeBase32
  obtain ⟨values, s, hvalues, hcollect, hs⟩ | ⟨hvalues, hcollect⟩ :=
    Base32.collected_nil.collect text
  · rw [List.nil_append] at hs
    rw [hcollect]
    -- no bit is left over
    have hbits := congrArg List.length hs.bits
    rw [symbolBits, BitString.length_concat, List.length_map, hlength hvalues, List.length_append,
      octetBits_length, BitString.length_encode] at hbits
    have hlt := hs.bits_lt
    have hzero : s.bits.toNat = 0 := by omega
    have hnone : s.bits = 0 := UInt8.toNat_inj.mp hzero
    have hwhole : symbolBits values = octetBits s.output := by
      rw [hs.bits, hzero, BitString.encode, List.append_nil]
    simp only [hnone, ne_eq, not_true_eq_false, false_and, if_false, Option.some.injEq]
    constructor
    · rintro rfl
      refine ⟨by omega, ?_⟩
      have hregroup : values.map UInt8.toNat =
          BitString.regroup 8 5 (s.output.map UInt8.toNat) := by
        apply BitString.eq_regroup (k := 0) ?_ (Nat.succ_pos 4)
        · rw [List.replicate_zero, List.append_nil]
          exact hwhole
        · intro d hd
          obtain ⟨value, hvalue, rfl⟩ := List.mem_map.mp hd
          exact (mapM_base32Value.mp hvalues).1 value hvalue
      rw [base32Encode, ← hregroup, ← (mapM_base32Value.mp hvalues).2, List.map_map]
      apply List.map_congr_left
      intro value _
      exact congrArg base32Symbol UInt8.ofNat_toNat
    · rintro ⟨hfive, rfl⟩
      obtain ⟨values', hvalues', hencoded⟩ := symbolBits_base32Encode octets
      cases hvalues.symm.trans hvalues'
      rw [hwhole, ← List.append_nil (octetBits s.output)] at hencoded
      refine octetBits_inj (show ([] : List Bool).length < 8 from Nat.succ_pos 7) ?_ hencoded
      rw [List.length_replicate]
      exact (BitString.padding_lt (Nat.succ_pos 4) _).trans (by decide)
  · rw [hcollect]
    constructor
    · intro h
      cases h
    · rintro ⟨-, rfl⟩
      obtain ⟨values', hvalues', -⟩ := symbolBits_base32Encode octets
      rw [hvalues] at hvalues'
      cases hvalues'

/-! ### What decoding returns -/

/-- The alphabet of RFC 4648, in lowercase. -/
def base32Alphabet : Bytes :=
  "abcdefghijklmnopqrstuvwxyz234567".toList.map fun symbol => UInt8.ofNat symbol.toNat

/-- The five-bit values of the symbols of a text, one after the other. -/
def textBits (text : Bytes) : List Bool := BitString.concat 5 (text.map base32Alphabet.idxOf)

theorem base32Value_eq (byte : UInt8) : base32Value byte =
    if byte ∈ base32Alphabet then some (UInt8.ofNat (base32Alphabet.idxOf byte)) else none := by
  have hall : ∀ n : Fin 256, base32Value (UInt8.ofNat n) =
      if UInt8.ofNat n ∈ base32Alphabet then
        some (UInt8.ofNat (base32Alphabet.idxOf (UInt8.ofNat n))) else none := by
    decide +kernel
  have hbyte := hall ⟨byte.toNat, byte.toNat_lt⟩
  rwa [UInt8.ofNat_toNat] at hbyte

/-- The values of a text are there when all its bytes are symbols, and are its bits. -/
theorem mapM_base32Value_cases (text : Bytes) :
    (∃ values, text.mapM base32Value = some values ∧ (∀ byte ∈ text, byte ∈ base32Alphabet) ∧
        symbolBits values = textBits text) ∨
      text.mapM base32Value = none ∧ ¬ ∀ byte ∈ text, byte ∈ base32Alphabet := by
  induction text with
  | nil => exact .inl ⟨[], rfl, nofun, rfl⟩
  | cons byte rest ih =>
      rw [List.mapM_cons, base32Value_eq, List.forall_mem_cons]
      by_cases hbyte : byte ∈ base32Alphabet
      · rw [if_pos hbyte]
        obtain ⟨values, hvalues, hrest, hbits⟩ | ⟨hnone, hrest⟩ := ih
        · refine .inl ⟨UInt8.ofNat (base32Alphabet.idxOf byte) :: values, by simp [hvalues],
            ⟨hbyte, hrest⟩, ?_⟩
          have hlt : base32Alphabet.idxOf byte < 256 :=
            (List.idxOf_lt_length_of_mem hbyte).trans (by decide)
          have htoNat : (UInt8.ofNat (base32Alphabet.idxOf byte)).toNat =
              base32Alphabet.idxOf byte := UInt8.toNat_ofNat_of_lt' hlt
          rw [symbolBits, BitString.concat] at hbits ⊢
          rw [List.map_cons, List.flatMap_cons, hbits, htoNat]
          rfl
        · exact .inr ⟨by simp [hnone], fun h => hrest h.2⟩
      · rw [if_neg hbyte]
        exact .inr ⟨rfl, fun h => hbyte h.1⟩

@[simp] theorem length_textBits (text : Bytes) : (textBits text).length = 5 * text.length := by
  simp [textBits]

theorem map_toNat_lt (octets : Bytes) : ∀ d ∈ octets.map UInt8.toNat, d < 2 ^ 8 := by
  intro d hd
  obtain ⟨octet, -, rfl⟩ := List.mem_map.mp hd
  exact octet.toNat_lt

/-- Decoding succeeds when all bytes are symbols and no bit of an incomplete octet is set; it gives
the complete octets of the bits. -/
theorem decodeBase32_eq_some {text octets : Bytes} :
    decodeBase32 text = some octets ↔ (∀ byte ∈ text, byte ∈ base32Alphabet) ∧
      (∀ bit ∈ (textBits text).drop (5 * text.length - 5 * text.length % 8), bit = false) ∧
      octets.map UInt8.toNat = BitString.digits 8 (textBits text) := by
  unfold decodeBase32
  obtain ⟨values, s, hvalues, hcollect, hs⟩ | ⟨hvalues, hcollect⟩ :=
    Base32.collected_nil.collect text
  · obtain ⟨values', hvalues', hsymbols, hbits⟩ | ⟨hnone, -⟩ := mapM_base32Value_cases text
    rotate_left
    · rw [hvalues] at hnone
      cases hnone
    cases hvalues.symm.trans hvalues'
    rw [List.nil_append] at hs
    rw [hcollect, ← hbits]
    have hlength := congrArg List.length hs.bits
    rw [hbits, length_textBits, List.length_append, octetBits_length, BitString.length_encode]
      at hlength
    have hlt := hs.bits_lt
    have hleft : s.bits.toNat = 5 * text.length % 8 := by omega
    have hrest : (symbolBits values).drop (5 * text.length - 5 * text.length % 8) =
        BitString.encode s.bits.toNat s.accumulator.toNat := by
      have hcut : 5 * text.length - 5 * text.length % 8 = (octetBits s.output).length := by
        rw [octetBits_length]
        omega
      rw [hs.bits, hcut, List.drop_left]
    have hdigits : BitString.digits 8 (symbolBits values) = s.output.map UInt8.toNat := by
      rw [hs.bits]
      refine BitString.digits_concat (Nat.succ_pos 7) (map_toNat_lt s.output) ?_
      rw [BitString.length_encode]
      exact hs.bits_lt
    -- with no bit left over, the accumulator is zero anyway
    have hrefused : s.bits ≠ 0 ∧ s.accumulator ≠ 0 ↔ s.accumulator.toNat ≠ 0 := by
      rw [ne_eq s.accumulator, ← UInt32.toNat_inj]
      refine ⟨fun h => h.2, fun h => ⟨fun hnone => h ?_, h⟩⟩
      have haccumulator := hs.accumulator_lt
      rwa [hnone, UInt8.toNat_zero, Nat.pow_zero, Nat.lt_one_iff] at haccumulator
    rw [hrest, hdigits, BitString.encode_all_false hs.accumulator_lt]
    dsimp only
    by_cases hzero : s.accumulator.toNat = 0
    · rw [if_neg fun h => hrefused.mp h hzero, Option.some.injEq]
      constructor
      · rintro rfl
        exact ⟨hsymbols, hzero, rfl⟩
      · rintro ⟨-, -, houtput⟩
        exact List.map_injective_iff.mpr (fun _ _ => UInt8.toNat_inj.mp) houtput.symm
    · rw [if_pos (hrefused.mpr hzero)]
      exact ⟨nofun, fun h => absurd h.2.1 hzero⟩
  · obtain ⟨values', hvalues', -⟩ | ⟨-, hsymbols⟩ := mapM_base32Value_cases text
    · rw [hvalues] at hvalues'
      cases hvalues'
    · rw [hcollect]
      exact ⟨nofun, fun h => absurd h.1 hsymbols⟩

/-! ### No overflow -/

namespace Base32
variable {s : Base32} {values : Bytes} {value : UInt8}

/-- One turn of the inner loop, unless `bits` would fall below zero or the octet it gives out has
bits that do not fit. -/
def extract? (s : Base32) : Option Base32 :=
  if 8 ≤ s.bits.toNat ∧ s.accumulator.toNat / 2 ^ (s.bits.toNat - 8) < 2 ^ 8 then some s.extract
  else none

/-- The inner loop, for as long as its condition holds. -/
def drain? : Nat → Base32 → Option Base32
  | turns, s =>
    if s.bits < 8 then some s
    else
      match turns with
      | 0 => none
      | turns + 1 => s.extract?.bind (drain? turns)

/-- What one symbol does, unless the accumulator or the bit counter would overflow. -/
def push? (s : Base32) (value : UInt8) : Option Base32 :=
  if s.accumulator.toNat * 2 ^ 5 + value.toNat < 2 ^ 32 ∧ s.bits.toNat + 5 < 2 ^ 8 then
    drain? (s.bits + 5).toNat
      { s with accumulator := (s.accumulator <<< 5) ||| value.toUInt32, bits := s.bits + 5 }
  else none

/-- The outer loop; `none` is an overflow. -/
def collect? (s : Base32) : Bytes → Option (Option Base32)
  | [] => some (some s)
  | byte :: rest =>
    match base32Value byte with
    | none => some none
    | some value => (s.push? value).bind fun s => s.collect? rest

theorem drain?_of_lt (turns : Nat) (h : s.bits.toNat < 8) : drain? turns s = some s := by
  unfold drain?
  exact if_pos (UInt8.lt_iff_toNat_lt.mpr h)

theorem drain?_eq {t : Base32} (hle : t.bits.toNat ≤ 12)
    (hlt : t.accumulator.toNat < 2 ^ t.bits.toNat) :
    drain? t.bits.toNat t = some (drain t.bits.toNat t) := by
  by_cases hfull : t.bits.toNat < 8
  · rw [drain_of_lt hfull, drain?_of_lt _ hfull]
  · obtain ⟨low, hlow⟩ := Nat.exists_eq_add_of_le (not_lt.mp hfull)
    rw [hlow] at hlt hle
    obtain ⟨hrest, -, -⟩ := extract_bits (by omega : low ≤ 4) hlow hlt
    have hoctet : t.accumulator.toNat / 2 ^ (t.bits.toNat - 8) < 2 ^ 8 := by
      rw [hlow, Nat.add_sub_cancel_left, Nat.div_lt_iff_lt_mul (Nat.two_pow_pos low),
        ← Nat.pow_add]
      exact hlt
    have hextract : t.extract? = some t.extract := if_pos ⟨not_lt.mp hfull, hoctet⟩
    rw [hlow, Nat.add_comm, drain, drain?, if_neg (by rwa [UInt8.lt_iff_toNat_lt]),
      if_pos (by rw [UInt8.le_iff_toNat_le]; exact not_lt.mp hfull), hextract, Option.bind_some,
      drain?_of_lt _ (by omega), drain_of_lt (by omega)]

/-- A symbol never overflows anything. -/
theorem Collected.push?_eq (h : Collected values s) (hvalue : value.toNat < 32) :
    s.push? value = some (s.push value) := by
  obtain ⟨hbits, hshifted, hlt⟩ := h.shifted hvalue
  have hbits_lt := h.bits_lt
  have hwide : s.accumulator.toNat * 32 + value.toNat < 2 ^ 32 :=
    hlt.trans_le (Nat.pow_le_pow_right Nat.two_pos (by omega))
  rw [push?, if_pos ⟨hwide, by omega⟩, Base32.push]
  refine drain?_eq (t := { s with
    accumulator := (s.accumulator <<< 5) ||| value.toUInt32, bits := s.bits + 5 }) ?_ ?_
  · rw [hbits]
    omega
  · rw [hshifted, hbits]
    exact hlt

theorem Collected.collect?_eq (h : Collected values s) (text : Bytes) :
    s.collect? text = some (s.collect text) := by
  induction text generalizing s values with
  | nil => rfl
  | cons byte rest ih =>
      rw [collect?, Base32.collect]
      cases hvalue : base32Value byte with
      | none => rfl
      | some value =>
          have hlt := (base32Value_eq_some.mp hvalue).1
          dsimp only
          rw [h.push?_eq hlt, Option.bind_some, ih (h.push hlt)]

end Base32

theorem length_base32Encode {octets : Bytes} {k : Nat} (h : octets.length = 5 * k) :
    (base32Encode octets).length = 8 * k := by
  obtain ⟨values, hvalues, hbits⟩ := symbolBits_base32Encode octets
  have hlength := congrArg List.length hbits
  have hsame := congrArg List.length (mapM_base32Value.mp hvalues).2
  rw [symbolBits, BitString.length_concat, List.length_map, List.length_append,
    octetBits_length, List.length_replicate, h] at hlength
  rw [List.length_map] at hsame
  have hnone : BitString.padding 5 (8 * (5 * k)) = 0 := by
    refine ((BitString.padding_unique (Nat.succ_pos 4)).mp ?_).symm
    change (8 * (5 * k)) % 5 = 0
    omega
  omega

/-- Whatever bits are cut into octets, some octets have their values. -/
theorem exists_octets (bits : List Bool) :
    ∃ octets : Bytes, octets.map UInt8.toNat = BitString.digits 8 bits := by
  refine ⟨(BitString.digits 8 bits).map UInt8.ofNat, ?_⟩
  rw [List.map_map]
  refine (List.map_congr_left fun d hd => ?_).trans (List.map_id _)
  exact UInt8.toNat_ofNat_of_lt' (BitString.digits_lt 8 bits d hd)

/-- `decode_base32` on every text: when it succeeds, what it returns, that on whole groups of eight
symbols it is the inverse of the encoding, and that its counters never overflow. -/
theorem decode_base32_correct :
    (∀ text, (decodeBase32 text).isSome ↔ (∀ byte ∈ text, byte ∈ base32Alphabet) ∧
      ∀ bit ∈ (textBits text).drop (5 * text.length - 5 * text.length % 8), bit = false) ∧
      (∀ text octets, decodeBase32 text = some octets → octets.length = 5 * text.length / 8 ∧
        octets.map UInt8.toNat = BitString.digits 8 (textBits text)) ∧
      (∀ k text octets, text.length = 8 * k →
        (decodeBase32 text = some octets ↔
          octets.length = 5 * k ∧ base32Encode octets = text)) ∧
      (∀ k octets, octets.length = 5 * k → (base32Encode octets).length = 8 * k) ∧
      ∀ text, Base32.collect? ⟨[], 0, 0⟩ text = some (Base32.collect ⟨[], 0, 0⟩ text) := by
  refine ⟨fun text => ⟨fun hsome => ?_, fun ⟨hsymbols, hzeros⟩ => ?_⟩,
    fun text octets hdecode => ?_, fun k text octets hlength => ?_,
    fun k octets => length_base32Encode, fun text => Base32.collected_nil.collect?_eq text⟩
  · obtain ⟨octets, hdecode⟩ := Option.isSome_iff_exists.mp hsome
    obtain ⟨hsymbols, hzeros, -⟩ := decodeBase32_eq_some.mp hdecode
    exact ⟨hsymbols, hzeros⟩
  · obtain ⟨octets, hoctets⟩ := exists_octets (textBits text)
    rw [decodeBase32_eq_some.mpr ⟨hsymbols, hzeros, hoctets⟩]
    rfl
  · have hoctets := (decodeBase32_eq_some.mp hdecode).2.2
    have hlength := congrArg List.length hoctets
    rw [List.length_map, BitString.length_digits, length_textBits] at hlength
    exact ⟨hlength, hoctets⟩
  · rw [decodeBase32_eq_some_iff (by omega)]
    constructor
    · rintro ⟨hfive, rfl⟩
      obtain ⟨c, hc⟩ := Nat.dvd_of_mod_eq_zero hfive
      rw [length_base32Encode hc] at hlength
      exact ⟨by omega, rfl⟩
    · rintro ⟨hlength, rfl⟩
      exact ⟨by omega, rfl⟩

end Uri

end Veilroom
