import Veilroom.Uri.Invitation

/-!
The base64 coding of the token: RFC 4648 with the URL-safe alphabet and no padding, and an engine
that reads exactly what it writes.
-/
namespace Veilroom
namespace Uri

def base64Alphabet : List Char :=
  "ABCDEFGHIJKLMNOPQRSTUVWXYZabcdefghijklmnopqrstuvwxyz0123456789-_".toList

/-- The URL-safe base64 encoding of RFC 4648, without padding. -/
def base64Encode (octets : Bytes) : List Char :=
  (BitString.regroup 8 6 (octets.map UInt8.toNat)).map fun value => base64Alphabet.getD value 'A'

/-- The documented behaviour of `URL_SAFE_NO_PAD`: it encodes as RFC 4648 says, and accepts no other
text, be it padded or with stray bits at its end. -/
structure Codecs.Strict (C : Codecs) : Prop where
  encodeToken : ∀ octets, C.encodeToken octets = base64Encode octets
  decodeToken : ∀ text octets, C.decodeToken text = some octets ↔ base64Encode octets = text

theorem mem_base64Encode {octets : Bytes} {c : Char} (h : c ∈ base64Encode octets) :
    c ∈ base64Alphabet := by
  obtain ⟨value, hvalue, rfl⟩ := List.mem_map.mp h
  have hlt : value < base64Alphabet.length := BitString.digits_lt 6 _ value hvalue
  rw [List.getD_eq_getElem?_getD, List.getElem?_eq_getElem hlt]
  exact List.getElem_mem hlt

theorem base64Encode_ne_nil {octets : Bytes} (h : octets ≠ []) : base64Encode octets ≠ [] := by
  intro hnil
  rw [base64Encode, List.map_eq_nil_iff] at hnil
  have hconcat : BitString.concat 6 (BitString.regroup 8 6 (octets.map UInt8.toNat)) = _ :=
    BitString.concat_regroup (Nat.succ_pos 5) (octets.map UInt8.toNat)
  rw [hnil] at hconcat
  have hlength := congrArg List.length hconcat
  rw [List.length_append, BitString.length_concat, BitString.length_concat, List.length_map]
    at hlength
  have hpos := List.length_pos_iff.mpr h
  simp only [List.length_nil] at hlength
  omega

/-! ### An engine -/

/-- A decoder that gives out the octets of a text that is their encoding. -/
def base64Decode (text : List Char) : Option Bytes :=
  match text.mapM fun c => base64Alphabet.idxOf? c with
  | none => none
  | some values =>
    let octets := (BitString.digits 8 (BitString.concat 6 values)).map UInt8.ofNat
    if base64Encode octets = text then some octets else none

theorem mapM_idxOf {values : List Nat} (h : ∀ value ∈ values, value < 64) :
    (values.map fun value => base64Alphabet.getD value 'A').mapM
      (fun c => base64Alphabet.idxOf? c) = some values := by
  have hsymbol : ∀ value < 64,
      base64Alphabet.idxOf? (base64Alphabet.getD value 'A') = some value := by
    decide +kernel
  induction values with
  | nil => rfl
  | cons value values ih =>
      obtain ⟨hvalue, hvalues⟩ := List.forall_mem_cons.mp h
      rw [List.map_cons, List.mapM_cons, hsymbol value hvalue, ih hvalues]
      rfl

theorem base64Decode_eq_some_iff {text : List Char} {octets : Bytes} :
    base64Decode text = some octets ↔ base64Encode octets = text := by
  constructor
  · intro h
    unfold base64Decode at h
    split at h
    · cases h
    · dsimp only at h
      split at h
      · cases h
        assumption
      · cases h
  · rintro rfl
    have hvalues : ∀ value ∈ BitString.regroup 8 6 (octets.map UInt8.toNat), value < 64 :=
      BitString.digits_lt 6 _
    have hoctets : ∀ d ∈ octets.map UInt8.toNat, d < 2 ^ 8 := by
      intro d hd
      obtain ⟨octet, -, rfl⟩ := List.mem_map.mp hd
      exact octet.toNat_lt
    have hpadding : (List.replicate (BitString.padding 6 (8 * (octets.map UInt8.toNat).length))
        false).length < 8 := by
      rw [List.length_replicate]
      exact (BitString.padding_lt (Nat.succ_pos 5) _).trans (by decide)
    have hback : BitString.digits 8 (BitString.concat 6 (BitString.regroup 8 6
        (octets.map UInt8.toNat))) = octets.map UInt8.toNat := by
      rw [BitString.concat_regroup (Nat.succ_pos 5)]
      exact BitString.digits_concat (Nat.succ_pos 7) hoctets hpadding
    unfold base64Decode
    rw [base64Encode, mapM_idxOf hvalues]
    dsimp only
    rw [hback, map_ofNat_toNat]
    exact if_pos rfl

end Uri

end Veilroom
