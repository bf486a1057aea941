import Mathlib.Data.List.Induction
import Mathlib.Tactic.Ring

/-!
Codes of values as byte strings and lists: numbers of a fixed width, and codes that end where they
say they do, so that a concatenation of them is read back one value after the other.
-/

/-! ### Big-endian numbers -/

namespace BigEndian

/-- The `width` low bytes of `n`, most significant first. -/
def encode : Nat → Nat → List UInt8
  | 0, _ => []
  | width + 1, n => encode width (n / 256) ++ [UInt8.ofNat n]

/-- The value of a big-endian byte string. -/
def decode (bytes : List UInt8) : Nat :=
  bytes.foldl (fun acc byte => acc * 256 + byte.toNat) 0

@[simp] theorem length_encode (width n : Nat) : (encode width n).length = width := by
  induction width generalizing n with
  | zero => rfl
  | succ width ih => simp [encode, ih]

theorem decode_append_singleton (bytes : List UInt8) (byte : UInt8) :
    decode (bytes ++ [byte]) = decode bytes * 256 + byte.toNat := by
  simp [decode]

theorem decode_encode_mod (width n : Nat) : decode (encode width n) = n % 256 ^ width := by
  induction width generalizing n with
  | zero => simp [encode, decode, Nat.mod_one]
  | succ width ih =>
      have hbyte : (UInt8.ofNat n).toNat = n % 256 := by simp [UInt8.toNat_ofNat']
      rw [encode, decode_append_singleton, ih, hbyte, Nat.pow_succ, Nat.mul_comm (256 ^ width),
        Nat.mod_mul]
      ring

theorem decode_encode (width n : Nat) (h : n < 256 ^ width) : decode (encode width n) = n := by
  rw [decode_encode_mod, Nat.mod_eq_of_lt h]

theorem decode_lt (bytes : List UInt8) : decode bytes < 256 ^ bytes.length := by
  induction bytes using List.reverseRecOn with
  | nil => simp [decode]
  | append_singleton bytes byte ih =>
      have hbyte : byte.toNat < 256 := byte.toNat_lt
      rw [decode_append_singleton, List.length_append, List.length_singleton, Nat.pow_succ]
      omega

theorem encode_decode (bytes : List UInt8) : encode bytes.length (decode bytes) = bytes := by
  induction bytes using List.reverseRecOn with
  | nil => rfl
  | append_singleton bytes byte ih =>
      have hbyte : byte.toNat < 256 := byte.toNat_lt
      have hhigh : (decode bytes * 256 + byte.toNat) / 256 = decode bytes := by omega
      have hlow : UInt8.ofNat (decode bytes * 256 + byte.toNat) = byte := by
        apply UInt8.toNat_inj.mp
        rw [UInt8.toNat_ofNat']
        omega
      rw [decode_append_singleton, List.length_append, List.length_singleton, encode, hhigh, ih,
        hlow]

end BigEndian

/-! ### Self-delimiting codes -/

/-- Two codes with anything after them agree only if both the values and the rests agree. -/
def Delimited {α β : Type*} (valid : α → Prop) (encode : α → List β) : Prop :=
  ∀ ⦃a b : α⦄ ⦃rest rest' : List β⦄, valid a → valid b →
    encode a ++ rest = encode b ++ rest' → a = b ∧ rest = rest'

namespace Delimited

variable {α β γ : Type*} {valid : α → Prop} {encode : α → List β}

theorem injective (h : Delimited valid encode) {a b : α} (ha : valid a) (hb : valid b)
    (heq : encode a = encode b) : a = b := by
  have hnil : encode a ++ [] = encode b ++ [] := by rw [heq]
  exact (h ha hb hnil).1

/-- An injective encoding of a fixed width delimits itself. -/
theorem of_length (width : Nat) (hlength : ∀ a, valid a → (encode a).length = width)
    (hinj : ∀ a b, valid a → valid b → encode a = encode b → a = b) :
    Delimited valid encode := by
  intro a b rest rest' ha hb h
  have hwidth : (encode a).length = (encode b).length := by rw [hlength a ha, hlength b hb]
  obtain ⟨hcode, hrest⟩ := List.append_inj h hwidth
  exact ⟨hinj a b ha hb hcode, hrest⟩

/-- A string after its own length. -/
theorem prefixed {count : Nat → List β} {limit : Nat} (h : Delimited (fun n => n < limit) count) :
    Delimited (fun content : List β => content.length < limit)
      (fun content => count content.length ++ content) := by
  intro a b rest rest' ha hb heq
  simp only [List.append_assoc] at heq
  obtain ⟨hlength, hrest⟩ := h ha hb heq
  exact List.append_inj hrest hlength

theorem comap (h : Delimited valid encode) {f : γ → α} (hf : Function.Injective f) :
    Delimited (fun c => valid (f c)) (fun c => encode (f c)) := by
  intro a b rest rest' ha hb heq
  obtain ⟨hvalue, hrest⟩ := h ha hb heq
  exact ⟨hf hvalue, hrest⟩

/-- Any number of nonempty codes, one after the other up to the end of the input. -/
theorem flatMap_injective (h : Delimited valid encode) (hne : ∀ a, valid a → encode a ≠ [])
    {as bs : List α} (has : ∀ a ∈ as, valid a) (hbs : ∀ b ∈ bs, valid b)
    (heq : as.flatMap encode = bs.flatMap encode) : as = bs := by
  induction as generalizing bs with
  | nil =>
      cases bs with
      | nil => rfl
      | cons b bs => simp [hne b (hbs b List.mem_cons_self)] at heq
  | cons a as ih =>
      cases bs with
      | nil => simp [hne a (has a List.mem_cons_self)] at heq
      | cons b bs =>
          simp only [List.flatMap_cons] at heq
          obtain ⟨rfl, hrest⟩ :=
            h (has a List.mem_cons_self) (hbs b List.mem_cons_self) heq
          rw [ih (fun a ha => has a (List.mem_cons_of_mem _ ha))
            (fun b hb => hbs b (List.mem_cons_of_mem _ hb)) hrest]

end Delimited
