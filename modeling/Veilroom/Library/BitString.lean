import Mathlib.Data.List.Induction
import Mathlib.Tactic.Ring

/-!
Bit strings, most significant bit first, and digits of a fixed width cut out of them.

Regrouping the bits of octets into digits of another width, padded with zeros, is what the base32
and base64 codings have in common.
-/
namespace BitString

/-- The `width` low bits of `n`. -/
def encode : Nat → Nat → List Bool
  | 0, _ => []
  | width + 1, n => encode width (n / 2) ++ [n % 2 == 1]

/-- The value of a bit string. -/
def decode (bits : List Bool) : Nat :=
  bits.foldl (fun acc bit => acc * 2 + bit.toNat) 0

@[simp] theorem length_encode (width n : Nat) : (encode width n).length = width := by
  induction width generalizing n with
  | zero => rfl
  | succ width ih => simp [encode, ih]

theorem decode_append_singleton (bits : List Bool) (bit : Bool) :
    decode (bits ++ [bit]) = decode bits * 2 + bit.toNat := by
  simp [decode]

theorem decode_encode {width n : Nat} (h : n < 2 ^ width) : decode (encode width n) = n := by
  induction width generalizing n with
  | zero => simp [encode, decode, Nat.lt_one_iff.mp h]
  | succ width ih =>
      rw [Nat.pow_succ] at h
      rw [encode, decode_append_singleton, ih (by omega)]
      obtain hbit | hbit := Nat.mod_two_eq_zero_or_one n
      · simp only [hbit]
        change n / 2 * 2 + 0 = n
        omega
      · simp only [hbit]
        change n / 2 * 2 + 1 = n
        omega

theorem decode_lt (bits : List Bool) : decode bits < 2 ^ bits.length := by
  induction bits using List.reverseRecOn with
  | nil => simp [decode]
  | append_singleton bits bit ih =>
      have hbit : bit.toNat < 2 := bit.toNat_lt
      rw [decode_append_singleton, List.length_append, List.length_singleton, Nat.pow_succ]
      omega

theorem encode_decode (bits : List Bool) : encode bits.length (decode bits) = bits := by
  induction bits using List.reverseRecOn with
  | nil => rfl
  | append_singleton bits bit ih =>
      have hhigh : (decode bits * 2 + bit.toNat) / 2 = decode bits := by
        have hbit : bit.toNat < 2 := bit.toNat_lt
        omega
      have hlow : ((decode bits * 2 + bit.toNat) % 2 == 1) = bit := by
        cases bit <;> simp
      rw [decode_append_singleton, List.length_append, List.length_singleton, encode, hhigh, ih,
        hlow]

theorem encode_zero (width : Nat) : encode width 0 = List.replicate width false := by
  induction width with
  | zero => rfl
  | succ width ih =>
      rw [encode, Nat.zero_div, ih, List.replicate_succ']
      rfl

/-- Only zero is written with zeros. -/
theorem encode_all_false {width n : Nat} (h : n < 2 ^ width) :
    (∀ bit ∈ encode width n, bit = false) ↔ n = 0 := by
  constructor
  · intro hfalse
    have hzeros : encode width n = encode width 0 := by
      rw [encode_zero, List.eq_replicate_iff]
      exact ⟨length_encode width n, hfalse⟩
    rw [← decode_encode h, hzeros, decode_encode (Nat.two_pow_pos width)]
  · rintro rfl
    rw [encode_zero]
    exact fun bit => List.eq_of_mem_replicate

/-- The last bits of an encoding are the encoding of the remainder. -/
theorem encode_add (high low n : Nat) :
    encode (high + low) n = encode high (n / 2 ^ low) ++ encode low (n % 2 ^ low) := by
  induction low generalizing n with
  | zero => simp [encode]
  | succ low ih =>
      have hhigh : n / 2 / 2 ^ low = n / 2 ^ (low + 1) := by
        rw [Nat.div_div_eq_div_mul, Nat.pow_succ, Nat.mul_comm]
      have hlow : n % 2 ^ (low + 1) / 2 = n / 2 % 2 ^ low := by
        rw [Nat.pow_succ, Nat.mul_comm, Nat.mod_mul]
        omega
      have hbit : n % 2 ^ (low + 1) % 2 = n % 2 :=
        Nat.mod_mod_of_dvd n (Dvd.intro_left (2 ^ low) (Nat.pow_succ 2 low).symm)
      rw [← Nat.add_assoc, encode, ih, encode, hhigh, hlow, hbit, List.append_assoc]

/-! ### Digits of a width -/

variable {width : Nat}

/-- Digits one after the other. -/
def concat (width : Nat) (digits : List Nat) : List Bool := digits.flatMap (encode width)

@[simp] theorem length_concat (width : Nat) (digits : List Nat) :
    (concat width digits).length = width * digits.length := by
  induction digits with
  | nil => rfl
  | cons digit digits ih =>
      rw [concat, List.flatMap_cons, List.length_append, length_encode, ← concat, ih,
        List.length_cons]
      ring

/-- The digits of a bit string; a last incomplete digit is dropped. -/
def digits (width : Nat) (bits : List Bool) : List Nat :=
  (List.range (bits.length / width)).map fun i => decode ((bits.drop (width * i)).take width)

@[simp] theorem length_digits (width : Nat) (bits : List Bool) :
    (digits width bits).length = bits.length / width := by
  simp [digits]

theorem digits_of_lt {bits : List Bool} (h : bits.length < width) : digits width bits = [] := by
  rw [digits, Nat.div_eq_of_lt h]
  rfl

theorem digits_append (hwidth : 0 < width) {block : List Bool} (h : block.length = width)
    (rest : List Bool) : digits width (block ++ rest) = decode block :: digits width rest := by
  have hcount : (block ++ rest).length / width = rest.length / width + 1 := by
    rw [List.length_append, h, Nat.add_div_left _ hwidth]
  rw [digits, hcount, List.range_succ_eq_map, List.map_cons, List.map_map, digits]
  congr 1
  · rw [Nat.mul_zero, List.drop_zero, ← h, List.take_left]
  · apply List.map_congr_left
    intro i _
    have hdrop : (block ++ rest).drop (width * (i + 1)) = rest.drop (width * i) := by
      rw [Nat.mul_succ, Nat.add_comm, ← List.drop_drop, ← h, List.drop_left]
    simp only [Function.comp_apply, Nat.succ_eq_add_one, hdrop]

/-- Digits are read back from where they were written. -/
theorem digits_concat (hwidth : 0 < width) {ds : List Nat} (hds : ∀ d ∈ ds, d < 2 ^ width)
    {rest : List Bool} (hrest : rest.length < width) :
    digits width (concat width ds ++ rest) = ds := by
  induction ds with
  | nil => exact digits_of_lt hrest
  | cons d ds ih =>
      obtain ⟨hd, hds⟩ := List.forall_mem_cons.mp hds
      rw [concat, List.flatMap_cons, List.append_assoc,
        digits_append hwidth (length_encode width d), decode_encode hd, ← concat, ih hds]

theorem digits_lt (width : Nat) (bits : List Bool) : ∀ d ∈ digits width bits, d < 2 ^ width := by
  intro d hd
  obtain ⟨i, -, rfl⟩ := List.mem_map.mp hd
  have hlt := decode_lt ((bits.drop (width * i)).take width)
  have hle : ((bits.drop (width * i)).take width).length ≤ width := List.length_take_le _ _
  exact hlt.trans_le (Nat.pow_le_pow_right Nat.two_pos hle)

/-- Writing the digits of a bit string gives back all of it but the incomplete digit. -/
theorem concat_digits (hwidth : 0 < width) (bits : List Bool) :
    concat width (digits width bits) = bits.take (width * (bits.length / width)) := by
  generalize hcount : bits.length / width = count
  induction count generalizing bits with
  | zero =>
      rw [digits, hcount]
      rfl
  | succ count ih =>
      have hle : width ≤ bits.length := by
        by_contra hlt
        rw [Nat.div_eq_of_lt (not_le.mp hlt)] at hcount
        cases hcount
      have hblock : (bits.take width).length = width := List.length_take_of_le hle
      have hrest : (bits.drop width).length / width = count := by
        have hsplit : bits.length = bits.length - width + width := (Nat.sub_add_cancel hle).symm
        rw [hsplit, Nat.add_div_right _ hwidth] at hcount
        rw [List.length_drop, Nat.succ.inj hcount]
      have hdigits : digits width bits =
          decode (bits.take width) :: digits width (bits.drop width) := by
        rw [← digits_append hwidth hblock, List.take_append_drop]
      have hencode : encode width (decode (bits.take width)) = bits.take width := by
        have hback := encode_decode (bits.take width)
        rwa [hblock] at hback
      rw [hdigits, concat, List.flatMap_cons, ← concat, ih (bits.drop width) hrest, hencode,
        Nat.mul_succ, Nat.add_comm, List.take_add]

/-! ### Regrouping -/

/-- How many zeros complete the last digit of a bit string. -/
def padding (width length : Nat) : Nat := (width - length % width) % width

theorem padding_lt (hwidth : 0 < width) (length : Nat) : padding width length < width :=
  Nat.mod_lt _ hwidth

theorem padding_unique {length k : Nat} (hk : k < width) :
    (length + k) % width = 0 ↔ k = padding width length := by
  have hlt := Nat.mod_lt length (Nat.zero_lt_of_lt hk)
  rw [padding, Nat.add_mod, Nat.mod_eq_of_lt hk]
  by_cases hzero : length % width = 0
  · rw [hzero, Nat.zero_add, Nat.sub_zero, Nat.mod_self, Nat.mod_eq_of_lt hk]
  · rw [Nat.mod_eq_of_lt (show width - length % width < width by omega)]
    constructor
    · intro h
      obtain ⟨c, hc⟩ := Nat.dvd_of_mod_eq_zero h
      obtain rfl | rfl | hc' : c = 0 ∨ c = 1 ∨ 2 ≤ c := by omega
      · omega
      · omega
      · have hle := Nat.mul_le_mul_left width hc'
        omega
    · intro h
      rw [show length % width + k = width by omega, Nat.mod_self]

/-- The digits of a width that the bits of digits of another width make up, with zeros at the
end where the last one is incomplete. -/
def regroup (source target : Nat) (ds : List Nat) : List Nat :=
  digits target (concat source ds ++
    List.replicate (padding target (source * ds.length)) false)

theorem concat_regroup {source target : Nat} (htarget : 0 < target) (ds : List Nat) :
    concat target (regroup source target ds) =
      concat source ds ++ List.replicate (padding target (source * ds.length)) false := by
  have hmod := (padding_unique (padding_lt htarget (source * ds.length))).mpr rfl
  rw [regroup, concat_digits htarget]
  apply List.take_of_length_le
  rw [List.length_append, length_concat, List.length_replicate,
    Nat.mul_div_cancel' (Nat.dvd_of_mod_eq_zero hmod)]

/-- The digits of a width are told by their bits, up to less than a digit of zeros. -/
theorem eq_regroup {source target k : Nat} {ds ds' : List Nat}
    (hds' : ∀ d ∈ ds', d < 2 ^ target) (hk : k < target)
    (h : concat target ds' = concat source ds ++ List.replicate k false) :
    ds' = regroup source target ds := by
  have hlength := congrArg List.length h
  rw [length_concat, List.length_append, length_concat, List.length_replicate] at hlength
  have hpadding : k = padding target (source * ds.length) := by
    apply (padding_unique hk).mp
    rw [← hlength, Nat.mul_mod_right]
  rw [regroup, ← hpadding, ← h]
  have hback : digits target (concat target ds' ++ []) = ds' :=
    digits_concat (Nat.zero_lt_of_lt hk) hds' (Nat.zero_lt_of_lt hk)
  rw [List.append_nil] at hback
  exact hback.symm

end BitString
