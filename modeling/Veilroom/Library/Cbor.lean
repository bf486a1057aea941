import Veilroom.Library.Codes

/-!
Data items of RFC 8949 in their preferred form, and a reader of well-formed
heads. Tags and floats are left out.
-/
namespace Cbor

/-- The shortest head of a major type with an argument below `2 ^ 64`. -/
def head (major argument : Nat) : List UInt8 :=
  if argument < 24 then [UInt8.ofNat (major * 32 + argument)]
  else if argument < 2 ^ 8 then UInt8.ofNat (major * 32 + 24) :: BigEndian.encode 1 argument
  else if argument < 2 ^ 16 then UInt8.ofNat (major * 32 + 25) :: BigEndian.encode 2 argument
  else if argument < 2 ^ 32 then UInt8.ofNat (major * 32 + 26) :: BigEndian.encode 4 argument
  else UInt8.ofNat (major * 32 + 27) :: BigEndian.encode 8 argument

/-- How many bytes of argument follow an initial byte. -/
def width : Nat → Option Nat
  | 24 => some 1
  | 25 => some 2
  | 26 => some 4
  | 27 => some 8
  | _ => none

/-- The major type, the argument (`none` for an indefinite length) and what follows. -/
def readHead : List UInt8 → Option (Nat × Option Nat × List UInt8)
  | [] => none
  | initial :: rest =>
    let major := initial.toNat / 32
    let info := initial.toNat % 32
    if info < 24 then some (major, some info, rest)
    else if info = 31 then some (major, none, rest)
    else
      match width info with
      | none => none
      | some width =>
        if rest.length < width then none
        else some (major, some (BigEndian.decode (rest.take width)), rest.drop width)

/-- Reading a head whose argument is written out. -/
private theorem readHead_wide {major info bytes argument : Nat} (hmajor : major < 8)
    (hinfo : 24 ≤ info ∧ info < 31) (hwidth : width info = some bytes)
    (hargument : argument < 256 ^ bytes) (rest : List UInt8) :
    readHead (UInt8.ofNat (major * 32 + info) :: BigEndian.encode bytes argument ++ rest) =
      some (major, some argument, rest) := by
  have hbyte : (UInt8.ofNat (major * 32 + info)).toNat = major * 32 + info := by
    rw [UInt8.toNat_ofNat']
    omega
  have hdiv : (major * 32 + info) / 32 = major := by omega
  have hmod : (major * 32 + info) % 32 = info := by omega
  have hlength := BigEndian.length_encode bytes argument
  rw [List.cons_append, readHead]
  simp only [hbyte, hdiv, hmod]
  rw [if_neg (by omega), if_neg (by omega), hwidth]
  dsimp only
  rw [if_neg (by simp), List.take_left' hlength, List.drop_left' hlength,
    BigEndian.decode_encode _ _ hargument]

theorem length_head_le (major argument : Nat) : (head major argument).length ≤ 9 := by
  unfold head
  split
  · simp
  split
  · simp
  split
  · simp
  split
  · simp
  · simp

theorem readHead_head {major argument : Nat} (hmajor : major < 8) (hargument : argument < 2 ^ 64)
    (rest : List UInt8) :
    readHead (head major argument ++ rest) = some (major, some argument, rest) := by
  unfold head
  split
  · rename_i hsmall
    have hbyte : (UInt8.ofNat (major * 32 + argument)).toNat = major * 32 + argument := by
      rw [UInt8.toNat_ofNat']
      omega
    have hdiv : (major * 32 + argument) / 32 = major := by omega
    have hmod : (major * 32 + argument) % 32 = argument := by omega
    rw [List.singleton_append, readHead]
    simp only [hbyte, hdiv, hmod]
    rw [if_pos hsmall]
  · split
    · exact readHead_wide hmajor (by omega) rfl (by omega) rest
    · split
      · exact readHead_wide hmajor (by omega) rfl (by omega) rest
      · split
        · exact readHead_wide hmajor (by omega) rfl (by omega) rest
        · exact readHead_wide hmajor (by omega) rfl (by omega) rest

/-! ### Items -/

def uint (n : Nat) : List UInt8 := head 0 n
def byteString (content : List UInt8) : List UInt8 := head 2 content.length ++ content
def text (content : String) : List UInt8 :=
  head 3 content.utf8ByteSize ++ content.toByteArray.data.toList
def array (count : Nat) : List UInt8 := head 4 count
def map (count : Nat) : List UInt8 := head 5 count
def bool (value : Bool) : List UInt8 := [if value then 0xf5 else 0xf4]

/-- An unsigned integer below a bound. -/
def readUint (bound : Nat) (input : List UInt8) : Option (Nat × List UInt8) :=
  match readHead input with
  | some (0, some n, rest) => if n < bound then some (n, rest) else none
  | _ => none

/-- The content of a string of a major type, of definite length. -/
def readString (major : Nat) (input : List UInt8) : Option (List UInt8 × List UInt8) :=
  match readHead input with
  | some (found, some length, rest) =>
    if found = major ∧ length ≤ rest.length then some (rest.take length, rest.drop length)
    else none
  | _ => none

def readText (input : List UInt8) : Option (String × List UInt8) :=
  match readString 3 input with
  | some (content, rest) => (String.fromUTF8? ⟨content.toArray⟩).map fun text => (text, rest)
  | none => none

/-- The length of a container of a major type. -/
def readContainer (major : Nat) (input : List UInt8) : Option (Option Nat × List UInt8) :=
  match readHead input with
  | some (found, length, rest) => if found = major then some (length, rest) else none
  | none => none

def readBool : List UInt8 → Option (Bool × List UInt8)
  | 0xf4 :: rest => some (false, rest)
  | 0xf5 :: rest => some (true, rest)
  | _ => none

theorem readUint_uint {n bound : Nat} (h : n < bound) (hbound : bound ≤ 2 ^ 64)
    (rest : List UInt8) : readUint bound (uint n ++ rest) = some (n, rest) := by
  rw [readUint, uint, readHead_head (by omega) (by omega)]
  exact if_pos h

theorem readString_append {major : Nat} (hmajor : major < 8) {content : List UInt8}
    (h : content.length < 2 ^ 64) (rest : List UInt8) :
    readString major (head major content.length ++ content ++ rest) = some (content, rest) := by
  rw [List.append_assoc, readString, readHead_head hmajor h]
  dsimp only
  rw [if_pos ⟨rfl, by simp⟩, List.take_left, List.drop_left]

theorem fromUTF8?_toByteArray (content : String) :
    String.fromUTF8? ⟨content.toByteArray.data.toList.toArray⟩ = some content := by
  rw [Array.toArray_toList, String.fromUTF8?, dif_pos content.isValidUTF8]
  rfl

theorem readText_text {content : String} (h : content.utf8ByteSize < 2 ^ 64)
    (rest : List UInt8) : readText (text content ++ rest) = some (content, rest) := by
  have hlength : content.toByteArray.data.toList.length = content.utf8ByteSize := by
    rw [Array.length_toList]
    rfl
  rw [readText, text, ← hlength, readString_append (by omega) (by omega)]
  dsimp only
  rw [fromUTF8?_toByteArray]
  rfl

theorem readContainer_head {major count : Nat} (hmajor : major < 8) (h : count < 2 ^ 64)
    (rest : List UInt8) :
    readContainer major (head major count ++ rest) = some (some count, rest) := by
  rw [readContainer, readHead_head hmajor h]
  exact if_pos rfl

theorem readBool_bool (value : Bool) (rest : List UInt8) :
    readBool (bool value ++ rest) = some (value, rest) := by
  cases value <;> rfl

/-! ### The preferred form is the shortest -/

theorem length_head_small {major argument : Nat} (h : argument < 24) :
    (head major argument).length = 1 := by
  rw [head, if_pos h]
  rfl

private theorem length_head_of_width (major : Nat) {info argument bytes : Nat}
    (hwidth : width info = some bytes) (h : argument < 256 ^ bytes) :
    (head major argument).length ≤ bytes + 1 ∧ argument < 2 ^ 64 := by
  unfold width at hwidth
  unfold head
  split at hwidth <;> cases hwidth
  all_goals
    refine ⟨?_, by omega⟩
    repeat' split
    all_goals simp only [List.length_cons, List.length_nil, BigEndian.length_encode]
    all_goals omega

theorem readHead_length {input rest : List UInt8} {major : Nat} {argument : Option Nat}
    (h : readHead input = some (major, argument, rest)) :
    rest.length < input.length ∧ ∀ n, argument = some n →
      n < 2 ^ 64 ∧ ∀ major', (head major' n).length + rest.length ≤ input.length := by
  cases input with
  | nil => cases h
  | cons initial tail =>
      rw [readHead] at h
      rw [List.length_cons]
      split at h
      · rename_i hsmall
        cases h
        refine ⟨Nat.lt_succ_self _, ?_⟩
        rintro n ⟨⟩
        refine ⟨by omega, fun major' => ?_⟩
        rw [length_head_small hsmall]
        omega
      split at h
      · cases h
        exact ⟨Nat.lt_succ_self _, nofun⟩
      split at h
      · cases h
      rename_i bytes hwidth
      split at h
      · cases h
      rename_i hlength
      cases h
      rw [List.length_drop]
      refine ⟨by omega, ?_⟩
      rintro n ⟨⟩
      have hbound := BigEndian.decode_lt (tail.take bytes)
      rw [List.length_take, Nat.min_eq_left (by omega)] at hbound
      refine ⟨(length_head_of_width 0 hwidth hbound).2, fun major' => ?_⟩
      have hhead := (length_head_of_width major' hwidth hbound).1
      omega

theorem readUint_length {n bound : Nat} {input rest : List UInt8}
    (h : readUint bound input = some (n, rest)) :
    n < bound ∧ (uint n).length + rest.length ≤ input.length := by
  unfold readUint at h
  split at h
  · rename_i hhead
    split at h
    · rename_i hbound
      cases h
      exact ⟨hbound, ((readHead_length hhead).2 _ rfl).2 0⟩
    · cases h
  · cases h

theorem readString_length {major : Nat} {input content rest : List UInt8}
    (h : readString major input = some (content, rest)) :
    (head major content.length ++ content).length + rest.length ≤ input.length := by
  unfold readString at h
  split at h
  · rename_i hhead
    split at h
    · rename_i hfits
      cases h
      have hlength := ((readHead_length hhead).2 _ rfl).2 major
      rw [List.length_append, List.length_take, List.length_drop, Nat.min_eq_left hfits.2]
      omega
    · cases h
  · cases h

theorem readText_length {input rest : List UInt8} {content : String}
    (h : readText input = some (content, rest)) :
    (text content).length + rest.length ≤ input.length := by
  unfold readText at h
  split at h
  · rename_i bytes rest' hstring
    cases hutf8 : String.fromUTF8? ⟨bytes.toArray⟩ with
    | none =>
        rw [hutf8] at h
        cases h
    | some found =>
        rw [hutf8] at h
        cases h
        unfold String.fromUTF8? at hutf8
        split at hutf8
        · rename_i hvalid
          cases hutf8
          have hsize : (String.fromUTF8 ⟨bytes.toArray⟩ hvalid).utf8ByteSize = bytes.length := rfl
          have hlength := readString_length hstring
          rw [List.length_append] at hlength
          simpa [text, hsize] using hlength
        · cases hutf8
  · cases h

theorem readContainer_length {major : Nat} {input rest : List UInt8} {count : Option Nat}
    (h : readContainer major input = some (count, rest)) :
    rest.length < input.length ∧ ∀ n, count = some n →
      (head major n).length + rest.length ≤ input.length := by
  unfold readContainer at h
  split at h
  · rename_i hhead
    split at h
    · cases h
      obtain ⟨hshorter, hcount⟩ := readHead_length hhead
      exact ⟨hshorter, fun n hn => (hcount n hn).2 major⟩
    · cases h
  · cases h

theorem readBool_length {value : Bool} {input rest : List UInt8}
    (h : readBool input = some (value, rest)) :
    (bool value).length + rest.length ≤ input.length := by
  unfold readBool at h
  split at h <;> cases h
  all_goals
    rw [List.length_cons, bool, List.length_singleton]
    omega

end Cbor
