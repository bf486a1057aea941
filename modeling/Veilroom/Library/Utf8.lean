import Mathlib.Algebra.GroupWithZero.Nat
import Mathlib.Data.List.Induction
import Mathlib.Tactic.Common

/-!
Texts with byte offsets.

A text is the list of its characters; an offset counts the bytes of its UTF-8
encoding, and what is asked for at an offset inside a character is not there
(`splitAt?`). The bytes alone tell such offsets: the byte there continues a
character (`IsCharBoundary`).
-/
namespace Utf8

/-- How many bytes a text takes. -/
def size (text : List Char) : Nat := (text.map Char.utf8Size).sum

/-- The bytes of a text. -/
def encode (text : List Char) : List UInt8 := text.flatMap String.utf8EncodeChar

/-- A byte that does not begin a character. -/
def continues (byte : UInt8) : Bool := byte &&& 0b11000000 == 0b10000000

/-- The end of a text, or a byte of it that begins a character. -/
def IsCharBoundary (text : List Char) (offset : Nat) : Prop :=
  offset = size text ∨ ∃ byte, (encode text)[offset]? = some byte ∧ continues byte = false

/-- The text before and after a byte offset. -/
def splitAt? : List Char → Nat → Option (List Char × List Char)
  | text, 0 => some ([], text)
  | [], _ + 1 => none
  | ch :: text, offset + 1 =>
    if ch.utf8Size ≤ offset + 1 then
      (splitAt? text (offset + 1 - ch.utf8Size)).map fun (before, after) => (ch :: before, after)
    else none

/-- The text with a character inserted at a byte offset. -/
def insert? (text : List Char) (offset : Nat) (ch : Char) : Option (List Char) :=
  (splitAt? text offset).map fun (before, after) => before ++ ch :: after

/-- The text up to a byte offset. -/
def sliceTo? (text : List Char) (stop : Nat) : Option (List Char) :=
  (splitAt? text stop).map Prod.fst

/-- The text from a byte offset on. -/
def sliceFrom? (text : List Char) (start : Nat) : Option (List Char) :=
  (splitAt? text start).map Prod.snd

/-- The text between two byte offsets. -/
def slice? (text : List Char) (start stop : Nat) : Option (List Char) :=
  (sliceTo? text stop).bind fun before => sliceFrom? before start

/-- The text without what is between two byte offsets. -/
def drain? (text : List Char) (start stop : Nat) : Option (List Char) :=
  (splitAt? text stop).bind fun (before, after) => (sliceTo? before start).map (· ++ after)

/-- The characters of a text with the offsets they begin at, counted from `offset`. -/
def charIndicesFrom (offset : Nat) : List Char → List (Nat × Char)
  | [] => []
  | ch :: text => (offset, ch) :: charIndicesFrom (offset + ch.utf8Size) text

def charIndices (text : List Char) : List (Nat × Char) := charIndicesFrom 0 text

/-! ### Sizes -/

@[simp] theorem size_nil : size [] = 0 := rfl

@[simp] theorem size_cons (ch : Char) (text : List Char) :
    size (ch :: text) = ch.utf8Size + size text := rfl

@[simp] theorem size_append (text text' : List Char) :
    size (text ++ text') = size text + size text' := by
  simp [size]

theorem size_eq_zero {text : List Char} : size text = 0 ↔ text = [] := by
  cases text with
  | nil => simp
  | cons ch text =>
      have hpos := ch.utf8Size_pos
      simp only [size_cons, reduceCtorEq, iff_false]
      omega

theorem size_le_of_sublist {text text' : List Char} (h : text.Sublist text') :
    size text ≤ size text' := by
  induction h with
  | slnil => exact Nat.le_refl _
  | cons ch _ ih =>
      rw [size_cons]
      omega
  | cons_cons ch _ ih =>
      rw [size_cons, size_cons]
      omega

/-- Of two texts that begin another one, the one of fewer bytes begins the other. -/
theorem prefix_of_size_le {text text' whole : List Char} (h : text <+: whole) (h' : text' <+: whole)
    (hsize : size text ≤ size text') : text <+: text' := by
  obtain hbegins | ⟨more, rfl⟩ := List.prefix_or_prefix_of_prefix h h'
  · exact hbegins
  · rw [size_append] at hsize
    have hmore : more = [] := size_eq_zero.mp (by omega)
    simp [hmore]

@[simp] theorem encode_nil : encode [] = [] := rfl

@[simp] theorem encode_cons (ch : Char) (text : List Char) :
    encode (ch :: text) = String.utf8EncodeChar ch ++ encode text := rfl

@[simp] theorem encode_append (text text' : List Char) :
    encode (text ++ text') = encode text ++ encode text' :=
  List.flatMap_append

@[simp] theorem length_encode (text : List Char) : (encode text).length = size text := by
  induction text with
  | nil => rfl
  | cons ch text ih =>
      rw [encode_cons, List.length_append, String.length_utf8EncodeChar, ih, size_cons]

theorem utf8ByteSize_ofList (text : List Char) : (String.ofList text).utf8ByteSize = size text := by
  change (encode text).toByteArray.size = _
  rw [List.size_toByteArray, length_encode]

theorem encode_eq_nil {text : List Char} : encode text = [] ↔ text = [] := by
  rw [← List.length_eq_zero_iff, length_encode, size_eq_zero]

/-- The bytes of a text are the ones its string has. -/
theorem isValidUTF8_encode (text : List Char) : (encode text).toByteArray.IsValidUTF8 :=
  ⟨text, rfl⟩

/-! ### Bytes that begin and bytes that continue a character -/

private theorem continues_tail : ∀ k < 64, continues (UInt8.ofNat (k + 0x80)) = true := by
  decide

private theorem continues_ascii : ∀ k < 128, continues (UInt8.ofNat k) = false := by
  decide

private theorem continues_head : ∀ k < 64, continues (UInt8.ofNat (k + 0xc0)) = false := by
  decide

/-- A character is one byte that begins it and some that continue it. -/
theorem utf8EncodeChar_shape (ch : Char) : ∃ first rest,
    String.utf8EncodeChar ch = first :: rest ∧ continues first = false ∧
      ∀ byte ∈ rest, continues byte = true := by
  have htail (n : Nat) : continues (UInt8.ofNat (n % 64 + 0x80)) = true :=
    continues_tail _ (Nat.mod_lt _ (by omega))
  unfold String.utf8EncodeChar
  dsimp only
  split
  · rename_i hascii
    exact ⟨_, _, rfl, continues_ascii _ (by omega), by simp⟩
  split
  · refine ⟨_, _, rfl, continues_head _ (by omega), ?_⟩
    simp only [List.forall_mem_cons, htail]
    simp
  split
  · refine ⟨_, _, rfl, continues_head (ch.val.toNat / 4096 % 16 + 0x20) (by omega), ?_⟩
    simp only [List.forall_mem_cons, htail]
    simp
  · refine ⟨_, _, rfl, continues_head (ch.val.toNat / 262144 % 8 + 0x30) (by omega), ?_⟩
    simp only [List.forall_mem_cons, htail]
    simp

/-- As many bytes begin a character as there are characters. -/
theorem countP_continues (text : List Char) :
    (encode text).countP (fun byte => !continues byte) = text.length := by
  induction text with
  | nil => rfl
  | cons ch text ih =>
      obtain ⟨first, rest, hch, hfirst, hrest⟩ := utf8EncodeChar_shape ch
      have hnone : rest.countP (fun byte => !continues byte) = 0 := by
        rw [List.countP_eq_zero]
        intro byte hbyte
        simp [hrest byte hbyte]
      rw [encode_cons, hch, List.countP_append, List.countP_cons_of_pos (by simp [hfirst]), hnone,
        ih, List.length_cons]
      omega

/-- From the end of a text back, the bytes that continue a character are all of the last one's but
its first. -/
theorem takeWhile_continues (text : List Char) (ch : Char) :
    ((encode (text ++ [ch])).reverse.takeWhile continues).length + 1 = ch.utf8Size := by
  obtain ⟨first, rest, hch, hfirst, hrest⟩ := utf8EncodeChar_shape ch
  have hsize := String.length_utf8EncodeChar ch
  rw [hch, List.length_cons] at hsize
  have hall : ∀ byte ∈ rest.reverse, continues byte = true := by
    intro byte hbyte
    exact hrest byte (List.mem_reverse.mp hbyte)
  rw [encode_append, encode_cons, encode_nil, List.append_nil, hch, List.reverse_append,
    List.reverse_cons, List.append_assoc, List.takeWhile_append_of_pos hall, List.singleton_append,
    List.takeWhile_cons_of_neg (by simp [hfirst]), List.append_nil, List.length_reverse, hsize]

/-! ### Offsets -/

theorem splitAt?_eq_some {text before after : List Char} {offset : Nat} :
    splitAt? text offset = some (before, after) ↔
      text = before ++ after ∧ size before = offset := by
  fun_induction splitAt? text offset generalizing before after with
  | case1 text =>
      simp only [Option.some.injEq, Prod.mk.injEq]
      constructor
      · rintro ⟨rfl, rfl⟩
        exact ⟨rfl, rfl⟩
      · rintro ⟨rfl, hsize⟩
        rw [size_eq_zero.mp hsize]
        exact ⟨rfl, rfl⟩
  | case2 offset =>
      simp only [reduceCtorEq, false_iff, not_and]
      intro htext hsize
      rw [(List.append_eq_nil_iff.mp htext.symm).1] at hsize
      cases hsize
  | case3 ch text offset hle ih =>
      constructor
      · intro hsplit
        obtain ⟨⟨before', after'⟩, hrest, heq⟩ := Option.map_eq_some_iff.mp hsplit
        cases heq
        obtain ⟨rfl, hsize⟩ := ih.mp hrest
        refine ⟨rfl, ?_⟩
        rw [size_cons, hsize]
        omega
      · rintro ⟨htext, hsize⟩
        cases before with
        | nil => cases hsize
        | cons ch' before =>
            cases htext
            rw [size_cons] at hsize
            rw [ih.mpr ⟨rfl, by omega⟩]
            rfl
  | case4 ch text offset hlt =>
      simp only [reduceCtorEq, false_iff, not_and]
      intro htext hsize
      cases before with
      | nil => cases hsize
      | cons ch' before =>
          cases htext
          rw [size_cons] at hsize
          omega

@[simp] theorem splitAt?_size (before after : List Char) :
    splitAt? (before ++ after) (size before) = some (before, after) :=
  splitAt?_eq_some.mpr ⟨rfl, rfl⟩

/-- A text can be split where its bytes say so. -/
theorem isSome_splitAt? (text : List Char) (offset : Nat) :
    (splitAt? text offset).isSome ↔ IsCharBoundary text offset := by
  unfold IsCharBoundary
  fun_induction splitAt? text offset with
  | case1 text =>
      simp only [Option.isSome_some, true_iff]
      cases text with
      | nil => exact .inl rfl
      | cons ch text =>
          obtain ⟨first, rest, hch, hfirst, -⟩ := utf8EncodeChar_shape ch
          exact .inr ⟨first, by rw [encode_cons, hch]; rfl, hfirst⟩
  | case2 offset => simp
  | case3 ch text offset hle ih =>
      have hlength : (String.utf8EncodeChar ch).length ≤ offset + 1 := by
        rwa [String.length_utf8EncodeChar]
      rw [Option.isSome_map, ih, encode_cons, List.getElem?_append_right hlength,
        String.length_utf8EncodeChar, size_cons]
      refine or_congr_left ?_
      omega
  | case4 ch text offset hlt =>
      obtain ⟨first, rest, hch, -, hrest⟩ := utf8EncodeChar_shape ch
      have hlength := String.length_utf8EncodeChar ch
      simp only [Option.isSome_none, Bool.false_eq_true, size_cons, false_iff, not_or, not_exists,
        not_and, Bool.not_eq_false]
      refine ⟨by omega, fun byte hbyte => ?_⟩
      rw [encode_cons, List.getElem?_append_left (by omega), hch, List.getElem?_cons_succ] at hbyte
      exact hrest byte (List.mem_of_getElem? hbyte)

theorem isCharBoundary_size (before after : List Char) :
    IsCharBoundary (before ++ after) (size before) := by
  rw [← isSome_splitAt?, splitAt?_size]
  rfl

@[simp] theorem insert?_size (before after : List Char) (ch : Char) :
    insert? (before ++ after) (size before) ch = some (before ++ ch :: after) := by
  simp [insert?]

@[simp] theorem sliceTo?_size (before after : List Char) :
    sliceTo? (before ++ after) (size before) = some before := by
  simp [sliceTo?]

@[simp] theorem sliceFrom?_size (before after : List Char) :
    sliceFrom? (before ++ after) (size before) = some after := by
  simp [sliceFrom?]

theorem slice?_size (before between after : List Char) :
    slice? (before ++ between ++ after) (size before) (size (before ++ between)) =
      some between := by
  rw [slice?, sliceTo?_size, Option.bind_some, sliceFrom?_size]

/-- What stands between two boundaries is drained. -/
theorem drain?_size (before between after : List Char) :
    drain? (before ++ between ++ after) (size before) (size (before ++ between)) =
      some (before ++ after) := by
  rw [drain?, splitAt?_size, Option.bind_some]
  dsimp only
  rw [sliceTo?_size]
  rfl

@[simp] theorem drain?_char (before : List Char) (ch : Char) (after : List Char) :
    drain? (before ++ ch :: after) (size before) (size before + ch.utf8Size) =
      some (before ++ after) := by
  simpa using drain?_size before [ch] after

/-! ### Where characters begin -/

theorem charIndicesFrom_append (offset : Nat) (text text' : List Char) :
    charIndicesFrom offset (text ++ text') =
      charIndicesFrom offset text ++ charIndicesFrom (offset + size text) text' := by
  induction text generalizing offset with
  | nil => rfl
  | cons ch text ih =>
      rw [List.cons_append, charIndicesFrom, ih, size_cons, ← Nat.add_assoc]
      rfl

theorem charIndices_concat (text : List Char) (ch : Char) :
    charIndices (text ++ [ch]) = charIndices text ++ [(size text, ch)] := by
  rw [charIndices, charIndicesFrom_append, Nat.zero_add]
  rfl

/-- The last character begins where the rest of the text ends. -/
theorem getLast?_charIndices (text : List Char) (ch : Char) :
    (charIndices (text ++ [ch])).getLast? = some (size text, ch) := by
  rw [charIndices_concat, List.getLast?_concat]

/-- The second character begins where the first one ends. -/
theorem charIndices_second (ch ch' : Char) (text : List Char) :
    (charIndices (ch :: ch' :: text))[1]? = some (ch.utf8Size, ch') := by
  rw [charIndices, charIndicesFrom, charIndicesFrom, Nat.zero_add]
  rfl

end Utf8
