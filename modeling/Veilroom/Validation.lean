import Veilroom.Crypto.Identity

/-!
Validation of nicknames, introductions and chat text (`validation.rs`,
`error.rs`), with the fact every receiver relies on: a nickname that came out
of the validation passes it again unchanged.
-/
namespace Veilroom

inductive ValidationError
  | emptyNickname
  | controlCharacterNotAllowed
  | nicknameTooLong (max : Nat)
  | exoticWhitespaceNotAllowed
  | notSingleLine
  | introTooLong (max : Nat)
  | chatTextTooLong (maxBytes : Nat)
deriving DecidableEq, Repr

def ValidationError.toString : ValidationError → String
  | .emptyNickname => "nickname must not be empty"
  | .controlCharacterNotAllowed => "input contains control characters or ANSI escape sequences"
  | .nicknameTooLong max => s!"nickname exceeds the limit of {max} Unicode scalar values"
  | .exoticWhitespaceNotAllowed =>
      "nickname must not contain whitespace other than a plain space"
  | .notSingleLine => "introduction must be a single line"
  | .introTooLong max => s!"introduction exceeds the limit of {max} Unicode scalar values"
  | .chatTextTooLong maxBytes => s!"chat message exceeds the limit of {maxBytes} UTF-8 bytes"

/-- `char::is_control`: the category Cc. -/
def isControl (ch : Char) : Bool := ch.toNat < 0x20 || (0x7f ≤ ch.toNat && ch.toNat ≤ 0x9f)

/-- `char::is_whitespace`: the property White_Space. -/
def isWhitespace (ch : Char) : Bool :=
  (0x09 ≤ ch.toNat && ch.toNat ≤ 0x0d) || ch.toNat = 0x20 || ch.toNat = 0x85 || ch.toNat = 0xa0 ||
    ch.toNat = 0x1680 || (0x2000 ≤ ch.toNat && ch.toNat ≤ 0x200a) || ch.toNat = 0x2028 ||
    ch.toNat = 0x2029 || ch.toNat = 0x202f || ch.toNat = 0x205f || ch.toNat = 0x3000

def isDangerousFormatChar (ch : Char) : Bool :=
  (0x200b ≤ ch.toNat && ch.toNat ≤ 0x200f) || (0x202a ≤ ch.toNat && ch.toNat ≤ 0x202e) ||
    (0x2060 ≤ ch.toNat && ch.toNat ≤ 0x2064) || (0x2066 ≤ ch.toNat && ch.toNat ≤ 0x2069) ||
    ch.toNat = 0xfeff

def isUnsafeDisplayChar (ch : Char) : Bool := isControl ch || isDangerousFormatChar ch

def containsControlChar (input : List Char) : Bool := input.any isUnsafeDisplayChar

/-- The loop of `collapse_spaces`. -/
def collapseSpaces (input : List Char) : List Char :=
  ((input.splitOn ' ').filter (· ≠ [])).foldl
    (fun out word => if out = [] then word else out ++ ' ' :: word) []

/-- `validate_nickname`. -/
def validateNickname (P : Primitives) (input : String) (limits : Limits) :
    Except ValidationError String :=
  if input.isEmpty then .error .emptyNickname
  else
    let composed := P.nfc input.toList
    if containsControlChar composed then .error .controlCharacterNotAllowed
    else if composed.any fun ch => isWhitespace ch && ch ≠ ' ' then
      .error .exoticWhitespaceNotAllowed
    else
      let normalized := collapseSpaces composed
      if normalized = [] then .error .emptyNickname
      else if normalized.length > limits.maxNicknameScalars then
        .error (.nicknameTooLong limits.maxNicknameScalars)
      else .ok (String.ofList normalized)

/-- `validate_intro`. -/
def validateIntro (input : String) (limits : Limits) : Except ValidationError Unit :=
  if input.isEmpty then .ok ()
  else if input.toList.any fun ch => ch = '\n' || ch = '\r' then .error .notSingleLine
  else if containsControlChar input.toList then .error .controlCharacterNotAllowed
  else if input.toList.length > limits.maxIntroScalars then
    .error (.introTooLong limits.maxIntroScalars)
  else .ok ()

/-- `validate_chat_text`. -/
def validateChatText (input : String) (limits : Limits) : Except ValidationError Unit :=
  if containsControlChar input.toList then .error .controlCharacterNotAllowed
  else if input.utf8ByteSize > limits.maxChatTextBytes then
    .error (.chatTextTooLong limits.maxChatTextBytes)
  else .ok ()

/-! ### Collapsed spaces -/

private theorem foldl_words (out : List Char) (words : List (List Char)) (hout : out ≠ [])
    (hwords : ∀ word ∈ words, word ≠ []) :
    words.foldl (fun out word => if out = [] then word else out ++ ' ' :: word) out =
      [' '].intercalate (out :: words) := by
  induction words generalizing out with
  | nil => simp
  | cons word words ih =>
      have hnext : out ++ ' ' :: word ≠ [] := by simp
      rw [List.foldl_cons, if_neg hout, ih _ hnext fun w hw => hwords w (.tail _ hw)]
      cases words <;> simp [List.intercalate_cons_cons]

/-- Collapsing joins the non-empty words with single spaces. -/
theorem collapseSpaces_eq (input : List Char) :
    collapseSpaces input = [' '].intercalate ((input.splitOn ' ').filter (· ≠ [])) := by
  unfold collapseSpaces
  have hwords : ∀ word ∈ (input.splitOn ' ').filter (· ≠ []), word ≠ [] := by
    intro word hword
    simpa using (List.mem_filter.mp hword).2
  cases hsplit : (input.splitOn ' ').filter (· ≠ []) with
  | nil => simp
  | cons word words =>
      rw [hsplit] at hwords
      rw [List.foldl_cons, if_pos rfl]
      exact foldl_words word words (hwords word (.head _)) fun w hw => hwords w (.tail _ hw)

private theorem space_free_of_mem_splitOn (input word : List Char)
    (h : word ∈ input.splitOn ' ') : ' ' ∉ word := by
  induction input generalizing word with
  | nil =>
      rw [List.splitOn_nil, List.mem_singleton] at h
      simp [h]
  | cons ch input ih =>
      rw [List.splitOn_cons_eq_if_modifyHead] at h
      split at h
      · cases h with
        | head => simp
        | tail _ h => exact ih word h
      · rename_i hne
        cases hsplit : input.splitOn ' ' with
        | nil => exact absurd hsplit (List.splitOn_ne_nil _ _)
        | cons first rest =>
            rw [hsplit, List.modifyHead_cons] at h
            rw [hsplit] at ih
            cases h with
            | head =>
                have hfirst := ih first (.head _)
                simp only [List.mem_cons, not_or]
                exact ⟨fun heq => hne (by simp [heq.symm]), hfirst⟩
            | tail _ h => exact ih word (.tail _ h)

/-- The words of a collapsed text are the non-empty words of the text. -/
theorem collapseSpaces_collapseSpaces (input : List Char) :
    collapseSpaces (collapseSpaces input) = collapseSpaces input := by
  rw [collapseSpaces_eq (collapseSpaces input), collapseSpaces_eq input]
  by_cases hwords : (input.splitOn ' ').filter (· ≠ []) = []
  · rw [hwords]
    rfl
  · rw [List.splitOn_intercalate ' ' _ hwords]
    · rw [List.filter_filter]
      simp
    · intro word hword
      exact space_free_of_mem_splitOn input word (List.mem_filter.mp hword).1

private theorem mem_intercalate_space {ch : Char} {words : List (List Char)}
    (h : ch ∈ [' '].intercalate words) : ch = ' ' ∨ ∃ word ∈ words, ch ∈ word := by
  induction words with
  | nil => cases h
  | cons word words ih =>
      cases words with
      | nil => exact .inr ⟨word, .head _, by simpa using h⟩
      | cons next words =>
          simp only [List.intercalate_cons_cons, List.mem_append, List.mem_singleton] at h
          obtain (h | h) | h := h
          · exact .inr ⟨word, .head _, h⟩
          · exact .inl h
          · obtain hch | ⟨w, hw, hch⟩ := ih h
            · exact .inl hch
            · exact .inr ⟨w, .tail _ hw, hch⟩

private theorem mem_of_mem_splitOn {ch : Char} {input word : List Char}
    (hword : word ∈ input.splitOn ' ') (hch : ch ∈ word) : ch ∈ input := by
  have hsource : [' '].intercalate (input.splitOn ' ') = input := List.intercalate_splitOn ' '
  have hmem : ∀ words : List (List Char), word ∈ words → ch ∈ [' '].intercalate words := by
    intro words
    induction words with
    | nil => intro h; cases h
    | cons first words ih =>
        intro h
        cases words with
        | nil =>
            cases h with
            | head => simpa using hch
            | tail _ h => cases h
        | cons next words =>
            simp only [List.intercalate_cons_cons, List.mem_append]
            cases h with
            | head => exact .inl (.inl hch)
            | tail _ h => exact .inr (ih h)
  rw [← hsource]
  exact hmem _ hword

/-- Collapsing adds no character but a plain space. -/
theorem mem_collapseSpaces {ch : Char} {input : List Char} (h : ch ∈ collapseSpaces input) :
    ch = ' ' ∨ ch ∈ input := by
  rw [collapseSpaces_eq] at h
  obtain hch | ⟨word, hword, hch⟩ := mem_intercalate_space h
  · exact .inl hch
  · exact .inr (mem_of_mem_splitOn (List.mem_filter.mp hword).1 hch)

/-! ### Normalized nicknames -/

section
variable {P : Primitives} {input nickname : String} {limits : Limits}

/-- What `validate_nickname` asks of an input, and what it makes of it. -/
structure Normalizes (P : Primitives) (limits : Limits) (input nickname : String) : Prop where
  given : input.isEmpty = false
  safe : containsControlChar (P.nfc input.toList) = false
  plain : ((P.nfc input.toList).any fun ch => isWhitespace ch && ch ≠ ' ') = false
  collapsed : nickname.toList = collapseSpaces (P.nfc input.toList)
  nonempty : nickname.toList ≠ []
  short : nickname.toList.length ≤ limits.maxNicknameScalars

theorem validateNickname_iff :
    validateNickname P input limits = .ok nickname ↔ Normalizes P limits input nickname := by
  constructor
  · intro h
    unfold validateNickname at h
    split at h
    · cases h
    rename_i hgiven
    dsimp only at h
    split at h
    · cases h
    rename_i hsafe
    split at h
    · cases h
    rename_i hplain
    split at h
    · cases h
    rename_i hnonempty
    split at h
    · cases h
    rename_i hshort
    cases h
    exact ⟨by simpa using hgiven, by simpa using hsafe, Bool.eq_false_iff.mpr hplain, by simp,
      by simpa using hnonempty, by simpa using hshort⟩
  · intro h
    have hshort : ¬ nickname.toList.length > limits.maxNicknameScalars := Nat.not_lt.mpr h.short
    simp only [validateNickname, h.given, h.safe, h.plain, ← h.collapsed, h.nonempty, hshort,
      if_false, Bool.false_eq_true, String.ofList_toList]

theorem Normalizes.safe_of_mem (h : Normalizes P limits input nickname) {ch : Char}
    (hch : ch ∈ nickname.toList) : isUnsafeDisplayChar ch = false := by
  rw [h.collapsed] at hch
  obtain rfl | hmem := mem_collapseSpaces hch
  · decide
  · have hsafe := h.safe
    rw [containsControlChar, List.any_eq_false] at hsafe
    simpa using hsafe ch hmem

theorem Normalizes.plain_of_mem (h : Normalizes P limits input nickname) {ch : Char}
    (hch : ch ∈ nickname.toList) (hspace : isWhitespace ch = true) : ch = ' ' := by
  rw [h.collapsed] at hch
  obtain rfl | hmem := mem_collapseSpaces hch
  · rfl
  · have hplain := h.plain
    rw [List.any_eq_false] at hplain
    simpa [hspace] using hplain ch hmem

/-- A nickname the normalization keeps passes the validation again unchanged. -/
theorem Normalizes.again (h : Normalizes P limits input nickname)
    (hfixed : P.nfc nickname.toList = nickname.toList) :
    Normalizes P limits nickname nickname where
  given := by simpa [String.isEmpty_iff] using h.nonempty
  safe := by
    rw [hfixed, containsControlChar, List.any_eq_false]
    intro ch hch
    simp [h.safe_of_mem hch]
  plain := by
    rw [hfixed, List.any_eq_false]
    intro ch hch
    simpa using h.plain_of_mem hch
  collapsed := by rw [hfixed, h.collapsed, collapseSpaces_collapseSpaces]
  nonempty := h.nonempty
  short := h.short

/-- The words of a nickname: non-empty and free of spaces. -/
theorem Normalizes.splitOn (h : Normalizes P limits input nickname) :
    nickname.toList.splitOn ' ' = ((P.nfc input.toList).splitOn ' ').filter (· ≠ []) := by
  have hwords := h.collapsed
  rw [collapseSpaces_eq] at hwords
  rw [hwords]
  apply List.splitOn_intercalate
  · intro word hword
    exact space_free_of_mem_splitOn _ word (List.mem_filter.mp hword).1
  · intro hnone
    rw [hnone] at hwords
    exact h.nonempty hwords

private theorem Normalizes.empty_word (h : Normalizes P limits input nickname) :
    [] ∉ nickname.toList.splitOn ' ' := by
  simp [h.splitOn]

/-- The form of a validated nickname: its length, its spaces and its characters. -/
structure NicknameForm (limits : Limits) (nickname : String) : Prop where
  length : 1 ≤ nickname.toList.length ∧ nickname.toList.length ≤ limits.maxNicknameScalars
  leading : ∀ rest, nickname.toList ≠ ' ' :: rest
  trailing : ∀ rest, nickname.toList ≠ rest ++ [' ']
  doubled : ∀ first rest, nickname.toList ≠ first ++ ' ' :: ' ' :: rest
  safe : ∀ ch ∈ nickname.toList, isUnsafeDisplayChar ch = false
  plain : ∀ ch ∈ nickname.toList, isWhitespace ch = true → ch = ' '

/-- A space at an end or next to another one would leave an empty word. -/
theorem Normalizes.form (h : Normalizes P limits input nickname) :
    NicknameForm limits nickname where
  length := ⟨List.length_pos_iff.mpr h.nonempty, h.short⟩
  leading rest heq := by
    apply h.empty_word
    rw [heq, ← List.nil_append (' ' :: rest), List.splitOn_append_cons_self]
    simp
  trailing rest heq := by
    apply h.empty_word
    rw [heq, List.splitOn_append_cons_self]
    simp
  doubled first rest heq := by
    apply h.empty_word
    rw [heq, List.splitOn_append_cons_self, ← List.nil_append (' ' :: rest),
      List.splitOn_append_cons_self]
    simp
  safe _ := h.safe_of_mem
  plain _ := h.plain_of_mem

/-- `nfc` treats the pieces between plain spaces independently. -/
def NfcPiecewise (P : Primitives) : Prop :=
  ∀ text, (P.nfc text).splitOn ' ' = (text.splitOn ' ').map P.nfc

/-- Every piece of a validated nickname is normalized, and so is the nickname. -/
theorem Normalizes.nfc_eq (h : Normalizes P limits input nickname)
    (hnfc : ∀ text, P.nfc (P.nfc text) = P.nfc text) (hpieces : NfcPiecewise P) :
    P.nfc nickname.toList = nickname.toList := by
  have hwords : (nickname.toList.splitOn ' ').map P.nfc = nickname.toList.splitOn ' ' := by
    rw [h.splitOn, hpieces]
    apply (List.map_congr_left fun word hword => ?_).trans (List.map_id _)
    obtain ⟨piece, -, rfl⟩ := List.mem_map.mp (List.mem_filter.mp hword).1
    exact hnfc piece
  have hjoined : [' '].intercalate ((P.nfc nickname.toList).splitOn ' ') =
      P.nfc nickname.toList := List.intercalate_splitOn ' '
  rw [← hjoined, hpieces, hwords, List.intercalate_splitOn]

private theorem nfc_intercalate (law : P.Lawful) (words : List (List Char)) :
    P.nfc ([' '].intercalate words) = [' '].intercalate (words.map P.nfc) := by
  induction words with
  | nil => simpa using law.nfc_nil
  | cons word words ih =>
      cases words with
      | nil => simp
      | cons next words =>
          rw [List.intercalate_cons_cons, List.append_assoc, List.singleton_append, law.nfc_space,
            ih]
          simp [List.intercalate_cons_cons]

theorem nfcPiecewise_of_lawful (law : P.Lawful) : NfcPiecewise P := by
  intro text
  have hjoin := nfc_intercalate law (text.splitOn ' ')
  rw [List.intercalate_splitOn] at hjoin
  rw [hjoin]
  apply List.splitOn_intercalate
  · intro word hword
    obtain ⟨piece, hpiece, rfl⟩ := List.mem_map.mp hword
    exact law.nfc_space_free piece (space_free_of_mem_splitOn text piece hpiece)
  · simp [List.splitOn_ne_nil]

/-- A nickname that came out of the validation passes it again unchanged. -/
theorem validateNickname_idempotent (law : P.Lawful)
    (h : validateNickname P input limits = .ok nickname) :
    validateNickname P nickname limits = .ok nickname := by
  rw [validateNickname_iff] at h ⊢
  exact h.again (h.nfc_eq law.nfc_nfc (nfcPiecewise_of_lawful law))

end

/-! ### Sizes of validated texts -/

private theorem utf8ByteSize_ofList_le (chars : List Char) :
    (String.ofList chars).utf8ByteSize ≤ 4 * chars.length := by
  induction chars with
  | nil => simp
  | cons ch chars ih =>
      have hsize := ch.utf8Size_le_four
      have hch : (String.ofList [ch]).utf8ByteSize = ch.utf8Size := by
        simp [← String.size_toByteArray, List.utf8Encode_singleton]
      rw [← List.singleton_append, String.ofList_append, String.utf8ByteSize_append, hch]
      simp only [List.length_append, List.length_singleton]
      omega

theorem utf8ByteSize_of_validateNickname {P : Primitives} {input nickname : String}
    {limits : Limits} (h : validateNickname P input limits = .ok nickname) :
    nickname.utf8ByteSize ≤ 4 * limits.maxNicknameScalars := by
  have hshort := (validateNickname_iff.mp h).short
  have hbytes := utf8ByteSize_ofList_le nickname.toList
  rw [String.ofList_toList] at hbytes
  omega

theorem utf8ByteSize_of_validateIntro {input : String} {limits : Limits}
    (h : validateIntro input limits = .ok ()) :
    input.utf8ByteSize ≤ 4 * limits.maxIntroScalars := by
  unfold validateIntro at h
  split at h
  · rename_i hempty
    rw [String.isEmpty_iff] at hempty
    simp [hempty]
  split at h
  · cases h
  split at h
  · cases h
  split at h
  · cases h
  rename_i hlength
  have hbytes := utf8ByteSize_ofList_le input.toList
  rw [String.ofList_toList] at hbytes
  omega

end Veilroom
