import Veilroom.Uri.Base64

/-!
The language of invitation URIs, and that the parser accepts it and nothing else.
-/
namespace Veilroom
namespace Uri

/-! ### Texts and their bytes -/

/-- A character is one ASCII byte, or starts with a byte that is none. -/
theorem utf8EncodeChar_cases (c : Char) :
    c.toNat < 128 ∧ String.utf8EncodeChar c = [UInt8.ofNat c.toNat] ∨
      128 ≤ c.toNat ∧ ∃ byte ∈ String.utf8EncodeChar c, 128 ≤ byte := by
  unfold String.utf8EncodeChar
  dsimp only
  split
  · exact .inl ⟨by change c.val.toNat < 128; omega, rfl⟩
  · rename_i hlarge
    refine .inr ⟨by change 128 ≤ c.val.toNat; omega, ?_⟩
    have hhigh : ∀ n : Nat, 128 ≤ n → n < 256 → (128 : UInt8) ≤ UInt8.ofNat n := by
      intro n hle hlt
      rw [UInt8.le_iff_toNat_le, UInt8.toNat_ofNat_of_lt' hlt]
      exact hle
    split
    · exact ⟨_, .head _, hhigh _ (by omega) (by omega)⟩
    split
    · exact ⟨_, .head _, hhigh _ (by omega) (by omega)⟩
    · exact ⟨_, .head _, hhigh _ (by omega) (by omega)⟩

/-- A check of all bytes that only ASCII passes is a check of all characters. -/
theorem bytes_all {check : UInt8 → Bool} (hascii : ∀ byte, check byte = true → byte < 128)
    {text : List Char} :
    (bytes text).all check = true ↔
      ∀ c ∈ text, c.toNat < 128 ∧ check (UInt8.ofNat c.toNat) = true := by
  induction text with
  | nil => simp [bytes]
  | cons c rest ih =>
      rw [bytes, List.flatMap_cons, List.all_append, Bool.and_eq_true, ← bytes, ih,
        List.forall_mem_cons]
      refine and_congr_left fun _ => ?_
      obtain ⟨hlt, heq⟩ | ⟨hlarge, byte, hbyte, hhigh⟩ := utf8EncodeChar_cases c
      · rw [heq]
        simp [hlt]
      · constructor
        · intro hall
          have hlow := hascii byte (List.all_eq_true.mp hall byte hbyte)
          exact absurd hlow (UInt8.not_lt.mpr hhigh)
        · rintro ⟨hlt, -⟩
          exact absurd hlt (Nat.not_lt_of_le hlarge)

theorem not_mem_of_bytes {check : UInt8 → Bool} (hascii : ∀ byte, check byte = true → byte < 128)
    {text : List Char} (h : (bytes text).all check = true) {c : Char}
    (hc : check (UInt8.ofNat c.toNat) = false) : c ∉ text := by
  intro hmem
  have hcheck := ((bytes_all hascii).mp h c hmem).2
  rw [hc] at hcheck
  cases hcheck

/-! ### Numerals -/

/-- Decimal digits of a value; leading zeros are allowed. -/
structure Numeral (text : List Char) (value : Nat) : Prop where
  nonempty : text ≠ []
  digits : ∀ c ∈ text, c.isDigit = true
  value : Nat.ofDigitChars 10 text 0 = value

theorem isAsciiDigits_iff {text : List Char} :
    isAsciiDigits text = true ↔ ∀ c ∈ text, c.isDigit = true := by
  have hascii : ∀ byte : UInt8, (48 ≤ byte && byte ≤ 57 : Bool) = true → byte < 128 := by
    intro byte h
    rw [Bool.and_eq_true, decide_eq_true_eq, decide_eq_true_eq] at h
    exact UInt8.lt_of_le_of_lt h.2 (by decide)
  rw [isAsciiDigits, bytes_all hascii]
  refine forall₂_congr fun c _ => ?_
  rw [Bool.and_eq_true, decide_eq_true_eq, decide_eq_true_eq, Char.isDigit_iff_toNat,
    UInt8.le_iff_toNat_le, UInt8.le_iff_toNat_le]
  constructor
  · rintro ⟨hlt, hrange⟩
    rw [UInt8.toNat_ofNat_of_lt' (hlt.trans (by decide))] at hrange
    exact hrange
  · intro hrange
    have hlt : c.toNat < 128 := Nat.lt_of_le_of_lt hrange.2 (by decide)
    rw [UInt8.toNat_ofNat_of_lt' (hlt.trans (by decide))]
    exact ⟨hlt, hrange⟩

theorem parseUnsigned_eq_some {width : Nat} {text : List Char} {value : Nat}
    (hdigits : isAsciiDigits text = true) :
    parseUnsigned width text = some value ↔ Numeral text value ∧ value < 2 ^ width := by
  unfold parseUnsigned
  split
  · rename_i hempty
    constructor
    · intro h
      cases h
    · rintro ⟨hnumeral, -⟩
      exact absurd hempty hnumeral.nonempty
  · rename_i hnonempty
    dsimp only
    constructor
    · intro h
      split at h
      · rename_i hlt
        cases h
        exact ⟨⟨hnonempty, isAsciiDigits_iff.mp hdigits, rfl⟩, hlt⟩
      · cases h
    · rintro ⟨hnumeral, hlt⟩
      rw [hnumeral.value, if_pos hlt]

theorem numeral_toDigits (n : Nat) : Numeral (Nat.toDigits 10 n) n where
  nonempty := Nat.toDigits_ne_nil
  digits _ hc := Nat.isDigit_of_mem_toDigits (by decide) (by decide) hc
  value := Nat.ofDigitChars_ten_toDigits

theorem Numeral.not_mem {text : List Char} {value : Nat} (h : Numeral text value) {c : Char}
    (hc : c.isDigit = false) : c ∉ text := by
  intro hmem
  rw [h.digits c hmem] at hc
  cases hc

theorem parsePort_eq_ok {text : List Char} {port : UInt16} :
    parsePort text = .ok port ↔ Numeral text port.toNat ∧ port ≠ 0 := by
  unfold parsePort
  constructor
  · intro h
    split at h
    · cases h
    split at h
    · cases h
    rename_i hdigits
    rw [not_not] at hdigits
    split at h
    · cases h
    rename_i value hvalue
    obtain ⟨hnumeral, hlt⟩ := (parseUnsigned_eq_some hdigits).mp hvalue
    dsimp only at h
    split at h
    · cases h
    rename_i hport
    cases h
    rw [UInt16.toNat_ofNat_of_lt' hlt]
    exact ⟨hnumeral, hport⟩
  · rintro ⟨hnumeral, hport⟩
    have hdigits := isAsciiDigits_iff.mpr hnumeral.digits
    rw [if_neg hnumeral.nonempty, if_neg (not_not.mpr hdigits),
      (parseUnsigned_eq_some hdigits).mpr ⟨hnumeral, port.toNat_lt⟩]
    dsimp only
    rw [UInt16.ofNat_toNat, if_neg hport]

/-! ### Onion addresses -/

/-- The body of a version 3 onion address: the base32 form of its key, checksum and version. -/
def onionBody (C : Codecs) (key : Key) : Bytes :=
  base32Encode (key.toList ++
    (C.sha3 (bytes ".onion checksum".toList ++ key.toList ++ [3])).toList.take 2 ++ [3])

variable {C : Codecs}

theorem base32Encode_alphabet (octets : Bytes) :
    (base32Encode octets).all (· ∈ bytes onionV3Alphabet) = true := by
  have hsymbol : ∀ value < 32, base32Symbol (UInt8.ofNat value) ∈ bytes onionV3Alphabet := by
    decide +kernel
  rw [List.all_eq_true]
  intro byte hbyte
  obtain ⟨value, hvalue, rfl⟩ := List.mem_map.mp hbyte
  exact decide_eq_true (hsymbol value (BitString.digits_lt 5 _ value hvalue))

theorem alphabet_ascii : ∀ byte : UInt8, decide (byte ∈ bytes onionV3Alphabet) = true →
    byte < 128 := by
  have hall : ∀ byte ∈ bytes onionV3Alphabet, byte < 128 := by decide +kernel
  intro byte h
  exact hall byte (of_decide_eq_true h)

theorem isValidOnionV3Body_iff {body : List Char} (hlength : (bytes body).length = 56) :
    isValidOnionV3Body C body = true ↔ ∃ key, bytes body = onionBody C key := by
  have hgroups : (bytes body).length % 8 = 0 := by rw [hlength]
  unfold isValidOnionV3Body
  constructor
  · intro h
    split at h
    · cases h
    rename_i decoded hdecoded
    split at h
    · cases h
    rename_i hshape
    rw [not_or, not_not, not_not] at hshape
    obtain ⟨hlen, hversion⟩ := hshape
    dsimp only at h
    rw [decide_eq_true_eq] at h
    have hkey : (decoded.take 32).toArray.size = 32 := by simp [hlen]
    have hsplit : decoded.take 32 ++ (decoded.drop 32).take 2 ++ [3] = decoded := by
      have hlast : decoded.drop 34 = [3] := by
        obtain ⟨hlt, hlast⟩ := List.getElem?_eq_some_iff.mp hversion
        rw [List.drop_eq_getElem_cons hlt, hlast, List.drop_eq_nil_of_le (by omega)]
      have htail : (decoded.drop 32).drop 2 = [3] := by rw [List.drop_drop, hlast]
      rw [List.append_assoc, ← htail, List.take_append_drop, List.take_append_drop]
    refine ⟨⟨(decoded.take 32).toArray, hkey⟩, ?_⟩
    rw [onionBody]
    change _ = base32Encode (decoded.take 32 ++ (C.sha3 (_ ++ decoded.take 32 ++ [3])).toList.take 2
      ++ [3])
    rw [← h, hsplit]
    exact ((decodeBase32_eq_some_iff hgroups).mp hdecoded).2.symm
  · rintro ⟨key, hkey⟩
    let checksum := (C.sha3 (bytes ".onion checksum".toList ++ key.toList ++ [3])).toList.take 2
    have hchecksum : checksum.length = 2 := by simp [checksum]
    have hdecoded : decodeBase32 (bytes body) = some (key.toList ++ checksum ++ [3]) :=
      (decodeBase32_eq_some_iff hgroups).mpr ⟨by simp [hchecksum], hkey.symm⟩
    have htake : (key.toList ++ checksum ++ [3]).take 32 = key.toList := by
      rw [List.append_assoc, List.take_left' (by simp)]
    have hdrop : ((key.toList ++ checksum ++ [3]).drop 32).take 2 = checksum := by
      rw [List.append_assoc, List.drop_left' (by simp), List.take_left' hchecksum]
    rw [hdecoded]
    dsimp only
    rw [if_neg (by simp [hchecksum]), htake, hdrop]
    exact decide_eq_true rfl

theorem length_onionBody (C : Codecs) (key : Key) :
    (onionBody C key).length = onionV3BodyLength := by
  have hlength : (key.toList ++ (C.sha3 (bytes ".onion checksum".toList ++ key.toList ++
      [3])).toList.take 2 ++ [3]).length = 5 * 7 := by
    simp
  exact length_base32Encode hlength

theorem validateOnionAddress_eq_ok {address : List Char} :
    validateOnionAddress C address = .ok () ↔
      ∃ body key, address = body ++ onionV3Suffix ∧ bytes body = onionBody C key := by
  unfold validateOnionAddress
  constructor
  · intro h
    split at h
    · cases h
    rename_i body hbody
    split at h
    · cases h
    rename_i hlength
    rw [not_not] at hlength
    split at h
    · cases h
    split at h
    · cases h
    rename_i hvalid
    rw [not_not, isValidOnionV3Body_iff hlength] at hvalid
    obtain ⟨key, hkey⟩ := hvalid
    exact ⟨body, key, Split.stripSuffix_eq_some.mp hbody, hkey⟩
  · rintro ⟨body, key, haddress, hkey⟩
    have hlength : (bytes body).length = onionV3BodyLength := by
      rw [hkey]
      exact length_onionBody C key
    have hstrip : Split.stripSuffix onionV3Suffix address = some body :=
      Split.stripSuffix_eq_some.mpr haddress
    have halphabet : (bytes body).all (· ∈ bytes onionV3Alphabet) = true := by
      rw [hkey]
      exact base32Encode_alphabet _
    have hvalid := (isValidOnionV3Body_iff (C := C) hlength).mpr ⟨key, hkey⟩
    rw [hstrip]
    dsimp only
    rw [if_neg (not_not.mpr hlength), if_neg (not_not.mpr halphabet), if_neg (not_not.mpr hvalid)]

/-- An onion address has no separator of the URI. -/
theorem not_mem_onionAddress {body : List Char} {key : Key} (h : bytes body = onionBody C key)
    {c : Char} (hbody : UInt8.ofNat c.toNat ∉ bytes onionV3Alphabet) (hsuffix : c ∉ onionV3Suffix) :
    c ∉ body ++ onionV3Suffix := by
  have hall : (bytes body).all (· ∈ bytes onionV3Alphabet) = true := by
    rw [h]
    exact base32Encode_alphabet _
  rw [List.mem_append, not_or]
  exact ⟨not_mem_of_bytes alphabet_ascii hall (decide_eq_false hbody), hsuffix⟩

/-! ### Parameters -/

/-- What a parameter the loop accepts is, and what the loop keeps of it. -/
inductive Reads (C : Codecs) (q : Query) : List Char → Query → Prop
  | version {text value} : uriParamVersion ∉ q.seenNames → Numeral text value → value < 2 ^ 8 →
      Reads C q (uriParamVersion ++ queryValueSeparator :: text)
        { q with
          version := some (UInt8.ofNat value)
          seenNames := q.seenNames ++ [uriParamVersion] }
  | token {text token} : uriParamToken ∉ q.seenNames → text ≠ [] →
      C.decodeToken text = some token →
      minTokenBytes ≤ token.length → token.length ≤ maxTokenBytes →
      Reads C q (uriParamToken ++ queryValueSeparator :: text)
        { q with token := some token, seenNames := q.seenNames ++ [uriParamToken] }

theorem parseParameter_eq_ok {q q' : Query} {parameter : List Char} :
    parseParameter C q parameter = .ok q' ↔ Reads C q parameter q' := by
  unfold parseParameter
  constructor
  · intro h
    split at h
    · cases h
    rename_i name value hsplit
    obtain ⟨rfl, -⟩ := Split.once_singleton.mp hsplit
    split at h
    · cases h
    rename_i hnonempty
    rw [not_or] at hnonempty
    split at h
    · cases h
    rename_i hfresh
    dsimp only at h
    split at h
    · rename_i hname
      subst hname
      split at h
      · cases h
      rename_i hdigits
      rw [not_not] at hdigits
      split at h
      · cases h
      rename_i version hversion
      obtain ⟨hnumeral, hlt⟩ := (parseUnsigned_eq_some hdigits).mp hversion
      cases h
      exact .version hfresh hnumeral hlt
    split at h
    · rename_i hname
      subst hname
      split at h
      · cases h
      rename_i decoded hdecoded
      split at h
      · cases h
      rename_i hrange
      rw [not_not] at hrange
      cases h
      exact .token hfresh hnonempty.2 hdecoded hrange.1 hrange.2
    · cases h
  · intro h
    cases h with
    | version hfresh hnumeral hlt =>
        rename_i text value
        have hsplit : Split.once [queryValueSeparator]
            (uriParamVersion ++ queryValueSeparator :: text) = some (uriParamVersion, text) :=
          Split.once_singleton.mpr ⟨rfl, by decide +kernel⟩
        have hdigits := isAsciiDigits_iff.mpr hnumeral.digits
        rw [hsplit]
        dsimp only
        rw [if_neg (not_or.mpr ⟨by decide +kernel, hnumeral.nonempty⟩), if_neg hfresh, if_pos rfl,
          if_neg (not_not.mpr hdigits), (parseUnsigned_eq_some hdigits).mpr ⟨hnumeral, hlt⟩]
    | token hfresh hnonempty hdecoded hmin hmax =>
        rename_i text token
        have hsplit : Split.once [queryValueSeparator]
            (uriParamToken ++ queryValueSeparator :: text) = some (uriParamToken, text) :=
          Split.once_singleton.mpr ⟨rfl, by decide +kernel⟩
        rw [hsplit]
        dsimp only
        rw [if_neg (not_or.mpr ⟨by decide +kernel, hnonempty⟩), if_neg hfresh,
          if_neg (by decide +kernel), if_pos rfl, hdecoded]
        dsimp only
        rw [if_neg (not_not.mpr ⟨hmin, hmax⟩)]

theorem parseParameters_cons {q q' : Query} {parameter : List Char} {rest : List (List Char)} :
    parseParameters C q (parameter :: rest) = .ok q' ↔
      ∃ q₁, Reads C q parameter q₁ ∧ parseParameters C q₁ rest = .ok q' := by
  rw [parseParameters]
  constructor
  · intro h
    split at h
    · cases h
    · rename_i q₁ hparameter
      exact ⟨q₁, parseParameter_eq_ok.mp hparameter, h⟩
  · rintro ⟨q₁, hreads, h⟩
    rw [parseParameter_eq_ok.mpr hreads]
    exact h

/-- The version parameter and the token parameter. -/
def versionParameter (text : List Char) : List Char :=
  uriParamVersion ++ queryValueSeparator :: text

def tokenParameter (text : List Char) : List Char :=
  uriParamToken ++ queryValueSeparator :: text

/-- The two parameters, once each, in either order. -/
structure Parameters (C : Codecs) (version : UInt8) (token : Bytes)
    (versionText tokenText : List Char) (parameters : List (List Char)) : Prop where
  numeral : Numeral versionText version.toNat
  nonempty : tokenText ≠ []
  decoded : C.decodeToken tokenText = some token
  range : minTokenBytes ≤ token.length ∧ token.length ≤ maxTokenBytes
  order : parameters = [versionParameter versionText, tokenParameter tokenText] ∨
    parameters = [tokenParameter tokenText, versionParameter versionText]

theorem parseParameters_eq_ok {parameters : List (List Char)} {version : UInt8} {token : Bytes} :
    (∃ q, parseParameters C {} parameters = .ok q ∧ q.version = some version ∧
        q.token = some token) ↔
      ∃ versionText tokenText, Parameters C version token versionText tokenText parameters := by
  constructor
  · rintro ⟨q, hparse, hversion, htoken⟩
    cases parameters with
    | nil =>
        cases hparse
        cases hversion
    | cons first rest =>
        obtain ⟨q₁, hfirst, hparse⟩ := parseParameters_cons.mp hparse
        cases rest with
        | nil =>
            -- one parameter sets one of the two
            cases hparse
            cases hfirst with
            | version => cases htoken
            | token => cases hversion
        | cons second rest =>
            obtain ⟨q₂, hsecond, hparse⟩ := parseParameters_cons.mp hparse
            cases rest with
            | nil =>
                cases hparse
                cases hfirst with
                | version _ hnumeral hlt =>
                    cases hsecond with
                    | version hfresh => simp at hfresh
                    | token _ hnonempty hdecoded hmin hmax =>
                        cases hversion
                        cases htoken
                        refine ⟨_, _, ?_, hnonempty, hdecoded, ⟨hmin, hmax⟩, .inl rfl⟩
                        rwa [UInt8.toNat_ofNat_of_lt' hlt]
                | token _ hnonempty hdecoded hmin hmax =>
                    cases hsecond with
                    | version _ hnumeral hlt =>
                        cases hversion
                        cases htoken
                        refine ⟨_, _, ?_, hnonempty, hdecoded, ⟨hmin, hmax⟩, .inr rfl⟩
                        rwa [UInt8.toNat_ofNat_of_lt' hlt]
                    | token hfresh => simp at hfresh
            | cons third rest =>
                -- a third parameter has a name that was seen, or none that is known
                obtain ⟨q₃, hthird, -⟩ := parseParameters_cons.mp hparse
                cases hfirst with
                | version =>
                    cases hsecond with
                    | version hfresh => simp at hfresh
                    | token => cases hthird <;> simp_all
                | token =>
                    cases hsecond with
                    | version => cases hthird <;> simp_all
                    | token hfresh => simp at hfresh
  · rintro ⟨versionText, tokenText, h⟩
    have hlt : version.toNat < 2 ^ 8 := version.toNat_lt
    obtain rfl | rfl := h.order
    · refine ⟨_, parseParameters_cons.mpr ⟨_, .version (by simp) h.numeral hlt,
        parseParameters_cons.mpr ⟨_, .token ?_ h.nonempty h.decoded h.range.1 h.range.2, rfl⟩⟩,
        ?_, rfl⟩
      · exact (by decide +kernel : uriParamToken ∉ [uriParamVersion])
      · exact congrArg some UInt8.ofNat_toNat
    · refine ⟨_, parseParameters_cons.mpr
        ⟨_, .token (by simp) h.nonempty h.decoded h.range.1 h.range.2,
          parseParameters_cons.mpr ⟨_, .version ?_ h.numeral hlt, rfl⟩⟩, ?_, rfl⟩
      · exact (by decide +kernel : uriParamVersion ∉ [uriParamToken])
      · exact congrArg some UInt8.ofNat_toNat

/-! ### The language -/

/-- The query of an invitation: the version in decimal digits and the token in base64, in either
order. -/
def IsQuery (token : Bytes) (versionText query : List Char) : Prop :=
  query = versionParameter versionText ++
      queryParamSeparator :: tokenParameter (base64Encode token) ∨
    query = tokenParameter (base64Encode token) ++
      queryParamSeparator :: versionParameter versionText

/-- The texts of an invitation URI and the invitation they describe. -/
inductive Describes (C : Codecs) (inv : Invitation) : List Char → Prop
  | uri {body : List Char} {key : Key} {portText versionText query : List Char} :
      inv.onionAddress = body ++ onionV3Suffix → bytes body = onionBody C key →
      Numeral portText inv.port.toNat → inv.port ≠ 0 →
      Numeral versionText 1 → 16 ≤ inv.token.length → inv.token.length ≤ 32 →
      IsQuery inv.token versionText query →
      Describes C inv (invitationScheme ++ uriDelimiter ++
        (inv.onionAddress ++ ':' :: portText ++ '?' :: query))

/-- A described invitation passed the checks of its port and its token. -/
theorem Describes.checked {C : Codecs} {inv : Invitation} {text : List Char}
    (h : Describes C inv text) : ∃ checked : Veilroom.Invitation, checked.toInvitation = inv := by
  cases h with
  | uri _ _ _ hport _ hshort hlong _ => exact ⟨⟨inv, hport, hshort, hlong⟩, rfl⟩

theorem not_mem_versionParameter {text : List Char} {value : Nat} (h : Numeral text value)
    {c : Char} (hc : c.isDigit = false) (hname : c ∉ uriParamVersion ++ [queryValueSeparator]) :
    c ∉ versionParameter text := by
  have hsame : versionParameter text = (uriParamVersion ++ [queryValueSeparator]) ++ text := by
    simp [versionParameter]
  rw [hsame, List.mem_append, not_or]
  exact ⟨hname, h.not_mem hc⟩

theorem not_mem_tokenParameter (token : Bytes) {c : Char} (hc : c ∉ base64Alphabet)
    (hname : c ∉ uriParamToken ++ [queryValueSeparator]) :
    c ∉ tokenParameter (base64Encode token) := by
  have hsame : tokenParameter (base64Encode token) =
      (uriParamToken ++ [queryValueSeparator]) ++ base64Encode token := by
    simp [tokenParameter]
  rw [hsame, List.mem_append, not_or]
  exact ⟨hname, fun hmem => hc (mem_base64Encode hmem)⟩

theorem IsQuery.splitOn {token : Bytes} {versionText query : List Char} {value : Nat}
    (h : IsQuery token versionText query) (hversion : Numeral versionText value) :
    query.splitOn queryParamSeparator =
        [versionParameter versionText, tokenParameter (base64Encode token)] ∨
      query.splitOn queryParamSeparator =
        [tokenParameter (base64Encode token), versionParameter versionText] := by
  have hfirst : queryParamSeparator ∉ versionParameter versionText :=
    not_mem_versionParameter hversion (by decide) (by decide +kernel)
  have hsecond : queryParamSeparator ∉ tokenParameter (base64Encode token) :=
    not_mem_tokenParameter token (by decide +kernel) (by decide +kernel)
  refine h.imp (fun hquery => ?_) fun hquery => ?_
  · rw [hquery, List.splitOn_append_cons_self_of_not_mem hfirst, List.splitOn_eq_singleton hsecond]
  · rw [hquery, List.splitOn_append_cons_self_of_not_mem hsecond, List.splitOn_eq_singleton hfirst]

theorem parseQuery_eq_ok (strict : C.Strict) {host query : List Char} {port : UInt16}
    {inv : Invitation} :
    parseQuery C host port query = .ok inv ↔
      inv.onionAddress = host ∧ inv.port = port ∧ 16 ≤ inv.token.length ∧ inv.token.length ≤ 32 ∧
        ∃ versionText, Numeral versionText 1 ∧ IsQuery inv.token versionText query := by
  unfold parseQuery
  constructor
  · intro h
    split at h
    · cases h
    split at h
    · cases h
    rename_i q hq
    split at h
    · cases h
    rename_i version hversion
    split at h
    · cases h
    rename_i hmajor
    rw [not_not] at hmajor
    split at h
    · cases h
    rename_i token htoken
    cases h
    subst hmajor
    obtain ⟨versionText, tokenText, hparameters⟩ :=
      parseParameters_eq_ok.mp ⟨q, hq, hversion, htoken⟩
    have htext := (strict.decodeToken tokenText token).mp hparameters.decoded
    subst htext
    refine ⟨rfl, rfl, hparameters.range.1, hparameters.range.2, versionText,
      hparameters.numeral, ?_⟩
    have hjoined : [queryParamSeparator].intercalate (query.splitOn queryParamSeparator) = query :=
      List.intercalate_splitOn queryParamSeparator
    refine hparameters.order.imp (fun hsplit => ?_) fun hsplit => ?_
    · rw [← hjoined, hsplit]
      simp [List.intercalate, queryParamSeparator]
    · rw [← hjoined, hsplit]
      simp [List.intercalate, queryParamSeparator]
  · rintro ⟨rfl, rfl, hmin, hmax, versionText, hversion, hquery⟩
    have hnonempty : query ≠ [] := by
      rintro rfl
      obtain h | h := hquery
      · simp at h
      · simp at h
    have htoken : base64Encode inv.token ≠ [] := by
      apply base64Encode_ne_nil
      intro hnil
      simp [hnil] at hmin
    obtain ⟨q, hq, hqversion, hqtoken⟩ := parseParameters_eq_ok.mpr ⟨versionText, _,
      (⟨hversion, htoken, (strict.decodeToken _ inv.token).mpr rfl, ⟨hmin, hmax⟩,
        hquery.splitOn hversion⟩ : Parameters C 1 inv.token versionText _ _)⟩
    rw [if_neg hnonempty, hq]
    dsimp only
    rw [hqversion]
    dsimp only
    rw [if_neg (by decide), hqtoken]

theorem IsQuery.not_mem {token : Bytes} {versionText query : List Char} {value : Nat}
    (h : IsQuery token versionText query) (hversion : Numeral versionText value) :
    '#' ∉ query := by
  have hfirst : '#' ∉ versionParameter versionText :=
    not_mem_versionParameter hversion (by decide) (by decide +kernel)
  have hsecond : '#' ∉ tokenParameter (base64Encode token) :=
    not_mem_tokenParameter token (by decide +kernel) (by decide +kernel)
  obtain rfl | rfl := h
  · simp [hfirst, hsecond, queryParamSeparator]
  · simp [hfirst, hsecond, queryParamSeparator]

/-- The parser accepts the described texts, and returns what they describe. -/
theorem parseInvitation_eq_ok (strict : C.Strict) {input : List Char} {inv : Invitation} :
    parseInvitation C input = .ok inv ↔ Describes C inv input := by
  unfold parseInvitation
  constructor
  · intro h
    split at h
    · cases h
    split at h
    · cases h
    rename_i scheme rest hscheme
    have hinput := Split.once_eq_some hscheme
    split at h
    · cases h
    split at h
    · cases h
    rename_i hname
    rw [not_not] at hname
    subst hname
    have hauthority : ∃ authority query, rest = authority ++ '?' :: query ∧
        parseAuthority C authority query = .ok inv := by
      split at h
      · rename_i authority query hcut
        exact ⟨authority, query, (Split.once_singleton.mp hcut).1, h⟩
      · -- without a query there is no version
        exfalso
        unfold parseAuthority at h
        split at h
        · cases h
        split at h
        · cases h
        split at h
        · cases h
        split at h
        · cases h
        cases h
    obtain ⟨authority, query, rfl, hparse⟩ := hauthority
    unfold parseAuthority at hparse
    split at hparse
    · cases hparse
    split at hparse
    · cases hparse
    rename_i host portText hlast
    obtain ⟨rfl, -⟩ := Split.last_eq_some.mp hlast
    split at hparse
    · cases hparse
    rename_i honion
    split at hparse
    · cases hparse
    rename_i port hport
    obtain ⟨rfl, rfl, hmin, hmax, versionText, hversion, hquery⟩ :=
      (parseQuery_eq_ok strict).mp hparse
    obtain ⟨body, key, haddress, hkey⟩ := validateOnionAddress_eq_ok.mp honion
    obtain ⟨hnumeral, hzero⟩ := parsePort_eq_ok.mp hport
    rw [hinput]
    exact .uri haddress hkey hnumeral hzero hversion hmin hmax hquery
  · intro h
    cases h with
    | uri haddress hkey hport hzero hversion hmin hmax hquery =>
        rename_i body key portText versionText query
        have haddress' : ∀ c, UInt8.ofNat c.toNat ∉ bytes onionV3Alphabet → c ∉ onionV3Suffix →
            c ∉ inv.onionAddress := by
          intro c hbody hsuffix
          rw [haddress]
          exact not_mem_onionAddress hkey hbody hsuffix
        have hdelimiter : uriDelimiter = [':', '/', '/'] := by decide +kernel
        have hfragment : '#' ∉ invitationScheme ++ uriDelimiter ++
            (inv.onionAddress ++ ':' :: portText ++ '?' :: query) := by
          have hscheme : '#' ∉ invitationScheme ++ uriDelimiter := by decide +kernel
          have honion : '#' ∉ inv.onionAddress :=
            haddress' '#' (by decide +kernel) (by decide +kernel)
          have hport : '#' ∉ portText := hport.not_mem (by decide)
          have hquery := hquery.not_mem hversion
          rw [List.mem_append]
          simp [hscheme, honion, hport, hquery]
        have hscheme : Split.once uriDelimiter (invitationScheme ++ uriDelimiter ++
            (inv.onionAddress ++ ':' :: portText ++ '?' :: query)) =
              some (invitationScheme, inv.onionAddress ++ ':' :: portText ++ '?' :: query) := by
          rw [hdelimiter]
          exact Split.once_append (by decide +kernel)
        have hauthority : Split.once ['?'] (inv.onionAddress ++ ':' :: portText ++ '?' :: query) =
            some (inv.onionAddress ++ ':' :: portText, query) := by
          refine Split.once_singleton.mpr ⟨rfl, ?_⟩
          have honion : '?' ∉ inv.onionAddress :=
            haddress' '?' (by decide +kernel) (by decide +kernel)
          have hport : '?' ∉ portText := hport.not_mem (by decide)
          simp [honion, hport]
        have hpath : '/' ∉ inv.onionAddress ++ ':' :: portText := by
          have honion : '/' ∉ inv.onionAddress :=
            haddress' '/' (by decide +kernel) (by decide +kernel)
          have hport : '/' ∉ portText := hport.not_mem (by decide)
          simp [honion, hport]
        have hhost : Split.last ':' (inv.onionAddress ++ ':' :: portText) =
            some (inv.onionAddress, portText) :=
          Split.last_eq_some.mpr ⟨rfl, hport.not_mem (by decide)⟩
        have honion : validateOnionAddress C inv.onionAddress = .ok () :=
          validateOnionAddress_eq_ok.mpr ⟨body, key, haddress, hkey⟩
        have hparsed := parsePort_eq_ok.mpr ⟨hport, hzero⟩
        rw [if_neg hfragment, hscheme]
        dsimp only
        rw [if_neg (by decide +kernel), if_neg (not_not.mpr rfl), hauthority]
        dsimp only
        rw [parseAuthority, if_neg hpath, hhost]
        dsimp only
        rw [honion]
        dsimp only
        rw [hparsed]
        exact (parseQuery_eq_ok strict).mpr
          ⟨rfl, rfl, hmin, hmax, versionText, hversion, hquery⟩

/-- A participant only ever joins by a checked invitation. -/
theorem parseInvitation_checked (strict : C.Strict) {input : List Char} {inv : Invitation}
    (h : parseInvitation C input = .ok inv) :
    ∃ checked : Veilroom.Invitation, checked.toInvitation = inv :=
  ((parseInvitation_eq_ok strict).mp h).checked

/-- What is printed describes what was printed. -/
theorem describes_toUriString (strict : C.Strict) {onionAddress : List Char} {port : UInt16}
    {token : Bytes} {inv : Invitation} (h : Invitation.new C onionAddress port token = .ok inv) :
    Describes C inv (inv.toUriString C) := by
  unfold Invitation.new at h
  split at h
  · cases h
  rename_i honion
  split at h
  · cases h
  rename_i hport
  split at h
  · cases h
  rename_i hrange
  rw [not_not] at hrange
  cases h
  obtain ⟨body, key, haddress, hkey⟩ := validateOnionAddress_eq_ok.mp honion
  have hprinted : (Invitation.mk onionAddress port token).toUriString C =
      invitationScheme ++ uriDelimiter ++ (onionAddress ++ ':' :: Nat.toDigits 10 port.toNat ++
        '?' :: (versionParameter (Nat.toDigits 10 1) ++
          queryParamSeparator :: tokenParameter (base64Encode token))) := by
    simp only [Invitation.toUriString, strict.encodeToken, versionParameter, tokenParameter,
      List.append_assoc, List.cons_append]
    rfl
  rw [hprinted]
  exact .uri haddress hkey (numeral_toDigits _) hport (numeral_toDigits 1) hrange.1 hrange.2
    (.inl rfl)

/-- The parser accepts exactly the invitation URIs, and reads back every invitation that was
printed. -/
theorem invitation_uri (C : Codecs) (strict : C.Strict) :
    (∀ input inv, parseInvitation C input = .ok inv ↔ Describes C inv input) ∧
      ∀ onionAddress port token inv, Invitation.new C onionAddress port token = .ok inv →
        parseInvitation C (inv.toUriString C) = .ok inv := by
  refine ⟨fun input inv => parseInvitation_eq_ok strict, ?_⟩
  intro onionAddress port token inv h
  exact (parseInvitation_eq_ok strict).mpr (describes_toUriString strict h)

/-! The address of the zero key, with the digest its checksum comes from. -/

def codecs : Codecs where
  sha3 _ := #v[205, 14, 67, 202, 69, 192, 159, 69, 24, 86, 150, 58, 149, 26, 162, 21, 218, 13, 161,
    94, 200, 231, 35, 229, 41, 133, 129, 88, 189, 76, 123, 89]
  encodeToken := base64Encode
  decodeToken := base64Decode

theorem codecs_strict : codecs.Strict := ⟨fun _ => rfl, fun _ _ => base64Decode_eq_some_iff⟩

def zeroInvitation : Invitation where
  onionAddress := "aaaaaaaaaaaaaaaaaaaaaaaaaaaaaaaaaaaaaaaaaaaaaaaaaaam2dqd.onion".toList
  port := 443
  token := List.replicate 16 120

theorem invitation_uri_zero :
    zeroInvitation.toUriString codecs = ("veilroom://" ++
        "aaaaaaaaaaaaaaaaaaaaaaaaaaaaaaaaaaaaaaaaaaaaaaaaaaam2dqd.onion:443" ++
        "?v=1&token=eHh4eHh4eHh4eHh4eHh4eA").toList ∧
      parseInvitation codecs (zeroInvitation.toUriString codecs) = .ok zeroInvitation := by
  refine ⟨by decide +kernel, ?_⟩
  exact (invitation_uri codecs codecs_strict).2 zeroInvitation.onionAddress 443
    (List.replicate 16 120) zeroInvitation (by decide +kernel)

end Uri

end Veilroom
