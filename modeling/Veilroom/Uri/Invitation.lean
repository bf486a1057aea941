import Veilroom.Library.Split
import Veilroom.Uri.Base32

/-!
The invitation URI (`uri.rs`): its parser, check by check in the order of the source, and its
printer.

A `&str` is the list of its characters. SHA3-256 and the base64 engine are third-party code.
-/
namespace Veilroom
namespace Uri

def invitationScheme : List Char := "veilroom".toList
def uriParamVersion : List Char := "v".toList
def uriParamToken : List Char := "token".toList
def onionV3BodyLength : Nat := 56
def onionV3Suffix : List Char := ".onion".toList
def onionV3Alphabet : List Char := "abcdefghijklmnopqrstuvwxyz234567".toList
def minTokenBytes : Nat := 16
def maxTokenBytes : Nat := 32
def uriDelimiter : List Char := "://".toList
def queryParamSeparator : Char := '&'
def queryValueSeparator : Char := '='

/-- `UriError`. -/
inductive UriError
  | invalidScheme | userInfoNotAllowed | fragmentNotAllowed | pathNotAllowed
  | malformedOnionAddress | invalidOnionAlphabet | missingPort | invalidPort
  | missingVersion | invalidVersion
  | unsupportedVersion (found : UInt8)
  | missingToken | invalidToken
  | invalidTokenLength (found : Nat)
  | unknownQueryParameter (name : List Char)
  | duplicateQueryParameter (name : List Char)
  | invalidQueryParameter (name : List Char)
deriving DecidableEq

/-- The third-party functions of the parser and the printer. -/
structure Codecs where
  sha3 : Bytes → Key
  /-- `URL_SAFE_NO_PAD.encode`. -/
  encodeToken : Bytes → List Char
  /-- `URL_SAFE_NO_PAD.decode`. -/
  decodeToken : List Char → Option Bytes

/-- `Invitation`, as either of its constructors leaves it. -/
structure Invitation where
  onionAddress : List Char
  port : UInt16
  token : Bytes
deriving DecidableEq

/-- `str::bytes`. -/
def bytes (text : List Char) : Bytes := text.flatMap String.utf8EncodeChar

/-- `bytes().all(|b| b.is_ascii_digit())`. -/
def isAsciiDigits (text : List Char) : Bool :=
  (bytes text).all fun byte => 48 ≤ byte && byte ≤ 57

/-- `str::parse` into an unsigned integer of a width, for a text of ASCII digits. -/
def parseUnsigned (width : Nat) (text : List Char) : Option Nat :=
  if text = [] then none
  else
    let value := Nat.ofDigitChars 10 text 0
    if value < 2 ^ width then some value else none

variable (C : Codecs)

/-- `is_valid_onion_v3_body`. -/
def isValidOnionV3Body (body : List Char) : Bool :=
  match decodeBase32 (bytes body) with
  | none => false
  | some decoded =>
    if decoded.length ≠ 35 ∨ decoded[34]? ≠ some 3 then false
    else
      let checksumInput := bytes ".onion checksum".toList ++ decoded.take 32 ++ [3]
      (decoded.drop 32).take 2 = (C.sha3 checksumInput).toList.take 2

/-- `validate_onion_address`. -/
def validateOnionAddress (address : List Char) : Except UriError Unit :=
  match Split.stripSuffix onionV3Suffix address with
  | none => .error .malformedOnionAddress
  | some body =>
    if (bytes body).length ≠ onionV3BodyLength then .error .malformedOnionAddress
    else if ¬ (bytes body).all (· ∈ bytes onionV3Alphabet) then .error .invalidOnionAlphabet
    else if ¬ isValidOnionV3Body C body then .error .malformedOnionAddress
    else .ok ()

/-- `Invitation::new`. -/
def Invitation.new (onionAddress : List Char) (port : UInt16) (token : Bytes) :
    Except UriError Invitation :=
  match validateOnionAddress C onionAddress with
  | .error error => .error error
  | .ok () =>
    if port = 0 then .error .invalidPort
    else if ¬ (minTokenBytes ≤ token.length ∧ token.length ≤ maxTokenBytes) then
      .error (.invalidTokenLength token.length)
    else .ok ⟨onionAddress, port, token⟩

/-- `Invitation::to_uri_string`. -/
def Invitation.toUriString (inv : Invitation) : List Char :=
  invitationScheme ++ uriDelimiter ++ inv.onionAddress ++ ':' :: Nat.toDigits 10 inv.port.toNat ++
    '?' :: uriParamVersion ++ '=' :: Nat.toDigits 10 protocolMajorVersion.toNat ++
    '&' :: uriParamToken ++ '=' :: C.encodeToken inv.token

/-- `parse_port`. -/
def parsePort (text : List Char) : Except UriError UInt16 :=
  if text = [] then .error .missingPort
  else if ¬ isAsciiDigits text then .error .invalidPort
  else
    match parseUnsigned 16 text with
    | none => .error .invalidPort
    | some value =>
      let port := UInt16.ofNat value
      if port = 0 then .error .invalidPort else .ok port

/-! ### The parser -/

/-- What the parameter loop of `parse_invitation` has collected. -/
structure Query where
  version : Option UInt8 := none
  token : Option Bytes := none
  seenNames : List (List Char) := []

/-- One turn of the parameter loop. -/
def parseParameter (q : Query) (parameter : List Char) : Except UriError Query :=
  match Split.once [queryValueSeparator] parameter with
  | none => .error (.invalidQueryParameter parameter)
  | some (name, value) =>
    if name = [] ∨ value = [] then .error (.invalidQueryParameter name)
    else if name ∈ q.seenNames then .error (.duplicateQueryParameter name)
    else
      let q := { q with seenNames := q.seenNames ++ [name] }
      if name = uriParamVersion then
        if ¬ isAsciiDigits value then .error .invalidVersion
        else
          match parseUnsigned 8 value with
          | none => .error .invalidVersion
          | some version => .ok { q with version := some (UInt8.ofNat version) }
      else if name = uriParamToken then
        match C.decodeToken value with
        | none => .error .invalidToken
        | some decoded =>
          if ¬ (minTokenBytes ≤ decoded.length ∧ decoded.length ≤ maxTokenBytes) then
            .error (.invalidTokenLength decoded.length)
          else .ok { q with token := some decoded }
      else .error (.unknownQueryParameter name)

/-- The parameter loop of `parse_invitation`. -/
def parseParameters (q : Query) : List (List Char) → Except UriError Query
  | [] => .ok q
  | parameter :: rest =>
    match parseParameter C q parameter with
    | .error error => .error error
    | .ok q => parseParameters q rest

/-- The end of `parse_invitation`, from the parameters on. -/
def parseQuery (host : List Char) (port : UInt16) (query : List Char) :
    Except UriError Invitation :=
  if query = [] then .error .missingVersion
  else
    match parseParameters C {} (query.splitOn queryParamSeparator) with
    | .error error => .error error
    | .ok q =>
      match q.version with
      | none => .error .missingVersion
      | some version =>
        if version ≠ protocolMajorVersion then .error (.unsupportedVersion version)
        else
          match q.token with
          | none => .error .missingToken
          | some token => .ok ⟨host, port, token⟩

/-- `parse_invitation` behind the scheme: the authority and the query. -/
def parseAuthority (authority query : List Char) : Except UriError Invitation :=
  if '/' ∈ authority then .error .pathNotAllowed
  else
    match Split.last ':' authority with
    | none => .error .missingPort
    | some (host, portText) =>
      match validateOnionAddress C host with
      | .error error => .error error
      | .ok () =>
        match parsePort portText with
        | .error error => .error error
        | .ok port => parseQuery C host port query

/-- `parse_invitation`. -/
def parseInvitation (input : List Char) : Except UriError Invitation :=
  if '#' ∈ input then .error .fragmentNotAllowed
  else
    match Split.once uriDelimiter input with
    | none => .error .invalidScheme
    | some (scheme, rest) =>
      if '@' ∈ scheme ∨ ':' ∈ scheme then .error .userInfoNotAllowed
      else if scheme ≠ invitationScheme then .error .invalidScheme
      else
        match Split.once ['?'] rest with
        | some (authority, query) => parseAuthority C authority query
        | none => parseAuthority C rest []

end Uri

/-- An invitation with what both of its constructors check of the port and the token. -/
structure Invitation extends Uri.Invitation where
  port_range : port ≠ 0
  token_range : Uri.minTokenBytes ≤ token.length ∧ token.length ≤ Uri.maxTokenBytes

/-- `Invitation::onion_address`. -/
def Invitation.address (inv : Invitation) : String := String.ofList inv.onionAddress

end Veilroom
