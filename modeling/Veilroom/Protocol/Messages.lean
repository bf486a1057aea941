import Veilroom.Validation

/-!
Typed protocol messages, their constructors and their errors
(`protocol/ids.rs`, `handshake.rs`, `membership.rs`, `epoch.rs`, `chat.rs`,
`messages.rs`). The wire encoding is in `Veilroom.Protocol.Codec`.
-/
namespace Veilroom

inductive MessageType
  | hostHello | clientHello | tokenVerify | passwordChallenge | challengeProof | joinRequest
  | joinAccepted | joinRejected | memberJoined | memberLeft | memberKicked | joinPolicyChanged
  | memberSnapshot | chatMessage | colorChange | timeoutRequest | timeoutChanged | epochWrap
  | epochAck | keepalive | error | shutdown
deriving DecidableEq, Repr

/-- `MessageType::as_u8`. -/
def MessageType.asU8 : MessageType → UInt8
  | .hostHello => 0x01 | .clientHello => 0x02 | .tokenVerify => 0x03
  | .passwordChallenge => 0x04 | .challengeProof => 0x05 | .joinRequest => 0x06
  | .joinAccepted => 0x07 | .joinRejected => 0x08 | .memberJoined => 0x20
  | .memberLeft => 0x21 | .memberKicked => 0x22 | .joinPolicyChanged => 0x23
  | .memberSnapshot => 0x24 | .chatMessage => 0x40 | .colorChange => 0x41
  | .timeoutRequest => 0x42 | .timeoutChanged => 0x43 | .epochWrap => 0x60
  | .epochAck => 0x61 | .keepalive => 0x80 | .error => 0x81 | .shutdown => 0x82

/-- `MessageType::from_u8`. -/
def MessageType.fromU8 (id : UInt8) : Option MessageType :=
  match id.toNat with
  | 0x01 => some .hostHello | 0x02 => some .clientHello | 0x03 => some .tokenVerify
  | 0x04 => some .passwordChallenge | 0x05 => some .challengeProof | 0x06 => some .joinRequest
  | 0x07 => some .joinAccepted | 0x08 => some .joinRejected | 0x20 => some .memberJoined
  | 0x21 => some .memberLeft | 0x22 => some .memberKicked | 0x23 => some .joinPolicyChanged
  | 0x24 => some .memberSnapshot | 0x40 => some .chatMessage | 0x41 => some .colorChange
  | 0x42 => some .timeoutRequest | 0x43 => some .timeoutChanged | 0x60 => some .epochWrap
  | 0x61 => some .epochAck | 0x80 => some .keepalive | 0x81 => some .error
  | 0x82 => some .shutdown
  | _ => none

@[simp] theorem MessageType.fromU8_asU8 (type : MessageType) : fromU8 type.asU8 = some type := by
  cases type <;> rfl

theorem MessageType.asU8_of_fromU8 {id : UInt8} {type : MessageType} (h : fromU8 id = some type) :
    type.asU8 = id := by
  apply UInt8.toNat_inj.mp
  unfold fromU8 at h
  split at h <;> cases h
  all_goals
    rename_i hid
    rw [hid]
    rfl

inductive ErrorCode
  | protocolViolation | unsupportedVersion | invalidInvitation | roomLocked
  | invalidPasswordProof | connectionTimeout | roomClosed | rateLimited | internal
deriving DecidableEq, Repr

/-- `ErrorCode::as_u8`. -/
def ErrorCode.asU8 : ErrorCode → UInt8
  | .protocolViolation => 1 | .unsupportedVersion => 2 | .invalidInvitation => 3
  | .roomLocked => 4 | .invalidPasswordProof => 5 | .connectionTimeout => 6
  | .roomClosed => 7 | .rateLimited => 8 | .internal => 9

/-- `ErrorCode::from_u8`. -/
def ErrorCode.fromU8 (code : UInt8) : Option ErrorCode :=
  match code.toNat with
  | 1 => some .protocolViolation | 2 => some .unsupportedVersion | 3 => some .invalidInvitation
  | 4 => some .roomLocked | 5 => some .invalidPasswordProof | 6 => some .connectionTimeout
  | 7 => some .roomClosed | 8 => some .rateLimited | 9 => some .internal
  | _ => none

@[simp] theorem ErrorCode.fromU8_asU8 (code : ErrorCode) : fromU8 code.asU8 = some code := by
  cases code <;> rfl

/-! ### Errors of the protocol layer -/

inductive FrameError
  | frameTooLarge (declared max : Nat)
  | payloadTooLarge (length max : Nat)
  | frameTooShort (min : Nat)
  | unexpectedEof
  | unsupportedVersion (found : UInt8)
  | unknownMessageType (id : UInt8)
  | nonZeroFlags (flags : Nat)
deriving DecidableEq, Repr

inductive StrictError
  /-- Any rejection of the underlying CBOR decoder. -/
  | cbor
  | indefiniteNotAllowed
  | nestingTooDeep (limit : Nat)
  | mapTooLarge (declared limit : Nat)
  | arrayTooLarge (declared limit : Nat)
  | duplicateMapKey (key : Nat)
  | textTooLong (length limit : Nat)
  | bytesTooLong (length limit : Nat)
  | trailingData
deriving DecidableEq, Repr

/-- `ProtocolError`. Encoding into memory never fails, so `Encode` is left out. -/
inductive ProtocolError
  | frame (error : FrameError)
  | cbor (error : StrictError)
  | unknownField (field : Nat)
  | missingField (field : Nat)
  | invalidField (field : Nat) (detail : String)
  | validation (error : ValidationError)
  | unknownErrorCode (code : UInt8)
  | invalidReasonText
  | reasonTooLong (length max : Nat)
  | unsupportedMessage (id : UInt8)
deriving DecidableEq, Repr

/-- `{value:0width$x}`. -/
def hexPadded (width value : Nat) : String :=
  let digits := Nat.toDigits 16 value
  String.ofList (List.replicate (width - digits.length) '0' ++ digits)

def FrameError.toString : FrameError → String
  | .frameTooLarge declared max =>
      s!"declared frame length {declared} exceeds the maximum of {max} bytes"
  | .payloadTooLarge length max =>
      s!"frame payload of {length} bytes exceeds the maximum of {max} bytes"
  | .frameTooShort min => s!"frame body is shorter than the minimum of {min} bytes"
  | .unexpectedEof => "unexpected end of stream while reading a frame"
  | .unsupportedVersion found => s!"unsupported protocol version {found}"
  | .unknownMessageType id => s!"unknown message type 0x{hexPadded 2 id.toNat}"
  | .nonZeroFlags flags => s!"frame flags must be zero, got 0x{hexPadded 4 flags}"

/-- `StrictError`'s text; `detail` is the text of the underlying decoder's error. -/
def StrictError.toString (detail : String) : StrictError → String
  | .cbor => s!"invalid CBOR: {detail}"
  | .indefiniteNotAllowed => "indefinite-length CBOR structures are not allowed"
  | .nestingTooDeep limit => s!"CBOR nesting exceeds the limit of {limit} levels"
  | .mapTooLarge declared limit => s!"CBOR map declares {declared} entries, maximum is {limit}"
  | .arrayTooLarge declared limit =>
      s!"CBOR array declares {declared} elements, maximum is {limit}"
  | .duplicateMapKey key => s!"duplicate CBOR map key {key}"
  | .textTooLong length limit => s!"CBOR text is {length} bytes, maximum is {limit}"
  | .bytesTooLong length limit => s!"CBOR byte string is {length} bytes, maximum is {limit}"
  | .trailingData => "trailing data after the message value"

def ProtocolError.toString (detail : String) : ProtocolError → String
  | .frame error => error.toString
  | .cbor error => error.toString detail
  | .unknownField field => s!"unknown field {field} in message"
  | .missingField field => s!"missing required field {field} in message"
  | .invalidField field text => s!"invalid value for field {field}: {text}"
  | .validation error => s!"field validation failed: {error.toString}"
  | .unknownErrorCode code => s!"unknown error code 0x{hexPadded 2 code.toNat}"
  | .invalidReasonText => "error reason contains control characters or ANSI escape sequences"
  | .reasonTooLong length max => s!"error reason is {length} bytes, maximum is {max}"
  | .unsupportedMessage id =>
      s!"message type 0x{hexPadded 2 id.toNat} is not supported in this stage"

/-! ### Handshake messages -/

structure ClientHello where
  version : UInt8
  clientNonce : ShortNonce
  features : UInt32
deriving DecidableEq

structure HostHello where
  version : UInt8
  roomSessionId : Key
  hostEd25519Pubkey : Key
  hostX25519Pubkey : Key
  serverNonce : ShortNonce
  hostSignature : Signature
deriving DecidableEq

structure TokenVerify where
  token : Bytes
deriving DecidableEq

/-- `TokenVerify::new`. -/
def TokenVerify.new (token : Bytes) : Except ProtocolError TokenVerify :=
  if 16 ≤ token.length ∧ token.length ≤ 32 then .ok ⟨token⟩
  else .error (.invalidField 1 s!"token must be 16..=32 bytes, found {token.length}")

structure PasswordChallenge where
  mCost : UInt32
  tCost : UInt32
  pCost : UInt8
  salt : ShortNonce
  challengeNonce : ShortNonce
deriving DecidableEq

structure ChallengeProof where
  proof : Key
deriving DecidableEq

/-- The wire message; the queue's entry is `JoinRequest`. -/
structure JoinRequestMessage where
  nickname : String
  introduction : Option String
  ed25519Pubkey : Key
  x25519Pubkey : Key
  signature : Signature
deriving DecidableEq

/-- `JoinRequest::new`. -/
def JoinRequestMessage.new (P : Primitives) (nickname : String) (introduction : Option String)
    (ed25519Pubkey x25519Pubkey : Key) (signature : Signature) :
    Except ProtocolError JoinRequestMessage :=
  match validateNickname P nickname Limits.default with
  | .error error => .error (.validation error)
  | .ok nickname =>
    match introduction with
    | none => .ok ⟨nickname, none, ed25519Pubkey, x25519Pubkey, signature⟩
    | some text =>
      match validateIntro text Limits.default with
      | .error error => .error (.validation error)
      | .ok () => .ok ⟨nickname, some text, ed25519Pubkey, x25519Pubkey, signature⟩

structure JoinAccepted where
  memberId : Nat
deriving DecidableEq

structure JoinRejected where
  reason : Option String
deriving DecidableEq

def maxRejectReasonBytes : Nat := 256

/-- `JoinRejected::new`. -/
def JoinRejected.new : Option String → Except ProtocolError JoinRejected
  | none => .ok ⟨none⟩
  | some reason =>
    if reason.isEmpty then .ok ⟨none⟩
    else if reason.utf8ByteSize > maxRejectReasonBytes then
      .error (.invalidField 1
        s!"reason must be at most {maxRejectReasonBytes} bytes, found {reason.utf8ByteSize}")
    else if containsControlChar reason.toList then
      .error (.invalidField 1 "reason contains control characters")
    else .ok ⟨some reason⟩

/-! ### Membership messages -/

structure SnapshotMember where
  memberId : Nat
  nickname : String
  color : UInt8
  isHost : Bool
  ed25519Pubkey : Key
deriving DecidableEq

structure MemberJoined where
  sequence : Nat
  epoch : Nat
  memberId : Nat
  nickname : String
  ed25519Pubkey : Key
  signature : Signature
deriving DecidableEq

/-- `MemberLeft` and `MemberKicked`, which have the same fields. -/
structure MemberGone where
  sequence : Nat
  epoch : Nat
  memberId : Nat
  signature : Signature
deriving DecidableEq

structure JoinPolicyChanged where
  sequence : Nat
  epoch : Nat
  isOpen : Bool
  signature : Signature
deriving DecidableEq

structure MemberSnapshot where
  sequence : Nat
  epoch : Nat
  members : List SnapshotMember
  signature : Signature
deriving DecidableEq

/-! ### Epoch and chat messages -/

structure EpochWrap where
  epoch : Nat
  nonce : Nonce
  ciphertext : Bytes
deriving DecidableEq

/-- `EpochWrap::new`. -/
def EpochWrap.new (epoch : Nat) (nonce : Nonce) (ciphertext : Bytes) :
    Except ProtocolError EpochWrap :=
  if ciphertext.length ≠ epochWrapCiphertextLen then
    .error (.invalidField 3
      s!"ciphertext must be {epochWrapCiphertextLen} bytes, found {ciphertext.length}")
  else .ok ⟨epoch, nonce, ciphertext⟩

structure EpochAck where
  epoch : Nat
deriving DecidableEq

structure EncryptedEnvelope where
  epoch : Nat
  senderId : Nat
  senderSequence : Nat
  nonce : Nonce
  ciphertext : Bytes
  signature : Signature
deriving DecidableEq

/-- `EncryptedEnvelope::new`. -/
def EncryptedEnvelope.new (epoch senderId senderSequence : Nat) (nonce : Nonce)
    (ciphertext : Bytes) (signature : Signature) : Except ProtocolError EncryptedEnvelope :=
  if chatMinCiphertextLen ≤ ciphertext.length ∧ ciphertext.length ≤ chatMaxCiphertextLen then
    .ok ⟨epoch, senderId, senderSequence, nonce, ciphertext, signature⟩
  else
    .error (.invalidField 5 (s!"ciphertext must be {chatMinCiphertextLen}..=" ++
      s!"{chatMaxCiphertextLen} bytes, found {ciphertext.length}"))

/-! ### Control messages -/

def maxErrorReasonBytes : Nat := 256

/-- `validate_reason`. -/
def validateReason (reason : String) : Except ProtocolError Unit :=
  if reason.utf8ByteSize > maxErrorReasonBytes then
    .error (.reasonTooLong reason.utf8ByteSize maxErrorReasonBytes)
  else if containsControlChar reason.toList then .error .invalidReasonText
  else .ok ()

structure ErrorMessage where
  code : ErrorCode
  reason : Option String
deriving DecidableEq

/-- `ErrorMessage::new`. -/
def ErrorMessage.new (code : ErrorCode) : Option String → Except ProtocolError ErrorMessage
  | none => .ok ⟨code, none⟩
  | some reason =>
    if reason.isEmpty then .ok ⟨code, none⟩
    else
      match validateReason reason with
      | .error error => .error error
      | .ok () => .ok ⟨code, some reason⟩

inductive Message
  | keepalive
  | error (message : ErrorMessage)
  | shutdown
  | hostHello (message : HostHello)
  | clientHello (message : ClientHello)
  | tokenVerify (message : TokenVerify)
  | passwordChallenge (message : PasswordChallenge)
  | challengeProof (message : ChallengeProof)
  | joinRequest (message : JoinRequestMessage)
  | joinAccepted (message : JoinAccepted)
  | joinRejected (message : JoinRejected)
  | epochWrap (message : EpochWrap)
  | epochAck (message : EpochAck)
  | memberJoined (message : MemberJoined)
  | memberLeft (message : MemberGone)
  | memberKicked (message : MemberGone)
  | joinPolicyChanged (message : JoinPolicyChanged)
  | memberSnapshot (message : MemberSnapshot)
  | chatMessage (envelope : EncryptedEnvelope)
  | colorChange (envelope : EncryptedEnvelope)
  | timeoutRequest (envelope : EncryptedEnvelope)
  | timeoutChanged (envelope : EncryptedEnvelope)
deriving DecidableEq

/-- `Message::message_type`. -/
def Message.messageType : Message → MessageType
  | .keepalive => .keepalive
  | .error _ => .error
  | .shutdown => .shutdown
  | .hostHello _ => .hostHello
  | .clientHello _ => .clientHello
  | .tokenVerify _ => .tokenVerify
  | .passwordChallenge _ => .passwordChallenge
  | .challengeProof _ => .challengeProof
  | .joinRequest _ => .joinRequest
  | .joinAccepted _ => .joinAccepted
  | .joinRejected _ => .joinRejected
  | .epochWrap _ => .epochWrap
  | .epochAck _ => .epochAck
  | .memberJoined _ => .memberJoined
  | .memberLeft _ => .memberLeft
  | .memberKicked _ => .memberKicked
  | .joinPolicyChanged _ => .joinPolicyChanged
  | .memberSnapshot _ => .memberSnapshot
  | .chatMessage _ => .chatMessage
  | .colorChange _ => .colorChange
  | .timeoutRequest _ => .timeoutRequest
  | .timeoutChanged _ => .timeoutChanged

/-- The envelope a message carries. -/
def Message.envelope? : Message → Option EncryptedEnvelope
  | .chatMessage envelope | .colorChange envelope | .timeoutRequest envelope
  | .timeoutChanged envelope => some envelope
  | _ => none

end Veilroom
