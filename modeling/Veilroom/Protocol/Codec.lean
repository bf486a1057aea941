import Veilroom.Protocol.Strict
import Veilroom.Protocol.Frame

/-!
The wire form of every message (`handshake.rs`, `membership.rs`, `epoch.rs`,
`chat.rs`, `messages.rs`).

A message's `Fields` are what its decoder has seen so far. Encoding into memory
cannot fail.
-/
namespace Veilroom
open StrictDecoder
variable (M : Minicbor)

/-- `fixed_bytes` of the handshake messages. -/
def handshakeBytes (n field : Nat) : Decode (Vector UInt8 n) :=
  fixedBytes M n field fun found => s!"expected {n} bytes, found {found}"

/-- `read_signature` of the membership messages, and the signature of an envelope. -/
def readSignature (field : Nat) : Decode Signature :=
  fixedBytes M 64 field fun _ => "signature must be 64 bytes"

/-- The public key of a membership message. -/
def readPubkey (field : Nat) : Decode Key :=
  fixedBytes M 32 field fun _ => "ed25519 pubkey must be 32 bytes"

/-- The nonce of a wrap or an envelope. -/
def readNonce (field : Nat) : Decode Nonce :=
  fixedBytes M xchachaNonceLen field fun found =>
    s!"nonce must be {xchachaNonceLen} bytes, found {found}"

/-! ### Handshake messages -/

namespace ClientHello

structure Fields where
  version : Option UInt8 := none
  clientNonce : Option ShortNonce := none
  features : Option UInt32 := none

/-- `ClientHello::strict_decode`. -/
def strictDecode : Decode ClientHello :=
  schema M
    (fun (f : Fields) key => match key with
      | 1 => store (fun v => { f with version := some v }) (u8 M)
      | 2 => store (fun v => { f with clientNonce := some v }) (handshakeBytes M 16 2)
      | 3 => store (fun v => { f with features := some v }) (u32 M)
      | other => unknownField other)
    {} fun f => do
    return ⟨← required 1 f.version, ← required 2 f.clientNonce, ← required 3 f.features⟩

/-- `ClientHello::encode`. -/
def encode (m : ClientHello) : Bytes :=
  M.map 3 ++ encodeEntries M
    [(1, M.uint m.version.toNat), (2, M.bytes m.clientNonce.toList), (3, M.uint m.features.toNat)]

end ClientHello

namespace HostHello

structure Fields where
  version : Option UInt8 := none
  roomSessionId : Option Key := none
  hostPubkey : Option Key := none
  hostX25519Pubkey : Option Key := none
  serverNonce : Option ShortNonce := none
  signature : Option Signature := none

/-- `HostHello::strict_decode`. -/
def strictDecode : Decode HostHello :=
  schema M
    (fun (f : Fields) key => match key with
      | 1 => store (fun v => { f with version := some v }) (u8 M)
      | 2 => store (fun v => { f with roomSessionId := some v }) (handshakeBytes M 32 2)
      | 3 => store (fun v => { f with hostPubkey := some v }) (handshakeBytes M 32 3)
      | 4 => store (fun v => { f with hostX25519Pubkey := some v }) (handshakeBytes M 32 4)
      | 5 => store (fun v => { f with serverNonce := some v }) (handshakeBytes M 16 5)
      | 6 => store (fun v => { f with signature := some v }) (handshakeBytes M 64 6)
      | other => unknownField other)
    {} fun f => do
    return ⟨← required 1 f.version, ← required 2 f.roomSessionId, ← required 3 f.hostPubkey,
      ← required 4 f.hostX25519Pubkey, ← required 5 f.serverNonce, ← required 6 f.signature⟩

/-- `HostHello::encode`. -/
def encode (m : HostHello) : Bytes :=
  M.map 6 ++ encodeEntries M
    [(1, M.uint m.version.toNat), (2, M.bytes m.roomSessionId.toList),
      (3, M.bytes m.hostEd25519Pubkey.toList), (4, M.bytes m.hostX25519Pubkey.toList),
      (5, M.bytes m.serverNonce.toList), (6, M.bytes m.hostSignature.toList)]

end HostHello

namespace TokenVerify

/-- `TokenVerify::strict_decode`. -/
def strictDecode : Decode TokenVerify :=
  schema M
    (fun _ key => match key with
      | 1 => store some (StrictDecoder.bytes M)
      | other => unknownField other)
    none fun token => do TokenVerify.new (← required 1 token)

/-- `TokenVerify::encode`. -/
def encode (m : TokenVerify) : Bytes := M.map 1 ++ encodeEntries M [(1, M.bytes m.token)]

end TokenVerify

namespace PasswordChallenge

structure Fields where
  mCost : Option UInt32 := none
  tCost : Option UInt32 := none
  pCost : Option UInt8 := none
  salt : Option ShortNonce := none
  challengeNonce : Option ShortNonce := none

/-- `PasswordChallenge::strict_decode`. -/
def strictDecode : Decode PasswordChallenge :=
  schema M
    (fun (f : Fields) key => match key with
      | 1 => store (fun v => { f with mCost := some v }) (u32 M)
      | 2 => store (fun v => { f with tCost := some v }) (u32 M)
      | 3 => store (fun v => { f with pCost := some v }) (u8 M)
      | 4 => store (fun v => { f with salt := some v }) (handshakeBytes M 16 4)
      | 5 => store (fun v => { f with challengeNonce := some v }) (handshakeBytes M 16 5)
      | other => unknownField other)
    {} fun f => do
    return ⟨← required 1 f.mCost, ← required 2 f.tCost, ← required 3 f.pCost,
      ← required 4 f.salt, ← required 5 f.challengeNonce⟩

/-- `PasswordChallenge::encode`. -/
def encode (m : PasswordChallenge) : Bytes :=
  M.map 5 ++ encodeEntries M
    [(1, M.uint m.mCost.toNat), (2, M.uint m.tCost.toNat), (3, M.uint m.pCost.toNat),
      (4, M.bytes m.salt.toList), (5, M.bytes m.challengeNonce.toList)]

end PasswordChallenge

namespace ChallengeProof

/-- `ChallengeProof::strict_decode`. -/
def strictDecode : Decode ChallengeProof :=
  schema M
    (fun _ key => match key with
      | 1 => store some (handshakeBytes M 32 1)
      | other => unknownField other)
    none fun proof => do return ⟨← required 1 proof⟩

/-- `ChallengeProof::encode`. -/
def encode (m : ChallengeProof) : Bytes := M.map 1 ++ encodeEntries M [(1, M.bytes m.proof.toList)]

end ChallengeProof

namespace JoinRequestMessage

structure Fields where
  nickname : Option String := none
  introduction : Option String := none
  ed25519Pubkey : Option Key := none
  x25519Pubkey : Option Key := none
  signature : Option Signature := none

/-- `JoinRequest::strict_decode`. -/
def strictDecode (P : Primitives) : Decode JoinRequestMessage :=
  schema M
    (fun (f : Fields) key => match key with
      | 1 => store (fun v => { f with nickname := some v }) (str M)
      | 2 => store (fun v => { f with introduction := some v }) (str M)
      | 3 => store (fun v => { f with ed25519Pubkey := some v }) (handshakeBytes M 32 3)
      | 4 => store (fun v => { f with x25519Pubkey := some v }) (handshakeBytes M 32 4)
      | 5 => store (fun v => { f with signature := some v }) (handshakeBytes M 64 5)
      | other => unknownField other)
    {} fun f => do
    JoinRequestMessage.new P (← required 1 f.nickname) f.introduction
      (← required 3 f.ed25519Pubkey) (← required 4 f.x25519Pubkey) (← required 5 f.signature)

/-- `JoinRequest::encode`. -/
def encode (m : JoinRequestMessage) : Bytes :=
  match m.introduction with
  | some introduction =>
    M.map 5 ++ encodeEntries M
      [(1, M.str m.nickname), (2, M.str introduction), (3, M.bytes m.ed25519Pubkey.toList),
        (4, M.bytes m.x25519Pubkey.toList), (5, M.bytes m.signature.toList)]
  | none =>
    M.map 4 ++ encodeEntries M
      [(1, M.str m.nickname), (3, M.bytes m.ed25519Pubkey.toList),
        (4, M.bytes m.x25519Pubkey.toList), (5, M.bytes m.signature.toList)]

end JoinRequestMessage

namespace JoinAccepted

/-- `JoinAccepted::strict_decode`. -/
def strictDecode : Decode JoinAccepted :=
  schema M
    (fun _ key => match key with
      | 1 => store some (u64 M)
      | other => unknownField other)
    none fun memberId => do return ⟨← required 1 memberId⟩

/-- `JoinAccepted::encode`. -/
def encode (m : JoinAccepted) : Bytes := M.map 1 ++ encodeEntries M [(1, M.uint m.memberId)]

end JoinAccepted

namespace JoinRejected

/-- `JoinRejected::strict_decode`. -/
def strictDecode : Decode JoinRejected := schema M
    (fun _ key => match key with
      | 1 => store some (str M)
      | other => unknownField other)
    none JoinRejected.new

/-- `JoinRejected::encode`. -/
def encode (m : JoinRejected) : Bytes :=
  match m.reason with
  | some reason => M.map 1 ++ encodeEntries M [(1, M.str reason)]
  | none => M.map 0 ++ encodeEntries M []

end JoinRejected

/-! ### Membership messages -/

namespace SnapshotMember

structure Fields where
  memberId : Option Nat := none
  nickname : Option String := none
  color : Option UInt8 := none
  isHost : Option Bool := none
  pubkey : Option Key := none

/-- `SnapshotMember::strict_decode`. -/
def strictDecode : Decode SnapshotMember :=
  schema M
    (fun (f : Fields) key => match key with
      | 1 => store (fun v => { f with memberId := some v }) (u64 M)
      | 2 => store (fun v => { f with nickname := some v }) (str M)
      | 3 => store (fun v => { f with color := some v }) (u8 M)
      | 4 => store (fun v => { f with isHost := some v }) (StrictDecoder.bool M)
      | 5 => store (fun v => { f with pubkey := some v }) (readPubkey M 5)
      | other => unknownField other)
    {} fun f => do
    return ⟨← required 1 f.memberId, ← required 2 f.nickname, ← required 3 f.color,
      ← required 4 f.isHost, ← required 5 f.pubkey⟩

/-- `SnapshotMember::encode`. -/
def encode (m : SnapshotMember) : Bytes :=
  M.map 5 ++ encodeEntries M
    [(1, M.uint m.memberId), (2, M.str m.nickname), (3, M.uint m.color.toNat),
      (4, M.bool m.isHost), (5, M.bytes m.ed25519Pubkey.toList)]

end SnapshotMember

namespace MemberJoined

structure Fields where
  sequence : Option Nat := none
  epoch : Option Nat := none
  memberId : Option Nat := none
  nickname : Option String := none
  pubkey : Option Key := none
  signature : Option Signature := none

/-- `MemberJoined::strict_decode`. -/
def strictDecode : Decode MemberJoined :=
  schema M
    (fun (f : Fields) key => match key with
      | 1 => store (fun v => { f with sequence := some v }) (u64 M)
      | 2 => store (fun v => { f with epoch := some v }) (u64 M)
      | 3 => store (fun v => { f with memberId := some v }) (u64 M)
      | 4 => store (fun v => { f with nickname := some v }) (str M)
      | 5 => store (fun v => { f with pubkey := some v }) (readPubkey M 5)
      | 6 => store (fun v => { f with signature := some v }) (readSignature M 6)
      | other => unknownField other)
    {} fun f => do
    return ⟨← required 1 f.sequence, ← required 2 f.epoch, ← required 3 f.memberId,
      ← required 4 f.nickname, ← required 5 f.pubkey, ← required 6 f.signature⟩

/-- `MemberJoined::encode`. -/
def encode (m : MemberJoined) : Bytes :=
  M.map 6 ++ encodeEntries M
    [(1, M.uint m.sequence), (2, M.uint m.epoch), (3, M.uint m.memberId), (4, M.str m.nickname),
      (5, M.bytes m.ed25519Pubkey.toList), (6, M.bytes m.signature.toList)]

end MemberJoined

namespace MemberGone

structure Fields where
  sequence : Option Nat := none
  epoch : Option Nat := none
  memberId : Option Nat := none
  signature : Option Signature := none

/-- `decode_gone`, the `strict_decode` of `MemberLeft` and `MemberKicked`. -/
def strictDecode : Decode MemberGone :=
  schema M
    (fun (f : Fields) key => match key with
      | 1 => store (fun v => { f with sequence := some v }) (u64 M)
      | 2 => store (fun v => { f with epoch := some v }) (u64 M)
      | 3 => store (fun v => { f with memberId := some v }) (u64 M)
      | 4 => store (fun v => { f with signature := some v }) (readSignature M 4)
      | other => unknownField other)
    {} fun f => do
    return ⟨← required 1 f.sequence, ← required 2 f.epoch, ← required 3 f.memberId,
      ← required 4 f.signature⟩

/-- `encode_gone`. -/
def encode (m : MemberGone) : Bytes :=
  M.map 4 ++ encodeEntries M
    [(1, M.uint m.sequence), (2, M.uint m.epoch), (3, M.uint m.memberId),
      (4, M.bytes m.signature.toList)]

end MemberGone

namespace JoinPolicyChanged

structure Fields where
  sequence : Option Nat := none
  epoch : Option Nat := none
  isOpen : Option Bool := none
  signature : Option Signature := none

/-- `JoinPolicyChanged::strict_decode`. -/
def strictDecode : Decode JoinPolicyChanged :=
  schema M
    (fun (f : Fields) key => match key with
      | 1 => store (fun v => { f with sequence := some v }) (u64 M)
      | 2 => store (fun v => { f with epoch := some v }) (u64 M)
      | 3 => store (fun v => { f with isOpen := some v }) (StrictDecoder.bool M)
      | 4 => store (fun v => { f with signature := some v }) (readSignature M 4)
      | other => unknownField other)
    {} fun f => do
    return ⟨← required 1 f.sequence, ← required 2 f.epoch, ← required 3 f.isOpen,
      ← required 4 f.signature⟩

/-- `JoinPolicyChanged::encode`. -/
def encode (m : JoinPolicyChanged) : Bytes :=
  M.map 4 ++ encodeEntries M
    [(1, M.uint m.sequence), (2, M.uint m.epoch), (3, M.bool m.isOpen),
      (4, M.bytes m.signature.toList)]

end JoinPolicyChanged

namespace MemberSnapshot

structure Fields where
  sequence : Option Nat := none
  epoch : Option Nat := none
  members : Option (List SnapshotMember) := none
  signature : Option Signature := none

def readMembers : Decode (List SnapshotMember) :=
  arrayEntries M (fun decoded => store (fun m => decoded ++ [m]) (SnapshotMember.strictDecode M)) []

/-- `MemberSnapshot::strict_decode`. -/
def strictDecode : Decode MemberSnapshot :=
  schema M
    (fun (f : Fields) key => match key with
      | 1 => store (fun v => { f with sequence := some v }) (u64 M)
      | 2 => store (fun v => { f with epoch := some v }) (u64 M)
      | 3 => store (fun v => { f with members := some v }) (readMembers M)
      | 4 => store (fun v => { f with signature := some v }) (readSignature M 4)
      | other => unknownField other)
    {} fun f => do
    return ⟨← required 1 f.sequence, ← required 2 f.epoch, ← required 3 f.members,
      ← required 4 f.signature⟩

/-- `MemberSnapshot::encode`. -/
def encode (m : MemberSnapshot) : Bytes :=
  M.map 4 ++ encodeEntries M
    [(1, M.uint m.sequence), (2, M.uint m.epoch),
      (3, M.array m.members.length ++ m.members.flatMap (SnapshotMember.encode M)),
      (4, M.bytes m.signature.toList)]

end MemberSnapshot

/-! ### Epoch and chat messages -/

namespace EpochWrap

structure Fields where
  epoch : Option Nat := none
  nonce : Option Nonce := none
  ciphertext : Option Bytes := none

/-- `EpochWrap::strict_decode`. -/
def strictDecode : Decode EpochWrap :=
  schema M
    (fun (f : Fields) key => match key with
      | 1 => store (fun v => { f with epoch := some v }) (u64 M)
      | 2 => store (fun v => { f with nonce := some v }) (readNonce M 2)
      | 3 => store (fun v => { f with ciphertext := some v }) (StrictDecoder.bytes M)
      | other => unknownField other)
    {} fun f => do
    EpochWrap.new (← required 1 f.epoch) (← required 2 f.nonce) (← required 3 f.ciphertext)

/-- `EpochWrap::encode`. -/
def encode (m : EpochWrap) : Bytes :=
  M.map 3 ++ encodeEntries M
    [(1, M.uint m.epoch), (2, M.bytes m.nonce.toList), (3, M.bytes m.ciphertext)]

end EpochWrap

namespace EpochAck

/-- `EpochAck::strict_decode`. -/
def strictDecode : Decode EpochAck :=
  schema M
    (fun _ key => match key with
      | 1 => store some (u64 M)
      | other => unknownField other)
    none fun epoch => do return ⟨← required 1 epoch⟩

/-- `EpochAck::encode`. -/
def encode (m : EpochAck) : Bytes := M.map 1 ++ encodeEntries M [(1, M.uint m.epoch)]

end EpochAck

namespace EncryptedEnvelope

structure Fields where
  epoch : Option Nat := none
  senderId : Option Nat := none
  senderSequence : Option Nat := none
  nonce : Option Nonce := none
  ciphertext : Option Bytes := none
  signature : Option Signature := none

/-- `EncryptedEnvelope::strict_decode`. -/
def strictDecode : Decode EncryptedEnvelope :=
  schema M
    (fun (f : Fields) key => match key with
      | 1 => store (fun v => { f with epoch := some v }) (u64 M)
      | 2 => store (fun v => { f with senderId := some v }) (u64 M)
      | 3 => store (fun v => { f with senderSequence := some v }) (u64 M)
      | 4 => store (fun v => { f with nonce := some v }) (readNonce M 4)
      | 5 => store (fun v => { f with ciphertext := some v }) (StrictDecoder.bytes M)
      | 6 => store (fun v => { f with signature := some v }) (readSignature M 6)
      | other => unknownField other)
    {} fun f => do
    EncryptedEnvelope.new (← required 1 f.epoch) (← required 2 f.senderId)
      (← required 3 f.senderSequence) (← required 4 f.nonce) (← required 5 f.ciphertext)
      (← required 6 f.signature)

/-- `EncryptedEnvelope::encode`. -/
def encode (m : EncryptedEnvelope) : Bytes :=
  M.map 6 ++ encodeEntries M
    [(1, M.uint m.epoch), (2, M.uint m.senderId), (3, M.uint m.senderSequence),
      (4, M.bytes m.nonce.toList), (5, M.bytes m.ciphertext), (6, M.bytes m.signature.toList)]

end EncryptedEnvelope

/-! ### Control messages -/

namespace ErrorMessage

structure Fields where
  code : Option ErrorCode := none
  reason : Option String := none

/-- `ErrorMessage::strict_decode`. -/
def strictDecode : Decode ErrorMessage :=
  schema M
    (fun (f : Fields) key => match key with
      | 1 => convert (fun raw => (ErrorCode.fromU8 raw).elim (.error (.unknownErrorCode raw))
          fun code => .ok { f with code := some code }) (u8 M)
      | 2 => convert (fun text => do
          validateReason text
          return { f with reason := some text }) (str M)
      | other => unknownField other)
    {} fun f => do return ⟨← required 1 f.code, f.reason⟩

/-- `ErrorMessage::encode`. -/
def encode (m : ErrorMessage) : Bytes :=
  match m.reason with
  | some reason => M.map 2 ++ encodeEntries M [(1, M.uint m.code.asU8.toNat), (2, M.str reason)]
  | none => M.map 1 ++ encodeEntries M [(1, M.uint m.code.asU8.toNat)]

end ErrorMessage

/-- The `strict_decode` of `Keepalive` and `Shutdown`. -/
def decodeEmpty : Decode Unit := mapEntries M (fun _ key => unknownField key) ()

/-- The `encode` of `Keepalive` and `Shutdown`. -/
def encodeEmpty : Bytes := M.map 0 ++ encodeEntries M []

/-! ### Messages -/

/-- `decode_message_body`. -/
def decodeMessageBody {α : Type} (frame : Frame) (schema : Decode α) (limits : Limits) :
    Except ProtocolError α := do
  let (value, d) ← schema (StrictDecoder.new frame.payload limits)
  d.finish
  return value

namespace Message

/-- `Message::encode_body`. -/
def encodeBody : Message → Bytes
  | keepalive => encodeEmpty M
  | error message => message.encode M
  | shutdown => encodeEmpty M
  | hostHello message => message.encode M
  | clientHello message => message.encode M
  | tokenVerify message => message.encode M
  | passwordChallenge message => message.encode M
  | challengeProof message => message.encode M
  | joinRequest message => message.encode M
  | joinAccepted message => message.encode M
  | joinRejected message => message.encode M
  | epochWrap message => message.encode M
  | epochAck message => message.encode M
  | memberJoined message => message.encode M
  | memberLeft message => message.encode M
  | memberKicked message => message.encode M
  | joinPolicyChanged message => message.encode M
  | memberSnapshot message => message.encode M
  | chatMessage envelope => envelope.encode M
  | colorChange envelope => envelope.encode M
  | timeoutRequest envelope => envelope.encode M
  | timeoutChanged envelope => envelope.encode M

/-- `Message::encode`. -/
def encode (message : Message) (limits : Limits) : Except ProtocolError Bytes :=
  match encodeFrame message.messageType (message.encodeBody M) limits with
  | .ok bytes => .ok bytes
  | .error cause => .error (.frame cause)

/-- The schema of each message type. -/
def decodeBody (P : Primitives) : MessageType → Decode Message
  | .keepalive => store (fun _ => keepalive) (decodeEmpty M)
  | .error => store error (ErrorMessage.strictDecode M)
  | .shutdown => store (fun _ => shutdown) (decodeEmpty M)
  | .hostHello => store hostHello (HostHello.strictDecode M)
  | .clientHello => store clientHello (ClientHello.strictDecode M)
  | .tokenVerify => store tokenVerify (TokenVerify.strictDecode M)
  | .passwordChallenge => store passwordChallenge (PasswordChallenge.strictDecode M)
  | .challengeProof => store challengeProof (ChallengeProof.strictDecode M)
  | .joinRequest => store joinRequest (JoinRequestMessage.strictDecode M P)
  | .joinAccepted => store joinAccepted (JoinAccepted.strictDecode M)
  | .joinRejected => store joinRejected (JoinRejected.strictDecode M)
  | .epochWrap => store epochWrap (EpochWrap.strictDecode M)
  | .epochAck => store epochAck (EpochAck.strictDecode M)
  | .memberJoined => store memberJoined (MemberJoined.strictDecode M)
  | .memberLeft => store memberLeft (MemberGone.strictDecode M)
  | .memberKicked => store memberKicked (MemberGone.strictDecode M)
  | .joinPolicyChanged => store joinPolicyChanged (JoinPolicyChanged.strictDecode M)
  | .memberSnapshot => store memberSnapshot (MemberSnapshot.strictDecode M)
  | .chatMessage => store chatMessage (EncryptedEnvelope.strictDecode M)
  | .colorChange => store colorChange (EncryptedEnvelope.strictDecode M)
  | .timeoutRequest => store timeoutRequest (EncryptedEnvelope.strictDecode M)
  | .timeoutChanged => store timeoutChanged (EncryptedEnvelope.strictDecode M)

/-- `Message::decode`. -/
def decode (P : Primitives) (frame : Frame) (limits : Limits) : Except ProtocolError Message :=
  decodeMessageBody frame (decodeBody M P frame.messageType) limits

end Message

end Veilroom
