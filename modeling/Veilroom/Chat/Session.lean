import Veilroom.Protocol.Messages
import Veilroom.Crypto.Chat
import Veilroom.Chat.Replay

/-!
The participant's chat session (`chat/mod.rs`, `chat/session.rs`).

Every handler returns the session it leaves behind together with its result,
also when the result is an error.
-/
namespace Veilroom
open Transcript

/-! Message types, as `actor.rs` and `session.rs` name them. -/

def msgChat : UInt8 := 0x40
def msgColor : UInt8 := 0x41
def msgTimeoutRequest : UInt8 := 0x42
def msgTimeoutChanged : UInt8 := 0x43
def msgMemberJoined : UInt8 := 0x20
def msgMemberLeft : UInt8 := 0x21
def msgMemberKicked : UInt8 := 0x22
def msgJoinPolicy : UInt8 := 0x23
def msgMemberSnapshot : UInt8 := 0x24

inductive ChatError
  | noEpochKey
  | oldEpoch (found current : Nat)
  | unknownSender (senderId : Nat)
  | replayRejected (senderId sequence : Nat)
  | invalidSignature
  | invalidCiphertext
  | invalidPlaintext (text : String)
  | unknownColor (index : UInt8)
deriving DecidableEq, Repr

def ChatError.toString : ChatError → String
  | .noEpochKey => "no active epoch key"
  | .oldEpoch found current => s!"message epoch {found} is not the current epoch {current}"
  | .unknownSender senderId => s!"unknown sender member {senderId}"
  | .replayRejected senderId sequence =>
      s!"replayed message from member {senderId} with sequence {sequence}"
  | .invalidSignature => "invalid chat signature"
  | .invalidCiphertext => "chat decryption failed"
  | .invalidPlaintext text => s!"invalid chat plaintext: {text}"
  | .unknownColor index => s!"unknown color index {index}"

structure MemberView where
  memberId : MemberId
  nickname : String
  color : ColorChoice
  isHost : Bool
  ed25519Pubkey : Key
deriving DecidableEq

structure ChatSession where
  roomSessionId : Key
  hostEd25519Pubkey : Key
  hostX25519Pubkey : Key
  memberId : MemberId
  currentEpoch : Option (Nat × Key)
  senderSequence : Nat
  members : List MemberView
  replay : ReplayTracker
  lastRoomSequence : Option Nat
  joinPolicyOpen : Bool

/-- `validate_timeout_seconds`. -/
def validateTimeoutSeconds (seconds : Nat) : Except ChatError Unit :=
  if 1 ≤ seconds ∧ seconds ≤ maxMessageTimeoutSeconds then .ok ()
  else .error (.invalidPlaintext s!"timeout must be 1..={maxMessageTimeoutSeconds} seconds")

/-- `SnapshotMember` as the signed body carries it. -/
def SnapshotMember.toBody (member : SnapshotMember) : SnapshotBodyMember :=
  ⟨member.memberId, member.nickname, member.color, member.isHost, member.ed25519Pubkey⟩

/-- `SnapshotMember` as a session installs it. -/
def SnapshotMember.toView (member : SnapshotMember) : MemberView where
  memberId := member.memberId
  nickname := member.nickname
  color := (ColorChoice.fromIndex member.color).getD default
  isHost := member.isHost
  ed25519Pubkey := member.ed25519Pubkey

/-- The last loop of `validate_snapshot`; `prior` are the members already seen. -/
def validateSnapshotEntries (P : Primitives) (prior : List SnapshotMember) :
    List SnapshotMember → Except ChatError Unit
  | [] => .ok ()
  | member :: rest =>
    match validateNickname P member.nickname Limits.default with
    | .error error => .error (.invalidPlaintext error.toString)
    | .ok _ =>
      if (ColorChoice.fromIndex member.color).isNone then .error (.unknownColor member.color)
      else if prior.any fun p => p.memberId = member.memberId || p.nickname = member.nickname ||
          p.ed25519Pubkey = member.ed25519Pubkey then
        .error (.invalidPlaintext "member snapshot contains duplicate identities")
      else validateSnapshotEntries P (prior ++ [member]) rest

/-- `validate_snapshot`. -/
def validateSnapshot (P : Primitives) (members : List SnapshotMember) (ownId : MemberId) :
    Except ChatError Unit :=
  if members.isEmpty || !members.any fun member => member.memberId = ownId then
    .error (.invalidPlaintext "member snapshot omits the local member")
  else if members.length > Limits.default.maxActiveMembers then
    .error (.invalidPlaintext (s!"member snapshot lists {members.length} members, " ++
      s!"the room limit is {Limits.default.maxActiveMembers}"))
  else if (members.filter fun member => member.isHost && member.memberId = 0).length ≠ 1 ||
      members.any fun member => member.isHost ≠ decide (member.memberId = 0) then
    .error (.invalidPlaintext "member snapshot has an invalid host entry")
  else validateSnapshotEntries P [] members

namespace ChatSession
variable (P : Primitives)

/-- `ChatSession::new`. -/
def new (roomSessionId hostEd25519Pubkey hostX25519Pubkey : Key) (memberId : MemberId) :
    ChatSession where
  roomSessionId := roomSessionId
  hostEd25519Pubkey := hostEd25519Pubkey
  hostX25519Pubkey := hostX25519Pubkey
  memberId := memberId
  currentEpoch := none
  senderSequence := 0
  members := []
  replay := ReplayTracker.new
  lastRoomSequence := none
  joinPolicyOpen := true

/-- `ChatSession::current_epoch`. -/
def epoch (s : ChatSession) : Option Nat := s.currentEpoch.map Prod.fst

/-- `ChatSession::install_epoch`. -/
def installEpoch (s : ChatSession) (epoch : Nat) (key : Key) : ChatSession :=
  if s.epoch.any fun current => epoch ≤ current then s
  else { s with currentEpoch := some (epoch, key), replay := s.replay.retainEpoch epoch }

/-- `ChatSession::set_epoch_from_wrap`. -/
def setEpochFromWrap (s : ChatSession) (identity : MemberIdentity) (wrap : EpochWrap) :
    ChatSession × Except ChatError Nat :=
  match s.epoch.filter fun current => wrap.epoch ≤ current with
  | some current => (s, .error (.oldEpoch wrap.epoch current))
  | none =>
    match identity.tryWrapKeyFor P s.hostX25519Pubkey s.roomSessionId s.memberId with
    | .error _ => (s, .error .invalidCiphertext)
    | .ok wrapKey =>
      match unwrapEpochKey P wrapKey wrap.epoch s.roomSessionId wrap.nonce wrap.ciphertext with
      | .error _ => (s, .error .invalidCiphertext)
      | .ok key => (s.installEpoch wrap.epoch key, .ok wrap.epoch)

/-- `ChatSession::member`. -/
def member (s : ChatSession) (memberId : MemberId) : Option MemberView :=
  s.members.find? fun view => view.memberId = memberId

/-- `ChatSession::install_member` on the member list. -/
def installMemberView (view : MemberView) : List MemberView → List MemberView
  | [] => [view]
  | existing :: rest =>
    if existing.memberId = view.memberId then view :: rest
    else existing :: installMemberView view rest

/-- `ChatSession::install_member`. -/
def installMember (s : ChatSession) (view : MemberView) : ChatSession :=
  { s with members := installMemberView view s.members }

/-- `ChatSession::remove_member`. -/
def removeMember (s : ChatSession) (memberId : MemberId) : ChatSession :=
  { s with members := s.members.filter fun view => view.memberId ≠ memberId }

/-- `ChatSession::install_snapshot`. -/
def installSnapshot (s : ChatSession) (members : List SnapshotMember) : ChatSession :=
  { s with members := members.map SnapshotMember.toView }

/-- `ChatSession::seal`. -/
def sealMessage (s : ChatSession) (nonce : Option Nonce) (identity : MemberIdentity)
    (messageType : UInt8) (plaintext : Bytes) : ChatSession × Except ChatError EncryptedEnvelope :=
  match s.currentEpoch with
  | none => (s, .error .noEpochKey)
  | some (epoch, epochKey) =>
    let s := { s with senderSequence := s.senderSequence + 1 }
    match sealEnvelope P nonce epochKey identity 1 s.roomSessionId epoch s.memberId
        s.senderSequence messageType plaintext with
    | .error _ => (s, .error .invalidCiphertext)
    | .ok sealed =>
      match EncryptedEnvelope.new epoch s.memberId s.senderSequence sealed.nonce sealed.ciphertext
          sealed.signature with
      | .error _ => (s, .error .invalidCiphertext)
      | .ok envelope => (s, .ok envelope)

/-- `ChatSession::send_chat`. -/
def sendChat (s : ChatSession) (nonce : Option Nonce) (identity : MemberIdentity) (text : String) :
    ChatSession × Except ChatError Message :=
  match validateChatText text Limits.default with
  | .error error => (s, .error (.invalidPlaintext error.toString))
  | .ok () =>
    let (s, result) := s.sealMessage P nonce identity msgChat (utf8 text)
    (s, result.map .chatMessage)

/-- `ChatSession::send_color`. -/
def sendColor (s : ChatSession) (nonce : Option Nonce) (identity : MemberIdentity)
    (color : ColorChoice) : ChatSession × Except ChatError Message :=
  let (s, result) := s.sealMessage P nonce identity msgColor [color.asIndex]
  (s, result.map .colorChange)

/-- `ChatSession::send_timeout_request`. -/
def sendTimeoutRequest (s : ChatSession) (nonce : Option Nonce) (identity : MemberIdentity)
    (seconds : Nat) : ChatSession × Except ChatError Message :=
  match validateTimeoutSeconds seconds with
  | .error error => (s, .error error)
  | .ok () =>
    let (s, result) := s.sealMessage P nonce identity msgTimeoutRequest (u64 seconds)
    (s, result.map .timeoutRequest)

/-- The nine bytes of a timeout setting. -/
def timeoutPayload : Option Nat → Bytes
  | none => List.replicate 9 0
  | some seconds => 1 :: u64 seconds

/-- `ChatSession::send_timeout_changed`. -/
def sendTimeoutChanged (s : ChatSession) (nonce : Option Nonce) (identity : MemberIdentity)
    (interval : Option Nat) : ChatSession × Except ChatError Message :=
  match interval.elim (.ok ()) validateTimeoutSeconds with
  | .error error => (s, .error error)
  | .ok () =>
    let (s, result) := s.sealMessage P nonce identity msgTimeoutChanged (timeoutPayload interval)
    (s, result.map .timeoutChanged)

/-- `ChatSession::open`. -/
def openMessage (s : ChatSession) (messageType : UInt8) (envelope : EncryptedEnvelope) :
    ChatSession × Except ChatError Bytes :=
  match s.currentEpoch with
  | none => (s, .error .noEpochKey)
  | some (epoch, epochKey) =>
    if envelope.epoch ≠ epoch then (s, .error (.oldEpoch envelope.epoch epoch))
    else
      match s.member envelope.senderId with
      | none => (s, .error (.unknownSender envelope.senderId))
      | some sender =>
        if ¬ s.replay.Fresh envelope.senderId epoch envelope.senderSequence then
          (s, .error (.replayRejected envelope.senderId envelope.senderSequence))
        else
          match openEnvelope P epochKey sender.ed25519Pubkey 1 s.roomSessionId epoch
              envelope.senderId envelope.senderSequence messageType envelope.nonce
              envelope.ciphertext envelope.signature with
          | .error .invalidSignature => (s, .error .invalidSignature)
          | .error (.decrypt _) => (s, .error .invalidCiphertext)
          | .ok plaintext =>
            ({ s with replay := (s.replay.accept envelope.senderId epoch
                envelope.senderSequence).1 }, .ok plaintext)

/-- `ChatSession::receive_chat`. -/
def receiveChat (s : ChatSession) (envelope : EncryptedEnvelope) :
    ChatSession × Except ChatError String :=
  match s.openMessage P msgChat envelope with
  | (s, .error error) => (s, .error error)
  | (s, .ok plaintext) =>
    match String.fromUTF8? ⟨plaintext.toArray⟩ with
    | none => (s, .error (.invalidPlaintext "not valid UTF-8"))
    | some text =>
      match validateChatText text Limits.default with
      | .error error => (s, .error (.invalidPlaintext error.toString))
      | .ok () => (s, .ok text)

/-- `ChatSession::receive_color`. -/
def receiveColor (s : ChatSession) (envelope : EncryptedEnvelope) :
    ChatSession × Except ChatError ColorChoice :=
  match s.openMessage P msgColor envelope with
  | (s, .error error) => (s, .error error)
  | (s, .ok [index]) =>
    match ColorChoice.fromIndex index with
    | none => (s, .error (.unknownColor index))
    | some color => (s, .ok color)
  | (s, .ok _) => (s, .error (.invalidPlaintext "color payload must be one byte"))

/-- `ChatSession::receive_timeout_request`. -/
def receiveTimeoutRequest (s : ChatSession) (envelope : EncryptedEnvelope) :
    ChatSession × Except ChatError Nat :=
  match s.openMessage P msgTimeoutRequest envelope with
  | (s, .error error) => (s, .error error)
  | (s, .ok plaintext) =>
    if plaintext.length ≠ 8 then
      (s, .error (.invalidPlaintext "timeout request must contain eight bytes"))
    else
      let seconds := BigEndian.decode plaintext
      match validateTimeoutSeconds seconds with
      | .error error => (s, .error error)
      | .ok () => (s, .ok seconds)

/-- `ChatSession::receive_timeout_changed`. -/
def receiveTimeoutChanged (s : ChatSession) (envelope : EncryptedEnvelope) :
    ChatSession × Except ChatError (Option Nat) :=
  if envelope.senderId ≠ 0 then
    (s, .error (.invalidPlaintext "only the host can change the room timeout"))
  else
    match s.openMessage P msgTimeoutChanged envelope with
    | (s, .error error) => (s, .error error)
    | (s, .ok plaintext) =>
      match plaintext with
      | flag :: rest =>
        if rest.length ≠ 8 then
          (s, .error (.invalidPlaintext "timeout setting must contain nine bytes"))
        else if flag = 0 ∧ rest.all (· = 0) then (s, .ok none)
        else if flag = 1 then
          let seconds := BigEndian.decode rest
          match validateTimeoutSeconds seconds with
          | .error error => (s, .error error)
          | .ok () => (s, .ok (some seconds))
        else (s, .error (.invalidPlaintext "invalid timeout setting flag"))
      | [] => (s, .error (.invalidPlaintext "timeout setting must contain nine bytes"))

/-- `ChatSession::verify_room_event`. -/
def verifyRoomEvent (s : ChatSession) (sequence epoch : Nat) (eventType : UInt8) (body : Bytes)
    (signature : Signature) : ChatSession × Except ChatError Unit :=
  let transcript := roomEventTranscript 1 s.roomSessionId sequence epoch eventType body
  if ¬ P.ed25519Verify s.hostEd25519Pubkey transcript signature then
    (s, .error .invalidSignature)
  else
    match s.epoch.filter fun current => epoch ≠ current with
    | some current => (s, .error (.oldEpoch epoch current))
    | none =>
      if s.lastRoomSequence.any fun last => sequence ≤ last then
        (s, .error (.replayRejected 0 sequence))
      else ({ s with lastRoomSequence := some sequence }, .ok ())

/-- `ChatSession::handle_member_joined`. -/
def handleMemberJoined (s : ChatSession) (event : MemberJoined) :
    ChatSession × Except ChatError Unit :=
  match validateNickname P event.nickname Limits.default with
  | .error error => (s, .error (.invalidPlaintext error.toString))
  | .ok _ =>
    if event.memberId = 0 || s.members.any fun member =>
        member.memberId = event.memberId || member.nickname = event.nickname ||
          member.ed25519Pubkey = event.ed25519Pubkey then
      (s, .error (.invalidPlaintext "duplicate or invalid member identity"))
    else
      let body := memberJoinedBody event.memberId event.nickname event.ed25519Pubkey
      match s.verifyRoomEvent P event.sequence event.epoch msgMemberJoined body
          event.signature with
      | (s, .error error) => (s, .error error)
      | (s, .ok ()) =>
        (s.installMember ⟨event.memberId, event.nickname, default, false, event.ed25519Pubkey⟩,
          .ok ())

/-- `ChatSession::handle_member_gone`. -/
def handleMemberGone (s : ChatSession) (eventType : UInt8) (event : MemberGone) :
    ChatSession × Except ChatError Unit :=
  match s.verifyRoomEvent P event.sequence event.epoch eventType (memberGoneBody event.memberId)
      event.signature with
  | (s, .error error) => (s, .error error)
  | (s, .ok ()) => (s.removeMember event.memberId, .ok ())

/-- `ChatSession::handle_member_snapshot`. -/
def handleMemberSnapshot (s : ChatSession) (event : MemberSnapshot) :
    ChatSession × Except ChatError Unit :=
  match validateSnapshot P event.members s.memberId with
  | .error error => (s, .error error)
  | .ok () =>
    let body := memberSnapshotBody (event.members.map SnapshotMember.toBody)
    match s.verifyRoomEvent P event.sequence event.epoch msgMemberSnapshot body
        event.signature with
    | (s, .error error) => (s, .error error)
    | (s, .ok ()) => (s.installSnapshot event.members, .ok ())

/-- `ChatSession::handle_membership_message`. -/
def handleMembershipMessage (s : ChatSession) (message : Message) :
    ChatSession × Except ChatError Unit :=
  match message with
  | .memberJoined event => s.handleMemberJoined P event
  | .memberLeft event => s.handleMemberGone P msgMemberLeft event
  | .memberKicked event => s.handleMemberGone P msgMemberKicked event
  | .joinPolicyChanged event =>
    match s.verifyRoomEvent P event.sequence event.epoch msgJoinPolicy
        (joinPolicyBody event.isOpen) event.signature with
    | (s, .error error) => (s, .error error)
    | (s, .ok ()) => ({ s with joinPolicyOpen := event.isOpen }, .ok ())
  | .memberSnapshot event => s.handleMemberSnapshot P event
  | _ => (s, .error (.invalidPlaintext "not a membership message"))

end ChatSession

end Veilroom
