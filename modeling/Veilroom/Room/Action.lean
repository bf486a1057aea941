import Veilroom.Chat.Session
import Veilroom.Admission.Host

/-!
Inputs, outputs and errors of the room actor (`event.rs`, `room/action.rs`,
and `RoomError` of `room/actor.rs`).
-/
namespace Veilroom

/-! ### Events -/

inductive MemberRef
  | id (id : MemberId)
  | nickname (nickname : String)
deriving DecidableEq, Repr

inductive HostCommand
  | kick (target : MemberRef)
  | newId
  | reqOn
  | reqOff
  | requests
  | accept (requestId : RequestId)
  | reject (requestId : RequestId)
deriving DecidableEq, Repr

inductive MemberCommand
  | leave
  | color (color : ColorChoice)
  | list
  | whois (target : String)
deriving DecidableEq, Repr

inductive RoomEvent
  | clientConnected (connection : ConnectionId)
  | passwordVerified (connection : ConnectionId)
  | joinRequested (connection : ConnectionId) (application : JoinApplication)
  | hostAccepted (requestId : RequestId)
  | hostRejected (requestId : RequestId)
  | chatReceived (connection : ConnectionId) (messageType : UInt8) (envelope : EncryptedEnvelope)
  | memberLeft (member : MemberId)
  | connectionLost (connection : ConnectionId)
  | hostCommand (command : HostCommand)
  | memberCommand (connection : ConnectionId) (command : MemberCommand)
  | epochAck (connection : ConnectionId) (epoch : Nat)
  | closeRequested
  | timeoutExpired (connection : ConnectionId) (kind : TimeoutKind)
  | epochMaintenance
  | torStopped
deriving DecidableEq

/-! ### Actions -/

structure RequestInfo where
  requestId : RequestId
  connection : ConnectionId
  nickname : String
  introduction : Option String
deriving DecidableEq

structure TimeoutRequestInfo where
  requestId : RequestId
  memberId : MemberId
  nickname : String
  seconds : Nat
deriving DecidableEq

inductive HostNotice
  | joinRequestPending (requestId : RequestId) (connection : ConnectionId) (nickname : String)
      (introduction : Option String)
  | joinRequestWithdrawn (requestId : RequestId)
  | timeoutRequestPending (requestId : RequestId) (memberId : MemberId) (nickname : String)
      (seconds : Nat)
  | timeoutRequestAccepted (requestId : RequestId) (seconds : Nat)
  | timeoutRequestRejected (requestId : RequestId)
  | timeoutRebroadcast (seconds : Nat)
  | memberJoined (memberId : MemberId) (nickname : String)
  | memberLeft (memberId : MemberId) (nickname : String)
  | memberKicked (memberId : MemberId) (nickname : String)
  | joinPolicyChanged (policy : JoinPolicy)
  | invitationRotated (token : Key)
  | requestsSnapshot (joinRequests : List RequestInfo) (timeoutRequests : List TimeoutRequestInfo)
  | listSnapshot (members : List MemberInfo)
  | whoisResult (member : MemberInfo)
  | roomClosed
  | error (message : String)
deriving DecidableEq

inductive RoomAction
  | sendTo (connection : ConnectionId) (message : Message)
  | closeConnection (connection : ConnectionId)
  | notifyHost (notice : HostNotice)
deriving DecidableEq

/-- The messages a batch of actions sends to one connection, in order. -/
def sentTo (connection : ConnectionId) (actions : List RoomAction) : List Message :=
  actions.filterMap fun
    | .sendTo c message => if c = connection then some message else none
    | _ => none

@[simp] theorem sentTo_nil (c : ConnectionId) : sentTo c [] = [] := rfl

@[simp] theorem sentTo_append (c : ConnectionId) (first second : List RoomAction) :
    sentTo c (first ++ second) = sentTo c first ++ sentTo c second := by
  simp [sentTo]

@[simp] theorem sentTo_cons_sendTo (c connection : ConnectionId) (message : Message)
    (actions : List RoomAction) :
    sentTo c (.sendTo connection message :: actions) =
      if connection = c then message :: sentTo c actions else sentTo c actions := by
  by_cases h : connection = c <;> simp [sentTo, h]

@[simp] theorem sentTo_cons_closeConnection (c connection : ConnectionId)
    (actions : List RoomAction) :
    sentTo c (.closeConnection connection :: actions) = sentTo c actions := rfl

@[simp] theorem sentTo_cons_notifyHost (c : ConnectionId) (notice : HostNotice)
    (actions : List RoomAction) :
    sentTo c (.notifyHost notice :: actions) = sentTo c actions := rfl

theorem mem_sentTo {c : ConnectionId} {message : Message} {actions : List RoomAction} :
    message ∈ sentTo c actions ↔ .sendTo c message ∈ actions := by
  induction actions with
  | nil => simp
  | cons action rest ih =>
      cases action with
      | sendTo connection m =>
          by_cases h : connection = c
          · simp [h, ih]
          · simp [h, ih, Ne.symm h]
      | closeConnection _ | notifyHost _ => simp [ih]

/-! ### Errors -/

inductive RoomError
  | queue (error : QueueError)
  | member (error : MemberError)
  | unknownRequest (id : RequestId)
  | unknownMember (target : MemberRef)
  | unknownConnection (connection : ConnectionId)
  | hostCannotLeave
  | cannotKickHost
  | emptyMemberRef
  | policyLocked
  | notAMember (connection : ConnectionId)
  | roomClosed
  | epochTransitionInProgress
  | oldEpoch (found current : Nat)
  | replayRejected (sender sequence : Nat)
  | chat (error : ChatError)
  | unknownColor (index : UInt8)
  | unsupportedEvent
  | invalidNickname (error : ValidationError)
  | protocol (error : ProtocolError)
  | crypto (error : CryptoError)
deriving DecidableEq

/-- `RoomError::is_transient`. -/
def RoomError.isTransient : RoomError → Bool
  | .epochTransitionInProgress => true
  | _ => false

/-- `{target:?}`. -/
def MemberRef.debug (P : Primitives) : MemberRef → String
  | .id target => s!"Id(MemberId({target}))"
  | .nickname target => s!"Nickname({P.debugStr target})"

def CryptoError.toString (P : Primitives) : CryptoError → String
  | .randomness => s!"failed to obtain secure randomness: {P.randomnessText}"
  | .argon2 => "argon2id error"
  | .invalidHmacKey => "invalid HMAC key length"
  | .aead => s!"authenticated encryption failed: {P.aeadText}"
  | .hkdf => "HKDF expansion failed"
  | .invalidEpochKeyLength => "unwrapped epoch key has an unexpected length"
  | .nonContributoryX25519 => "non-contributory X25519 public key"

/-- The `Display` text. The actor decodes nothing, so no CBOR decoder text occurs in it. -/
def RoomError.toString (P : Primitives) : RoomError → String
  | .queue error => error.toString
  | .member error => error.toString
  | .unknownRequest id => s!"no pending join request with id {id}"
  | .unknownMember target => "no active member matches `" ++ target.debug P ++ "`"
  | .unknownConnection connection => s!"unknown connection {connection}"
  | .hostCannotLeave => "the host cannot leave the room; use /exit to close it"
  | .cannotKickHost => "the host cannot be kicked"
  | .emptyMemberRef => "a member reference must not be empty"
  | .policyLocked => "the room is not accepting join requests"
  | .notAMember connection => s!"connection {connection} is not an active member"
  | .roomClosed => "the room is closing or closed"
  | .epochTransitionInProgress => "an epoch transition is in progress"
  | .oldEpoch found current => s!"chat message epoch {found} is not the current epoch {current}"
  | .replayRejected sender sequence =>
      s!"replayed chat message from member {sender} with sequence {sequence}"
  | .chat error => error.toString
  | .unknownColor index => s!"unknown color index {index}"
  | .unsupportedEvent => "unsupported room event in this stage"
  | .invalidNickname error => s!"invalid nickname: {error.toString}"
  | .protocol error => error.toString ""
  | .crypto error => error.toString P

end Veilroom
