import Veilroom.Admission.Host
import Veilroom.Chat.Session
import Veilroom.Uri.Invitation

/-!
The client-side admission flow of one connection (`admission/client.rs`) and
the participant's half of `crypto/password.rs`.

The generated identity, the nonces and the answers of Argon2id are arguments.
-/
namespace Veilroom
open Transcript

/-! ### Passwords -/

def argon2MCost : UInt32 := 19 * 1024
def argon2TCost : UInt32 := 2
def argon2PCost : UInt8 := 1

/-- `derive_key`: Argon2id of a password with its salt and its three costs. -/
abbrev Argon2 := Bytes → ShortNonce → UInt32 → UInt32 → UInt8 → Option Key

/-- `PasswordVerifier::derive`; `salt` is what `random_bytes` returned. -/
def PasswordVerifier.derive (derive : Argon2) (salt : Option ShortNonce) (password : Bytes) :
    Except CryptoError PasswordVerifier :=
  match salt with
  | none => .error .randomness
  | some salt =>
    match derive password salt argon2MCost argon2TCost argon2PCost with
    | none => .error .argon2
    | some derivedKey => .ok ⟨salt, argon2MCost, argon2TCost, argon2PCost, derivedKey⟩

/-- `compute_password_proof`. -/
def computePasswordProof (P : Primitives) (derive : Argon2) (password : Bytes) (salt : ShortNonce)
    (mCost tCost : UInt32) (pCost : UInt8) (challengeNonce clientNonce : ShortNonce) :
    Except CryptoError Key :=
  match derive password salt mCost tCost pCost with
  | none => .error .argon2
  | some key => .ok (computeProof P (fixed key) challengeNonce clientNonce)

/-! ### The flow -/

/-- Every token of an invitation can be verified. -/
theorem Invitation.tokenVerify (inv : Invitation) : TokenVerify.new inv.token = .ok ⟨inv.token⟩ :=
  if_pos inv.token_range

structure HostHelloInfo where
  roomSessionId : Key
  hostEd25519Pubkey : Key
  hostX25519Pubkey : Key
  signature : Signature
deriving DecidableEq

inductive ClientState
  | awaitingHostHello | awaitingChallenge | awaitingJoinForm | awaitingDecision | admitted
deriving DecidableEq, Repr

structure ClientAdmission where
  invitation : Invitation
  password : Bytes
  identity : MemberIdentity
  clientNonce : ShortNonce
  serverNonce : Option ShortNonce
  hostHello : Option HostHelloInfo
  memberId : Option MemberId
  chat : Option ChatSession
  state : ClientState

namespace ClientAdmission
variable (P : Primitives) (derive : Argon2)

/-- `ClientAdmission::new`. -/
def new (invitation : Invitation) (password : Bytes) (identity : Option MemberIdentity)
    (clientNonce : Option ShortNonce) : Except CryptoError ClientAdmission :=
  match identity, clientNonce with
  | some identity, some clientNonce => .ok
      { invitation, password, identity, clientNonce, serverNonce := none, hostHello := none,
        memberId := none, chat := none, state := .awaitingHostHello }
  | _, _ => .error .randomness

/-- `ClientAdmission::first_message`. -/
def firstMessage (c : ClientAdmission) : Message := .clientHello ⟨1, c.clientNonce, 0⟩

/-- The transcript the host's signature of a hello must verify over. -/
def helloTranscript (c : ClientAdmission) (hello : HostHello) : Bytes :=
  hostHelloTranscript 1 c.invitation.address c.invitation.port.toNat hello.roomSessionId
    hello.hostEd25519Pubkey hello.hostX25519Pubkey c.clientNonce hello.serverNonce
    (P.sha256 c.invitation.token) 1 0

/-- What `handle_host_hello` pins. -/
def pin (c : ClientAdmission) (hello : HostHello) : ClientAdmission :=
  { c with
    serverNonce := some hello.serverNonce
    hostHello := some ⟨hello.roomSessionId, hello.hostEd25519Pubkey, hello.hostX25519Pubkey,
      hello.hostSignature⟩
    state := .awaitingChallenge }

/-- `ClientAdmission::handle_host_hello`. -/
def handleHostHello (c : ClientAdmission) (hello : HostHello) :
    ClientAdmission × Except AdmissionError (List Message) :=
  if hello.version ≠ 1 then (c, .error (.unsupportedVersion hello.version))
  else if ¬ P.ed25519Verify hello.hostEd25519Pubkey (c.helloTranscript P hello)
      hello.hostSignature then
    (c, .error .invalidHostSignature)
  else
    match c.identity.tryWrapKeyFor P hello.hostX25519Pubkey hello.roomSessionId 0 with
    | .error error => (c, .error (.crypto error))
    | .ok _ =>
      match TokenVerify.new c.invitation.token with
      | .error error => (c.pin hello, .error (.protocol error))
      | .ok verify => (c.pin hello, .ok [.tokenVerify verify])

/-- `ClientAdmission::handle_challenge`. -/
def handleChallenge (c : ClientAdmission) (challenge : PasswordChallenge) :
    ClientAdmission × Except AdmissionError (List Message) :=
  if challenge.mCost ≠ argon2MCost ∨ challenge.tCost ≠ argon2TCost ∨
      challenge.pCost ≠ argon2PCost then
    (c, .error .unexpectedMessage)
  else
    match computePasswordProof P derive c.password challenge.salt challenge.mCost challenge.tCost
        challenge.pCost challenge.challengeNonce c.clientNonce with
    | .error error => (c, .error (.crypto error))
    | .ok proof =>
      ({ c with password := [], state := .awaitingJoinForm }, .ok [.challengeProof ⟨proof⟩])

/-- The admitted flow. -/
def admittedAs (c : ClientAdmission) (memberId : MemberId) : ClientAdmission :=
  { c with
    memberId := some memberId
    state := .admitted
    chat := match c.hostHello with
      | none => c.chat
      | some hello => some (.new hello.roomSessionId hello.hostEd25519Pubkey
          hello.hostX25519Pubkey memberId) }

/-- `ClientAdmission::on_host_message`. -/
def onHostMessage (c : ClientAdmission) (message : Message) :
    ClientAdmission × Except AdmissionError (List Message) :=
  match c.state, message with
  | .awaitingHostHello, .hostHello hello => c.handleHostHello P hello
  | .awaitingChallenge, .passwordChallenge challenge => c.handleChallenge P derive challenge
  | .awaitingDecision, .joinAccepted accepted => (c.admittedAs accepted.memberId, .ok [])
  | .awaitingDecision, .joinRejected rejected => (c, .error (.rejected rejected.reason))
  | _, .error error => (c, .error (.hostError error.code error.reason))
  | _, _ => (c, .error .unexpectedMessage)

/-- `ClientAdmission::join_request`. -/
def joinRequest (c : ClientAdmission) (nickname : String) (introduction : Option String) :
    ClientAdmission × Except AdmissionError Message :=
  if c.state ≠ .awaitingJoinForm then (c, .error .unexpectedMessage)
  else
    match c.hostHello, c.serverNonce with
    | some hello, some serverNonce =>
      match validateNickname P nickname Limits.default with
      | .error error => (c, .error (.protocol (.validation error)))
      | .ok nickname =>
        let transcript := joinRequestTranscript 1 hello.roomSessionId c.clientNonce serverNonce
          nickname (P.sha256 (utf8 (introduction.getD ""))) (c.identity.ed25519Pubkey P)
          (c.identity.x25519Pubkey P) c.invitation.address (P.sha256 c.invitation.token)
        match JoinRequestMessage.new P nickname introduction (c.identity.ed25519Pubkey P)
            (c.identity.x25519Pubkey P) (c.identity.sign P transcript) with
        | .error error => (c, .error (.protocol error))
        | .ok request => ({ c with state := .awaitingDecision }, .ok (.joinRequest request))
    | _, _ => (c, .error .unexpectedMessage)

/-! ### The admitted member -/

/-- A call of the chat session, once there is one. -/
def withChat {α : Type} (c : ClientAdmission)
    (call : ChatSession → ChatSession × Except ChatError α) :
    ClientAdmission × Except ChatError α :=
  match c.chat with
  | none => (c, .error .noEpochKey)
  | some session =>
    let (session, result) := call session
    ({ c with chat := some session }, result)

/-- `ClientAdmission::on_epoch_wrap`. -/
def onEpochWrap (c : ClientAdmission) (wrap : EpochWrap) :
    ClientAdmission × Except AdmissionError Message :=
  match c.withChat fun session => session.setEpochFromWrap P c.identity wrap with
  | (c, .error _) => (c, .error .unexpectedMessage)
  | (c, .ok epoch) => (c, .ok (.epochAck ⟨epoch⟩))

/-- What a received color changes in the member table. -/
def applyColor (session : ChatSession) (memberId : MemberId) (color : ColorChoice) : ChatSession :=
  match session.member memberId with
  | none => session
  | some member => session.installMember { member with color }

/-- `ClientAdmission::on_member_message`. -/
def onMemberMessage (c : ClientAdmission) (messageType : UInt8) (envelope : EncryptedEnvelope) :
    ClientAdmission × Except ChatError (Option String) :=
  c.withChat fun session =>
    if messageType = msgChat then
      match session.receiveChat P envelope with
      | (session, .error error) => (session, .error error)
      | (session, .ok text) => (session, .ok (some text))
    else if messageType = msgColor then
      match session.receiveColor P envelope with
      | (session, .error error) => (session, .error error)
      | (session, .ok color) => (applyColor session envelope.senderId color, .ok none)
    else (session, .error (.invalidPlaintext
      s!"not a chat-type message: 0x{hexPadded 2 messageType.toNat}"))

/-- `ClientAdmission::on_membership_message`. -/
def onMembershipMessage (c : ClientAdmission) (message : Message) :
    ClientAdmission × Except ChatError Unit :=
  c.withChat fun session =>
    match message with
    | .memberJoined event => session.handleMemberJoined P event
    | .memberLeft event => session.handleMemberGone P 0x21 event
    | .memberKicked event => session.handleMemberGone P 0x22 event
    | .memberSnapshot event => session.handleMemberSnapshot P event
    | .joinPolicyChanged event => session.handleMembershipMessage P (.joinPolicyChanged event)
    | _ => (session, .error (.invalidPlaintext "not a membership message"))

/-- The `TimeoutChanged` branch of `handle_join_message`. -/
def onTimeoutChanged (c : ClientAdmission) (envelope : EncryptedEnvelope) :
    ClientAdmission × Except ChatError (Option Nat) :=
  c.withChat fun session => session.receiveTimeoutChanged P envelope

/-- `ClientAdmission::send_chat`. -/
def sendChat (c : ClientAdmission) (nonce : Option Nonce) (text : String) :
    ClientAdmission × Except ChatError Message :=
  c.withChat fun session => session.sendChat P nonce c.identity text

/-- `ClientAdmission::send_color`. -/
def sendColor (c : ClientAdmission) (nonce : Option Nonce) (color : ColorChoice) :
    ClientAdmission × Except ChatError Message :=
  c.withChat fun session => session.sendColor P nonce c.identity color

/-- `ClientAdmission::send_timeout_request`. -/
def sendTimeoutRequest (c : ClientAdmission) (nonce : Option Nonce) (seconds : Nat) :
    ClientAdmission × Except ChatError Message :=
  c.withChat fun session => session.sendTimeoutRequest P nonce c.identity seconds

/-- `ClientAdmission::set_own_color`. -/
def setOwnColor (c : ClientAdmission) (color : ColorChoice) : ClientAdmission :=
  match c.memberId, c.chat with
  | some own, some session => { c with chat := some (applyColor session own color) }
  | _, _ => c

/-! ### The flow as a machine -/

/-- What can happen to the flow: a call of one of its public methods. -/
inductive Input
  | hostMessage (message : Message)
  | epochWrap (wrap : EpochWrap)
  | memberMessage (messageType : UInt8) (envelope : EncryptedEnvelope)
  | membership (message : Message)
  | timeoutChanged (envelope : EncryptedEnvelope)
  | joinRequest (nickname : String) (introduction : Option String)
  | sendChat (nonce : Option Nonce) (text : String)
  | sendColor (nonce : Option Nonce) (color : ColorChoice)
  | sendTimeoutRequest (nonce : Option Nonce) (seconds : Nat)
  | setOwnColor (color : ColorChoice)

/-- The messages a call returns for the host, and whether it succeeded. -/
structure Output where
  sent : List Message
  accepted : Bool

/-- A call that answers with one message. -/
def answered {ε : Type} : Except ε Message → Output
  | .ok message => ⟨[message], true⟩
  | .error _ => ⟨[], false⟩

/-- A call that answers nothing. -/
def heard {ε α : Type} : Except ε α → Output
  | .ok _ => ⟨[], true⟩
  | .error _ => ⟨[], false⟩

def step (c : ClientAdmission) : Input → ClientAdmission × Output
  | .hostMessage message =>
    match c.onHostMessage P derive message with
    | (c, .ok messages) => (c, ⟨messages, true⟩)
    | (c, .error _) => (c, ⟨[], false⟩)
  | .epochWrap wrap => (c.onEpochWrap P wrap).map id answered
  | .memberMessage messageType envelope => (c.onMemberMessage P messageType envelope).map id heard
  | .membership message => (c.onMembershipMessage P message).map id heard
  | .timeoutChanged envelope => (c.onTimeoutChanged P envelope).map id heard
  | .joinRequest nickname introduction => (c.joinRequest P nickname introduction).map id answered
  | .sendChat nonce text => (c.sendChat P nonce text).map id answered
  | .sendColor nonce color => (c.sendColor P nonce color).map id answered
  | .sendTimeoutRequest nonce seconds => (c.sendTimeoutRequest P nonce seconds).map id answered
  | .setOwnColor color => (c.setOwnColor color, ⟨[], true⟩)

end ClientAdmission

end Veilroom
