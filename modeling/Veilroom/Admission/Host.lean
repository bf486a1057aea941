import Veilroom.Protocol.Messages
import Veilroom.Room.Tables

/-!
The host-side admission flow of one connection (`admission/host.rs`,
`crypto/password.rs`) and what it guarantees about every application it
releases to the room.
-/
namespace Veilroom
open Transcript

/-- `PasswordVerifier`. The Argon2id derivation happened at room creation. -/
structure PasswordVerifier where
  salt : ShortNonce
  mCost : UInt32
  tCost : UInt32
  pCost : UInt8
  derivedKey : Key

def passwordProofLabel : String := "VEILROOM-PASSWORD-PROOF-V1"

/-- `compute_proof`. -/
def computeProof (P : Primitives) (key : Bytes) (challengeNonce clientNonce : ShortNonce) : Key :=
  P.hmacSha256 key (utf8 passwordProofLabel ++ fixed challengeNonce ++ fixed clientNonce)

/-- `PasswordVerifier::verify_proof`. -/
def PasswordVerifier.verifyProof (P : Primitives) (v : PasswordVerifier)
    (challengeNonce clientNonce : ShortNonce) (proof : Key) : Bool :=
  proof = computeProof P (fixed v.derivedKey) challengeNonce clientNonce

inductive AdmissionError
  | roomLocked
  | invalidToken
  | invalidPasswordProof
  | invalidHostSignature
  | invalidJoinSignature
  | unexpectedMessage
  | unsupportedVersion (found : UInt8)
  | unsupportedFeatures (features : UInt32)
  | rejected (reason : Option String)
  | hostError (code : ErrorCode) (reason : Option String)
  | protocol (error : ProtocolError)
  | crypto (error : CryptoError)
deriving DecidableEq

/-- `AdmissionError::error_code`. -/
def AdmissionError.errorCode : AdmissionError → ErrorCode
  | .roomLocked => .roomLocked
  | .invalidToken => .invalidInvitation
  | .invalidPasswordProof => .invalidPasswordProof
  | .unsupportedVersion _ => .unsupportedVersion
  | .unexpectedMessage | .unsupportedFeatures _ | .rejected _ | .hostError .. | .protocol _
  | .crypto _ | .invalidHostSignature | .invalidJoinSignature => .protocolViolation

inductive HostState
  | awaitingHello | awaitingToken | awaitingProof | awaitingJoinForm | decided
deriving DecidableEq, Repr

inductive HostAdmissionReply
  | message (message : Message)
  | joinRequested (application : JoinApplication)
deriving DecidableEq

structure HostAdmission where
  roomSessionId : Key
  serverNonce : ShortNonce
  token : Bytes
  verifier : PasswordVerifier
  hostIdentity : HostIdentity
  onionAddress : String
  clientNonce : Option ShortNonce
  challengeNonce : Option ShortNonce
  state : HostState

namespace HostAdmission
variable (P : Primitives)

/-- `HostAdmission::new`; `serverNonce` is what `random_bytes` returned. -/
def new (roomSessionId : Key) (token : Bytes) (verifier : PasswordVerifier)
    (hostIdentity : HostIdentity) (onionAddress : String) (serverNonce : Option ShortNonce) :
    Except CryptoError HostAdmission :=
  match serverNonce with
  | none => .error .randomness
  | some serverNonce => .ok
      { roomSessionId, serverNonce, token, verifier, hostIdentity, onionAddress,
        clientNonce := none, challengeNonce := none, state := .awaitingHello }

/-- `HostAdmission::on_client_hello`. -/
def onClientHello (flow : HostAdmission) (hello : ClientHello) (virtualPort : Nat) :
    HostAdmission × Except AdmissionError Message :=
  if flow.state ≠ .awaitingHello then (flow, .error .unexpectedMessage)
  else if hello.version ≠ 1 then (flow, .error (.unsupportedVersion hello.version))
  else if hello.features ≠ 0 then (flow, .error (.unsupportedFeatures hello.features))
  else
    let transcript := hostHelloTranscript 1 flow.onionAddress virtualPort flow.roomSessionId
      (flow.hostIdentity.ed25519Pubkey P) (flow.hostIdentity.x25519Pubkey P) hello.clientNonce
      flow.serverNonce (P.sha256 flow.token) hello.version hello.features.toNat
    ({ flow with clientNonce := some hello.clientNonce, state := .awaitingToken },
      .ok (.hostHello ⟨1, flow.roomSessionId, flow.hostIdentity.ed25519Pubkey P,
        flow.hostIdentity.x25519Pubkey P, flow.serverNonce, flow.hostIdentity.sign P transcript⟩))

/-- `HostAdmission::handle_token`; `nonce` is what `random_bytes` returned. -/
def handleToken (flow : HostAdmission) (nonce : Option ShortNonce) (verify : TokenVerify) :
    HostAdmission × Except AdmissionError (Option HostAdmissionReply) :=
  if verify.token ≠ flow.token then (flow, .error .invalidToken)
  else
    match nonce with
    | none => (flow, .error (.crypto .randomness))
    | some nonce =>
      ({ flow with challengeNonce := some nonce, state := .awaitingProof },
        .ok (some (.message (.passwordChallenge ⟨flow.verifier.mCost, flow.verifier.tCost,
          flow.verifier.pCost, flow.verifier.salt, nonce⟩))))

/-- `HostAdmission::handle_proof`. -/
def handleProof (flow : HostAdmission) (proof : ChallengeProof) :
    HostAdmission × Except AdmissionError (Option HostAdmissionReply) :=
  match flow.challengeNonce, flow.clientNonce with
  | some challengeNonce, some clientNonce =>
    if flow.verifier.verifyProof P challengeNonce clientNonce proof.proof then
      ({ flow with state := .awaitingJoinForm }, .ok none)
    else (flow, .error .invalidPasswordProof)
  | _, _ => (flow, .error .unexpectedMessage)

/-- `HostAdmission::handle_join_request`. Its last act wipes the token. -/
def handleJoinRequest (flow : HostAdmission) (request : JoinRequestMessage) (policy : JoinPolicy) :
    HostAdmission × Except AdmissionError (Option HostAdmissionReply) :=
  match flow.clientNonce with
  | none => (flow, .error .unexpectedMessage)
  | some clientNonce =>
    let transcript := joinRequestTranscript 1 flow.roomSessionId clientNonce flow.serverNonce
      request.nickname (P.sha256 (utf8 (request.introduction.getD ""))) request.ed25519Pubkey
      request.x25519Pubkey flow.onionAddress (P.sha256 flow.token)
    if ¬ P.ed25519Verify request.ed25519Pubkey transcript request.signature then
      (flow, .error .invalidJoinSignature)
    else
      match flow.hostIdentity.tryWrapKeyFor P request.x25519Pubkey flow.roomSessionId 0 with
      | .error error => (flow, .error (.crypto error))
      | .ok _ =>
        if ¬ policy.allowsJoinRequests then (flow, .error .roomLocked)
        else
          ({ flow with state := .decided, token := [] },
            .ok (some (.joinRequested ⟨request.nickname, request.introduction,
              request.ed25519Pubkey, request.x25519Pubkey, request.signature⟩)))

/-- `HostAdmission::on_message`. -/
def onMessage (flow : HostAdmission) (nonce : Option ShortNonce) (message : Message)
    (policy : JoinPolicy) : HostAdmission × Except AdmissionError (Option HostAdmissionReply) :=
  match flow.state, message with
  | .awaitingToken, .tokenVerify verify => flow.handleToken nonce verify
  | .awaitingProof, .challengeProof proof => flow.handleProof P proof
  | .awaitingJoinForm, .joinRequest request => flow.handleJoinRequest P request policy
  | _, _ => (flow, .error .unexpectedMessage)

end HostAdmission

/-- A decoded `JOIN_REQUEST`: the decoder builds it through `JoinRequest::new`. -/
def JoinRequestMessage.Decoded (P : Primitives) (request : JoinRequestMessage) : Prop :=
  ∃ nickname introduction ed25519Pubkey x25519Pubkey signature,
    JoinRequestMessage.new P nickname introduction ed25519Pubkey x25519Pubkey signature =
      .ok request

/-- The application came out of a `HostAdmission` of this room: some flow of the room's host
identity and session released it when it handled a decoded join request. -/
def JoinApplication.Released (P : Primitives) (identity : HostIdentity) (roomSessionId : Key)
    (application : JoinApplication) : Prop :=
  ∃ (flow : HostAdmission) (nonce : Option ShortNonce) (request : JoinRequestMessage)
      (policy : JoinPolicy),
    flow.hostIdentity = identity ∧ flow.roomSessionId = roomSessionId ∧ request.Decoded P ∧
      (flow.onMessage P nonce (.joinRequest request) policy).2 =
        .ok (some (.joinRequested application))

/-- A decoded join request carries a normalized nickname. -/
theorem JoinRequestMessage.Decoded.nickname {P : Primitives} (law : P.Lawful)
    {request : JoinRequestMessage} (h : request.Decoded P) :
    validateNickname P request.nickname Limits.default = .ok request.nickname := by
  obtain ⟨nickname, introduction, ed25519Pubkey, x25519Pubkey, signature, h⟩ := h
  unfold JoinRequestMessage.new at h
  split at h
  · cases h
  · rename_i hvalid
    split at h
    · cases h
      exact validateNickname_idempotent law hvalid
    · split at h
      · cases h
      · cases h
        exact validateNickname_idempotent law hvalid

/-- What the admission flow checked before it released an application. -/
private theorem released_inversion {P : Primitives} {identity : HostIdentity} {roomSessionId : Key}
    {application : JoinApplication} (h : application.Released P identity roomSessionId) :
    ∃ request : JoinRequestMessage, request.Decoded P ∧
      application.nickname = request.nickname ∧ application.x25519Pubkey = request.x25519Pubkey ∧
      ∃ key, identity.tryWrapKeyFor P request.x25519Pubkey roomSessionId 0 = .ok key := by
  obtain ⟨flow, nonce, request, policy, rfl, rfl, hdecoded, h⟩ := h
  refine ⟨request, hdecoded, ?_⟩
  unfold HostAdmission.onMessage at h
  split at h
  · rename_i heq; cases heq
  · rename_i heq; cases heq
  · rename_i heq
    cases heq
    unfold HostAdmission.handleJoinRequest at h
    split at h
    · cases h
    dsimp only at h
    split at h
    · cases h
    split at h
    · cases h
    rename_i key hkey
    split at h
    · cases h
    cases h
    exact ⟨rfl, rfl, key, hkey⟩
  · cases h

theorem JoinApplication.Released.nickname {P : Primitives} (law : P.Lawful)
    {identity : HostIdentity} {roomSessionId : Key} {application : JoinApplication}
    (h : application.Released P identity roomSessionId) :
    validateNickname P application.nickname Limits.default = .ok application.nickname := by
  obtain ⟨request, hdecoded, hnick, -⟩ := released_inversion h
  rw [hnick]
  exact hdecoded.nickname law

/-- The check with member id 0 covers the key of every later member id. -/
theorem JoinApplication.Released.tryWrapKeyFor {P : Primitives} {identity : HostIdentity}
    {roomSessionId : Key} {application : JoinApplication}
    (h : application.Released P identity roomSessionId) (memberId : Nat) :
    ∃ key, identity.tryWrapKeyFor P application.x25519Pubkey roomSessionId memberId = .ok key := by
  obtain ⟨request, -, -, hx, hkey⟩ := released_inversion h
  rw [hx]
  exact (tryWrapKeyFor_isOk_iff P identity _ roomSessionId memberId).mpr
    ((tryWrapKeyFor_isOk_iff P identity _ roomSessionId 0).mp hkey)

end Veilroom
