import Veilroom.Admission.Trust
import Veilroom.Protocol.Canonical
import Veilroom.Room.Atomicity

/-!
The handshake of an honest client with an honest host, every message encoded,
framed and decoded on its way, up to the first epoch key.
-/
namespace Veilroom
open Transcript

/-- What arrives of a message: it is encoded, read off the stream and decoded. -/
def Message.carry (M : Minicbor) (P : Primitives) (message : Message) : Option Message :=
  match message.encode M .default with
  | .error _ => none
  | .ok bytes =>
    match (FrameDecoder.new .default).feed bytes with
    | .ok (_, [frame]) => (Message.decode M P frame .default).toOption
    | _ => none

theorem Message.carry_of_built {M : Minicbor} (law : M.Preferred) {P : Primitives}
    (lawP : P.Lawful) {message : Message} (hbuilt : message.Built P) (hfits : message.Fits)
    (hsnapshot : message.messageType ≠ .memberSnapshot) : message.carry M P = some message := by
  have hlength := (Decoded.built hbuilt hfits).length_encodeBody_le law hsnapshot
  have hencode : ∃ bytes, message.encode M .default = .ok bytes := by
    unfold encode encodeFrame
    dsimp only
    rw [if_neg (by simp only [minFrameBodyLen, Limits.default]; omega)]
    exact ⟨_, rfl⟩
  obtain ⟨bytes, hencode⟩ := hencode
  obtain ⟨frame, hfeed, hdecode⟩ := roundTrips_of_fits law.toLawful lawP hbuilt hencode hfits
  simp only [carry, hencode, hfeed, hdecode]
  rfl

section
variable (M : Minicbor) (P : Primitives) (derive : Argon2)

/-- The handshake up to the application the host releases. The host draws `nonce` for its
challenge, and `policy` is its room's. -/
def handshake (nonce : Option ShortNonce) (policy : JoinPolicy) (client : ClientAdmission)
    (host : HostAdmission) (nickname : String) (introduction : Option String) :
    Option (ClientAdmission × HostAdmission × JoinApplication) := do
  let .clientHello hello ← client.firstMessage.carry M P | none
  let (host, .ok reply) := host.onClientHello P hello client.invitation.port.toNat | none
  let reply ← reply.carry M P
  let (client, .ok [token]) := client.onHostMessage P derive reply | none
  let token ← token.carry M P
  let (host, .ok (some (.message challenge))) := host.onMessage P nonce token policy | none
  let challenge ← challenge.carry M P
  let (client, .ok [proof]) := client.onHostMessage P derive challenge | none
  let proof ← proof.carry M P
  let (host, .ok none) := host.onMessage P nonce proof policy | none
  let (client, .ok request) := client.joinRequest P nickname introduction | none
  let request ← request.carry M P
  let (host, .ok (some (.joinRequested application))) := host.onMessage P nonce request policy
    | none
  return (client, host, application)

/-- The host's acceptance and its first wrap, with the acknowledgement that comes back. -/
def welcome (client : ClientAdmission) (memberId : MemberId) (wrap : EpochWrap) :
    Option (ClientAdmission × EpochAck) := do
  let accepted ← (Message.joinAccepted ⟨memberId⟩).carry M P
  let (client, .ok []) := client.onHostMessage P derive accepted | none
  let .epochWrap wrap ← (Message.epochWrap wrap).carry M P | none
  let (client, .ok ack) := client.onEpochWrap P wrap | none
  let .epochAck ack ← ack.carry M P | none
  return (client, ack)

end

/-! ### One turn each -/

section
variable {P : Primitives} (lawP : P.Lawful) {derive : Argon2}
variable {client : ClientAdmission} {host : HostAdmission}

/-- The host greets a client that sent its first message. -/
theorem onClientHello_eq (hstate : host.state = .awaitingHello) (clientNonce : ShortNonce)
    (port : Nat) :
    host.onClientHello P ⟨1, clientNonce, 0⟩ port =
      ({ host with clientNonce := some clientNonce, state := .awaitingToken },
        .ok (.hostHello ⟨1, host.roomSessionId, host.hostIdentity.ed25519Pubkey P,
          host.hostIdentity.x25519Pubkey P, host.serverNonce, host.hostIdentity.sign P
            (hostHelloTranscript 1 host.onionAddress port host.roomSessionId
              (host.hostIdentity.ed25519Pubkey P) (host.hostIdentity.x25519Pubkey P) clientNonce
              host.serverNonce (P.sha256 host.token) 1 0)⟩)) := by
  simp [HostAdmission.onClientHello, hstate]

include lawP in
/-- The client trusts the hello of a host of its own invitation. -/
theorem handleHostHello_eq {hello : HostHello} (identity : HostIdentity)
    (hversion : hello.version = 1) (hed : hello.hostEd25519Pubkey = identity.ed25519Pubkey P)
    (hx : hello.hostX25519Pubkey = identity.x25519Pubkey P)
    (hsignature : hello.hostSignature = identity.sign P (client.helloTranscript P hello))
    (hcontributory : P.wasContributory
      (P.diffieHellman client.identity.x25519 (P.x25519Public identity.x25519)) = true) :
    client.handleHostHello P hello =
      (client.pin hello, .ok [.tokenVerify ⟨client.invitation.token⟩]) := by
  have hverified : P.ed25519Verify hello.hostEd25519Pubkey (client.helloTranscript P hello)
      hello.hostSignature = true := by
    rw [hed, hsignature]
    exact lawP.verify_sign _ _
  have hkey : client.identity.tryWrapKeyFor P hello.hostX25519Pubkey hello.roomSessionId 0 =
      .ok ⟨P.hkdfSha256 (fixed hello.roomSessionId)
        (fixed (P.diffieHellman client.identity.x25519 (P.x25519Public identity.x25519)))
        (utf8 memberWrapKeyLabel ++ u64 0)⟩ := by
    rw [hx]
    exact if_pos hcontributory
  rw [ClientAdmission.handleHostHello, if_neg (not_not.mpr hversion),
    if_neg (not_not.mpr hverified)]
  simp only [hkey, client.invitation.tokenVerify]

/-- The host challenges a client that knows its token. -/
theorem handleToken_eq {token : Bytes} (htoken : host.token = token) (nonce : ShortNonce) :
    host.handleToken (some nonce) ⟨token⟩ =
      ({ host with challengeNonce := some nonce, state := .awaitingProof },
        .ok (some (.message (.passwordChallenge ⟨host.verifier.mCost, host.verifier.tCost,
          host.verifier.pCost, host.verifier.salt, nonce⟩)))) := by
  rw [HostAdmission.handleToken, if_neg (by simp [htoken])]

/-- The client answers a challenge of a verifier of its own password. -/
theorem handleChallenge_eq {verifier : PasswordVerifier} {salt : Option ShortNonce}
    (hverifier : PasswordVerifier.derive derive salt client.password = .ok verifier)
    (nonce : ShortNonce) :
    client.handleChallenge P derive
        ⟨verifier.mCost, verifier.tCost, verifier.pCost, verifier.salt, nonce⟩ =
      ({ client with password := [], state := .awaitingJoinForm },
        .ok [.challengeProof ⟨computeProof P (fixed verifier.derivedKey) nonce
          client.clientNonce⟩]) := by
  unfold PasswordVerifier.derive at hverifier
  split at hverifier
  · cases hverifier
  split at hverifier
  · cases hverifier
  rename_i salt derivedKey hderived
  cases hverifier
  simp [ClientAdmission.handleChallenge, computePasswordProof, hderived]

/-- The host lets a client with its own password's proof through. -/
theorem handleProof_eq {challengeNonce clientNonce : ShortNonce}
    (hchallenge : host.challengeNonce = some challengeNonce)
    (hclient : host.clientNonce = some clientNonce) :
    host.handleProof P ⟨computeProof P (fixed host.verifier.derivedKey) challengeNonce
        clientNonce⟩ =
      ({ host with state := .awaitingJoinForm }, .ok none) := by
  simp [HostAdmission.handleProof, hchallenge, hclient, PasswordVerifier.verifyProof]

/-- The request the client signs. -/
def ClientAdmission.request (P : Primitives) (client : ClientAdmission) (info : HostHelloInfo)
    (serverNonce : ShortNonce) (nickname : String) (introduction : Option String) :
    JoinRequestMessage :=
  ⟨nickname, introduction, client.identity.ed25519Pubkey P, client.identity.x25519Pubkey P,
    client.identity.sign P (joinRequestTranscript 1 info.roomSessionId client.clientNonce
      serverNonce nickname (P.sha256 (utf8 (introduction.getD "")))
      (client.identity.ed25519Pubkey P) (client.identity.x25519Pubkey P)
      client.invitation.address (P.sha256 client.invitation.token))⟩

variable {nickname normalized : String} {introduction : Option String}

theorem JoinRequestMessage.introduction_of_new {ed25519Pubkey x25519Pubkey : Key}
    {signature : Signature} {form : JoinRequestMessage}
    (h : JoinRequestMessage.new P nickname introduction ed25519Pubkey x25519Pubkey signature =
      .ok form) : form.introduction = introduction := by
  unfold new at h
  split at h
  · cases h
  split at h
  · cases h
    rfl
  split at h
  · cases h
  cases h
  rfl

include lawP in
/-- The constructor keeps a form it accepts, with its nickname normalized once more. -/
theorem JoinRequestMessage.new_eq
    (hnickname : validateNickname P nickname .default = .ok normalized)
    (hintroduction : ∀ text, introduction = some text → validateIntro text .default = .ok ())
    (ed25519Pubkey x25519Pubkey : Key) (signature : Signature) :
    JoinRequestMessage.new P normalized introduction ed25519Pubkey x25519Pubkey signature =
      .ok ⟨normalized, introduction, ed25519Pubkey, x25519Pubkey, signature⟩ := by
  rw [new, validateNickname_idempotent lawP hnickname]
  dsimp only
  split
  · rfl
  · rename_i text
    rw [hintroduction text rfl]

include lawP in
theorem joinRequest_eq {info : HostHelloInfo} {serverNonce : ShortNonce}
    (hstate : client.state = .awaitingJoinForm) (hinfo : client.hostHello = some info)
    (hnonce : client.serverNonce = some serverNonce)
    (hnickname : validateNickname P nickname .default = .ok normalized)
    (hintroduction : ∀ text, introduction = some text → validateIntro text .default = .ok ()) :
    client.joinRequest P nickname introduction =
      ({ client with state := .awaitingDecision },
        .ok (.joinRequest (client.request P info serverNonce normalized introduction))) := by
  rw [ClientAdmission.joinRequest, if_neg (not_not.mpr hstate), hinfo, hnonce]
  dsimp only
  rw [hnickname]
  dsimp only
  rw [JoinRequestMessage.new_eq lawP hnickname hintroduction]
  rfl

include lawP in
/-- The host releases the request of a client of its own room. -/
theorem handleJoinRequest_eq {info : HostHelloInfo} {policy : JoinPolicy}
    (hpolicy : policy.allowsJoinRequests = true)
    (hclient : host.clientNonce = some client.clientNonce)
    (hroom : info.roomSessionId = host.roomSessionId)
    (honion : host.onionAddress = client.invitation.address)
    (htoken : host.token = client.invitation.token)
    (hcontributory : P.wasContributory (P.diffieHellman client.identity.x25519
      (P.x25519Public host.hostIdentity.x25519)) = true) :
    host.handleJoinRequest P (client.request P info host.serverNonce normalized introduction)
        policy =
      ({ host with state := .decided, token := [] },
        .ok (some (.joinRequested ⟨normalized, introduction, client.identity.ed25519Pubkey P,
          client.identity.x25519Pubkey P,
          (client.request P info host.serverNonce normalized introduction).signature⟩))) := by
  have hkey : host.hostIdentity.tryWrapKeyFor P (client.identity.x25519Pubkey P)
      host.roomSessionId 0 = .ok ⟨P.hkdfSha256 (fixed host.roomSessionId)
        (fixed (P.diffieHellman host.hostIdentity.x25519 (P.x25519Public client.identity.x25519)))
        (utf8 memberWrapKeyLabel ++ u64 0)⟩ := by
    rw [lawP.dh_comm] at hcontributory
    exact if_pos hcontributory
  have hsigned : P.ed25519Verify (client.identity.ed25519Pubkey P)
      (joinRequestTranscript 1 host.roomSessionId client.clientNonce host.serverNonce normalized
        (P.sha256 (utf8 (introduction.getD ""))) (client.identity.ed25519Pubkey P)
        (client.identity.x25519Pubkey P) host.onionAddress (P.sha256 host.token))
      (client.request P info host.serverNonce normalized introduction).signature = true := by
    rw [← hroom, honion, htoken]
    exact lawP.verify_sign _ _
  simp only [HostAdmission.handleJoinRequest, hclient]
  dsimp only [ClientAdmission.request] at hsigned ⊢
  simp [hsigned, hkey, hpolicy]

end

/-! ### The whole handshake -/

section
variable {M : Minicbor} {P : Primitives} {derive : Argon2}
variable {client : ClientAdmission} {host : HostAdmission}
variable {nickname normalized : String} {introduction : Option String}

/-- A client and a host at the start of a handshake: the host's flow is for the client's onion
address and token, its verifier is of the client's password, and their keys are contributory. -/
structure Meet (P : Primitives) (derive : Argon2) (client : ClientAdmission)
    (host : HostAdmission) : Prop where
  clientStarts : ClientAdmission.new client.invitation client.password (some client.identity)
    (some client.clientNonce) = .ok client
  hostStarts : HostAdmission.new host.roomSessionId client.invitation.token host.verifier
    host.hostIdentity client.invitation.address (some host.serverNonce) = .ok host
  verifier : ∃ salt, PasswordVerifier.derive derive salt client.password = .ok host.verifier
  contributory : P.wasContributory (P.diffieHellman client.identity.x25519
    (P.x25519Public host.hostIdentity.x25519)) = true

/-- What the client pins of the host. -/
def pinned (P : Primitives) (client : ClientAdmission) (host : HostAdmission) : HostHelloInfo :=
  ⟨host.roomSessionId, host.hostIdentity.ed25519Pubkey P, host.hostIdentity.x25519Pubkey P,
    host.hostIdentity.sign P (hostHelloTranscript 1 client.invitation.address
      client.invitation.port.toNat host.roomSessionId (host.hostIdentity.ed25519Pubkey P)
      (host.hostIdentity.x25519Pubkey P) client.clientNonce host.serverNonce
      (P.sha256 client.invitation.token) 1 0)⟩

/-- The client once the host has its application. -/
def applied (P : Primitives) (client : ClientAdmission) (host : HostAdmission) : ClientAdmission :=
  { client with
    password := []
    serverNonce := some host.serverNonce
    hostHello := some (pinned P client host)
    state := .awaitingDecision }

/-- The application the host releases. -/
def application (P : Primitives) (client : ClientAdmission) (host : HostAdmission)
    (nickname : String) (introduction : Option String) : JoinApplication :=
  ⟨nickname, introduction, client.identity.ed25519Pubkey P, client.identity.x25519Pubkey P,
    (client.request P (pinned P client host) host.serverNonce nickname introduction).signature⟩

/-- The host's flow once it has released the application. -/
def decided (challengeNonce : ShortNonce) (client : ClientAdmission) (host : HostAdmission) :
    HostAdmission :=
  { host with
    token := []
    clientNonce := some client.clientNonce
    challengeNonce := some challengeNonce
    state := .decided }

theorem handshake_eq (law : M.Preferred) (lawP : P.Lawful) (h : Meet P derive client host)
    (challengeNonce : ShortNonce) {policy : JoinPolicy}
    (hpolicy : policy.allowsJoinRequests = true)
    (hnickname : validateNickname P nickname .default = .ok normalized)
    (hintroduction : ∀ text, introduction = some text → validateIntro text .default = .ok ()) :
    handshake M P derive (some challengeNonce) policy client host nickname introduction =
      some (applied P client host, decided challengeNonce client host,
        application P client host normalized introduction) := by
  obtain ⟨hclientStarts, hhostStarts, ⟨salt, hverifier⟩, hcontributory⟩ := h
  obtain ⟨invitation, password, identity, clientNonce, _, _, _, _, _⟩ := client
  obtain ⟨roomSessionId, serverNonce, token, verifier, hostIdentity, onionAddress, _, _, _⟩ := host
  cases hclientStarts
  cases hhostStarts
  dsimp only at hverifier hcontributory
  have carry {message : Message} (hbuilt : message.Built P) (hfits : message.Fits)
      (hsnapshot : message.messageType ≠ .memberSnapshot) : message.carry M P = some message :=
    Message.carry_of_built law lawP hbuilt hfits hsnapshot
  have hclientHello (m : ClientHello) : (Message.clientHello m).carry M P = some (.clientHello m) :=
    carry .clientHello nofun nofun
  have hhostHello (m : HostHello) : (Message.hostHello m).carry M P = some (.hostHello m) :=
    carry .hostHello nofun nofun
  have htokenVerify : (Message.tokenVerify ⟨invitation.token⟩).carry M P =
      some (.tokenVerify ⟨invitation.token⟩) :=
    carry (.tokenVerify invitation.tokenVerify) nofun nofun
  have hchallenge (m : PasswordChallenge) :
      (Message.passwordChallenge m).carry M P = some (.passwordChallenge m) :=
    carry .passwordChallenge nofun nofun
  have hproof (m : ChallengeProof) :
      (Message.challengeProof m).carry M P = some (.challengeProof m) :=
    carry .challengeProof nofun nofun
  have hrequest (c : ClientAdmission) (info : HostHelloInfo) (nonce : ShortNonce) :
      (Message.joinRequest (c.request P info nonce normalized introduction)).carry M P =
        some (.joinRequest (c.request P info nonce normalized introduction)) :=
    carry (.joinRequest (JoinRequestMessage.new_eq lawP hnickname hintroduction _ _ _)) nofun nofun
  simp only [handshake, ClientAdmission.firstMessage, Option.bind_eq_bind, hclientHello,
    Option.bind_some]
  rw [onClientHello_eq rfl]
  simp only [hhostHello, Option.bind_some, ClientAdmission.onHostMessage]
  rw [handleHostHello_eq lawP hostIdentity rfl rfl rfl rfl hcontributory]
  simp only [htokenVerify, Option.bind_some, HostAdmission.onMessage]
  rw [handleToken_eq rfl]
  simp only [hchallenge, Option.bind_some, ClientAdmission.pin]
  rw [handleChallenge_eq hverifier]
  simp only [hproof, Option.bind_some]
  rw [handleProof_eq rfl rfl]
  dsimp only
  rw [joinRequest_eq lawP rfl rfl rfl hnickname hintroduction]
  simp only [hrequest, Option.bind_some]
  rw [handleJoinRequest_eq lawP hpolicy rfl rfl rfl rfl hcontributory]
  rfl

/-! ### The welcome -/

/-- What `EpochWrap::new` checked of a wrap the room made. -/
theorem new_of_wrapFor {a : RoomActor} {rng : Rng} {key : Key} {i : Nat} {m : Member}
    {wrap : EpochWrap}
    (h : a.wrapFor P rng key i m = .ok (.sendTo m.connection (.epochWrap wrap))) :
    EpochWrap.new wrap.epoch wrap.nonce wrap.ciphertext = .ok wrap := by
  unfold RoomActor.wrapFor at h
  split at h
  · cases h
  split at h
  · cases h
  split at h
  · cases h
  rename_i envelope _ wrap hnew
  cases h
  unfold EpochWrap.new at hnew ⊢
  split at hnew
  · cases hnew
  rename_i hlength
  cases hnew
  exact if_neg hlength

/-- Both sides of an accepted handshake derive the same channel key. -/
theorem Meet.wrapKey (lawP : P.Lawful) (h : Meet P derive client host) (memberId : MemberId) :
    ∃ wrapKey, host.hostIdentity.tryWrapKeyFor P (client.identity.x25519Pubkey P)
        host.roomSessionId memberId = .ok wrapKey ∧
      client.identity.tryWrapKeyFor P (pinned P client host).hostX25519Pubkey
        (pinned P client host).roomSessionId memberId = .ok wrapKey := by
  have hcontributory := h.contributory
  rw [lawP.dh_comm] at hcontributory
  obtain ⟨wrapKey, hkey⟩ := (tryWrapKeyFor_isOk_iff P host.hostIdentity
    (client.identity.x25519Pubkey P) host.roomSessionId memberId).mpr hcontributory
  refine ⟨wrapKey, hkey, ?_⟩
  rw [← hkey]
  exact (tryWrapKeyFor_agree lawP _ _ _ _).symm

/-- The client installs the wrap of its channel key. -/
theorem onEpochWrap_eq {session : ChatSession} {wrap : EpochWrap} {wrapKey : MemberWrapKey}
    {key : Key} (hchat : client.chat = some session) (hfresh : session.currentEpoch = none)
    (hwrapKey : client.identity.tryWrapKeyFor P session.hostX25519Pubkey session.roomSessionId
      session.memberId = .ok wrapKey)
    (hopens : unwrapEpochKey P wrapKey wrap.epoch session.roomSessionId wrap.nonce wrap.ciphertext =
      .ok key) :
    ∃ joined, client.onEpochWrap P wrap = (joined, .ok (.epochAck ⟨wrap.epoch⟩)) ∧
      ∃ session', joined.chat = some session' ∧ session'.currentEpoch = some (wrap.epoch, key) := by
  have hset : session.setEpochFromWrap P client.identity wrap =
      (session.installEpoch wrap.epoch key, .ok wrap.epoch) := by
    simp [ChatSession.setEpochFromWrap, ChatSession.epoch, hfresh, hwrapKey, hopens]
  refine ⟨{ client with chat := some (session.installEpoch wrap.epoch key) }, ?_, _, rfl, ?_⟩
  · simp [ClientAdmission.onEpochWrap, ClientAdmission.withChat, hchat, hset]
  · simp [ChatSession.installEpoch, ChatSession.epoch, hfresh]

theorem welcome_eq (law : M.Preferred) (lawP : P.Lawful) (h : Meet P derive client host)
    {memberId : MemberId} (hid : memberId < 2 ^ 64) {a : RoomActor} {rng : Rng} {key : Key}
    {i : Nat} {m : Member} {wrap : EpochWrap} (hidentity : a.hostIdentity = host.hostIdentity)
    (hroom : a.sessionId = host.roomSessionId) (hepoch : a.epoch < 2 ^ 64)
    (hmember : m.memberId = memberId) (hx : m.x25519Pubkey = client.identity.x25519Pubkey P)
    (hwrap : a.wrapFor P rng key i m = .ok (.sendTo m.connection (.epochWrap wrap))) :
    ∃ joined session, welcome M P derive (applied P client host) memberId wrap =
        some (joined, ⟨a.epoch⟩) ∧
      joined.chat = some session ∧ session.currentEpoch = some (a.epoch, key) := by
  subst hmember
  obtain ⟨wrapKey, hhostKey, hclientKey⟩ := h.wrapKey lawP m.memberId
  obtain ⟨_, heq, hof⟩ := RoomActor.wrapFor_eq_ok lawP hwrap
  cases heq
  obtain ⟨hof, wrapKey', hwrapKey', hopens⟩ := hof
  rw [hx, hidentity, hroom, hhostKey] at hwrapKey'
  cases hwrapKey'
  rw [hroom, ← hof] at hopens
  have hadmitted : ((applied P client host).admittedAs m.memberId).chat =
      some (.new host.roomSessionId (host.hostIdentity.ed25519Pubkey P)
        (host.hostIdentity.x25519Pubkey P) m.memberId) := rfl
  obtain ⟨joined, hjoined, session, hchat, hcurrent⟩ :=
    onEpochWrap_eq hadmitted rfl hclientKey hopens
  refine ⟨joined, session, ?_, hchat, hof ▸ hcurrent⟩
  have haccepted : (Message.joinAccepted ⟨m.memberId⟩).carry M P =
      some (.joinAccepted ⟨m.memberId⟩) :=
    Message.carry_of_built law lawP (.joinAccepted hid) nofun nofun
  have hcarried : (Message.epochWrap wrap).carry M P = some (.epochWrap wrap) :=
    Message.carry_of_built law lawP (.epochWrap (hof ▸ hepoch) (new_of_wrapFor hwrap)) nofun nofun
  have hack : (Message.epochAck ⟨wrap.epoch⟩).carry M P = some (.epochAck ⟨wrap.epoch⟩) :=
    Message.carry_of_built law lawP (.epochAck (hof ▸ hepoch)) nofun nofun
  simp only [welcome, haccepted, Option.bind_eq_bind, Option.bind_some,
    ClientAdmission.onHostMessage, applied, hcarried]
  simp only [applied] at hjoined
  simp only [hjoined, hack, Option.bind_some]
  rw [← hof]
  rfl

/-- Every handshake completes: the host releases the client's application with the normalized
nickname, and once a room of this host has given it a member id, both sides derive the same
channel key and the client installs the wrap the room makes for it. -/
theorem handshake_complete (law : M.Preferred) (lawP : P.Lawful) (h : Meet P derive client host)
    (challengeNonce : ShortNonce) {policy : JoinPolicy}
    (hpolicy : policy.allowsJoinRequests = true)
    (hnickname : validateNickname P nickname .default = .ok normalized)
    {ed25519Pubkey x25519Pubkey : Key} {signature : Signature} {form : JoinRequestMessage}
    (hform : JoinRequestMessage.new P nickname introduction ed25519Pubkey x25519Pubkey signature =
      .ok form) :
    ∃ client' host' application info,
      handshake M P derive (some challengeNonce) policy client host nickname introduction =
        some (client', host', application) ∧
      application.nickname = normalized ∧ application.introduction = introduction ∧
      application.ed25519Pubkey = client.identity.ed25519Pubkey P ∧
      application.x25519Pubkey = client.identity.x25519Pubkey P ∧
      client'.identity = client.identity ∧ client'.hostHello = some info ∧
      ∀ memberId < 2 ^ 64,
        (∃ wrapKey, host.hostIdentity.tryWrapKeyFor P application.x25519Pubkey host.roomSessionId
            memberId = .ok wrapKey ∧
          client'.identity.tryWrapKeyFor P info.hostX25519Pubkey info.roomSessionId memberId =
            .ok wrapKey) ∧
        ∀ (a : RoomActor) (rng : Rng) (key : Key) (i : Nat) (m : Member),
          a.hostIdentity = host.hostIdentity → a.sessionId = host.roomSessionId →
          a.epoch < 2 ^ 64 → rng.Succeeds → m.memberId = memberId →
          m.x25519Pubkey = application.x25519Pubkey →
          ∃ wrap joined session,
            a.wrapFor P rng key i m = .ok (.sendTo m.connection (.epochWrap wrap)) ∧
            welcome M P derive client' memberId wrap = some (joined, ⟨a.epoch⟩) ∧
            joined.chat = some session ∧ session.currentEpoch = some (a.epoch, key) := by
  have hintroduction := (JoinRequestMessage.fields_of_new hform).2
  rw [JoinRequestMessage.introduction_of_new hform] at hintroduction
  refine ⟨_, _, _, _, handshake_eq law lawP h challengeNonce hpolicy hnickname hintroduction,
    rfl, rfl, rfl, rfl, rfl, rfl, ?_⟩
  intro memberId hid
  obtain ⟨wrapKey, hhostKey, hclientKey⟩ := h.wrapKey lawP memberId
  refine ⟨⟨wrapKey, hhostKey, hclientKey⟩, ?_⟩
  intro a rng key i m hidentity hroom hepoch hrng hmember hx
  have hderivable : RoomActor.Derivable P a m.x25519Pubkey := by
    apply RoomActor.derivable_of_one
    rw [hidentity, hroom, hx]
    exact hhostKey
  obtain ⟨action, hwrap⟩ := RoomActor.wrapFor_succeeds lawP hrng a key i hderivable
  obtain ⟨wrap, rfl, -⟩ := RoomActor.wrapFor_eq_ok lawP hwrap
  obtain ⟨joined, session, hwelcome, hchat, hcurrent⟩ :=
    welcome_eq law lawP h hid hidentity hroom hepoch hmember hx hwrap
  exact ⟨wrap, joined, session, hwrap, hwelcome, hchat, hcurrent⟩

end

/-- The flow of the symbolic room that waits for the joiner. -/
def Symbolic.greeter : HostAdmission :=
  { admission with
    verifier := ⟨Vector.replicate 16 2, argon2MCost, argon2TCost, argon2PCost,
      Vector.replicate 32 10⟩
    clientNonce := none
    challengeNonce := none
    state := .awaitingHello }

open Symbolic in
theorem handshake_complete_guest :
    ∃ client' host' application wrap joined session,
      handshake .rfc8949 primitives argon2 (some (Vector.replicate 16 4)) .opened joiner greeter
        " a  guest " (some "hi") = some (client', host', application) ∧
      application.nickname = "a guest" ∧ application.introduction = some "hi" ∧
      welcome .rfc8949 primitives argon2 client' 1 wrap = some (joined, ⟨1⟩) ∧
      joined.chat = some session ∧ session.currentEpoch = some (1, Vector.replicate 32 7) := by
  have hmeet : Meet primitives argon2 joiner greeter :=
    ⟨rfl, rfl, ⟨some (Vector.replicate 16 2), rfl⟩, by decide +kernel⟩
  have hnickname : validateNickname primitives " a  guest " .default = .ok "a guest" := by
    decide +kernel
  have hform : JoinRequestMessage.new primitives " a  guest " (some "hi")
      (guest.ed25519Pubkey primitives) (guest.x25519Pubkey primitives)
      (sign (Vector.replicate 32 8)) = .ok ⟨"a guest", some "hi", guest.ed25519Pubkey primitives,
        guest.x25519Pubkey primitives, sign (Vector.replicate 32 8)⟩ := by
    decide +kernel
  obtain ⟨client', host', application, info, hrun, hreleased, hintroduction, -, -, -, -, hjoin⟩ :=
    handshake_complete Minicbor.rfc8949_preferred lawful hmeet (Vector.replicate 16 4)
      (rfl : JoinPolicy.opened.allowsJoinRequests = true) hnickname hform
  obtain ⟨wrap, joined, session, -, hwelcome, hchat, hcurrent⟩ :=
    (hjoin 1 (by decide)).2 room (rng 7) (Vector.replicate 32 7) 0
      ⟨1, 1, "a guest", .white, false, application.ed25519Pubkey, application.x25519Pubkey, 1⟩
      rfl rfl (by decide) (rng_succeeds 7) rfl rfl
  exact ⟨client', host', application, wrap, joined, session, hrun, hreleased, hintroduction,
    hwelcome, hchat, hcurrent⟩

end Veilroom
