import Veilroom.Admission.Client
import Veilroom.Chat.Delivery
import Veilroom.Crypto.Symbolic

/-!
The client's trust chain: what one connection's flow tells its host, in which
order, and under which keys everything it accepts later was signed.
-/
namespace Veilroom

/-! ### The keys of a session -/

/-- The signed room event a membership message carries: its sequence, epoch, type, body and
signature. -/
def Message.roomEvent? : Message → Option (Nat × Nat × UInt8 × Bytes × Signature)
  | .memberJoined e => some (e.sequence, e.epoch, msgMemberJoined,
      memberJoinedBody e.memberId e.nickname e.ed25519Pubkey, e.signature)
  | .memberLeft e => some (e.sequence, e.epoch, msgMemberLeft, memberGoneBody e.memberId,
      e.signature)
  | .memberKicked e => some (e.sequence, e.epoch, msgMemberKicked, memberGoneBody e.memberId,
      e.signature)
  | .joinPolicyChanged e => some (e.sequence, e.epoch, msgJoinPolicy, joinPolicyBody e.isOpen,
      e.signature)
  | .memberSnapshot e => some (e.sequence, e.epoch, msgMemberSnapshot,
      memberSnapshotBody (e.members.map SnapshotMember.toBody), e.signature)
  | _ => none

/-- The message is a room event of this room signed with this key. -/
def Message.SignedBy (P : Primitives) (key roomSessionId : Key) (message : Message) : Prop :=
  ∃ sequence epoch eventType body signature,
    message.roomEvent? = some (sequence, epoch, eventType, body, signature) ∧
      P.ed25519Verify key (roomEventTranscript 1 roomSessionId sequence epoch eventType body)
        signature = true

namespace ChatSession

/-- The later session belongs to the same room and the same host. -/
structure Trusts (s s' : ChatSession) : Prop where
  roomSessionId : s'.roomSessionId = s.roomSessionId
  hostEd25519Pubkey : s'.hostEd25519Pubkey = s.hostEd25519Pubkey
  hostX25519Pubkey : s'.hostX25519Pubkey = s.hostX25519Pubkey

variable {P : Primitives} {s s' s'' : ChatSession}

theorem Trusts.refl (s : ChatSession) : s.Trusts s := ⟨rfl, rfl, rfl⟩

theorem Trusts.trans (h : s.Trusts s') (h' : s'.Trusts s'') : s.Trusts s'' :=
  ⟨h'.1.trans h.1, h'.2.trans h.2, h'.3.trans h.3⟩

theorem openMessage_trusts (messageType : UInt8) (envelope : EncryptedEnvelope) :
    s.Trusts (s.openMessage P messageType envelope).1 := by
  obtain ⟨error, heq⟩ | ⟨key, plaintext, sender, -, -, -, -, heq⟩ :=
    openMessage_cases (P := P) (s := s) messageType envelope
  · rw [heq]
    exact .refl s
  · rw [heq]
    exact ⟨rfl, rfl, rfl⟩

theorem receiveChat_trusts (envelope : EncryptedEnvelope) :
    s.Trusts (s.receiveChat P envelope).1 := by
  rw [receiveChat_fst]
  exact openMessage_trusts _ _

theorem receiveColor_trusts (envelope : EncryptedEnvelope) :
    s.Trusts (s.receiveColor P envelope).1 := by
  rw [receiveColor_fst]
  exact openMessage_trusts _ _

theorem receiveTimeoutChanged_trusts (envelope : EncryptedEnvelope) :
    s.Trusts (s.receiveTimeoutChanged P envelope).1 := by
  by_cases hsender : envelope.senderId = 0
  · rw [receiveTimeoutChanged_fst hsender]
    exact openMessage_trusts _ _
  · rw [receiveTimeoutChanged, if_pos hsender]
    exact .refl s

theorem setEpochFromWrap_trusts (identity : MemberIdentity) (wrap : EpochWrap) :
    s.Trusts (s.setEpochFromWrap P identity wrap).1 := by
  unfold setEpochFromWrap installEpoch
  split
  · exact .refl s
  split
  · exact .refl s
  split
  · exact .refl s
  split
  · exact .refl s
  · exact ⟨rfl, rfl, rfl⟩

theorem sealMessage_trusts (nonce : Option Nonce) (identity : MemberIdentity)
    (messageType : UInt8) (plaintext : Bytes) :
    s.Trusts (s.sealMessage P nonce identity messageType plaintext).1 := by
  unfold sealMessage
  split
  · exact .refl s
  dsimp only
  split
  · exact ⟨rfl, rfl, rfl⟩
  split <;> exact ⟨rfl, rfl, rfl⟩

theorem sendChat_trusts (nonce : Option Nonce) (identity : MemberIdentity) (text : String) :
    s.Trusts (s.sendChat P nonce identity text).1 := by
  unfold sendChat
  split
  · exact .refl s
  · exact sealMessage_trusts nonce identity _ _

theorem sendTimeoutRequest_trusts (nonce : Option Nonce) (identity : MemberIdentity)
    (seconds : Nat) : s.Trusts (s.sendTimeoutRequest P nonce identity seconds).1 := by
  unfold sendTimeoutRequest
  split
  · exact .refl s
  · exact sealMessage_trusts nonce identity _ _

/-- A room event is accepted only under the host's signature. -/
theorem verifyRoomEvent_trusts (sequence epoch : Nat) (eventType : UInt8) (body : Bytes)
    (signature : Signature) :
    s.Trusts (s.verifyRoomEvent P sequence epoch eventType body signature).1 ∧
      ((s.verifyRoomEvent P sequence epoch eventType body signature).2 = .ok () →
        P.ed25519Verify s.hostEd25519Pubkey
          (roomEventTranscript 1 s.roomSessionId sequence epoch eventType body) signature =
            true) := by
  unfold verifyRoomEvent
  dsimp only
  split
  · exact ⟨.refl s, nofun⟩
  rename_i hverified
  rw [not_not] at hverified
  split
  · exact ⟨.refl s, nofun⟩
  split
  · exact ⟨.refl s, nofun⟩
  · exact ⟨⟨rfl, rfl, rfl⟩, fun _ => hverified⟩

/-- What a handler does after its room event: the keys stay, and success means a signature. -/
private theorem afterRoomEvent_trusts {sequence epoch : Nat} {eventType : UInt8} {body : Bytes}
    {signature : Signature} (f : ChatSession → ChatSession)
    (hf : ∀ s : ChatSession, s.Trusts (f s)) :
    s.Trusts (match s.verifyRoomEvent P sequence epoch eventType body signature with
      | (s, .error error) => (s, .error error)
      | (s, .ok ()) => (f s, .ok ()) : ChatSession × Except ChatError Unit).1 ∧
    ((match s.verifyRoomEvent P sequence epoch eventType body signature with
      | (s, .error error) => (s, .error error)
      | (s, .ok ()) => (f s, .ok ()) : ChatSession × Except ChatError Unit).2 = .ok () →
      P.ed25519Verify s.hostEd25519Pubkey
        (roomEventTranscript 1 s.roomSessionId sequence epoch eventType body)
          signature = true) := by
  have hverify := verifyRoomEvent_trusts (P := P) (s := s) sequence epoch eventType body signature
  generalize s.verifyRoomEvent P sequence epoch eventType body signature = result at hverify
  obtain ⟨s', error | _⟩ := result
  · exact ⟨hverify.1, nofun⟩
  · exact ⟨hverify.1.trans (hf s'), fun _ => hverify.2 rfl⟩

theorem membership_trusts (message : Message) :
    s.Trusts (s.handleMembershipMessage P message).1 ∧
      ((s.handleMembershipMessage P message).2 = .ok () →
        message.SignedBy P s.hostEd25519Pubkey s.roomSessionId) := by
  cases message with
  | memberJoined event =>
      unfold handleMembershipMessage handleMemberJoined
      dsimp only
      split
      · exact ⟨.refl s, nofun⟩
      split
      · exact ⟨.refl s, nofun⟩
      · obtain ⟨htrusts, hsigned⟩ := afterRoomEvent_trusts (P := P) (s := s)
          (fun s => s.installMember _) fun _ => ⟨rfl, rfl, rfl⟩
        exact ⟨htrusts, fun hok => ⟨_, _, _, _, _, rfl, hsigned hok⟩⟩
  | memberLeft event | memberKicked event =>
      obtain ⟨htrusts, hsigned⟩ := afterRoomEvent_trusts (P := P) (s := s)
        (fun s => s.removeMember event.memberId) fun _ => ⟨rfl, rfl, rfl⟩
      exact ⟨htrusts, fun hok => ⟨_, _, _, _, _, rfl, hsigned hok⟩⟩
  | joinPolicyChanged event =>
      obtain ⟨htrusts, hsigned⟩ := afterRoomEvent_trusts (P := P) (s := s)
        (fun s => { s with joinPolicyOpen := event.isOpen }) fun _ => ⟨rfl, rfl, rfl⟩
      exact ⟨htrusts, fun hok => ⟨_, _, _, _, _, rfl, hsigned hok⟩⟩
  | memberSnapshot event =>
      unfold handleMembershipMessage handleMemberSnapshot
      dsimp only
      split
      · exact ⟨.refl s, nofun⟩
      · obtain ⟨htrusts, hsigned⟩ := afterRoomEvent_trusts (P := P) (s := s)
          (fun s => s.installSnapshot event.members) fun _ => ⟨rfl, rfl, rfl⟩
        exact ⟨htrusts, fun hok => ⟨_, _, _, _, _, rfl, hsigned hok⟩⟩
  | _ => exact ⟨.refl s, nofun⟩

end ChatSession

/-! ### What one call can do -/

/-- The messages of the admission: a token, a proof, a join request. -/
def Message.isToken : Message → Bool
  | .tokenVerify _ => true
  | _ => false

def Message.isProof : Message → Bool
  | .challengeProof _ => true
  | _ => false

def Message.isRequest : Message → Bool
  | .joinRequest _ => true
  | _ => false

/-- Nothing of the admission is sent. -/
def Plain (sent : List Message) : Prop :=
  ∀ message ∈ sent, message.isToken = false ∧ message.isProof = false ∧ message.isRequest = false

theorem plain_nil : Plain [] := nofun

theorem plain_singleton {message : Message} (h : message.isToken = false ∧
    message.isProof = false ∧ message.isRequest = false) : Plain [message] := by
  intro sent hsent
  rw [List.mem_singleton.mp hsent]
  exact h

namespace ClientAdmission
variable {P : Primitives} {derive : Argon2} {c c' c₀ : ClientAdmission}

/-- The hello is signed for this client's invitation and nonce. -/
def Verifies (P : Primitives) (c : ClientAdmission) (hello : HostHello) : Prop :=
  hello.version = 1 ∧
    P.ed25519Verify hello.hostEd25519Pubkey (c.helloTranscript P hello) hello.hostSignature = true

inductive Turn (P : Primitives) (c : ClientAdmission) : Input → ClientAdmission → Output → Prop
  | pins {hello} : c.state = .awaitingHostHello → c.Verifies P hello →
      Turn P c (.hostMessage (.hostHello hello)) (c.pin hello)
        ⟨[.tokenVerify ⟨c.invitation.token⟩], true⟩
  | proves {challenge proof} : c.state = .awaitingChallenge →
      challenge.mCost = argon2MCost → challenge.tCost = argon2TCost →
      challenge.pCost = argon2PCost →
      Turn P c (.hostMessage (.passwordChallenge challenge))
        { c with password := [], state := .awaitingJoinForm } ⟨[.challengeProof proof], true⟩
  | applies {nickname introduction request} : c.state = .awaitingJoinForm →
      Turn P c (.joinRequest nickname introduction) { c with state := .awaitingDecision }
        ⟨[.joinRequest request], true⟩
  | admits {accepted} : c.state = .awaitingDecision →
      Turn P c (.hostMessage (.joinAccepted accepted)) (c.admittedAs accepted.memberId) ⟨[], true⟩
  | chats {input output session session'} : c.chat = some session → session.Trusts session' →
      Plain output.sent →
      (∀ message, input = .membership message → output.accepted = true →
        message.SignedBy P session.hostEd25519Pubkey session.roomSessionId) →
      Turn P c input { c with chat := some session' } output
  | idles {input output} : output.sent = [] →
      (∀ message, input = .membership message → output.accepted = false) → Turn P c input c output

/-- A call of the session that sends nothing of the admission. -/
private theorem withChat_turn {α : Type} {input : Input}
    {call : ChatSession → ChatSession × Except ChatError α} (out : Except ChatError α → Output)
    (htrusts : ∀ s : ChatSession, s.Trusts (call s).1) (hplain : ∀ s, Plain (out (call s).2).sent)
    (herror : ∀ error, out (.error error) = ⟨[], false⟩)
    (hsigned : ∀ message, input = .membership message → ∀ s, (out (call s).2).accepted = true →
      message.SignedBy P s.hostEd25519Pubkey s.roomSessionId) :
    Turn P c input ((c.withChat call).map id out).1 ((c.withChat call).map id out).2 := by
  unfold withChat
  split
  · simp only [Prod.map, herror]
    exact .idles rfl fun _ _ => rfl
  · rename_i session hsession
    exact .chats hsession (htrusts session) (hplain session)
      fun message hinput => hsigned message hinput session

private theorem heard_turn {α : Type} {input : Input}
    {call : ChatSession → ChatSession × Except ChatError α}
    (htrusts : ∀ s : ChatSession, s.Trusts (call s).1)
    (hinput : ∀ message, input ≠ .membership message) :
    Turn P c input ((c.withChat call).map id heard).1 ((c.withChat call).map id heard).2 := by
  apply withChat_turn heard htrusts
  · intro s
    unfold heard
    split <;> exact plain_nil
  · intro error
    rfl
  · intro message hmember
    exact absurd hmember (hinput message)

private theorem answered_turn {input : Input}
    {call : ChatSession → ChatSession × Except ChatError Message}
    (htrusts : ∀ s : ChatSession, s.Trusts (call s).1)
    (hplain : ∀ s message, (call s).2 = .ok message → message.isToken = false ∧
      message.isProof = false ∧ message.isRequest = false)
    (hinput : ∀ message, input ≠ .membership message) :
    Turn P c input ((c.withChat call).map id answered).1
      ((c.withChat call).map id answered).2 := by
  apply withChat_turn answered htrusts
  · intro s
    unfold answered
    split
    · rename_i message hok
      exact plain_singleton (hplain s message hok)
    · exact plain_nil
  · intro error
    rfl
  · intro message hmember
    exact absurd hmember (hinput message)

theorem handleHostHello_cases (hello : HostHello) :
    (∃ error, c.handleHostHello P hello = (c, .error error)) ∨
      c.Verifies P hello ∧
        c.handleHostHello P hello = (c.pin hello, .ok [.tokenVerify ⟨c.invitation.token⟩]) := by
  unfold handleHostHello
  split
  · exact .inl ⟨_, rfl⟩
  rename_i hversion
  split
  · exact .inl ⟨_, rfl⟩
  rename_i hverified
  rw [not_not] at hversion hverified
  split
  · exact .inl ⟨_, rfl⟩
  · refine .inr ⟨⟨hversion, hverified⟩, ?_⟩
    -- an invitation never carries a token the message refuses
    rw [c.invitation.tokenVerify]

theorem handleChallenge_cases (derive : Argon2) (challenge : PasswordChallenge) :
    (∃ error, c.handleChallenge P derive challenge = (c, .error error)) ∨
      ∃ proof, challenge.mCost = argon2MCost ∧ challenge.tCost = argon2TCost ∧
        challenge.pCost = argon2PCost ∧ c.handleChallenge P derive challenge =
          ({ c with password := [], state := .awaitingJoinForm }, .ok [.challengeProof proof]) := by
  unfold handleChallenge
  split
  · exact .inl ⟨_, rfl⟩
  rename_i hcosts
  push Not at hcosts
  split
  · exact .inl ⟨_, rfl⟩
  · exact .inr ⟨_, hcosts.1, hcosts.2.1, hcosts.2.2, rfl⟩

private theorem hostMessage_turn (message : Message) :
    Turn P c (.hostMessage message) (c.step P derive (.hostMessage message)).1
      (c.step P derive (.hostMessage message)).2 := by
  have hidle : Turn P c (.hostMessage message) c ⟨[], false⟩ := .idles rfl fun _ h => by cases h
  simp only [step, onHostMessage]
  cases hstate : c.state <;> cases message <;> dsimp only <;> try exact hidle
  case awaitingHostHello.hostHello hello =>
      obtain ⟨error, heq⟩ | ⟨hverifies, heq⟩ := handleHostHello_cases (P := P) (c := c) hello
      · rw [heq]
        exact hidle
      · rw [heq]
        exact .pins hstate hverifies
  case awaitingChallenge.passwordChallenge challenge =>
      obtain ⟨error, heq⟩ | ⟨proof, hmemory, htime, hlanes, heq⟩ :=
        handleChallenge_cases (P := P) (c := c) derive challenge
      · rw [heq]
        exact hidle
      · rw [heq]
        exact .proves hstate hmemory htime hlanes
  case awaitingDecision.joinAccepted accepted => exact .admits hstate

private theorem joinRequest_turn (nickname : String) (introduction : Option String) :
    Turn P c (.joinRequest nickname introduction)
      (c.step P derive (.joinRequest nickname introduction)).1
      (c.step P derive (.joinRequest nickname introduction)).2 := by
  have hidle : Turn P c (.joinRequest nickname introduction) c ⟨[], false⟩ :=
    .idles rfl fun _ h => by cases h
  simp only [step, joinRequest]
  split
  · exact hidle
  rename_i hstate
  rw [not_not] at hstate
  split
  · split
    · exact hidle
    split
    · exact hidle
    · exact .applies hstate
  · exact hidle

theorem applyColor_trusts (s : ChatSession) (memberId : MemberId) (color : ColorChoice) :
    s.Trusts (applyColor s memberId color) := by
  unfold applyColor
  split
  · exact .refl s
  · exact ⟨rfl, rfl, rfl⟩

private theorem memberMessage_turn (messageType : UInt8) (envelope : EncryptedEnvelope) :
    Turn P c (.memberMessage messageType envelope)
      (c.step P derive (.memberMessage messageType envelope)).1
      (c.step P derive (.memberMessage messageType envelope)).2 := by
  rw [step, onMemberMessage]
  refine heard_turn (fun s => ?_) (by simp)
  split
  · have htrusts := s.receiveChat_trusts (P := P) envelope
    generalize s.receiveChat P envelope = result at htrusts
    obtain ⟨s', error | text⟩ := result <;> exact htrusts
  split
  · have htrusts := s.receiveColor_trusts (P := P) envelope
    generalize s.receiveColor P envelope = result at htrusts
    obtain ⟨s', error | color⟩ := result
    · exact htrusts
    · exact htrusts.trans (applyColor_trusts s' _ color)
  · exact .refl s

private theorem membership_turn (message : Message) :
    Turn P c (.membership message) (c.step P derive (.membership message)).1
      (c.step P derive (.membership message)).2 := by
  have heq : c.onMembershipMessage P message =
      c.withChat fun session => session.handleMembershipMessage P message := by
    cases message <;> rfl
  rw [step, heq]
  apply withChat_turn heard fun s => (s.membership_trusts message).1
  · intro s
    unfold heard
    split <;> exact plain_nil
  · intro error
    rfl
  · rintro found ⟨⟩ s haccepted
    apply (s.membership_trusts message).2
    unfold heard at haccepted
    split at haccepted
    · assumption
    · cases haccepted

private theorem epochWrap_turn (wrap : EpochWrap) :
    Turn P c (.epochWrap wrap) (c.step P derive (.epochWrap wrap)).1
      (c.step P derive (.epochWrap wrap)).2 := by
  cases hchat : c.chat with
  | none =>
      simp only [step, onEpochWrap, withChat, hchat]
      exact .idles rfl nofun
  | some session =>
      have htrusts := session.setEpochFromWrap_trusts (P := P) c.identity wrap
      simp only [step, onEpochWrap, withChat, hchat]
      generalize session.setEpochFromWrap P c.identity wrap = result at htrusts
      obtain ⟨session', error | epoch⟩ := result
      · exact .chats hchat htrusts plain_nil nofun
      · exact .chats hchat htrusts (plain_singleton ⟨rfl, rfl, rfl⟩) nofun

private theorem plain_of_map {f : EncryptedEnvelope → Message}
    {result : Except ChatError EncryptedEnvelope} {message : Message}
    (hf : ∀ e, (f e).isToken = false ∧ (f e).isProof = false ∧ (f e).isRequest = false)
    (h : result.map f = .ok message) :
    message.isToken = false ∧ message.isProof = false ∧ message.isRequest = false := by
  cases result with
  | error error => cases h
  | ok envelope =>
      cases h
      exact hf envelope

theorem step_turn (derive : Argon2) (input : Input) :
    Turn P c input (c.step P derive input).1 (c.step P derive input).2 := by
  cases input with
  | hostMessage message => exact hostMessage_turn message
  | epochWrap wrap => exact epochWrap_turn wrap
  | memberMessage messageType envelope => exact memberMessage_turn messageType envelope
  | membership message => exact membership_turn message
  | timeoutChanged envelope =>
      exact heard_turn (fun s => s.receiveTimeoutChanged_trusts envelope) (by simp)
  | joinRequest nickname introduction => exact joinRequest_turn nickname introduction
  | sendChat nonce text =>
      refine answered_turn (fun s => s.sendChat_trusts nonce c.identity text) ?_ (by simp)
      intro s message h
      split at h
      · cases h
      · exact plain_of_map (fun _ => ⟨rfl, rfl, rfl⟩) h
  | sendColor nonce color =>
      refine answered_turn (fun s => s.sealMessage_trusts nonce c.identity _ _) ?_ (by simp)
      intro s message h
      exact plain_of_map (fun _ => ⟨rfl, rfl, rfl⟩) h
  | sendTimeoutRequest nonce seconds =>
      refine answered_turn (fun s => s.sendTimeoutRequest_trusts nonce c.identity seconds) ?_
        (by simp)
      intro s message h
      split at h
      · cases h
      · exact plain_of_map (fun _ => ⟨rfl, rfl, rfl⟩) h
  | setOwnColor color =>
      rw [step, setOwnColor]
      split
      · rename_i own session hown hsession
        exact .chats hsession (applyColor_trusts session own color) plain_nil nofun
      · exact .idles rfl nofun

/-! ### Whole runs -/

abbrev Entry := Machine.Entry ClientAdmission Input Output
abbrev Past := List Entry

/-- Any calls in any order. -/
abbrev Run (P : Primitives) (derive : Argon2) (c₀ : ClientAdmission) (past : Past)
    (c : ClientAdmission) : Prop :=
  Machine.Run (step P derive) (fun _ _ _ => True) c₀ past c

/-- How many messages of a kind were sent. -/
def sends (kind : Message → Bool) (past : Past) : Nat :=
  (past.flatMap fun entry => entry.output.sent).countP kind

/-- What is pinned of a hello. -/
def infoOf (hello : HostHello) : HostHelloInfo :=
  ⟨hello.roomSessionId, hello.hostEd25519Pubkey, hello.hostX25519Pubkey, hello.hostSignature⟩

/-- The step answers a hello that verifies under this client's invitation and nonce with the
token, and with nothing else. -/
structure Answers (P : Primitives) (c₀ : ClientAdmission) (hello : HostHello) (entry : Entry) :
    Prop where
  input : entry.input = .hostMessage (.hostHello hello)
  verifies : c₀.Verifies P hello
  sent : entry.output.sent = [.tokenVerify ⟨c₀.invitation.token⟩]

def Heard (P : Primitives) (c₀ : ClientAdmission) (hello : HostHello) (past : Past) : Prop :=
  ∃ entry ∈ past, Answers P c₀ hello entry

/-- A session of the room and the host that were pinned. -/
structure Pinned (session : ChatSession) (info : HostHelloInfo) : Prop where
  roomSessionId : session.roomSessionId = info.roomSessionId
  hostEd25519Pubkey : session.hostEd25519Pubkey = info.hostEd25519Pubkey
  hostX25519Pubkey : session.hostX25519Pubkey = info.hostX25519Pubkey

structure Chained (P : Primitives) (c₀ : ClientAdmission) (past : Past) (c : ClientAdmission) :
    Prop where
  invitation : c.invitation = c₀.invitation
  clientNonce : c.clientNonce = c₀.clientNonce
  fresh : c.state = .awaitingHostHello → c.hostHello = none
  trusted : c.state ≠ .awaitingHostHello →
    ∃ hello, Heard P c₀ hello past ∧ c.hostHello = some (infoOf hello)
  proofs : sends Message.isProof past =
    if c.state = .awaitingHostHello ∨ c.state = .awaitingChallenge then 0 else 1
  requests : sends Message.isRequest past =
    if c.state = .awaitingDecision ∨ c.state = .admitted then 1 else 0
  chat : ∀ session, c.chat = some session →
    c.state = .admitted ∧ ∃ info, c.hostHello = some info ∧ Pinned session info

variable {past older : Past} {entry : Entry} {invitation : Invitation} {password : Bytes}
variable {identity : Option MemberIdentity} {clientNonce : Option ShortNonce}

theorem Heard.cons {hello : HostHello} (h : Heard P c₀ hello past) (entry : Entry) :
    Heard P c₀ hello (entry :: past) := by
  obtain ⟨found, hmem, hanswers⟩ := h
  exact ⟨found, List.mem_cons_of_mem _ hmem, hanswers⟩

private theorem sends_cons (kind : Message → Bool) (entry : Entry) (past : Past) :
    sends kind (entry :: past) = entry.output.sent.countP kind + sends kind past := by
  simp [sends]

private theorem countP_of_plain {sent : List Message} (h : Plain sent) :
    sent.countP Message.isProof = 0 ∧ sent.countP Message.isRequest = 0 := by
  constructor
  · rw [List.countP_eq_zero]
    intro message hmem
    rw [(h message hmem).2.1]
    decide
  · rw [List.countP_eq_zero]
    intro message hmem
    rw [(h message hmem).2.2]
    decide

theorem verifies_congr (hinvitation : c.invitation = c₀.invitation)
    (hnonce : c.clientNonce = c₀.clientNonce) {hello : HostHello} :
    c.Verifies P hello ↔ c₀.Verifies P hello := by
  unfold Verifies helloTranscript
  rw [hinvitation, hnonce]

theorem Chained.turn {input : Input} {output : Output} (h : Chained P c₀ past c)
    (hturn : Turn P c input c' output) : Chained P c₀ (⟨c, input, output, c'⟩ :: past) c' := by
  have hproofs := h.proofs
  have hrequests := h.requests
  have htrusted (hstate : c.state ≠ .awaitingHostHello) :
      ∃ hello, Heard P c₀ hello (⟨c, input, output, c'⟩ :: past) ∧
        c.hostHello = some (infoOf hello) := by
    obtain ⟨hello, hheard, hhello⟩ := h.trusted hstate
    exact ⟨hello, hheard.cons _, hhello⟩
  have hchat (hstate : c.state ≠ .admitted) : c.chat = none := by
    cases hchat : c.chat with
    | none => rfl
    | some session => exact absurd (h.chat session hchat).1 hstate
  cases hturn with
  | @pins hello hstate hverifies =>
      rw [hstate] at hproofs hrequests
      have hnone := hchat (by simp [hstate])
      refine ⟨h.invitation, h.clientNonce, nofun, fun _ => ?_, ?_, ?_, ?_⟩
      · refine ⟨hello, ⟨_, List.mem_cons_self, rfl, ?_, ?_⟩, rfl⟩
        · exact (verifies_congr h.invitation h.clientNonce).mp hverifies
        · rw [← h.invitation]
      · simpa [sends_cons, pin, Message.isProof] using hproofs
      · simpa [sends_cons, pin, Message.isRequest] using hrequests
      · intro session hsession
        rw [pin, hnone] at hsession
        cases hsession
  | proves hstate _ _ _ =>
      rw [hstate] at hproofs hrequests
      have hnone := hchat (by simp [hstate])
      refine ⟨h.invitation, h.clientNonce, nofun, fun _ => htrusted (by simp [hstate]), ?_, ?_, ?_⟩
      · simpa [sends_cons, Message.isProof] using hproofs
      · simpa [sends_cons, Message.isRequest] using hrequests
      · intro session hsession
        dsimp only at hsession
        rw [hnone] at hsession
        cases hsession
  | applies hstate =>
      rw [hstate] at hproofs hrequests
      have hnone := hchat (by simp [hstate])
      refine ⟨h.invitation, h.clientNonce, nofun, fun _ => htrusted (by simp [hstate]), ?_, ?_, ?_⟩
      · simpa [sends_cons, Message.isProof] using hproofs
      · simpa [sends_cons, Message.isRequest] using hrequests
      · intro session hsession
        dsimp only at hsession
        rw [hnone] at hsession
        cases hsession
  | @admits accepted hstate =>
      rw [hstate] at hproofs hrequests
      have hnone := hchat (by simp [hstate])
      refine ⟨h.invitation, h.clientNonce, nofun, fun _ => htrusted (by simp [hstate]), ?_, ?_, ?_⟩
      · simpa [sends_cons, admittedAs] using hproofs
      · simpa [sends_cons, admittedAs] using hrequests
      · intro session hsession
        obtain ⟨hello, -, hhello⟩ := htrusted (by simp [hstate])
        simp only [admittedAs, hhello] at hsession
        cases hsession
        exact ⟨rfl, _, hhello, rfl, rfl, rfl⟩
  | chats hsession htrusts hplain _ =>
      obtain ⟨hstate, info, hinfo, hpinned⟩ := h.chat _ hsession
      obtain ⟨hnoProof, hnoRequest⟩ := countP_of_plain hplain
      refine ⟨h.invitation, h.clientNonce, h.fresh, htrusted, ?_, ?_, ?_⟩
      · simpa [sends_cons, hnoProof] using hproofs
      · simpa [sends_cons, hnoRequest] using hrequests
      · rintro session ⟨⟩
        exact ⟨hstate, info, hinfo, htrusts.roomSessionId.trans hpinned.roomSessionId,
          htrusts.hostEd25519Pubkey.trans hpinned.hostEd25519Pubkey,
          htrusts.hostX25519Pubkey.trans hpinned.hostX25519Pubkey⟩
  | idles hsent _ =>
      refine ⟨h.invitation, h.clientNonce, h.fresh, htrusted, ?_, ?_, h.chat⟩
      · simpa [sends_cons, hsent] using hproofs
      · simpa [sends_cons, hsent] using hrequests

theorem chained_of_run (hstart : new invitation password identity clientNonce = .ok c₀)
    (run : Run P derive c₀ past c) : Chained P c₀ past c := by
  refine Machine.Run.invariant (Chained P c₀) ?_ ?_ run
  · unfold new at hstart
    split at hstart
    · cases hstart
      exact ⟨rfl, rfl, fun _ => rfl, fun h => absurd rfl h, rfl, rfl, nofun⟩
    · cases hstart
  · intro past c input _ h _
    exact h.turn (step_turn derive input)

/-! ### The trust chain -/

section
variable (hstart : new invitation password identity clientNonce = .ok c₀)
include hstart

private theorem turn_of_split {newer : Past} (run : Run P derive c₀ (newer ++ entry :: older) c) :
    Chained P c₀ older entry.before ∧
      Turn P entry.before entry.input entry.after entry.output := by
  obtain ⟨hrun, -, hstep, -⟩ := Machine.Run.split run
  have hturn := step_turn (P := P) (c := entry.before) derive entry.input
  rw [hstep] at hturn
  exact ⟨chained_of_run hstart hrun, hturn⟩

theorem token_answers_hello (run : Run P derive c₀ past c) (hentry : entry ∈ past)
    {verify : TokenVerify} (h : .tokenVerify verify ∈ entry.output.sent) :
    ∃ hello, Answers P c₀ hello entry := by
  obtain ⟨newer, older, rfl⟩ := List.append_of_mem hentry
  obtain ⟨hchained, hturn⟩ := turn_of_split hstart run
  generalize hinput : entry.input = input at hturn
  generalize entry.after = after at hturn
  generalize houtput : entry.output = output at hturn h
  cases hturn with
  | @pins hello _ hverifies =>
      refine ⟨hello, hinput, (verifies_congr hchained.invitation hchained.clientNonce).mp
        hverifies, ?_⟩
      rw [houtput, hchained.invitation]
  | proves _ _ _ _ | applies _ => cases List.mem_singleton.mp h
  | admits _ => cases h
  | chats _ _ hplain _ => cases (hplain _ h).1
  | idles hsent _ =>
      rw [hsent] at h
      cases h

theorem proof_follows_token {newer : Past} (run : Run P derive c₀ (newer ++ entry :: older) c)
    {proof : ChallengeProof} (h : .challengeProof proof ∈ entry.output.sent) :
    (∃ hello, Heard P c₀ hello older) ∧
      ∃ challenge, entry.input = .hostMessage (.passwordChallenge challenge) ∧
        challenge.mCost = argon2MCost ∧ challenge.tCost = argon2TCost ∧
        challenge.pCost = argon2PCost := by
  obtain ⟨hchained, hturn⟩ := turn_of_split hstart run
  generalize entry.input = input at hturn ⊢
  generalize entry.after = after at hturn
  generalize entry.output = output at hturn h
  cases hturn with
  | proves hstate hmemory htime hlanes =>
      obtain ⟨hello, hheard, -⟩ := hchained.trusted (by simp [hstate])
      exact ⟨⟨hello, hheard⟩, _, rfl, hmemory, htime, hlanes⟩
  | pins _ _ | applies _ => cases List.mem_singleton.mp h
  | admits _ => cases h
  | chats _ _ hplain _ => cases (hplain _ h).2.1
  | idles hsent _ =>
      rw [hsent] at h
      cases h

theorem request_follows_proof {newer : Past} (run : Run P derive c₀ (newer ++ entry :: older) c)
    {request : JoinRequestMessage} (h : .joinRequest request ∈ entry.output.sent) :
    sends Message.isProof older = 1 := by
  obtain ⟨hchained, hturn⟩ := turn_of_split hstart run
  have hproofs := hchained.proofs
  generalize entry.input = input at hturn
  generalize entry.after = after at hturn
  generalize entry.output = output at hturn h
  cases hturn with
  | applies hstate => simpa [hstate] using hproofs
  | pins _ _ | proves _ _ _ _ => cases List.mem_singleton.mp h
  | admits _ => cases h
  | chats _ _ hplain _ => cases (hplain _ h).2.2
  | idles hsent _ =>
      rw [hsent] at h
      cases h

theorem pins_stay (run : Run P derive c₀ past c) (hentry : entry ∈ past) {info : HostHelloInfo}
    (h : entry.before.hostHello = some info) : c.hostHello = some info := by
  suffices hkeep : ∀ past c input, Run P derive c₀ past c → True → ∀ info : HostHelloInfo,
      c.hostHello = some info → (step P derive c input).1.hostHello = some info from
    (Machine.Run.later (fun c c' : ClientAdmission => ∀ info : HostHelloInfo,
      c.hostHello = some info → c'.hostHello = some info) (fun _ _ hinfo => hinfo)
      (fun hearlier hlater info hinfo => hlater info (hearlier info hinfo)) hkeep run hentry).1
      info h
  intro past c input hrun _ info hinfo
  have hfresh := (chained_of_run hstart hrun).fresh
  have hturn := step_turn (P := P) (c := c) derive input
  generalize c.step P derive input = result at hturn
  obtain ⟨c', output⟩ := result
  dsimp only at hturn
  cases hturn with
  | pins hstate _ =>
      rw [hfresh hstate] at hinfo
      cases hinfo
  | proves _ _ _ _ | applies _ | admits _ | chats _ _ _ _ | idles _ _ => exact hinfo

theorem membership_signed {newer : Past} (run : Run P derive c₀ (newer ++ entry :: older) c)
    {message : Message} (hinput : entry.input = .membership message)
    (haccepted : entry.output.accepted = true) :
    ∃ hello, Heard P c₀ hello older ∧
      message.SignedBy P hello.hostEd25519Pubkey hello.roomSessionId := by
  obtain ⟨hchained, hturn⟩ := turn_of_split hstart run
  rw [hinput] at hturn
  generalize entry.after = after at hturn
  generalize entry.output = output at hturn haccepted
  cases hturn with
  | chats hsession _ _ hsigned =>
      obtain ⟨hstate, info, hinfo, hpinned⟩ := hchained.chat _ hsession
      obtain ⟨hello, hheard, hhello⟩ := hchained.trusted (by simp [hstate])
      have hmessage := hsigned message rfl haccepted
      rw [hpinned.hostEd25519Pubkey, hpinned.roomSessionId] at hmessage
      cases hinfo.symm.trans hhello
      exact ⟨hello, hheard, hmessage⟩
  | idles _ hidle =>
      rw [hidle message rfl] at haccepted
      cases haccepted

/-- The client's trust chain, over every run of its flow, whatever its peer sends and the member
does: the token goes out only in reply to a hello signed for this invitation and nonce; one proof
at most, after that and for the fixed costs; one join request at most, after the proof; what was
pinned stays; and the session and every membership event it accepts are under the pinned keys. -/
theorem trust_chain (run : Run P derive c₀ past c) :
    (∀ entry ∈ past, ∀ verify, .tokenVerify verify ∈ entry.output.sent →
      ∃ hello, Answers P c₀ hello entry) ∧
    (sends Message.isProof past ≤ 1 ∧ ∀ newer entry older proof, past = newer ++ entry :: older →
      .challengeProof proof ∈ entry.output.sent → (∃ hello, Heard P c₀ hello older) ∧
        ∃ challenge, entry.input = .hostMessage (.passwordChallenge challenge) ∧
          challenge.mCost = argon2MCost ∧ challenge.tCost = argon2TCost ∧
          challenge.pCost = argon2PCost) ∧
    (sends Message.isRequest past ≤ 1 ∧ ∀ newer entry older request,
      past = newer ++ entry :: older → .joinRequest request ∈ entry.output.sent →
      sends Message.isProof older = 1) ∧
    (∀ entry ∈ past, ∀ info, entry.before.hostHello = some info → c.hostHello = some info) ∧
    (∀ session, c.chat = some session → ∃ hello, Heard P c₀ hello past ∧
      c.hostHello = some (infoOf hello) ∧ Pinned session (infoOf hello)) ∧
    ∀ newer entry older message, past = newer ++ entry :: older →
      entry.input = .membership message → entry.output.accepted = true →
      ∃ hello, Heard P c₀ hello older ∧
        message.SignedBy P hello.hostEd25519Pubkey hello.roomSessionId := by
  have hchained := chained_of_run hstart run
  refine ⟨?_, ⟨?_, ?_⟩, ⟨?_, ?_⟩, ?_, ?_, ?_⟩
  · intro entry hentry verify
    exact token_answers_hello hstart run hentry
  · rw [hchained.proofs]
    split <;> omega
  · rintro newer entry older proof rfl
    exact proof_follows_token hstart run
  · rw [hchained.requests]
    split <;> omega
  · rintro newer entry older request rfl
    exact request_follows_proof hstart run
  · intro entry hentry info
    exact pins_stay hstart run hentry
  · intro session hsession
    obtain ⟨hstate, info, hinfo, hpinned⟩ := hchained.chat session hsession
    obtain ⟨hello, hheard, hhello⟩ := hchained.trusted (by simp [hstate])
    cases hinfo.symm.trans hhello
    exact ⟨hello, hheard, hhello, hpinned⟩
  · rintro newer entry older message rfl
    exact membership_signed hstart run

end

end ClientAdmission

/-! ### A visitor of the symbolic room -/

namespace Symbolic
open ClientAdmission

def invitation : Invitation where
  onionAddress := "veilroom.onion".toList
  port := 80
  token := List.replicate 32 6
  port_range := by decide
  token_range := by decide

/-- Argon2id of the symbolic room's password. -/
def argon2 : Argon2 := fun _ _ _ _ _ => some (Vector.replicate 32 10)

/-- The client's flow as it starts. -/
def joiner : ClientAdmission where
  invitation := invitation
  password := [1]
  identity := ⟨Vector.replicate 32 8, Vector.replicate 32 9⟩
  clientNonce := Vector.replicate 16 3
  serverNonce := none
  hostHello := none
  memberId := none
  chat := none
  state := .awaitingHostHello

/-- The hello of a host whose keys are 1 and 2. -/
def hello : HostHello where
  version := 1
  roomSessionId := Vector.replicate 32 5
  hostEd25519Pubkey := Vector.replicate 32 1
  hostX25519Pubkey := Vector.replicate 32 2
  serverNonce := Vector.replicate 16 1
  hostSignature := sign (Vector.replicate 32 1)

/-- The client is admitted and hears that the room was locked. -/
def joining : List Input :=
  [.hostMessage (.hostHello hello),
    .hostMessage (.passwordChallenge ⟨argon2MCost, argon2TCost, argon2PCost,
      Vector.replicate 16 2, Vector.replicate 16 4⟩),
    .joinRequest "guest" none, .hostMessage (.joinAccepted ⟨1⟩),
    .membership (.joinPolicyChanged ⟨1, 1, false, sign (Vector.replicate 32 1)⟩)]

def joined : Past × ClientAdmission :=
  Machine.exec (step primitives argon2) joining [] joiner

end Symbolic

open Symbolic in
theorem ClientAdmission.trust_chain_joined :
    sends Message.isToken joined.1 = 1 ∧ sends Message.isProof joined.1 ≤ 1 ∧
      sends Message.isRequest joined.1 ≤ 1 ∧ ∃ session hello, joined.2.chat = some session ∧
        Heard primitives joiner hello joined.1 ∧ Pinned session (infoOf hello) := by
  have run : Run primitives argon2 joiner joined.1 joined.2 :=
    Machine.Run.exec .start fun _ _ _ _ _ _ _ _ => trivial
  have hstart : new joiner.invitation [1] (some joiner.identity) (some joiner.clientNonce) =
      .ok joiner := rfl
  obtain ⟨-, ⟨hproofs, -⟩, ⟨hrequests, -⟩, -, hchat, -⟩ := trust_chain hstart run
  cases hsession : joined.2.chat with
  | none =>
      have hsome : joined.2.chat.isSome = true := by decide +kernel
      rw [hsession] at hsome
      cases hsome
  | some session =>
      obtain ⟨hello, hheard, -, hpinned⟩ := hchat session hsession
      exact ⟨by decide +kernel, hproofs, hrequests, session, hello, rfl, hheard, hpinned⟩

end Veilroom
