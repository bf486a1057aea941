import Veilroom.Host.Supervisor

/-!
What one step of the host supervisor is to one connection. A message either
passes the gate or closes its connection; everything else can only close the
connection or mark it admitted.
-/
namespace Veilroom

namespace HostConnection
variable {P : Primitives} {c after : HostConnection} {id : ConnectionId} {policy : JoinPolicy}
  {input : MessageInput} {output : SupervisorOutput}

theorem active_of_accepts {message : Message} (h : c.state.accepts message.messageType.messageClass)
    (hclass : message.messageType.messageClass = .chat ∨
      message.messageType.messageClass = .epoch) :
    c.admission.state = .decided ∧ c.admitted = true := by
  obtain hclass | hclass := hclass <;> rw [hclass] at h <;>
    cases hstate : c.admission.state <;> cases hadmitted : c.admitted <;>
    simp_all [state, ConnectionState.accepts]

/-- What a message that does not fail does to its connection. -/
inductive Accepts (P : Primitives) (id : ConnectionId) (policy : JoinPolicy)
    (queue : Except PeerSendError Unit) (c : HostConnection) :
    Message → HostConnection → SupervisorOutput → Prop
  | hello {hello : ClientHello} {next : HostConnection} {reply : Message} :
      queue = .ok () → c.admission.state = .awaitingHello → hello.version = 1 → hello.features = 0 →
      next.admission = { c.admission with
        clientNonce := some hello.clientNonce, state := .awaitingToken } →
      Accepts P id policy queue c (.clientHello hello) next { sent := [(id, reply)] }
  | token {verify : TokenVerify} {next : HostConnection} {challenge : PasswordChallenge} :
      queue = .ok () → c.admission.state = .awaitingToken →
      verify.token = c.admission.token →
      next.admission = { c.admission with
        challengeNonce := some challenge.challengeNonce, state := .awaitingProof } →
      Accepts P id policy queue c (.tokenVerify verify) next
        { sent := [(id, .passwordChallenge challenge)] }
  | proof {proof : ChallengeProof} {next : HostConnection}
      {challengeNonce clientNonce : ShortNonce} : c.admission.state = .awaitingProof →
      c.admission.challengeNonce = some challengeNonce →
      c.admission.clientNonce = some clientNonce →
      c.admission.verifier.verifyProof P challengeNonce clientNonce proof.proof = true →
      next.admission = { c.admission with state := .awaitingJoinForm } →
      Accepts P id policy queue c (.challengeProof proof) next { events := [.passwordVerified id] }
  | request {request : JoinRequestMessage} {next : HostConnection} {clientNonce : ShortNonce} :
      c.admission.state = .awaitingJoinForm → c.admission.clientNonce = some clientNonce →
      P.ed25519Verify request.ed25519Pubkey (joinRequestTranscript 1 c.admission.roomSessionId
        clientNonce c.admission.serverNonce request.nickname
        (P.sha256 (Transcript.utf8 (request.introduction.getD ""))) request.ed25519Pubkey
        request.x25519Pubkey c.admission.onionAddress (P.sha256 c.admission.token))
        request.signature = true →
      policy = .opened → next.admission.state = .decided →
      Accepts P id policy queue c (.joinRequest request) next
        { events := [.joinRequested id ⟨request.nickname, request.introduction,
          request.ed25519Pubkey, request.x25519Pubkey, request.signature⟩] }
  | member {message : Message} {next : HostConnection} {event : RoomEvent} :
      c.admission.state = .decided → c.admitted = true → next.admission = c.admission →
      (∃ epoch, event = .epochAck id epoch) ∨
        (∃ messageType envelope, event = .chatReceived id messageType envelope) →
      Accepts P id policy queue c message next { events := [event] }
  | keepalive {next : HostConnection} : next.admission = c.admission →
      Accepts P id policy queue c .keepalive next {}

private theorem reply_ok {message : Message} {queue : Except PeerSendError Unit}
    (h : c.reply id message queue = (after, output, .ok ())) :
    queue = .ok () ∧ after = c ∧ output = { sent := [(id, message)] } := by
  unfold reply at h
  split at h
  · simp at h
  · cases h
    exact ⟨rfl, rfl, rfl⟩

private theorem admit_token {verify : TokenVerify}
    (h : c.admitMessage P id (.tokenVerify verify) policy input = (after, output, .ok ())) :
    Accepts P id policy input.queue c (.tokenVerify verify) after output := by
  unfold admitMessage HostAdmission.onMessage at h
  cases hstate : c.admission.state with
  | awaitingToken =>
      simp only [hstate, HostAdmission.handleToken] at h
      split_ifs at h with htoken
      · simp at h
      · cases hnonce : input.nonce with
        | none => simp [hnonce] at h
        | some nonce =>
            simp only [hnonce] at h
            obtain ⟨hqueue, rfl, rfl⟩ := reply_ok h
            exact .token hqueue hstate (not_not.mp htoken) rfl
  | awaitingHello | awaitingProof | awaitingJoinForm | decided => simp [hstate] at h

private theorem admit_proof {proof : ChallengeProof}
    (h : c.admitMessage P id (.challengeProof proof) policy input = (after, output, .ok ())) :
    Accepts P id policy input.queue c (.challengeProof proof) after output := by
  unfold admitMessage HostAdmission.onMessage at h
  cases hstate : c.admission.state with
  | awaitingProof =>
      simp only [hstate, HostAdmission.handleProof] at h
      cases hchallenge : c.admission.challengeNonce with
      | none => simp [hchallenge] at h
      | some challengeNonce =>
          cases hclient : c.admission.clientNonce with
          | none => simp [hchallenge, hclient] at h
          | some clientNonce =>
              simp only [hchallenge, hclient] at h
              split_ifs at h with hproof
              · cases h
                exact .proof hstate hchallenge hclient hproof (by rw [← hchallenge, ← hclient])
              · simp at h
  | awaitingHello | awaitingToken | awaitingJoinForm | decided => simp [hstate] at h

private theorem admit_request {request : JoinRequestMessage}
    (h : c.admitMessage P id (.joinRequest request) policy input = (after, output, .ok ())) :
    Accepts P id policy input.queue c (.joinRequest request) after output := by
  unfold admitMessage HostAdmission.onMessage at h
  cases hstate : c.admission.state with
  | awaitingJoinForm =>
      simp only [hstate, HostAdmission.handleJoinRequest] at h
      cases hclient : c.admission.clientNonce with
      | none => simp [hclient] at h
      | some clientNonce =>
          by_cases hsigned : P.ed25519Verify request.ed25519Pubkey (joinRequestTranscript 1
              c.admission.roomSessionId clientNonce c.admission.serverNonce request.nickname
              (P.sha256 (Transcript.utf8 (request.introduction.getD ""))) request.ed25519Pubkey
              request.x25519Pubkey c.admission.onionAddress (P.sha256 c.admission.token))
              request.signature = true
          · cases hkey : c.admission.hostIdentity.tryWrapKeyFor P request.x25519Pubkey
                c.admission.roomSessionId 0 with
            | error error => simp [hclient, hsigned, hkey] at h
            | ok key =>
                cases policy with
                | opened =>
                    simp only [hclient, hsigned, hkey, JoinPolicy.allowsJoinRequests,
                      not_true_eq_false, ↓reduceIte] at h
                    cases h
                    exact .request hstate hclient hsigned rfl rfl
                | locked => simp [hclient, hsigned, hkey, JoinPolicy.allowsJoinRequests] at h
          · simp [hclient, hsigned] at h
  | awaitingHello | awaitingToken | awaitingProof | decided => simp [hstate] at h

private theorem dispatch_hello {hello : ClientHello}
    (h : c.dispatch P id (.clientHello hello) policy input = (after, output, .ok ())) :
    Accepts P id policy input.queue c (.clientHello hello) after output := by
  simp only [dispatch, HostAdmission.onClientHello] at h
  split_ifs at h with hstate hversion hfeatures
  · simp at h
  · simp at h
  · simp at h
  · obtain ⟨hqueue, rfl, rfl⟩ := reply_ok h
    exact .hello hqueue (not_not.mp hstate) (not_not.mp hversion) (not_not.mp hfeatures) rfl

/-- Accepting a message does not depend on the stage clock. -/
private theorem Accepts.restage {message : Message} {queue : Except PeerSendError Unit}
    (h : Accepts P id policy queue c message after output) (stageSince : Duration) :
    Accepts P id policy queue c message { after with stageSince } output := by
  cases h with
  | hello hqueue hstate hversion hfeatures hafter =>
      exact .hello hqueue hstate hversion hfeatures hafter
  | token hqueue hstate htoken hafter => exact .token hqueue hstate htoken hafter
  | proof hstate hchallenge hclient hproof hafter =>
      exact .proof hstate hchallenge hclient hproof hafter
  | request hstate hclient hsigned hpolicy hafter =>
      exact .request hstate hclient hsigned hpolicy hafter
  | member hstate hadmitted hafter hevent => exact .member hstate hadmitted hafter hevent
  | keepalive hafter => exact .keepalive hafter

theorem accepts_of_dispatch {message : Message}
    (haccepts : c.state.accepts message.messageType.messageClass = true)
    (h : c.dispatch P id message policy input = (after, output, .ok ())) :
    Accepts P id policy input.queue c message after output := by
  have hactive := active_of_accepts haccepts
  cases message with
  | clientHello hello => exact dispatch_hello h
  | tokenVerify verify => exact admit_token h
  | challengeProof proof => exact admit_proof h
  | joinRequest request => exact admit_request h
  | epochAck ack =>
      cases h
      exact .member (hactive (.inr rfl)).1 (hactive (.inr rfl)).2 rfl (.inl ⟨_, rfl⟩)
  | chatMessage envelope | colorChange envelope | timeoutRequest envelope
  | timeoutChanged envelope =>
      cases h
      exact .member (hactive (.inl rfl)).1 (hactive (.inl rfl)).2 rfl (.inr ⟨_, _, rfl⟩)
  | keepalive =>
      cases h
      exact .keepalive rfl
  | shutdown | error _ | hostHello _ | passwordChallenge _ | joinAccepted _ | joinRejected _
  | epochWrap _ | memberJoined _ | memberLeft _ | memberKicked _ | joinPolicyChanged _
  | memberSnapshot _ => simp [dispatch] at h

theorem accepts_of_handle {message : Message}
    (h : c.handle P id message policy input = (after, output, .ok ())) :
    Accepts P id policy input.queue c message after output := by
  unfold handle at h
  split at h
  · simp at h
  split at h
  · simp at h
  rename_i hlocked haccepts
  have hdispatch {next : HostConnection} {sent : SupervisorOutput} :
      c.dispatch P id message policy input = (next, sent, .ok ()) →
        Accepts P id policy input.queue c message next sent :=
    accepts_of_dispatch (not_not.mp haccepts)
  generalize c.dispatch P id message policy input = result at h hdispatch
  obtain ⟨next, sent, error | done⟩ := result
  · simp at h
  · dsimp only at h hdispatch
    split at h <;> cases h
    · exact (hdispatch rfl).restage _
    · exact hdispatch rfl

private theorem reply_error {message : Message} {queue : Except PeerSendError Unit}
    {error : HostMessageError} (h : c.reply id message queue = (after, output, .error error)) :
    output = {} := by
  unfold reply at h
  split at h
  · cases h
    rfl
  · simp at h

private theorem admit_error {message : Message} {error : HostMessageError}
    (h : c.admitMessage P id message policy input = (after, output, .error error)) :
    output = {} := by
  unfold admitMessage at h
  split at h
  · cases h
    rfl
  · exact reply_error h
  · simp at h
  · simp at h

private theorem dispatch_error {message : Message} {error : HostMessageError}
    (h : c.dispatch P id message policy input = (after, output, .error error)) :
    output = {} := by
  cases message with
  | clientHello hello =>
      simp only [dispatch] at h
      split at h
      · cases h
        rfl
      · exact reply_error h
  | tokenVerify _ | challengeProof _ | joinRequest _ => exact admit_error h
  | epochAck _ | chatMessage _ | colorChange _ | timeoutRequest _ | timeoutChanged _
  | keepalive => simp [dispatch] at h
  | shutdown | error _ | hostHello _ | passwordChallenge _ | joinAccepted _ | joinRejected _
  | epochWrap _ | memberJoined _ | memberLeft _ | memberKicked _ | joinPolicyChanged _
  | memberSnapshot _ =>
      cases h
      rfl

/-- A message that fails sends nothing and submits nothing. -/
theorem output_of_error {message : Message} {error : HostMessageError}
    (h : c.handle P id message policy input = (after, output, .error error)) :
    output = {} := by
  unfold handle at h
  split at h
  · cases h
    rfl
  split at h
  · cases h
    rfl
  split at h
  · rename_i hdispatch
    cases h
    exact dispatch_error hdispatch
  · split at h <;> simp at h

/-- A proof was evaluated against the nonces of the flow, and found wrong. -/
def Guessed (P : Primitives) (c : HostConnection) (message : Message) : Prop :=
  ∃ proof challengeNonce clientNonce, message = .challengeProof proof ∧
    c.admission.state = .awaitingProof ∧ c.admission.challengeNonce = some challengeNonce ∧
    c.admission.clientNonce = some clientNonce ∧
    c.admission.verifier.verifyProof P challengeNonce clientNonce proof.proof = false

private theorem guessed_of_onMessage {message : Message} {nonce : Option ShortNonce}
    {flow flow' : HostAdmission}
    (h : flow.onMessage P nonce message policy = (flow', .error .invalidPasswordProof)) :
    ∃ proof challengeNonce clientNonce, message = .challengeProof proof ∧
      flow.state = .awaitingProof ∧ flow.challengeNonce = some challengeNonce ∧
      flow.clientNonce = some clientNonce ∧
      flow.verifier.verifyProof P challengeNonce clientNonce proof.proof = false := by
  unfold HostAdmission.onMessage at h
  split at h
  · unfold HostAdmission.handleToken at h
    split at h
    · simp at h
    split at h <;> simp at h
  · rename_i proof hstate
    unfold HostAdmission.handleProof at h
    split at h
    · rename_i challengeNonce clientNonce hchallenge hclient
      split at h
      · simp at h
      · rename_i hproof
        exact ⟨proof, challengeNonce, clientNonce, rfl, hstate, hchallenge, hclient,
          Bool.eq_false_iff.mpr hproof⟩
    · simp at h
  · unfold HostAdmission.handleJoinRequest at h
    split at h
    · simp at h
    dsimp only at h
    split at h
    · simp at h
    split at h
    · simp at h
    split at h <;> simp at h
  · simp at h

theorem guessed_of_handle {message : Message}
    (h : c.handle P id message policy input =
      (after, output, .error (.admission .invalidPasswordProof))) : c.Guessed P message := by
  unfold handle at h
  split at h
  · simp at h
  split at h
  · simp at h
  split at h
  · rename_i hdispatch
    cases h
    have hadmit : c.admitMessage P id message policy input =
        (after, output, .error (.admission .invalidPasswordProof)) := by
      cases message with
      | tokenVerify _ | challengeProof _ | joinRequest _ => exact hdispatch
      | clientHello hello =>
          unfold dispatch HostAdmission.onClientHello at hdispatch
          dsimp only at hdispatch
          split_ifs at hdispatch
          · simp at hdispatch
          · simp at hdispatch
          · simp at hdispatch
          · unfold reply at hdispatch
            dsimp only at hdispatch
            split at hdispatch <;> simp at hdispatch
      | epochAck _ | chatMessage _ | colorChange _ | timeoutRequest _ | timeoutChanged _
      | keepalive | shutdown | error _ | hostHello _ | passwordChallenge _ | joinAccepted _
      | joinRejected _ | epochWrap _ | memberJoined _ | memberLeft _ | memberKicked _
      | joinPolicyChanged _ | memberSnapshot _ => simp [dispatch] at hdispatch
    unfold admitMessage at hadmit
    split at hadmit
    · rename_i honMessage
      cases hadmit
      exact guessed_of_onMessage honMessage
    · unfold reply at hadmit
      split at hadmit <;> simp at hadmit
    · simp at hadmit
    · simp at hadmit
  · split at h <;> simp at h

end HostConnection

/-- An event that hands a message of the connection on to the room. -/
def RoomEvent.forwards (id : ConnectionId) : RoomEvent → Bool
  | .passwordVerified c | .joinRequested c _ | .epochAck c _ | .chatReceived c _ _ => c = id
  | _ => false

/-- How the ids of a listener move: not at all, one is accepted, or one is received. -/
def HostNetwork.IdsMove (n n' : HostNetwork) : Prop :=
  (n'.nextId = n.nextId ∧ n'.connects = n.connects) ∨
    (n'.nextId = n.nextId + 1 ∧ n'.connects = n.connects ++ [n.nextId]) ∨
    (n'.nextId = n.nextId ∧ ∃ id, n.connects = id :: n'.connects)

namespace Supervisor
variable {P : Primitives} {debug : Message → String} {s s' : Supervisor} {id : ConnectionId}

/-- What everything but a connection's own messages can do to it: close it, or mark it
admitted while its peer is live. -/
structure Aside (id : ConnectionId) (s s' : Supervisor) : Prop where
  connection : ∀ c', s'.connections id = some c' → ∃ c, s.connections id = some c ∧
    c'.admission = c.admission ∧
    (c'.admitted = true → c.admitted = true ∨ s.network.isLive id = true)
  live : s'.network.isLive id = true → s.network.isLive id = true

namespace Aside

theorem refl (s : Supervisor) : Aside id s s :=
  ⟨fun c hc => ⟨c, hc, rfl, .inl⟩, fun h => h⟩

theorem trans {s₁ s₂ s₃ : Supervisor} (h : Aside id s₁ s₂) (h' : Aside id s₂ s₃) :
    Aside id s₁ s₃ := by
  refine ⟨fun c₃ hc₃ => ?_, fun hlive => h.live (h'.live hlive)⟩
  obtain ⟨c₂, hc₂, hsame', hadmitted'⟩ := h'.connection c₃ hc₃
  obtain ⟨c₁, hc₁, hsame, hadmitted⟩ := h.connection c₂ hc₂
  refine ⟨c₁, hc₁, hsame'.trans hsame, fun hc => ?_⟩
  obtain hc | hlive := hadmitted' hc
  · exact hadmitted hc
  · exact .inr (h.live hlive)

/-- Nothing about connections or peers changes. -/
theorem same (hconnections : s'.connections = s.connections) (hnetwork : s'.network = s.network) :
    Aside id s s' := by
  refine ⟨fun c hc => ⟨c, ?_, rfl, .inl⟩, fun h => ?_⟩
  · rw [← hconnections]
    exact hc
  · rw [← hnetwork]
    exact h

theorem drop (s : Supervisor) (c : ConnectionId) : Aside id s (s.drop c) := by
  constructor
  · intro c' hc'
    simp only [Supervisor.drop, setConnection] at hc'
    split at hc'
    · cases hc'
    · exact ⟨c', hc', rfl, .inl⟩
  · intro h
    simp only [Supervisor.drop, HostNetwork.isLive_close, Bool.and_eq_true] at h
    exact h.1

end Aside

@[simp] theorem connections_setConnection (s : Supervisor) (c id : ConnectionId)
    (entry : Option HostConnection) :
    (s.setConnection c entry).connections id = if id = c then entry else s.connections id := rfl

@[simp] theorem network_setConnection (s : Supervisor) (c : ConnectionId)
    (entry : Option HostConnection) : (s.setConnection c entry).network = s.network := rfl

@[simp] theorem policy_setConnection (s : Supervisor) (c : ConnectionId)
    (entry : Option HostConnection) : (s.setConnection c entry).policy = s.policy := rfl

@[simp] theorem connections_drop (s : Supervisor) (c id : ConnectionId) :
    (s.drop c).connections id = if id = c then none else s.connections id := rfl

@[simp] theorem network_drop (s : Supervisor) (c : ConnectionId) :
    (s.drop c).network = s.network.close c := rfl

/-- The room is told nothing that the connection said. -/
def Silent (id : ConnectionId) (events : List RoomEvent) : Prop :=
  ∀ event ∈ events, event.forwards id = false

theorem Silent.append {first second : List RoomEvent} (h : Silent id first)
    (h' : Silent id second) : Silent id (first ++ second) := by
  intro event hevent
  obtain hevent | hevent := List.mem_append.mp hevent
  · exact h event hevent
  · exact h' event hevent

/-- The supervisor does nothing to its connections and speaks only for the host. -/
def Inward (s s' : Supervisor) (events : List RoomEvent) : Prop :=
  s'.connections = s.connections ∧ s'.network = s.network ∧
    ∀ id, id ≠ hostConnectionId → Silent id events

private theorem Inward.quiet (hconnections : s'.connections = s.connections)
    (hnetwork : s'.network = s.network) : Inward s s' [] := by
  refine ⟨hconnections, hnetwork, fun id _ event hevent => ?_⟩
  cases hevent

private theorem Inward.one {event : RoomEvent} (hconnections : s'.connections = s.connections)
    (hnetwork : s'.network = s.network)
    (hevent : ∀ id, id ≠ hostConnectionId → event.forwards id = false) :
    Inward s s' [event] := by
  refine ⟨hconnections, hnetwork, fun id hid event hmem => ?_⟩
  rw [List.mem_singleton.mp hmem]
  exact hevent id hid

private theorem Inward.ack (epoch : Nat) (hconnections : s'.connections = s.connections)
    (hnetwork : s'.network = s.network) : Inward s s' [.epochAck hostConnectionId epoch] := by
  apply Inward.one hconnections hnetwork
  intro id hid
  simp [RoomEvent.forwards, hid.symm]

private theorem Inward.chat (messageType : UInt8) (envelope : EncryptedEnvelope)
    (hconnections : s'.connections = s.connections) (hnetwork : s'.network = s.network) :
    Inward s s' [.chatReceived hostConnectionId messageType envelope] := by
  apply Inward.one hconnections hnetwork
  intro id hid
  simp [RoomEvent.forwards, hid.symm]

private theorem Inward.add {events : List RoomEvent} {event : RoomEvent}
    (h : Inward s s' events) (hevent : ∀ id, event.forwards id = false) :
    Inward s s' (events ++ [event]) := by
  refine ⟨h.1, h.2.1, fun id hid => (h.2.2 id hid).append fun e he => ?_⟩
  rw [List.mem_singleton.mp he]
  exact hevent id

theorem onOwnMessage_inward (s : Supervisor) (message : Message) :
    Inward s (s.onOwnMessage P message).1 (s.onOwnMessage P message).2 := by
  unfold onOwnMessage
  split
  · split
    · exact .quiet rfl rfl
    split
    · exact .quiet rfl rfl
    · exact .ack _ rfl rfl
  · exact .quiet rfl rfl
  · exact .quiet rfl rfl
  · split
    · exact .quiet rfl rfl
    · split <;> exact .quiet rfl rfl
  · exact .quiet rfl rfl

theorem sendTimeoutChanged_inward (s : Supervisor) (nonce : Option Nonce)
    (interval : Option Nat) :
    Inward s (s.sendTimeoutChanged P nonce interval).1
      (s.sendTimeoutChanged P nonce interval).2 := by
  unfold sendTimeoutChanged
  split
  · exact .chat _ _ rfl rfl
  · exact .quiet rfl rfl

theorem onNotice_inward (s : Supervisor) (nonce : Option Nonce) (notice : HostNotice) :
    Inward s (s.onNotice P nonce notice).1 (s.onNotice P nonce notice).2 := by
  cases notice with
  | invitationRotated _ | joinPolicyChanged _ | requestsSnapshot _ _ | listSnapshot _
  | whoisResult _ | roomClosed | error _ => exact .quiet rfl rfl
  | timeoutRequestAccepted _ seconds =>
      exact (s.sendTimeoutChanged_inward nonce (some seconds)).add fun _ => rfl
  | timeoutRebroadcast seconds => exact s.sendTimeoutChanged_inward nonce (some seconds)
  | joinRequestPending _ _ _ _ | joinRequestWithdrawn _ | timeoutRequestPending _ _ _ _
  | timeoutRequestRejected _ | memberJoined _ _ | memberLeft _ _ | memberKicked _ _ =>
      exact .one rfl rfl fun _ _ => rfl

theorem onKey_inward (s : Supervisor) (input : KeyInput) :
    Inward s (s.onKey P input).1 (s.onKey P input).2.events := by
  cases input with
  | exit | member _ => exact .one rfl rfl fun _ _ => rfl
  | timeout interval nonce => exact s.sendTimeoutChanged_inward nonce interval
  | color color nonce =>
      unfold onKey
      dsimp only
      split
      · exact .chat _ _ rfl rfl
      · exact .quiet rfl rfl
  | host command =>
      cases command with
      | accept _ | reject _ =>
          exact (Inward.one rfl rfl fun _ _ => rfl : Inward s s _).add fun _ => rfl
      | kick _ | newId | reqOn | reqOff | requests => exact .one rfl rfl fun _ _ => rfl

theorem Inward.aside {events : List RoomEvent} (h : Inward s s' events) : Aside id s s' :=
  .same h.1 h.2.1

/-- What handling an action does to a connection that is not the host's. -/
structure Besides (id : ConnectionId) (s s' : Supervisor) (events : List RoomEvent) : Prop where
  aside : Aside id s s'
  nextId : s'.network.nextId = s.network.nextId
  connects : s'.network.connects = s.network.connects
  silent : Silent id events

theorem Inward.besides {events : List RoomEvent} (h : Inward s s' events)
    (hid : id ≠ hostConnectionId) : Besides id s s' events :=
  ⟨h.aside, by rw [h.2.1], by rw [h.2.1], h.2.2 id hid⟩

theorem onSendTo_besides (s : Supervisor) (connection : ConnectionId) (message : Message)
    (input : ActionInput) :
    Besides id s (s.onSendTo connection message input).1
      (s.onSendTo connection message input).2.events := by
  unfold onSendTo
  split
  · refine ⟨⟨fun c hc => ⟨c, hc, rfl, .inl⟩, fun hlive => ?_⟩, rfl, rfl, fun event hevent => ?_⟩
    · simp only [HostNetwork.isLive_close, Bool.and_eq_true] at hlive
      exact hlive.1
    · rw [List.mem_singleton.mp hevent]
      rfl
  · rename_i hqueued
    split
    · refine ⟨⟨fun c' hc' => ?_, fun hlive => ?_⟩, rfl, rfl, fun event hevent => ?_⟩
      · simp only [connections_setConnection] at hc'
        split at hc'
        · rename_i hsame
          obtain ⟨c, hc, rfl⟩ := Option.map_eq_some_iff.mp hc'
          refine ⟨c, hsame ▸ hc, rfl, fun _ => .inr ?_⟩
          rw [hsame]
          by_contra hdead
          simp [HostNetwork.sendTo, hdead] at hqueued
        · exact ⟨c', hc', rfl, .inl⟩
      · simpa using hlive
      · cases hevent
    · refine ⟨.refl s, rfl, rfl, fun event hevent => ?_⟩
      cases hevent

theorem onAction_besides (hid : id ≠ hostConnectionId) (s : Supervisor) (action : RoomAction)
    (input : ActionInput) :
    Besides id s (s.onAction P action input).1 (s.onAction P action input).2.events := by
  cases action with
  | sendTo connection message =>
      unfold onAction
      dsimp only
      split
      · exact (s.onOwnMessage_inward message).besides hid
      · exact s.onSendTo_besides connection message input
  | closeConnection connection =>
      refine ⟨.drop s connection, rfl, rfl, fun event hevent => ?_⟩
      cases hevent
  | notifyHost notice => exact (s.onNotice_inward input.nonce notice).besides hid

theorem handleHostActions_besides (hid : id ≠ hostConnectionId) (s : Supervisor)
    (batch : List (RoomAction × ActionInput)) :
    Besides id s (s.handleHostActions P batch).1 (s.handleHostActions P batch).2.events := by
  induction batch generalizing s with
  | nil =>
      refine ⟨.refl s, rfl, rfl, fun event hevent => ?_⟩
      cases hevent
  | cons first rest ih =>
      obtain ⟨action, input⟩ := first
      have hfirst := onAction_besides (P := P) hid s action input
      have hrest := ih (s.onAction P action input).1
      exact ⟨hfirst.aside.trans hrest.aside, hrest.nextId.trans hfirst.nextId,
        hrest.connects.trans hfirst.connects, hfirst.silent.append hrest.silent⟩

/-! ### One step, seen from one connection -/

/-- What a step of the supervisor is to one connection: it handles its message, closes it over
its message, opens its flow, or is about something else. -/
inductive Turn (P : Primitives) (id : ConnectionId) (s : Supervisor) :
    Input → Supervisor → SupervisorOutput → Prop
  | handles {message : Message} {input : MessageInput} {s' : Supervisor}
      {output : SupervisorOutput} {c c' : HostConnection} :
      s.connections id = some c → s'.connections id = some c' → s'.network = s.network →
      HostConnection.Accepts P id s.policy (s.network.sendTo id input.queue)
        { c with lastSeen := input.now } message c' output →
      Turn P id s (.inbound id (some message) input) s' output
  | fails {message : Message} {input : MessageInput} {s' : Supervisor}
      {output : SupervisorOutput} {error : HostMessageError} :
      output.failed = some error →
      (error = .admission .invalidPasswordProof →
        ∃ c, s.connections id = some c ∧ c.Guessed P message) →
      s'.connections id = none → s'.network = s.network.close id → Silent id output.events →
      Turn P id s (.inbound id (some message) input) s' output
  | opens {input : MessageInput} {s' : Supervisor} {output : SupervisorOutput}
      {flow : HostAdmission} : s.network.connects = id :: s'.network.connects →
      s'.network.nextId = s.network.nextId → s'.network.isLive id = s.network.isLive id →
      HostAdmission.new s.sessionId s.token s.verifier s.hostIdentity s.onionAddress
        input.nonce = .ok flow →
      s'.connections id = some ⟨flow, input.now, input.now, false⟩ →
      output.events = [.clientConnected id] → Turn P id s (.connect input) s' output
  | aside {input : Input} {s' : Supervisor} {output : SupervisorOutput} :
      (∀ message i, input ≠ .inbound id (some message) i) →
      (∀ c', s'.connections id = some c' → ∃ c, s.connections id = some c ∧
        c'.admission = c.admission ∧
        (c'.admitted = true → c.admitted = true ∨ s.network.isLive id = true)) →
      (s'.network.isLive id = true → s.network.isLive id = true ∨
        id = s.network.nextId ∧ s'.network.nextId = s.network.nextId + 1) →
      s.network.IdsMove s'.network → Silent id output.events → Turn P id s input s' output

private theorem Besides.turn {input : Input} {output : SupervisorOutput}
    (hinput : ∀ message i, input ≠ .inbound id (some message) i)
    (h : Besides id s s' output.events) : Turn P id s input s' output :=
  .aside hinput h.aside.connection (fun hlive => .inl (h.aside.live hlive))
    (.inl ⟨h.nextId, h.connects⟩) h.silent

private theorem silent_lost (id c : ConnectionId) : Silent id [.connectionLost c] := by
  intro event hevent
  rw [List.mem_singleton.mp hevent]
  rfl

private theorem drop_besides (s : Supervisor) (c : ConnectionId) :
    Besides id s (s.drop c) [.connectionLost c] :=
  ⟨.drop s c, rfl, rfl, silent_lost id c⟩

private theorem stream_turn (s : Supervisor) (limits : Limits) :
    Turn P id s (.stream limits) { s with network := s.network.accept limits } {} := by
  have hlive : (s.network.accept limits).isLive id = true →
      s.network.isLive id = true ∨ id = s.network.nextId ∧
        (s.network.accept limits).nextId = s.network.nextId + 1 := by
    unfold HostNetwork.accept
    split
    · exact .inl
    · intro h
      simp only [HostNetwork.isLive, List.any_append, List.any_cons, List.any_nil, Bool.or_false,
        Bool.or_eq_true, decide_eq_true_eq] at h
      exact h.imp_right fun heq => ⟨heq.symm, rfl⟩
  have hids : s.network.IdsMove (s.network.accept limits) := by
    unfold HostNetwork.accept
    split
    · exact .inl ⟨rfl, rfl⟩
    · exact .inr (.inl ⟨rfl, rfl⟩)
  refine .aside (by simp) (fun c hc => ⟨c, hc, rfl, .inl⟩) hlive hids fun event hevent => ?_
  cases hevent

private theorem connect_turn (s : Supervisor) (input : MessageInput) :
    Turn P id s (.connect input) (s.onConnect input).1 (s.onConnect input).2 := by
  unfold onConnect
  cases hwaiting : s.network.connects with
  | nil =>
      refine .aside (by simp) (fun c hc => ⟨c, hc, rfl, .inl⟩) .inl (.inl ⟨rfl, rfl⟩) ?_
      intro event hevent
      cases hevent
  | cons first rest =>
      have hmove : s.network.IdsMove { s.network with connects := rest } :=
        .inr (.inr ⟨rfl, first, hwaiting⟩)
      dsimp only
      split
      · refine .aside (by simp) (fun c hc => ⟨c, hc, rfl, .inl⟩) (fun hlive => .inl ?_)
          (.inr (.inr ⟨rfl, first, hwaiting⟩)) fun event hevent => by cases hevent
        rw [HostNetwork.isLive_close, Bool.and_eq_true] at hlive
        exact hlive.1
      · split
        · refine .aside (by simp) (fun c hc => ⟨c, hc, rfl, .inl⟩) (fun hlive => .inl ?_)
            (.inr (.inr ⟨rfl, first, hwaiting⟩)) fun event hevent => by cases hevent
          rw [HostNetwork.isLive_close, Bool.and_eq_true] at hlive
          exact hlive.1
        · rename_i flow hflow
          by_cases hid : id = first
          · subst hid
            exact .opens hwaiting rfl rfl hflow (by simp) rfl
          · refine .aside (by simp) (fun c' hc' => ⟨c', ?_, rfl, .inl⟩) .inl hmove ?_
            · simpa [hid] using hc'
            · intro event hevent
              rw [List.mem_singleton.mp hevent]
              rfl

private theorem silent_of_accepts {c id : ConnectionId} (hne : id ≠ c) {policy : JoinPolicy}
    {connection after : HostConnection} {message : Message} {output : SupervisorOutput}
    {queue : Except PeerSendError Unit}
    (h : HostConnection.Accepts P c policy queue connection message after output) :
    Silent id output.events := by
  intro event hevent
  cases h with
  | hello _ _ _ _ _ | token _ _ _ _ | keepalive _ => cases hevent
  | proof _ _ _ _ _ | request _ _ _ _ _ =>
      rw [List.mem_singleton.mp hevent]
      simp [RoomEvent.forwards, hne.symm]
  | member _ _ _ hforwarded =>
      rw [List.mem_singleton.mp hevent]
      obtain ⟨epoch, rfl⟩ | ⟨messageType, envelope, rfl⟩ := hforwarded
      · simp [RoomEvent.forwards, hne.symm]
      · simp [RoomEvent.forwards, hne.symm]

/-- The three ends a message can have: no such connection, a failure, or its acceptance. -/
theorem onInbound_message (P : Primitives) (debug : Message → String) (s : Supervisor)
    (c : ConnectionId) (message : Message) (input : MessageInput) :
    (∃ error, (s.onInbound P debug c (some message) input).2.failed = some error ∧
      (error = .admission .invalidPasswordProof →
        ∃ connection, s.connections c = some connection ∧ connection.Guessed P message) ∧
      (s.onInbound P debug c (some message) input).2.events = [.connectionLost c] ∧
      (s.onInbound P debug c (some message) input).1.network = s.network.close c ∧
      ∀ id, (s.onInbound P debug c (some message) input).1.connections id =
        if id = c then none else s.connections id) ∨
    ∃ connection after output, s.connections c = some connection ∧
      HostConnection.Accepts P c s.policy (s.network.sendTo c input.queue)
        { connection with lastSeen := input.now } message after output ∧
      (s.onInbound P debug c (some message) input).2 = output ∧
      (s.onInbound P debug c (some message) input).1.network = s.network ∧
      ∀ id, (s.onInbound P debug c (some message) input).1.connections id =
        if id = c then some after else s.connections id := by
  unfold onInbound handleHostMessage
  dsimp only
  cases hconnection : s.connections c with
  | none =>
      refine .inl ⟨.unknownConnection, ?_⟩
      simp [hconnection]
  | some connection =>
      simp only [connections_setConnection, ↓reduceIte, Option.map_some,
        network_setConnection, policy_setConnection]
      generalize hresult : HostConnection.handle P { connection with lastSeen := input.now } c
        message s.policy { input with queue := s.network.sendTo c input.queue } = result
      obtain ⟨after, output, error | done⟩ := result
      · refine .inl ⟨error, rfl, ?_, ?_, ?_, fun id => ?_⟩
        · rintro rfl
          obtain ⟨proof, challengeNonce, clientNonce, hguess⟩ :=
            HostConnection.guessed_of_handle hresult
          exact ⟨connection, rfl, proof, challengeNonce, clientNonce, hguess⟩
        · simp [HostConnection.output_of_error hresult]
        · rfl
        · simp only [connections_drop, connections_setConnection]
          split <;> rfl
      · refine .inr ⟨connection, after, output, rfl, ?_, rfl, rfl, fun id => ?_⟩
        · exact HostConnection.accepts_of_handle hresult
        · simp only [connections_setConnection]
          split <;> rfl

private theorem inbound_turn (s : Supervisor) (c : ConnectionId) (message : Option Message)
    (input : MessageInput) :
    Turn P id s (.inbound c message input) (s.onInbound P debug c message input).1
      (s.onInbound P debug c message input).2 := by
  cases message with
  | none => exact (drop_besides s c).turn (by simp)
  | some message =>
      obtain ⟨error, hfailed, hguessed, hevents, hnetwork, hconnections⟩ |
        ⟨connection, after, output, hfound, haccepts, houtput, hnetwork, hconnections⟩ :=
        onInbound_message P debug s c message input
      · by_cases hid : id = c
        · subst hid
          refine .fails hfailed hguessed (by simp [hconnections]) hnetwork ?_
          rw [hevents]
          exact silent_lost id id
        · refine .aside (by simp [Ne.symm hid]) (fun c' hc' => ⟨c', ?_, rfl, .inl⟩)
            (fun hlive => .inl ?_) (.inl ⟨by rw [hnetwork]; rfl, by rw [hnetwork]; rfl⟩) ?_
          · simpa [hconnections, hid] using hc'
          · rw [hnetwork, HostNetwork.isLive_close, Bool.and_eq_true] at hlive
            exact hlive.1
          · rw [hevents]
            exact silent_lost id c
      · by_cases hid : id = c
        · subst hid
          exact .handles hfound (by simp [hconnections]) hnetwork (houtput ▸ haccepts)
        · refine .aside (by simp [Ne.symm hid]) (fun c' hc' => ⟨c', ?_, rfl, .inl⟩)
            (fun hlive => .inl ?_) (.inl ⟨by rw [hnetwork], by rw [hnetwork]⟩) ?_
          · simpa [hconnections, hid] using hc'
          · rwa [hnetwork] at hlive
          · rw [houtput]
            exact silent_of_accepts hid haccepts

/-- Every step is a turn of every connection but the host's own. -/
theorem step_turn (P : Primitives) (debug : Message → String) (hid : id ≠ hostConnectionId)
    (s : Supervisor) (input : Input) :
    Turn P id s input (s.step P debug input).1 (s.step P debug input).2 := by
  cases input with
  | stream limits => exact stream_turn s limits
  | connect input => exact connect_turn s input
  | inbound c message input => exact inbound_turn s c message input
  | actions batch => exact (handleHostActions_besides hid s batch).turn (by simp)
  | expire c now =>
      apply Besides.turn (by simp)
      simp only [step, expire]
      split
      · exact ⟨.refl s, rfl, rfl, fun event hevent => by cases hevent⟩
      · split <;> split
        · exact drop_besides s c
        · exact ⟨.refl s, rfl, rfl, fun event hevent => by cases hevent⟩
        · exact drop_besides s c
        · exact ⟨.refl s, rfl, rfl, fun event hevent => by cases hevent⟩
  | key input => exact ((s.onKey_inward input).besides hid).turn (by simp)
  | tick =>
      refine Besides.turn (by simp) ⟨.refl s, rfl, rfl, fun event hevent => ?_⟩
      rw [List.mem_singleton.mp hevent]
      rfl

end Supervisor

end Veilroom
