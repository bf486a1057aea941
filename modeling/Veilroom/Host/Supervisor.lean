import Veilroom.Host.Connection
import Veilroom.Room.Action

/-!
The host supervisor: one branch of `host_session_body` at a time
(`handle_host_message`, `handle_host_actions` and the branches around them in
`app.rs`).

Every branch returns what it leaves, what it sent to the peers and what it
submitted to the room. The view and the terminal are not modelled.
-/
namespace Veilroom

/-- The text of a failure of the host's admission flow. -/
def AdmissionError.toString (P : Primitives) : AdmissionError → String
  | .roomLocked => "the room is not accepting join requests"
  | .invalidToken => "invalid invitation token"
  | .invalidPasswordProof => "invalid password proof"
  | .invalidHostSignature => "invalid host-hello signature"
  | .invalidJoinSignature => "invalid join-request signature"
  | .unexpectedMessage => "unexpected message for the current admission state"
  | .unsupportedVersion found => s!"unsupported protocol version {found}"
  | .unsupportedFeatures features => s!"unsupported feature bits 0x{hexPadded 8 features.toNat}"
  | .rejected reason => "join request rejected: " ++
      reason.elim "None" fun text => s!"Some({P.debugStr text})"
  | .hostError code reason => s!"host error {reprStr code}: " ++
      reason.elim "None" fun text => s!"Some({P.debugStr text})"
  | .protocol error => error.toString ""
  | .crypto error => error.toString P

/-- The failures of `handle_host_message`, each a code with its text. -/
inductive HostMessageError
  | unknownConnection
  | roomLocked
  | invalidForState
  | admission (error : AdmissionError)
  | connectionClosed
  | peerEnded
  | unexpected (id : ConnectionId) (message : Message)
deriving DecidableEq

namespace HostMessageError

def code : HostMessageError → ErrorCode
  | .unknownConnection | .invalidForState | .peerEnded | .unexpected .. => .protocolViolation
  | .roomLocked => .roomLocked
  | .admission error => error.errorCode
  | .connectionClosed => .internal

/-- `debug` is the derived `Debug` form of a message. -/
def text (P : Primitives) (debug : Message → String) : HostMessageError → String
  | .unknownConnection => "unknown connection"
  | .roomLocked => "the room is not accepting join requests"
  | .invalidForState => "message is invalid for the current connection state"
  | .admission error => error.toString P
  | .connectionClosed => "connection closed"
  | .peerEnded => "peer ended the connection"
  | .unexpected id message => s!"unexpected message from connection {id}: {debug message}"

end HostMessageError

/-- `error_message`. -/
def errorMessage (code : ErrorCode) (reason : String) : Message :=
  match ErrorMessage.new code (some reason) with
  | .ok message => .error message
  | .error _ => .error ⟨code, none⟩

structure HostConnection where
  admission : HostAdmission
  stageSince : Duration
  lastSeen : Duration
  admitted : Bool

structure Supervisor where
  sessionId : Key
  hostIdentity : HostIdentity
  hostClientIdentity : MemberIdentity
  verifier : PasswordVerifier
  onionAddress : String
  timeouts : Timeouts
  hostChat : ChatSession
  token : Bytes
  policy : JoinPolicy
  connections : ConnectionId → Option HostConnection
  passwordGuard : PasswordGuard
  network : HostNetwork

/-- What one branch did to the world: the messages queued for peers, the events submitted to
the room, and the failure of the connection it closed. -/
structure SupervisorOutput where
  sent : List (ConnectionId × Message) := []
  events : List RoomEvent := []
  failed : Option HostMessageError := none

/-- What the world answers while one message is handled. -/
structure MessageInput where
  now : Duration
  /-- The challenge nonce `random_bytes` returns. -/
  nonce : Option ShortNonce
  /-- What the peer's outbound queue answers. -/
  queue : Except PeerSendError Unit

namespace HostConnection
variable (P : Primitives)

/-- The connection state `handle_host_message` filters by. -/
def state (c : HostConnection) : ConnectionState :=
  match c.admission.state with
  | .awaitingHello => .protocolHandshake
  | .awaitingToken | .awaitingProof => .preAuth
  | .awaitingJoinForm => .passwordVerified
  | .decided => if c.admitted then .active else .joinPending

/-- The result of queueing a reply of the admission flow. -/
def reply (c : HostConnection) (id : ConnectionId) (message : Message)
    (queue : Except PeerSendError Unit) :
    HostConnection × SupervisorOutput × Except HostMessageError Unit :=
  match queue with
  | .error _ => (c, {}, .error .connectionClosed)
  | .ok () => (c, { sent := [(id, message)] }, .ok ())

/-- `on_message` of the admission flow and what follows from its reply. -/
def admitMessage (c : HostConnection) (id : ConnectionId) (message : Message) (policy : JoinPolicy)
    (input : MessageInput) :
    HostConnection × SupervisorOutput × Except HostMessageError Unit :=
  match c.admission.onMessage P input.nonce message policy with
  | (admission, .error error) => ({ c with admission }, {}, .error (.admission error))
  | (admission, .ok (some (.message message))) =>
    ({ c with admission } : HostConnection).reply id message input.queue
  | (admission, .ok (some (.joinRequested application))) =>
    ({ c with admission }, { events := [.joinRequested id application] }, .ok ())
  | (admission, .ok none) =>
    ({ c with admission }, { events := [.passwordVerified id] }, .ok ())

/-- The dispatch of `handle_host_message`. -/
def dispatch (c : HostConnection) (id : ConnectionId) (message : Message) (policy : JoinPolicy)
    (input : MessageInput) :
    HostConnection × SupervisorOutput × Except HostMessageError Unit :=
  match message with
  | .clientHello hello =>
    match c.admission.onClientHello P hello virtualPort with
    | (admission, .error error) => ({ c with admission }, {}, .error (.admission error))
    | (admission, .ok hello) =>
      ({ c with admission } : HostConnection).reply id hello input.queue
  | .tokenVerify _ | .challengeProof _ | .joinRequest _ => c.admitMessage P id message policy input
  | .epochAck ack => (c, { events := [.epochAck id ack.epoch] }, .ok ())
  | .chatMessage envelope => (c, { events := [.chatReceived id msgChat envelope] }, .ok ())
  | .colorChange envelope => (c, { events := [.chatReceived id msgColor envelope] }, .ok ())
  | .timeoutRequest envelope =>
    (c, { events := [.chatReceived id msgTimeoutRequest envelope] }, .ok ())
  | .timeoutChanged envelope =>
    (c, { events := [.chatReceived id msgTimeoutChanged envelope] }, .ok ())
  | .keepalive => (c, {}, .ok ())
  | .shutdown | .error _ => (c, {}, .error .peerEnded)
  | other => (c, {}, .error (.unexpected id other))

/-- `handle_host_message` on a connection it knows. A failure leaves the stage clock alone. -/
def handle (c : HostConnection) (id : ConnectionId) (message : Message) (policy : JoinPolicy)
    (input : MessageInput) :
    HostConnection × SupervisorOutput × Except HostMessageError Unit :=
  if policy = .locked ∧ ¬ c.admitted then (c, {}, .error .roomLocked)
  else if ¬ c.state.accepts message.messageType.messageClass then
    (c, {}, .error .invalidForState)
  else
    match c.dispatch P id message policy input with
    | (after, output, .error error) => (after, output, .error error)
    | (after, output, .ok ()) =>
      if after.admission.state ≠ c.admission.state then
        ({ after with stageSince := input.now }, output, .ok ())
      else (after, output, .ok ())

end HostConnection

namespace Supervisor
variable (P : Primitives) (debug : Message → String)

def setConnection (s : Supervisor) (id : ConnectionId) (entry : Option HostConnection) :
    Supervisor :=
  { s with connections := fun c => if c = id then entry else s.connections c }

/-- `connections.remove` with `network.close`. -/
def drop (s : Supervisor) (id : ConnectionId) : Supervisor :=
  { s.setConnection id none with network := s.network.close id }

/-- A message queued for a peer whose answer nobody reads. -/
def post (s : Supervisor) (id : ConnectionId) (message : Message)
    (queue : Except PeerSendError Unit) : List (ConnectionId × Message) :=
  match s.network.sendTo id queue with
  | .ok () => [(id, message)]
  | .error _ => []

/-- `handle_host_message`. -/
def handleHostMessage (s : Supervisor) (id : ConnectionId) (message : Message)
    (input : MessageInput) : Supervisor × SupervisorOutput × Except HostMessageError Unit :=
  match s.connections id with
  | none => (s, {}, .error .unknownConnection)
  | some connection =>
    let input := { input with queue := s.network.sendTo id input.queue }
    let (connection, output, result) := connection.handle P id message s.policy input
    (s.setConnection id (some connection), output, result)

/-- The `inbound` branch. A message of a connection that fails closes the connection. -/
def onInbound (s : Supervisor) (id : ConnectionId) (message : Option Message)
    (input : MessageInput) : Supervisor × SupervisorOutput :=
  match message with
  | none => (s.drop id, { events := [.connectionLost id] })
  | some message =>
    let s := s.setConnection id
      ((s.connections id).map fun c => { c with lastSeen := input.now })
    match s.handleHostMessage P id message input with
    | (s, output, .ok ()) => (s, output)
    | (s, output, .error error) =>
      let passwordGuard := if error.code = .invalidPasswordProof then
          (s.passwordGuard.recordFailure input.now).1
        else s.passwordGuard
      let reply := errorMessage error.code (error.text P debug)
      (({ s with passwordGuard } : Supervisor).drop id,
        { sent := output.sent ++ s.post id reply input.queue
          events := output.events ++ [.connectionLost id]
          failed := some error })

/-- The `connects` branch; `nonce` is the server nonce of the flow it may create. -/
def onConnect (s : Supervisor) (input : MessageInput) : Supervisor × SupervisorOutput :=
  match s.network.connects with
  | [] => (s, {})
  | id :: connects =>
    let s := { s with network := { s.network with connects } }
    if (s.passwordGuard.remaining input.now).isSome then
      let refusal := errorMessage .rateLimited
        "too many failed password attempts; try again later"
      ({ s with network := s.network.close id }, { sent := s.post id refusal input.queue })
    else
      match HostAdmission.new s.sessionId s.token s.verifier s.hostIdentity s.onionAddress
          input.nonce with
      | .error _ => ({ s with network := s.network.close id }, {})
      | .ok admission =>
        (s.setConnection id (some ⟨admission, input.now, input.now, false⟩),
          { events := [.clientConnected id] })

/-- The time a connection may spend in its stage. -/
def stageTimeout (s : Supervisor) (c : HostConnection) : Duration :=
  match c.admission.state with
  | .awaitingHello => s.timeouts.get .protocolHandshake
  | .awaitingToken => s.timeouts.get .tokenValidation
  | .awaitingProof => s.timeouts.get .passwordVerification
  | .awaitingJoinForm => s.timeouts.get .joinFormSubmission
  | .decided =>
    if c.admitted then s.timeouts.get .keepalive * 3 else s.timeouts.get .hostDecision

/-- One connection of the stale list at the top of the loop. -/
def expire (s : Supervisor) (id : ConnectionId) (now : Duration) : Supervisor × SupervisorOutput :=
  match s.connections id with
  | none => (s, {})
  | some c =>
    let since := if c.admitted then c.lastSeen else c.stageSince
    if now - since > s.stageTimeout c then (s.drop id, { events := [.connectionLost id] })
    else (s, {})

/-! ### Actions of the room -/

/-- What the world answers while one action is handled. -/
structure ActionInput where
  now : Duration
  nonce : Option Nonce
  queue : Except PeerSendError Unit

/-- What the host's own chat session submits as a timeout change. -/
def sendTimeoutChanged (s : Supervisor) (nonce : Option Nonce) (interval : Option Nat) :
    Supervisor × List RoomEvent :=
  match s.hostChat.sendTimeoutChanged P nonce s.hostClientIdentity interval with
  | (hostChat, .ok (.timeoutChanged envelope)) =>
    ({ s with hostChat }, [.chatReceived hostConnectionId msgTimeoutChanged envelope])
  | (hostChat, _) => ({ s with hostChat }, [])

/-- `refresh_host_requests`. -/
def refreshRequests : RoomEvent := .hostCommand .requests
/-- `refresh_host_members`. -/
def refreshMembers : RoomEvent := .memberCommand hostConnectionId .list

/-- A message for the host's own chat session. -/
def onOwnMessage (s : Supervisor) (message : Message) : Supervisor × List RoomEvent :=
  match message with
  | .epochWrap wrap =>
    match s.hostClientIdentity.tryWrapKeyFor P (s.hostIdentity.x25519Pubkey P) s.sessionId 0 with
    | .error _ => (s, [])
    | .ok wrapKey =>
      match unwrapEpochKey P wrapKey wrap.epoch s.sessionId wrap.nonce wrap.ciphertext with
      | .error _ => (s, [])
      | .ok key =>
        ({ s with hostChat := s.hostChat.installEpoch wrap.epoch key },
          [.epochAck hostConnectionId wrap.epoch])
  | .shutdown => (s, [])
  | .chatMessage envelope => ({ s with hostChat := (s.hostChat.receiveChat P envelope).1 }, [])
  | .colorChange envelope =>
    match s.hostChat.receiveColor P envelope with
    | (hostChat, .error _) => ({ s with hostChat }, [])
    | (hostChat, .ok color) =>
      match hostChat.member envelope.senderId with
      | none => ({ s with hostChat }, [])
      | some member => ({ s with hostChat := hostChat.installMember { member with color } }, [])
  | other => ({ s with hostChat := (s.hostChat.handleMembershipMessage P other).1 }, [])

/-- A notice to the host, as far as it changes more than the view. -/
def onNotice (s : Supervisor) (nonce : Option Nonce) : HostNotice → Supervisor × List RoomEvent
  | .invitationRotated token => ({ s with token := token.toList }, [])
  | .joinPolicyChanged policy => ({ s with policy }, [])
  | .timeoutRequestAccepted _ seconds =>
    let (s, events) := s.sendTimeoutChanged P nonce (some seconds)
    (s, events ++ [refreshRequests])
  | .timeoutRebroadcast seconds => s.sendTimeoutChanged P nonce (some seconds)
  | .joinRequestPending .. | .joinRequestWithdrawn _ | .timeoutRequestPending ..
  | .timeoutRequestRejected _ => (s, [refreshRequests])
  | .memberJoined .. | .memberLeft .. | .memberKicked .. => (s, [refreshMembers])
  | .requestsSnapshot .. | .listSnapshot _ | .whoisResult _ | .roomClosed | .error _ => (s, [])

/-- A message for a client. One whose queue refuses it is closed, but keeps its entry. -/
def onSendTo (s : Supervisor) (connection : ConnectionId) (message : Message)
    (input : ActionInput) : Supervisor × SupervisorOutput :=
  match s.network.sendTo connection input.queue with
  | .error _ =>
    ({ s with network := s.network.close connection },
      { events := [.connectionLost connection] })
  | .ok () =>
    let output : SupervisorOutput := { sent := [(connection, message)] }
    match message with
    | .joinAccepted _ =>
      let entry := (s.connections connection).map fun c =>
        { c with admitted := true, lastSeen := input.now }
      ({ s.setConnection connection entry with
          network := s.network.markAdmitted connection }, output)
    | _ => (s, output)

/-- One action of `handle_host_actions`. -/
def onAction (s : Supervisor) (action : RoomAction) (input : ActionInput) :
    Supervisor × SupervisorOutput :=
  match action with
  | .sendTo connection message =>
    if connection = hostConnectionId then
      let (s, events) := s.onOwnMessage P message
      (s, { events })
    else s.onSendTo connection message input
  | .closeConnection connection => (s.drop connection, {})
  | .notifyHost notice =>
    let (s, events) := s.onNotice P input.nonce notice
    (s, { events })

/-- `handle_host_actions`; the answers are those of the world to each action in turn. -/
def handleHostActions (s : Supervisor) :
    List (RoomAction × ActionInput) → Supervisor × SupervisorOutput
  | [] => (s, {})
  | (action, input) :: rest =>
    let (s, first) := s.onAction P action input
    let (s, later) := handleHostActions s rest
    (s, { sent := first.sent ++ later.sent, events := first.events ++ later.events })

/-! ### The keyboard and the clock -/

/-- What the host can type, as far as it reaches the room. -/
inductive KeyInput
  | exit
  | timeout (interval : Option Nat) (nonce : Option Nonce)
  | color (color : ColorChoice) (nonce : Option Nonce)
  | host (command : HostCommand)
  | member (command : MemberCommand)

/-- `handle_host_command`, and the exit of the `keys` branch. -/
def onKey (s : Supervisor) : KeyInput → Supervisor × SupervisorOutput
  | .exit => (s, { events := [.closeRequested] })
  | .timeout interval nonce =>
    let (s, events) := s.sendTimeoutChanged P nonce interval
    (s, { events })
  | .color color nonce =>
    match s.hostChat.sendColor P nonce s.hostClientIdentity color with
    | (hostChat, .ok (.colorChange envelope)) =>
      let hostChat := match hostChat.member 0 with
        | none => hostChat
        | some member => hostChat.installMember { member with color }
      ({ s with hostChat }, { events := [.chatReceived hostConnectionId msgColor envelope] })
    | (hostChat, _) => ({ s with hostChat }, {})
  | .host command =>
    match command with
    | .accept _ | .reject _ => (s, { events := [.hostCommand command, refreshRequests] })
    | _ => (s, { events := [.hostCommand command] })
  | .member command => (s, { events := [.memberCommand hostConnectionId command] })

/-- One thing that happens to the supervisor. -/
inductive Input
  /-- A stream reaches the accept loop. -/
  | stream (limits : Limits)
  | connect (input : MessageInput)
  | inbound (id : ConnectionId) (message : Option Message) (input : MessageInput)
  | actions (batch : List (RoomAction × ActionInput))
  | expire (id : ConnectionId) (now : Duration)
  | key (input : KeyInput)
  /-- The maintenance tick while Tor runs. -/
  | tick

def step (s : Supervisor) : Input → Supervisor × SupervisorOutput
  | .stream limits => ({ s with network := s.network.accept limits }, {})
  | .connect input => s.onConnect input
  | .inbound id message input => s.onInbound P debug id message input
  | .actions batch => s.handleHostActions P batch
  | .expire id now => s.expire id now
  | .key input => s.onKey P input
  | .tick => (s, { events := [.epochMaintenance] })

end Supervisor

end Veilroom
