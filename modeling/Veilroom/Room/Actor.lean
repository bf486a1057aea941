import Veilroom.Room.Action

/-!
The room actor (`room/actor.rs`), handler by handler.

A handler takes the actor and returns the actor it leaves behind with its
result; the state is returned with an error too, because the source mutates
before it fails. `rng` is what the operating system's generator answers while
the event is handled. A handler that appends to the caller's `actions` returns
what it appends.
-/
namespace Veilroom

/-- Consecutive rate-limit violations before a connection is terminated. -/
def rateLimitTermination : Nat := 10

structure PendingEpoch where
  epoch : Nat
  key : Key
  awaiting : List MemberId
  startedAt : Duration
deriving DecidableEq

/-- `pending.awaiting.retain(|id| *id != member_id)`. -/
def PendingEpoch.retain (pending : PendingEpoch) (memberId : MemberId) : PendingEpoch :=
  { pending with awaiting := pending.awaiting.filter (· ≠ memberId) }

structure PendingTimeoutRequest where
  requestId : RequestId
  connection : ConnectionId
  memberId : MemberId
  nickname : String
  seconds : Nat
deriving DecidableEq

structure RoomActor where
  sessionId : Key
  token : Key
  state : RoomState
  policy : JoinPolicy
  members : MemberTable
  connections : Connections
  requests : JoinRequestQueue
  timeoutRequests : List PendingTimeoutRequest
  roomTimeout : Option Nat
  hostConnection : ConnectionId
  hostIdentity : HostIdentity
  timeouts : Timeouts
  epoch : Nat
  epochKey : Option Key
  pendingEpoch : Option PendingEpoch
  roomSequence : Nat
  chatReplay : ReplayTracker
  rateLimits : MemberId → Option RateLimiter
  pendingMembership : List RoomAction
  now : Duration

/-- The snapshot entry of one member. -/
def Member.toSnapshot (m : Member) : SnapshotMember :=
  ⟨m.memberId, m.nickname, m.color.asIndex, m.isHost, m.ed25519Pubkey⟩

abbrev Outcome := RoomActor × Except RoomError (List RoomAction)

namespace RoomActor
variable (P : Primitives) (rng : Rng)

/-- `RoomActor::create`; `sessionId` and `token` are what `random_bytes` returned. -/
def create (limits : Limits) (hostConnection : ConnectionId) (hostNickname : String)
    (hostIdentity : HostIdentity) (hostClientIdentity : MemberIdentity) (timeouts : Timeouts)
    (sessionId token : Option Key) : Except RoomError RoomActor :=
  match validateNickname P hostNickname limits with
  | .error error => .error (.invalidNickname error)
  | .ok hostNickname =>
    match sessionId, token with
    | some sessionId, some token => .ok
        { sessionId
          token
          state := .creating
          policy := .opened
          members := (MemberTable.new limits).addHost hostConnection hostNickname
            (hostClientIdentity.ed25519Pubkey P) (hostClientIdentity.x25519Pubkey P)
          connections := Connections.new
          requests := JoinRequestQueue.new limits
          timeoutRequests := []
          roomTimeout := none
          hostConnection
          hostIdentity
          timeouts
          epoch := 0
          epochKey := none
          pendingEpoch := none
          roomSequence := 0
          chatReplay := ReplayTracker.new
          rateLimits := fun _ => none
          pendingMembership := []
          now := 0 }
    | _, _ => .error (.crypto .randomness)

/-! ### Epoch transitions -/

/-- The wrap of `key` for one member; `i` is the member's place in the table. -/
def wrapFor (a : RoomActor) (key : Key) (i : Nat) (member : Member) :
    Except RoomError RoomAction :=
  match a.hostIdentity.tryWrapKeyFor P member.x25519Pubkey a.sessionId member.memberId with
  | .error error => .error (.crypto error)
  | .ok wrapKey =>
    match wrapEpochKey P (rng.nonce i) wrapKey key a.epoch a.sessionId with
    | .error error => .error (.crypto error)
    | .ok envelope =>
      match EpochWrap.new a.epoch envelope.nonce envelope.ciphertext with
      | .error error => .error (.protocol error)
      | .ok wrap => .ok (.sendTo member.connection (.epochWrap wrap))

/-- The wrapping loop of `begin_epoch_transition`. -/
def wrapAll (a : RoomActor) (key : Key) : Nat → List Member → Except RoomError (List RoomAction)
  | _, [] => .ok []
  | i, member :: rest =>
    match a.wrapFor P rng key i member with
    | .error error => .error error
    | .ok wrap =>
      match a.wrapAll key (i + 1) rest with
      | .error error => .error error
      | .ok wraps => .ok (wrap :: wraps)

/-- The counters `begin_epoch_transition` moves before anything can fail. -/
def advanceEpoch (a : RoomActor) : RoomActor :=
  { a with
    epoch := a.epoch + 1
    chatReplay := a.chatReplay.retainEpoch (a.epoch + 1)
    roomSequence := a.roomSequence + 1 }

/-- `RoomActor::begin_epoch_transition`. -/
def beginEpochTransition (a : RoomActor) : Outcome :=
  let a := a.advanceEpoch
  match rng.epochKey with
  | none => (a, .error (.crypto .randomness))
  | some key =>
    match a.wrapAll P rng key 0 a.members.members with
    | .error error => (a, .error error)
    | .ok wraps =>
      ({ a with
          state := .epochTransition
          pendingEpoch := some
            { epoch := a.epoch, key, awaiting := a.members.members.map Member.memberId,
              startedAt := a.now } }, .ok wraps)

/-- `RoomActor::start`. -/
def start (a : RoomActor) : Outcome :=
  if a.state ≠ .creating then (a, .error .roomClosed)
  else
    let a := { a with
      connections := ((a.connections.register a.hostConnection).promote a.hostConnection 0).1 }
    match a.beginEpochTransition P rng with
    | (a, .error error) => (a, .error error)
    | (a, .ok wraps) => (a, .ok (.notifyHost (.invitationRotated a.token) :: wraps))

/-! ### Signed membership broadcasts -/

/-- The host's signature over a room event of the current sequence and epoch. -/
def signRoomEvent (a : RoomActor) (eventType : UInt8) (body : Bytes) : Signature :=
  a.hostIdentity.sign P
    (roomEventTranscript 1 a.sessionId a.roomSequence a.epoch eventType body)

/-- `RoomActor::queue_member_snapshot`. -/
def queueMemberSnapshot (a : RoomActor) (connection : ConnectionId) : RoomActor :=
  let a := { a with roomSequence := a.roomSequence + 1 }
  let members := a.members.members.map Member.toSnapshot
  let signature := a.signRoomEvent P msgMemberSnapshot
    (memberSnapshotBody (members.map SnapshotMember.toBody))
  { a with pendingMembership := a.pendingMembership ++
      [.sendTo connection (.memberSnapshot ⟨a.roomSequence, a.epoch, members, signature⟩)] }

/-- `RoomActor::queue_member_joined`. -/
def queueMemberJoined (a : RoomActor) (member : Member) : RoomActor :=
  let a := { a with roomSequence := a.roomSequence + 1 }
  let signature := a.signRoomEvent P msgMemberJoined
    (memberJoinedBody member.memberId member.nickname member.ed25519Pubkey)
  let others := a.members.members.filter fun other => other.memberId ≠ member.memberId
  let broadcast := others.map fun other => .sendTo other.connection (.memberJoined
    ⟨a.roomSequence, a.epoch, member.memberId, member.nickname, member.ed25519Pubkey, signature⟩)
  let a := { a with pendingMembership := a.pendingMembership ++ broadcast }
  a.queueMemberSnapshot P member.connection

/-- The broadcast of a departure, `MEMBER_KICKED` or `MEMBER_LEFT`. -/
def goneMessage (eventType : UInt8) (event : MemberGone) : Message :=
  if eventType = msgMemberKicked then .memberKicked event else .memberLeft event

/-- `RoomActor::queue_member_gone`. -/
def queueMemberGone (a : RoomActor) (memberId : MemberId) (eventType : UInt8) : RoomActor :=
  let a := { a with roomSequence := a.roomSequence + 1 }
  let signature := a.signRoomEvent P eventType (memberGoneBody memberId)
  let message := goneMessage eventType ⟨a.roomSequence, a.epoch, memberId, signature⟩
  let broadcast := a.members.members.map fun member => .sendTo member.connection message
  { a with pendingMembership := a.pendingMembership ++ broadcast }

/-! ### Departures -/

/-- `rate_limits.remove`. -/
def forgetRateLimit (a : RoomActor) (memberId : MemberId) : RoomActor :=
  { a with rateLimits := (fun id => if id = memberId then none else a.rateLimits id) }

/-- `RoomActor::remove_member`: the member that left and the actions of the transition. -/
def removeMember (a : RoomActor) (memberId : MemberId) (eventType : UInt8) :
    RoomActor × Except RoomError (Option (Member × List RoomAction)) :=
  if memberId = 0 then (a, .error .hostCannotLeave)
  else
    match a.members.remove memberId with
    | (_, none) => (a, .ok none)
    | (members, some member) =>
      let a := { a with members, connections := a.connections.remove member.connection }
      match (a.forgetRateLimit memberId).beginEpochTransition P rng with
      | (a, .error error) => (a, .error error)
      | (a, .ok wraps) => (a.queueMemberGone P memberId eventType, .ok (some (member, wraps)))

/-- `RoomActor::close_room`. -/
def closeRoom (a : RoomActor) : Outcome :=
  if a.state = .destroyed then (a, .error .roomClosed)
  else
    let closing := a.connections.ids.flatMap fun connection =>
      [.sendTo connection .shutdown, .closeConnection connection]
    ({ a with state := .destroyed }, .ok (closing ++ [.notifyHost .roomClosed]))

/-- The eviction loop of `on_epoch_timeout`: the actions and the ids it removed. -/
def evict (a : RoomActor) : List MemberId → RoomActor × List RoomAction × List MemberId
  | [] => (a, [], [])
  | memberId :: rest =>
    match a.members.remove memberId with
    | (_, none) => a.evict rest
    | (members, some member) =>
      let a := { a with members, connections := a.connections.remove member.connection }
      let (a, actions, removed) := (a.forgetRateLimit memberId).evict rest
      (a, .closeConnection member.connection ::
        .notifyHost (.memberLeft memberId member.nickname) :: actions, memberId :: removed)

/-- `RoomActor::on_epoch_timeout`. -/
def onEpochTimeout (a : RoomActor) : Outcome :=
  match a.pendingEpoch with
  | none => (a, .ok [])
  | some pending =>
    if a.now - pending.startedAt < a.timeouts.get .epochAcknowledgement then (a, .ok [])
    else
      let a := { a with pendingEpoch := none }
      if 0 ∈ pending.awaiting then a.closeRoom
      else
        let (a, actions, removed) := a.evict pending.awaiting
        match a.beginEpochTransition P rng with
        | (a, .error error) => (a, .error error)
        | (a, .ok wraps) =>
          (removed.foldl (fun a memberId => a.queueMemberGone P memberId msgMemberLeft) a,
            .ok (actions ++ wraps))

/-- `RoomActor::on_epoch_ack`. -/
def onEpochAck (a : RoomActor) (connection : ConnectionId) (epoch : Nat) : Outcome :=
  match a.pendingEpoch with
  | none => (a, .ok [])
  | some pending =>
    if epoch ≠ pending.epoch then (a, .ok [])
    else
      match a.connections.memberId connection with
      | none => (a, .ok [])
      | some memberId =>
        let retained := pending.retain memberId
        let acked := { a with pendingEpoch := some retained }
        if retained.awaiting.length = pending.awaiting.length then (acked, .ok [])
        else if retained.awaiting.isEmpty then
          ({ a with
              pendingEpoch := none
              epochKey := some pending.key
              state := a.policy.roomState
              pendingMembership := [] },
            .ok (a.pendingMembership ++ match a.roomTimeout with
              | some seconds => [.notifyHost (.timeoutRebroadcast seconds)]
              | none => []))
        else (acked, .ok [])

/-! ### Join requests and host commands -/

/-- `RoomActor::on_join_requested`. -/
def onJoinRequested (a : RoomActor) (connection : ConnectionId) (application : JoinApplication) :
    Outcome :=
  if ¬ a.policy.allowsJoinRequests then (a, .error .policyLocked)
  else
    match a.connections.get connection with
    | none => (a, .error (.unknownConnection connection))
    | some entry =>
      if ¬ entry.passwordVerified ∨ entry.role ≠ .admission then
        (a, .error (.notAMember connection))
      else
        match a.requests.push connection application with
        | (requests, .error error) => ({ a with requests }, .error (.queue error))
        | (requests, .ok requestId) =>
          match a.connections.attachRequest connection requestId with
          | (connections, none) =>
            ({ a with requests, connections }, .error (.unknownConnection connection))
          | (connections, some ()) =>
            ({ a with requests, connections, roomSequence := a.roomSequence + 1 },
              .ok [.notifyHost (.joinRequestPending requestId connection application.nickname
                application.introduction)])

/-- `rejected_message`. -/
def rejectedMessage (reason : Option String) : Message :=
  let reason := reason.filter fun text =>
    text.utf8ByteSize ≤ 256 && !containsControlChar text.toList && !text.isEmpty
  match reason with
  | none => .joinRejected ⟨none⟩
  | some text =>
    match JoinRejected.new (some text) with
    | .ok message => .joinRejected message
    | .error _ => .joinRejected ⟨none⟩

/-- `RoomActor::take_request`. -/
def takeRequest (a : RoomActor) (requestId : RequestId) :
    RoomActor × Except RoomError JoinRequest :=
  match a.requests.take requestId with
  | (requests, .ok request) => ({ a with requests }, .ok request)
  | (requests, .error (.unknown id)) => ({ a with requests }, .error (.unknownRequest id))
  | (requests, .error other) => ({ a with requests }, .error (.queue other))

/-- The admission of a taken request: `on_accept` from `members.add` on. -/
def admitMember (a : RoomActor) (connection : ConnectionId)
    (application : JoinApplication) : Outcome :=
  match a.members.add connection application.nickname application.ed25519Pubkey
      application.x25519Pubkey (a.epoch + 1) with
  | (members, .ok member) =>
    let a := { a with
      members
      connections := ((a.connections.register connection).promote connection member.memberId).1 }
    match a.beginEpochTransition P rng with
    | (a, .error error) => (a, .error error)
    | (a, .ok wraps) =>
      (a.queueMemberJoined P member,
        .ok (.sendTo connection (.joinAccepted ⟨member.memberId⟩) ::
          .notifyHost (.memberJoined member.memberId member.nickname) :: wraps))
  | (members, .error error) =>
    let withdrawn := match a.connections.requestId connection with
      | some requestId => [.notifyHost (.joinRequestWithdrawn requestId)]
      | none => []
    ({ a with members, connections := a.connections.remove connection },
      .ok ([.sendTo connection (rejectedMessage (some error.toString)),
        .closeConnection connection, .notifyHost (.error error.toString)] ++ withdrawn))

/-- `RoomActor::on_accept`. -/
def onAccept (a : RoomActor) (requestId : RequestId) : Outcome :=
  match a.timeoutRequests.find? fun request => request.requestId = requestId with
  | some request =>
    ({ a with timeoutRequests := a.timeoutRequests.eraseP (fun r => r.requestId = requestId) },
      .ok [.notifyHost (.timeoutRequestAccepted requestId request.seconds)])
  | none =>
    match a.takeRequest requestId with
    | (a, .error error) => (a, .error error)
    | (a, .ok request) => a.admitMember P rng request.connection request.application

/-- `RoomActor::on_reject`. -/
def onReject (a : RoomActor) (requestId : RequestId) : Outcome :=
  match a.timeoutRequests.find? fun request => request.requestId = requestId with
  | some _ =>
    ({ a with timeoutRequests := a.timeoutRequests.eraseP (fun r => r.requestId = requestId) },
      .ok [.notifyHost (.timeoutRequestRejected requestId)])
  | none =>
    match a.takeRequest requestId with
    | (a, .error error) => (a, .error error)
    | (a, .ok request) =>
      ({ a with connections := a.connections.remove request.connection },
        .ok [.sendTo request.connection (rejectedMessage none),
          .closeConnection request.connection])

/-- `RoomActor::resolve_member`. -/
def resolveMember (a : RoomActor) (target : MemberRef) : Except RoomError Member :=
  match target with
  | .id id => (a.members.byId id).elim (.error (.unknownMember target)) .ok
  | .nickname nickname =>
    if nickname.isEmpty then .error .emptyMemberRef
    else (a.members.byNickname nickname).elim (.error (.unknownMember target)) .ok

/-- `RoomActor::on_kick`. -/
def onKick (a : RoomActor) (target : MemberRef) : Outcome :=
  match a.resolveMember target with
  | .error error => (a, .error error)
  | .ok resolved =>
    match a.members.byId resolved.memberId with
    | none => (a, .error (.unknownMember target))
    | some member =>
      if member.isHost then (a, .error .cannotKickHost)
      else
        match a.removeMember P rng resolved.memberId msgMemberKicked with
        | (a, .error error) => (a, .error error)
        | (a, .ok none) => (a, .ok [])
        | (a, .ok (some (removed, wraps))) =>
          (a, .ok (wraps ++ [.closeConnection member.connection,
            .notifyHost (.memberKicked resolved.memberId removed.nickname)]))

/-- The loops of `/newid` and `/reqoff` that close every admission flow. -/
def dropAdmissions (a : RoomActor) : RoomActor × List RoomAction :=
  let (requests, drained) := a.requests.drain
  let connections := (drained.map JoinRequest.connection).foldl Connections.remove a.connections
  let withdrawn := drained.flatMap fun request =>
    [.closeConnection request.connection, .notifyHost (.joinRequestWithdrawn request.id)]
  let rest := connections.nonMemberIds
  ({ a with requests, connections := rest.foldl Connections.remove connections },
    withdrawn ++ rest.map .closeConnection)

/-- `RoomActor::on_new_id`. -/
def onNewId (a : RoomActor) : Outcome :=
  match rng.token with
  | none => (a, .error (.crypto .randomness))
  | some token =>
    let a := { a with token, roomSequence := a.roomSequence + 1 }
    let (a, actions) := a.dropAdmissions
    (a, .ok (actions ++ [.notifyHost (.invitationRotated a.token)]))

/-- The end of `set_policy`: the new policy and its signed broadcast. -/
def announcePolicy (a : RoomActor) (policy : JoinPolicy) : RoomActor × List RoomAction :=
  let a := { a with policy, state := policy.roomState, roomSequence := a.roomSequence + 1 }
  let signature := a.signRoomEvent P msgJoinPolicy (joinPolicyBody (policy = .opened))
  let broadcast := (a.members.members.filter fun member => !member.isHost).map fun member =>
    .sendTo member.connection
      (.joinPolicyChanged ⟨a.roomSequence, a.epoch, policy = .opened, signature⟩)
  (a, broadcast ++ [.notifyHost (.joinPolicyChanged policy)])

/-- `RoomActor::set_policy`. -/
def setPolicy (a : RoomActor) (policy : JoinPolicy) : Outcome :=
  let (a, actions) := if policy = .locked then a.dropAdmissions else (a, [])
  let (a, broadcast) := a.announcePolicy P policy
  (a, .ok (actions ++ broadcast))

/-- The snapshot of `HostCommand::Requests`. -/
def requestsSnapshot (a : RoomActor) : HostNotice :=
  .requestsSnapshot
    (a.requests.requests.map fun request => ⟨request.id, request.connection,
      request.application.nickname, request.application.introduction⟩)
    (a.timeoutRequests.map fun request => ⟨request.requestId, request.memberId, request.nickname,
      request.seconds⟩)

/-- `RoomActor::on_host_command`. -/
def onHostCommand (a : RoomActor) : HostCommand → Outcome
  | .kick target => a.onKick P rng target
  | .newId => a.onNewId rng
  | .reqOn => a.setPolicy P .opened
  | .reqOff => a.setPolicy P .locked
  | .requests => (a, .ok [.notifyHost a.requestsSnapshot])
  | .accept requestId => a.onAccept P rng requestId
  | .reject requestId => a.onReject requestId

/-! ### Members and lost connections -/

/-- `RoomActor::on_leave`. -/
def onLeave (a : RoomActor) (connection : ConnectionId) : Outcome :=
  if connection = a.hostConnection then (a, .error .hostCannotLeave)
  else
    match a.connections.memberId connection with
    | none => (a, .error (.notAMember connection))
    | some memberId =>
      match a.removeMember P rng memberId msgMemberLeft with
      | (a, .error error) => (a, .error error)
      | (a, .ok none) => (a, .ok [])
      | (a, .ok (some (member, wraps))) =>
        (a, .ok (wraps ++ [.sendTo connection .shutdown, .closeConnection connection,
          .notifyHost (.memberLeft memberId member.nickname)]))

/-- `RoomActor::on_color`. -/
def onColor (a : RoomActor) (connection : ConnectionId) (color : ColorChoice) : Outcome :=
  match a.connections.memberId connection with
  | some memberId => ({ a with members := a.members.setColor memberId color }, .ok [])
  | none =>
    if connection = a.hostConnection then
      ({ a with members := a.members.setColor 0 color }, .ok [])
    else (a, .error (.notAMember connection))

/-- `RoomActor::on_member_command`. -/
def onMemberCommand (a : RoomActor) (connection : ConnectionId) : MemberCommand → Outcome
  | .leave => a.onLeave P rng connection
  | .color color => a.onColor connection color
  | .list => (a, .ok [.notifyHost (.listSnapshot (a.members.members.map Member.info))])
  | .whois target =>
    match a.resolveMember (.nickname target) with
    | .error error => (a, .error error)
    | .ok member => (a, .ok [.notifyHost (.whoisResult member.info)])

/-- `RoomActor::on_connection_lost`. -/
def onConnectionLost (a : RoomActor) (connection : ConnectionId) : Outcome :=
  if connection = a.hostConnection then a.closeRoom
  else
    let lost := a.timeoutRequests.filter fun request => request.connection = connection
    let rejected := lost.map fun request =>
      RoomAction.notifyHost (.timeoutRequestRejected request.requestId)
    let kept := a.timeoutRequests.filter fun request => request.connection ≠ connection
    let a := { a with timeoutRequests := kept }
    let memberId := (a.connections.memberId connection).or
      ((a.members.byConnection connection).map Member.memberId)
    match memberId with
    | some memberId =>
      match a.removeMember P rng memberId msgMemberLeft with
      | (a, .error error) => (a, .error error)
      | (a, .ok none) =>
        ({ a with connections := a.connections.remove connection }, .ok rejected)
      | (a, .ok (some (member, wraps))) =>
        ({ a with connections := a.connections.remove connection },
          .ok (rejected ++ wraps ++ [.notifyHost (.memberLeft memberId member.nickname)]))
    | none =>
      match a.connections.requestId connection with
      | none => ({ a with connections := a.connections.remove connection }, .ok rejected)
      | some requestId =>
        match a.requests.take requestId with
        | (requests, .ok _) =>
          ({ a with requests, connections := a.connections.remove connection },
            .ok (rejected ++ [.notifyHost (.joinRequestWithdrawn requestId)]))
        | (requests, .error _) =>
          ({ a with requests, connections := a.connections.remove connection }, .ok rejected)

/-- `RoomActor::on_member_left`. -/
def onMemberLeft (a : RoomActor) (memberId : MemberId) : Outcome :=
  match a.removeMember P rng memberId msgMemberLeft with
  | (a, .error error) => (a, .error error)
  | (a, .ok none) => (a, .ok [])
  | (a, .ok (some (member, wraps))) =>
    (a, .ok (wraps ++ [.notifyHost (.memberLeft memberId member.nickname)]))

/-! ### Chat relay -/

/-- `RoomActor::reject_during_transition`. -/
def rejectDuringTransition (a : RoomActor) (connection : ConnectionId) : Outcome :=
  if connection = a.hostConnection then
    (a, .ok [.notifyHost (.error "the room was rotating keys; that action was not applied")])
  else
    match ErrorMessage.new .rateLimited
      (some ("the room was rotating keys; that message was not " ++
        "delivered, please send it again")) with
    | .error error => (a, .error (.protocol error))
    | .ok message => (a, .ok [.sendTo connection (.error message)])

/-- `RoomActor::member_has_acked_pending_epoch`. -/
def memberHasAckedPendingEpoch (a : RoomActor) (connection : ConnectionId) : Bool :=
  match a.pendingEpoch with
  | none => true
  | some pending =>
    match a.connections.memberId connection with
    | none => false
    | some memberId => memberId ∉ pending.awaiting

/-- `RoomActor::chat_plaintext`. -/
def chatPlaintext (a : RoomActor) (senderId : MemberId) (messageType : UInt8)
    (envelope : EncryptedEnvelope) : Except RoomError Bytes :=
  let current := match a.pendingEpoch, a.epochKey with
    | some pending, _ => some (pending.epoch, pending.key)
    | none, some key => some (a.epoch, key)
    | none, none => none
  match current with
  | none => .error (.chat .noEpochKey)
  | some (epoch, epochKey) =>
    match a.members.byId senderId with
    | none => .error (.chat (.unknownSender envelope.senderId))
    | some sender =>
      match openEnvelope P epochKey sender.ed25519Pubkey 1 a.sessionId epoch envelope.senderId
          envelope.senderSequence messageType envelope.nonce envelope.ciphertext
          envelope.signature with
      | .ok plaintext => .ok plaintext
      | .error .invalidSignature => .error (.chat .invalidSignature)
      | .error (.decrypt _) => .error (.chat .invalidCiphertext)

/-- The charge of one message to its sender's bucket: whether it is allowed, and whether the
sender is abusive. -/
def chargeRateLimit (a : RoomActor) (senderId : MemberId) : RoomActor × Bool × Bool :=
  let limiter := (a.rateLimits senderId).getD (RateLimiter.new 5 1)
  let (limiter, allowed) := limiter.allow a.now
  ({ a with rateLimits := (fun id => if id = senderId then some limiter else a.rateLimits id) },
    allowed, !allowed && limiter.isAbusive rateLimitTermination)

/-- The rate-limit rejection of `on_chat_received`. -/
def onRateLimited (a : RoomActor) (connection : ConnectionId) (senderId : MemberId)
    (abusive : Bool) : Outcome :=
  match ErrorMessage.new .rateLimited
      (some "the room rate limit rejected that message; send more slowly") with
  | .error error => (a, .error (.protocol error))
  | .ok message =>
    let actions := [.sendTo connection (.error message),
      .notifyHost (.error "member exceeded the message rate limit")]
    if abusive then
      match a.removeMember P rng senderId msgMemberKicked with
      | (a, .error error) => (a, .error error)
      | (a, .ok none) => (a, .ok actions)
      | (a, .ok (some (member, wraps))) =>
        (a, .ok (actions ++ wraps ++ [.closeConnection connection,
          .notifyHost (.memberKicked senderId member.nickname)]))
    else (a, .ok actions)

/-- The last loop of `on_chat_received`. -/
def relay (a : RoomActor) (connection : ConnectionId) (message : Message) : List RoomAction :=
  (a.members.members.filter fun member => member.connection ≠ connection).map fun member =>
    .sendTo member.connection message

/-- The `MSG_TIMEOUT_REQUEST` arm of `on_chat_received`. -/
def onTimeoutRequest (a : RoomActor) (connection : ConnectionId) (senderId : MemberId)
    (plaintext : Bytes) : Outcome :=
  if senderId = 0 then
    (a, .error (.chat (.invalidPlaintext "the host cannot submit a timeout request")))
  else if plaintext.length ≠ 8 then
    (a, .error (.chat (.invalidPlaintext "timeout request must contain eight bytes")))
  else
    let seconds := BigEndian.decode plaintext
    if ¬ (1 ≤ seconds ∧ seconds ≤ maxMessageTimeoutSeconds) then
      (a, .error (.chat (.invalidPlaintext "timeout request is out of range")))
    else if a.requests.limit ≤ a.requests.requests.length + a.timeoutRequests.length then
      (a, .error (.queue (.full a.requests.limit)))
    else
      -- the sender was validated as a member; the source expects it here
      let nickname := ((a.members.byId senderId).map Member.nickname).getD ""
      let (requests, requestId) := a.requests.allocateId
      ({ a with requests, timeoutRequests := a.timeoutRequests ++
          [⟨requestId, connection, senderId, nickname, seconds⟩] },
        .ok [.notifyHost (.timeoutRequestPending requestId senderId nickname seconds)])

/-- The setting a `TIMEOUT_CHANGED` plaintext carries, when it is well formed. -/
def timeoutSetting (plaintext : Bytes) : Except RoomError (Option Nat) :=
  match plaintext with
  | flag :: rest =>
    if rest.length ≠ 8 then
      .error (.chat (.invalidPlaintext "timeout setting must contain nine bytes"))
    else
      let seconds := BigEndian.decode rest
      if flag = 0 ∧ rest.all (· = 0) then .ok none
      else if flag = 1 ∧ 1 ≤ seconds ∧ seconds ≤ maxMessageTimeoutSeconds then .ok (some seconds)
      else .error (.chat (.invalidPlaintext "invalid timeout setting"))
  | [] => .error (.chat (.invalidPlaintext "timeout setting must contain nine bytes"))

/-- The end of `on_chat_received`: what an authenticated plaintext does, by message type. -/
def onPlaintext (a : RoomActor) (connection : ConnectionId) (senderId : MemberId)
    (messageType : UInt8) (envelope : EncryptedEnvelope) (plaintext : Bytes) : Outcome :=
  if messageType = msgColor then
    match plaintext with
    | [index] =>
      match ColorChoice.fromIndex index with
      | none => (a, .error (.unknownColor index))
      | some color =>
        let a := { a with members := a.members.setColor senderId color }
        (a, .ok (a.relay connection (.colorChange envelope)))
    | _ => (a, .error (.chat (.invalidPlaintext "color payload must be one byte")))
  else if messageType = msgTimeoutRequest then a.onTimeoutRequest connection senderId plaintext
  else if messageType = msgTimeoutChanged then
    if senderId ≠ 0 then
      (a, .error (.chat (.invalidPlaintext "only the host can change the room timeout")))
    else
      match timeoutSetting plaintext with
      | .error error => (a, .error error)
      | .ok setting =>
        let a := { a with roomTimeout := setting }
        (a, .ok (a.relay connection (.timeoutChanged envelope)))
  else
    match String.fromUTF8? ⟨plaintext.toArray⟩ with
    | none => (a, .error (.chat (.invalidPlaintext "not UTF-8")))
    | some text =>
      match validateChatText text Limits.default with
      | .error error => (a, .error (.chat (.invalidPlaintext error.toString)))
      | .ok () => (a, .ok (a.relay connection (.chatMessage envelope)))

/-- The middle of `on_chat_received`: epoch, replay, signature and AEAD checks. -/
def onEnvelope (a : RoomActor) (connection : ConnectionId) (senderId : MemberId)
    (messageType : UInt8) (envelope : EncryptedEnvelope) : Outcome :=
  if envelope.epoch ≠ a.epoch then (a, .error (.oldEpoch envelope.epoch a.epoch))
  else if ¬ a.chatReplay.Fresh senderId a.epoch envelope.senderSequence then
    (a, .error (.replayRejected envelope.senderId envelope.senderSequence))
  else
    match a.chatPlaintext P senderId messageType envelope with
    | .error error => (a, .error error)
    | .ok plaintext =>
      let a := { a with
        chatReplay := (a.chatReplay.accept senderId a.epoch envelope.senderSequence).1 }
      a.onPlaintext connection senderId messageType envelope plaintext

/-- The message types `on_chat_received` takes. -/
def isChatType (messageType : UInt8) : Bool :=
  messageType = msgChat || messageType = msgColor || messageType = msgTimeoutRequest ||
    messageType = msgTimeoutChanged

/-- `RoomActor::on_chat_received`. -/
def onChatReceived (a : RoomActor) (connection : ConnectionId) (messageType : UInt8)
    (envelope : EncryptedEnvelope) : Outcome :=
  if ¬ isChatType messageType then
    (a, .error (.chat (.invalidPlaintext "not a chat-type message")))
  else
    match a.connections.memberId connection with
    | none => (a, .error (.notAMember connection))
    | some senderId =>
      if envelope.senderId ≠ senderId then
        (a, .error (.chat (.unknownSender envelope.senderId)))
      else if (a.members.byId senderId).isNone then (a, .error (.notAMember connection))
      else if messageType = msgTimeoutChanged then
        a.onEnvelope P connection senderId messageType envelope
      else
        let (a, allowed, abusive) := a.chargeRateLimit senderId
        if allowed then a.onEnvelope P connection senderId messageType envelope
        else a.onRateLimited P rng connection senderId abusive

/-! ### The event handler -/

/-- The events an epoch transition processes. -/
def handleInTransition (a : RoomActor) : RoomEvent → Outcome
  | .epochAck connection epoch => a.onEpochAck connection epoch
  | .connectionLost connection => a.onConnectionLost P rng connection
  | .timeoutExpired connection kind =>
    if kind = .epochAcknowledgement then a.onEpochTimeout P rng
    else a.onConnectionLost P rng connection
  | .epochMaintenance => a.onEpochTimeout P rng
  | .closeRequested | .torStopped => a.closeRoom
  | .hostCommand .requests => a.onHostCommand P rng .requests
  | .chatReceived connection messageType envelope =>
    if a.memberHasAckedPendingEpoch connection then
      a.onChatReceived P rng connection messageType envelope
    else a.rejectDuringTransition connection
  | _ => (a, .error .epochTransitionInProgress)

/-- The events outside an epoch transition. -/
def handleSettled (a : RoomActor) : RoomEvent → Outcome
  | .clientConnected connection =>
    ({ a with connections := a.connections.register connection }, .ok [])
  | .passwordVerified connection =>
    ({ a with connections := (a.connections.markPasswordVerified connection).1 }, .ok [])
  | .epochAck connection epoch => a.onEpochAck connection epoch
  | .joinRequested connection application => a.onJoinRequested connection application
  | .hostCommand command => a.onHostCommand P rng command
  | .memberCommand connection command => a.onMemberCommand P rng connection command
  | .hostAccepted requestId => a.onAccept P rng requestId
  | .hostRejected requestId => a.onReject requestId
  | .connectionLost connection => a.onConnectionLost P rng connection
  | .timeoutExpired connection _ => a.onConnectionLost P rng connection
  | .epochMaintenance => (a, .ok [])
  | .memberLeft member => a.onMemberLeft P rng member
  | .chatReceived connection messageType envelope =>
    a.onChatReceived P rng connection messageType envelope
  | .torStopped | .closeRequested => a.closeRoom

/-- `RoomActor::handle_event_at`. -/
def handleEventAt (a : RoomActor) (event : RoomEvent) (now : Duration) : Outcome :=
  let a := { a with now }
  if a.state = .closing ∨ a.state = .destroyed then (a, .error .roomClosed)
  else if a.state = .epochTransition then a.handleInTransition P rng event
  else a.handleSettled P rng event

end RoomActor

end Veilroom
