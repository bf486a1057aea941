import Veilroom.Room.RegistrySteps

/-!
Everything one event can do to the room.

`RoomActor.Move` has one constructor for each kind of change, with what it
sends. It is the only thing the invariants of the room look at; that every
event is one of these moves is `Veilroom.Room.Effects`.
-/
namespace Veilroom

/-- An action that neither moves keys, membership nor chat, nor asks for a rebroadcast. -/
def RoomAction.isPlain : RoomAction → Bool
  | .sendTo _ (.error _) | .sendTo _ (.joinRejected _) | .sendTo _ .shutdown => true
  | .sendTo _ _ => false
  | .closeConnection _ => true
  | .notifyHost (.timeoutRebroadcast _) => false
  | .notifyHost _ => true

namespace RoomActor
variable (P : Primitives) (rng : Rng)

/-- What no event changes. -/
structure SameRoom (a a' : RoomActor) : Prop where
  sessionId : a'.sessionId = a.sessionId
  hostConnection : a'.hostConnection = a.hostConnection
  hostIdentity : a'.hostIdentity = a.hostIdentity
  timeouts : a'.timeouts = a.timeouts
  now : a'.now = a.now

/-- `b` is `a` but for its tables, and but for what a new transition overwrites. -/
structure Tabled (a b : RoomActor) : Prop extends SameRoom a b where
  policy : b.policy = a.policy
  roomTimeout : b.roomTimeout = a.roomTimeout
  epoch : b.epoch = a.epoch
  epochKey : b.epochKey = a.epochKey
  roomSequence : b.roomSequence = a.roomSequence
  chatReplay : b.chatReplay = a.chatReplay
  pendingMembership : b.pendingMembership = a.pendingMembership

/-- No transition began or ended, and nobody joined or left. -/
structure Still (a a' : RoomActor) : Prop extends SameRoom a a' where
  state : a'.state = a.state
  policy : a'.policy = a.policy
  epoch : a'.epoch = a.epoch
  epochKey : a'.epochKey = a.epochKey
  pendingEpoch : a'.pendingEpoch = a.pendingEpoch
  pendingMembership : a'.pendingMembership = a.pendingMembership
  members : a'.members.members.map Member.uncolored = a.members.members.map Member.uncolored

/-- The tracker is as before, or recorded one fresh sequence of the current epoch. -/
def ReplayGrows (a : RoomActor) (t : ReplayTracker) : Prop :=
  t = a.chatReplay ∨ ∃ sender sequence, a.chatReplay.Fresh sender a.epoch sequence ∧
    t = a.chatReplay.record sender a.epoch sequence

/-- The actor after `begin_epoch_transition` succeeded with `key`. -/
def rotated (a : RoomActor) (key : Key) : RoomActor :=
  { a.advanceEpoch with
    state := .epochTransition
    pendingEpoch := some
      { epoch := a.epoch + 1, key, awaiting := a.members.members.map Member.memberId,
        startedAt := a.now } }

@[simp] theorem members_rotated (a : RoomActor) (key : Key) :
    (a.rotated key).members = a.members := rfl

/-- `begin_epoch_transition` succeeded on `b` with `key` and the messages `wraps`. -/
structure Begins (b : RoomActor) (key : Key) (wraps : List RoomAction) : Prop where
  generated : rng.epochKey = some key
  wrapped : b.advanceEpoch.wrapAll P rng key 0 b.members.members = .ok wraps

/-- The members an event forces out, whatever the state it arrives in. A transition processes
no other event that removes a member. -/
def departing (a : RoomActor) (event : RoomEvent) : List MemberId :=
  match event with
  | .connectionLost connection => lost connection
  | .timeoutExpired connection kind =>
      if kind = .epochAcknowledgement then late else lost connection
  | .epochMaintenance => late
  | .chatReceived connection messageType envelope =>
    match a.connections.memberId connection with
    | none => []
    | some senderId =>
      if a.memberHasAckedPendingEpoch connection ∧ isChatType messageType ∧
          envelope.senderId = senderId ∧ senderId ≠ 0 ∧ messageType ≠ msgTimeoutChanged ∧
          (a.chargeRateLimit senderId).2.2 then [senderId]
      else []
  | _ => []
where
  lost (connection : ConnectionId) : List MemberId :=
    if connection = a.hostConnection then [] else (a.connections.memberId connection).toList
  late : List MemberId :=
    match a.pendingEpoch with
    | none => []
    | some pending =>
      if a.now - pending.startedAt < a.timeouts.get .epochAcknowledgement then []
      else if 0 ∈ pending.awaiting then []
      else pending.awaiting.filter fun id => (a.members.byId id).isSome

/-- The envelope messages the room relays. -/
def relayed (messageType : UInt8) (envelope : EncryptedEnvelope) : Message :=
  if messageType = msgColor then .colorChange envelope
  else if messageType = msgTimeoutChanged then .timeoutChanged envelope
  else .chatMessage envelope

/-- The room timeout after a relay. -/
def settingAfter (a : RoomActor) (messageType : UInt8) (plaintext : Bytes) : Option Nat :=
  if messageType = msgTimeoutChanged then (timeoutSetting plaintext).toOption.getD none
  else a.roomTimeout

/-- An envelope the room accepted from the member `sender` on `connection`. -/
structure Relays (a : RoomActor) (connection : ConnectionId) (sender : MemberId)
    (messageType : UInt8) (envelope : EncryptedEnvelope) (plaintext : Bytes) : Prop where
  known : a.connections.memberId connection = some sender
  senderId : envelope.senderId = sender
  epoch : envelope.epoch = a.epoch
  fresh : a.chatReplay.Fresh sender a.epoch envelope.senderSequence
  opened : a.chatPlaintext P sender messageType envelope = .ok plaintext
  acked : a.state = .epochTransition → a.memberHasAckedPendingEpoch connection = true
  relayable : messageType = msgChat ∨ messageType = msgColor ∨ messageType = msgTimeoutChanged
  setting : messageType = msgTimeoutChanged →
    sender = 0 ∧ ∃ setting, timeoutSetting plaintext = .ok setting

/-- The broadcasts of several departures, in order. -/
def queueMembersGone (a : RoomActor) (gone : List MemberId) (eventType : UInt8) : RoomActor :=
  gone.foldl (fun a memberId => a.queueMemberGone P memberId eventType) a

/-- `Move P rng a event a' result`: handling `event` may turn `a` into `a'` with `result`. The
clock of `a` has already been set. -/
inductive Move (a : RoomActor) (event : RoomEvent) :
    RoomActor → Except RoomError (List RoomAction) → Prop
  /-- Nothing moved but a rate-limit bucket and the replay tracker. -/
  | refused (rateLimits : MemberId → Option RateLimiter) {chatReplay error} :
      ReplayGrows a chatReplay → Move a event { a with rateLimits, chatReplay } (.error error)
  /-- A transition could not begin: the generator or a key failed it. -/
  | failed {b : RoomActor} {state pendingEpoch} {error : RoomError} : Tabled a b →
      (∀ m ∈ b.members.members, m ∈ a.members.members ∨
        ∃ q ∈ a.requests.requests, m.x25519Pubkey = q.application.x25519Pubkey) →
      (b.beginEpochTransition P rng).2 = .error error →
      Move a event { b.advanceEpoch with state, pendingEpoch } (.error error)
  /-- Requests, connections, colors, the token or the timeout queue changed. -/
  | quiet {a' : RoomActor} {actions} : Still a a' → a'.roomTimeout = a.roomTimeout →
      a.roomSequence ≤ a'.roomSequence → ReplayGrows a a'.chatReplay →
      (∀ action ∈ actions, action.isPlain = true) → Move a event a' (.ok actions)
  | relayed {a' : RoomActor} {connection sender messageType envelope plaintext} :
      event = .chatReceived connection messageType envelope →
      Relays P a connection sender messageType envelope plaintext → Still a a' →
      a'.roomTimeout = a.settingAfter messageType plaintext → a'.roomSequence = a.roomSequence →
      a'.chatReplay = a.chatReplay.record sender a.epoch envelope.senderSequence →
      Move a event a' (.ok (a.relay connection (RoomActor.relayed messageType envelope)))
  /-- `/reqon` or `/reqoff`. -/
  | policySet {b : RoomActor} {policy} (actions : List RoomAction) : a.state ≠ .epochTransition →
      Tabled a b → b.pendingEpoch = a.pendingEpoch → b.members = a.members →
      (∀ action ∈ actions, action.isPlain = true) →
      Move a event (b.announcePolicy P policy).1 (.ok (actions ++ (b.announcePolicy P policy).2))
  /-- One more member acknowledged the pending epoch, and somebody still has to. -/
  | acked {pending : PendingEpoch} {connection memberId} :
      event = .epochAck connection pending.epoch → a.pendingEpoch = some pending →
      a.connections.memberId connection = some memberId → memberId ∈ pending.awaiting →
      (pending.retain memberId).awaiting ≠ [] →
      Move a event { a with pendingEpoch := some (pending.retain memberId) } (.ok [])
  /-- The last member acknowledged the pending epoch. -/
  | activated {pending : PendingEpoch} {connection memberId} :
      event = .epochAck connection pending.epoch → a.pendingEpoch = some pending →
      a.connections.memberId connection = some memberId → memberId ∈ pending.awaiting →
      (pending.retain memberId).awaiting = [] →
      Move a event { a with
          pendingEpoch := none
          epochKey := some pending.key
          state := a.policy.roomState
          pendingMembership := [] }
        (.ok (a.pendingMembership ++ match a.roomTimeout with
          | some seconds => [.notifyHost (.timeoutRebroadcast seconds)]
          | none => []))
  /-- A request was accepted and its member admitted. -/
  | joined {b : RoomActor} {key wraps} {request : JoinRequest} {member : Member} :
      a.state ≠ .epochTransition → Tabled a b → request ∈ a.requests.requests →
      member = ⟨a.members.nextId, request.connection, request.application.nickname, default, false,
        request.application.ed25519Pubkey, request.application.x25519Pubkey, a.epoch + 1⟩ →
      b.members.members = a.members.members ++ [member] → Begins P rng b key wraps →
      Move a event ((b.rotated key).queueMemberJoined P member)
        (.ok (.sendTo member.connection (.joinAccepted ⟨member.memberId⟩) ::
          .notifyHost (.memberJoined member.memberId member.nickname) :: wraps))
  /-- Members left, were kicked, or were evicted. -/
  | departed {b : RoomActor} {key wraps} (gone : List MemberId) (before after : List RoomAction)
      {eventType : UInt8} : Tabled a b → gone.Nodup → 0 ∉ gone →
      (∀ id ∈ gone, ∃ m ∈ a.members.members, m.memberId = id) →
      (a.state = .epochTransition → ∀ id, id ∈ gone ↔ id ∈ a.departing event) →
      b.members.members = a.members.members.filter (fun m => m.memberId ∉ gone) →
      eventType = msgMemberLeft ∨ eventType = msgMemberKicked → Begins P rng b key wraps →
      (∀ action ∈ before ++ after, action.isPlain = true) →
      Move a event ((b.rotated key).queueMembersGone P gone eventType)
        (.ok (before ++ wraps ++ after))
  | closed (pendingEpoch : Option PendingEpoch) {actions} :
      (∀ action ∈ actions, action.isPlain = true) →
        Move a event { a with state := .destroyed, pendingEpoch } (.ok actions)

end RoomActor

end Veilroom
