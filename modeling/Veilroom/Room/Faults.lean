import Veilroom.Room.Runs

/-!
An error keeps the state of the room.

Also when a transition fails half-way: the room is then still in the transition
it was in, or still settled. One lemma for each handler; no randomness, no key
and no caller is trusted.
-/
namespace Veilroom
namespace RoomActor
variable {P : Primitives} {rng : Rng} {a b : RoomActor} {event : RoomEvent}

section
universe u
variable {α : Type u}

/-- If the outcome is an error, the room is in the state it was in. -/
def Stays (state : RoomState) (outcome : RoomActor × Except RoomError α) : Prop :=
  ∀ error, outcome.2 = .error error → outcome.1.state = state

theorem Stays.ok {state : RoomState} (a : RoomActor) (x : α) : Stays state (a, .ok x) := nofun

theorem Stays.refused (a : RoomActor) (error : RoomError) :
    Stays a.state (a, (.error error : Except RoomError α)) := fun _ _ => rfl

end

theorem state_of_failed {error : RoomError}
    (heq : a.beginEpochTransition P rng = (b, .error error)) : b.state = a.state := by
  obtain ⟨key, wraps, -, h⟩ | ⟨error, h⟩ := beginEpochTransition_cases P rng a
  · cases heq.symm.trans h
  · cases heq.symm.trans h
    rfl

/-- A failed removal, whatever the caller makes of the others. -/
theorem removeMember_stays (h : a.registry.Valid) {id : MemberId} {eventType : UInt8}
    {error : RoomError} (heq : a.removeMember P rng id eventType = (b, .error error)) :
    Stays a.state (b, (.error error : Except RoomError (List RoomAction))) := by
  intro _ _
  obtain ⟨-, h⟩ | ⟨-, h⟩ | ⟨m, -, -, -, ⟨error, -, h⟩ | ⟨key, wraps, -, h⟩⟩ :=
    removeMember_cases P rng h id eventType
  · cases heq.symm.trans h
    rfl
  · cases heq.symm.trans h
  · cases heq.symm.trans h
    rfl
  · cases heq.symm.trans h

theorem onMemberLeft_stays (h : a.registry.Valid) (id : MemberId) :
    Stays a.state (a.onMemberLeft P rng id) := by
  unfold onMemberLeft
  split
  · rename_i heq
    exact removeMember_stays h heq
  · exact .ok _ _
  · exact .ok _ _

theorem onLeave_stays (h : a.registry.Valid) (connection : ConnectionId) :
    Stays a.state (a.onLeave P rng connection) := by
  unfold onLeave
  split
  · exact .refused _ _
  split
  · exact .refused _ _
  split
  · rename_i heq
    exact removeMember_stays h heq
  · exact .ok _ _
  · exact .ok _ _

theorem onKick_stays (h : a.registry.Valid) (target : MemberRef) :
    Stays a.state (a.onKick P rng target) := by
  unfold onKick
  split
  · exact .refused _ _
  split
  · exact .refused _ _
  split
  · exact .refused _ _
  split
  · rename_i heq
    exact removeMember_stays h heq
  · exact .ok _ _
  · exact .ok _ _

theorem closeRoom_stays : Stays a.state a.closeRoom := by
  unfold closeRoom
  split
  · exact .refused _ _
  · exact .ok _ _

theorem onConnectionLost_stays (h : a.registry.Valid) (connection : ConnectionId) :
    Stays a.state (a.onConnectionLost P rng connection) := by
  unfold onConnectionLost
  split
  · exact closeRoom_stays
  dsimp only
  split
  · split
    · rename_i heq
      have hvalid := (h.dropTimeoutRequests (List.filter_sublist (l := a.timeoutRequests)
        (p := fun request => request.connection ≠ connection))).valid
      exact removeMember_stays (a := { a with
        timeoutRequests := a.timeoutRequests.filter fun request =>
          request.connection ≠ connection })
        hvalid heq
    · exact .ok _ _
    · exact .ok _ _
  split
  · exact .ok _ _
  split <;> exact .ok _ _

theorem evict_state (ids : List MemberId) (a : RoomActor) : (a.evict ids).1.state = a.state := by
  induction ids generalizing a with
  | nil => rfl
  | cons id rest ih =>
      unfold evict
      split
      · exact ih a
      · exact ih _

theorem onEpochTimeout_stays : Stays a.state (a.onEpochTimeout P rng) := by
  unfold onEpochTimeout
  split
  · exact .ok _ _
  split
  · exact .ok _ _
  dsimp only
  split
  · exact closeRoom_stays (a := { a with pendingEpoch := none })
  split
  · rename_i heq
    exact fun _ _ => (state_of_failed heq).trans (evict_state _ _)
  · exact .ok _ _

theorem onEpochAck_stays (connection : ConnectionId) (epoch : Nat) :
    Stays a.state (a.onEpochAck connection epoch) := by
  unfold onEpochAck
  split
  · exact .ok _ _
  split
  · exact .ok _ _
  split
  · exact .ok _ _
  dsimp only
  split
  · exact .ok _ _
  split <;> exact .ok _ _

theorem onJoinRequested_stays (connection : ConnectionId) (application : JoinApplication) :
    Stays a.state (a.onJoinRequested connection application) := by
  unfold onJoinRequested
  split
  · exact .refused _ _
  split
  · exact .refused _ _
  split
  · exact .refused _ _
  split
  · exact fun _ _ => rfl
  split
  · exact fun _ _ => rfl
  · exact .ok _ _

theorem onAccept_stays (requestId : RequestId) : Stays a.state (a.onAccept P rng requestId) := by
  unfold onAccept
  split
  · exact .ok _ _
  have htaken : (a.takeRequest requestId).1.state = a.state := by
    unfold takeRequest
    split <;> rfl
  split
  · rename_i heq
    rw [heq] at htaken
    exact fun _ _ => htaken
  rename_i heq
  rw [heq] at htaken
  rw [← htaken]
  unfold admitMember
  split
  · dsimp only
    split
    · rename_i heq
      have hfailed := state_of_failed heq
      exact fun _ _ => hfailed
    · exact .ok _ _
  · exact .ok _ _

theorem onReject_stays (requestId : RequestId) : Stays a.state (a.onReject requestId) := by
  unfold onReject
  split
  · exact .ok _ _
  have htaken : (a.takeRequest requestId).1.state = a.state := by
    unfold takeRequest
    split <;> rfl
  split
  · rename_i heq
    rw [heq] at htaken
    exact fun _ _ => htaken
  · exact .ok _ _

theorem onHostCommand_stays (h : a.registry.Valid) (command : HostCommand) :
    Stays a.state (a.onHostCommand P rng command) := by
  cases command with
  | kick target => exact onKick_stays h target
  | newId =>
      unfold onHostCommand onNewId
      dsimp only
      split
      · exact .refused _ _
      · exact .ok _ _
  | reqOn | reqOff | requests => exact .ok _ _
  | accept requestId => exact onAccept_stays requestId
  | reject requestId => exact onReject_stays requestId

theorem onMemberCommand_stays (h : a.registry.Valid) (connection : ConnectionId)
    (command : MemberCommand) : Stays a.state (a.onMemberCommand P rng connection command) := by
  cases command with
  | leave => exact onLeave_stays h connection
  | color color =>
      unfold onMemberCommand onColor
      dsimp only
      split
      · exact .ok _ _
      split
      · exact .ok _ _
      · exact .refused _ _
  | list => exact .ok _ _
  | whois target =>
      unfold onMemberCommand
      dsimp only
      split
      · exact .refused _ _
      · exact .ok _ _

theorem onRateLimited_stays (h : a.registry.Valid) (connection : ConnectionId) (id : MemberId)
    (abusive : Bool) : Stays a.state (a.onRateLimited P rng connection id abusive) := by
  unfold onRateLimited
  split
  · exact .refused _ _
  dsimp only
  split
  · split
    · rename_i heq
      exact removeMember_stays h heq
    · exact .ok _ _
    · exact .ok _ _
  · exact .ok _ _

theorem onPlaintext_stays (connection : ConnectionId) (id : MemberId) (messageType : UInt8)
    (envelope : EncryptedEnvelope) (plaintext : Bytes) :
    Stays a.state (a.onPlaintext connection id messageType envelope plaintext) := by
  unfold onPlaintext onTimeoutRequest
  dsimp only
  repeat' split
  all_goals first | exact .ok _ _ | exact .refused _ _

theorem onEnvelope_stays (connection : ConnectionId) (id : MemberId) (messageType : UInt8)
    (envelope : EncryptedEnvelope) :
    Stays a.state (a.onEnvelope P connection id messageType envelope) := by
  unfold onEnvelope
  split
  · exact .refused _ _
  split
  · exact .refused _ _
  split
  · exact .refused _ _
  · exact onPlaintext_stays (a := { a with
      chatReplay := (a.chatReplay.accept id a.epoch envelope.senderSequence).1 }) _ _ _ _ _

theorem onChatReceived_stays (h : a.registry.Valid) (connection : ConnectionId)
    (messageType : UInt8) (envelope : EncryptedEnvelope) :
    Stays a.state (a.onChatReceived P rng connection messageType envelope) := by
  unfold onChatReceived
  split
  · exact .refused _ _
  split
  · exact .refused _ _
  rename_i id _
  split
  · exact .refused _ _
  split
  · exact .refused _ _
  split
  · exact onEnvelope_stays _ _ _ _
  dsimp only
  split
  · exact onEnvelope_stays (a := (a.chargeRateLimit id).1) _ _ _ _
  · exact onRateLimited_stays (a := (a.chargeRateLimit id).1) h _ _ _

theorem rejectDuringTransition_stays (connection : ConnectionId) :
    Stays a.state (a.rejectDuringTransition connection) := by
  unfold rejectDuringTransition
  split
  · exact .ok _ _
  split
  · exact .refused _ _
  · exact .ok _ _

theorem handleInTransition_stays (h : a.registry.Valid) :
    Stays a.state (a.handleInTransition P rng event) := by
  unfold handleInTransition
  split
  · exact onEpochAck_stays _ _
  · exact onConnectionLost_stays h _
  · split
    · exact onEpochTimeout_stays
    · exact onConnectionLost_stays h _
  · exact onEpochTimeout_stays
  · exact closeRoom_stays
  · exact closeRoom_stays
  · exact .ok _ _
  · split
    · exact onChatReceived_stays h _ _ _
    · exact rejectDuringTransition_stays _
  · exact .refused _ _

theorem handleSettled_stays (h : a.registry.Valid) :
    Stays a.state (a.handleSettled P rng event) := by
  cases event with
  | clientConnected _ | passwordVerified _ | epochMaintenance => exact .ok _ _
  | joinRequested connection application => exact onJoinRequested_stays connection application
  | epochAck connection epoch => exact onEpochAck_stays connection epoch
  | hostCommand command => exact onHostCommand_stays h command
  | memberCommand connection command => exact onMemberCommand_stays h connection command
  | hostAccepted requestId => exact onAccept_stays requestId
  | hostRejected requestId => exact onReject_stays requestId
  | connectionLost connection | timeoutExpired connection _ =>
      exact onConnectionLost_stays h connection
  | memberLeft member => exact onMemberLeft_stays h member
  | chatReceived connection messageType envelope =>
      exact onChatReceived_stays h connection messageType envelope
  | torStopped | closeRequested => exact closeRoom_stays

theorem handle_stays (h : a.registry.Valid) (input : Input) : Stays a.state (a.handle P input) := by
  unfold handle handleEventAt
  dsimp only
  split
  · exact fun _ _ => rfl
  split
  · exact handleInTransition_stays (a := { a with now := input.now }) h
  · exact handleSettled_stays (a := { a with now := input.now }) h

end RoomActor

end Veilroom
