import Veilroom.Room.Runs

/-!
What the room records of the envelopes it accepts.

Only an envelope of a member moves the replay tracker forward, and only for that
member and with the number of that envelope; every other event leaves the
tracker alone or prunes it.
-/
namespace Veilroom

namespace ReplayTracker
variable {t t' t'' : ReplayTracker}

/-- `t'` has nothing that `t` has not. -/
def Prunes (t t' : ReplayTracker) : Prop :=
  ∀ id epoch last, t'.lastAccepted id epoch = some last → t.lastAccepted id epoch = some last

theorem Prunes.refl (t : ReplayTracker) : Prunes t t := fun _ _ _ h => h

theorem Prunes.trans (h : Prunes t t') (k : Prunes t' t'') : Prunes t t'' :=
  fun id epoch last hlast => h id epoch last (k id epoch last hlast)

theorem prunes_retainEpoch (t : ReplayTracker) (epoch : Nat) : Prunes t (t.retainEpoch epoch) := by
  intro id e last hlast
  rw [lastAccepted_retainEpoch] at hlast
  split at hlast
  · exact hlast
  · cases hlast

end ReplayTracker

namespace RoomActor
variable {P : Primitives} {rng : Rng} {a b : RoomActor}

/-- The handler records no envelope. -/
def Forgets (a b : RoomActor) : Prop := a.chatReplay.Prunes b.chatReplay

theorem Forgets.same (h : b.chatReplay = a.chatReplay) : Forgets a b := by
  rw [Forgets, h]
  exact .refl _

theorem beginEpochTransition_forgets (P : Primitives) (rng : Rng) (b : RoomActor) :
    Forgets b (b.beginEpochTransition P rng).1 := by
  obtain ⟨key, wraps, -, heq⟩ | ⟨error, heq⟩ := beginEpochTransition_cases P rng b
  all_goals
    rw [heq]
    exact ReplayTracker.prunes_retainEpoch _ _

theorem removeMember_forgets (P : Primitives) (rng : Rng) (a : RoomActor) (id : MemberId)
    (eventType : UInt8) : Forgets a (a.removeMember P rng id eventType).1 := by
  unfold removeMember
  split
  · exact .same rfl
  split
  · exact .same rfl
  rename_i members member _
  have hbegun := beginEpochTransition_forgets P rng
    (forgetRateLimit { a with members, connections := a.connections.remove member.connection } id)
  dsimp only
  split
  · rename_i heq
    rw [heq] at hbegun
    exact hbegun
  · rename_i heq
    rw [heq] at hbegun
    exact hbegun

theorem closeRoom_forgets : Forgets a a.closeRoom.1 := by
  unfold closeRoom
  split <;> exact .same rfl

theorem chatReplay_evict (ids : List MemberId) (a : RoomActor) :
    (a.evict ids).1.chatReplay = a.chatReplay := by
  induction ids generalizing a with
  | nil => rfl
  | cons id rest ih =>
      unfold evict
      split
      · exact ih a
      · exact ih _

theorem chatReplay_queueMembersGone (a : RoomActor) (gone : List MemberId) (eventType : UInt8) :
    (a.queueMembersGone P gone eventType).chatReplay = a.chatReplay := by
  induction gone generalizing a with
  | nil => rfl
  | cons id rest ih => exact ih _

theorem onEpochTimeout_forgets : Forgets a (a.onEpochTimeout P rng).1 := by
  unfold onEpochTimeout
  split
  · exact .same rfl
  split
  · exact .same rfl
  dsimp only
  split
  · exact closeRoom_forgets (a := { a with pendingEpoch := none })
  rename_i pending _ _ _
  have hbegun := beginEpochTransition_forgets P rng
    (evict { a with pendingEpoch := none } pending.awaiting).1
  rw [Forgets, chatReplay_evict] at hbegun
  split
  · rename_i heq
    rw [heq] at hbegun
    exact hbegun
  · rename_i heq
    rename_i begun wraps
    rw [heq] at hbegun
    exact hbegun.trans (Forgets.same (chatReplay_queueMembersGone (P := P) begun _ _))

theorem onEpochAck_forgets (connection : ConnectionId) (epoch : Nat) :
    Forgets a (a.onEpochAck connection epoch).1 := by
  unfold onEpochAck
  dsimp only
  repeat' split
  all_goals exact .same rfl

theorem onJoinRequested_forgets (connection : ConnectionId) (application : JoinApplication) :
    Forgets a (a.onJoinRequested connection application).1 := by
  unfold onJoinRequested
  repeat' split
  all_goals exact .same rfl

theorem takeRequest_forgets (requestId : RequestId) :
    (a.takeRequest requestId).1.chatReplay = a.chatReplay := by
  unfold takeRequest
  split <;> rfl

theorem admitMember_forgets (connection : ConnectionId) (application : JoinApplication) :
    Forgets a (a.admitMember P rng connection application).1 := by
  unfold admitMember
  split
  · rename_i members member _
    have hbegun := beginEpochTransition_forgets P rng
      { a with
        members
        connections :=
          ((a.connections.register connection).promote connection member.memberId).1 }
    dsimp only
    split
    · rename_i heq
      rw [heq] at hbegun
      exact hbegun
    · rename_i heq
      rw [heq] at hbegun
      exact hbegun
  · exact .same rfl

theorem onAccept_forgets (requestId : RequestId) : Forgets a (a.onAccept P rng requestId).1 := by
  unfold onAccept
  split
  · exact .same rfl
  have htaken := takeRequest_forgets (a := a) requestId
  split
  · rename_i heq
    rw [heq] at htaken
    exact .same htaken
  · rename_i heq
    rw [heq] at htaken
    exact ReplayTracker.Prunes.trans (Forgets.same htaken) (admitMember_forgets _ _)

theorem onReject_forgets (requestId : RequestId) : Forgets a (a.onReject requestId).1 := by
  unfold onReject
  split
  · exact .same rfl
  have htaken := takeRequest_forgets (a := a) requestId
  split
  · rename_i heq
    rw [heq] at htaken
    exact .same htaken
  · rename_i heq
    rw [heq] at htaken
    exact .same htaken

/-- A handler that removes one member and looks at the outcome. -/
private theorem removal_forgets {id : MemberId} {eventType : UInt8} {removed : RoomActor}
    {result : Except RoomError (Option (Member × List RoomAction))}
    (heq : a.removeMember P rng id eventType = (removed, result)) : Forgets a removed := by
  have hforgets := removeMember_forgets P rng a id eventType
  rw [heq] at hforgets
  exact hforgets

theorem onKick_forgets (target : MemberRef) : Forgets a (a.onKick P rng target).1 := by
  unfold onKick
  split
  · exact .same rfl
  split
  · exact .same rfl
  split
  · exact .same rfl
  split <;> exact removal_forgets (by assumption)

theorem onLeave_forgets (connection : ConnectionId) :
    Forgets a (a.onLeave P rng connection).1 := by
  unfold onLeave
  split
  · exact .same rfl
  split
  · exact .same rfl
  split <;> exact removal_forgets (by assumption)

theorem onMemberLeft_forgets (id : MemberId) : Forgets a (a.onMemberLeft P rng id).1 := by
  unfold onMemberLeft
  split <;> exact removal_forgets (by assumption)

theorem onHostCommand_forgets (command : HostCommand) :
    Forgets a (a.onHostCommand P rng command).1 := by
  cases command with
  | kick target => exact onKick_forgets target
  | newId =>
      unfold onHostCommand onNewId
      dsimp only
      split <;> exact .same rfl
  | reqOn | reqOff | requests => exact .same rfl
  | accept requestId => exact onAccept_forgets requestId
  | reject requestId => exact onReject_forgets requestId

theorem onMemberCommand_forgets (connection : ConnectionId) (command : MemberCommand) :
    Forgets a (a.onMemberCommand P rng connection command).1 := by
  cases command with
  | leave => exact onLeave_forgets connection
  | color color =>
      unfold onMemberCommand onColor
      dsimp only
      repeat' split
      all_goals exact .same rfl
  | list => exact .same rfl
  | whois target =>
      unfold onMemberCommand
      dsimp only
      split <;> exact .same rfl

theorem onConnectionLost_forgets (connection : ConnectionId) :
    Forgets a (a.onConnectionLost P rng connection).1 := by
  unfold onConnectionLost
  split
  · exact closeRoom_forgets
  dsimp only
  split
  · split
    all_goals
      rename_i heq
      have hforgets := removal_forgets (a := { a with
        timeoutRequests := a.timeoutRequests.filter fun request =>
          request.connection ≠ connection })
        heq
      exact hforgets
  · repeat' split
    all_goals exact .same rfl

theorem rejectDuringTransition_forgets (connection : ConnectionId) :
    Forgets a (a.rejectDuringTransition connection).1 := by
  unfold rejectDuringTransition
  repeat' split
  all_goals exact .same rfl

theorem onRateLimited_forgets (connection : ConnectionId) (id : MemberId) (abusive : Bool) :
    Forgets a (a.onRateLimited P rng connection id abusive).1 := by
  unfold onRateLimited
  split
  · exact .same rfl
  dsimp only
  split
  · split <;> exact removal_forgets (by assumption)
  · exact .same rfl

/-! ### Envelopes -/

/-- The event brings an envelope of `id` with the number `sequence`. -/
def Utters (a : RoomActor) (event : RoomEvent) (id : MemberId) (sequence : Nat) : Prop :=
  ∃ connection messageType envelope, event = .chatReceived connection messageType envelope ∧
    a.connections.memberId connection = some id ∧ envelope.senderSequence = sequence

/-- Whatever the tracker has after the event it had before, or the event has just uttered it in
the current epoch. -/
def Records (a : RoomActor) (event : RoomEvent) (b : RoomActor) : Prop :=
  ∀ id epoch last, b.chatReplay.lastAccepted id epoch = some last →
    a.chatReplay.lastAccepted id epoch = some last ∨ epoch = a.epoch ∧ a.Utters event id last

theorem Forgets.records (h : Forgets a b) (event : RoomEvent) : Records a event b :=
  fun id epoch last hlast => .inl (h id epoch last hlast)

theorem onPlaintext_chatReplay (a : RoomActor) (connection : ConnectionId) (id : MemberId)
    (messageType : UInt8) (envelope : EncryptedEnvelope) (plaintext : Bytes) :
    (a.onPlaintext connection id messageType envelope plaintext).1.chatReplay = a.chatReplay := by
  unfold onPlaintext onTimeoutRequest
  dsimp only
  repeat' split
  all_goals rfl

theorem onEnvelope_records {connection : ConnectionId} {id : MemberId} {messageType : UInt8}
    {envelope : EncryptedEnvelope} (hknown : a.connections.memberId connection = some id) :
    Records a (.chatReceived connection messageType envelope)
      (a.onEnvelope P connection id messageType envelope).1 := by
  unfold onEnvelope
  split
  · exact (Forgets.same rfl).records _
  split
  · exact (Forgets.same rfl).records _
  rename_i hfresh
  rw [not_not] at hfresh
  split
  · exact (Forgets.same rfl).records _
  · intro sender epoch last hlast
    rw [onPlaintext_chatReplay, ReplayTracker.accept_of_fresh hfresh,
      ReplayTracker.lastAccepted_record] at hlast
    split at hlast
    · rename_i hself
      cases hlast
      rw [hself.1]
      exact .inr ⟨hself.2, connection, messageType, envelope, rfl, hknown, rfl⟩
    · exact .inl hlast

theorem onChatReceived_records (connection : ConnectionId) (messageType : UInt8)
    (envelope : EncryptedEnvelope) :
    Records a (.chatReceived connection messageType envelope)
      (a.onChatReceived P rng connection messageType envelope).1 := by
  unfold onChatReceived
  split
  · exact (Forgets.same rfl).records _
  split
  · exact (Forgets.same rfl).records _
  rename_i id hknown
  split
  · exact (Forgets.same rfl).records _
  split
  · exact (Forgets.same rfl).records _
  split
  · exact onEnvelope_records hknown
  dsimp only
  split
  · exact onEnvelope_records (a := (a.chargeRateLimit id).1) hknown
  · exact (onRateLimited_forgets (a := (a.chargeRateLimit id).1) connection id _).records _

theorem handleInTransition_records (event : RoomEvent) :
    Records a event (a.handleInTransition P rng event).1 := by
  unfold handleInTransition
  split
  · exact (onEpochAck_forgets _ _).records _
  · exact (onConnectionLost_forgets _).records _
  · split
    · exact onEpochTimeout_forgets.records _
    · exact (onConnectionLost_forgets _).records _
  · exact onEpochTimeout_forgets.records _
  · exact closeRoom_forgets.records _
  · exact closeRoom_forgets.records _
  · exact (Forgets.same rfl).records _
  · split
    · exact onChatReceived_records _ _ _
    · exact (rejectDuringTransition_forgets _).records _
  · exact (Forgets.same rfl).records _

theorem handleSettled_records (event : RoomEvent) :
    Records a event (a.handleSettled P rng event).1 := by
  cases event with
  | clientConnected _ | passwordVerified _ | epochMaintenance => exact fun _ _ _ hlast => .inl hlast
  | joinRequested connection application =>
      exact (onJoinRequested_forgets connection application).records _
  | epochAck connection epoch => exact (onEpochAck_forgets connection epoch).records _
  | hostCommand command => exact (onHostCommand_forgets command).records _
  | memberCommand connection command => exact (onMemberCommand_forgets connection command).records _
  | hostAccepted requestId => exact (onAccept_forgets requestId).records _
  | hostRejected requestId => exact (onReject_forgets requestId).records _
  | connectionLost connection | timeoutExpired connection _ =>
      exact (onConnectionLost_forgets connection).records _
  | memberLeft member => exact (onMemberLeft_forgets member).records _
  | chatReceived connection messageType envelope =>
      exact onChatReceived_records connection messageType envelope
  | torStopped | closeRequested => exact closeRoom_forgets.records _

/-- Every event records at most the envelope it brings. -/
theorem handle_records (P : Primitives) (a : RoomActor) (input : Input) :
    Records a input.event (a.handle P input).1 := by
  unfold handle handleEventAt
  dsimp only
  split
  · exact (Forgets.same rfl).records _
  split
  · exact handleInTransition_records (a := { a with now := input.now }) input.event
  · exact handleSettled_records (a := { a with now := input.now }) input.event

end RoomActor

end Veilroom
