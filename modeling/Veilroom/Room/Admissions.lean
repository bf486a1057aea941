import Veilroom.Room.Task

/-!
What leaves an applicant alone.

Only a few events touch the connection of somebody who is not a member yet;
every other handler spares its entry.
-/
namespace Veilroom
namespace RoomActor
variable (P : Primitives) (rng : Rng) {a : RoomActor} {c : ConnectionId}

/-- The events that may change the entry of the applicant on `c`. -/
def touches (a : RoomActor) (c : ConnectionId) : RoomEvent → Prop
  | .passwordVerified connection => connection = c
  | .joinRequested connection _ => connection = c
  | .connectionLost connection => connection = c
  | .timeoutExpired connection _ => connection = c
  | .hostCommand .newId => True
  | .hostCommand .reqOff => True
  | .hostCommand (.accept requestId) => a.connections.requestId c = some requestId
  | .hostCommand (.reject requestId) => a.connections.requestId c = some requestId
  | .hostAccepted requestId => a.connections.requestId c = some requestId
  | .hostRejected requestId => a.connections.requestId c = some requestId
  | _ => False

/-- The entry of `c` stays if it is an applicant's. -/
def Spares (c : ConnectionId) (a b : RoomActor) : Prop :=
  ∀ entry, a.connections.get c = some entry → (∀ id, entry.role ≠ .member id) →
    b.connections.get c = some entry

theorem Spares.of_eq {b : RoomActor} (h : b.connections = a.connections) : Spares c a b := by
  intro entry hget _
  rw [h]
  exact hget

theorem Spares.trans {b d : RoomActor} (h : Spares c a b) (k : Spares c b d) : Spares c a d :=
  fun entry hget hrole => k entry (h entry hget hrole) hrole

/-- An applicant's connection is no member's. -/
theorem ne_connection (h : a.registry.Valid) {entry : ConnectionEntry}
    (hget : a.connections.get c = some entry) (hrole : ∀ id, entry.role ≠ .member id)
    {m : Member} (hm : m ∈ a.members.members) : c ≠ m.connection := by
  rintro rfl
  obtain ⟨entry', hget', hrole'⟩ := Connections.memberId_eq_some.mp (h.member_entry m hm)
  cases hget.symm.trans hget'
  exact hrole _ hrole'

theorem Spares.remove {b : RoomActor} {connection : ConnectionId} (hne : c ≠ connection)
    (h : b.connections = a.connections.remove connection) : Spares c a b := by
  intro entry hget _
  rw [h, Connections.get_remove, if_neg hne]
  exact hget

theorem Spares.without (h : a.registry.Valid) {m : Member} (hm : m ∈ a.members.members) :
    Spares c a (a.without m) :=
  fun entry hget hrole =>
    Spares.remove (ne_connection h hget hrole hm) rfl entry hget hrole

theorem connections_beginEpochTransition (b : RoomActor) :
    (b.beginEpochTransition P rng).1.connections = b.connections := by
  obtain ⟨key, wraps, -, heq⟩ | ⟨error, heq⟩ := beginEpochTransition_cases P rng b
  · rw [heq]
    rfl
  · rw [heq]
    rfl

/-! ### Departures -/

theorem removeMember_spares (h : a.registry.Valid) (id : MemberId) (eventType : UInt8) :
    Spares c a (a.removeMember P rng id eventType).1 := by
  obtain ⟨-, heq⟩ | ⟨-, heq⟩ | ⟨m, hm, -, -, hcases⟩ := removeMember_cases P rng h id eventType
  · rw [heq]
    exact .of_eq rfl
  · rw [heq]
    exact .of_eq rfl
  · have hwithout : Spares c a (a.without m) := .without h hm
    obtain ⟨error, -, heq⟩ | ⟨key, wraps, -, heq⟩ := hcases
    · rw [heq]
      exact hwithout.trans (.of_eq rfl)
    · rw [heq]
      exact hwithout.trans (.of_eq rfl)

theorem onMemberLeft_spares (h : a.registry.Valid) (id : MemberId) :
    Spares c a (a.onMemberLeft P rng id).1 := by
  have hspares := removeMember_spares P rng (c := c) h id msgMemberLeft
  unfold onMemberLeft
  split <;> rename_i heq <;> rw [heq] at hspares <;> exact hspares

theorem onLeave_spares (h : a.registry.Valid) (connection : ConnectionId) :
    Spares c a (a.onLeave P rng connection).1 := by
  unfold onLeave
  split
  · exact .of_eq rfl
  · split
    · exact .of_eq rfl
    · rename_i id _
      have hspares := removeMember_spares P rng (c := c) h id msgMemberLeft
      split <;> rename_i heq <;> rw [heq] at hspares <;> exact hspares

theorem onKick_spares (h : a.registry.Valid) (target : MemberRef) :
    Spares c a (a.onKick P rng target).1 := by
  unfold onKick
  split
  · exact .of_eq rfl
  · rename_i resolved _
    split
    · exact .of_eq rfl
    · split
      · exact .of_eq rfl
      · have hspares := removeMember_spares P rng (c := c) h resolved.memberId msgMemberKicked
        split <;> rename_i heq <;> rw [heq] at hspares <;> exact hspares

theorem closeRoom_spares : Spares c a a.closeRoom.1 := by
  unfold closeRoom
  split
  · exact .of_eq rfl
  · exact .of_eq rfl

theorem onConnectionLost_spares (h : a.registry.Valid) {connection : ConnectionId}
    (hne : c ≠ connection) : Spares c a (a.onConnectionLost P rng connection).1 := by
  unfold onConnectionLost
  split
  · exact closeRoom_spares
  dsimp only
  split
  · rename_i id _
    have hspares := removeMember_spares P rng (c := c) (a := { a with
      timeoutRequests := a.timeoutRequests.filter fun request => request.connection ≠ connection })
      (h.dropTimeoutRequests List.filter_sublist).valid id msgMemberLeft
    split <;> rename_i heq <;> rw [heq] at hspares
    · exact hspares
    · exact hspares.trans (.remove hne rfl)
    · exact hspares.trans (.remove hne rfl)
  · split
    · exact .remove hne rfl
    · split
      · exact .remove hne rfl
      · exact .remove hne rfl

theorem evict_spares (ids : List MemberId) (h : a.registry.Valid) (hzero : 0 ∉ ids) :
    Spares c a (a.evict ids).1 := by
  induction ids generalizing a with
  | nil => exact .of_eq rfl
  | cons id rest ih =>
      rw [List.mem_cons, not_or] at hzero
      cases hfind : a.members.byId id with
      | none =>
          rw [evict, MemberTable.remove, hfind]
          exact ih h hzero.2
      | some m =>
          obtain ⟨hm, rfl⟩ := h.byId_eq_some.mp hfind
          have hvalid := (h.removeMember hm (Ne.symm hzero.1)).valid
          have hrest := ih (a := a.without m) hvalid hzero.2
          rw [evict, MemberTable.remove, hfind]
          exact (Spares.without h hm).trans hrest

theorem onEpochTimeout_spares (h : a.registry.Valid) :
    Spares c a (a.onEpochTimeout P rng).1 := by
  unfold onEpochTimeout
  split
  · exact .of_eq rfl
  · rename_i pending _
    split
    · exact .of_eq rfl
    · split
      · exact closeRoom_spares (a := { a with pendingEpoch := none })
      · rename_i hzero
        let a₁ : RoomActor := { a with pendingEpoch := none }
        have hevict : Spares c a (a₁.evict pending.awaiting).1 :=
          evict_spares (a := a₁) pending.awaiting h hzero
        have hbegin := connections_beginEpochTransition P rng (a₁.evict pending.awaiting).1
        dsimp only
        split <;> rename_i heq <;> rw [heq] at hbegin
        · exact hevict.trans (.of_eq hbegin)
        · refine hevict.trans (.of_eq ?_)
          rw [← hbegin]
          exact congrArg Registry.connections (registry_queueMembersGone P _ _ _)

theorem onEpochAck_spares (connection : ConnectionId) (epoch : Nat) :
    Spares c a (a.onEpochAck connection epoch).1 := by
  unfold onEpochAck
  split
  · exact .of_eq rfl
  · split
    · exact .of_eq rfl
    · split
      · exact .of_eq rfl
      · dsimp only
        split
        · exact .of_eq rfl
        · split <;> exact .of_eq rfl

/-! ### Requests and commands -/

theorem onJoinRequested_spares {connection : ConnectionId} (hne : c ≠ connection)
    (application : JoinApplication) :
    Spares c a (a.onJoinRequested connection application).1 := by
  unfold onJoinRequested
  split
  · exact .of_eq rfl
  · split
    · exact .of_eq rfl
    · split
      · exact .of_eq rfl
      · split
        · exact .of_eq rfl
        · rename_i requests requestId _
          have hattach : (a.connections.attachRequest connection requestId).1.get c =
              a.connections.get c := by
            rw [Connections.attachRequest, Connections.get_update, if_neg hne]
          split <;> rename_i heq <;> rw [heq] at hattach <;>
            exact fun entry hget _ => hattach.trans hget

theorem admitMember_spares {connection : ConnectionId} (hne : c ≠ connection)
    (application : JoinApplication) :
    Spares c a (a.admitMember P rng connection application).1 := by
  unfold admitMember
  split
  · rename_i members member _
    dsimp only
    have hregister : Spares c a { a with
        members
        connections := ((a.connections.register connection).promote connection
          member.memberId).1 } := by
      intro entry hget _
      rw [Connections.promote, Connections.get_update, if_neg hne, Connections.get_register,
        if_neg hne]
      exact hget
    have hbegin := connections_beginEpochTransition P rng { a with
      members
      connections := ((a.connections.register connection).promote connection member.memberId).1 }
    split <;> rename_i heq <;> rw [heq] at hbegin <;> exact hregister.trans (.of_eq hbegin)
  · exact .remove hne rfl

/-- A request with another id is another connection's. -/
theorem ne_request (h : a.registry.Valid) {requestId : RequestId}
    (hother : a.connections.requestId c ≠ some requestId) {q : JoinRequest}
    (hq : q ∈ a.requests.requests) (hid : q.id = requestId) : c ≠ q.connection := by
  rintro rfl
  exact hother (hid ▸ h.request_entry q hq)

theorem onAccept_spares (h : a.registry.Valid) {requestId : RequestId}
    (hother : a.connections.requestId c ≠ some requestId) :
    Spares c a (a.onAccept P rng requestId).1 := by
  unfold onAccept
  split
  · exact .of_eq rfl
  · obtain ⟨error, heq⟩ | ⟨q, hq, hid, heq⟩ := takeRequest_cases h requestId
    · rw [heq]
      exact .of_eq rfl
    · rw [heq]
      exact admitMember_spares P rng (a := { a with requests := a.registry.taken q })
        (ne_request h hother hq hid) q.application

theorem onReject_spares (h : a.registry.Valid) {requestId : RequestId}
    (hother : a.connections.requestId c ≠ some requestId) :
    Spares c a (a.onReject requestId).1 := by
  unfold onReject
  split
  · exact .of_eq rfl
  · obtain ⟨error, heq⟩ | ⟨q, hq, hid, heq⟩ := takeRequest_cases h requestId
    · rw [heq]
      exact .of_eq rfl
    · rw [heq]
      exact .remove (ne_request h hother hq hid) rfl

theorem onHostCommand_spares (h : a.registry.Valid) {command : HostCommand}
    (hspared : ¬ a.touches c (.hostCommand command)) :
    Spares c a (a.onHostCommand P rng command).1 := by
  cases command with
  | kick target => exact onKick_spares P rng h target
  | newId => exact absurd trivial hspared
  | reqOn => exact .of_eq rfl
  | reqOff => exact absurd trivial hspared
  | requests => exact .of_eq rfl
  | accept requestId => exact onAccept_spares P rng h hspared
  | reject requestId => exact onReject_spares h hspared

theorem onMemberCommand_spares (h : a.registry.Valid) (connection : ConnectionId)
    (command : MemberCommand) : Spares c a (a.onMemberCommand P rng connection command).1 := by
  cases command with
  | leave => exact onLeave_spares P rng h connection
  | color color =>
      unfold onMemberCommand onColor
      dsimp only
      split
      · exact .of_eq rfl
      · split <;> exact .of_eq rfl
  | list => exact .of_eq rfl
  | whois target =>
      unfold onMemberCommand
      dsimp only
      split <;> exact .of_eq rfl

/-! ### Chat -/

theorem connections_onTimeoutRequest (connection : ConnectionId) (senderId : MemberId)
    (plaintext : Bytes) :
    (a.onTimeoutRequest connection senderId plaintext).1.connections = a.connections := by
  unfold onTimeoutRequest
  split
  · rfl
  · split
    · rfl
    · dsimp only
      split
      · rfl
      · split <;> rfl

theorem connections_onPlaintext (connection : ConnectionId) (senderId : MemberId)
    (messageType : UInt8) (envelope : EncryptedEnvelope) (plaintext : Bytes) :
    (a.onPlaintext connection senderId messageType envelope plaintext).1.connections =
      a.connections := by
  unfold onPlaintext
  split
  · split
    · split <;> rfl
    · rfl
  · split
    · exact connections_onTimeoutRequest connection senderId plaintext
    · split
      · split
        · rfl
        · split <;> rfl
      · split
        · rfl
        · split <;> rfl

theorem connections_onEnvelope (connection : ConnectionId) (senderId : MemberId)
    (messageType : UInt8) (envelope : EncryptedEnvelope) :
    (a.onEnvelope P connection senderId messageType envelope).1.connections =
      a.connections := by
  unfold onEnvelope
  split
  · rfl
  · split
    · rfl
    · split
      · rfl
      · exact connections_onPlaintext connection senderId messageType envelope _

theorem onRateLimited_spares (h : a.registry.Valid) (connection : ConnectionId)
    (senderId : MemberId) (abusive : Bool) :
    Spares c a (a.onRateLimited P rng connection senderId abusive).1 := by
  unfold onRateLimited
  split
  · exact .of_eq rfl
  · dsimp only
    split
    · have hspares := removeMember_spares P rng (c := c) h senderId msgMemberKicked
      split <;> rename_i heq <;> rw [heq] at hspares <;> exact hspares
    · exact .of_eq rfl

theorem onChatReceived_spares (h : a.registry.Valid) (connection : ConnectionId)
    (messageType : UInt8) (envelope : EncryptedEnvelope) :
    Spares c a (a.onChatReceived P rng connection messageType envelope).1 := by
  unfold onChatReceived
  split
  · exact .of_eq rfl
  · split
    · exact .of_eq rfl
    · rename_i senderId _
      split
      · exact .of_eq rfl
      · split
        · exact .of_eq rfl
        · split
          · exact .of_eq (connections_onEnvelope P connection senderId messageType envelope)
          · have hcharged : (a.chargeRateLimit senderId).1.registry.Valid := h
            dsimp only
            split
            · exact .of_eq (connections_onEnvelope P connection senderId messageType envelope)
            · exact onRateLimited_spares P rng hcharged connection senderId _

/-! ### Events -/

/-- An event that does not touch an applicant spares it. -/
theorem handleEventAt_spares (h : a.registry.Valid) {event : RoomEvent} (now : Duration)
    (hspared : ¬ a.touches c event) : Spares c a (a.handleEventAt P rng event now).1 := by
  have hclock : ({ a with now } : RoomActor).registry.Valid := h
  unfold handleEventAt
  dsimp only
  split
  · exact .of_eq rfl
  · split
    · cases event with
      | epochAck connection epoch => exact onEpochAck_spares (a := { a with now }) connection epoch
      | connectionLost connection =>
          exact onConnectionLost_spares P rng hclock fun heq => hspared heq.symm
      | timeoutExpired connection kind =>
          unfold handleInTransition
          dsimp only
          split
          · exact onEpochTimeout_spares P rng hclock
          · exact onConnectionLost_spares P rng hclock fun heq => hspared heq.symm
      | epochMaintenance => exact onEpochTimeout_spares P rng hclock
      | closeRequested => exact closeRoom_spares (a := { a with now })
      | torStopped => exact closeRoom_spares (a := { a with now })
      | hostCommand command => cases command <;> exact .of_eq rfl
      | chatReceived connection messageType envelope =>
          unfold handleInTransition
          dsimp only
          split
          · exact onChatReceived_spares P rng hclock connection messageType envelope
          · unfold rejectDuringTransition
            split
            · exact .of_eq rfl
            · split <;> exact .of_eq rfl
      | _ => exact .of_eq rfl
    · cases event with
      | clientConnected connection =>
          intro entry hget _
          refine (Connections.get_register _ _ _).trans ?_
          split
          · rename_i heq
            rw [← heq]
            change some ((a.connections.get c).getD _) = some entry
            rw [hget]
            rfl
          · exact hget
      | passwordVerified connection =>
          intro entry hget _
          refine (Connections.get_update _ _ _ _).trans ?_
          rw [if_neg fun heq => hspared heq.symm]
          exact hget
      | epochAck connection epoch => exact onEpochAck_spares (a := { a with now }) connection epoch
      | joinRequested connection application =>
          exact onJoinRequested_spares (a := { a with now }) (fun heq => hspared heq.symm)
            application
      | hostCommand command => exact onHostCommand_spares P rng hclock hspared
      | memberCommand connection command =>
          exact onMemberCommand_spares P rng hclock connection command
      | hostAccepted requestId => exact onAccept_spares P rng hclock hspared
      | hostRejected requestId => exact onReject_spares (a := { a with now }) hclock hspared
      | connectionLost connection =>
          exact onConnectionLost_spares P rng hclock fun heq => hspared heq.symm
      | timeoutExpired connection kind =>
          exact onConnectionLost_spares P rng hclock fun heq => hspared heq.symm
      | epochMaintenance => exact .of_eq rfl
      | memberLeft member => exact onMemberLeft_spares P rng hclock member
      | chatReceived connection messageType envelope =>
          exact onChatReceived_spares P rng hclock connection messageType envelope
      | torStopped => exact closeRoom_spares (a := { a with now })
      | closeRequested => exact closeRoom_spares (a := { a with now })

end RoomActor

end Veilroom
