import Veilroom.Room.Task

/-!
The invitation in the room actor: only `/newid` changes its token, and it
leaves no admission flow behind.
-/
namespace Veilroom
namespace RoomActor
variable (P : Primitives) (rng : Rng) (a : RoomActor)

/-! ### The token -/

theorem token_beginEpochTransition : (a.beginEpochTransition P rng).1.token = a.token := by
  unfold beginEpochTransition
  dsimp only
  split
  · rfl
  split <;> rfl

theorem token_removeMember (memberId : MemberId) (eventType : UInt8) :
    (a.removeMember P rng memberId eventType).1.token = a.token := by
  unfold removeMember
  split
  · rfl
  split
  · rfl
  rename_i members member _
  have h := token_beginEpochTransition P rng
    (({ a with members, connections := a.connections.remove member.connection } :
      RoomActor).forgetRateLimit memberId)
  dsimp only
  split
  · rename_i heq
    rw [heq] at h
    exact h
  · rename_i heq
    rw [heq] at h
    exact h

theorem token_closeRoom : a.closeRoom.1.token = a.token := by
  unfold closeRoom
  split <;> rfl

theorem token_evict (ids : List MemberId) : (a.evict ids).1.token = a.token := by
  induction ids generalizing a with
  | nil => rfl
  | cons memberId rest ih =>
      unfold evict
      split
      · exact ih a
      · exact ih _

theorem token_queueMembersGone (gone : List MemberId) (eventType : UInt8) :
    (a.queueMembersGone P gone eventType).token = a.token := by
  induction gone generalizing a with
  | nil => rfl
  | cons memberId rest ih => exact ih (a.queueMemberGone P memberId eventType)

theorem token_onEpochTimeout : (a.onEpochTimeout P rng).1.token = a.token := by
  unfold onEpochTimeout
  split
  · rfl
  rename_i pending _
  split
  · rfl
  dsimp only
  split
  · exact token_closeRoom _
  have hevict := token_evict { a with pendingEpoch := none } pending.awaiting
  generalize ({ a with pendingEpoch := none } : RoomActor).evict pending.awaiting = evicted
    at hevict ⊢
  obtain ⟨b, actions, removed⟩ := evicted
  have hbegin := token_beginEpochTransition P rng b
  dsimp only at hevict ⊢
  split
  · rename_i heq
    rw [heq] at hbegin
    exact hbegin.trans hevict
  · rename_i heq
    rw [heq] at hbegin
    exact (token_queueMembersGone P _ removed msgMemberLeft).trans (hbegin.trans hevict)

theorem token_onEpochAck (connection : ConnectionId) (epoch : Nat) :
    (a.onEpochAck connection epoch).1.token = a.token := by
  unfold onEpochAck
  split
  · rfl
  split
  · rfl
  split
  · rfl
  dsimp only
  split
  · rfl
  split <;> rfl

theorem token_onJoinRequested (connection : ConnectionId) (application : JoinApplication) :
    (a.onJoinRequested connection application).1.token = a.token := by
  unfold onJoinRequested
  repeat' split
  all_goals rfl

theorem token_takeRequest (requestId : RequestId) :
    (a.takeRequest requestId).1.token = a.token := by
  unfold takeRequest
  repeat' split
  all_goals rfl

theorem token_admitMember (connection : ConnectionId) (application : JoinApplication) :
    (a.admitMember P rng connection application).1.token = a.token := by
  unfold admitMember
  split
  · rename_i members member _
    have h := token_beginEpochTransition P rng
      { a with
        members
        connections := ((a.connections.register connection).promote connection member.memberId).1 }
    dsimp only
    split
    · rename_i heq
      rw [heq] at h
      exact h
    · rename_i heq
      rw [heq] at h
      exact h
  · rfl

theorem token_onAccept (requestId : RequestId) :
    (a.onAccept P rng requestId).1.token = a.token := by
  unfold onAccept
  split
  · rfl
  have htake := a.token_takeRequest requestId
  generalize a.takeRequest requestId = taken at htake ⊢
  obtain ⟨b, error | request⟩ := taken
  · exact htake
  · exact (token_admitMember P rng b _ _).trans htake

theorem token_onReject (requestId : RequestId) : (a.onReject requestId).1.token = a.token := by
  unfold onReject
  split
  · rfl
  have htake := a.token_takeRequest requestId
  generalize a.takeRequest requestId = taken at htake ⊢
  obtain ⟨b, error | request⟩ := taken <;> exact htake

/-- Whatever follows a removal keeps the token it left. -/
private theorem token_of_removed {b : RoomActor} {memberId : MemberId} {eventType : UInt8}
    {result : Except RoomError (Option (Member × List RoomAction))}
    (h : a.removeMember P rng memberId eventType = (b, result)) : b.token = a.token := by
  have htoken := token_removeMember P rng a memberId eventType
  rwa [h] at htoken

theorem token_onKick (target : MemberRef) : (a.onKick P rng target).1.token = a.token := by
  unfold onKick
  split
  · rfl
  split
  · rfl
  split
  · rfl
  split <;> rename_i heq <;> exact token_of_removed P rng a heq

theorem token_onLeave (connection : ConnectionId) :
    (a.onLeave P rng connection).1.token = a.token := by
  unfold onLeave
  split
  · rfl
  split
  · rfl
  split <;> rename_i heq <;> exact token_of_removed P rng a heq

theorem token_onMemberLeft (memberId : MemberId) :
    (a.onMemberLeft P rng memberId).1.token = a.token := by
  unfold onMemberLeft
  split <;> rename_i heq <;> exact token_of_removed P rng a heq

theorem token_onMemberCommand (connection : ConnectionId) (command : MemberCommand) :
    (a.onMemberCommand P rng connection command).1.token = a.token := by
  cases command with
  | leave => exact token_onLeave P rng a connection
  | color color =>
      simp only [onMemberCommand, onColor]
      repeat' split
      all_goals rfl
  | list => rfl
  | whois target =>
      simp only [onMemberCommand]
      split <;> rfl

theorem token_onConnectionLost (connection : ConnectionId) :
    (a.onConnectionLost P rng connection).1.token = a.token := by
  unfold onConnectionLost
  split
  · exact a.token_closeRoom
  dsimp only
  split
  · have hremoved {b : RoomActor} {result : Except RoomError (Option (Member × List RoomAction))}
        {id : MemberId} {kept : List PendingTimeoutRequest} (h : removeMember P rng
          { a with timeoutRequests := kept } id msgMemberLeft = (b, result)) : b.token = a.token :=
      token_of_removed P rng { a with timeoutRequests := kept } h
    split
    · rename_i heq
      exact hremoved heq
    · rename_i heq
      have htoken := hremoved heq
      exact htoken
    · rename_i heq
      have htoken := hremoved heq
      exact htoken
  · repeat' split
    all_goals rfl

theorem token_onTimeoutRequest (connection : ConnectionId) (senderId : MemberId)
    (plaintext : Bytes) : (a.onTimeoutRequest connection senderId plaintext).1.token = a.token := by
  unfold onTimeoutRequest
  split
  · rfl
  split
  · rfl
  dsimp only
  split
  · rfl
  split <;> rfl

theorem token_onPlaintext (connection : ConnectionId) (senderId : MemberId) (messageType : UInt8)
    (envelope : EncryptedEnvelope) (plaintext : Bytes) :
    (a.onPlaintext connection senderId messageType envelope plaintext).1.token = a.token := by
  unfold onPlaintext
  split
  · repeat' split
    all_goals rfl
  split
  · exact a.token_onTimeoutRequest _ _ _
  · repeat' split
    all_goals rfl

theorem token_onEnvelope (connection : ConnectionId) (senderId : MemberId) (messageType : UInt8)
    (envelope : EncryptedEnvelope) :
    (a.onEnvelope P connection senderId messageType envelope).1.token = a.token := by
  unfold onEnvelope
  split
  · rfl
  split
  · rfl
  split
  · rfl
  · exact token_onPlaintext _ _ _ _ _ _

theorem token_onRateLimited (connection : ConnectionId) (senderId : MemberId) (abusive : Bool) :
    (a.onRateLimited P rng connection senderId abusive).1.token = a.token := by
  unfold onRateLimited
  split
  · rfl
  dsimp only
  split
  · split <;> rename_i heq <;> exact token_of_removed P rng a heq
  · rfl

theorem token_onChatReceived (connection : ConnectionId) (messageType : UInt8)
    (envelope : EncryptedEnvelope) :
    (a.onChatReceived P rng connection messageType envelope).1.token = a.token := by
  unfold onChatReceived
  split
  · rfl
  split
  · rfl
  split
  · rfl
  split
  · rfl
  split
  · exact token_onEnvelope P a _ _ _ _
  · dsimp only
    split
    · exact token_onEnvelope P _ _ _ _ _
    · exact token_onRateLimited P rng _ _ _ _

theorem token_setPolicy (policy : JoinPolicy) : (a.setPolicy P policy).1.token = a.token := by
  unfold setPolicy
  dsimp only
  split <;> rfl

theorem token_handleInTransition (event : RoomEvent) :
    (a.handleInTransition P rng event).1.token = a.token := by
  unfold handleInTransition
  split
  · exact a.token_onEpochAck _ _
  · exact token_onConnectionLost P rng a _
  · split
    · exact token_onEpochTimeout P rng a
    · exact token_onConnectionLost P rng a _
  · exact token_onEpochTimeout P rng a
  · exact a.token_closeRoom
  · exact a.token_closeRoom
  · rfl
  · split
    · exact token_onChatReceived P rng a _ _ _
    · unfold rejectDuringTransition
      repeat' split
      all_goals rfl
  · rfl

/-- The actor will carry out a `/newid`. -/
def Rotates (a : RoomActor) (rng : Rng) (event : RoomEvent) : Prop :=
  event = .hostCommand .newId ∧ a.state ≠ .closing ∧ a.state ≠ .destroyed ∧
    a.state ≠ .epochTransition ∧ rng.token.isSome = true

instance (event : RoomEvent) : Decidable (a.Rotates rng event) :=
  inferInstanceAs (Decidable (_ ∧ _ ∧ _ ∧ _ ∧ _))

theorem token_handleSettled {event : RoomEvent}
    (h : ¬ (event = .hostCommand .newId ∧ rng.token.isSome = true)) :
    (a.handleSettled P rng event).1.token = a.token := by
  cases event with
  | clientConnected _ | passwordVerified _ | epochMaintenance => rfl
  | epochAck connection epoch => exact a.token_onEpochAck connection epoch
  | joinRequested connection application => exact a.token_onJoinRequested connection application
  | hostCommand command =>
      cases command with
      | kick target => exact token_onKick P rng a target
      | newId =>
          simp only [handleSettled, onHostCommand, onNewId]
          split
          · rfl
          · rename_i htoken
            exact absurd ⟨rfl, by rw [htoken]; rfl⟩ h
      | reqOn | reqOff => exact token_setPolicy P a _
      | requests => rfl
      | accept requestId => exact token_onAccept P rng a requestId
      | reject requestId => exact a.token_onReject requestId
  | memberCommand connection command => exact token_onMemberCommand P rng a connection command
  | hostAccepted requestId => exact token_onAccept P rng a requestId
  | hostRejected requestId => exact a.token_onReject requestId
  | connectionLost connection | timeoutExpired connection _ =>
      exact token_onConnectionLost P rng a connection
  | memberLeft member => exact token_onMemberLeft P rng a member
  | chatReceived connection messageType envelope =>
      exact token_onChatReceived P rng a connection messageType envelope
  | torStopped | closeRequested => exact a.token_closeRoom

theorem token_handleEventAt {event : RoomEvent} (h : ¬ a.Rotates rng event) (now : Duration) :
    (a.handleEventAt P rng event now).1.token = a.token := by
  unfold handleEventAt
  dsimp only
  split
  · rfl
  rename_i hopen
  split
  · exact token_handleInTransition P rng { a with now } event
  · rename_i hsettled
    apply token_handleSettled P rng { a with now }
    rintro ⟨hevent, htoken⟩
    exact h ⟨hevent, fun hstate => hopen (.inl hstate), fun hstate => hopen (.inr hstate), hsettled,
      htoken⟩

variable {P rng a}

theorem token_receive {input : TaskInput} (h : ¬ a.Rotates input.rng input.event) :
    (RoomTask.receive P a input).1.token = a.token := by
  have hfirst := token_handleEventAt P input.rng a h input.now
  obtain heq | ⟨c, -, heq⟩ := RoomTask.receive_cases (P := P) a input
  · rw [heq]
    exact hfirst
  · rw [heq]
    refine Eq.trans (token_handleEventAt P input.cleanupRng _ ?_ input.cleanupNow) hfirst
    rintro ⟨hevent, -⟩
    cases hevent

/-! ### Admission flows -/

theorem mem_push {queue : JoinRequestQueue} {connection : ConnectionId}
    {application : JoinApplication} {q : JoinRequest}
    (h : q ∈ (queue.push connection application).1.requests) :
    q ∈ queue.requests ∨ q.connection = connection := by
  unfold JoinRequestQueue.push at h
  split at h
  · exact .inl h
  · obtain h | h := List.mem_append.mp h
    · exact .inl h
    · exact .inr (by rw [List.mem_singleton.mp h])

theorem request_of_joinRequested {connection : ConnectionId} {application : JoinApplication}
    {q : JoinRequest} (h : q ∈ (a.onJoinRequested connection application).1.requests.requests) :
    q ∈ a.requests.requests ∨ q.connection = connection ∧
      ∃ entry, a.connections.get connection = some entry ∧ entry.role = .admission := by
  unfold onJoinRequested at h
  split at h
  · exact .inl h
  split at h
  · exact .inl h
  rename_i entry hentry
  split at h
  · exact .inl h
  rename_i hadmission
  rw [not_or, not_not, not_not] at hadmission
  suffices hpushed : q ∈ a.requests.requests ∨ q.connection = connection from
    hpushed.imp_right fun heq => ⟨heq, entry, hentry, hadmission.2⟩
  have hpush : q ∈ (a.requests.push connection application).1.requests →
      q ∈ a.requests.requests ∨ q.connection = connection := mem_push
  generalize a.requests.push connection application = pushed at h hpush
  obtain ⟨requests, error | requestId⟩ := pushed
  · exact hpush h
  · dsimp only at h
    split at h <;> exact hpush h

/-- A request is queued for the connection that asked, while it is in admission. -/
theorem request_of_handle (h : a.registry.Valid) {event : RoomEvent} {now : Duration}
    {q : JoinRequest} (hq : q ∈ (a.handleEventAt P rng event now).1.requests.requests) :
    q ∈ a.requests.requests ∨ ∃ application entry,
      event = .joinRequested q.connection application ∧
      a.connections.get q.connection = some entry ∧ entry.role = .admission := by
  obtain hnew | hold := (handleEventAt_effect P rng h event now).step.queued q hq
  · cases event with
    | joinRequested connection application =>
        unfold handleEventAt at hq
        dsimp only at hq
        split at hq
        · exact .inl hq
        split at hq
        · exact .inl hq
        · obtain hold | ⟨rfl, entry, hentry, hrole⟩ := request_of_joinRequested hq
          · exact .inl hold
          · exact .inr ⟨application, entry, rfl, hentry, hrole⟩
    | clientConnected _ | passwordVerified _ | epochAck _ _ | hostCommand _ | memberCommand _ _
    | hostAccepted _ | hostRejected _ | connectionLost _ | timeoutExpired _ _ | epochMaintenance
    | memberLeft _ | chatReceived _ _ _ | torStopped | closeRequested => cases hnew
  · exact .inl hold

/-- Every known connection that is no member's is closed. -/
theorem closed_by_dropAdmissions (a : RoomActor) {c : ConnectionId} {entry : ConnectionEntry}
    (hget : a.connections.get c = some entry) (hrole : ∀ id, entry.role ≠ .member id) :
    .closeConnection c ∈ a.dropAdmissions.2 := by
  simp only [dropAdmissions, JoinRequestQueue.drain]
  by_cases hrequest : c ∈ a.requests.requests.map JoinRequest.connection
  · obtain ⟨q, hq, rfl⟩ := List.mem_map.mp hrequest
    apply List.mem_append_left
    exact List.mem_flatMap.mpr ⟨q, hq, .head _⟩
  · apply List.mem_append_right
    apply List.mem_map_of_mem
    refine Connections.mem_nonMemberIds.mpr ⟨entry, ?_, hrole⟩
    rw [Connections.get_foldl_remove, if_neg hrequest]
    exact hget

/-- `/newid` leaves nothing of the admission flows. -/
theorem handle_rotates (h : a.registry.Valid) {event : RoomEvent} (hrotates : a.Rotates rng event)
    (now : Duration) :
    ∃ b actions, a.handleEventAt P rng event now = (b, .ok actions) ∧ b.requests.requests = [] ∧
      (∀ c entry, b.connections.get c = some entry → ∃ id, a.connections.memberId c = some id ∧
        b.connections.memberId c = some id) ∧
      ∀ c entry, a.connections.get c = some entry → (∀ id, entry.role ≠ .member id) →
        .closeConnection c ∈ actions := by
  obtain ⟨rfl, hclosing, hdestroyed, hsettled, htoken⟩ := hrotates
  obtain ⟨token, htoken⟩ := Option.isSome_iff_exists.mp htoken
  have hopen : ¬ (a.state = .closing ∨ a.state = .destroyed) := by simp [hclosing, hdestroyed]
  let renewed : RoomActor := { a with now, token, roomSequence := a.roomSequence + 1 }
  have hresult : a.handleEventAt P rng (.hostCommand .newId) now =
      (renewed.dropAdmissions.1, .ok (renewed.dropAdmissions.2 ++
        [.notifyHost (.invitationRotated renewed.dropAdmissions.1.token)])) := by
    simp only [handleEventAt, if_neg hopen, if_neg hsettled, handleSettled, onHostCommand, onNewId,
      htoken]
    rfl
  refine ⟨_, _, hresult, rfl, fun c entry hget => ?_, fun c entry hget hrole => ?_⟩
  · have hspec := get_dropAdmissions (a := renewed) h c
    rw [hspec] at hget
    split at hget
    · rename_i hmember
      obtain ⟨id, hid⟩ := Option.isSome_iff_exists.mp hmember
      refine ⟨id, hid, ?_⟩
      rw [Connections.memberId_eq_bind, hspec, if_pos hmember, ← Connections.memberId_eq_bind]
      exact hid
    · cases hget
  · apply List.mem_append_left
    exact closed_by_dropAdmissions renewed hget hrole

end RoomActor

/-- A connection in admission was announced, or was already known and no member's. -/
theorem Registry.Step.admission {r r' : Registry} {new : Option Registry.Arrival}
    (h : r.Valid) (step : Registry.Step new r r') {c : ConnectionId} {entry : ConnectionEntry}
    (hget : r'.connections.get c = some entry) (hrole : entry.role = .admission) :
    new = some (.connection c) ∨
      ∃ entry', r.connections.get c = some entry' ∧ ∀ id, entry'.role ≠ .member id := by
  obtain hnew | ⟨entry', hentry'⟩ := step.known c entry hget
  · exact .inl hnew
  refine .inr ⟨entry', hentry', fun id hid => ?_⟩
  obtain ⟨m, hm, rfl, rfl⟩ := h.entry_member c id (Connections.memberId_eq_some.mpr
    ⟨entry', hentry', hid⟩)
  by_cases hstays : ∃ m' ∈ r'.members.members, m'.memberId = m.memberId
  · obtain ⟨m', hm', hsame⟩ := hstays
    obtain ⟨n, hn, hcolor⟩ := step.later.member m' hm' (hsame ▸ h.id_lt m hm)
    have hid' : n.memberId = m.memberId := by rw [← hsame, ← hcolor]; rfl
    obtain rfl := h.eq_of_memberId hn hm hid'
    have hmember := step.valid.member_entry m' hm'
    rw [← hcolor] at hmember
    obtain ⟨entry'', hentry'', hrole''⟩ := Connections.memberId_eq_some.mp hmember
    rw [show r'.connections.get n.connection = some entry'' from hentry''] at hget
    cases hget
    rw [hrole] at hrole''
    cases hrole''
  · have hgone := step.departed m hm fun m' hm' hsame => hstays ⟨m', hm', hsame⟩
    rw [hgone] at hget
    cases hget

end Veilroom
