import Veilroom.Room.TimeoutRequests

/-!
The cap on pending requests.

`Limits::max_pending_requests` bounds join requests and timeout requests
together. A timeout request is checked against their sum, a join request only
against the join requests, so a join request can go over the cap; nothing else
can.
-/
namespace Veilroom
namespace RoomActor
variable {P : Primitives} {rng : Rng} {a b c : RoomActor} {event : RoomEvent}

/-- The requests the host has not answered, of both kinds. -/
def pending (a : RoomActor) : Nat := a.requests.requests.length + a.timeoutRequests.length

/-- A join request that the queue takes although the cap is reached: the room and its policy
accept join requests, the applicant has verified its password and not yet asked, and there are
fewer join requests than the cap. -/
def Overfills (a : RoomActor) : RoomEvent → Prop
  | .joinRequested connection _ =>
      a.AtRest ∧ a.policy.allowsJoinRequests = true ∧
        (∃ entry, a.connections.get connection = some entry ∧ entry.passwordVerified = true ∧
          entry.role = .admission) ∧
        a.requests.requests.length < a.requests.limit ∧ a.requests.limit ≤ a.pending
  | _ => False

/-- The cap of a room and how many requests count against it. -/
structure Load where
  limit : Nat
  pending : Nat

def load (a : RoomActor) : Load := ⟨a.requests.limit, a.pending⟩

/-- The same cap, and no more pending requests than before. -/
structure Load.Sheds (x y : Load) : Prop where
  limit : y.limit = x.limit
  pending : y.pending ≤ x.pending

/-- The same cap, and no new request beyond it. -/
structure Load.Holds (x y : Load) : Prop where
  limit : y.limit = x.limit
  pending : y.pending ≤ max x.pending x.limit

theorem Load.Sheds.refl (x : Load) : x.Sheds x := ⟨rfl, Nat.le_refl _⟩

theorem Load.Sheds.trans {x y z : Load} (h : x.Sheds y) (k : y.Sheds z) : x.Sheds z :=
  ⟨k.limit.trans h.limit, Nat.le_trans k.pending h.pending⟩

/-- Some timeout requests were taken out. -/
theorem sheds_withdrawn {requests : List PendingTimeoutRequest}
    (h : requests.Sublist a.timeoutRequests) :
    a.load.Sheds { a with timeoutRequests := requests }.load :=
  ⟨rfl, Nat.add_le_add_left h.length_le _⟩

/-! ### Departures -/

theorem load_beginEpochTransition (P : Primitives) (rng : Rng) (b : RoomActor) :
    (b.beginEpochTransition P rng).1.load = b.load := by
  obtain ⟨key, wraps, -, heq⟩ | ⟨error, heq⟩ := beginEpochTransition_cases P rng b
  · rw [heq]
    rfl
  · rw [heq]
    rfl

/-- Removing a member leaves the requests alone. -/
theorem load_removeMember (P : Primitives) (rng : Rng) (a : RoomActor) (id : MemberId)
    (eventType : UInt8) : (a.removeMember P rng id eventType).1.load = a.load := by
  unfold removeMember
  split
  · rfl
  split
  · rfl
  rename_i members member _
  have hbegin := load_beginEpochTransition P rng
    (forgetRateLimit { a with members, connections := a.connections.remove member.connection } id)
  dsimp only
  split
  · rename_i heq
    rw [heq] at hbegin
    exact hbegin
  · rename_i heq
    rw [heq] at hbegin
    exact hbegin

theorem sheds_of_removal {id : MemberId} {eventType : UInt8}
    {result : Except RoomError (Option (Member × List RoomAction))}
    (heq : a.removeMember P rng id eventType = (b, result)) : a.load.Sheds b.load := by
  have hload := load_removeMember P rng a id eventType
  rw [heq] at hload
  rw [← hload]
  exact .refl _

theorem onLeave_sheds (connection : ConnectionId) :
    a.load.Sheds (a.onLeave P rng connection).1.load := by
  unfold onLeave
  split
  · exact .refl _
  split
  · exact .refl _
  split <;> rename_i heq <;> exact sheds_of_removal heq

theorem onMemberLeft_sheds (id : MemberId) :
    a.load.Sheds (a.onMemberLeft P rng id).1.load := by
  unfold onMemberLeft
  split <;> rename_i heq <;> exact sheds_of_removal heq

theorem onKick_sheds (target : MemberRef) : a.load.Sheds (a.onKick P rng target).1.load := by
  unfold onKick
  split
  · exact .refl _
  split
  · exact .refl _
  split
  · exact .refl _
  split <;> rename_i heq <;> exact sheds_of_removal heq

theorem closeRoom_sheds : a.load.Sheds a.closeRoom.1.load := by
  unfold closeRoom
  split <;> exact .refl _

theorem take_sheds {id : RequestId} {requests : JoinRequestQueue}
    {result : Except QueueError JoinRequest} (h : a.requests.take id = (requests, result)) :
    a.load.Sheds { a with requests }.load := by
  unfold JoinRequestQueue.take at h
  split at h
  · cases h
    exact .refl _
  · cases h
    exact ⟨rfl, Nat.add_le_add_right (List.eraseP_sublist.length_le) _⟩

theorem onConnectionLost_sheds (connection : ConnectionId) :
    a.load.Sheds (a.onConnectionLost P rng connection).1.load := by
  unfold onConnectionLost
  split
  · exact closeRoom_sheds
  have hkept : a.load.Sheds { a with timeoutRequests :=
      (a.timeoutRequests.filter fun request => request.connection ≠ connection) }.load :=
    sheds_withdrawn List.filter_sublist
  dsimp only
  split
  · split <;> rename_i heq
    · exact hkept.trans (sheds_of_removal heq)
    · have hremoved := sheds_of_removal heq
      exact hkept.trans hremoved
    · have hremoved := sheds_of_removal heq
      exact hkept.trans hremoved
  split
  · exact hkept
  split <;> rename_i heq
  · have htaken := take_sheds (a := { a with timeoutRequests :=
      (a.timeoutRequests.filter fun request => request.connection ≠ connection) }) heq
    exact hkept.trans htaken
  · have htaken := take_sheds (a := { a with timeoutRequests :=
      (a.timeoutRequests.filter fun request => request.connection ≠ connection) }) heq
    exact hkept.trans htaken

theorem load_evict (ids : List MemberId) (a : RoomActor) : (a.evict ids).1.load = a.load := by
  induction ids generalizing a with
  | nil => rfl
  | cons id rest ih =>
      unfold evict
      split
      · exact ih a
      · exact ih _

theorem load_queueMembersGone (a : RoomActor) (gone : List MemberId) (eventType : UInt8) :
    (a.queueMembersGone P gone eventType).load = a.load := by
  obtain ⟨sequence, held, heq, -⟩ := queueMembersGone_eq (P := P) a gone eventType
  rw [heq]
  rfl

theorem onEpochTimeout_sheds : a.load.Sheds (a.onEpochTimeout P rng).1.load := by
  unfold onEpochTimeout
  split
  · exact .refl _
  rename_i pending _
  split
  · exact .refl _
  dsimp only
  split
  · exact closeRoom_sheds (a := { a with pendingEpoch := none })
  have hevict := load_evict pending.awaiting { a with pendingEpoch := none }
  have hbegin := (load_beginEpochTransition P rng _).trans hevict
  split
  · rename_i heq
    rw [heq] at hbegin
    rw [hbegin]
    exact .refl _
  · rename_i heq
    rw [heq] at hbegin
    have hgone := fun b : RoomActor => load_queueMembersGone (P := P) b
      ({ a with pendingEpoch := none }.evict pending.awaiting).2.2 msgMemberLeft
    have hload := (hgone _).trans hbegin
    unfold queueMembersGone at hload
    rw [hload]
    exact .refl _

/-! ### Answers to requests -/

theorem onEpochAck_sheds (connection : ConnectionId) (epoch : Nat) :
    a.load.Sheds (a.onEpochAck connection epoch).1.load := by
  unfold onEpochAck
  split
  · exact .refl _
  split
  · exact .refl _
  split
  · exact .refl _
  dsimp only
  split
  · exact .refl _
  split <;> exact .refl _

theorem takeRequest_sheds (requestId : RequestId) :
    a.load.Sheds (a.takeRequest requestId).1.load := by
  unfold takeRequest
  split <;> rename_i heq <;> exact take_sheds heq

theorem admitMember_sheds (connection : ConnectionId) (application : JoinApplication) :
    a.load.Sheds (a.admitMember P rng connection application).1.load := by
  unfold admitMember
  split
  · rename_i members member _
    have hbegin := load_beginEpochTransition P rng { a with
      members
      connections := ((a.connections.register connection).promote connection member.memberId).1 }
    dsimp only
    split <;> rename_i heq <;> rw [heq] at hbegin
    · rw [hbegin]
      exact .refl _
    · change a.load.Sheds (load _)
      exact hbegin ▸ .refl _
  · exact .refl _

theorem onAccept_sheds (requestId : RequestId) :
    a.load.Sheds (a.onAccept P rng requestId).1.load := by
  unfold onAccept
  split
  · exact sheds_withdrawn List.eraseP_sublist
  have htaken := takeRequest_sheds (a := a) requestId
  split <;> rename_i heq <;> rw [heq] at htaken
  · exact htaken
  · exact htaken.trans (admitMember_sheds _ _)

theorem onReject_sheds (requestId : RequestId) :
    a.load.Sheds (a.onReject requestId).1.load := by
  unfold onReject
  split
  · exact sheds_withdrawn List.eraseP_sublist
  have htaken := takeRequest_sheds (a := a) requestId
  split <;> rename_i heq <;> rw [heq] at htaken
  · exact htaken
  · exact htaken

theorem onNewId_sheds : a.load.Sheds (a.onNewId rng).1.load := by
  unfold onNewId
  split
  · exact .refl _
  · exact ⟨rfl, Nat.add_le_add_right (Nat.zero_le _) _⟩

theorem setPolicy_sheds (policy : JoinPolicy) : a.load.Sheds (a.setPolicy P policy).1.load := by
  unfold setPolicy
  cases policy
  · exact .refl _
  · exact ⟨rfl, Nat.add_le_add_right (Nat.zero_le _) _⟩

theorem onHostCommand_sheds (command : HostCommand) :
    a.load.Sheds (a.onHostCommand P rng command).1.load := by
  cases command with
  | kick target => exact onKick_sheds target
  | newId => exact onNewId_sheds
  | reqOn => exact setPolicy_sheds .opened
  | reqOff => exact setPolicy_sheds .locked
  | requests => exact .refl _
  | accept requestId => exact onAccept_sheds requestId
  | reject requestId => exact onReject_sheds requestId

theorem onMemberCommand_sheds (connection : ConnectionId) (command : MemberCommand) :
    a.load.Sheds (a.onMemberCommand P rng connection command).1.load := by
  cases command with
  | leave => exact onLeave_sheds connection
  | color color =>
      unfold onMemberCommand onColor
      dsimp only
      split
      · exact .refl _
      split <;> exact .refl _
  | list => exact .refl _
  | whois target =>
      unfold onMemberCommand
      dsimp only
      split <;> exact .refl _

/-! ### New requests -/

theorem Load.Sheds.holds {x y : Load} (h : x.Sheds y) : x.Holds y :=
  ⟨h.limit, Nat.le_trans h.pending (Nat.le_max_left _ _)⟩

/-- A timeout request is checked against the sum. -/
theorem onTimeoutRequest_holds (connection : ConnectionId) (senderId : MemberId)
    (plaintext : Bytes) :
    a.load.Holds (a.onTimeoutRequest connection senderId plaintext).1.load := by
  unfold onTimeoutRequest
  split
  · exact (Load.Sheds.refl _).holds
  split
  · exact (Load.Sheds.refl _).holds
  dsimp only
  split
  · exact (Load.Sheds.refl _).holds
  split
  · exact (Load.Sheds.refl _).holds
  · rename_i hroom
    refine ⟨rfl, Nat.le_trans ?_ (Nat.le_max_right _ _)⟩
    simp only [load, pending, JoinRequestQueue.allocateId, List.length_append,
      List.length_singleton]
    omega

theorem onPlaintext_holds (connection : ConnectionId) (senderId : MemberId) (messageType : UInt8)
    (envelope : EncryptedEnvelope) (plaintext : Bytes) :
    a.load.Holds (a.onPlaintext connection senderId messageType envelope plaintext).1.load := by
  unfold onPlaintext
  split
  · split
    · split <;> exact (Load.Sheds.refl _).holds
    · exact (Load.Sheds.refl _).holds
  split
  · exact onTimeoutRequest_holds connection senderId plaintext
  split
  · split
    · exact (Load.Sheds.refl _).holds
    · split <;> exact (Load.Sheds.refl _).holds
  · split
    · exact (Load.Sheds.refl _).holds
    · split <;> exact (Load.Sheds.refl _).holds

theorem onEnvelope_holds (connection : ConnectionId) (senderId : MemberId) (messageType : UInt8)
    (envelope : EncryptedEnvelope) :
    a.load.Holds (a.onEnvelope P connection senderId messageType envelope).1.load := by
  unfold onEnvelope
  split
  · exact (Load.Sheds.refl _).holds
  split
  · exact (Load.Sheds.refl _).holds
  split
  · exact (Load.Sheds.refl _).holds
  · exact onPlaintext_holds (a := { a with
      chatReplay := (a.chatReplay.accept senderId a.epoch envelope.senderSequence).1 })
      connection senderId messageType envelope _

theorem onRateLimited_sheds (connection : ConnectionId) (senderId : MemberId) (abusive : Bool) :
    a.load.Sheds (a.onRateLimited P rng connection senderId abusive).1.load := by
  unfold onRateLimited
  split
  · exact .refl _
  dsimp only
  split
  · split <;> rename_i heq <;> exact sheds_of_removal heq
  · exact .refl _

theorem onChatReceived_holds (connection : ConnectionId) (messageType : UInt8)
    (envelope : EncryptedEnvelope) :
    a.load.Holds (a.onChatReceived P rng connection messageType envelope).1.load := by
  unfold onChatReceived
  split
  · exact (Load.Sheds.refl _).holds
  split
  · exact (Load.Sheds.refl _).holds
  rename_i senderId _
  split
  · exact (Load.Sheds.refl _).holds
  split
  · exact (Load.Sheds.refl _).holds
  split
  · exact onEnvelope_holds connection _ messageType envelope
  have hcharge : (a.chargeRateLimit senderId).1.load = a.load := rfl
  rw [← hcharge]
  generalize a.chargeRateLimit senderId = charge
  obtain ⟨b, allowed, abusive⟩ := charge
  dsimp only
  split
  · exact onEnvelope_holds connection _ messageType envelope
  · exact (onRateLimited_sheds connection _ abusive).holds

/-- A join request is checked against the join requests alone. -/
theorem onJoinRequested_load (connection : ConnectionId) (application : JoinApplication) :
    (a.onJoinRequested connection application).1.load =
      if a.policy.allowsJoinRequests = true ∧
          (∃ entry, a.connections.get connection = some entry ∧ entry.passwordVerified = true ∧
            entry.role = .admission) ∧
          a.requests.requests.length < a.requests.limit then
        ⟨a.requests.limit, a.pending + 1⟩
      else a.load := by
  unfold onJoinRequested
  split
  · rename_i hlocked
    rw [if_neg fun h => hlocked h.1]
  rename_i hpolicy
  split
  · rename_i hunknown
    rw [if_neg]
    rintro ⟨-, ⟨entry, hentry, -⟩, -⟩
    cases hunknown.symm.trans hentry
  rename_i entry hentry
  split
  · rename_i hstage
    rw [if_neg]
    rintro ⟨-, ⟨entry', hentry', hverified, hrole⟩, -⟩
    cases hentry.symm.trans hentry'
    exact hstage.elim (fun h => h hverified) fun h => h hrole
  rename_i hstage
  rw [not_or, not_not, not_not] at hstage
  have hasks : ∃ entry, a.connections.get connection = some entry ∧
      entry.passwordVerified = true ∧ entry.role = .admission := ⟨entry, hentry, hstage⟩
  unfold JoinRequestQueue.push
  split
  · rename_i heq
    split at heq
    · rename_i hfull
      cases heq
      rw [if_neg fun h => Nat.not_le.mpr h.2.2 hfull]
    · cases heq
  · rename_i heq
    split at heq
    · cases heq
    · rename_i hroom
      cases heq
      rw [if_pos ⟨not_not.mp hpolicy, hasks, Nat.not_le.mp hroom⟩]
      have hpending : ∀ q : JoinRequest,
          (a.requests.requests ++ [q]).length + a.timeoutRequests.length = a.pending + 1 := by
        intro q
        simp only [pending, List.length_append, List.length_singleton]
        omega
      split
      · exact congrArg (Load.mk _) (hpending _)
      · exact congrArg (Load.mk _) (hpending _)

/-! ### Events -/

theorem handleInTransition_holds (event : RoomEvent) :
    a.load.Holds (a.handleInTransition P rng event).1.load := by
  cases event with
  | epochAck connection epoch => exact (onEpochAck_sheds connection epoch).holds
  | connectionLost connection => exact (onConnectionLost_sheds connection).holds
  | timeoutExpired connection kind =>
      unfold handleInTransition
      dsimp only
      split
      · exact onEpochTimeout_sheds.holds
      · exact (onConnectionLost_sheds connection).holds
  | epochMaintenance => exact onEpochTimeout_sheds.holds
  | closeRequested | torStopped => exact closeRoom_sheds.holds
  | hostCommand command => cases command <;> exact (Load.Sheds.refl _).holds
  | chatReceived connection messageType envelope =>
      unfold handleInTransition
      dsimp only
      split
      · exact onChatReceived_holds connection messageType envelope
      · unfold rejectDuringTransition
        split
        · exact (Load.Sheds.refl _).holds
        · split <;> exact (Load.Sheds.refl _).holds
  | _ => exact (Load.Sheds.refl _).holds

theorem handleSettled_holds (hrest : a.AtRest) (event : RoomEvent) (h : ¬ a.Overfills event) :
    a.load.Holds (a.handleSettled P rng event).1.load := by
  cases event with
  | clientConnected _ | passwordVerified _ | epochMaintenance => exact (Load.Sheds.refl _).holds
  | epochAck connection epoch => exact (onEpochAck_sheds connection epoch).holds
  | joinRequested connection application =>
      change a.load.Holds (a.onJoinRequested connection application).1.load
      rw [onJoinRequested_load]
      split
      · rename_i hpushed
        refine ⟨rfl, Nat.le_trans ?_ (Nat.le_max_right _ _)⟩
        apply Nat.lt_of_not_le
        exact fun hfull => h ⟨hrest, hpushed.1, hpushed.2.1, hpushed.2.2, hfull⟩
      · exact (Load.Sheds.refl _).holds
  | hostCommand command => exact (onHostCommand_sheds command).holds
  | memberCommand connection command => exact (onMemberCommand_sheds connection command).holds
  | hostAccepted requestId => exact (onAccept_sheds requestId).holds
  | hostRejected requestId => exact (onReject_sheds requestId).holds
  | connectionLost connection => exact (onConnectionLost_sheds connection).holds
  | timeoutExpired connection kind => exact (onConnectionLost_sheds connection).holds
  | memberLeft memberId => exact (onMemberLeft_sheds memberId).holds
  | chatReceived connection messageType envelope =>
      exact onChatReceived_holds connection messageType envelope
  | torStopped | closeRequested => exact closeRoom_sheds.holds

/-- Whether a step overfills is decided before it. -/
theorem handle_load (a : RoomActor) (input : Input) :
    (a.handle P input).1.requests.limit = a.requests.limit ∧
      (¬ a.Overfills input.event → (a.handle P input).1.pending ≤ max a.pending a.requests.limit) ∧
      (a.Overfills input.event → a.requests.limit < (a.handle P input).1.pending) := by
  by_cases h : a.Overfills input.event
  · obtain ⟨event, now, answers⟩ := input
    cases event with
    | joinRequested connection application =>
        obtain ⟨hrest, hpolicy, hentry, hroom, hfull⟩ := h
        have hload := onJoinRequested_load (a := { a with now }) connection application
        rw [if_pos ⟨hpolicy, hentry, hroom⟩] at hload
        have hhandle : a.handle P ⟨.joinRequested connection application, now, answers⟩ =
            { a with now }.onJoinRequested connection application := by
          unfold handle handleEventAt
          dsimp only
          rw [if_neg fun hclosed => hclosed.elim hrest.1 hrest.2.1, if_neg hrest.2.2]
          rfl
        rw [hhandle]
        refine ⟨congrArg Load.limit hload, fun hnot => absurd ?_ hnot, fun _ => ?_⟩
        · exact ⟨hrest, hpolicy, hentry, hroom, hfull⟩
        · have hpending := congrArg Load.pending hload
          change _ = a.pending + 1 at hpending
          change a.requests.limit < Load.pending (load _)
          rw [hpending]
          exact Nat.lt_succ_of_le hfull
    | _ => exact absurd h not_false
  · have hholds : a.load.Holds (a.handle P input).1.load := by
      unfold handle handleEventAt
      dsimp only
      split
      · exact (Load.Sheds.refl _).holds
      rename_i hopen
      split
      · exact handleInTransition_holds (a := { a with now := input.now }) input.event
      · rename_i hstate
        exact handleSettled_holds (a := { a with now := input.now })
          (AtRest.of_open hopen hstate) input.event h
    exact ⟨hholds.limit, fun _ => hholds.pending, fun hover => absurd hover h⟩

section
variable {setup : Setup} {a₀ : RoomActor} {started : List RoomAction} {past : Past}

/-- The requests of both kinds stay within the cap of a run exactly when it accepts no join
request at the cap. -/
theorem pending_cap_iff (hstart : Started P setup a₀ started)
    (run : Run P Unconstrained a₀ past a) :
    (a₀.pending ≤ setup.limits.maxPendingRequests ∧
        ∀ entry ∈ past, entry.after.pending ≤ setup.limits.maxPendingRequests) ↔
      ∀ entry ∈ past, ¬ entry.before.Overfills entry.input.event := by
  obtain ⟨nickname, sessionId, token, key, wraps, hopening⟩ := hstart.opening
  have hempty : a₀.pending = 0 := by
    rw [hopening.actor]
    rfl
  suffices h : a.requests.limit = setup.limits.maxPendingRequests ∧
      ((∀ entry ∈ past, entry.after.pending ≤ setup.limits.maxPendingRequests) →
        a.pending ≤ setup.limits.maxPendingRequests) ∧
      ((∀ entry ∈ past, entry.after.pending ≤ setup.limits.maxPendingRequests) ↔
        ∀ entry ∈ past, ¬ entry.before.Overfills entry.input.event) by
    rw [hempty, ← h.2.2]
    exact and_iff_right (Nat.zero_le _)
  induction run with
  | start =>
      refine ⟨?_, fun _ => hempty ▸ Nat.zero_le _, by simp⟩
      rw [hopening.actor]
      rfl
  | @step past a input run _ ih =>
      obtain ⟨hlimit, hcapped, hiff⟩ := ih
      obtain ⟨hsame, hholds, hover⟩ := handle_load (P := P) a input
      refine ⟨hsame.trans hlimit, fun hall => hall _ (.head _), ?_⟩
      rw [List.forall_mem_cons, List.forall_mem_cons, ← hiff, and_comm, @and_comm (¬ _)]
      refine and_congr_right fun hall => ⟨fun hstep hoverfills => ?_, fun hnot => ?_⟩
      · have hexceeds := hover hoverfills
        rw [hlimit] at hexceeds
        exact absurd hstep (Nat.not_le.mpr hexceeds)
      · have hkept := hholds hnot
        rw [hlimit, Nat.max_eq_right (hcapped hall)] at hkept
        exact hkept

end
end RoomActor

/-! ### The symbolic room -/

namespace Symbolic
open RoomActor

/-- What a connection does to ask to join. -/
def knocking (connection : Nat) : List RoomEvent :=
  [.clientConnected connection, .passwordVerified connection, .joinRequested connection application]

/-- The guest joins and asks for a timeout, and then these connections ask to join. -/
def crowded (connections : List Nat) : Past × RoomActor :=
  script primitives room <|
    (RoomEvent.epochAck 0 1 :: (knocking 1 ++ (RoomEvent.hostAccepted 0 :: .epochAck 1 2 ::
      .epochAck 0 2 :: .chatReceived 1 msgTimeoutRequest timeoutRequest ::
        connections.flatMap knocking))).map fun event => ⟨event, 0, rng 11⟩

theorem crowded_run (connections : List Nat) :
    Run primitives Unconstrained room (crowded connections).1 (crowded connections).2 :=
  unconstrained_script room _

end Symbolic

namespace RoomActor
open Symbolic

/-- A timeout request and one join request are within the cap. -/
theorem pending_cap_iff_crowded :
    (crowded [2]).2.pending = 2 ∧
      ∀ entry ∈ (crowded [2]).1, ¬ entry.before.Overfills entry.input.event :=
  ⟨by decide +kernel, (pending_cap_iff room_started (crowded_run [2])).mp (by decide +kernel)⟩

/-- Eight join requests after it are not. -/
theorem pending_beyond_cap :
    ∃ past a, Run primitives Unconstrained room past a ∧
      setup.limits.maxPendingRequests = 8 ∧ a.pending = 9 :=
  ⟨_, _, crowded_run [2, 3, 4, 5, 6, 7, 8, 9], rfl, by decide +kernel⟩

end RoomActor

end Veilroom
