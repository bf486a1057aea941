import Veilroom.Room.Epochs

/-!
A transition is restarted only by a departure.

Whatever arrives while the keys rotate, the epoch stays the one being moved to
unless the event is one of those `departing` lists.
-/
namespace Veilroom
namespace RoomActor
variable {P : Primitives} {rng : Rng} {a : RoomActor} {started : List RoomAction} {past : Past}

theorem onPlaintext_epoch (connection : ConnectionId) (senderId : MemberId) (messageType : UInt8)
    (envelope : EncryptedEnvelope) (plaintext : Bytes) :
    (a.onPlaintext connection senderId messageType envelope plaintext).1.epoch = a.epoch := by
  unfold onPlaintext
  split
  · split
    · split <;> rfl
    · rfl
  split
  · unfold onTimeoutRequest
    split
    · rfl
    split
    · rfl
    dsimp only
    split
    · rfl
    split <;> rfl
  split
  · split
    · rfl
    split <;> rfl
  split
  · rfl
  split <;> rfl

theorem onEnvelope_epoch (connection : ConnectionId) (senderId : MemberId) (messageType : UInt8)
    (envelope : EncryptedEnvelope) :
    (a.onEnvelope P connection senderId messageType envelope).1.epoch = a.epoch := by
  unfold onEnvelope
  split
  · rfl
  split
  · rfl
  split
  · rfl
  · exact onPlaintext_epoch _ _ _ _ _

theorem closeRoom_epoch : a.closeRoom.1.epoch = a.epoch := by
  unfold closeRoom
  split <;> rfl

theorem onChatReceived_epoch {connection : ConnectionId} {messageType : UInt8}
    {envelope : EncryptedEnvelope} (hacked : a.memberHasAckedPendingEpoch connection = true)
    (h : a.departing (.chatReceived connection messageType envelope) = []) :
    (a.onChatReceived P rng connection messageType envelope).1.epoch = a.epoch := by
  unfold onChatReceived
  split
  · rfl
  rename_i htype
  rw [not_not] at htype
  cases hknown : a.connections.memberId connection with
  | none => rfl
  | some senderId =>
      dsimp only
      split
      · rfl
      rename_i hsender
      rw [not_not] at hsender
      split
      · rfl
      split
      · exact onEnvelope_epoch _ _ _ _
      rename_i hchanged
      have hspared : senderId = 0 ∨ (a.chargeRateLimit senderId).2.2 = false := by
        by_contra hcharged
        rw [not_or, Bool.not_eq_false] at hcharged
        rw [departing, hknown] at h
        dsimp only at h
        rw [if_pos ⟨hacked, htype, hsender, hcharged.1, hchanged, hcharged.2⟩] at h
        cases h
      have hepoch : (a.chargeRateLimit senderId).1.epoch = a.epoch := rfl
      generalize a.chargeRateLimit senderId = charged at hspared hepoch
      obtain ⟨b, allowed, abusive⟩ := charged
      dsimp only at hspared hepoch ⊢
      rw [← hepoch]
      split
      · exact onEnvelope_epoch _ _ _ _
      unfold onRateLimited
      split
      · rfl
      dsimp only
      split
      · rename_i habusive
        obtain rfl | hspared := hspared
        · rfl
        · rw [hspared] at habusive
          cases habusive
      · rfl

theorem onConnectionLost_epoch (hvalid : a.registry.Valid) {connection : ConnectionId}
    (h : departing.lost a connection = []) :
    (a.onConnectionLost P rng connection).1.epoch = a.epoch := by
  unfold onConnectionLost
  split
  · exact closeRoom_epoch
  rename_i hhost
  rw [departing.lost, if_neg hhost, Option.toList_eq_nil_iff] at h
  have hnobody : a.members.byConnection connection = none := by
    cases hfind : a.members.byConnection connection with
    | none => rfl
    | some m =>
        have hm : m ∈ a.members.members := List.mem_of_find?_eq_some hfind
        have hconn : m.connection = connection := by simpa using List.find?_some hfind
        have hentry := hvalid.member_entry m hm
        rw [hconn, show a.registry.connections.memberId connection = none from h] at hentry
        cases hentry
  dsimp only
  rw [h, hnobody]
  split
  · rename_i hsome
    cases hsome
  split
  · rfl
  split <;> rfl

theorem onEpochTimeout_epoch {p : PendingEpoch} (hpending : a.pendingEpoch = some p)
    (hawaited : p.awaiting ≠ [])
    (hawaiting : ∀ id ∈ p.awaiting, ∃ m ∈ a.members.members, m.memberId = id)
    (h : departing.late a = []) : (a.onEpochTimeout P rng).1.epoch = a.epoch := by
  rw [departing.late, hpending] at h
  unfold onEpochTimeout
  rw [hpending]
  dsimp only at h ⊢
  split
  · rfl
  rename_i hlate
  rw [if_neg hlate] at h
  split
  · exact closeRoom_epoch
  rename_i hzero
  rw [if_neg hzero, List.filter_eq_nil_iff] at h
  obtain ⟨id, hid⟩ := List.exists_mem_of_ne_nil _ hawaited
  obtain ⟨m, hm, rfl⟩ := hawaiting id hid
  refine absurd ?_ (h _ hid)
  rw [MemberTable.byId, List.find?_isSome]
  exact ⟨m, hm, by simp⟩

/-- In a transition, another epoch begins only with a departure. -/
theorem Transitioning.same_epoch {p : PendingEpoch} (h : Transitioning P started past a p)
    (hvalid : a.registry.Valid) {input : Input}
    (hnone : departing { a with now := input.now } input.event = []) :
    (a.handle P input).1.epoch = a.epoch := by
  have hlost (connection : ConnectionId)
      (hnone : departing.lost { a with now := input.now } connection = []) :
      (onConnectionLost P input.rng { a with now := input.now } connection).1.epoch = a.epoch :=
    onConnectionLost_epoch (a := { a with now := input.now }) hvalid hnone
  have hlate (hnone : departing.late { a with now := input.now } = []) :
      (onEpochTimeout P input.rng { a with now := input.now }).1.epoch = a.epoch :=
    onEpochTimeout_epoch (a := { a with now := input.now }) h.pending h.awaited h.awaiting hnone
  unfold handle handleEventAt
  dsimp only
  rw [if_neg (by rw [h.state]; nofun), if_pos h.state]
  generalize input.event = event at hnone
  unfold handleInTransition
  split
  · exact (onEpochAck_frame _ _).2
  · exact hlost _ hnone
  · split
    · rename_i hkind
      exact hlate (by rwa [departing, if_pos hkind] at hnone)
    · rename_i hkind
      exact hlost _ (by rwa [departing, if_neg hkind] at hnone)
  · exact hlate hnone
  · exact closeRoom_epoch
  · exact closeRoom_epoch
  · rfl
  · split
    · rename_i hacked
      exact onChatReceived_epoch hacked hnone
    · unfold rejectDuringTransition
      split
      · rfl
      · split <;> rfl
  · rfl

end RoomActor

end Veilroom
