import Veilroom.Room.Abuse

/-!
Which errors refuse an envelope as such.

An envelope that opens under the key of the room, with a number the room has not
seen, is not refused for its epoch, its number, its key or its signature; what
may still be wrong with it is what it says, or how many came before.
-/
namespace Veilroom

/-- An envelope is refused for its epoch, its number, its key or its signature. -/
def RoomError.refusesEnvelope : RoomError → Bool
  | .oldEpoch _ _ | .replayRejected _ _ => true
  | .chat .noEpochKey | .chat .invalidSignature | .chat .invalidCiphertext => true
  | .chat (.oldEpoch _ _) | .chat (.replayRejected _ _) => true
  | _ => false

namespace RoomActor
variable {P : Primitives} {rng : Rng} {a : RoomActor} {m : Member} {error : RoomError}

theorem wrapAll_unblamed {key : Key} {i : Nat} {members : List Member}
    (h : a.wrapAll P rng key i members = .error error) : error.refusesEnvelope = false := by
  induction members generalizing i with
  | nil => cases h
  | cons member rest ih =>
      unfold wrapAll at h
      split at h
      · rename_i hwrap
        cases h
        unfold wrapFor at hwrap
        repeat' split at hwrap
        all_goals cases hwrap
        all_goals rfl
      · split at h
        · rename_i hrest
          cases h
          exact ih hrest
        · cases h

theorem removeMember_unblamed (h : a.registry.Valid) {id : MemberId} {eventType : UInt8}
    (herror : (a.removeMember P rng id eventType).2 = .error error) :
    error.refusesEnvelope = false := by
  obtain ⟨-, heq⟩ | ⟨-, heq⟩ | ⟨m, -, -, -, ⟨failure, hbegin, heq⟩ | ⟨key, wraps, -, heq⟩⟩ :=
    removeMember_cases P rng h id eventType
  · rw [heq] at herror
    cases herror
    rfl
  · rw [heq] at herror
    cases herror
  · rw [heq] at herror
    cases herror
    unfold beginEpochTransition at hbegin
    dsimp only at hbegin
    split at hbegin
    · cases hbegin
      rfl
    split at hbegin
    · rename_i hwraps
      cases hbegin
      exact wrapAll_unblamed hwraps
    · cases congrArg Prod.snd hbegin
  · rw [heq] at herror
    cases herror

theorem onRateLimited_unblamed (h : a.registry.Valid) {connection : ConnectionId} {id : MemberId}
    {abusive : Bool} (herror : (a.onRateLimited P rng connection id abusive).2 = .error error) :
    error.refusesEnvelope = false := by
  unfold onRateLimited at herror
  split at herror
  · cases herror
    rfl
  dsimp only at herror
  split at herror
  · split at herror
    · rename_i hremoved
      cases herror
      exact removeMember_unblamed h (by rw [hremoved])
    · cases herror
    · cases herror
  · cases herror

theorem timeoutSetting_unblamed {plaintext : Bytes} (h : timeoutSetting plaintext = .error error) :
    error.refusesEnvelope = false := by
  unfold timeoutSetting at h
  dsimp only at h
  repeat' split at h
  all_goals cases h
  all_goals rfl

theorem onPlaintext_unblamed {connection : ConnectionId} {id : MemberId} {messageType : UInt8}
    {envelope : EncryptedEnvelope} {plaintext : Bytes}
    (herror : (a.onPlaintext connection id messageType envelope plaintext).2 = .error error) :
    error.refusesEnvelope = false := by
  unfold onPlaintext onTimeoutRequest at herror
  dsimp only at herror
  repeat' split at herror
  all_goals cases herror
  all_goals first
    | rfl
    | exact timeoutSetting_unblamed (by assumption)

theorem rejectDuringTransition_unblamed {connection : ConnectionId}
    (herror : (a.rejectDuringTransition connection).2 = .error error) :
    error.refusesEnvelope = false := by
  unfold rejectDuringTransition at herror
  split at herror
  · cases herror
  split at herror
  · cases herror
    rfl
  · cases herror

/-- An envelope that opens, fresh and of the current epoch, is not refused as such. -/
theorem onChatReceived_unblamed (h : a.registry.Valid) (hm : m ∈ a.members.members)
    {messageType : UInt8} {envelope : EncryptedEnvelope} {plaintext : Bytes}
    (hepoch : envelope.epoch = a.epoch)
    (hfresh : a.chatReplay.Fresh m.memberId a.epoch envelope.senderSequence)
    (hopened : a.chatPlaintext P m.memberId messageType envelope = .ok plaintext)
    (herror : (a.onChatReceived P rng m.connection messageType envelope).2 = .error error) :
    error.refusesEnvelope = false := by
  have henvelope {b : RoomActor} (hbepoch : b.epoch = a.epoch)
      (hbreplay : b.chatReplay = a.chatReplay)
      (hbopened : b.chatPlaintext P m.memberId messageType envelope = .ok plaintext)
      (herror : (b.onEnvelope P m.connection m.memberId messageType envelope).2 = .error error) :
      error.refusesEnvelope = false := by
    unfold onEnvelope at herror
    rw [if_neg (by rw [hbepoch, hepoch]; simp),
      if_neg (by rw [hbepoch, hbreplay]; simpa using hfresh), hbopened] at herror
    exact onPlaintext_unblamed herror
  unfold onChatReceived at herror
  split at herror
  · cases herror
    rfl
  rw [show a.connections.memberId m.connection = some m.memberId from h.member_entry m hm]
    at herror
  dsimp only at herror
  split at herror
  · cases herror
    rfl
  split at herror
  · cases herror
    rfl
  split at herror
  · exact henvelope rfl rfl hopened herror
  split at herror
  · exact henvelope (b := (a.chargeRateLimit m.memberId).1) rfl rfl hopened herror
  · exact onRateLimited_unblamed (a := (a.chargeRateLimit m.memberId).1) h herror

end RoomActor

end Veilroom
