import Veilroom.System.Attuned

/-!
Every member has recorded at most what the room has.

A session records an envelope only when it opens it, and all it opens the room
has relayed. So what is fresh to the room is fresh to everyone in it.
-/
namespace Veilroom

namespace ReplayTracker
variable {t t' t'' : ReplayTracker} {epoch sequence : Nat} {sender : MemberId}

/-- `t` has nothing of a later epoch, and of `epoch` nothing that `t'` has not reached. -/
def Trails (epoch : Nat) (t t' : ReplayTracker) : Prop :=
  ∀ id e last, t.lastAccepted id e = some last →
    e ≤ epoch ∧ (e = epoch → ∃ top, t'.lastAccepted id e = some top ∧ last ≤ top)

theorem Trails.fresh (h : Trails epoch t t') (hfresh : t'.Fresh sender epoch sequence) :
    t.Fresh sender epoch sequence := by
  intro last hlast
  obtain ⟨top, htop, hle⟩ := (h sender epoch last hlast).2 rfl
  exact Nat.lt_of_le_of_lt hle (hfresh top htop)

theorem Trails.grow (h : Trails epoch t t') (hfresh : t'.Fresh sender epoch sequence) :
    Trails epoch t (t'.record sender epoch sequence) := by
  intro id e last hlast
  refine ⟨(h id e last hlast).1, fun he => ?_⟩
  obtain ⟨top, htop, hle⟩ := (h id e last hlast).2 he
  rw [lastAccepted_record]
  split
  · rename_i hself
    rw [hself.1, hself.2] at htop
    exact ⟨sequence, rfl, Nat.le_trans hle (Nat.le_of_lt (hfresh top htop))⟩
  · exact ⟨top, htop, hle⟩

theorem Trails.record (h : Trails epoch t t') :
    Trails epoch (t.record sender epoch sequence) (t'.record sender epoch sequence) := by
  intro id e last hlast
  rw [lastAccepted_record] at hlast ⊢
  split at hlast
  · rename_i hself
    cases hlast
    rw [if_pos hself]
    exact ⟨Nat.le_of_eq hself.2, fun _ => ⟨_, rfl, Nat.le_refl _⟩⟩
  · rename_i hself
    rw [if_neg hself]
    exact h id e last hlast

/-- Trackers that move on to the next epoch have nothing of it. -/
theorem Trails.retainEpoch (h : Trails epoch t t') :
    Trails (epoch + 1) (t.retainEpoch (epoch + 1)) t'' := by
  intro id e last hlast
  rw [lastAccepted_retainEpoch] at hlast
  split at hlast
  · rename_i he
    have hle := (h id e last hlast).1
    rw [he] at hle
    exact absurd hle (Nat.not_succ_le_self epoch)
  · cases hlast

theorem trails_retainEpoch_new (epoch e : Nat) (t' : ReplayTracker) :
    Trails epoch (new.retainEpoch e) t' := by
  intro id e' last hlast
  rw [lastAccepted_retainEpoch] at hlast
  split at hlast <;> cases hlast

end ReplayTracker

namespace ChatSession
variable {P : Primitives} {own : MemberIdentity} {s : ChatSession}

theorem replay_consume_of_isMembership {message : Message} (h : message.isMembership = true) :
    (s.consume P own message).replay = s.replay := by
  by_cases hadmits : Admits P s message
  · rw [consume_of_admits hadmits]
    rfl
  · rw [consume_of_not_admits h hadmits]

theorem replay_foldl_consume {messages : List Message}
    (h : ∀ message ∈ messages, message.isMembership = true) :
    (messages.foldl (ChatSession.consume P own) s).replay = s.replay := by
  induction messages generalizing s with
  | nil => rfl
  | cons message rest ih =>
      rw [List.forall_mem_cons] at h
      rw [List.foldl_cons, ih h.2, replay_consume_of_isMembership h.1]

theorem replay_openMessage (messageType : UInt8) (envelope : EncryptedEnvelope) :
    (s.openMessage P messageType envelope).1.replay = s.replay ∨
      (s.openMessage P messageType envelope).1.replay =
        s.replay.record envelope.senderId envelope.epoch envelope.senderSequence := by
  obtain ⟨error, heq⟩ | ⟨_, _, _, _, _, _, _, heq⟩ :=
    openMessage_cases (P := P) (s := s) messageType envelope
  · exact .inl (by rw [heq])
  · exact .inr (by rw [heq])

theorem replay_applyColor (s : ChatSession) (id : MemberId) (color : ColorChoice) :
    (ClientAdmission.applyColor s id color).replay = s.replay := by
  unfold ClientAdmission.applyColor
  split <;> rfl

/-- A relayed envelope is recorded, or nothing is. -/
theorem replay_consume_relayed (messageType : UInt8) (envelope : EncryptedEnvelope) :
    (s.consume P own (RoomActor.relayed messageType envelope)).replay = s.replay ∨
      (s.consume P own (RoomActor.relayed messageType envelope)).replay =
        s.replay.record envelope.senderId envelope.epoch envelope.senderSequence := by
  unfold RoomActor.relayed
  split
  · have hopened := replay_openMessage (P := P) (s := s) msgColor envelope
    rw [← receiveColor_fst] at hopened
    simp only [consume, consumeColor]
    generalize s.receiveColor P envelope = result at hopened
    obtain ⟨t, error | color⟩ := result
    · exact hopened
    · dsimp only
      rw [replay_applyColor]
      exact hopened
  split
  · simp only [consume]
    by_cases hsender : envelope.senderId = 0
    · rw [receiveTimeoutChanged_fst hsender]
      exact replay_openMessage msgTimeoutChanged envelope
    · rw [receiveTimeoutChanged, if_pos hsender]
      exact .inl rfl
  · simp only [consume, receiveChat_fst]
    exact replay_openMessage msgChat envelope

end ChatSession

namespace RoomActor
variable {P : Primitives} {rng : Rng} {own : MemberIdentity} {a a' b : RoomActor}
variable {event : RoomEvent} {s s' : ChatSession} {n m : Member}
variable {identity : ConnectionId → MemberIdentity} {started : List RoomAction} {past : Past}

/-- The session has recorded only what the room has. -/
def Synced (a : RoomActor) (s : ChatSession) : Prop := s.replay.Trails a.epoch a.chatReplay

theorem Turn.synced (law : P.Lawful) (hattuned : Attuned P a n s) (h : Synced a s)
    (hid : n.memberId = m.memberId) (hkey : ∃ key, a.currentKey = some (a.epoch, key))
    (hheld : HoldsEvents a) (hown : m.x25519Pubkey = own.x25519Pubkey P)
    (hturn : Turn P rng own a event a' m s s') : Synced a' s' := by
  unfold Synced at h ⊢
  cases hturn with
  | idle hunmoved hreplay =>
      rw [hunmoved.epoch]
      obtain heq | ⟨sender, sequence, hfresh, heq⟩ := hreplay
      · rw [heq]
        exact h
      · rw [heq]
        exact h.grow hfresh
  | @relayed _ _ messageType envelope _ _ hrelays hunmoved hreplay =>
      rw [hunmoved.epoch, hreplay]
      have hcases :
          (s.consume P own (RoomActor.relayed messageType envelope)).replay = s.replay ∨ _ :=
        ChatSession.replay_consume_relayed messageType envelope
      obtain heq | heq := hcases
      · rw [heq]
        exact h.grow hrelays.fresh
      · rw [heq, hrelays.senderId, hrelays.epoch]
        exact h.record
  | @policySet notice _ hunmoved hreplay =>
      rw [hunmoved.epoch, hreplay]
      have hcases : s.consume P own (.joinPolicyChanged notice) = s ∨ _ :=
        ChatSession.consume_joinPolicyChanged notice
      obtain heq | heq := hcases <;> rw [heq] <;> exact h
  | activated _ hepoch _ _ _ _ hreplay =>
      rw [hepoch, hreplay, ChatSession.replay_foldl_consume]
      · exact h
      · exact fun message hmem => (hheld _ message (mem_sentTo.mp hmem)).1
  | @joined b key _ _ member wrap _ htabled _ _ _ _ hafter _ hof =>
      have hepoch : a'.epoch = a.epoch + 1 := by
        rw [hafter, ← htabled.epoch]
        rfl
      rw [hattuned.wrapped law hof hid hkey hown, hepoch]
      exact h.retainEpoch
  | @departed b key _ gone eventType wrap htabled _ _ _ _ hafter _ hof =>
      obtain ⟨sequence, held, hqueued, -⟩ :=
        queueMembersGone_eq (P := P) (b.rotated key) gone eventType
      have hepoch : a'.epoch = a.epoch + 1 := by
        rw [hafter, hqueued, ← htabled.epoch]
        rfl
      rw [hattuned.wrapped law hof hid hkey hown, hepoch]
      exact h.retainEpoch

section
variable {setup : Setup} {a₀ : RoomActor}

/-- Whatever happens, a member that consumed everything has recorded only what the room has. -/
theorem Run.synced (law : P.Lawful) (hstart : Started P setup a₀ started)
    (hhost : identity setup.hostConnection = setup.hostClientIdentity)
    (run : Run P (Fair P identity) a₀ past a) :
    a.state = .destroyed ∨ ∀ m ∈ a.members.members,
      ∃ s, Seat.heard P setup a₀ identity started past m.connection = some s ∧
        Attuned P a m s ∧ Synced a s := by
  refine run.sessions law hstart hhost (fun _ _ _ fair => fair)
    (fun a m s => Attuned P a m s ∧ Synced a s) ?_ ?_ ?_ ?_
  · exact fun a now m s h => ⟨{ h.1 with }, h.2⟩
  · intro m hm
    obtain ⟨s, hs, hattuned⟩ := hstart.attuned law hhost hm
    obtain ⟨-, key, -, hheard⟩ := hstart.heard law hhost hm
    refine ⟨s, hs, hattuned, ?_⟩
    rw [hs] at hheard
    cases hheard
    exact ReplayTracker.trails_retainEpoch_new _ _ _
  · intro past a input n m s s' hfacing fair hn heq hm _ h hturn
    have hkeys := (hfacing.presented.step law hfacing.facts fair).members m hm
    exact ⟨hturn.attuned law h.1 (Member.memberId_congr heq) hfacing.phase.currentKey hfacing.held
      hkeys.2, hturn.synced law h.1 h.2 (Member.memberId_congr heq) hfacing.phase.currentKey
      hfacing.held hkeys.2⟩
  · intro past a input m wrap hfacing hm _ hidentity hsession henters
    have hkeys := (hfacing.presented.step law hfacing.facts hfacing.fair).members m hm
    rw [← hidentity, ← hsession]
    obtain ⟨key, -, heq⟩ := henters.opened law hkeys.2
    refine ⟨henters.attuned law hkeys.2, ?_⟩
    rw [Synced, show _ = _ from congrArg ChatSession.replay heq]
    exact ReplayTracker.trails_retainEpoch_new _ _ _

end

end RoomActor

end Veilroom
