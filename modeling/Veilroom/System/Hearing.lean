import Veilroom.Admission.Members
import Veilroom.Chat.Atomic
import Veilroom.Room.Separation

/-!
What a member makes of what the room sends it.

A session consumes the messages of its connection one at a time. Only the
membership messages that the room holds back rewrite its table, and whether it
admits one depends on nothing that a chat, a color or a setting changes
(`Alike`).
-/
namespace Veilroom

/-- The entry a session's table has for a member of the room. -/
def Member.toView (m : Member) : MemberView :=
  ⟨m.memberId, m.nickname, m.color, m.isHost, m.ed25519Pubkey⟩

namespace Message

def isMembership : Message → Bool
  | .memberJoined _ | .memberLeft _ | .memberKicked _ | .memberSnapshot _ => true
  | _ => false

/-- The epoch a room event was signed for. -/
def eventEpoch : Message → Option Nat
  | .memberJoined event => some event.epoch
  | .memberLeft event | .memberKicked event => some event.epoch
  | .joinPolicyChanged event => some event.epoch
  | .memberSnapshot event => some event.epoch
  | _ => none

/-- What an admitted membership message makes of a member table. -/
def rewrite : Message → List MemberView → List MemberView
  | .memberJoined event, members => members ++ [event.toView]
  | .memberLeft event, members | .memberKicked event, members =>
    members.filter fun view => view.memberId ≠ event.memberId
  | .memberSnapshot event, _ => event.members.map SnapshotMember.toView
  | _, members => members

end Message

namespace ChatSession

/-- A color that arrives is applied to the entry of its sender. -/
def consumeColor (P : Primitives) (s : ChatSession) (envelope : EncryptedEnvelope) : ChatSession :=
  match s.receiveColor P envelope with
  | (s, .ok color) => ClientAdmission.applyColor s envelope.senderId color
  | (s, .error _) => s

/-- The session once it has consumed one more message of its connection. -/
def consume (P : Primitives) (identity : MemberIdentity) (s : ChatSession) :
    Message → ChatSession
  | .epochWrap wrap => (s.setEpochFromWrap P identity wrap).1
  | .chatMessage envelope => (s.receiveChat P envelope).1
  | .colorChange envelope => s.consumeColor P envelope
  | .timeoutChanged envelope => (s.receiveTimeoutChanged P envelope).1
  | message => (s.handleMembershipMessage P message).1

variable {P : Primitives} {identity : MemberIdentity} {s t : ChatSession} {message : Message}

/-! ### Membership messages -/

/-- What a session asks of a membership message before it rewrites its table. -/
def Admits (P : Primitives) (s : ChatSession) : Message → Prop
  | .memberJoined event => Joins P s event
  | .memberLeft event =>
    Accepts P s event.sequence event.epoch msgMemberLeft (memberGoneBody event.memberId)
      event.signature
  | .memberKicked event =>
    Accepts P s event.sequence event.epoch msgMemberKicked (memberGoneBody event.memberId)
      event.signature
  | .memberSnapshot event =>
    validateSnapshot P event.members s.memberId = .ok () ∧
      Accepts P s event.sequence event.epoch msgMemberSnapshot
        (memberSnapshotBody (event.members.map SnapshotMember.toBody)) event.signature
  | _ => False

/-- The session after a membership message it admits. -/
def heed (s : ChatSession) (message : Message) : ChatSession :=
  { s with lastRoomSequence := message.eventSequence, members := message.rewrite s.members }

theorem consume_of_isMembership (h : message.isMembership = true) :
    s.consume P identity message = (s.handleMembershipMessage P message).1 := by
  cases message <;> first | rfl | cases h

private theorem handleMemberGone_cases (eventType : UInt8) (event : MemberGone) :
    (Accepts P s event.sequence event.epoch eventType (memberGoneBody event.memberId)
        event.signature →
      (s.handleMemberGone P eventType event).1 =
        { s with
          lastRoomSequence := some event.sequence
          members := s.members.filter fun view => view.memberId ≠ event.memberId }) ∧
    (¬ Accepts P s event.sequence event.epoch eventType (memberGoneBody event.memberId)
        event.signature → (s.handleMemberGone P eventType event).1 = s) := by
  constructor
  · intro h
    rw [handleMemberGone, verifyRoomEvent_accepts h]
    rfl
  · intro h
    obtain ⟨error, heq⟩ := verifyRoomEvent_refuses h
    rw [handleMemberGone, heq]

theorem handleMemberJoined_of_joins {event : MemberJoined} (h : Joins P s event) :
    (s.handleMemberJoined P event).1 =
      { s with
        lastRoomSequence := some event.sequence, members := s.members ++ [event.toView] } := by
  have hmembers := handleMemberJoined_joins h
  obtain ⟨nickname, hnickname⟩ := h.nickname
  unfold handleMemberJoined at hmembers ⊢
  rw [hnickname] at hmembers ⊢
  dsimp only at hmembers ⊢
  split
  · rename_i hclash
    rw [if_pos hclash] at hmembers
    simpa using congrArg List.length hmembers
  · rename_i hclash
    rw [if_neg hclash, verifyRoomEvent_accepts h.accepts] at hmembers
    rw [verifyRoomEvent_accepts h.accepts]
    simpa [installMember] using hmembers

theorem consume_of_admits (h : Admits P s message) :
    s.consume P identity message = s.heed message := by
  cases message with
  | memberJoined event => exact handleMemberJoined_of_joins h
  | memberLeft event => exact (handleMemberGone_cases _ event).1 h
  | memberKicked event => exact (handleMemberGone_cases _ event).1 h
  | memberSnapshot event =>
      obtain ⟨hvalid, haccepts⟩ := h
      simp only [consume, handleMembershipMessage, handleMemberSnapshot, hvalid,
        verifyRoomEvent_accepts haccepts]
      rfl
  | _ => cases h

theorem consume_of_not_admits (hmessage : message.isMembership = true)
    (h : ¬ Admits P s message) : s.consume P identity message = s := by
  rw [consume_of_isMembership hmessage]
  cases message with
  | memberJoined event => exact handleMemberJoined_refuses h
  | memberLeft event => exact (handleMemberGone_cases _ event).2 h
  | memberKicked event => exact (handleMemberGone_cases _ event).2 h
  | memberSnapshot event =>
      simp only [handleMembershipMessage, handleMemberSnapshot]
      split
      · rfl
      rename_i hvalid
      obtain ⟨error, heq⟩ := verifyRoomEvent_refuses fun haccepts => h ⟨hvalid, haccepts⟩
      rw [heq]
  | _ => cases hmessage

/-- A message signed for another epoch than the session's is not admitted. -/
theorem not_admits_of_epoch {epoch current : Nat} (hepoch : message.eventEpoch = some epoch)
    (hcurrent : s.epoch = some current) (hne : epoch ≠ current) : ¬ Admits P s message := by
  intro h
  apply hne
  cases message with
  | memberJoined event => cases hepoch; exact h.accepts.epoch current hcurrent
  | memberLeft event | memberKicked event => cases hepoch; exact Accepts.epoch h current hcurrent
  | memberSnapshot event => cases hepoch; exact h.2.epoch current hcurrent
  | _ => exact h.elim

/-! ### Sessions alike -/

/-- Two sessions that differ at most in colors, numbers of their own and the join policy. -/
structure Alike (s t : ChatSession) : Prop where
  roomSessionId : s.roomSessionId = t.roomSessionId
  hostEd25519Pubkey : s.hostEd25519Pubkey = t.hostEd25519Pubkey
  hostX25519Pubkey : s.hostX25519Pubkey = t.hostX25519Pubkey
  memberId : s.memberId = t.memberId
  currentEpoch : s.currentEpoch = t.currentEpoch
  lastRoomSequence : s.lastRoomSequence = t.lastRoomSequence
  members : s.members.map MemberView.uncolored = t.members.map MemberView.uncolored

theorem Alike.refl (s : ChatSession) : Alike s s := ⟨rfl, rfl, rfl, rfl, rfl, rfl, rfl⟩

theorem Alike.symm (h : Alike s t) : Alike t s :=
  ⟨h.roomSessionId.symm, h.hostEd25519Pubkey.symm, h.hostX25519Pubkey.symm, h.memberId.symm,
    h.currentEpoch.symm, h.lastRoomSequence.symm, h.members.symm⟩

theorem Alike.accepts (h : Alike s t) {sequence epoch : Nat} {eventType : UInt8} {body : Bytes}
    {signature : Signature} (k : Accepts P s sequence epoch eventType body signature) :
    Accepts P t sequence epoch eventType body signature where
  signed := by
    rw [← h.hostEd25519Pubkey, ← h.roomSessionId]
    exact k.signed
  epoch := by
    rw [ChatSession.epoch, ← h.currentEpoch]
    exact k.epoch
  sequence := by
    rw [← h.lastRoomSequence]
    exact k.sequence

theorem clashes_congr {a b view : MemberView} (h : a.uncolored = b.uncolored) :
    a.Clashes view ↔ b.Clashes view := by
  simp only [MemberView.uncolored, Prod.mk.injEq] at h
  simp only [MemberView.Clashes, h.1, h.2.1, h.2.2.2]

theorem Alike.admits (h : Alike s t) (k : Admits P s message) : Admits P t message := by
  cases message with
  | memberJoined event =>
      refine ⟨k.nickname, k.memberId, fun view hview => ?_, h.accepts k.accepts⟩
      have hmem : view.uncolored ∈ s.members.map MemberView.uncolored := by
        rw [h.members]
        exact List.mem_map_of_mem hview
      obtain ⟨view', hview', heq⟩ := List.mem_map.mp hmem
      rw [← clashes_congr heq]
      exact k.fresh view' hview'
  | memberLeft event | memberKicked event => exact h.accepts k
  | memberSnapshot event =>
      refine ⟨?_, h.accepts k.2⟩
      rw [← h.memberId]
      exact k.1
  | _ => exact k.elim

/-- The member table but for colors depends only on the table but for colors. -/
theorem map_uncolored_rewrite {l k : List MemberView}
    (h : l.map MemberView.uncolored = k.map MemberView.uncolored) (message : Message) :
    (message.rewrite l).map MemberView.uncolored =
      (message.rewrite k).map MemberView.uncolored := by
  have hfilter (id : MemberId) (l : List MemberView) :
      (l.filter fun view => view.memberId ≠ id).map MemberView.uncolored =
        (l.map MemberView.uncolored).filter fun entry => entry.1 ≠ id := by
    rw [List.filter_map]
    rfl
  cases message with
  | memberJoined event => simp only [Message.rewrite, List.map_append, h]
  | memberLeft event | memberKicked event => simp only [Message.rewrite, hfilter, h]
  | memberSnapshot event => rfl
  | _ => exact h

theorem Alike.consume (h : Alike s t) (hmessage : message.isMembership = true) :
    Alike (s.consume P identity message) (t.consume P identity message) := by
  by_cases hadmits : Admits P s message
  · rw [consume_of_admits hadmits, consume_of_admits (h.admits hadmits)]
    exact { h with lastRoomSequence := rfl, members := map_uncolored_rewrite h.members message }
  · rw [consume_of_not_admits hmessage hadmits,
      consume_of_not_admits hmessage fun k => hadmits (h.symm.admits k)]
    exact h

theorem Alike.foldl_consume (h : Alike s t) {messages : List Message}
    (hmessages : ∀ message ∈ messages, message.isMembership = true) :
    Alike (messages.foldl (ChatSession.consume P identity) s)
      (messages.foldl (ChatSession.consume P identity) t) := by
  induction messages generalizing s t with
  | nil => exact h
  | cons message rest ih =>
      rw [List.forall_mem_cons] at hmessages
      exact ih (h.consume hmessages.1) hmessages.2

/-! ### Everything else -/

/-- An opened envelope changes the replay tracker, and at most a color. -/
theorem consume_relayed_alike (messageType : UInt8) (envelope : EncryptedEnvelope) :
    Alike (s.consume P identity (RoomActor.relayed messageType envelope)) s := by
  have hopen (messageType : UInt8) : Alike (s.openMessage P messageType envelope).1 s := by
    obtain ⟨error, heq⟩ | ⟨_, _, _, _, _, _, _, heq⟩ :=
      openMessage_cases (P := P) (s := s) messageType envelope
    · rw [heq]
      exact .refl s
    · rw [heq]
      exact { Alike.refl s with }
  unfold RoomActor.relayed
  split
  · change Alike (s.consumeColor P envelope) s
    have hcolor : Alike (s.receiveColor P envelope).1 s := by
      rw [receiveColor_fst]
      exact hopen msgColor
    unfold consumeColor
    split
    · rename_i s' color heq
      rw [heq] at hcolor
      have hkept := ClientAdmission.applyColor_uncolored s' envelope.senderId color
      unfold ClientAdmission.applyColor at hkept ⊢
      split
      · exact hcolor
      · rename_i heq
        rw [heq] at hkept
        exact { hcolor with members := hkept.trans hcolor.members }
    · rename_i heq
      rw [heq] at hcolor
      exact hcolor
  split
  · change Alike (s.receiveTimeoutChanged P envelope).1 s
    by_cases hsender : envelope.senderId = 0
    · rw [receiveTimeoutChanged_fst hsender]
      exact hopen msgTimeoutChanged
    · rw [receiveTimeoutChanged, if_pos hsender]
      exact .refl s
  · change Alike (s.receiveChat P envelope).1 s
    rw [receiveChat_fst]
    exact hopen msgChat

/-- A plain message changes nothing. -/
theorem consume_of_isPlain {c : ConnectionId}
    (h : (RoomAction.sendTo c message).isPlain = true) : s.consume P identity message = s := by
  cases message <;> first | rfl | cases h

/-- A change of the join policy is at most noted. -/
theorem consume_joinPolicyChanged (event : JoinPolicyChanged) :
    s.consume P identity (.joinPolicyChanged event) = s ∨
      s.consume P identity (.joinPolicyChanged event) =
        { s with lastRoomSequence := some event.sequence, joinPolicyOpen := event.isOpen } := by
  simp only [consume, handleMembershipMessage]
  by_cases h : Accepts P s event.sequence event.epoch msgJoinPolicy (joinPolicyBody event.isOpen)
    event.signature
  · rw [verifyRoomEvent_accepts h]
    exact .inr rfl
  · obtain ⟨error, heq⟩ := verifyRoomEvent_refuses h
    rw [heq]
    exact .inl rfl

/-- A wrap of a later epoch for the member of the session is installed. -/
theorem consume_epochWrap (law : P.Lawful) {host : HostIdentity} {epoch : Nat} {key : Key}
    {m : Member} {wrap : EpochWrap}
    (h : WrapOf P host s.roomSessionId epoch key m wrap)
    (hhost : s.hostX25519Pubkey = host.x25519Pubkey P) (hid : s.memberId = m.memberId)
    (hown : m.x25519Pubkey = identity.x25519Pubkey P)
    (hlater : ∀ now, s.epoch = some now → now < epoch) :
    s.consume P identity (.epochWrap wrap) =
      { s with currentEpoch := some (epoch, key), replay := s.replay.retainEpoch epoch } := by
  obtain ⟨rfl, wrapKey, hwrapKey, hopens⟩ := h
  have hnone : s.epoch.filter (fun current => wrap.epoch ≤ current) = none := by
    rw [Option.filter_eq_none_iff]
    intro now hnow
    have hlt := hlater now hnow
    simpa using hlt
  have hagreed : identity.tryWrapKeyFor P s.hostX25519Pubkey s.roomSessionId s.memberId =
      .ok wrapKey := by
    rw [hhost, hid, ← tryWrapKeyFor_agree law, ← hown]
    exact hwrapKey
  have hany : s.epoch.any (fun current => wrap.epoch ≤ current) = false := by
    rw [Bool.eq_false_iff, ne_eq, Option.any_eq_true]
    rintro ⟨now, hnow, hle⟩
    have hlt := hlater now hnow
    simp only [decide_eq_true_eq] at hle
    omega
  simp only [consume, setEpochFromWrap, hnone, hagreed, hopens, installEpoch, hany,
    Bool.false_eq_true, if_false]

/-- An admitted flow hands its session on as `consume` says. -/
theorem consume_of_admitted {derive : Argon2} {c : ClientAdmission} (h : c.chat = some s) :
    (∀ wrap, (c.step P derive (.epochWrap wrap)).1.chat =
      some (s.consume P c.identity (.epochWrap wrap))) ∧
    (∀ envelope, (c.step P derive (.memberMessage msgChat envelope)).1.chat =
      some (s.consume P c.identity (.chatMessage envelope))) ∧
    (∀ envelope, (c.step P derive (.memberMessage msgColor envelope)).1.chat =
      some (s.consume P c.identity (.colorChange envelope))) ∧
    (∀ envelope, (c.step P derive (.timeoutChanged envelope)).1.chat =
      some (s.consume P c.identity (.timeoutChanged envelope))) ∧
    ∀ message, message.eventSequence.isSome →
      (c.step P derive (.membership message)).1.chat = some (s.consume P c.identity message) := by
  refine ⟨fun wrap => ?_, fun envelope => ?_, fun envelope => ?_, fun envelope => ?_,
    fun message hevent => ?_⟩
  · simp only [ClientAdmission.step, ClientAdmission.onEpochWrap, ClientAdmission.withChat, h,
      consume, Prod.map]
    generalize s.setEpochFromWrap P c.identity wrap = result
    obtain ⟨s', error | epoch⟩ := result <;> rfl
  · simp only [ClientAdmission.step, ClientAdmission.onMemberMessage, ClientAdmission.withChat, h,
      consume, Prod.map, if_true]
    generalize s.receiveChat P envelope = result
    obtain ⟨s', error | text⟩ := result <;> rfl
  · have hne : ¬ msgColor = msgChat := by decide
    simp only [ClientAdmission.step, ClientAdmission.onMemberMessage, ClientAdmission.withChat, h,
      consume, consumeColor, Prod.map, if_true, if_neg hne]
    generalize s.receiveColor P envelope = result
    obtain ⟨s', error | color⟩ := result <;> rfl
  · simp only [ClientAdmission.step, ClientAdmission.onTimeoutChanged, ClientAdmission.withChat, h,
      consume, Prod.map]
    rfl
  · cases message with
    | memberJoined _ | memberLeft _ | memberKicked _ | memberSnapshot _ | joinPolicyChanged _ =>
        simp only [ClientAdmission.step, ClientAdmission.onMembershipMessage,
          ClientAdmission.withChat, h, consume, Prod.map]
        rfl
    | _ => cases hevent

end ChatSession

end Veilroom
