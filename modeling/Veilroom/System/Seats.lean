import Veilroom.System.Attuned
import Veilroom.System.Channels

/-!
Whose sessions the members of the room hold.

The session at the end of a connection is that of the member the room has
there: it has the room's session id and the host's key, it has the member's id,
and nothing was sent over the connection before there was a session.
-/
namespace Veilroom

namespace ChatSession
variable {P : Primitives} {own : MemberIdentity} {s t : ChatSession}

/-- The session is still that of the same member of the same room. -/
structure Remains (s t : ChatSession) : Prop where
  roomSessionId : t.roomSessionId = s.roomSessionId
  hostX25519Pubkey : t.hostX25519Pubkey = s.hostX25519Pubkey
  memberId : t.memberId = s.memberId

theorem Remains.refl (s : ChatSession) : Remains s s := ⟨rfl, rfl, rfl⟩

theorem Alike.remains (h : Alike t s) : Remains s t :=
  ⟨h.roomSessionId, h.hostX25519Pubkey, h.memberId⟩

/-- Only a wrap changes the key of a session. -/
theorem consume_remains (s : ChatSession) (message : Message) :
    Remains s (s.consume P own message) ∧ ((∀ wrap, message ≠ .epochWrap wrap) →
      (s.consume P own message).currentEpoch = s.currentEpoch) := by
  have hmembership (hkind : message.isMembership = true) :
      Remains s (s.consume P own message) ∧
        (s.consume P own message).currentEpoch = s.currentEpoch := by
    by_cases hadmits : Admits P s message
    · rw [consume_of_admits hadmits]
      exact ⟨⟨rfl, rfl, rfl⟩, rfl⟩
    · rw [consume_of_not_admits hkind hadmits]
      exact ⟨.refl s, rfl⟩
  have hrelayed (messageType : UInt8) (envelope : EncryptedEnvelope) :
      Remains s (s.consume P own (RoomActor.relayed messageType envelope)) ∧
        (s.consume P own (RoomActor.relayed messageType envelope)).currentEpoch =
          s.currentEpoch :=
    have halike := consume_relayed_alike messageType envelope
    ⟨halike.remains, halike.currentEpoch⟩
  cases message with
  | memberJoined _ | memberLeft _ | memberKicked _ | memberSnapshot _ =>
      exact (hmembership rfl).imp_right fun h _ => h
  | epochWrap wrap =>
      refine ⟨?_, fun hwrap => absurd rfl (hwrap wrap)⟩
      simp only [consume]
      unfold setEpochFromWrap installEpoch
      repeat' split
      all_goals exact ⟨rfl, rfl, rfl⟩
  | chatMessage envelope => exact (hrelayed msgChat envelope).imp_right fun h _ => h
  | colorChange envelope => exact (hrelayed msgColor envelope).imp_right fun h _ => h
  | timeoutChanged envelope => exact (hrelayed msgTimeoutChanged envelope).imp_right fun h _ => h
  | joinPolicyChanged event =>
      have hcases : s.consume P own (.joinPolicyChanged event) = s ∨ _ :=
        consume_joinPolicyChanged event
      obtain heq | heq := hcases
      · rw [heq]
        exact ⟨.refl s, fun _ => rfl⟩
      · rw [heq]
        exact ⟨⟨rfl, rfl, rfl⟩, fun _ => rfl⟩
  | _ => exact ⟨.refl s, fun _ => rfl⟩

theorem senderSequence_consume (s : ChatSession) (message : Message) :
    (s.consume P own message).senderSequence = s.senderSequence := by
  have hnumbered : (s.numbered s.senderSequence).consume P own message =
      (s.consume P own message).numbered s.senderSequence := consume_numbered s _ message
  rw [show s.numbered s.senderSequence = s from rfl] at hnumbered
  rw [hnumbered]
  rfl

/-- What a session seals opens, for whoever has its key, as of its member and its next number. -/
theorem sealMessage_opens (law : P.Lawful) {nonce : Option Nonce} {messageType : UInt8}
    {plaintext : Bytes} {envelope : EncryptedEnvelope}
    (h : s.sealMessage P nonce own messageType plaintext = (t, .ok envelope)) :
    ∃ epoch key, s.currentEpoch = some (epoch, key) ∧
      t = s.numbered (s.senderSequence + 1) ∧ envelope.epoch = epoch ∧
      envelope.senderId = s.memberId ∧ envelope.senderSequence = s.senderSequence + 1 ∧
      openEnvelope P key (own.ed25519Pubkey P) 1 s.roomSessionId epoch s.memberId
        envelope.senderSequence messageType envelope.nonce envelope.ciphertext
        envelope.signature = .ok plaintext := by
  unfold sealMessage at h
  split at h
  · cases h
  rename_i epoch key hcurrent
  dsimp only at h
  split at h
  · cases h
  rename_i sealed hsealed
  unfold EncryptedEnvelope.new at h
  by_cases hlength : chatMinCiphertextLen ≤ sealed.ciphertext.length ∧
    sealed.ciphertext.length ≤ chatMaxCiphertextLen
  · rw [if_pos hlength] at h
    cases h
    exact ⟨epoch, key, hcurrent, rfl, rfl, rfl, rfl, openEnvelope_sealEnvelope law hsealed⟩
  · rw [if_neg hlength] at h
    cases h

end ChatSession

namespace Seat
variable {P : Primitives} {setup : Setup} {a₀ : RoomActor} {own : MemberIdentity}
variable {c : ConnectionId} {sent : List Message} {seat : Seat} {id : MemberId}

/-- The session was opened for the member `id` of the room. -/
structure OpenedFor (P : Primitives) (a : RoomActor) (id : MemberId) (s : ChatSession) : Prop where
  roomSessionId : s.roomSessionId = a.sessionId
  hostX25519Pubkey : s.hostX25519Pubkey = a.hostIdentity.x25519Pubkey P
  memberId : s.memberId = id

theorem OpenedFor.remains {s t : ChatSession} (h : OpenedFor P a₀ id s)
    (hremains : ChatSession.Remains s t) : OpenedFor P a₀ id t :=
  ⟨hremains.roomSessionId.trans h.roomSessionId,
    hremains.hostX25519Pubkey.trans h.hostX25519Pubkey, hremains.memberId.trans h.memberId⟩

theorem foldl_openedFor {messages : List Message}
    (htold : ∀ accepted, .joinAccepted accepted ∈ messages → accepted.memberId = id)
    {session : Option ChatSession} (h : ∀ s ∈ session, OpenedFor P a₀ id s) :
    ∀ s ∈ messages.foldl (receive P a₀ own) session, OpenedFor P a₀ id s := by
  induction messages generalizing session with
  | nil => exact h
  | cons message rest ih =>
      refine ih (fun accepted hmem => htold accepted (.tail _ hmem)) ?_
      intro t ht
      cases session with
      | some s =>
          cases ht
          exact (h s rfl).remains (ChatSession.consume_remains s message).1
      | none =>
          cases message with
          | joinAccepted accepted =>
              cases ht
              exact ⟨rfl, rfl, htold accepted (.head _)⟩
          | _ => cases ht

/-- A session at the end of a connection that was told one id only is that member's. -/
theorem Follows.openedFor (h : Follows P setup a₀ own c sent seat)
    (htold : ∀ accepted, .joinAccepted accepted ∈ sent → accepted.memberId = id)
    (hhost : c = a₀.hostConnection → id = 0) : ∀ s ∈ seat.session, OpenedFor P a₀ id s := by
  obtain ⟨consumed, number, hsent, hsession⟩ := h
  intro s hs
  rw [hsession] at hs
  obtain ⟨t, ht, rfl⟩ := Option.map_eq_some_iff.mp hs
  have hinitial : ∀ s ∈ initial P setup a₀ c, OpenedFor P a₀ id s := by
    intro s hs
    unfold initial at hs
    split at hs
    · rename_i hc
      cases hs
      exact ⟨rfl, rfl, (hhost hc).symm⟩
    · cases hs
  have hopened := foldl_openedFor
    (fun accepted hmem => htold accepted (hsent ▸ List.mem_append_left _ hmem)) hinitial t ht
  exact ⟨hopened.roomSessionId, hopened.hostX25519Pubkey, hopened.memberId⟩

/-- Where no session was opened nothing was sent. -/
def Silent (seat : Seat) : Prop := seat.session = none → seat.outbox = []

theorem Silent.consume (h : seat.Silent) : (seat.consume P a₀ own c).Silent := by
  intro hnone
  unfold Seat.consume at hnone ⊢
  split at hnone
  · exact h hnone
  · rename_i message rest _
    cases hsession : seat.session with
    | some s =>
        rw [hsession] at hnone
        cases hnone
    | none =>
        rw [h hsession]
        rfl

theorem Silent.submit (h : seat.Silent) (nonce : Option Nonce) (messageType : UInt8)
    (plaintext : Bytes) : (seat.submit P own c nonce messageType plaintext).Silent := by
  intro hnone
  unfold Seat.submit at hnone ⊢
  split at hnone
  · exact h hnone
  · split at hnone <;> cases hnone

end Seat

/-! ### Runs -/

namespace RoomActor
variable {P : Primitives} {a a₀ : RoomActor} {m : Member} {setup : Setup}
variable {started : List RoomAction} {past : Past}

/-- A member is told no other id than its own. -/
theorem Run.accepted_member (law : P.Lawful) (hstart : Started P setup a₀ started)
    (run : Run P (Orderly P) a₀ past a) (hm : m ∈ a.members.members) {accepted : JoinAccepted}
    (hsent : .joinAccepted accepted ∈ sentTo m.connection (emitted started past)) :
    accepted.memberId = m.memberId := by
  induction run generalizing m with
  | start =>
      rw [emitted_nil] at hsent
      obtain ⟨nickname, sessionId, token, key, wraps, hopening⟩ := hstart.opening
      rw [hopening.actions, sentTo_cons_notifyHost] at hsent
      cases isWrap_of_wrapAll hopening.begins.wrapped _ (mem_sentTo.mp hsent)
  | @step past a input run orderly ih =>
      have facts := Run.stepFacts law hstart run orderly
      rw [emitted_cons, sentTo_append, List.mem_append] at hsent
      obtain hsent | hsent := hsent
      · obtain ⟨n, hn, heq⟩ | ⟨wrap, henters, -⟩ :=
          facts.effect.move.member_cases law facts.effect.step.valid facts.nofault hm
        · rw [← Member.memberId_congr heq]
          rw [← Member.connection_congr heq] at hsent
          exact ih hn hsent
        · obtain ⟨-, -, hrequest, rfl, -⟩ := henters
          exact absurd ((Run.separated law hstart run).unwrapped facts.valid hrequest)
            (Run.accepted_wrapped law hstart run hsent)
      · obtain ⟨-, m', hm', hc, hid⟩ :=
          facts.effect.move.accepted_inv facts.nofault facts.held hsent
        rw [← hid, facts.effect.step.valid.eq_of_connection (m := m') hm' hm hc]

end RoomActor

namespace System
variable {P : Primitives} {identity : ConnectionId → MemberIdentity} {honest : ConnectionId → Prop}
variable {allowed : Past → RoomActor → Input → Prop} {setup : Setup} {a₀ : RoomActor}
variable {started : List RoomAction} {past : Past} {sys : System} {c : ConnectionId}

theorem Run.silent (run : Run P identity honest allowed setup a₀ started past sys)
    (c : ConnectionId) : (sys.seats c).Silent := by
  induction run with
  | start => exact fun _ => rfl
  | handled _ _ _ ih => exact ih
  | @delivered past sys input c' rest _ _ houtbox ih =>
      by_cases hc : c = c'
      · subst hc
        intro hnone
        simp only [handle, seats_seat_self] at hnone
        rw [ih hnone] at houtbox
        cases houtbox
      · intro hnone
        simp only [handle, seats_seat_of_ne hc] at hnone ⊢
        exact ih hnone
  | @consumed past sys c' _ ih =>
      by_cases hc : c = c'
      · subst hc
        rw [seats_seat_self]
        exact ih.consume
      · rw [seats_seat_of_ne hc]
        exact ih
  | @submitted past sys c' nonce messageType plaintext _ ih =>
      by_cases hc : c = c'
      · subst hc
        rw [seats_seat_self]
        exact ih.submit nonce messageType plaintext
      · rw [seats_seat_of_ne hc]
        exact ih

/-- Nothing was opened or sent yet at the connection of a queued request. -/
theorem Run.untouched (law : P.Lawful) (hstart : RoomActor.Started P setup a₀ started)
    (run : Run P identity honest allowed setup a₀ started past sys)
    (hallowed : ∀ past a input, allowed past a input → RoomActor.Orderly P past a input)
    {q : JoinRequest} (hq : q ∈ sys.room.requests.requests) :
    (sys.seats q.connection).session = none ∧ (sys.seats q.connection).outbox = [] := by
  have hunheard : Seat.heard P setup a₀ identity started past q.connection = none :=
    RoomActor.Run.unheard law hstart (run.room.mono hallowed) hq
  obtain ⟨consumed, number, hsent, hsession⟩ := run.follows q.connection
  have hnone : consumed.foldl (Seat.receive P a₀ (identity q.connection))
      (Seat.initial P setup a₀ q.connection) = none := by
    rw [Seat.heard, ← hsent, List.foldl_append] at hunheard
    cases hconsumed : consumed.foldl (Seat.receive P a₀ (identity q.connection))
      (Seat.initial P setup a₀ q.connection) with
    | none => rfl
    | some s =>
        rw [hconsumed, RoomActor.foldl_receive_some] at hunheard
        cases hunheard
  rw [hnone] at hsession
  exact ⟨hsession, run.silent q.connection hsession⟩

/-- The session of a member is the one it was accepted for. -/
theorem Run.openedFor (law : P.Lawful) (hstart : RoomActor.Started P setup a₀ started)
    (run : Run P identity honest allowed setup a₀ started past sys)
    (hallowed : ∀ past a input, allowed past a input → RoomActor.Orderly P past a input)
    {m : Member} (hm : m ∈ sys.room.members.members) :
    ∀ s ∈ (sys.seats m.connection).session, Seat.OpenedFor P sys.room m.memberId s := by
  have orderly := run.room.mono hallowed
  obtain ⟨hidentity, hsession, hconnection⟩ := RoomActor.Run.sameIdentity hstart.valid orderly
  have hvalid := RoomActor.Run.valid hstart.valid orderly
  have hopened : ∀ s ∈ (sys.seats m.connection).session, Seat.OpenedFor P a₀ m.memberId s := by
    refine (run.follows m.connection).openedFor
      (fun accepted hsent => RoomActor.Run.accepted_member law hstart orderly hm hsent) ?_
    intro hhost
    exact (hvalid.connection_eq_host_iff hm).mp (hhost.trans hconnection.symm)
  intro s hs
  obtain ⟨hroom, hkey, hid⟩ := hopened s hs
  exact ⟨hroom.trans hsession.symm, by rw [hkey, hidentity], hid⟩

end System

end Veilroom
