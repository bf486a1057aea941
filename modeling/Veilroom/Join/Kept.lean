import Veilroom.Admission.Members
import Veilroom.Chat.Atomic
import Veilroom.Join.Requests
import Veilroom.Join.Screen

/-!
What a step of a participant's session leaves alone, and what it queues for the host.

The member table changes with the membership messages of the host only; the room is entered with an
empty one, and never left but by the end of the session.
-/
namespace Veilroom
open Transcript

/-! ### What is heard -/

namespace ChatSession
variable {P : Primitives} {s s' : ChatSession} {envelope : EncryptedEnvelope} {text : String}

/-- The envelope says `text`, and it is `member` that says so: it opens under the key of the epoch
and the key that the table has for its sender. -/
structure Hears (P : Primitives) (s : ChatSession) (envelope : EncryptedEnvelope)
    (member : MemberView) (text : String) : Prop where
  known : member ∈ s.members
  sender : member.memberId = envelope.senderId
  opens : ∃ key, s.currentEpoch = some (envelope.epoch, key) ∧
    openEnvelope P key member.ed25519Pubkey 1 s.roomSessionId envelope.epoch envelope.senderId
      envelope.senderSequence msgChat envelope.nonce envelope.ciphertext envelope.signature =
      .ok (utf8 text)

theorem utf8_of_fromUTF8? {plaintext : Bytes}
    (h : String.fromUTF8? ⟨plaintext.toArray⟩ = some text) : utf8 text = plaintext := by
  unfold String.fromUTF8? at h
  split at h
  · cases h
    rfl
  · cases h

theorem receiveChat_ok (h : s.receiveChat P envelope = (s', .ok text)) :
    ∃ member, s.Hears P envelope member text ∧ s'.member envelope.senderId = some member ∧
      s'.members = s.members := by
  unfold receiveChat at h
  obtain ⟨error, heq⟩ | ⟨key, plaintext, sender, hepoch, hsender, -, hopens, heq⟩ :=
    openMessage_cases (P := P) (s := s) msgChat envelope
  · rw [heq] at h
    cases h
  · rw [heq] at h
    dsimp only at h
    split at h
    · cases h
    rename_i found hutf8
    split at h <;> cases h
    refine ⟨sender, ⟨List.mem_of_find?_eq_some hsender, ?_, key, hepoch, ?_⟩, hsender, rfl⟩
    · simpa using List.find?_some hsender
    · rw [utf8_of_fromUTF8? hutf8]
      exact hopens

end ChatSession

/-! ### What leaves the table alone -/

namespace ClientAdmission
variable {P : Primitives} {derive : Argon2} {c c' : ClientAdmission}

section
variable {α : Type} {call : ChatSession → ChatSession × Except ChatError α}

theorem table_withChat (hcall : ∀ session, (call session).1.members = session.members) :
    (c.withChat call).1.table = c.table := by
  unfold withChat
  split
  · rfl
  · rename_i session hsession
    have htable : c.table = session.members := by rw [table, hsession]; rfl
    exact (hcall session).trans htable.symm

theorem isAdmitted_withChat (c : ClientAdmission)
    (call : ChatSession → ChatSession × Except ChatError α) :
    (c.withChat call).1.isAdmitted = c.isAdmitted := by
  unfold withChat
  split <;> rfl

theorem chat_withChat : (c.withChat call).1.chat = none ↔ c.chat = none := by
  unfold withChat
  split
  · rfl
  · rename_i session hsession
    rw [hsession]
    exact iff_of_false (Option.some_ne_none _) (Option.some_ne_none _)

end

/-- A call that failed left the flow as it was. -/
theorem onMembershipMessage_error {message : Message} {error : ChatError}
    (h : c.onMembershipMessage P message = (c', .error error)) : c' = c := by
  have heq : c.onMembershipMessage P message =
      c.withChat fun session => session.handleMembershipMessage P message := by
    cases message <;> rfl
  rw [heq] at h
  unfold withChat at h
  split at h
  · cases h
    rfl
  · rename_i session hsession
    dsimp only at h
    have hkept : (session.handleMembershipMessage P message).1 = session :=
      (ChatSession.membership_handles message).unchanged (Prod.ext_iff.mp h).2
    rw [hkept] at h
    obtain ⟨rfl, -⟩ := Prod.ext_iff.mp h
    rw [← hsession]

/-- The flow stays admitted or not, and its member table stays as it is. -/
structure SameTable (c c' : ClientAdmission) : Prop where
  table : c'.table = c.table
  isAdmitted : c'.isAdmitted = c.isAdmitted
  chat : c'.chat = none ↔ c.chat = none

theorem SameTable.refl (c : ClientAdmission) : c.SameTable c := ⟨rfl, rfl, Iff.rfl⟩

theorem SameTable.trans {c'' : ClientAdmission} (h : c.SameTable c') (h' : c'.SameTable c'') :
    c.SameTable c'' :=
  ⟨h'.table.trans h.table, h'.isAdmitted.trans h.isAdmitted, h'.chat.trans h.chat⟩

/-- Only the state and what the handshake keeps may differ. -/
theorem SameTable.of_chat (hchat : c'.chat = c.chat) (hadmitted : c'.isAdmitted = c.isAdmitted) :
    c.SameTable c' := by
  refine ⟨?_, hadmitted, by rw [hchat]⟩
  unfold ClientAdmission.table
  rw [hchat]

theorem withChat_same {α : Type} {call : ChatSession → ChatSession × Except ChatError α}
    (hcall : ∀ session, (call session).1.members = session.members) :
    c.SameTable (c.withChat call).1 :=
  ⟨table_withChat hcall, isAdmitted_withChat c call, chat_withChat⟩

theorem sendChat_same (nonce : Option Nonce) (text : String) :
    c.SameTable (c.sendChat P nonce text).1 := by
  refine withChat_same fun session => ?_
  dsimp only [ChatSession.sendChat]
  split
  · rfl
  · exact ChatSession.sealMessage_members _ _ _ _

theorem sendColor_same (nonce : Option Nonce) (color : ColorChoice) :
    c.SameTable (c.sendColor P nonce color).1 :=
  withChat_same fun _ => ChatSession.sealMessage_members _ _ _ _

theorem sendTimeoutRequest_same (nonce : Option Nonce) (seconds : Nat) :
    c.SameTable (c.sendTimeoutRequest P nonce seconds).1 := by
  refine withChat_same fun session => ?_
  dsimp only [ChatSession.sendTimeoutRequest]
  split
  · rfl
  · exact ChatSession.sealMessage_members _ _ _ _

theorem onEpochWrap_same (wrap : EpochWrap) : c.SameTable (c.onEpochWrap P wrap).1 := by
  have hcalled : c.SameTable
      (c.withChat fun session => session.setEpochFromWrap P c.identity wrap).1 :=
    withChat_same fun _ => ChatSession.setEpochFromWrap_members _ _
  unfold onEpochWrap
  generalize c.withChat (fun session => session.setEpochFromWrap P c.identity wrap) = result
    at hcalled
  obtain ⟨c', error | epoch⟩ := result <;> exact hcalled

theorem onTimeoutChanged_same (envelope : EncryptedEnvelope) :
    c.SameTable (c.onTimeoutChanged P envelope).1 :=
  withChat_same fun _ => ChatSession.receiveTimeoutChanged_members envelope

theorem onChatMessage_same (envelope : EncryptedEnvelope) :
    c.SameTable (c.onMemberMessage P 0x40 envelope).1 := by
  refine withChat_same fun session => ?_
  have hkept : (session.receiveChat P envelope).1.members = session.members := by
    rw [ChatSession.receiveChat_fst]
    exact ChatSession.openMessage_members _ _
  rw [if_pos (by decide)]
  generalize session.receiveChat P envelope = result at hkept
  obtain ⟨session', error | text⟩ := result <;> exact hkept

/-- A chat text that is shown was heard, from the member of the table who is named. -/
theorem onChatMessage_ok {envelope : EncryptedEnvelope} {text : String}
    (h : c.onMemberMessage P 0x40 envelope = (c', .ok (some text))) :
    ∃ chat member, c.chat = some chat ∧ chat.Hears P envelope member text ∧
      c'.chat.bind (fun chat => chat.member envelope.senderId) = some member := by
  unfold onMemberMessage withChat at h
  split at h
  · cases h
  rename_i chat hchat
  dsimp only at h
  rw [if_pos (by decide)] at h
  split at h
  · cases h
  · rename_i chat' found hreceived
    cases h
    obtain ⟨member, hhears, hmember, -⟩ := ChatSession.receiveChat_ok hreceived
    exact ⟨chat, member, hchat, hhears, hmember⟩

theorem joinRequest_same (nickname : String) (introduction : Option String) :
    c.SameTable (c.joinRequest P nickname introduction).1 := by
  unfold joinRequest
  split
  · exact .refl c
  rename_i hstate
  rw [not_not] at hstate
  split
  · split
    · exact .refl c
    dsimp only
    split
    · exact .refl c
    · exact .of_chat rfl (by simp [isAdmitted, hstate])
  · exact .refl c

/-- A host message that the flow refuses. -/
theorem onHostMessage_refused {message : Message} {error : AdmissionError}
    (h : c.onHostMessage P derive message = (c', .error error)) : c' = c := by
  unfold onHostMessage at h
  split at h
  · rename_i hello hstate
    obtain ⟨error, heq⟩ | ⟨-, heq⟩ := handleHostHello_cases (P := P) (c := c) hello
    all_goals
      rw [heq] at h
      cases h
    rfl
  · rename_i challenge hstate
    obtain ⟨error, heq⟩ | ⟨proof, -, -, -, heq⟩ :=
      handleChallenge_cases (P := P) (c := c) derive challenge
    all_goals
      rw [heq] at h
      cases h
    rfl
  all_goals
    cases h
    try rfl

end ClientAdmission

namespace JoinSession
variable {P : Primitives} {derive : Argon2} {s s' s'' : JoinSession}

/-- The admission keeps its table, and a room stays shown. -/
structure Keeps (s s' : JoinSession) : Prop where
  admission : s.admission.SameTable s'.admission
  room : ∀ own, s.screen = .room own → s'.screen = .room own

theorem Keeps.refl (s : JoinSession) : s.Keeps s := ⟨.refl _, fun _ h => h⟩

theorem Keeps.trans (h : s.Keeps s') (h' : s'.Keeps s'') : s.Keeps s'' :=
  ⟨h.admission.trans h'.admission, fun own hown => h'.room own (h.room own hown)⟩

theorem Keeps.finish (h : s.Keeps s') (outcome : SessionEnd) : s.Keeps (s'.finish outcome) :=
  ⟨h.admission, h.room⟩

theorem Keeps.send (h : s.Keeps s') (message : Message) : s.Keeps (s'.send message) := by
  obtain heq | ⟨queue, heq⟩ := s'.send_cases message
  · rw [heq]
    exact h.finish _
  · rw [heq]
    exact ⟨h.admission, h.room⟩

theorem keeps_sendPendingForm (s : JoinSession) : s.Keeps (s.sendPendingForm P) := by
  unfold sendPendingForm
  split
  · exact .refl s
  rename_i form hform
  have hsame := s.admission.joinRequest_same (P := P) form.1 form.2
  dsimp only
  generalize s.admission.joinRequest P form.1 form.2 = result at hsame
  obtain ⟨admission, error | request⟩ := result
  · exact ⟨hsame, fun _ h => h⟩
  · have hkeeps : s.Keeps { s with pendingForm := none, admission } := ⟨hsame, fun _ h => h⟩
    exact hkeeps.send request

theorem Keeps.sendReplies (h : s.Keeps s') (replies : List Message) :
    s.Keeps (s'.sendReplies P replies) := by
  induction replies generalizing s' with
  | nil => exact h
  | cons reply replies ih =>
      have hsent := h.send reply
      unfold JoinSession.sendReplies
      dsimp only
      split
      · exact hsent
      have hform : s.Keeps (if reply.isProof then (s'.send reply).sendPendingForm P
          else s'.send reply) := by
        split
        · exact hsent.trans (keeps_sendPendingForm _)
        · exact hsent
      generalize (if reply.isProof then (s'.send reply).sendPendingForm P else s'.send reply) =
        s'' at hform
      split
      · exact hform
      · exact ih hform

theorem keeps_onFormSubmitted (hscreen : ∀ own, s.screen ≠ .room own) (now : Duration)
    (form : JoinForm) : s.Keeps (s.onFormSubmitted P now form) := by
  have hsame := s.admission.joinRequest_same (P := P) form.1 form.2
  have hroom {screen : Screen} (own : String) (h : s.screen = .room own) : screen = .room own :=
    absurd h (hscreen own)
  unfold onFormSubmitted
  dsimp only
  generalize s.admission.joinRequest P form.1 form.2 = result at hsame
  obtain ⟨admission, error | request⟩ := result
  · exact ⟨hsame, hroom⟩
  · exact Keeps.send ⟨hsame, hroom⟩ request

/-- Every branch but a message and a room action. -/
theorem keeps_step {input : JoinInput} (haction : ∀ nonce action, input ≠ .roomAction nonce action)
    (hmessage : ∀ now message, input ≠ .inbound now (some message)) :
    s.Keeps (s.step P derive input) := by
  unfold step
  split
  · exact .refl s
  cases input with
  | tick now tor =>
      cases tor with
      | exited | unknown _ => exact (Keeps.refl s).finish _
      | running =>
          have hlate (late : Prop) [Decidable late] :
              s.Keeps (if late then s.fail "the room connection timed out" else s) := by
            split
            · exact (Keeps.refl s).finish _
            · exact .refl s
          exact hlate _
  | quitKey | keysClosed | drawFailed => exact (Keeps.refl s).finish _
  | key now key =>
      dsimp only
      unfold onKey
      split
      · rename_i form hscreen
        have houtside (own : String) : s.screen ≠ .room own := by simp [hscreen]
        split
        · exact ⟨.refl _, fun own h => absurd h (houtside own)⟩
        · exact ⟨.refl _, fun own h => absurd h (houtside own)⟩
        · exact keeps_onFormSubmitted houtside now _
      all_goals exact .refl s
  | paste text =>
      dsimp only
      unfold onPaste
      split
      · rename_i form hscreen
        exact ⟨.refl _, fun own h => by rw [hscreen] at h; cases h⟩
      all_goals exact .refl s
  | roomAction nonce action => exact absurd rfl (haction nonce action)
  | inbound now message =>
      cases message with
      | none => exact (Keeps.refl s).finish _
      | some message => exact absurd rfl (hmessage now message)
  | queue queue => exact ⟨.refl _, fun _ h => h⟩

/-- A message of the handshake: the session keeps its table, and is not in the room unless it was;
or it is let into the room, with an empty table. -/
theorem handleHostMessage_cases (P : Primitives) (derive : Argon2) (hlive : s.ended = none)
    (message : Message) :
    (s.Keeps (s.handleHostMessage P derive message) ∧
      ((s.handleHostMessage P derive message).ended.isNone &&
        (s.handleHostMessage P derive message).admission.isAdmitted) = false) ∨
    s.admission.isAdmitted = false ∧ ∃ memberId, s.handleHostMessage P derive message =
      { s with
        admission := s.admission.admittedAs memberId
        screen := .room (s.ownNickname.getD "you")
        ownNickname := none } := by
  have hrefused {admission : ClientAdmission} {error : AdmissionError} (reason : String)
      (h : s.admission.onHostMessage P derive message = (admission, .error error)) :
      s.Keeps ({ s with admission }.fail reason) := by
    obtain rfl := ClientAdmission.onHostMessage_refused h
    exact (Keeps.refl s).finish _
  have hreplied {admission : ClientAdmission} (replies : List Message)
      (hsame : s.admission.SameTable admission) (hnot : s.admission.isAdmitted = false) :
      s.Keeps ({ s with admission }.sendReplies P replies) ∧
        ({ s with admission }.sendReplies P replies).admission.isAdmitted = false := by
    have hkeeps : s.Keeps { s with admission } := ⟨hsame, fun _ h => h⟩
    have hsent := hkeeps.sendReplies (P := P) replies
    exact ⟨hsent, hsent.admission.isAdmitted.trans hnot⟩
  unfold handleHostMessage
  split
  · rename_i admission replies htaken
    dsimp only
    obtain ⟨hstate, hello, token, rfl, rfl⟩ | ⟨hstate, rfl, proof, rfl⟩ |
      ⟨hstate, ⟨memberId, rfl⟩, rfl⟩ := ClientAdmission.onHostMessage_ok htaken
    all_goals
      have hwaits : s.admission.isAdmitted = false := by
        simp [ClientAdmission.isAdmitted, hstate]
    · have hsame : s.admission.SameTable (s.admission.pin hello) := .of_chat rfl hwaits.symm
      obtain ⟨hkeeps, hnot⟩ := hreplied [.tokenVerify token] hsame hwaits
      simp only [hnot, Bool.false_eq_true, if_false, ite_self, Bool.and_false, and_true]
      exact .inl hkeeps
    · have hsame : s.admission.SameTable
          { s.admission with password := [], state := .awaitingJoinForm } :=
        .of_chat rfl hwaits.symm
      obtain ⟨hkeeps, hnot⟩ := hreplied [.challengeProof proof] hsame hwaits
      simp only [hnot, Bool.false_eq_true, if_false, ite_self, Bool.and_false, and_true]
      exact .inl hkeeps
    · refine .inr ⟨hwaits, memberId, ?_⟩
      simp only [sendReplies, hlive]
      rfl
  · rename_i admission reason herror
    exact .inl ⟨hrefused _ herror, rfl⟩
  · rename_i admission error _ herror
    exact .inl ⟨hrefused _ herror, rfl⟩

end JoinSession

/-! ### What the session does -/

/-- What an action of the room screen queues for the host. -/
def Ui.RoomUiAction.queues : Ui.RoomUiAction → Message → Bool
  | .chat _, .chatMessage _ => true
  | .command (.color _), .colorChange _ => true
  | .command (.timeoutRequest _), .timeoutRequest _ => true
  | _, _ => false

namespace ClientAdmission
variable {P : Primitives} {c : ClientAdmission} {message : Message}

/-- A call that makes its message of an envelope. -/
theorem withChat_ok {call : ChatSession → ChatSession × Except ChatError Message}
    {f : EncryptedEnvelope → Message}
    (hcall : ∀ session, (call session).2 = .ok message → ∃ envelope, message = f envelope)
    (h : (c.withChat call).2 = .ok message) : ∃ envelope, message = f envelope := by
  unfold withChat at h
  split at h
  · cases h
  · exact hcall _ h

theorem of_map_ok {f : EncryptedEnvelope → Message} {result : Except ChatError EncryptedEnvelope}
    (h : result.map f = .ok message) : ∃ envelope, message = f envelope := by
  cases result with
  | error error => cases h
  | ok envelope =>
      cases h
      exact ⟨envelope, rfl⟩

theorem sendChat_ok {nonce : Option Nonce} {text : String}
    (h : (c.sendChat P nonce text).2 = .ok message) :
    ∃ envelope, message = .chatMessage envelope := by
  refine withChat_ok (fun session hsent => ?_) h
  dsimp only [ChatSession.sendChat] at hsent
  split at hsent
  · cases hsent
  · exact of_map_ok hsent

theorem sendColor_ok {nonce : Option Nonce} {color : ColorChoice}
    (h : (c.sendColor P nonce color).2 = .ok message) :
    ∃ envelope, message = .colorChange envelope :=
  withChat_ok (fun _ hsent => of_map_ok hsent) h

theorem sendTimeoutRequest_ok {nonce : Option Nonce} {seconds : Nat}
    (h : (c.sendTimeoutRequest P nonce seconds).2 = .ok message) :
    ∃ envelope, message = .timeoutRequest envelope := by
  refine withChat_ok (fun session hsent => ?_) h
  dsimp only [ChatSession.sendTimeoutRequest] at hsent
  split at hsent
  · cases hsent
  · exact of_map_ok hsent

theorem chat_setOwnColor (c : ClientAdmission) (color : ColorChoice) :
    (c.setOwnColor color).chat = none ↔ c.chat = none := by
  unfold setOwnColor
  split
  · rename_i own session hown hchat
    rw [hchat]
    exact iff_of_false (Option.some_ne_none _) (Option.some_ne_none _)
  · rfl

theorem table_admittedAs (h : c.chat = none) (memberId : MemberId) :
    (c.admittedAs memberId).table = [] := by
  unfold table admittedAs
  dsimp only
  split
  · rw [h]
    rfl
  · rfl

end ClientAdmission

namespace JoinSession
variable {P : Primitives} {derive : Argon2} {s s' : JoinSession}

/-- The session stays in the room or out of it. -/
structure Stays (s s' : JoinSession) : Prop where
  isAdmitted : s'.admission.isAdmitted = s.admission.isAdmitted
  chat : s'.admission.chat = none ↔ s.admission.chat = none
  room : ∀ own, s.screen = .room own → s'.screen = .room own

theorem Keeps.stays (h : s.Keeps s') : s.Stays s' :=
  ⟨h.admission.isAdmitted, h.admission.chat, h.room⟩

theorem keeps_sendChatMessage {result : ClientAdmission × Except ChatError Message}
    (hsame : s.admission.SameTable result.1) : s.Keeps (s.sendChatMessage result) := by
  obtain ⟨admission, error | message⟩ := result
  · exact ⟨hsame, fun _ h => h⟩
  · have hkeeps : s.Keeps { s with admission } := ⟨hsame, fun _ h => h⟩
    exact hkeeps.send message

theorem onRoomAction_stays (s : JoinSession) (nonce : Option Nonce) (action : RoomUiAction) :
    s.Stays (s.onRoomAction P nonce action) := by
  cases action with
  | chat text => exact (keeps_sendChatMessage (ClientAdmission.sendChat_same _ _)).stays
  | timeoutRequest seconds =>
      exact (keeps_sendChatMessage (ClientAdmission.sendTimeoutRequest_same _ _)).stays
  | color color =>
      have hsame := ClientAdmission.sendColor_same (P := P) (c := s.admission) nonce color
      unfold onRoomAction
      dsimp only
      generalize s.admission.sendColor P nonce color = result at hsame
      obtain ⟨admission, error | message⟩ := result
      · exact Keeps.stays ⟨hsame, fun _ h => h⟩
      · have hkeeps : s.Keeps { s with admission } := ⟨hsame, fun _ h => h⟩
        have hsent := (hkeeps.send message).stays
        dsimp only
        split
        · exact hsent
        · refine ⟨?_, (ClientAdmission.chat_setOwnColor _ color).trans hsent.chat, hsent.room⟩
          rw [← hsent.isAdmitted]
          unfold ClientAdmission.setOwnColor
          split <;> rfl
  | leave | exit => exact ((Keeps.refl s).finish _).stays
  | view => exact (Keeps.refl s).stays

theorem handleJoinMessage_stays (P : Primitives) (derive : Argon2) (s : JoinSession)
    {message : Message} (hmessage : message.isAdmission = false) :
    s.Stays (s.handleJoinMessage P derive message) := by
  cases message with
  | keepalive => exact (Keeps.refl s).stays
  | shutdown => exact ((Keeps.refl s).finish _).stays
  | error error =>
      unfold handleJoinMessage
      dsimp only
      split
      · exact (Keeps.refl s).stays
      · exact ((Keeps.refl s).finish _).stays
  | epochWrap wrap =>
      have hsame := s.admission.onEpochWrap_same (P := P) wrap
      unfold handleJoinMessage
      dsimp only
      generalize s.admission.onEpochWrap P wrap = result at hsame
      obtain ⟨admission, error | ack⟩ := result
      all_goals
        have hkeeps : s.Keeps { s with admission } := ⟨hsame, fun _ h => h⟩
      · exact (hkeeps.finish _).stays
      · exact (hkeeps.send ack).stays
  | chatMessage envelope | colorChange envelope | timeoutChanged envelope =>
      exact ⟨ClientAdmission.isAdmitted_withChat _ _, ClientAdmission.chat_withChat,
        fun _ h => h⟩
  | memberJoined _ | memberLeft _ | memberKicked _ | joinPolicyChanged _ | memberSnapshot _ =>
      exact ⟨ClientAdmission.isAdmitted_withChat _ _, ClientAdmission.chat_withChat,
        fun _ h => h⟩
  | _ => cases hmessage

/-- What an action queues for the host is one message at most, and what the action is for. -/
theorem onRoomAction_sent (s : JoinSession) (nonce : Option Nonce) (action : Ui.RoomUiAction) :
    ∃ sent, (s.onRoomAction P nonce action.toJoin).sent = s.sent ++ sent ∧ sent.length ≤ 1 ∧
      ∀ message ∈ sent, action.queues message = true := by
  have hnothing {t : JoinSession} (h : t.sent = s.sent) :
      ∃ sent, t.sent = s.sent ++ sent ∧ sent.length ≤ 1 ∧
        ∀ message ∈ sent, action.queues message = true :=
    ⟨[], by rw [h, List.append_nil], Nat.zero_le 1, nofun⟩
  have hsend {t : JoinSession} {message : Message} (h : t.sent = s.sent)
      (hqueues : action.queues message = true) :
      ∃ sent, (t.send message).sent = s.sent ++ sent ∧ sent.length ≤ 1 ∧
        ∀ message ∈ sent, action.queues message = true := by
    obtain heq | ⟨queue, heq⟩ := t.send_cases message
    · rw [heq]
      exact hnothing h
    · refine ⟨[message], by rw [heq, ← h], Nat.le_refl 1, fun m hm => ?_⟩
      rw [List.mem_singleton.mp hm]
      exact hqueues
  have hchat (result : ClientAdmission × Except ChatError Message)
      (hqueues : ∀ message, result.2 = .ok message → action.queues message = true) :
      ∃ sent, (s.sendChatMessage result).sent = s.sent ++ sent ∧ sent.length ≤ 1 ∧
        ∀ message ∈ sent, action.queues message = true := by
    obtain ⟨admission, error | message⟩ := result
    · exact hnothing rfl
    · exact hsend rfl (hqueues message rfl)
  cases action with
  | chat text =>
      refine hchat _ fun message hok => ?_
      obtain ⟨envelope, rfl⟩ := ClientAdmission.sendChat_ok hok
      rfl
  | command command =>
      cases command with
      | color color =>
          unfold Ui.RoomUiAction.toJoin onRoomAction
          dsimp only
          cases hcolor : s.admission.sendColor P nonce color with
          | mk admission result =>
          cases result with
          | error error => exact hnothing rfl
          | ok message =>
              obtain ⟨envelope, rfl⟩ := ClientAdmission.sendColor_ok (congrArg Prod.snd hcolor)
              dsimp only
              split
              · exact hsend rfl rfl
              · exact hsend rfl rfl
      | timeoutRequest seconds =>
          refine hchat _ fun message hok => ?_
          obtain ⟨envelope, rfl⟩ := ClientAdmission.sendTimeoutRequest_ok hok
          rfl
      | _ => exact hnothing rfl
  | _ => exact hnothing rfl

/-- A chat that was made and for which there is room is queued. -/
theorem onRoomAction_chat {nonce : Option Nonce} {text : String} {message : Message}
    (hmade : (s.admission.sendChat P nonce text).2 = .ok message)
    (hqueued : ∃ queue, s.queue.send = .ok queue) :
    (s.onRoomAction P nonce (.chat text)).sent = s.sent ++ [message] := by
  obtain ⟨queue, hqueue⟩ := hqueued
  unfold onRoomAction sendChatMessage
  dsimp only
  generalize s.admission.sendChat P nonce text = result at hmade
  obtain ⟨admission, result⟩ := result
  cases hmade
  dsimp only
  rw [send, hqueue]

theorem onInbound_after (P : Primitives) (derive : Argon2) (s : JoinSession) (now : Duration)
    (message : Message) :
    (s.onInbound P derive now (some message)).admission =
        ({ s with lastSeen := now }.handleJoinMessage P derive message).admission ∧
      (s.onInbound P derive now (some message)).screen =
        ({ s with lastSeen := now }.handleJoinMessage P derive message).screen ∧
      (s.onInbound P derive now (some message)).ended =
        ({ s with lastSeen := now }.handleJoinMessage P derive message).ended := by
  unfold onInbound
  dsimp only
  split
  · exact ⟨rfl, rfl, rfl⟩
  split <;> exact ⟨rfl, rfl, rfl⟩

/-- The last branch. -/
theorem handleJoinMessage_of_isAdmission {message : Message} (h : message.isAdmission = true) :
    s.handleJoinMessage P derive message = s.handleHostMessage P derive message := by
  cases message <;> first | rfl | cases h

end JoinSession

end Veilroom
