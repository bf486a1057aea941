import Veilroom.Join.Kept
import Veilroom.Ui.Terminal

/-!
What the screen of a participant shows, and what its keys can do.

The screen is a room screen over a session: its member panel is the member table of the session, a
line that names somebody is what this screen sent or what the session heard of a member under that
member's key, and no key queues anything but what its action is for.
-/
namespace Veilroom

/-! ### What is shown -/

/-- A member as `sync_join_members` shows it. -/
def MemberView.toLine (member : MemberView) : Ui.MemberLine :=
  ⟨member.memberId, member.nickname, member.color, member.isHost⟩

namespace Ui
variable {latest : Nat}

/-- An input that names nobody and gives no invitation. -/
def ViewInput.isPlain : ViewInput latest → Bool
  | .chat .. | .own .. | .invitation _ => false
  | _ => true

namespace RoomView
variable {allowed : ViewInput latest → Prop} {view₀ view sent : RoomView latest} {P : Primitives}
variable {derive : Argon2} {s : JoinSession} {c : ClientAdmission}

/-- A screen that inputs of this kind lead to. -/
def Reached (allowed : ViewInput latest → Prop) (view₀ view : RoomView latest) : Prop :=
  ∃ past, Machine.Run step (fun _ _ input => allowed input) view₀ past view

theorem Reached.step (h : Reached allowed view₀ view) {input : ViewInput latest}
    (hinput : allowed input) : Reached allowed view₀ (view.step input).1 := by
  obtain ⟨past, run⟩ := h
  exact ⟨_, .step run hinput⟩

theorem Reached.mono {allowed' : ViewInput latest → Prop} (h : Reached allowed view₀ view)
    (hallowed : ∀ input, allowed input → allowed' input) : Reached allowed' view₀ view := by
  obtain ⟨past, run⟩ := h
  exact ⟨past, run.mono fun _ _ input => hallowed input⟩

section
variable (hplain : ∀ input : ViewInput latest, input.isPlain = true → allowed input)
include hplain

theorem Reached.syncJoinMembers (h : Reached allowed view₀ view) (c : ClientAdmission) :
    Reached allowed view₀ (view.syncJoinMembers c) := by
  unfold RoomView.syncJoinMembers
  split
  · exact h
  · exact h.step (hplain (.members _) rfl)

theorem Reached.onOutbound {queue : Outbound} {result : Except ChatError Message}
    {reading : Reading latest} (h : Reached allowed view₀ view)
    (hsent : (∃ message, result = .ok message) → (∃ queue', queue.send = .ok queue') →
      Reached allowed view₀ sent) :
    Reached allowed view₀ (view.onOutbound sent queue result reading) := by
  unfold RoomView.onOutbound
  split
  · exact h.step (hplain (.error _ _) rfl)
  · split
    · exact h
    · rename_i queue' hqueue
      exact hsent ⟨_, rfl⟩ ⟨queue', hqueue⟩

/-- An action shows nothing that names somebody but the chat it queued. -/
theorem Reached.onJoinAction (h : Reached allowed view₀ view) (nonce : Option Nonce)
    (clipboard : Except String Unit) (clock : Clock latest) (action : RoomUiAction)
    (hown : ∀ text reading, action = .chat text →
      (∃ message, (s.admission.sendChat P nonce text).2 = .ok message) →
      (∃ queue', s.queue.send = .ok queue') → allowed (.own text reading)) :
    Reached allowed view₀ (view.onJoinAction P s nonce clipboard clock action) := by
  cases action with
  | chat text =>
      exact h.onOutbound hplain fun hmade hqueued => h.step (hown text _ rfl hmade hqueued)
  | command command =>
      cases command with
      | color color =>
          exact h.onOutbound hplain fun _ _ =>
            (h.syncJoinMembers hplain _).step (hplain (.system _ _) rfl)
      | list => exact (h.syncJoinMembers hplain _).step (hplain (.system _ _) rfl)
      | whois target =>
          unfold RoomView.onJoinAction
          dsimp only
          split
          · exact h.step (hplain (.system _ _) rfl)
          · exact h.step (hplain (.error _ _) rfl)
      | timeoutRequest seconds =>
          exact h.onOutbound hplain fun _ _ => h.step (hplain (.system _ _) rfl)
      | _ => exact h.step (hplain (.error _ _) rfl)
  | error text => exact h.step (hplain (.error _ _) rfl)
  | copyInvitation uri =>
      cases clipboard with
      | ok _ => exact h.step (hplain (.system _ _) rfl)
      | error error => exact h.step (hplain (.error _ _) rfl)
  | leave | exit => exact h

theorem Reached.onMembership (h : Reached allowed view₀ view) (c : ClientAdmission)
    (clock : Clock latest) (message : Message) :
    Reached allowed view₀ (view.onMembership P c clock message) := by
  unfold RoomView.onMembership
  split
  · exact h.step (hplain (.error _ _) rfl)
  · have hsynced := h.syncJoinMembers hplain
    dsimp only
    split
    · exact (hsynced _).step (hplain (.system _ _) rfl)
    · exact (hsynced _).step (hplain (.status _) rfl)
    · exact hsynced _

/-- A message shows nothing that names somebody but the chat that was heard. -/
theorem Reached.onJoinMessage (h : Reached allowed view₀ view) (clock : Clock latest)
    (message : Message)
    (hheard : ∀ envelope chat member color text reading, message = .chatMessage envelope →
      s.admission.chat = some chat → chat.Hears P envelope member text →
        allowed (.chat member.nickname color text reading)) :
    Reached allowed view₀ (view.onJoinMessage P s clock message) := by
  cases message with
  | shutdown => exact h.step (hplain (.system _ _) rfl)
  | error error =>
      unfold RoomView.onJoinMessage
      dsimp only
      split
      · exact h.step (hplain (.error _ _) rfl)
      · exact h
  | epochWrap wrap =>
      unfold RoomView.onJoinMessage
      dsimp only
      split
      · exact h
      · split
        · exact h
        · exact h.step (hplain (.system _ _) rfl)
  | chatMessage envelope =>
      unfold RoomView.onJoinMessage
      dsimp only
      split
      · exact h.step (hplain (.error _ _) rfl)
      · exact h
      · rename_i c text hok
        obtain ⟨chat, member, hchat, hhears, hmember⟩ := ClientAdmission.onChatMessage_ok hok
        rw [hmember]
        exact h.step (hheard envelope chat member _ text _ rfl hchat hhears)
  | colorChange envelope => exact h.syncJoinMembers hplain _
  | timeoutChanged envelope =>
      unfold RoomView.onJoinMessage
      dsimp only
      split
      · exact h.step (hplain (.error _ _) rfl)
      · exact (h.step (hplain (.timeout _) rfl)).step (hplain (.notice _ _) rfl)
  | memberJoined _ | memberLeft _ | memberKicked _ | joinPolicyChanged _ | memberSnapshot _ =>
      exact h.onMembership hplain _ clock _
  | _ => exact h

end

/-! ### The member panel -/

theorem members_syncJoinMembers (hnone : c.chat = none → view.members = []) :
    (view.syncJoinMembers c).members = c.table.map MemberView.toLine := by
  unfold syncJoinMembers
  split
  · rename_i hchat
    rw [hnone hchat, ClientAdmission.table, hchat]
    rfl
  · rename_i session hchat
    rw [ClientAdmission.table, hchat]
    rfl

theorem members_onOutbound {queue : Outbound} {result : Except ChatError Message}
    {reading : Reading latest} (hsent : sent.members = view.members) :
    (view.onOutbound sent queue result reading).members = view.members := by
  unfold onOutbound
  split
  · rfl
  · split
    · rfl
    · exact hsent

/-- A table that was shown is still shown where the session keeps it. -/
theorem members_nil {c' : ClientAdmission} (hchat : c'.chat = none ↔ c.chat = none)
    (hmembers : view.members = c.table.map MemberView.toLine) (hnone : c'.chat = none) :
    view.members = [] := by
  rw [hmembers, ClientAdmission.table, hchat.mp hnone]
  rfl

theorem members_onJoinAction (hlive : s.ended = none)
    (hmembers : view.members = s.admission.table.map MemberView.toLine) (nonce : Option Nonce)
    (clipboard : Except String Unit) (clock : Clock latest) (action : RoomUiAction) :
    (view.onJoinAction P s nonce clipboard clock action).members =
      (s.onRoomAction P nonce action.toJoin).admission.table.map MemberView.toLine := by
  have hsent (result : ClientAdmission × Except ChatError Message)
      (hsame : s.admission.SameTable result.1) :
      (s.sendChatMessage result).admission.table = s.admission.table :=
    (JoinSession.keeps_sendChatMessage hsame).admission.table
  cases action with
  | chat text =>
      have hown : (view.pushOwn text (clock 0)).members = view.members := rfl
      refine (members_onOutbound hown).trans (hmembers.trans ?_)
      rw [RoomUiAction.toJoin, JoinSession.onRoomAction,
        hsent _ (ClientAdmission.sendChat_same _ _)]
  | command command =>
      cases command with
      | color color =>
          have hsame := ClientAdmission.sendColor_same (P := P) (c := s.admission) nonce color
          unfold onJoinAction RoomUiAction.toJoin JoinSession.onRoomAction JoinSession.send
          dsimp only
          generalize s.admission.sendColor P nonce color = result at hsame
          obtain ⟨admission, error | message⟩ := result
          · exact hmembers.trans (congrArg _ hsame.table.symm)
          · cases hqueue : s.queue.send with
            | error error =>
                simp only [onOutbound, hqueue, JoinSession.fail, JoinSession.finish,
                  Option.isSome_some, if_true]
                exact hmembers.trans (congrArg _ hsame.table.symm)
            | ok queue =>
                simp only [onOutbound, hqueue, hlive, Option.isSome_none, Bool.false_eq_true,
                  if_false]
                exact members_syncJoinMembers
                  (members_nil ((admission.chat_setOwnColor color).trans hsame.chat) hmembers)
      | list => exact members_syncJoinMembers (members_nil Iff.rfl hmembers)
      | timeoutRequest seconds =>
          have hsystem (text : String) : (view.pushSystem text (clock 0)).members = view.members :=
            rfl
          refine (members_onOutbound (hsystem _)).trans (hmembers.trans ?_)
          rw [RoomUiAction.toJoin, JoinSession.onRoomAction,
            hsent _ (ClientAdmission.sendTimeoutRequest_same _ _)]
      | whois target =>
          unfold onJoinAction
          dsimp only
          split <;> exact hmembers
      | _ => exact hmembers
  | copyInvitation uri =>
      cases clipboard with
      | ok _ => exact hmembers
      | error error => exact hmembers
  | error _ | leave | exit => exact hmembers

theorem members_onMembership (hmembers : view.members = c.table.map MemberView.toLine)
    (clock : Clock latest) (message : Message) :
    (view.onMembership P c clock message).members =
      (c.onMembershipMessage P message).1.table.map MemberView.toLine := by
  have hchat : (c.onMembershipMessage P message).1.chat = none ↔ c.chat = none :=
    ClientAdmission.chat_withChat
  unfold onMembership
  split
  · rename_i c' error heq
    rw [heq, ClientAdmission.onMembershipMessage_error heq]
    exact hmembers
  · rename_i c' heq
    rw [heq] at hchat ⊢
    have hsynced := members_syncJoinMembers (members_nil hchat hmembers)
    dsimp only
    split <;> exact hsynced

theorem members_onJoinMessage (hmembers : view.members = s.admission.table.map MemberView.toLine)
    (clock : Clock latest) {message : Message} (hmessage : message.isAdmission = false) :
    (view.onJoinMessage P s clock message).members =
      (s.handleJoinMessage P derive message).admission.table.map MemberView.toLine := by
  cases message with
  | keepalive | shutdown => exact hmembers
  | error error =>
      unfold onJoinMessage JoinSession.handleJoinMessage
      dsimp only
      split <;> exact hmembers
  | epochWrap wrap =>
      have hsame := s.admission.onEpochWrap_same (P := P) wrap
      unfold onJoinMessage JoinSession.handleJoinMessage
      dsimp only
      generalize s.admission.onEpochWrap P wrap = result at hsame
      obtain ⟨admission, error | ack⟩ := result
      · exact hmembers.trans (congrArg _ hsame.table.symm)
      · have hkeeps : s.Keeps { s with admission } := ⟨hsame, fun _ h => h⟩
        have htable := (hkeeps.send ack).admission.table
        have hshown : view.members =
            ({ s with admission }.send ack).admission.table.map MemberView.toLine :=
          hmembers.trans (congrArg _ htable.symm)
        dsimp only
        split <;> exact hshown
  | chatMessage envelope =>
      have hsame := s.admission.onChatMessage_same (P := P) envelope
      have hshown : view.members =
          (s.admission.onMemberMessage P 0x40 envelope).1.table.map MemberView.toLine :=
        hmembers.trans (congrArg _ hsame.table.symm)
      unfold onJoinMessage
      dsimp only
      split <;> exact hshown
  | colorChange envelope =>
      exact members_syncJoinMembers (members_nil ClientAdmission.chat_withChat hmembers)
  | timeoutChanged envelope =>
      have hsame := s.admission.onTimeoutChanged_same (P := P) envelope
      have hshown : view.members =
          (s.admission.onTimeoutChanged P envelope).1.table.map MemberView.toLine :=
        hmembers.trans (congrArg _ hsame.table.symm)
      unfold onJoinMessage
      dsimp only
      split <;> exact hshown
  | memberJoined _ | memberLeft _ | memberKicked _ | joinPolicyChanged _ | memberSnapshot _ =>
      exact members_onMembership hmembers clock _
  | _ => cases hmessage

end RoomView
end Ui

/-! ### The screen -/

namespace JoinScreen
variable {latest : Nat} {P : Primitives} {derive : Argon2} {screen : JoinScreen latest}
variable {past : Past latest}

/-- In this step the session heard `text` from `member`. -/
def Hears (P : Primitives) (entry : Entry latest) (member : MemberView) (text : String) : Prop :=
  ∃ now envelope clock chat, entry.input = .inbound now (some (.chatMessage envelope)) clock ∧
    entry.before.session.admission.chat = some chat ∧ chat.Hears P envelope member text

/-- In this step a key said `text`, and the message that the session made of it was queued. -/
def Sends (P : Primitives) (entry : Entry latest) (text : String) : Prop :=
  entry.output = some (.chat text) ∧ ∃ nonce message,
    (entry.before.session.admission.sendChat P nonce text).2 = .ok message ∧
      entry.after.session.sent = entry.before.session.sent ++ [message]

/-- What may be shown after this past: what was heard and what was sent. -/
def Shows (P : Primitives) (past : Past latest) : Ui.ViewInput latest → Prop
  | .chat nickname _ text _ =>
    ∃ entry ∈ past, ∃ member, Hears P entry member text ∧ member.nickname = nickname
  | .own text _ => ∃ entry ∈ past, Sends P entry text
  | .invitation _ => False
  | _ => True

theorem Shows.cons {input : Ui.ViewInput latest} (h : Shows P past input) (entry : Entry latest) :
    Shows P (entry :: past) input := by
  cases input with
  | chat nickname color text reading =>
      obtain ⟨before, hmem, hheard⟩ := h
      exact ⟨before, .tail _ hmem, hheard⟩
  | own text reading =>
      obtain ⟨before, hmem, hsent⟩ := h
      exact ⟨before, .tail _ hmem, hsent⟩
  | invitation uri => exact h
  | _ => trivial

theorem Shows.of_plain (past : Past latest) (input : Ui.ViewInput latest)
    (h : input.isPlain = true) : Shows P past input := by
  cases input with
  | chat _ _ _ _ | own _ _ | invitation _ => cases h
  | _ => trivial

/-- A room screen over a session that is in the room. -/
structure Inside (P : Primitives) (past : Past latest) (s : JoinSession)
    (view : Ui.RoomView latest) : Prop where
  isAdmitted : s.admission.isAdmitted = true
  members : view.members = s.admission.table.map MemberView.toLine
  reached : ∃ own, s.screen = .room own ∧
    Ui.RoomView.Reached (Shows P past) (.participant own) view

/-- The room is shown when the session is in it, as the session has it. -/
structure Mirrors (P : Primitives) (past : Past latest) (screen : JoinScreen latest) : Prop where
  outside : screen.view = none →
    screen.session.admission.isAdmitted = false ∧ screen.session.admission.chat = none
  inside : ∀ view, screen.view = some view → Inside P past screen.session view

/-- A session that stays where it is, with what is shown of its step. -/
theorem Mirrors.next (h : Mirrors P past screen) (entry : Entry latest) {s : JoinSession}
    {update : Ui.RoomView latest → Ui.RoomView latest} (hstays : screen.session.Stays s)
    (hmembers : ∀ view : Ui.RoomView latest,
      view.members = screen.session.admission.table.map MemberView.toLine →
        (update view).members = s.admission.table.map MemberView.toLine)
    (hreached : ∀ own view, Ui.RoomView.Reached (Shows P (entry :: past)) (.participant own) view →
      Ui.RoomView.Reached (Shows P (entry :: past)) (.participant own) (update view)) :
    Mirrors P (entry :: past) ⟨s, screen.view.map update⟩ where
  outside hview := by
    obtain ⟨hadmitted, hchat⟩ := h.outside (Option.map_eq_none_iff.mp hview)
    exact ⟨hstays.isAdmitted.trans hadmitted, hstays.chat.mpr hchat⟩
  inside := by
    intro view hview
    obtain ⟨before, hbefore, rfl⟩ := Option.map_eq_some_iff.mp hview
    have hinside := h.inside before hbefore
    obtain ⟨own, hroom, hshown⟩ := hinside.reached
    exact ⟨hstays.isAdmitted.trans hinside.isAdmitted, hmembers before hinside.members, own,
      hstays.room own hroom, hreached own before (hshown.mono fun _ hinput => hinput.cons entry)⟩

/-- A session that keeps what is shown of it. -/
theorem Mirrors.keeps (h : Mirrors P past screen) (entry : Entry latest) {s : JoinSession}
    {update : Ui.RoomView latest → Ui.RoomView latest} (hkeeps : screen.session.Keeps s)
    (hmembers : ∀ view : Ui.RoomView latest, (update view).members = view.members)
    (hreached : ∀ own view, Ui.RoomView.Reached (Shows P (entry :: past)) (.participant own) view →
      Ui.RoomView.Reached (Shows P (entry :: past)) (.participant own) (update view)) :
    Mirrors P (entry :: past) ⟨s, screen.view.map update⟩ := by
  refine h.next entry hkeeps.stays (fun view hview => ?_) hreached
  rw [hmembers view, hview, hkeeps.admission.table]

/-- A session that keeps what is shown of it, in a step that shows nothing. -/
theorem Mirrors.kept (h : Mirrors P past screen) (entry : Entry latest) {s : JoinSession}
    (hkeeps : screen.session.Keeps s) : Mirrors P (entry :: past) ⟨s, screen.view⟩ := by
  have hkept : Mirrors P (entry :: past) ⟨s, screen.view.map id⟩ :=
    h.keeps entry hkeeps (fun _ => rfl) fun _ _ hshown => hshown
  rwa [Option.map_id] at hkept

theorem step_ended (h : screen.session.ended.isSome) (input : Input latest) :
    screen.step P derive input = (screen, none) := if_pos h

/-- What a key in the room does: it leaves the session alone, or makes an action of the view that
the session takes. -/
theorem step_roomKey (P : Primitives) (derive : Argon2) (h : Mirrors P past screen)
    (hlive : screen.session.ended = none) (key : Ui.RoomKey) (nonce : Option Nonce)
    (clipboard : Except String Unit) (clock : Ui.Clock latest) :
    screen.step P derive (.roomKey key nonce clipboard clock) =
        (⟨screen.session, screen.view.map fun view => (view.onKey key clock).1⟩, none) ∨
      ∃ view action, screen.view = some view ∧ (view.onKey key clock).2 = some action ∧
        screen.step P derive (.roomKey key nonce clipboard clock) =
          (⟨screen.session.onRoomAction P nonce action.toJoin, screen.view.map fun view =>
            (view.onKey key clock).1.onJoinAction P screen.session nonce clipboard clock action⟩,
              some action) := by
  obtain ⟨s, view⟩ := screen
  change s.ended = none at hlive
  unfold step
  simp only [hlive, Option.isSome_none, Bool.false_eq_true, if_false]
  cases view with
  | none => exact .inl rfl
  | some view =>
      obtain ⟨own, hroom, -⟩ := (h.inside view rfl).reached
      change s.screen = .room own at hroom
      cases hkey : view.onKey key clock with
      | mk after action =>
      cases action with
      | none =>
          simp only [hkey, Option.map_some, true_or]
      | some action =>
          refine .inr ⟨view, action, rfl, by rw [hkey], ?_⟩
          simp only [JoinSession.step, hlive, hroom, hkey, Option.isSome_none,
            Bool.false_eq_true, if_false, Option.map_some]

theorem Mirrors.roomKey (h : Mirrors P past screen) (hlive : screen.session.ended = none)
    {key : Ui.RoomKey} {nonce : Option Nonce} {clipboard : Except String Unit}
    {clock : Ui.Clock latest} {entry : Entry latest} (hbefore : entry.before = screen)
    (hstep : screen.step P derive (.roomKey key nonce clipboard clock) =
      (entry.after, entry.output)) : Mirrors P (entry :: past) entry.after := by
  have hplain : ∀ input : Ui.ViewInput latest, input.isPlain = true →
      Shows P (entry :: past) input := Shows.of_plain (entry :: past)
  obtain heq | ⟨view, action, -, -, heq⟩ := step_roomKey P derive h hlive key nonce clipboard clock
  · obtain ⟨hafter, -⟩ := Prod.ext_iff.mp (hstep.symm.trans heq)
    dsimp only at hafter
    rw [hafter]
    exact h.keeps entry (.refl _) (fun view => (Ui.RoomView.onKey_sameRoom view key clock).members)
      fun own view hshown => hshown.step (hplain (.key key clock) rfl)
  · obtain ⟨hafter, houtput⟩ := Prod.ext_iff.mp (hstep.symm.trans heq)
    dsimp only at hafter houtput
    rw [hafter]
    refine h.next entry (JoinSession.onRoomAction_stays _ _ _) (fun view hview => ?_)
      fun own view hshown => ?_
    · refine Ui.RoomView.members_onJoinAction hlive ?_ nonce clipboard clock action
      rw [(Ui.RoomView.onKey_sameRoom view key clock).members, hview]
    · have hpressed := hshown.step (hplain (.key key clock) rfl)
      refine hpressed.onJoinAction hplain nonce clipboard clock action ?_
      rintro text reading rfl ⟨message, hmade⟩ hqueued
      refine ⟨entry, .head _, houtput, nonce, message, by rw [hbefore, hmade], ?_⟩
      rw [hafter, hbefore]
      exact JoinSession.onRoomAction_chat hmade hqueued

/-- A message: the member panel follows the table, and a chat is shown as it was heard. -/
theorem Mirrors.joinMessage (h : Mirrors P past screen)
    {now : Duration} {message : Message} {clock : Ui.Clock latest} {entry : Entry latest}
    (hbefore : entry.before = screen) (hinput : entry.input = .inbound now (some message) clock)
    (hmessage : message.isAdmission = false) :
    Mirrors P (entry :: past) ⟨screen.session.onInbound P derive now (some message),
      screen.view.map fun view => view.onJoinMessage P screen.session clock message⟩ := by
  obtain ⟨hadmission, hscreen, -⟩ :=
    screen.session.onInbound_after P derive now message
  have hstays := JoinSession.handleJoinMessage_stays P derive
    { screen.session with lastSeen := now } hmessage
  refine h.next entry ⟨?_, ?_, ?_⟩ (fun view hview => ?_) fun own view hshown => ?_
  · exact (congrArg ClientAdmission.isAdmitted hadmission).trans hstays.isAdmitted
  · rw [hadmission]
    exact hstays.chat
  · rw [hscreen]
    exact hstays.room
  · rw [hadmission]
    exact Ui.RoomView.members_onJoinMessage (s := { screen.session with lastSeen := now }) hview
      clock hmessage
  · refine hshown.onJoinMessage (Shows.of_plain _) clock message ?_
    intro envelope chat member color text reading hsaid hchat hhears
    refine ⟨entry, .head _, member, ⟨now, envelope, clock, chat, ?_, ?_, hhears⟩, rfl⟩
    · rw [hinput, hsaid]
    · rw [hbefore, hchat]

/-- A message of the handshake shows the room, once the host has accepted. -/
theorem Mirrors.hostMessage (h : Mirrors P past screen) (hlive : screen.session.ended = none)
    {now : Duration} {message : Message} (entry : Entry latest)
    (hmessage : message.isAdmission = true) :
    Mirrors P (entry :: past) ⟨screen.session.onInbound P derive now (some message),
      if (screen.session.onInbound P derive now (some message)).ended.isNone &&
          (screen.session.onInbound P derive now (some message)).admission.isAdmitted then
        some (.participant (screen.session.ownNickname.getD "you"))
      else screen.view⟩ := by
  obtain ⟨hadmission, hscreen, hended⟩ :=
    screen.session.onInbound_after P derive now message
  rw [JoinSession.handleJoinMessage_of_isAdmission hmessage] at hadmission hscreen hended
  rw [hadmission, hended]
  obtain ⟨hkeeps, hnot⟩ | ⟨hadmitted, memberId, heq⟩ :=
    JoinSession.handleHostMessage_cases P derive (s := { screen.session with lastSeen := now })
      hlive message
  · rw [hnot, if_neg Bool.false_ne_true]
    have hkept : screen.session.Keeps (screen.session.onInbound P derive now (some message)) := by
      constructor
      · rw [hadmission]
        exact hkeeps.admission
      · rw [hscreen]
        exact hkeeps.room
    exact h.kept entry hkept
  · rw [heq] at hadmission hscreen ⊢
    have hview : screen.view = none := by
      cases hview : screen.view with
      | none => rfl
      | some view => exact Bool.noConfusion (hadmitted.symm.trans (h.inside view hview).isAdmitted)
    have hlet : (({ screen.session with lastSeen := now } : JoinSession).ended.isNone &&
        (screen.session.admission.admittedAs memberId).isAdmitted) = true := by
      rw [hlive]
      rfl
    rw [hlet, if_pos rfl]
    refine ⟨nofun, fun view hshown => ?_⟩
    cases hshown
    refine ⟨by rw [hadmission]; rfl, ?_, _, hscreen, [], .start⟩
    rw [hadmission, ClientAdmission.table_admittedAs (h.outside hview).2 memberId]
    rfl

theorem Mirrors.step (h : Mirrors P past screen) {entry : Entry latest}
    (hbefore : entry.before = screen)
    (hstep : screen.step P derive entry.input = (entry.after, entry.output)) :
    Mirrors P (entry :: past) entry.after := by
  obtain ⟨before, input, output, after⟩ := entry
  cases hended : screen.session.ended with
  | some outcome =>
      rw [step_ended (by rw [hended]; rfl)] at hstep
      cases hstep
      exact h.kept _ (.refl after.session)
  | none =>
  cases input with
  | roomKey key nonce clipboard clock => exact h.roomKey hended hbefore hstep
  | inbound now message clock =>
      cases message with
      | none =>
          simp only [JoinScreen.step, hended] at hstep
          cases hstep
          exact h.kept _ (JoinSession.keeps_step nofun nofun)
      | some message =>
          have hsession : screen.session.step P derive (.inbound now (some message)) =
              screen.session.onInbound P derive now (some message) := by
            rw [JoinSession.step, hended]
            rfl
          simp only [JoinScreen.step, hended, afterMessage, hsession] at hstep
          cases hmessage : message.isAdmission with
          | false =>
              rw [hmessage] at hstep
              cases hstep
              exact h.joinMessage hbefore rfl hmessage
          | true =>
              rw [hmessage] at hstep
              cases hstep
              exact h.hostMessage hended _ hmessage
  | expiry now =>
      simp only [JoinScreen.step, hended] at hstep
      cases hstep
      refine h.keeps _ (.refl _) (fun _ => rfl) fun _ _ hshown => ?_
      exact hshown.step (Shows.of_plain _ (.tick now) rfl)
  | paste text =>
      simp only [JoinScreen.step, hended] at hstep
      cases hstep
      refine h.keeps _ (JoinSession.keeps_step nofun nofun) (fun _ => rfl) fun _ _ hshown => ?_
      exact hshown.step (Shows.of_plain _ (.paste text) rfl)
  | _ =>
      simp only [JoinScreen.step, hended] at hstep
      cases hstep
      exact h.kept _ (JoinSession.keeps_step nofun nofun)

/-! ### Runs -/

/-- A key that makes an action is pressed in the room, and the session takes the action. -/
theorem step_action (h : Mirrors P past screen) {input : Input latest}
    {action : Ui.RoomUiAction} (haction : (screen.step P derive input).2 = some action) :
    ∃ (view : Ui.RoomView latest) (key : Ui.RoomKey) (clock : Ui.Clock latest)
      (nonce : Option Nonce), screen.view = some view ∧ (view.onKey key clock).2 = some action ∧
        (screen.step P derive input).1.session =
          screen.session.onRoomAction P nonce action.toJoin := by
  cases hended : screen.session.ended with
  | some outcome =>
      rw [step_ended (by rw [hended]; rfl)] at haction
      cases haction
  | none =>
  cases input with
  | roomKey key nonce clipboard clock =>
      obtain heq | ⟨view, made, hview, hkey, heq⟩ :=
        step_roomKey P derive h hended key nonce clipboard clock
      · rw [heq] at haction
        cases haction
      · rw [heq] at haction
        cases haction
        exact ⟨view, key, clock, nonce, hview, hkey, by rw [heq]⟩
  | inbound now message clock =>
      simp only [step, hended] at haction
      cases message <;> cases haction
  | _ =>
      simp only [step, hended] at haction
      cases haction

/-- A step of the screen is at most one of the session. -/
theorem step_session (P : Primitives) (derive : Argon2) (screen : JoinScreen latest)
    (input : Input latest) :
    (screen.step P derive input).1.session = screen.session ∨
      ∃ input', (screen.step P derive input).1.session = screen.session.step P derive input' := by
  unfold step
  split
  · exact .inl rfl
  cases input with
  | roomKey key nonce clipboard clock =>
      dsimp only
      split
      · exact .inl rfl
      · split
        · exact .inl rfl
        · rename_i action _
          exact .inr ⟨.roomAction nonce action.toJoin, rfl⟩
  | expiry now => exact .inl rfl
  | inbound now message clock =>
      cases message with
      | none => exact .inr ⟨.inbound now none, rfl⟩
      | some message => exact .inr ⟨.inbound now (some message), rfl⟩
  | _ =>
      dsimp only [proceed]
      exact .inr ⟨_, rfl⟩

/-- A line that names somebody shows what was sent, or what was heard of the member it names. -/
theorem Inside.named {s : JoinSession} {view : Ui.RoomView latest} (h : Inside P past s view)
    {line : MessageLine latest} (hline : line ∈ view.messages.lines)
    (hnamed : line.nickname.isSome) :
    (∃ entry ∈ past, ∃ text, Sends P entry text ∧ line.Says view.ownNickname text) ∨
      ∃ entry ∈ past, ∃ member text,
        Hears P entry member text ∧ line.Says member.nickname text := by
  obtain ⟨own, -, viewPast, run⟩ := h.reached
  obtain ⟨hown, hlines⟩ := Ui.RoomView.named_of_run (run.mono fun _ _ _ _ => trivial)
  obtain ⟨shown, hmem, hsays⟩ := hlines line hline hnamed
  obtain ⟨newer, older, rfl⟩ := List.append_of_mem hmem
  obtain ⟨-, hshows, -, -⟩ := run.split
  rw [hown]
  generalize shown.input = input at hsays hshows
  cases input with
  | chat nickname color text reading =>
      obtain ⟨entry, hentry, member, hheard, rfl⟩ := hshows
      exact .inr ⟨entry, hentry, member, text, hheard, hsays⟩
  | own text reading =>
      obtain ⟨entry, hentry, hsent⟩ := hshows
      exact .inl ⟨entry, hentry, text, hsent, hsays⟩
  | _ => exact hsays.elim

/-- The screen of a participant is no host's, and never has an invitation. -/
theorem Inside.participant {s : JoinSession} {view : Ui.RoomView latest}
    (h : Inside P past s view) : view.isHost = false ∧ view.invitation = none := by
  obtain ⟨own, -, viewPast, run⟩ := h.reached
  have hknown := Ui.RoomView.known_of_run (run.mono fun _ _ _ _ => trivial)
  refine ⟨hknown.isHost, hknown.invitation.trans (List.findSome?_eq_none_iff.mpr ?_)⟩
  intro shown hmem
  obtain ⟨newer, older, rfl⟩ := List.append_of_mem hmem
  obtain ⟨-, hshows, -, -⟩ := run.split
  generalize shown.input = input at hshows
  cases input with
  | invitation uri => exact hshows.elim
  | _ => rfl

section
variable {invitation : Invitation} {password : Bytes} {identity : Option MemberIdentity}
variable {clientNonce : Option ShortNonce} {admission : ClientAdmission} {now : Duration}
variable {queue : Outbound}

theorem session_of_run (run : Run P derive (.start admission now queue) past screen) :
    ∃ inputs, screen.session = (JoinSession.start admission now queue).run P derive inputs := by
  refine run.invariant (fun _ screen => ∃ inputs, screen.session =
    (JoinSession.start admission now queue).run P derive inputs) ⟨[], rfl⟩ ?_
  rintro past screen input - ⟨inputs, hinputs⟩ -
  obtain heq | ⟨input', heq⟩ := step_session P derive screen input
  · exact ⟨inputs, heq.trans hinputs⟩
  · refine ⟨inputs ++ [input'], heq.trans ?_⟩
    rw [hinputs, JoinSession.run, JoinSession.run, List.foldl_append]
    rfl

theorem mirrors_of_run
    (hnew : ClientAdmission.new invitation password identity clientNonce = .ok admission)
    (run : Run P derive (.start admission now queue) past screen) : Mirrors P past screen := by
  refine run.invariant (fun past screen => Mirrors P past screen)
    ⟨fun _ => ?_, fun view hview => by cases hview⟩ fun past screen input _ h _ => h.step rfl rfl
  have hstart : (JoinSession.start admission now queue).admission = admission := by
    unfold JoinSession.start
    dsimp only
    split <;> rfl
  unfold ClientAdmission.new at hnew
  split at hnew <;> cases hnew
  exact ⟨congrArg ClientAdmission.isAdmitted hstart, congrArg ClientAdmission.chat hstart⟩

/-- The screen of a participant over any run of its session, whatever the keys, the messages, the
queue, the clocks and the generator do: the session takes its own steps; a room screen is shown from
the moment the host accepts; its member panel is the member table row by row; and a line that names
somebody shows a text that was sent from this screen under its own name, or one that the session
heard of the member it names. What a key hands over is what a member without an invitation may hand
over; it queues one message at most, of the kind its action is for; and a command for the host's
room leaves the session as it was. -/
theorem participant_screen
    (hnew : ClientAdmission.new invitation password identity clientNonce = .ok admission)
    (run : Run P derive (.start admission now queue) past screen) :
    (∃ inputs, screen.session = (JoinSession.start admission now queue).run P derive inputs) ∧
    (screen.view.isSome ↔ screen.session.admission.isAdmitted = true) ∧
    (∀ view, screen.view = some view →
      (∃ own viewPast, screen.session.screen = .room own ∧
        Ui.RoomView.Run (.participant own) viewPast view) ∧
      view.members = screen.session.admission.table.map MemberView.toLine ∧
      ∀ line ∈ view.messages.lines, line.nickname.isSome →
        (∃ entry ∈ past, ∃ text, Sends P entry text ∧ line.Says view.ownNickname text) ∨
        ∃ entry ∈ past, ∃ member text,
          Hears P entry member text ∧ line.Says member.nickname text) ∧
    ∀ entry ∈ past, ∀ action, entry.output = some action →
      action.Authorised false none ∧
      (∃ sent, entry.after.session.sent = entry.before.session.sent ++ sent ∧ sent.length ≤ 1 ∧
        ∀ message ∈ sent, action.queues message = true) ∧
      ∀ command, action = .command command → command.intoHostCommand.isSome →
        entry.after.session = entry.before.session := by
  have hmirrors := mirrors_of_run hnew run
  refine ⟨session_of_run run, ?_, fun view hview => ?_, fun entry hentry action haction => ?_⟩
  · cases hview : screen.view with
    | none => simp [(hmirrors.outside hview).1]
    | some view => simp [(hmirrors.inside view hview).isAdmitted]
  · have hinside := hmirrors.inside view hview
    obtain ⟨own, hroom, viewPast, hshown⟩ := hinside.reached
    exact ⟨⟨own, viewPast, hroom, hshown.mono fun _ _ _ _ => trivial⟩, hinside.members,
      fun line hline hnamed => hinside.named hline hnamed⟩
  · obtain ⟨newer, older, rfl⟩ := List.append_of_mem hentry
    obtain ⟨hrun, -, hstep, -⟩ := run.split
    have hbefore := mirrors_of_run hnew hrun
    have hmade : (entry.before.step P derive entry.input).2 = some action := by
      rw [hstep]
      exact haction
    obtain ⟨view, key, clock, nonce, hview, hkey, hsession⟩ := step_action hbefore hmade
    rw [hstep] at hsession
    dsimp only at hsession
    obtain ⟨hrole, hinvitation⟩ := (hbefore.inside view hview).participant
    have hauthorised := Ui.RoomView.onKey_authorised hkey
    rw [hrole, hinvitation] at hauthorised
    rw [hsession]
    refine ⟨hauthorised, JoinSession.onRoomAction_sent _ nonce action, ?_⟩
    rintro command rfl hhost
    cases command <;> first | rfl | cases hhost

end

end JoinScreen

/-! ### A guest of the symbolic room -/

namespace Symbolic
open JoinScreen

def midnight : Ui.Clock 0 := fun _ => ⟨⟨.last 86399⟩, .last 0⟩

/-- The guest is let into the room, hears a welcome of the host and answers it. -/
def attending : List (JoinScreen.Input 0) :=
  "guest".toList.map (fun ch => .formKey 1 (.char ch)) ++
    [.formKey 1 .enter, .formKey 1 .enter, .inbound 2 (some (.hostHello hello)) midnight,
      .inbound 3 (some (.passwordChallenge ⟨argon2MCost, argon2TCost, argon2PCost,
        Vector.replicate 16 2, Vector.replicate 16 4⟩)) midnight,
      .inbound 4 (some (.joinAccepted ⟨1⟩)) midnight,
      .inbound 5 (some (.epochWrap ⟨1, Vector.replicate 24 0,
        encrypt (Vector.replicate 32 11) (List.replicate 32 7)⟩)) midnight,
      .inbound 6 (some (.memberSnapshot ⟨1, 1,
        [⟨0, "host", 0, true, Vector.replicate 32 1⟩,
          ⟨1, "guest", 0, false, Vector.replicate 32 8⟩],
        sign (Vector.replicate 32 1)⟩)) midnight,
      .inbound 7 (some (.chatMessage ⟨1, 0, 1, Vector.replicate 24 0,
        encrypt (Vector.replicate 32 7) (Transcript.utf8 "welcome"),
        sign (Vector.replicate 32 1)⟩)) midnight,
      .roomKey (.char 'h' .none) none (.ok ()) midnight,
      .roomKey (.char 'i' .none) none (.ok ()) midnight,
      .roomKey .enter (some (Vector.replicate 24 0)) (.ok ()) midnight]

def attended : JoinScreen.Past 0 × JoinScreen 0 :=
  Machine.exec (step primitives argon2) attending [] (.start joiner 0 ⟨64, false⟩)

end Symbolic

open Symbolic in
theorem JoinScreen.participant_screen_guest :
    (attended.2.view.map fun view => view.messages.lines.map MessageLine.text) =
        some ["epoch 1 active", "host: welcome", "guest: hi"] ∧
      ∃ view, attended.2.view = some view ∧
        view.members = attended.2.session.admission.table.map MemberView.toLine ∧
        ∀ line ∈ view.messages.lines, line.nickname.isSome →
          (∃ entry ∈ attended.1, ∃ text,
            Sends primitives entry text ∧ line.Says view.ownNickname text) ∨
          ∃ entry ∈ attended.1, ∃ member text,
            Hears primitives entry member text ∧ line.Says member.nickname text := by
  have run : Run primitives argon2 (.start joiner 0 ⟨64, false⟩) attended.1 attended.2 :=
    Machine.Run.exec .start fun _ _ _ _ _ _ _ _ => trivial
  have hnew : ClientAdmission.new joiner.invitation [1] (some joiner.identity)
      (some joiner.clientNonce) = .ok joiner := rfl
  obtain ⟨-, -, hshown, -⟩ := participant_screen hnew run
  refine ⟨by decide +kernel, ?_⟩
  cases hview : attended.2.view with
  | none =>
      have hsome : attended.2.view.isSome = true := by decide +kernel
      rw [hview] at hsome
      cases hsome
  | some view =>
      obtain ⟨-, hmembers, hnamed⟩ := hshown view hview
      exact ⟨view, rfl, hmembers, hnamed⟩

end Veilroom
