import Veilroom.Host.Screen
import Veilroom.Join.Session

/-!
The participant's room screen over its session: what each branch of `join_session_body` and of
`handle_join_message` shows, and the keyboard that drives both.

The session itself is `Veilroom.Join.Session`; a step here is at most one of its steps, with what
the room screen shows of it. A session that has ended takes no step.
-/
namespace Veilroom

/-- What the session makes of an action of the room screen; the others change the view at most. -/
def Ui.RoomUiAction.toJoin : Ui.RoomUiAction → Veilroom.RoomUiAction
  | .chat text => .chat text
  | .command (.color color) => .color color
  | .command (.timeoutRequest seconds) => .timeoutRequest seconds
  | .leave => .leave
  | .exit => .exit
  | .command _ | .error _ | .copyInvitation _ => .view

/-! ### What the view shows -/

namespace Ui
namespace RoomView
variable {latest : Nat} (P : Primitives)

/-- `sync_join_members`. -/
def syncJoinMembers (view : RoomView latest) (c : ClientAdmission) : RoomView latest :=
  match c.chat with
  | none => view
  | some session => view.syncMembers session

/-- What is shown of a message for the host: `sent` once it is queued, and why it was not made
otherwise. -/
def onOutbound (view sent : RoomView latest) (queue : Outbound)
    (result : Except ChatError Message) (reading : Reading latest) : RoomView latest :=
  match result with
  | .error error => view.pushError error.toString reading
  | .ok _ =>
    match queue.send with
    | .error _ => view
    | .ok _ => sent

/-- What the `keys` branch of `join_session_body` shows of an action. -/
def onJoinAction (view : RoomView latest) (s : JoinSession) (nonce : Option Nonce)
    (clipboard : Except String Unit) (clock : Clock latest) : RoomUiAction → RoomView latest
  | .chat text =>
    view.onOutbound (view.pushOwn text (clock 0)) s.queue (s.admission.sendChat P nonce text).2
      (clock 0)
  | .command (.color color) =>
    let (admission, result) := s.admission.sendColor P nonce color
    let sent := (view.syncJoinMembers (admission.setOwnColor color)).pushSystem
      s!"color changed to {color.debug}" (clock 0)
    view.onOutbound sent s.queue result (clock 0)
  | .command .list =>
    let count := (s.admission.chat.map fun chat => chat.members.length).getD 0
    (view.syncJoinMembers s.admission).pushSystem s!"{count} active member(s)" (clock 0)
  | .command (.whois target) =>
    let found := s.admission.chat.bind fun chat => chat.members.find? fun member =>
      member.nickname = target ∨ toString member.memberId = target
    match found with
    | some member =>
      let role := if member.isHost then "host" else "member"
      view.pushSystem s!"{member.nickname} (id {member.memberId}): {role}" (clock 0)
    | none => view.pushError s!"no active member matches `{target}`" (clock 0)
  | .command (.timeoutRequest seconds) =>
    let sent := view.pushSystem s!"requested a room timeout of {seconds} seconds" (clock 0)
    view.onOutbound sent s.queue (s.admission.sendTimeoutRequest P nonce seconds).2 (clock 0)
  | .command _ => view.pushError "that command is only available to the host" (clock 0)
  | .error text => view.pushError text (clock 0)
  | .copyInvitation _ =>
    match clipboard with
    | .ok _ => view.pushSystem "the full invitation was copied to the clipboard" (clock 0)
    | .error error => view.pushError error (clock 0)
  | .leave | .exit => view

/-- What `handle_join_message` shows of a signed change of the membership. -/
def onMembership (view : RoomView latest) (c : ClientAdmission) (clock : Clock latest)
    (message : Message) : RoomView latest :=
  match c.onMembershipMessage P message with
  | (_, .error error) => view.pushError error.toString (clock 0)
  | (c, .ok ()) =>
    let view := view.syncJoinMembers c
    match message with
    | .memberJoined event => view.pushSystem s!"{event.nickname} joined" (clock 0)
    | .joinPolicyChanged event =>
      view.setStatus (if event.isOpen then "join policy: open" else "join policy: locked")
    | _ => view

/-- What `handle_join_message` shows of a message in the room. -/
def onJoinMessage (view : RoomView latest) (s : JoinSession) (clock : Clock latest)
    (message : Message) : RoomView latest :=
  match message with
  | .shutdown => view.pushSystem "the host closed the room" (clock 0)
  | .error error =>
    if s.admission.isAdmitted && error.code.isRecoverable then
      view.pushError (error.reason.getD "the room rejected that message") (clock 0)
    else view
  | .epochWrap wrap =>
    match s.admission.onEpochWrap P wrap with
    | (_, .error _) => view
    | (_, .ok _) =>
      match s.queue.send with
      | .error _ => view
      | .ok _ => view.pushSystem s!"epoch {wrap.epoch} active" (clock 0)
  | .chatMessage envelope =>
    match s.admission.onMemberMessage P 0x40 envelope with
    | (_, .error error) => view.pushError error.toString (clock 0)
    | (_, .ok none) => view
    | (c, .ok (some text)) =>
      let member := c.chat.bind fun chat => chat.member envelope.senderId
      let nickname := (member.map MemberView.nickname).getD s!"member {envelope.senderId}"
      view.pushChat nickname ((member.map MemberView.color).getD default) text (clock 0)
  | .colorChange envelope =>
    view.syncJoinMembers (s.admission.onMemberMessage P 0x41 envelope).1
  | .timeoutChanged envelope =>
    match (s.admission.onTimeoutChanged P envelope).2 with
    | .error error => view.pushError error.toString (clock 0)
    | .ok interval =>
      let text := match interval with
        | some seconds => s!"room message lifetime changed to {seconds} seconds"
        | none => "room message expiry was disabled"
      (view.setTimeout interval).notice text clock
  | .memberJoined _ | .memberLeft _ | .memberKicked _ | .joinPolicyChanged _ | .memberSnapshot _ =>
    view.onMembership P s.admission clock message
  | _ => view

end RoomView
end Ui

/-- Whether `handle_join_message` leaves a message to the admission flow. -/
def Message.isAdmission : Message → Bool
  | .keepalive | .shutdown | .error _ | .epochWrap _ | .chatMessage _ | .colorChange _
  | .timeoutChanged _ | .memberJoined _ | .memberLeft _ | .memberKicked _ | .joinPolicyChanged _
  | .memberSnapshot _ => false
  | _ => true

/-! ### The screen -/

structure JoinScreen (latest : Nat) where
  session : JoinSession
  /-- The room screen, once the host has accepted. -/
  view : Option (Ui.RoomView latest)

namespace JoinScreen
variable {latest : Nat} (P : Primitives) (derive : Argon2)

inductive Input (latest : Nat)
  | tick (now : Duration) (tor : TorStatus)
  /-- A message line expires. -/
  | expiry (now : Instant latest)
  | keysClosed
  | quitKey
  /-- A key while the join form is shown. -/
  | formKey (now : Duration) (key : KeyCode)
  /-- A key in the room; `nonce` and `clipboard` are the answers to what it may start. -/
  | roomKey (key : Ui.RoomKey) (nonce : Option Nonce) (clipboard : Except String Unit)
    (clock : Ui.Clock latest)
  | paste (text : String)
  | inbound (now : Duration) (message : Option Message) (clock : Ui.Clock latest)
  | queue (queue : Outbound)
  | drawFailed

/-- The start of `join_session_body`. -/
def start (admission : ClientAdmission) (now : Duration) (queue : Outbound) : JoinScreen latest :=
  ⟨.start admission now queue, none⟩

/-- The session takes a step that shows nothing in the room. -/
def proceed (screen : JoinScreen latest) (input : JoinInput) : JoinScreen latest :=
  { screen with session := screen.session.step P derive input }

/-- The room screen after a message. -/
def afterMessage (screen : JoinScreen latest) (now : Duration) (clock : Ui.Clock latest)
    (message : Message) : Option (Ui.RoomView latest) :=
  if message.isAdmission then
    let after := screen.session.step P derive (.inbound now (some message))
    if after.ended.isNone && after.admission.isAdmitted then
      some (.participant (screen.session.ownNickname.getD "you"))
    else screen.view
  else screen.view.map fun view => view.onJoinMessage P screen.session clock message

/-- One round of the loop, with the action that a key makes. -/
def step (screen : JoinScreen latest) (input : Input latest) :
    JoinScreen latest × Option Ui.RoomUiAction :=
  if screen.session.ended.isSome then (screen, none)
  else
    match input with
    | .tick now tor => (screen.proceed P derive (.tick now tor), none)
    | .expiry now => ({ screen with view := screen.view.map fun view => view.tick now }, none)
    | .keysClosed => (screen.proceed P derive .keysClosed, none)
    | .quitKey => (screen.proceed P derive .quitKey, none)
    | .formKey now key => (screen.proceed P derive (.key now key), none)
    | .roomKey key nonce clipboard clock =>
      match screen.view with
      | none => (screen, none)
      | some view =>
        match view.onKey key clock with
        | (view, none) => ({ screen with view := some view }, none)
        | (view, some action) =>
          ({ session := screen.session.step P derive (.roomAction nonce action.toJoin)
             view := some (view.onJoinAction P screen.session nonce clipboard clock action) },
            some action)
    | .paste text =>
      ({ session := screen.session.step P derive (.paste text)
         view := screen.view.map fun view => (view.step (.paste text)).1 }, none)
    | .inbound now none _ => (screen.proceed P derive (.inbound now none), none)
    | .inbound now (some message) clock =>
      ({ session := screen.session.step P derive (.inbound now (some message))
         view := screen.afterMessage P derive now clock message }, none)
    | .queue queue => (screen.proceed P derive (.queue queue), none)
    | .drawFailed => (screen.proceed P derive .drawFailed, none)

/-- A step with the action it makes. -/
abbrev Entry (latest : Nat) :=
  Machine.Entry (JoinScreen latest) (Input latest) (Option Ui.RoomUiAction)

abbrev Past (latest : Nat) := List (Entry latest)

/-- Anything may happen to the screen of a participant. -/
abbrev Run (screen₀ : JoinScreen latest) (past : Past latest) (screen : JoinScreen latest) : Prop :=
  Machine.Run (step P derive) (fun _ _ _ => True) screen₀ past screen

end JoinScreen

end Veilroom
