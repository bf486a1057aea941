import Veilroom.Host.Session
import Veilroom.Ui.RoomView
import Veilroom.Uri.Invitation

/-!
The host's room screen over its session: what each branch of `host_session_body` does to the room
view, and the keyboard that drives both.

The session itself is `Veilroom.Host.Session`; a step here is one of its steps, with what the view
shows of it.
-/
namespace Veilroom

/-! ### Commands -/

/-- `MemberRef::from`. -/
def KickTarget.toMemberRef : KickTarget → MemberRef
  | .id memberId => .id memberId
  | .nickname text => .nickname text

/-- `SlashCommand::into_host_command`. -/
def SlashCommand.intoHostCommand : SlashCommand → Option HostCommand
  | .kick target => some (.kick target.toMemberRef)
  | .newId => some .newId
  | .reqOn => some .reqOn
  | .reqOff => some .reqOff
  | .requests => some .requests
  | .accept requestId => some (.accept requestId)
  | .reject requestId => some (.reject requestId)
  | _ => none

/-- `SlashCommand::into_member_command`. -/
def SlashCommand.intoMemberCommand : SlashCommand → Option MemberCommand
  | .leave => some .leave
  | .color choice => some (.color choice)
  | .list => some .list
  | .whois target => some (.whois target)
  | _ => none

/-- What `handle_host_command` submits for a command, given the nonce it may need. -/
def SlashCommand.toKeyInput (nonce : Option Nonce) : SlashCommand → Option Supervisor.KeyInput
  | .timeout interval => some (.timeout interval nonce)
  | .color choice => some (.color choice nonce)
  | command =>
    match command.intoHostCommand with
    | some command => some (.host command)
    | none => command.intoMemberCommand.map .member

/-! ### What the view shows -/

/-- The derived `Debug` of a policy. -/
def JoinPolicy.debug : JoinPolicy → String
  | .opened => "Open"
  | .locked => "Locked"

/-- The derived `Debug` of a color. -/
def ColorChoice.debug : ColorChoice → String
  | .red => "Red" | .green => "Green" | .yellow => "Yellow" | .blue => "Blue"
  | .magenta => "Magenta" | .cyan => "Cyan" | .white => "White"

/-- The invitation that the host builds from a token. -/
def hostInvitation (C : Uri.Codecs) (onionAddress : String) (token : Bytes) : Option String :=
  match Uri.Invitation.new C onionAddress.toList virtualPort.toUInt16 token with
  | .ok invitation => some (String.ofList (invitation.toUriString C))
  | .error _ => none

/-- The rows of a snapshot, by their ids. -/
def requestRows (joinRequests : List RequestInfo) (timeoutRequests : List TimeoutRequestInfo) :
    List Ui.RequestLine :=
  let joins := joinRequests.map fun request =>
    (⟨request.requestId, request.nickname, .join request.introduction⟩ : Ui.RequestLine)
  let timeouts := timeoutRequests.map fun request =>
    (⟨request.requestId, request.nickname, .timeout request.seconds⟩ : Ui.RequestLine)
  (joins ++ timeouts).mergeSort fun request request' => request.requestId ≤ request'.requestId

namespace Ui
namespace RoomView
variable {latest : Nat} (P : Primitives) (C : Uri.Codecs)

/-- `sync_members_from_session`. -/
def syncMembers (view : RoomView latest) (session : ChatSession) : RoomView latest :=
  view.setMembers (session.members.map fun member =>
    ⟨member.memberId, member.nickname, member.color, member.isHost⟩)

/-- What `handle_host_actions` shows of a message for the host's own session. -/
def onOwnMessage (view : RoomView latest) (s : Supervisor) (message : Message)
    (clock : Clock latest) : RoomView latest :=
  match message with
  | .epochWrap wrap =>
    match s.hostClientIdentity.tryWrapKeyFor P (s.hostIdentity.x25519Pubkey P) s.sessionId 0 with
    | .error error => view.pushError (error.toString P) (clock 0)
    | .ok wrapKey =>
      match unwrapEpochKey P wrapKey wrap.epoch s.sessionId wrap.nonce wrap.ciphertext with
      | .error error => view.pushError (error.toString P) (clock 0)
      | .ok _ => view.setStatus s!"epoch {wrap.epoch}"
  | .shutdown => view.pushSystem "the room is closing" (clock 0)
  | .chatMessage envelope =>
    match s.hostChat.receiveChat P envelope with
    | (_, .error error) => view.pushError error.toString (clock 0)
    | (hostChat, .ok text) =>
      let member := hostChat.member envelope.senderId
      let nickname := (member.map MemberView.nickname).getD s!"member {envelope.senderId}"
      view.pushChat nickname ((member.map MemberView.color).getD default) text (clock 0)
  | .colorChange envelope =>
    match s.hostChat.receiveColor P envelope with
    | (hostChat, .error error) => (view.pushError error.toString (clock 0)).syncMembers hostChat
    | (hostChat, .ok color) =>
      match hostChat.member envelope.senderId with
      | none => view.syncMembers hostChat
      | some member => view.syncMembers (hostChat.installMember { member with color })
  | other =>
    match s.hostChat.handleMembershipMessage P other with
    | (_, .error error) => view.pushError error.toString (clock 0)
    | (hostChat, .ok ()) => view.syncMembers hostChat

/-- What `handle_host_actions` shows of a notice. -/
def onNotice (view : RoomView latest) (s : Supervisor) (nonce : Option Nonce)
    (clock : Clock latest) : HostNotice → RoomView latest
  | .invitationRotated token =>
    match hostInvitation C s.onionAddress token.toList with
    | some uri =>
      ((view.setInvitation uri).pushMuted s!"Invitation: {uri}" (clock 0)).pushMuted
        "press Ctrl-Y or run /copy to copy the invitation" (clock 1)
    | none => view.pushError "the invitation could not be built" (clock 0)
  | .joinRequestPending requestId _ nickname introduction =>
    let introduction := (introduction.map fun text => s!": {text}").getD ""
    view.notice s!"join request {requestId} from {nickname}{introduction}" clock
  | .joinRequestWithdrawn requestId => view.notice s!"join request {requestId} withdrawn" clock
  | .timeoutRequestPending requestId memberId nickname seconds =>
    view.notice (s!"timeout request {requestId} from {nickname} (id {memberId}): {seconds} " ++
      s!"seconds — /accept {requestId} or /reject {requestId}") clock
  | .timeoutRequestAccepted requestId seconds =>
    match s.hostChat.sendTimeoutChanged P nonce s.hostClientIdentity (some seconds) with
    | (_, .ok (.timeoutChanged _)) =>
      (view.setTimeout (some seconds)).notice (s!"timeout request {requestId} accepted; " ++
        s!"room timeout is now {seconds} seconds") clock
    | (_, .ok _) => view
    | (_, .error error) => view.pushError error.toString (clock 0)
  | .timeoutRequestRejected requestId =>
    view.notice s!"timeout request {requestId} rejected or withdrawn" clock
  | .timeoutRebroadcast seconds =>
    match s.hostChat.sendTimeoutChanged P nonce s.hostClientIdentity (some seconds) with
    | (_, .ok _) => view
    | (_, .error error) => view.pushError error.toString (clock 0)
  | .memberJoined memberId nickname =>
    view.pushSystem s!"{nickname} (id {memberId}) joined" (clock 0)
  | .memberLeft memberId nickname => view.pushSystem s!"{nickname} (id {memberId}) left" (clock 0)
  | .memberKicked memberId nickname =>
    view.pushSystem s!"{nickname} (id {memberId}) was kicked" (clock 0)
  | .joinPolicyChanged policy =>
    (view.setStatus s!"join policy: {policy.debug}").pushSystem
      s!"join requests are now {policy.debug}" (clock 0)
  | .requestsSnapshot joinRequests timeoutRequests =>
    view.showRequests (requestRows joinRequests timeoutRequests) clock
  | .listSnapshot members => view.setMembers (members.map fun member =>
      ⟨member.memberId, member.nickname, member.color, member.isHost⟩)
  | .whoisResult member =>
    let role := if member.isHost then "host" else "member"
    view.pushSystem s!"{member.nickname} (id {member.memberId}): {role}" (clock 0)
  | .roomClosed => view.pushSystem "the room is closed" (clock 0)
  | .error message => view.pushError message (clock 0)

/-- What `handle_host_actions` shows of an action. -/
def onAction (view : RoomView latest) (s : Supervisor) (action : RoomAction)
    (nonce : Option Nonce) (clock : Clock latest) : RoomView latest :=
  match action with
  | .sendTo connection message =>
    if connection = hostConnectionId then view.onOwnMessage P s message clock else view
  | .closeConnection _ => view
  | .notifyHost notice => view.onNotice P C s nonce clock notice

/-- The view over `handle_host_actions`; `clocks` are those of each action in turn. -/
def onActions (view : RoomView latest) (s : Supervisor) :
    List (RoomAction × Supervisor.ActionInput) → (Nat → Clock latest) → RoomView latest
  | [], _ => view
  | (action, input) :: rest, clocks =>
    onActions (view.onAction P C s action input.nonce (clocks 0)) (s.onAction P action input).1 rest
      fun i => clocks (i + 1)

/-- What the branches of the network show. -/
def onSupervised (view : RoomView latest) (s : Supervisor) (clock : Clock latest) :
    Supervisor.Input → RoomView latest
  | .connect input =>
    match s.network.connects with
    | [] => view
    | id :: _ =>
      match s.passwordGuard.remaining input.now with
      | some remaining =>
        view.pushSystem (s!"connection {id} refused: password lockout active for " ++
          s!"{remaining / Duration.fromSecs 1 + 1} more seconds") (clock 0)
      | none =>
        match HostAdmission.new s.sessionId s.token s.verifier s.hostIdentity s.onionAddress
            input.nonce with
        | .error _ => view
        | .ok _ => view.pushSystem s!"connection {id} connected" (clock 0)
  | .inbound id none _ => view.pushSystem s!"connection {id} lost" (clock 0)
  | .inbound id (some message) input =>
    let touched := s.setConnection id
      ((s.connections id).map fun c => { c with lastSeen := input.now })
    match touched.handleHostMessage P id message input with
    | (_, _, .ok ()) => view
    | (after, _, .error error) =>
      if error.code = .invalidPasswordProof then
        let (guarded, window) := after.passwordGuard.recordFailure input.now
        match window with
        | none => view
        | some window =>
          view.notice (s!"{guarded.failures} failed password attempts; new join attempts are " ++
            s!"blocked for {window / Duration.fromSecs 1} seconds") clock
      else view
  | .expire id now =>
    match s.connections id with
    | none => view
    | some c =>
      let since := if c.admitted then c.lastSeen else c.stageSince
      if now - since > s.stageTimeout c then
        view.pushSystem s!"connection {id} timed out" (clock 0)
      else view
  | .stream _ | .actions _ | .key _ | .tick => view

/-- What `handle_host_command` shows of a command. -/
def onHostCommand (view : RoomView latest) (s : Supervisor) (nonce : Option Nonce)
    (clock : Clock latest) : SlashCommand → RoomView latest
  | .timeout interval =>
    match s.hostChat.sendTimeoutChanged P nonce s.hostClientIdentity interval with
    | (_, .ok (.timeoutChanged _)) =>
      let text := match interval with
        | some seconds =>
          let plural := if seconds = 1 then "" else "s"
          s!"each room message will expire after {seconds} second{plural}"
        | none => "room message expiry is disabled"
      (view.setTimeout interval).pushSystem text (clock 0)
    | (_, .ok _) => view
    | (_, .error error) => view.pushError error.toString (clock 0)
  | .color color =>
    match s.hostChat.sendColor P nonce s.hostClientIdentity color with
    | (hostChat, .ok (.colorChange _)) =>
      let hostChat := match hostChat.member 0 with
        | none => hostChat
        | some member => hostChat.installMember { member with color }
      (view.pushSystem s!"color changed to {color.debug}" (clock 0)).syncMembers hostChat
    | (_, .ok _) => view
    | (_, .error error) => view.pushError error.toString (clock 0)
  | _ => view

end RoomView
end Ui

/-! ### The screen -/

structure HostScreen (latest : Nat) where
  session : HostSession
  view : Ui.RoomView latest

namespace HostScreen
variable {latest : Nat} (P : Primitives) (C : Uri.Codecs) (debug : Message → String)

inductive Input (latest : Nat)
  /-- A branch of the network or the maintenance tick. -/
  | supervisor (input : Supervisor.Input) (clock : Ui.Clock latest)
  /-- A round of the room task. -/
  | room (now cleanupNow : Duration) (rng cleanupRng : Rng)
  /-- The supervisor takes a batch. -/
  | actions (answers : Nat → Supervisor.ActionInput) (clocks : Nat → Ui.Clock latest)
  /-- A key; `nonce` and `clipboard` are the answers to what it may start. -/
  | key (key : Ui.RoomKey) (nonce : Option Nonce) (clipboard : Except String Unit)
      (clock : Ui.Clock latest)
  | paste (text : String)
  /-- A message line expires. -/
  | expiry (now : Instant latest)

/-- The session takes a step. -/
def proceed (screen : HostScreen latest) (input : HostSession.Input) :
    HostScreen latest × HostSession.Output :=
  let (session, output) := screen.session.step P debug input
  ({ screen with session }, output)

/-- What the `keys` branch does with the action of a key. -/
def onUiAction (screen : HostScreen latest) (action : Ui.RoomUiAction) (nonce : Option Nonce)
    (clipboard : Except String Unit) (clock : Ui.Clock latest) :
    HostScreen latest × HostSession.Output :=
  let s := screen.session.supervisor
  match action with
  | .exit => screen.proceed P debug (.supervisor (.key .exit))
  | .chat _ =>
    let view := screen.view.pushError
      "the host cannot send chat messages; join the room from a second tab to chat" (clock 0)
    ({ screen with view }, {})
  | .command command =>
    let screen := { screen with view := screen.view.onHostCommand P s nonce clock command }
    match command.toKeyInput nonce with
    | some input => screen.proceed P debug (.supervisor (.key input))
    | none => (screen, {})
  | .error text => ({ screen with view := screen.view.pushError text (clock 0) }, {})
  | .copyInvitation _ =>
    let view := match clipboard with
      | .ok _ => screen.view.pushSystem "the full invitation was copied to the clipboard" (clock 0)
      | .error error => screen.view.pushError error (clock 0)
    ({ screen with view }, {})
  | .leave => (screen, {})

def step (screen : HostScreen latest) : Input latest → HostScreen latest × HostSession.Output
  | .supervisor input clock =>
    let view := screen.view.onSupervised P screen.session.supervisor clock input
    ({ screen with view } : HostScreen latest).proceed P debug (.supervisor input)
  | .room now cleanupNow rng cleanupRng =>
    screen.proceed P debug (.room now cleanupNow rng cleanupRng)
  | .actions answers clocks =>
    let batch := screen.session.batches.head?.getD []
    let view := screen.view.onActions P C screen.session.supervisor
      (HostSession.answered answers batch) clocks
    ({ screen with view } : HostScreen latest).proceed P debug (.actions answers)
  | .key key nonce clipboard clock =>
    let (view, action) := screen.view.onKey key clock
    let screen := { screen with view }
    match action with
    | some action => screen.onUiAction P debug action nonce clipboard clock
    | none => (screen, {})
  | .paste text =>
    ({ screen with view := (screen.view.step (.paste text)).1 }, {})
  | .expiry now => ({ screen with view := screen.view.tick now }, {})

end HostScreen

end Veilroom
