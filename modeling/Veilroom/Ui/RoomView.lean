import Veilroom.Library.Run
import Veilroom.Ui.Buffer
import Veilroom.Ui.Command
import Veilroom.Ui.Input

/-!
The room screen (`ui/room_view.rs`, `ui/notice.rs`, `ui/sanitize.rs`) and its keys (`on_room_key`
and `command_action` of `ui/app.rs`).

The input line is the text split at the cursor, which the field of a byte cursor does what it does.
The instant at which the room was entered, which only the header shows, is left out.
-/
namespace Veilroom

/-! ### Display text -/

/-- What `sanitize_for_display` makes of one character. -/
def sanitizeChar (ch : Char) : List Char :=
  if isUnsafeDisplayChar ch then
    if ch = '\t' ∨ ch = '\n' ∨ ch = '\r' then [' '] else []
  else [ch]

/-- `sanitize_for_display`. -/
def sanitizeForDisplay (input : String) : String :=
  String.ofList (input.toList.flatMap sanitizeChar)

/-! ### Notices -/

/-- `Notice`. -/
structure Notice where
  text : String
  timestamp : GmtTimestamp
deriving DecidableEq

/-- `NoticeBuffer`, never longer than its capacity. -/
structure NoticeBuffer where
  notices : List Notice
  capacity : Nat
  bounded : notices.length ≤ capacity

namespace NoticeBuffer

/-- `NoticeBuffer::with_capacity`. -/
def withCapacity (capacity : Nat) : NoticeBuffer := ⟨[], capacity, Nat.zero_le _⟩

/-- `NoticeBuffer::push`. -/
def push (buffer : NoticeBuffer) (notice : Notice) : NoticeBuffer :=
  if hzero : buffer.capacity = 0 then buffer
  else if hfull : buffer.notices.length = buffer.capacity then
    { buffer with
      notices := buffer.notices.tail ++ [notice]
      bounded := by
        rw [List.length_append, List.length_tail, List.length_singleton]
        omega }
  else
    { buffer with
      notices := buffer.notices ++ [notice]
      bounded := by
        have hbounded := buffer.bounded
        rw [List.length_append, List.length_singleton]
        omega }

end NoticeBuffer

namespace Ui

/-! ### The view -/

/-- `MemberLine`. -/
structure MemberLine where
  memberId : MemberId
  nickname : String
  color : ColorChoice
  isHost : Bool
deriving DecidableEq

/-- `RequestKind`. -/
inductive RequestKind
  | join (introduction : Option String)
  | timeout (seconds : Nat)
deriving DecidableEq

/-- `RequestLine`. -/
structure RequestLine where
  requestId : RequestId
  nickname : String
  kind : RequestKind
deriving DecidableEq

/-- `RoomViewMode`. -/
inductive RoomViewMode
  | host | member
deriving DecidableEq

/-- `ROOM_INPUT_MAX_BYTES`. -/
def roomInputMaxBytes : Nat := 4096

/-- `RoomView`, with its message lines. -/
structure RoomView (latest : Nat) extends Veilroom.RoomView latest where
  isHost : Bool
  viewMode : RoomViewMode
  ownNickname : String
  invitation : Option String
  status : String
  showSystemMessages : Bool
  notices : NoticeBuffer
  members : List MemberLine
  requests : List RequestLine
  input : Veilroom.TextField roomInputMaxBytes

/-- What the two clocks read. -/
structure Reading (latest : Nat) where
  timestamp : GmtTimestamp
  createdAt : Instant latest

/-- The readings of one operation, in order. -/
abbrev Clock (latest : Nat) := Nat → Reading latest

namespace RoomView
variable {latest : Nat}

/-- `RoomView::new`. -/
def new (isHost : Bool) (ownNickname : String) : RoomView latest where
  toRoomView := .new
  isHost
  viewMode := if isHost then .host else .member
  ownNickname
  invitation := none
  status := ""
  showSystemMessages := true
  notices := .withCapacity 32
  members := []
  requests := []
  input := .new

/-- `RoomView::host`. -/
def host (nickname : String) : RoomView latest := .new true nickname

/-- `RoomView::participant`. -/
def participant (nickname : String) : RoomView latest := .new false nickname

/-- `RoomView::push_message`. -/
def pushLine (view : RoomView latest) (text : String) (style : LineStyle)
    (nickname : Option NicknameSpan) (reading : Reading latest) : RoomView latest :=
  { view with
    toRoomView :=
      view.toRoomView.pushMessage text style nickname reading.timestamp reading.createdAt }

/-- `RoomView::push_chat`. -/
def pushChat (view : RoomView latest) (nickname : String) (color : ColorChoice) (text : String)
    (reading : Reading latest) : RoomView latest :=
  let nickname := sanitizeForDisplay nickname
  view.pushLine (nickname ++ ": " ++ sanitizeForDisplay text) .chat (some ⟨nickname, color⟩) reading

/-- `RoomView::member_by_nickname`. -/
def memberByNickname (view : RoomView latest) (nickname : String) : Option MemberLine :=
  view.members.find? fun member => member.nickname = nickname

/-- `RoomView::push_own`. -/
def pushOwn (view : RoomView latest) (text : String) (reading : Reading latest) :
    RoomView latest :=
  let color := ((view.memberByNickname view.ownNickname).map MemberLine.color).getD default
  view.pushChat view.ownNickname color text reading

/-- `RoomView::push_system`. -/
def pushSystem (view : RoomView latest) (text : String) (reading : Reading latest) :
    RoomView latest :=
  view.pushLine (sanitizeForDisplay text) .notice none reading

/-- `RoomView::push_muted`. -/
def pushMuted (view : RoomView latest) (text : String) (reading : Reading latest) :
    RoomView latest :=
  view.pushLine (sanitizeForDisplay text) .muted none reading

/-- `RoomView::push_error`. -/
def pushError (view : RoomView latest) (text : String) (reading : Reading latest) :
    RoomView latest :=
  view.pushLine (sanitizeForDisplay text) .error none reading

/-- `RoomView::push_color_list`. -/
def pushColorList (view : RoomView latest) (clock : Clock latest) : RoomView latest :=
  ColorChoice.all.zipIdx.foldl
    (fun view (color, i) => view.pushLine color.name (.palette color) none (clock i)) view

/-- `RoomView::notice`; the notice and its line each read the clock. -/
def notice (view : RoomView latest) (text : String) (clock : Clock latest) : RoomView latest :=
  let text := sanitizeForDisplay text
  ({ view with notices := view.notices.push ⟨text, (clock 0).timestamp⟩ } :
    RoomView latest).pushLine ("! " ++ text) .alert none (clock 1)

/-- The notice of one pending request. -/
def requestText (request : RequestLine) : String :=
  let id := request.requestId
  match request.kind with
  | .join introduction =>
    let introduction := (introduction.map fun text => s!" — {text}").getD ""
    s!"join request {id}: {request.nickname}{introduction} — /accept {id} or /reject {id}"
  | .timeout seconds =>
    s!"timeout request {id}: {request.nickname} — {seconds} seconds — /accept {id} or /reject {id}"

/-- `RoomView::show_requests`. -/
def showRequests (view : RoomView latest) (requests : List RequestLine) (clock : Clock latest) :
    RoomView latest :=
  let lines :=
    if requests.isEmpty then ["no pending requests"]
    else s!"pending requests: {requests.length}" :: requests.map requestText
  lines.zipIdx.foldl (fun view (line, i) => view.notice line fun k => clock (2 * i + k))
    { view with requests }

/-- `RoomView::set_members`. -/
def setMembers (view : RoomView latest) (members : List MemberLine) : RoomView latest :=
  { view with members }

/-- `RoomView::set_invitation`. -/
def setInvitation (view : RoomView latest) (uri : String) : RoomView latest :=
  { view with invitation := some uri }

/-- `RoomView::set_status`. -/
def setStatus (view : RoomView latest) (status : String) : RoomView latest := { view with status }

/-- `RoomView::set_message_timeout`. -/
def setTimeout (view : RoomView latest) (interval : Option Nat) : RoomView latest :=
  { view with toRoomView := view.toRoomView.setMessageTimeout interval }

/-- `RoomView::tick_message_timeout`. -/
def tick (view : RoomView latest) (now : Instant latest) : RoomView latest :=
  { view with toRoomView := (view.toRoomView.tickMessageTimeout now).1 }

/-- `RoomView::clear_messages`. -/
def clear (view : RoomView latest) : RoomView latest :=
  { view with toRoomView := view.toRoomView.clearMessages }

/-- `RoomView::toggle_host_member_view`. -/
def toggleHostMemberView (view : RoomView latest) : RoomView latest :=
  if view.isHost then
    { view with viewMode := match view.viewMode with
        | .host => .member
        | .member => .host }
  else view

/-- `RoomView::toggle_system_messages`. -/
def toggleSystemMessages (view : RoomView latest) : RoomView latest :=
  { view with showSystemMessages := !view.showSystemMessages }

/-- `RoomView::submit_line`: a line that is handed out is cleared. -/
def submitLine (view : RoomView latest) : RoomView latest :=
  let (input, value) := view.input.submit
  { view with input := if value then .new else input }

end RoomView

/-! ### Keys -/

/-- The modifiers a key can be held with, as far as the room screen tells them apart. -/
inductive KeyModifiers
  | none | shift | control | other
deriving DecidableEq

/-- The keys of the room screen. -/
inductive RoomKey
  | enter | backspace | delete | left | right | home | end | esc
  | char (ch : Char) (modifiers : KeyModifiers)
  | other
deriving DecidableEq

/-- `RoomUiAction`. -/
inductive RoomUiAction
  | chat (text : String)
  | command (command : SlashCommand)
  | error (text : String)
  | leave
  | exit
  | copyInvitation (uri : String)
deriving DecidableEq

namespace RoomView
variable {latest : Nat}

/-- The answer to `/help`. -/
def helpText : String :=
  "/help, /exit, /leave, /color <color>, /list, /whois <member>, /kick <member>, /newid, " ++
    "/reqon, /reqoff, /requests, /accept <id>, /reject <id>, /copy, /clear, " ++
    "/timeout <seconds|off>, /timeoutreq <seconds>, /color list; shortcuts: Ctrl-K message " ++
    "filter, Ctrl-T host/member view"

/-- The answer to `/copy` and Ctrl-Y. -/
def copyInvitation (view : RoomView latest) : RoomUiAction :=
  match view.invitation with
  | some uri => .copyInvitation uri
  | none => .error "no invitation is available to copy yet"

/-- `command_action`. -/
def commandAction (view : RoomView latest) (command : SlashCommand) (clock : Clock latest) :
    RoomView latest × Option RoomUiAction :=
  match command with
  | .help => (view.pushSystem helpText (clock 0), none)
  | .copy => (view, some view.copyInvitation)
  | .colorList => (view.pushColorList clock, none)
  | .clear => (view.clear, none)
  | .timeout interval =>
    if view.isHost then (view, some (.command (.timeout interval)))
    else (view, some (.error
      "that command is only available to the host; use /timeoutreq <seconds>"))
  | .timeoutRequest seconds =>
    if view.isHost then
      (view, some (.error "that command is only available to room members"))
    else (view, some (.command (.timeoutRequest seconds)))
  | .leave =>
    if view.isHost then
      (view, some (.error "The host cannot /leave; use /exit to close the room."))
    else (view, some .leave)
  | .exit => (view, some .exit)
  | other => (view, some (.command other))

/-- What a submitted line does. -/
def lineAction (view : RoomView latest) (text : String) (clock : Clock latest) :
    RoomView latest × Option RoomUiAction :=
  match parseLine text with
  | .ok (.chat chat) =>
    if view.isHost then (view, some (.error
      "the host cannot send chat messages; join the room from a second tab to chat"))
    else (view, some (.chat chat))
  | .ok (.command command) => view.commandAction command clock
  | .error error => (view, some (.error error.toString))

/-- `on_room_key`. -/
def onKey (view : RoomView latest) (key : RoomKey) (clock : Clock latest) :
    RoomView latest × Option RoomUiAction :=
  match key with
  | .enter =>
    let text := view.input.text
    let view := view.submitLine
    if text.isEmpty then (view, none) else view.lineAction text clock
  | .backspace => ({ view with input := view.input.backspace }, none)
  | .delete => ({ view with input := view.input.delete }, none)
  | .left => ({ view with input := view.input.moveLeft }, none)
  | .right => ({ view with input := view.input.moveRight }, none)
  | .home => ({ view with input := view.input.moveHome }, none)
  | .end => ({ view with input := view.input.moveEnd }, none)
  | .esc => ({ view with input := .new }, none)
  | .char ch modifiers =>
    if (ch = 'k' ∨ ch = 'K') ∧ modifiers = .control then (view.toggleSystemMessages, none)
    else if (ch = 't' ∨ ch = 'T') ∧ modifiers = .control then (view.toggleHostMemberView, none)
    else if modifiers = .control ∧ ch = 'y' then (view, some view.copyInvitation)
    else if modifiers = .none ∨ modifiers = .shift then
      ({ view with input := view.input.insertChar ch }, none)
    else (view, none)
  | .other => (view, none)

end RoomView

namespace RoomView
variable {latest : Nat}

/-- What a key makes of a screen: the input line and the modes change, the lines are cleared, or
lines are shown that name nobody. -/
inductive Touched (view : RoomView latest) : RoomView latest → Prop
  | untouched : Touched view view
  | controls {view'} (viewMode : RoomViewMode) (showSystemMessages : Bool)
    (input : Veilroom.TextField roomInputMaxBytes) : Touched view view' →
      Touched view { view' with viewMode, showSystemMessages, input }
  | clear {view'} : Touched view view' → Touched view view'.clear
  | system {view'} (text : String) (reading : Reading latest) : Touched view view' →
      Touched view (view'.pushSystem text reading)
  | palette {view'} (color : ColorChoice) (reading : Reading latest) : Touched view view' →
      Touched view (view'.pushLine color.name (.palette color) none reading)

variable {view view' : RoomView latest}

theorem Touched.pushColorList (h : Touched view view') (clock : Clock latest) :
    Touched view (view'.pushColorList clock) := by
  unfold RoomView.pushColorList
  generalize ColorChoice.all.zipIdx = colors
  induction colors generalizing view' with
  | nil => exact h
  | cons entry colors ih => exact ih (h.palette entry.1 (clock entry.2))

theorem Touched.commandAction (h : Touched view view') (command : SlashCommand)
    (clock : Clock latest) : Touched view (view'.commandAction command clock).1 := by
  cases command with
  | help => exact h.system _ _
  | colorList => exact h.pushColorList clock
  | clear => exact h.clear
  | timeout _ | timeoutRequest _ | leave =>
      unfold RoomView.commandAction
      dsimp only
      split <;> exact h
  | _ => exact h

theorem Touched.lineAction (h : Touched view view') (text : String) (clock : Clock latest) :
    Touched view (view'.lineAction text clock).1 := by
  unfold RoomView.lineAction
  split
  · split <;> exact h
  · exact h.commandAction _ clock
  · exact h

theorem onKey_touched (view : RoomView latest) (key : RoomKey) (clock : Clock latest) :
    Touched view (view.onKey key clock).1 := by
  have hcontrols (viewMode : RoomViewMode) (showSystemMessages : Bool)
      (input : Veilroom.TextField roomInputMaxBytes) :
      Touched view { view with viewMode, showSystemMessages, input } :=
    .controls viewMode showSystemMessages input .untouched
  cases key with
  | enter =>
      unfold onKey
      dsimp only
      split
      · exact hcontrols _ _ _
      · exact Touched.lineAction (hcontrols _ _ _) _ clock
  | char ch modifiers =>
      unfold onKey
      dsimp only
      split
      · exact hcontrols _ _ _
      split
      · unfold toggleHostMemberView
        split
        · exact hcontrols _ _ _
        · exact .untouched
      split
      · exact .untouched
      split
      · exact hcontrols _ _ _
      · exact .untouched
  | other => exact .untouched
  | _ => exact hcontrols _ _ _

/-- The room behind the screen is the same. -/
structure SameRoom (view view' : RoomView latest) : Prop where
  isHost : view'.isHost = view.isHost
  ownNickname : view'.ownNickname = view.ownNickname
  invitation : view'.invitation = view.invitation
  members : view'.members = view.members
  requests : view'.requests = view.requests

theorem Touched.sameRoom (h : Touched view view') : SameRoom view view' := by
  induction h with
  | untouched => constructor <;> rfl
  | controls _ _ _ _ ih | clear _ ih | system _ _ _ ih | palette _ _ _ ih =>
      exact ⟨ih.isHost, ih.ownNickname, ih.invitation, ih.members, ih.requests⟩

theorem onKey_sameRoom (view : RoomView latest) (key : RoomKey) (clock : Clock latest) :
    SameRoom view (view.onKey key clock).1 := (onKey_touched view key clock).sameRoom

end RoomView

/-- What happens to a room screen: a key, a paste, or an update by the supervisor. -/
inductive ViewInput (latest : Nat)
  | key (key : RoomKey) (clock : Clock latest)
  | paste (text : String)
  | chat (nickname : String) (color : ColorChoice) (text : String) (reading : Reading latest)
  | own (text : String) (reading : Reading latest)
  | system (text : String) (reading : Reading latest)
  | muted (text : String) (reading : Reading latest)
  | error (text : String) (reading : Reading latest)
  | notice (text : String) (clock : Clock latest)
  | members (members : List MemberLine)
  | requests (requests : List RequestLine) (clock : Clock latest)
  | invitation (uri : String)
  | status (status : String)
  | timeout (interval : Option Nat)
  | tick (now : Instant latest)

namespace RoomView
variable {latest : Nat}

/-- One thing that happens to the screen, with the action the supervisor is to execute. -/
def step (view : RoomView latest) : ViewInput latest → RoomView latest × Option RoomUiAction
  | .key key clock => view.onKey key clock
  | .paste text => ({ view with input := view.input.insertText text }, none)
  | .chat nickname color text reading => (view.pushChat nickname color text reading, none)
  | .own text reading => (view.pushOwn text reading, none)
  | .system text reading => (view.pushSystem text reading, none)
  | .muted text reading => (view.pushMuted text reading, none)
  | .error text reading => (view.pushError text reading, none)
  | .notice text clock => (view.notice text clock, none)
  | .members members => (view.setMembers members, none)
  | .requests requests clock => (view.showRequests requests clock, none)
  | .invitation uri => (view.setInvitation uri, none)
  | .status status => (view.setStatus status, none)
  | .timeout interval => (view.setTimeout interval, none)
  | .tick now => (view.tick now, none)

abbrev Past (latest : Nat) :=
  List (Machine.Entry (RoomView latest) (ViewInput latest) (Option RoomUiAction))

/-- Anything may happen to a screen. -/
abbrev Run (view₀ : RoomView latest) (past : Past latest) (view : RoomView latest) : Prop :=
  Machine.Run step (fun _ _ _ => True) view₀ past view

end RoomView
end Ui
end Veilroom
