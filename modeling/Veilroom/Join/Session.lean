import Veilroom.Admission.Handshake
import Veilroom.Host.Supervisor
import Veilroom.Join.Form

/-!
The participant's session: the loop of `join_session_body` and
`handle_join_message` (`app.rs`), one ready branch at a time.

The room view is not modelled, so a line typed into it arrives as the action
`on_room_key` makes of it. A session also keeps what it queued for the host and
the forms it received, which the source does not.
-/
namespace Veilroom

/-- `ClientAdmission::is_admitted`. -/
def ClientAdmission.isAdmitted (c : ClientAdmission) : Bool := c.state = .admitted

/-- `ClientAdmission::timeout_kind`. -/
def ClientAdmission.timeoutKind (c : ClientAdmission) : TimeoutKind :=
  match c.state with
  | .awaitingHostHello => .protocolHandshake
  | .awaitingChallenge => .tokenValidation
  | .awaitingJoinForm => .joinFormSubmission
  | .awaitingDecision => .hostDecision
  | .admitted => .keepalive

/-- `ErrorCode::is_recoverable`. -/
def ErrorCode.isRecoverable : ErrorCode → Bool
  | .rateLimited => true
  | _ => false

/-- What `PeerConnection::send` meets: the free slots of the bounded queue, and whether the task
behind it has ended. -/
structure Outbound where
  slots : Nat
  closed : Bool
deriving DecidableEq

/-- `PeerConnection::send`. -/
def Outbound.send (queue : Outbound) : Except PeerSendError Outbound :=
  if queue.closed then .error .closed
  else if queue.slots = 0 then .error .queueFull
  else .ok { queue with slots := queue.slots - 1 }

def PeerSendError.toString : PeerSendError → String
  | .queueFull => "the connection's outbound queue is full"
  | .closed => "the connection is closed"

/-- What `TorManager::has_exited` answers. -/
inductive TorStatus
  | running | exited | unknown (error : String)
deriving DecidableEq

inductive SessionEnd
  | menu
  | quit
  | failed (reason : String)
deriving DecidableEq

/-- `Screen`, as far as a participant's session shows it; `own` names the participant. -/
inductive Screen
  | joinForm (form : JoinFormModel)
  | joinPending
  | room (own : String)
deriving DecidableEq

/-- `RoomUiAction`; `view` stands for those that only change the view. -/
inductive RoomUiAction
  | chat (text : String)
  | color (color : ColorChoice)
  | timeoutRequest (seconds : Nat)
  | leave
  | exit
  | view

/-- What makes a branch of the loop ready. `nonce` is what `random_bytes` returns in it. -/
inductive JoinInput
  | tick (now : Duration) (tor : TorStatus)
  | quitKey
  | key (now : Duration) (key : KeyCode)
  | paste (text : String)
  | roomAction (nonce : Option Nonce) (action : RoomUiAction)
  | keysClosed
  /-- `none` is the end of the connection. -/
  | inbound (now : Duration) (message : Option Message)
  /-- The connection task has run. -/
  | queue (queue : Outbound)
  /-- A frame could not be drawn. -/
  | drawFailed

structure JoinSession where
  screen : Screen
  admission : ClientAdmission
  pendingForm : Option JoinForm
  ownNickname : Option String
  stageSince : Duration
  lastSeen : Duration
  queue : Outbound
  ended : Option SessionEnd
  sent : List Message
  submitted : List JoinForm

namespace JoinSession
variable (P : Primitives) (derive : Argon2)

def finish (s : JoinSession) (outcome : SessionEnd) : JoinSession :=
    { s with ended := some outcome }

def fail (s : JoinSession) (reason : String) : JoinSession := s.finish (.failed reason)

/-- A message the session cannot do without. -/
def send (s : JoinSession) (message : Message) : JoinSession :=
  match s.queue.send with
  | .error _ => s.fail "the connection failed"
  | .ok queue => { s with queue, sent := s.sent ++ [message] }

/-- The start of `join_session_body`. -/
def start (admission : ClientAdmission) (now : Duration) (queue : Outbound) : JoinSession :=
  let s : JoinSession :=
    { screen := .joinForm .new, admission, pendingForm := none, ownNickname := none
      stageSince := now, lastSeen := now, queue, ended := none, sent := [], submitted := [] }
  match queue.send with
  | .error error => s.fail s!"the connection failed: {error.toString}"
  | .ok queue => { s with queue, sent := [admission.firstMessage] }

/-! ### The keyboard -/

/-- The `JoinFormSubmitted` branch. -/
def onFormSubmitted (s : JoinSession) (now : Duration) (form : JoinForm) : JoinSession :=
  let s := { s with
    screen := .joinPending
    ownNickname := some form.1
    submitted := s.submitted ++ [form] }
  match s.admission.joinRequest P form.1 form.2 with
  | (admission, .ok request) => { s with admission, stageSince := now }.send request
  | (admission, .error _) => { s with admission, pendingForm := some form }

def onKey (s : JoinSession) (now : Duration) (key : KeyCode) : JoinSession :=
  match s.screen with
  | .joinForm form =>
    match form.onKey key with
    | (form, .none) => { s with screen := .joinForm form }
    | (form, .leave) => { s with screen := .joinForm form }.finish .menu
    | (_, .submitted submitted) => s.onFormSubmitted P now submitted
  | .joinPending | .room _ => s

/-- `App::on_paste`. -/
def onPaste (s : JoinSession) (text : String) : JoinSession :=
  match s.screen with
  | .joinForm form => { s with screen := .joinForm (form.edit (·.insertText text)) }
  | .joinPending | .room _ => s

/-- The message of a call of the chat session, whose failures are shown in the view. -/
def sendChatMessage (s : JoinSession) (result : ClientAdmission × Except ChatError Message) :
    JoinSession :=
  match result with
  | (admission, .ok message) => { s with admission }.send message
  | (admission, .error _) => { s with admission }

def onRoomAction (s : JoinSession) (nonce : Option Nonce) : RoomUiAction → JoinSession
  | .chat text => s.sendChatMessage (s.admission.sendChat P nonce text)
  | .color color =>
    match s.admission.sendColor P nonce color with
    | (admission, .ok message) =>
      let s := { s with admission }.send message
      if s.ended.isSome then s else { s with admission := s.admission.setOwnColor color }
    | (admission, .error _) => { s with admission }
  | .timeoutRequest seconds =>
    s.sendChatMessage (s.admission.sendTimeoutRequest P nonce seconds)
  | .leave => s.finish .menu
  | .exit => s.finish .quit
  | .view => s

/-! ### The connection -/

/-- The submitted form, once the challenge answer was sent. -/
def sendPendingForm (s : JoinSession) : JoinSession :=
  match s.pendingForm with
  | none => s
  | some form =>
    let s := { s with pendingForm := none }
    match s.admission.joinRequest P form.1 form.2 with
    | (admission, .ok request) => { s with admission }.send request
    | (admission, .error _) => { s with admission }

/-- The loop over the replies of the admission flow. -/
def sendReplies (s : JoinSession) : List Message → JoinSession
  | [] => s
  | reply :: replies =>
    let s := s.send reply
    if s.ended.isSome then s
    else
      let s := if reply.isProof then s.sendPendingForm P else s
      if s.ended.isSome then s else s.sendReplies replies

/-- The last branch of `handle_join_message`. -/
def handleHostMessage (s : JoinSession) (message : Message) : JoinSession :=
  match s.admission.onHostMessage P derive message with
  | (admission, .ok replies) =>
    let s := { s with admission }.sendReplies P replies
    if s.ended.isSome then s
    else if s.admission.isAdmitted then
      { s with screen := .room (s.ownNickname.getD "you"), ownNickname := none }
    else s
  | (admission, .error (.rejected reason)) =>
    { s with admission }.fail
      ("the host rejected the join request: " ++ reason.getD "no reason given")
  | (admission, .error error) => { s with admission }.fail (error.toString P)

/-- `handle_join_message`. -/
def handleJoinMessage (s : JoinSession) (message : Message) : JoinSession :=
  match message with
  | .keepalive => s
  | .shutdown => s.finish .menu
  | .error error =>
    if s.admission.isAdmitted && error.code.isRecoverable then s
    else s.fail ("the host rejected the connection: " ++ error.reason.getD "protocol error")
  | .epochWrap wrap =>
    match s.admission.onEpochWrap P wrap with
    | (admission, .ok ack) => { s with admission }.send ack
    | (admission, .error _) =>
      { s with admission }.fail "the epoch key could not be unwrapped"
  | .chatMessage envelope =>
    { s with admission := (s.admission.onMemberMessage P 0x40 envelope).1 }
  | .colorChange envelope =>
    { s with admission := (s.admission.onMemberMessage P 0x41 envelope).1 }
  | .timeoutChanged envelope =>
    { s with admission := (s.admission.onTimeoutChanged P envelope).1 }
  | .memberJoined _ | .memberLeft _ | .memberKicked _ | .joinPolicyChanged _ | .memberSnapshot _ =>
    { s with admission := (s.admission.onMembershipMessage P message).1 }
  | _ => s.handleHostMessage P derive message

/-- The inbound branch. -/
def onInbound (s : JoinSession) (now : Duration) : Option Message → JoinSession
  | none => s.fail "the room connection was lost"
  | some message =>
    let previousKind := s.admission.timeoutKind
    let s := { s with lastSeen := now }.handleJoinMessage P derive message
    if s.ended.isSome then s
    else if s.admission.timeoutKind ≠ previousKind then { s with stageSince := now }
    else s

/-- The maintenance branch. -/
def onTick (timeouts : Timeouts) (s : JoinSession) (now : Duration) : TorStatus → JoinSession
  | .exited => s.fail "Tor stopped unexpectedly"
  | .unknown error => s.fail s!"Tor status failed: {error}"
  | .running =>
    let kind := s.admission.timeoutKind
    let allowed := if kind = .keepalive then timeouts.get kind * 3 else timeouts.get kind
    let since := if kind = .keepalive then s.lastSeen else s.stageSince
    if now - since > allowed then s.fail "the room connection timed out" else s

/-- One round of the loop. -/
def step (s : JoinSession) (input : JoinInput) : JoinSession :=
  if s.ended.isSome then s
  else
    match input with
    | .tick now tor => s.onTick {} now tor
    | .quitKey => s.finish .quit
    | .key now key => s.onKey P now key
    | .paste text => s.onPaste text
    | .roomAction nonce action =>
      match s.screen with
      | .room _ => s.onRoomAction P nonce action
      | .joinForm _ | .joinPending => s
    | .keysClosed => s.finish .menu
    | .inbound now message => s.onInbound P derive now message
    | .queue queue => { s with queue }
    | .drawFailed => s.finish .quit

/-- The session after these inputs. -/
def run (s : JoinSession) (inputs : List JoinInput) : JoinSession := inputs.foldl (step P derive) s

end JoinSession

end Veilroom
