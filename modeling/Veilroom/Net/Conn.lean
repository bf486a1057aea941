import Veilroom.Host.Connection
import Veilroom.Library.Run
import Veilroom.Protocol.Codec

/-!
One peer connection (`net/conn.rs`): the handle the supervisor sends through and
drops, and the task behind it, from one of its await points to the next.

`HostNetwork::send_to` sends through the handle of its peer; `close`,
`close_all` and dropping the network drop handles. A dropped handle aborts the
task, and the runtime cancels an aborted task at any of its await points.
-/
namespace Veilroom

/-- `net::OUTBOUND_QUEUE_CAPACITY`. -/
def outboundQueueCapacity : Nat := 64

/-- A message of the stream; `queued` when it came through the handle. -/
structure Sent where
  message : Message
  queued : Bool
deriving DecidableEq

/-- Where the connection task waits. -/
inductive ConnTask
  /-- At `select!`. -/
  | selecting
  /-- In `encode_write`, called from a branch of `select!`. -/
  | writing (sent : Sent)
  /-- For space in the inbound queue, with the frames still to be decoded. -/
  | forwarding (message : Message) (frames : List Frame)
  /-- The same with the report of an undecodable frame. -/
  | reporting (report : Message)
  | writingReport (report : Message)
  /-- In `close`. -/
  | closing
  | ended
deriving DecidableEq

structure PeerConn where
  task : ConnTask
  decoder : FrameDecoder
  outbound : List Message
  /-- The handle is gone and the task aborted. -/
  dropped : Bool
  /-- What the task forwarded to the supervisor. -/
  inbound : List (Option Message)
  /-- What `send` accepted. -/
  accepted : List Message
  /-- What was written to the stream in full. -/
  stream : List Sent
  /-- A write of `select!` failed. -/
  failed : Bool

inductive ConnInput
  | send (message : Message)
  | drop
  /-- The runtime cancels the aborted task. -/
  | cancel
  | tick
  | receive
  /-- `none` is a failed read and the empty chunk the end of the stream. -/
  | read (chunk : Option Bytes)
  /-- The pending write ends; `done` is whether the stream took all of it in time. -/
  | wrote (done : Bool)
  /-- The pending send to the supervisor ends; `taken` is whether its receiver is there. -/
  | forwarded (taken : Bool)

namespace PeerConn
variable (M : Minicbor) (P : Primitives) (limits : Limits)

/-- `PeerConnection::spawn`. -/
def spawn : PeerConn :=
  ⟨.selecting, .new limits, [], false, [], [], [], false⟩

/-- `PeerConnection::send`. -/
def send (c : PeerConn) (message : Message) : PeerConn × Except PeerSendError Unit :=
  if c.dropped ∨ c.task = .ended then (c, .error .closed)
  else if c.outbound.length ≥ outboundQueueCapacity then (c, .error .queueFull)
  else ({ c with outbound := c.outbound ++ [message], accepted := c.accepted ++ [message] }, .ok ())

/-- `read_frames`. -/
def readFrames (decoder : FrameDecoder) :
    Option Bytes → Except FrameError (FrameDecoder × Option (List Frame))
  | none => .error .unexpectedEof
  | some [] =>
    match decoder.finish with
    | .error error => .error error
    | .ok () => .ok (decoder, none)
  | some chunk =>
    match decoder.feed chunk with
    | .error error => .error error
    | .ok (decoder, frames) => .ok (decoder, some frames)

/-- The report of an undecodable frame. -/
def undecodable : Message :=
  .error (match ErrorMessage.new .protocolViolation (some "undecodable frame") with
    | .ok reason => reason
    | .error _ => ⟨.protocolViolation, none⟩)

/-- The loop over the frames of one read. -/
def forward : List Frame → ConnTask
  | [] => .selecting
  | frame :: frames =>
    match Message.decode M P frame limits with
    | .ok message => .forwarding message frames
    | .error _ => .reporting undecodable

/-- What is being written for the handle. -/
def inFlight (c : PeerConn) : List Message :=
  match c.task with
  | .writing sent => if sent.queued then [sent.message] else []
  | _ => []

/-- What `send` accepted and the stream does not have. -/
def pending (c : PeerConn) : List Message := c.inFlight ++ c.outbound

/-- What the stream has of what `send` accepted. -/
def written (c : PeerConn) : List Message :=
  (c.stream.filter Sent.queued).map Sent.message

/-- One step of the supervisor, of the runtime or of the task of `run`. The branches of `select!`
are `tick`, `receive` and `read`, in this order of preference. -/
def step (c : PeerConn) : ConnInput → PeerConn × Except PeerSendError Unit
  | .send message => c.send message
  | .drop => ({ c with dropped := true }, .ok ())
  | .cancel => (if c.dropped then { c with task := .ended } else c, .ok ())
  | .tick =>
    match c.task with
    | .selecting => ({ c with task := .writing ⟨.keepalive, false⟩ }, .ok ())
    | _ => (c, .ok ())
  | .receive =>
    match c.task, c.outbound with
    | .selecting, message :: outbound =>
      ({ c with task := .writing ⟨message, true⟩, outbound }, .ok ())
    | .selecting, [] => (if c.dropped then { c with task := .closing } else c, .ok ())
    | _, _ => (c, .ok ())
  | .read chunk =>
    match c.task with
    | .selecting =>
      -- the queue is asked first, and answers when it holds a message or has no sender left
      if c.outbound ≠ [] ∨ c.dropped then (c, .ok ())
      else
        match readFrames c.decoder chunk with
        | .ok (decoder, some frames) =>
          ({ c with decoder, task := forward M P limits frames }, .ok ())
        | .ok (_, none) | .error _ => ({ c with task := .closing }, .ok ())
    | _ => (c, .ok ())
  | .wrote done =>
    match c.task with
    | .writing sent =>
      if done ∧ (sent.message.encode M limits).toBool then
        ({ c with task := .selecting, stream := c.stream ++ [sent] }, .ok ())
      else ({ c with task := .closing, failed := true }, .ok ())
    | .writingReport report =>
      if done ∧ (report.encode M limits).toBool then
        ({ c with task := .closing, stream := c.stream ++ [⟨report, false⟩] }, .ok ())
      else ({ c with task := .closing }, .ok ())
    | _ => (c, .ok ())
  | .forwarded taken =>
    match c.task with
    | .forwarding message frames =>
      if taken then
        ({ c with task := forward M P limits frames, inbound := c.inbound ++ [some message] },
          .ok ())
      else ({ c with task := .ended }, .ok ())
    | .reporting report =>
      if taken then
        ({ c with task := .writingReport report, inbound := c.inbound ++ [some report] }, .ok ())
      else ({ c with task := .ended }, .ok ())
    | .closing =>
      ({ c with task := .ended, inbound := if taken then c.inbound ++ [none] else c.inbound },
        .ok ())
    | _ => (c, .ok ())

abbrev Entry := Machine.Entry PeerConn ConnInput (Except PeerSendError Unit)
abbrev Past := List Entry

/-- Any schedule of the supervisor, the runtime and the task. -/
abbrev Run (c₀ : PeerConn) (past : Past) (c : PeerConn) : Prop :=
  Machine.Run (step M P limits) (fun _ _ _ => True) c₀ past c

end PeerConn

end Veilroom
