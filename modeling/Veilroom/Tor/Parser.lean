import Mathlib.Algebra.GroupWithZero.Nat
import Veilroom.Basic
import Veilroom.Library.Split

/-!
Lines and replies of the Tor control protocol (`tor/parser.rs`, `tor/control.rs`): the line parser,
the reply accumulator, the line reader and the loop of a command.

A `String` is its UTF-8 bytes.
-/
namespace Veilroom
namespace Tor

/-- `ParserError`. -/
inductive ParserError
  | malformedLine
  | codeMismatch (expected found : Nat)
  | unexpectedDataBlock | unexpectedDataTerminator | replyTooLarge
deriving DecidableEq

/-- The errors of `ControlError` that reading a reply can end with. -/
inductive ControlError
  | lineTooLong (max : Nat)
  | parser (error : ParserError)
  | unexpectedEof
  | invalidCommand
deriving DecidableEq

inductive LineKind
  | continuation | data | last
deriving DecidableEq

structure ControlLine where
  code : Nat
  kind : LineKind
  data : Bytes
deriving DecidableEq

structure Reply where
  code : Nat
  lines : List Bytes
deriving DecidableEq

def isAsciiDigit (byte : UInt8) : Bool := 48 ≤ byte && byte ≤ 57

/-- What the separator says of its line. -/
def lineKind (separator : UInt8) : Option LineKind :=
  if separator = 45 then some .continuation
  else if separator = 43 then some .data
  else if separator = 32 then some .last
  else none

/-- `parse_control_line`. -/
def parseControlLine : Bytes → Option ControlLine
  | hundreds :: tens :: ones :: separator :: data =>
    if isAsciiDigit hundreds && isAsciiDigit tens && isAsciiDigit ones then
      let code := (hundreds.toNat - 48) * 100 + (tens.toNat - 48) * 10 + (ones.toNat - 48)
      match lineKind separator with
      | none => none
      | some kind => some ⟨code, kind, data⟩
    else none
  | _ => none

/-! ### The reply accumulator -/

structure ReplyAccumulator where
  code : Option Nat := none
  lines : List Bytes := []
  inDataBlock : Bool := false
deriving DecidableEq

namespace ReplyAccumulator

def maxReplyLines : Nat := 1024
def maxReplyBytes : Nat := 1024 * 1024

/-- `push_line`. -/
def pushLine (s : ReplyAccumulator) (line : Bytes) : Except ParserError ReplyAccumulator :=
  let bytes := (s.lines.map List.length).sum + line.length
  if maxReplyLines ≤ s.lines.length ∨ maxReplyBytes < bytes then .error .replyTooLarge
  else .ok { s with lines := s.lines ++ [line] }

/-- `begin`. -/
def begin (s : ReplyAccumulator) (line : ControlLine) : Except ParserError ReplyAccumulator :=
  match ({ s with code := some line.code } : ReplyAccumulator).pushLine line.data with
  | .error error => .error error
  | .ok s => .ok { s with inDataBlock := line.kind = .data }

/-- `take_reply`. -/
def takeReply (s : ReplyAccumulator) : ReplyAccumulator × Reply :=
  ({}, ⟨s.code.getD 0, s.lines⟩)

/-- The period that Tor puts before a data line beginning with one, taken off again. -/
def unstuff : Bytes → Bytes
  | 46 :: 46 :: rest => 46 :: rest
  | rawLine => rawLine

/-- `feed_data_line`. -/
def feedDataLine (s : ReplyAccumulator) (rawLine : Bytes) :
    Except ParserError (ReplyAccumulator × Option Reply) :=
  if ¬ s.inDataBlock then .error .unexpectedDataTerminator
  else if rawLine = [46] then .ok ({ s with inDataBlock := false }, none)
  else
    match s.pushLine (unstuff rawLine) with
    | .error error => .error error
    | .ok s => .ok (s, none)

/-- `feed`. -/
def feed (s : ReplyAccumulator) (line : ControlLine) :
    Except ParserError (ReplyAccumulator × Option Reply) :=
  match s.code.filter (· ≠ line.code) with
  | some expected => .error (.codeMismatch expected line.code)
  | none =>
    match line.kind, s.code with
    | .last, _ =>
      match s.pushLine line.data with
      | .error error => .error error
      | .ok s =>
        let (s, reply) := ({ s with code := some (s.code.getD line.code) } :
          ReplyAccumulator).takeReply
        .ok (s, some reply)
    | .data, some _ => .error .unexpectedDataBlock
    | .continuation, some _ =>
      match s.pushLine line.data with
      | .error error => .error error
      | .ok s => .ok (s, none)
    | _, none =>
      match s.begin line with
      | .error error => .error error
      | .ok s => .ok (s, none)

end ReplyAccumulator

/-! ### The command loop -/

/-- The loop of `command_inner` on what `next_line` returns until the end of the stream: its
result, and what it leaves unread. -/
def commandLoop (s : ReplyAccumulator) :
    List (Except ControlError Bytes) →
      Except ControlError Reply × List (Except ControlError Bytes)
  | [] => (.error .unexpectedEof, [])
  | .error error :: rest => (.error error, rest)
  | .ok lineText :: rest =>
    if s.inDataBlock then
      match s.feedDataLine lineText with
      | .error error => (.error (.parser error), rest)
      | .ok (_, some reply) => (.ok reply, rest)
      | .ok (s, none) => commandLoop s rest
    else
      match parseControlLine lineText with
      | none =>
        if lineText = [46] then (.error (.parser .unexpectedDataTerminator), rest)
        else (.error (.parser .malformedLine), rest)
      | some line =>
        match s.feed line with
        | .error error => (.error (.parser error), rest)
        | .ok (_, some reply) => (.ok reply, rest)
        | .ok (s, none) => commandLoop s rest

/-! ### The line reader -/

structure LineReader where
  pending : Bytes := []
  buf : Bytes := []
  max : Nat
deriving DecidableEq

namespace LineReader

/-- `finish_line`. -/
def finishLine (r : LineReader) : Except ControlError Bytes :=
  match String.fromUTF8? ⟨r.buf.toArray⟩ with
  | none => .error (.parser .malformedLine)
  | some _ => .ok ((Split.stripSuffix [13] r.buf).getD r.buf)

/-- The loop of `next_line` on what the reads return; a read of nothing is the end of the
stream. -/
def fill (r : LineReader) :
    List Bytes → Except ControlError (Option Bytes) × LineReader × List Bytes
  | [] => if r.buf = [] then (.ok none, r, []) else (.error .unexpectedEof, r, [])
  | read :: reads =>
    if read = [] then
      if r.buf = [] then (.ok none, r, reads) else (.error .unexpectedEof, r, reads)
    else
      match Split.once [10] read with
      | some (before, after) =>
        let r := { r with buf := r.buf ++ before }
        if r.max < r.buf.length then (.error (.lineTooLong r.max), r, reads)
        else
          let r := { r with pending := r.pending ++ after }
          (r.finishLine.map some, r, reads)
      | none =>
        let r := { r with buf := r.buf ++ read }
        if r.max < r.buf.length then (.error (.lineTooLong r.max), r, reads)
        else fill r reads

/-- `next_line`. -/
def nextLine (r : LineReader) (reads : List Bytes) :
    Except ControlError (Option Bytes) × LineReader × List Bytes :=
  match Split.once [10] r.pending with
  | some (line, after) =>
    let r := { r with buf := line, pending := after }
    (r.finishLine.map some, r, reads)
  | none => fill { r with buf := r.pending, pending := [] } reads

end LineReader

end Tor

end Veilroom
