import Veilroom.Library.Utf8
import Veilroom.Tor.Lines
import Veilroom.Tor.Replies

/-!
The client of the control socket (`tor/control.rs`): a command is written, its reply is read, and
after a timeout the connection is not used again.
-/
namespace Veilroom
namespace Tor

/-- `MAX_CONTROL_LINE_BYTES`. -/
def maxControlLineBytes : Nat := 4096

/-- The errors of `ControlError` that a command on an open connection can end with. -/
inductive CommandError
  | reading (error : ControlError)
  | io | commandTimeout | desynchronized
  | authenticationFailed (reply : Reply)
deriving DecidableEq

/-- `Reply::is_ok`. -/
def Reply.isOk (reply : Reply) : Bool := reply.code = 250

/-- `Reply::first_line`. -/
def Reply.firstLine (reply : Reply) : Bytes := reply.lines.head?.getD []

/-- The bytes of a text. -/
def utf8 (text : String) : Bytes := Utf8.encode text.toList

/-! ### Reading a reply -/

/-- What the loop of `command_inner` makes of one line: its accumulator, and the reply when the
line completes it. -/
def ReplyAccumulator.feedText (s : ReplyAccumulator) (lineText : Bytes) :
    Except ControlError (ReplyAccumulator × Option Reply) :=
  if s.inDataBlock then
    match s.feedDataLine lineText with
    | .error error => .error (.parser error)
    | .ok fed => .ok fed
  else
    match parseControlLine lineText with
    | none =>
      if lineText = [46] then .error (.parser .unexpectedDataTerminator)
      else .error (.parser .malformedLine)
    | some line =>
      match s.feed line with
      | .error error => .error (.parser error)
      | .ok fed => .ok fed

theorem commandLoop_cons {s : ReplyAccumulator} {lineText : Bytes} {rest : Reads} :
    commandLoop s (.ok lineText :: rest) =
      match s.feedText lineText with
      | .error error => (.error error, rest)
      | .ok (_, some reply) => (.ok reply, rest)
      | .ok (s, none) => commandLoop s rest := by
  rw [commandLoop, ReplyAccumulator.feedText]
  split
  · cases s.feedDataLine lineText with
    | error error => rfl
    | ok fed => obtain ⟨s, reply | reply⟩ := fed <;> rfl
  · cases parseControlLine lineText with
    | none =>
        dsimp only
        by_cases hdot : lineText = [46]
        · rw [if_pos hdot, if_pos hdot]
        · rw [if_neg hdot, if_neg hdot]
    | some line =>
        dsimp only
        cases s.feed line with
        | error error => rfl
        | ok fed => obtain ⟨s, reply | reply⟩ := fed <;> rfl

namespace LineReader
variable {r r' : LineReader} {reads reads' : List Bytes} {text : Bytes}

theorem fill_shrinks (h : r.fill reads = (.ok (some text), r', reads')) :
    r'.pending.length + reads'.flatten.length < r.pending.length + reads.flatten.length := by
  induction reads generalizing r with
  | nil =>
      rw [fill] at h
      split at h <;> cases h
  | cons read reads ih =>
      rw [fill] at h
      split at h
      · split at h <;> cases h
      · rw [List.flatten_cons, List.length_append]
        cases honce : Split.once [10] read with
        | some parts =>
            obtain ⟨before, after⟩ := parts
            obtain ⟨rfl, -⟩ := Split.once_singleton.mp honce
            rw [honce] at h
            dsimp only at h
            split at h
            · cases h
            · obtain ⟨-, hrest⟩ := Prod.mk.inj h
              cases hrest
              simp only [List.length_append, List.length_cons]
              omega
        | none =>
            rw [honce] at h
            dsimp only at h
            split at h
            · cases h
            · have hlt := ih h
              dsimp only at hlt
              omega

/-- A line that is returned is used up. -/
theorem nextLine_shrinks (h : r.nextLine reads = (.ok (some text), r', reads')) :
    r'.pending.length + reads'.flatten.length < r.pending.length + reads.flatten.length := by
  rw [nextLine] at h
  cases honce : Split.once [10] r.pending with
  | some parts =>
      obtain ⟨line, after⟩ := parts
      rw [honce] at h
      obtain ⟨-, hrest⟩ := Prod.mk.inj h
      cases hrest
      rw [(Split.once_singleton.mp honce).1]
      simp only [List.length_append, List.length_cons]
      omega
  | none =>
      rw [honce] at h
      have hlt := fill_shrinks h
      have hnil : ([] : Bytes).length = 0 := rfl
      dsimp only at hlt
      omega

end LineReader

/-- The loop of `command_inner` on what the reads return until the end of the stream: its result,
the reader it leaves and the reads it has not made. -/
def readReply (s : ReplyAccumulator) (r : LineReader) (reads : List Bytes) :
    Except ControlError Reply × LineReader × List Bytes :=
  match h : r.nextLine reads with
  | (.error error, r, reads) => (.error error, r, reads)
  | (.ok none, r, reads) => (.error .unexpectedEof, r, reads)
  | (.ok (some lineText), r', reads') =>
    have _ := LineReader.nextLine_shrinks h
    match s.feedText lineText with
    | .error error => (.error error, r', reads')
    | .ok (_, some reply) => (.ok reply, r', reads')
    | .ok (s, none) => readReply s r' reads'
termination_by r.pending.length + reads.flatten.length
decreasing_by assumption

section
variable {s : ReplyAccumulator} {r r' : LineReader} {reads reads' : List Bytes}

theorem readReply_some {lineText : Bytes}
    (h : r.nextLine reads = (.ok (some lineText), r', reads')) :
    readReply s r reads =
      match s.feedText lineText with
      | .error error => (.error error, r', reads')
      | .ok (_, some reply) => (.ok reply, r', reads')
      | .ok (s, none) => readReply s r' reads' := by
  rw [readReply]
  split
  · rename_i hnext
    rw [h] at hnext
    cases hnext
  · rename_i hnext
    rw [h] at hnext
    cases hnext
  · rename_i hnext
    rw [h] at hnext
    cases hnext
    rfl

theorem readReply_none (h : r.nextLine reads = (.ok none, r', reads')) :
    readReply s r reads = (.error .unexpectedEof, r', reads') := by
  rw [readReply]
  split <;> simp_all

theorem readReply_error {error : ControlError} (h : r.nextLine reads = (.error error, r', reads')) :
    readReply s r reads = (.error error, r', reads') := by
  rw [readReply]
  split <;> simp_all

end

/-! ### The client -/

/-- `ControlClient`, with both ends of its socket: what was written to it, and what its next reads
return. -/
structure ControlClient where
  reader : LineReader := { max := maxControlLineBytes }
  poisoned : Bool := false
  written : Bytes := []
  unread : List Bytes := []
deriving DecidableEq

/-- What becomes of a command whose reply does not come in full. -/
inductive Ending
  /-- The command cannot be written. -/
  | unwritten
  /-- The stream ends. -/
  | closed
  /-- A read fails. -/
  | failed
  /-- Nothing more comes for the ten seconds a command may take. -/
  | silent
deriving DecidableEq

/-- `command.contains(['\r', '\n'])`. -/
def breaksLine (command : Bytes) : Bool := 13 ∈ command ∨ 10 ∈ command

/-- `ControlClient::command` and its `command_inner`, on what has come until then. -/
def ControlClient.command (c : ControlClient) (command : Bytes) (ending : Ending) :
    ControlClient × Except CommandError Reply :=
  if c.poisoned then (c, .error .desynchronized)
  else if breaksLine command then (c, .error (.reading .invalidCommand))
  else if ending = .unwritten then (c, .error .io)
  else
    let (result, reader, unread) := readReply {} c.reader c.unread
    let c := { c with reader, unread, written := c.written ++ command ++ [13, 10] }
    match result with
    | .ok reply => (c, .ok reply)
    | .error .unexpectedEof =>
      match ending with
      | .unwritten | .closed => (c, .error (.reading .unexpectedEof))
      | .failed => (c, .error .io)
      | .silent => ({ c with poisoned := true }, .error .commandTimeout)
    | .error error => (c, .error (.reading error))

/-- `timeout_at(deadline, command)`, where no ending means that the deadline comes first: the
command is dropped where it waits, and its own timeout does nothing. -/
def ControlClient.commandWithin (c : ControlClient) (command : Bytes) :
    Option Ending → ControlClient × Option (Except CommandError Reply)
  | some ending =>
    let (c, result) := c.command command ending
    (c, some result)
  | none =>
    match c.command command .silent with
    | (c, .error .commandTimeout) => ({ c with poisoned := false }, none)
    | (c, result) => (c, some result)

/-- A command, what comes on the socket while it waits, and how it ends otherwise. -/
structure Exchange where
  command : Bytes
  arrives : List Bytes
  ending : Option Ending
deriving DecidableEq

/-- One exchange. -/
def ControlClient.exchange (c : ControlClient) (e : Exchange) :
    ControlClient × Option (Except CommandError Reply) :=
  ({ c with unread := c.unread ++ e.arrives } : ControlClient).commandWithin e.command e.ending

namespace ControlClient

/-- What a command that was written comes to, with what the loop read for it. -/
def conclude (c : ControlClient) (ending : Option Ending) :
    Except ControlError Reply → ControlClient × Option (Except CommandError Reply)
  | .ok reply => (c, some (.ok reply))
  | .error .unexpectedEof =>
    match ending with
    | some .unwritten | some .closed => (c, some (.error (.reading .unexpectedEof)))
    | some .failed => (c, some (.error .io))
    | some .silent => ({ c with poisoned := true }, some (.error .commandTimeout))
    | none => (c, none)
  | .error error => (c, some (.error (.reading error)))

variable {c : ControlClient} {e : Exchange}

theorem exchange_poisoned (hpoisoned : c.poisoned = true) (e : Exchange) :
    c.exchange e = ({ c with unread := c.unread ++ e.arrives }, some (.error .desynchronized)) := by
  rw [exchange]
  cases e.ending with
  | some ending => rw [commandWithin, command, if_pos hpoisoned]
  | none => rw [commandWithin, command, if_pos hpoisoned]

theorem exchange_breaksLine (hpoisoned : c.poisoned = false) (hline : breaksLine e.command = true) :
    c.exchange e =
      ({ c with unread := c.unread ++ e.arrives }, some (.error (.reading .invalidCommand))) := by
  have hready : ¬ c.poisoned = true := Bool.eq_false_iff.mp hpoisoned
  rw [exchange]
  cases e.ending with
  | some ending => rw [commandWithin, command, if_neg hready, if_pos hline]
  | none => rw [commandWithin, command, if_neg hready, if_pos hline]

theorem exchange_unwritten (hpoisoned : c.poisoned = false) (hline : breaksLine e.command = false)
    (hending : e.ending = some .unwritten) :
    c.exchange e = ({ c with unread := c.unread ++ e.arrives }, some (.error .io)) := by
  have hready : ¬ c.poisoned = true := Bool.eq_false_iff.mp hpoisoned
  rw [exchange, hending, commandWithin, command, if_neg hready,
    if_neg (Bool.eq_false_iff.mp hline), if_pos rfl]

theorem exchange_read (hpoisoned : c.poisoned = false) (hline : breaksLine e.command = false)
    (hending : e.ending ≠ some .unwritten) {result : Except ControlError Reply}
    {reader : LineReader} {unread : List Bytes}
    (hread : readReply {} c.reader (c.unread ++ e.arrives) = (result, reader, unread)) :
    c.exchange e = conclude { c with reader, unread, written := c.written ++ e.command ++ [13, 10] }
      e.ending result := by
  have hready : ¬ c.poisoned = true := Bool.eq_false_iff.mp hpoisoned
  have hline : ¬ breaksLine e.command = true := Bool.eq_false_iff.mp hline
  rw [exchange]
  cases hcase : e.ending with
  | some ending =>
      have hwritten : ending ≠ .unwritten := fun heq => hending (heq ▸ hcase)
      rw [commandWithin, command, if_neg hready, if_neg hline, if_neg hwritten, hread]
      cases result with
      | ok reply => rfl
      | error error => cases error <;> cases ending <;> rfl
  | none =>
      rw [commandWithin, command, if_neg hready, if_neg hline, if_neg nofun, hread]
      cases result with
      | ok reply => rfl
      | error error =>
          cases error with
          | unexpectedEof =>
              dsimp only
              rw [hpoisoned]
              rfl
          | lineTooLong _ | parser _ | invalidCommand => rfl

end ControlClient

/-- `ControlClient::authenticate` on the reply to its command. -/
def authenticated (reply : Reply) : Except CommandError Unit :=
  if reply.isOk then .ok ()
  else if reply.code = 513 ∧ (Split.once (utf8 "authenticated") reply.firstLine).isSome then
    .ok ()
  else .error (.authenticationFailed reply)

end Tor
end Veilroom
