import Veilroom.Library.Simulation
import Veilroom.Tor.Control

/-!
A dialogue with Tor over the control socket: which reply a command gets, when what Tor sends is cut
into reads anyhow, comes late or does not come at all.
-/
namespace Veilroom
namespace Tor

/-! ### Answers -/

/-- A line that the reader returns as it is. -/
structure Readable (line : Bytes) : Prop where
  newline : 10 ∉ line
  short : line.length < maxControlLineBytes
  text : ∃ text, line = Utf8.encode text

/-- Lines as they are sent. -/
def unlines (lines : List Bytes) : Bytes := lines.flatMap (· ++ [13, 10])

@[simp] theorem unlines_nil : unlines [] = [] := rfl

@[simp] theorem unlines_cons (line : Bytes) (lines : List Bytes) :
    unlines (line :: lines) = line ++ 13 :: 10 :: unlines lines := by
  simp [unlines]

@[simp] theorem unlines_append (lines more : List Bytes) :
    unlines (lines ++ more) = unlines lines ++ unlines more :=
  List.flatMap_append

/-- What Tor answers to a command, within the limits of the client. -/
structure Answer where
  code : Nat
  block : Option Block
  continuations : List Bytes
  final : Bytes
  code_lt : code < 1000
  fits : Fits (contents block continuations final)
  readable : ∀ line ∈ (sent code block continuations).wire final, Readable line

namespace Answer

def lines (answer : Answer) : List Bytes :=
  (sent answer.code answer.block answer.continuations).wire answer.final

/-- What goes over the socket. -/
def bytes (answer : Answer) : Bytes := unlines answer.lines

/-- What it says. -/
def reply (answer : Answer) : Reply :=
  ⟨answer.code, contents answer.block answer.continuations answer.final⟩

theorem commandLoop_lines (answer : Answer) (rest : Reads) :
    commandLoop {} (answer.lines.map .ok ++ rest) = (.ok answer.reply, rest) := by
  have hfits : Fits ((sent answer.code answer.block answer.continuations).data ++
      [answer.final]) := by
    rw [data_sent]
    exact answer.fits
  rw [lines, commandLoop_wire (sent_wellFormed _ _ answer.code_lt) hfits, WireReply.reply,
    data_sent]
  rfl

end Answer

/-! ### Reading an answer -/

section
variable {r : LineReader} {reads : List Bytes} {s : ReplyAccumulator} {line : Bytes}

/-- What begins a list and does not have its separator ends before it. -/
theorem prefix_of_not_mem {α : Type} {x : α} {front before rest : List α} (hfresh : x ∉ front)
    (h : front <+: before ++ x :: rest) : front <+: before := by
  obtain hshort | ⟨more, rfl⟩ := List.prefix_or_prefix_of_prefix h (List.prefix_append before _)
  · exact hshort
  · cases more with
    | nil => simp
    | cons y more =>
        obtain ⟨rfl, -⟩ := List.cons_prefix_cons.mp ((List.prefix_append_right_inj before).mp h)
        exact absurd (List.mem_append_right before (.head more)) hfresh

/-- What begins a list and has its first separator goes on behind it. -/
theorem prefix_of_mem {α : Type} {x : α} {front before rest : List α} (hmem : x ∈ front)
    (hfresh : x ∉ before) (h : front <+: before ++ x :: rest) :
    ∃ front', front = before ++ x :: front' ∧ front' <+: rest := by
  obtain hlong | hshort := List.prefix_or_prefix_of_prefix (List.prefix_append before _) h
  · obtain ⟨more, rfl⟩ := hlong
    have hmore := (List.prefix_append_right_inj before).mp h
    cases more with
    | nil => exact absurd (List.append_nil before ▸ hmem) hfresh
    | cons y more =>
        obtain ⟨rfl, hrest⟩ := List.cons_prefix_cons.mp hmore
        exact ⟨more, rfl, hrest⟩
  · exact absurd (hshort.subset hmem) hfresh

/-- A reader of the control socket between two commands. -/
structure LineReader.Fresh (r : LineReader) : Prop where
  max : r.max = maxControlLineBytes
  pending : r.pending.length < 512

theorem LineReader.Fresh.limit (h : r.Fresh) : 512 ≤ r.max := by
  rw [h.max]
  decide

theorem finished_readable (h : Readable line) : finished (line ++ [13]) = .ok line := by
  obtain ⟨text, rfl⟩ := h.text
  have hcr : (13 : UInt8) :: [] = Utf8.encode ['\r'] := by decide
  have hvalid : (⟨(Utf8.encode text ++ [13]).toArray⟩ : ByteArray).IsValidUTF8 := by
    rw [hcr, ← Utf8.encode_append, ← List.data_toByteArray]
    exact Utf8.isValidUTF8_encode _
  have hstrip : Split.stripSuffix [13] (Utf8.encode text ++ [13]) = some (Utf8.encode text) :=
    Split.stripSuffix_eq_some.mpr rfl
  rw [finished, String.fromUTF8?, dif_pos hvalid, hstrip]
  rfl

/-- A line that has come is returned. -/
theorem nextLine_line (hcut : Cut reads) (hfresh : r.Fresh) (hline : Readable line) {rest : Bytes}
    (hstream : r.pending ++ reads.flatten = line ++ 13 :: 10 :: rest) :
    ∃ r' reads', r.nextLine reads = (.ok (some line), r', reads') ∧ r'.Fresh ∧ Cut reads' ∧
      r'.pending ++ reads'.flatten = rest := by
  have hshort : (line ++ [13]).length ≤ r.max := by
    rw [hfresh.max, List.length_append]
    exact hline.short
  have hfirst : 10 ∉ line ++ [13] := by
    rw [List.mem_append, not_or]
    exact ⟨hline.newline, by decide⟩
  have hserved := nextLine_served hcut hfresh.limit hfresh.pending
  have hwhole : r.pending ++ reads.flatten = (line ++ [13]) ++ 10 :: rest := by simp [hstream]
  have hlimit := hfresh.max
  generalize r.pending ++ reads.flatten = stream at hserved hwhole
  generalize r.max = max at hserved hlimit hshort
  generalize r.nextLine reads = out at hserved
  cases hserved with
  | @line line' rest' r' reads' hfirst' hshort' hsame hpending hcut' hrest =>
      have hsplit := congrArg (List.splitOn 10) hwhole
      rw [splitOn_line hfirst, splitOn_line hfirst'] at hsplit
      obtain ⟨rfl, -⟩ := List.cons.inj hsplit
      obtain ⟨-, rfl⟩ := List.cons.inj (List.append_cancel_left hwhole)
      rw [finished_readable hline]
      exact ⟨r', reads', rfl, ⟨hsame.trans hlimit, hpending⟩, hcut', hrest⟩
  | @tooLong front more r' reads' hfirst' hlong =>
      have hbegins := prefix_of_not_mem hfirst' (hwhole ▸ List.prefix_append front more)
      exact absurd (Nat.le_trans hbegins.length_le hshort) (not_le.mpr hlong)
  | ended => simp at hwhole
  | inside hfirst' _ _ =>
      rw [hwhole] at hfirst'
      simp at hfirst'

theorem fill_waits (hcut : Cut reads) (hnewline : 10 ∉ reads.flatten)
    (hshort : r.buf.length + reads.flatten.length ≤ r.max) :
    ∃ result r', r.fill reads = (result, r', []) ∧
      (result = .ok none ∨ result = .error .unexpectedEof) ∧ r'.max = r.max ∧
        r'.pending = r.pending := by
  induction reads generalizing r with
  | nil =>
      rw [LineReader.fill]
      split
      · exact ⟨_, _, rfl, .inl rfl, rfl, rfl⟩
      · exact ⟨_, _, rfl, .inr rfl, rfl, rfl⟩
  | cons read reads ih =>
      obtain ⟨hread, hrest⟩ := List.forall_mem_cons.mp hcut
      rw [List.flatten_cons, List.mem_append, not_or] at hnewline
      rw [List.flatten_cons, List.length_append] at hshort
      rw [LineReader.fill, if_neg hread.1, Split.once_singleton_none.mpr hnewline.1]
      dsimp only
      have hroom : ¬ r.max < (r.buf ++ read).length := by
        rw [List.length_append]
        omega
      rw [if_neg hroom]
      refine ih hrest hnewline.2 ?_
      change (r.buf ++ read).length + reads.flatten.length ≤ r.max
      rw [List.length_append]
      omega

/-- A part of a line keeps the reader waiting. -/
theorem readReply_waits (hcut : Cut reads) (hfresh : r.Fresh)
    (hnewline : 10 ∉ r.pending ++ reads.flatten)
    (hshort : (r.pending ++ reads.flatten).length ≤ maxControlLineBytes) :
    ∃ r', readReply s r reads = (.error .unexpectedEof, r', []) ∧ r'.max = maxControlLineBytes ∧
      r'.pending = [] := by
  rw [List.mem_append, not_or] at hnewline
  rw [List.length_append, ← hfresh.max] at hshort
  obtain ⟨result, r', hfill, hresult, hmax, hpending⟩ :=
    fill_waits (r := { r with buf := r.pending, pending := [] }) hcut hnewline.2 hshort
  have hnext : r.nextLine reads = (result, r', []) := by
    rw [LineReader.nextLine, Split.once_singleton_none.mpr hnewline.1]
    exact hfill
  refine ⟨r', ?_, hmax.trans hfresh.max, hpending⟩
  obtain rfl | rfl := hresult
  · exact readReply_none hnext
  · exact readReply_error hnext

theorem readReply_line (hcut : Cut reads) (hfresh : r.Fresh) (hline : Readable line) {rest : Bytes}
    (hstream : r.pending ++ reads.flatten = line ++ 13 :: 10 :: rest) :
    ∃ r' reads', r'.Fresh ∧ Cut reads' ∧ r'.pending ++ reads'.flatten = rest ∧
      readReply s r reads =
        match s.feedText line with
        | .error error => (.error error, r', reads')
        | .ok (_, some reply) => (.ok reply, r', reads')
        | .ok (s, none) => readReply s r' reads' := by
  obtain ⟨r', reads', hnext, hfresh', hcut', hrest⟩ := nextLine_line hcut hfresh hline hstream
  exact ⟨r', reads', hfresh', hcut', hrest, readReply_some hnext⟩

/-- The loop has the reply of an answer once the answer is complete, and waits until then. -/
theorem readReply_answer (lines : List Bytes) (hlines : ∀ line ∈ lines, Readable line)
    {reply : Reply} (hloop : ∀ rest, commandLoop s (lines.map .ok ++ rest) = (.ok reply, rest))
    (hcut : Cut reads) (hfresh : r.Fresh)
    (hstream : r.pending ++ reads.flatten <+: unlines lines) :
    ∃ r', readReply s r reads =
        (if r.pending ++ reads.flatten = unlines lines then .ok reply else .error .unexpectedEof,
          r', []) ∧ r'.max = maxControlLineBytes ∧ r'.pending = [] := by
  induction lines generalizing s r reads with
  | nil => cases hloop []
  | cons line lines ih =>
      obtain ⟨hline, hrest⟩ := List.forall_mem_cons.mp hlines
      rw [unlines_cons] at hstream ⊢
      by_cases hnewline : 10 ∈ r.pending ++ reads.flatten
      · have hfirst : 10 ∉ line ++ [13] := by
          rw [List.mem_append, not_or]
          exact ⟨hline.newline, by decide⟩
        have hwhole : line ++ 13 :: 10 :: unlines lines =
            (line ++ [13]) ++ 10 :: unlines lines := by
          simp
        obtain ⟨rest, heq, hbegins⟩ := prefix_of_mem hnewline hfirst (hwhole ▸ hstream)
        rw [List.append_assoc, List.singleton_append] at heq
        obtain ⟨r', reads', hfresh', hcut', hstream', hreply⟩ :=
          readReply_line (s := s) hcut hfresh hline heq
        rw [hreply, heq]
        have hfed : ∀ more, (match s.feedText line with
            | .error error => (.error error, lines.map .ok ++ more)
            | .ok (_, some reply) => (.ok reply, lines.map .ok ++ more)
            | .ok (s, none) => commandLoop s (lines.map .ok ++ more)) = (.ok reply, more) :=
          fun more => commandLoop_cons.symm.trans (hloop more)
        cases hfeed : s.feedText line with
        | error error =>
            rw [hfeed] at hfed
            cases hfed []
        | ok fed =>
            obtain ⟨s', done | done⟩ := fed
            · rw [hfeed] at hfed
              have hnext := ih hrest hfed hcut' hfresh' (hstream' ▸ hbegins)
              rw [hstream'] at hnext
              simpa using hnext
            · rw [hfeed] at hfed
              obtain ⟨hdone, hlast⟩ := Prod.mk.inj (hfed [])
              cases hdone
              rw [List.append_nil, List.map_eq_nil_iff] at hlast
              subst hlast
              obtain rfl : rest = [] := List.prefix_nil.mp hbegins
              obtain ⟨hpending, hreads⟩ := List.append_eq_nil_iff.mp hstream'
              obtain rfl : reads' = [] := by
                cases reads' with
                | nil => rfl
                | cons read reads' =>
                    exact absurd (List.append_eq_nil_iff.mp hreads).1 (hcut' read (.head _)).1
              exact ⟨r', by simp, hfresh'.max, hpending⟩
      · have hwhole : line ++ 13 :: 10 :: unlines lines =
            (line ++ [13]) ++ 10 :: unlines lines := by
          simp
        have hpart := prefix_of_not_mem hnewline (hwhole ▸ hstream)
        have hshort : (r.pending ++ reads.flatten).length ≤ maxControlLineBytes := by
          refine Nat.le_trans hpart.length_le ?_
          rw [List.length_append]
          exact hline.short
        have hne : r.pending ++ reads.flatten ≠ line ++ 13 :: 10 :: unlines lines := by
          intro heq
          rw [heq] at hnewline
          simp at hnewline
        rw [if_neg hne]
        exact readReply_waits hcut hfresh hnewline hshort

end

/-! ### What is written -/

/-- The command timed out. -/
def TimedOut (output : Option (Except CommandError Reply)) : Prop :=
  output = some (.error .commandTimeout)

instance : DecidablePred TimedOut := fun _ => inferInstanceAs (Decidable (_ = _))

/-- Whether a command is a line that the socket takes. -/
def Exchange.speaks (e : Exchange) : Bool := ¬ breaksLine e.command ∧ e.ending ≠ some .unwritten

/-- The commands a client writes: those that are a line the socket takes, up to the first that
times out. -/
def spoken (es : List Exchange) (c : ControlClient) : List Bytes :=
  if c.poisoned then []
  else
    let timeout := (Machine.outputs ControlClient.exchange es c).findIdx (TimedOut ·)
    ((es.take (timeout + 1)).filter Exchange.speaks).map Exchange.command

section
variable {c : ControlClient} {e : Exchange} {es : List Exchange}

theorem ControlClient.conclude_spec (c : ControlClient) (ending : Option Ending)
    (result : Except ControlError Reply) :
    (c.conclude ending result).1.written = c.written ∧
      ((c.conclude ending result).1.poisoned = true ↔
        c.poisoned = true ∨ TimedOut (c.conclude ending result).2) := by
  unfold TimedOut
  rcases result with (_ | _ | _ | _) | reply
  case error.unexpectedEof => rcases ending with _ | _ | _ | _ | _ <;> simp [conclude]
  all_goals simp [conclude]

/-- A command is written if it can be, and a client is poisoned once a command times out. -/
theorem ControlClient.exchange_spec (c : ControlClient) (e : Exchange) :
    (c.exchange e).1.written = c.written ++
        (if c.poisoned = false ∧ e.speaks then e.command ++ [13, 10] else []) ∧
      ((c.exchange e).1.poisoned = true ↔ c.poisoned = true ∨ TimedOut (c.exchange e).2) := by
  cases hpoisoned : c.poisoned with
  | true =>
      rw [exchange_poisoned hpoisoned]
      simp [hpoisoned]
  | false =>
      cases hline : breaksLine e.command with
      | true =>
          rw [exchange_breaksLine hpoisoned hline]
          simp [hpoisoned, hline, Exchange.speaks, TimedOut]
      | false =>
          by_cases hwritten : e.ending = some .unwritten
          · rw [exchange_unwritten hpoisoned hline hwritten]
            simp [hpoisoned, hwritten, Exchange.speaks, TimedOut]
          · rcases hread : readReply {} c.reader (c.unread ++ e.arrives) with ⟨result, r, unread⟩
            rw [exchange_read hpoisoned hline hwritten hread]
            obtain ⟨hsame, htimedOut⟩ := conclude_spec { c with
              reader := r
              unread
              written := c.written ++ e.command ++ [13, 10] } e.ending result
            refine ⟨?_, ?_⟩
            · rw [hsame]
              simp [hline, hwritten, Exchange.speaks]
            · rw [htimedOut, hpoisoned]

theorem spoken_poisoned (h : c.poisoned = true) (es : List Exchange) : spoken es c = [] := by
  rw [spoken, if_pos h]

@[simp] theorem spoken_nil (c : ControlClient) : spoken [] c = [] := by
  unfold spoken
  split <;> rfl

theorem spoken_cons (e : Exchange) (es : List Exchange) (c : ControlClient) :
    spoken (e :: es) c =
      (if c.poisoned = false ∧ e.speaks then [e.command] else []) ++
        spoken es (c.exchange e).1 := by
  obtain ⟨-, hpoisons⟩ := c.exchange_spec e
  cases hpoisoned : c.poisoned with
  | true =>
      rw [spoken_poisoned hpoisoned, spoken_poisoned (hpoisons.mpr (.inl hpoisoned))]
      simp
  | false =>
      rw [hpoisoned] at hpoisons
      rw [spoken, hpoisoned, if_neg Bool.false_ne_true, Machine.outputs]
      dsimp only
      by_cases htimedOut : TimedOut (c.exchange e).2
      · rw [spoken_poisoned (hpoisons.mpr (.inr htimedOut)), List.findIdx_cons,
          decide_eq_true htimedOut]
        cases hspeaks : e.speaks <;> simp [hspeaks]
      · have hready : ¬ (c.exchange e).1.poisoned = true := by
          simpa [htimedOut] using hpoisons
        rw [spoken, if_neg hready, List.findIdx_cons, decide_eq_false htimedOut]
        cases hspeaks : e.speaks <;> simp [hspeaks]

/-- What the client has written is what it wrote before, and the commands it spoke, a line each. -/
theorem written_after (es : List Exchange) (c : ControlClient) :
    (Machine.after ControlClient.exchange es c).written = c.written ++ unlines (spoken es c) := by
  induction es generalizing c with
  | nil => simp [Machine.after]
  | cons e es ih =>
      rw [Machine.after, ih, (c.exchange_spec e).1, spoken_cons, unlines_append, List.append_assoc]
      split <;> simp

/-- After a timeout every command fails. -/
theorem outputs_poisoned (hpoisoned : c.poisoned = true) (later : List Exchange) :
    Machine.outputs ControlClient.exchange later c =
      later.map (fun _ => some (.error .desynchronized)) := by
  induction later generalizing c with
  | nil => rfl
  | cons e later ih =>
      rw [Machine.outputs, ControlClient.exchange_poisoned hpoisoned, List.map_cons]
      exact congrArg _ (ih (c := { c with unread := c.unread ++ e.arrives }) hpoisoned)

end

/-! ### Dialogues -/

/-- A dialogue as it is meant. -/
structure Dialogue where
  /-- The commands put to Tor. -/
  asked : List Bytes := []
  /-- One of them timed out. -/
  deaf : Bool := false
  /-- The stream has ended. -/
  ended : Bool := false
  /-- A command was dropped, and its answer may still come. -/
  dropped : Bool := false
deriving DecidableEq

namespace Dialogue

/-- What a command gets from a Tor that answers the last of the commands put to it. -/
def exchange (tor : List Bytes → Answer) (d : Dialogue) (e : Exchange) :
    Dialogue × Option (Except CommandError Reply) :=
  if d.deaf then (d, some (.error .desynchronized))
  else if breaksLine e.command then (d, some (.error (.reading .invalidCommand)))
  else if e.ending = some .unwritten then (d, some (.error .io))
  else
    let answer := tor (d.asked ++ [e.command])
    let d := { d with asked := d.asked ++ [e.command] }
    if e.arrives.flatten = answer.bytes then (d, some (.ok answer.reply))
    else
      match e.ending with
      | some .unwritten | some .closed =>
        ({ d with ended := true }, some (.error (.reading .unexpectedEof)))
      | some .failed => ({ d with ended := true }, some (.error .io))
      | some .silent => ({ d with deaf := true }, some (.error .commandTimeout))
      | none => ({ d with dropped := true }, none)

/-- What Tor has to send during an exchange. -/
def due (tor : List Bytes → Answer) (d : Dialogue) (e : Exchange) : Bytes :=
  if d.ended ∨ breaksLine e.command ∨ e.ending = some .unwritten then []
  else (tor (d.asked ++ [e.command])).bytes

/-- Until a command times out or is dropped by its caller, Tor sends its answer to a command after
it got that, and nothing else. -/
structure Honest (tor : List Bytes → Answer) (d : Dialogue) (e : Exchange) : Prop where
  cut : Cut e.arrives
  due : d.deaf = false → d.dropped = false → e.arrives.flatten <+: d.due tor e

end Dialogue

/-- A client in a dialogue in which no command was dropped: all that came was used. -/
structure Attuned (c : ControlClient) (d : Dialogue) : Prop where
  dropped : d.dropped = false
  poisoned : c.poisoned = d.deaf
  max : d.deaf = false → c.reader.max = maxControlLineBytes
  pending : d.deaf = false → c.reader.pending = []
  unread : d.deaf = false → c.unread = []

theorem Attuned.initial : Attuned {} {} := ⟨rfl, rfl, fun _ => rfl, fun _ => rfl, fun _ => rfl⟩

section
variable {tor : List Bytes → Answer} {c : ControlClient} {d : Dialogue} {e : Exchange}
variable {es : List Exchange}

/-- A client whose next reads return the beginning of an answer, or all of it. -/
theorem Attuned.readReply (h : Attuned c d) (hdeaf : d.deaf = false) (answer : Answer)
    {reads : List Bytes} (hcut : Cut reads) (hbegins : reads.flatten <+: answer.bytes) :
    ∃ r', Tor.readReply {} c.reader (c.unread ++ reads) =
        (if reads.flatten = answer.bytes then .ok answer.reply else .error .unexpectedEof, r', []) ∧
      r'.max = maxControlLineBytes ∧ r'.pending = [] := by
  have hpending := h.pending hdeaf
  have hfresh : c.reader.Fresh := ⟨h.max hdeaf, by rw [hpending]; decide⟩
  have hstream : c.reader.pending ++ reads.flatten = reads.flatten := by rw [hpending]; rfl
  have hread := readReply_answer answer.lines answer.readable answer.commandLoop_lines hcut hfresh
    (hstream.symm ▸ hbegins)
  rw [h.unread hdeaf, List.nil_append]
  rwa [hstream] at hread

/-- Nothing comes when nothing is due. -/
theorem Dialogue.Honest.arrives_eq_nil (h : d.Honest tor e) (hdeaf : d.deaf = false)
    (hdropped : d.dropped = false) (hdue : d.due tor e = []) : e.arrives = [] := by
  have hnil := List.prefix_nil.mp (hdue ▸ h.due hdeaf hdropped)
  cases harrives : e.arrives with
  | nil => rfl
  | cons read reads =>
      rw [harrives] at hnil
      exact absurd (List.append_eq_nil_iff.mp hnil).1 (h.cut read (harrives ▸ .head _)).1

/-- Nothing happens to a dialogue that is not spoken in. -/
theorem Attuned.unspoken (h : Attuned c d) (hhonest : d.Honest tor e) (hdeaf : d.deaf = false)
    (hdue : d.due tor e = []) : Attuned { c with unread := c.unread ++ e.arrives } d := by
  rw [hhonest.arrives_eq_nil hdeaf h.dropped hdue, List.append_nil]
  exact h

/-- A client does what is meant, and after that it is in the dialogue unless the command was
dropped. -/
theorem attuned_simulates (tor : List Bytes → Answer) :
    Machine.Simulates ControlClient.exchange (Dialogue.exchange tor) (Dialogue.Honest tor)
      (· = none) Attuned := by
  suffices hboth : ∀ {c d e}, Attuned c d → Dialogue.Honest tor d e →
      (c.exchange e).2 = (d.exchange tor e).2 ∧
        ((c.exchange e).2 ≠ none → Attuned (c.exchange e).1 (d.exchange tor e).1) from
    ⟨fun h hhonest => (hboth h hhonest).1, fun h hhonest => (hboth h hhonest).2⟩
  intro c d e h hhonest
  rw [Dialogue.exchange]
  by_cases hdeaf : d.deaf = true
  · rw [if_pos hdeaf, ControlClient.exchange_poisoned (h.poisoned.trans hdeaf)]
    refine ⟨rfl, fun _ => ⟨h.dropped, h.poisoned, ?_, ?_, ?_⟩⟩ <;> simp [hdeaf]
  rw [if_neg hdeaf]
  rw [Bool.not_eq_true] at hdeaf
  have hready := h.poisoned.trans hdeaf
  by_cases hline : breaksLine e.command = true
  · rw [if_pos hline, ControlClient.exchange_breaksLine hready hline]
    exact ⟨rfl, fun _ => h.unspoken hhonest hdeaf (if_pos (.inr (.inl hline)))⟩
  rw [if_neg hline]
  by_cases hwritten : e.ending = some .unwritten
  · rw [if_pos hwritten,
      ControlClient.exchange_unwritten hready (Bool.not_eq_true _ ▸ hline) hwritten]
    exact ⟨rfl, fun _ => h.unspoken hhonest hdeaf (if_pos (.inr (.inr hwritten)))⟩
  rw [Bool.not_eq_true] at hline
  have hbegins : e.arrives.flatten <+: (tor (d.asked ++ [e.command])).bytes := by
    have hdue := hhonest.due hdeaf h.dropped
    rw [Dialogue.due] at hdue
    split at hdue
    · rw [List.prefix_nil.mp hdue]
      exact List.nil_prefix
    · exact hdue
  obtain ⟨r', hreply, hmax, hpending⟩ := h.readReply hdeaf _ hhonest.cut hbegins
  rw [if_neg hwritten, ControlClient.exchange_read hready hline hwritten hreply]
  dsimp only [ControlClient.conclude]
  by_cases hcomplete : e.arrives.flatten = (tor (d.asked ++ [e.command])).bytes
  · rw [if_pos hcomplete, if_pos hcomplete]
    exact ⟨rfl, fun _ => ⟨h.dropped, h.poisoned, fun _ => hmax, fun _ => hpending, fun _ => rfl⟩⟩
  rw [if_neg hcomplete, if_neg hcomplete]
  cases e.ending with
  | none => exact ⟨rfl, fun hkept => absurd rfl hkept⟩
  | some ending =>
      cases ending with
      | unwritten | closed | failed =>
          exact ⟨rfl, fun _ =>
            ⟨h.dropped, h.poisoned, fun _ => hmax, fun _ => hpending, fun _ => rfl⟩⟩
      | silent => exact ⟨rfl, fun _ => ⟨h.dropped, rfl, nofun, nofun, nofun⟩⟩

/-- What is put to Tor in a dialogue is what the client writes. -/
theorem Attuned.asked (h : Attuned c d) (tor : List Bytes → Answer) (e : Exchange) :
    (d.exchange tor e).1.asked =
      d.asked ++ if c.poisoned = false ∧ e.speaks then [e.command] else [] := by
  rw [Dialogue.exchange, h.poisoned]
  cases hdeaf : d.deaf with
  | true => simp
  | false =>
      cases hline : breaksLine e.command with
      | true => simp [hline, Exchange.speaks]
      | false =>
          by_cases hwritten : e.ending = some .unwritten
          · simp [hwritten, Exchange.speaks]
          · have hspeaks : e.speaks = true := by simp [hline, hwritten, Exchange.speaks]
            rw [if_neg Bool.false_ne_true, if_neg Bool.false_ne_true, if_neg hwritten, hspeaks,
              if_pos (And.intro rfl rfl)]
            dsimp only
            split
            · rfl
            · split <;> rfl

/-- As long as no command is dropped, what was put to Tor is what the client spoke. -/
theorem Attuned.asked_after (h : Attuned c d)
    (hoffered : Machine.Offered (Dialogue.exchange tor) (Dialogue.Honest tor) es d)
    (hkept : ∀ output ∈ Machine.outputs ControlClient.exchange es c, ¬ output = none) :
    (Machine.after (Dialogue.exchange tor) es d).asked = d.asked ++ spoken es c := by
  induction es generalizing c d with
  | nil => simp [Machine.after]
  | cons e es ih =>
      rw [Machine.outputs, List.forall_mem_cons] at hkept
      have hnext := (attuned_simulates tor).related h hoffered.1 hkept.1
      rw [Machine.after, ih hnext hoffered.2 hkept.2, h.asked tor e, spoken_cons,
        List.append_assoc]

/-! ### Sessions -/

/-- A command that gets a reply is put to Tor and gets what Tor answers to it. -/
theorem exchange_ok {d' : Dialogue} {reply : Reply}
    (h : d.exchange tor e = (d', some (.ok reply))) :
    reply = (tor (d.asked ++ [e.command])).reply ∧
      d' = { d with asked := d.asked ++ [e.command] } := by
  rw [Dialogue.exchange] at h
  split at h
  · cases h
  split at h
  · cases h
  split at h
  · cases h
  dsimp only at h
  split at h
  · cases h
    exact ⟨rfl, rfl⟩
  · split at h <;> cases h

/-- A command that is dropped before anything of its answer has come leaves that to the next one:
its reply is Tor's answer to the command before it. -/
theorem dropped_answer (h : Attuned c d) (hdeaf : d.deaf = false) {command next : Bytes}
    (hcommand : breaksLine command = false) (hnext : breaksLine next = false)
    {late : List Bytes} (hcut : Cut late)
    (hlate : late.flatten = (tor (d.asked ++ [command])).bytes)
    {ending : Option Ending} (hending : ending ≠ some .unwritten) :
    Machine.outputs ControlClient.exchange [⟨command, [], none⟩, ⟨next, late, ending⟩] c =
      [none, some (.ok (tor (d.asked ++ [command])).reply)] := by
  have hready := h.poisoned.trans hdeaf
  generalize tor (d.asked ++ [command]) = answer at hlate ⊢
  have hunfinished : ¬ ([] : List Bytes).flatten = answer.bytes := by
    simp [Answer.bytes, Answer.lines, WireReply.wire]
  have hnothing : Cut [] := List.forall_mem_nil _
  obtain ⟨r, hwaits, hmax, hpending⟩ := h.readReply hdeaf answer hnothing List.nil_prefix
  rw [if_neg hunfinished] at hwaits
  have hattuned : Attuned { c with
      reader := r
      unread := []
      written := c.written ++ command ++ [13, 10] } d :=
    ⟨h.dropped, h.poisoned, fun _ => hmax, fun _ => hpending, fun _ => rfl⟩
  obtain ⟨r', hreply, -⟩ := hattuned.readReply hdeaf answer hcut (hlate ▸ List.prefix_refl _)
  rw [if_pos hlate] at hreply
  rw [Machine.outputs, Machine.outputs, Machine.outputs,
    ControlClient.exchange_read (e := ⟨command, [], none⟩) hready hcommand
      (Option.some_ne_none _).symm hwaits]
  dsimp only [ControlClient.conclude]
  rw [ControlClient.exchange_read (c := { c with
    reader := r
    unread := []
    written := c.written ++ command ++ [13, 10] }) hready hnext hending hreply]
  rfl

end

/-- In a session with a Tor that answers what it is asked, however its answers are cut and whenever
they come or fail to: until a command is dropped by its caller, every command gets what it is meant
to get, so that a reply is what Tor answered to that very command; what was written is the commands
that were spoken, a line each; and after a timeout every command fails and nothing more is
spoken. -/
theorem control_session (tor : List Bytes → Answer) (exchanges : List Exchange)
    (h : Machine.Offered (Dialogue.exchange tor) (Dialogue.Honest tor) exchanges {}) :
    let c := Machine.after ControlClient.exchange exchanges {}
    (∀ before e later, exchanges = before ++ e :: later →
      none ∉ Machine.outputs ControlClient.exchange before {} →
      let output := ((Machine.after ControlClient.exchange before {}).exchange e).2
      output = ((Machine.after (Dialogue.exchange tor) before {}).exchange tor e).2 ∧
        ∀ reply, output = some (.ok reply) →
          reply = (tor (spoken before {} ++ [e.command])).reply) ∧
      c.written = unlines (spoken exchanges {}) ∧
      (c.poisoned = true → ∀ later,
        Machine.outputs ControlClient.exchange later c =
            later.map (fun _ => some (.error .desynchronized)) ∧
          spoken later c = []) := by
  refine ⟨?_, written_after exchanges {}, fun hpoisoned later =>
    ⟨outputs_poisoned hpoisoned later, spoken_poisoned hpoisoned later⟩⟩
  intro before e later heq hkept
  subst heq
  obtain ⟨hbefore, hhonest, -⟩ := Machine.offered_append.mp h
  have hkept : ∀ output ∈ Machine.outputs ControlClient.exchange before {}, ¬ output = none :=
    fun output hmem hnone => hkept (hnone ▸ hmem)
  obtain ⟨-, hattuned⟩ := (attuned_simulates tor).run before Attuned.initial hbefore hkept
  have houtput := (attuned_simulates tor).output hattuned hhonest
  refine ⟨houtput, fun reply hreply => ?_⟩
  rw [houtput] at hreply
  rw [(exchange_ok (Prod.ext rfl hreply)).1, Attuned.initial.asked_after hbefore hkept]
  rfl

/-- `250 OK`. -/
def okay : Answer where
  code := 250
  block := none
  continuations := []
  final := [79, 75]
  code_lt := by decide
  fits := ⟨by decide, by decide⟩
  readable := by
    have hlines : (sent 250 none []).wire [79, 75] = [Utf8.encode "250 OK".toList] := by decide
    rw [hlines]
    intro line hline
    rw [List.mem_singleton.mp hline]
    exact ⟨by decide, by decide, _, rfl⟩

/-- One answer comes in two reads, the next one only in part and too late. -/
def lateAnswer : List Exchange :=
  [⟨[65], [[50, 53], [48, 32, 79, 75, 13, 10]], some .silent⟩, ⟨[66], [[50, 53, 48]], some .silent⟩,
    ⟨[67], [[32, 79, 75, 13, 10]], some .silent⟩]

theorem lateAnswer_offered : Machine.Offered (Dialogue.exchange fun _ => okay)
    (Dialogue.Honest fun _ => okay) lateAnswer {} := by
  refine ⟨⟨?_, fun _ _ => ?_⟩, ⟨?_, fun _ _ => ?_⟩, ⟨?_, nofun⟩, trivial⟩
  · unfold Cut
    decide
  · decide
  · unfold Cut
    decide
  · decide
  · unfold Cut
    decide

theorem control_session_lateAnswer :
    Machine.outputs ControlClient.exchange lateAnswer {} =
        [some (.ok ⟨250, [[79, 75]]⟩), some (.error .commandTimeout),
          some (.error .desynchronized)] ∧
      (Machine.after ControlClient.exchange lateAnswer {}).written = [65, 13, 10, 66, 13, 10] := by
  obtain ⟨hmeant, hwritten, -⟩ := control_session (fun _ => okay) lateAnswer lateAnswer_offered
  obtain ⟨hfirst, -⟩ := hmeant [] _ _ rfl List.not_mem_nil
  obtain ⟨hsecond, -⟩ := hmeant [_] _ _ rfl (by decide +kernel)
  obtain ⟨hthird, -⟩ := hmeant [_, _] _ _ rfl (by decide +kernel)
  refine ⟨?_, hwritten.trans (by decide +kernel)⟩
  rw [lateAnswer, Machine.outputs, Machine.outputs, Machine.outputs, Machine.outputs]
  exact congrArg₂ List.cons (hfirst.trans (by decide +kernel))
    (congrArg₂ List.cons (hsecond.trans (by decide +kernel))
      (congrArg₂ List.cons (hthird.trans (by decide +kernel)) rfl))

end Tor
end Veilroom
