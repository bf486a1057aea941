import Veilroom.Tor.Parser

/-!
The line reader on a stream cut into reads of any size: what it returns is told by the stream
alone.
-/
namespace Veilroom
namespace Tor

/-- What a line reads as: without one carriage return at its end, if it is UTF-8. -/
def finished (line : Bytes) : Except ControlError Bytes :=
  match String.fromUTF8? ⟨line.toArray⟩ with
  | none => .error (.parser .malformedLine)
  | some _ => .ok ((Split.stripSuffix [13] line).getD line)

/-- What successive calls of `next_line` return for a stream with these segments between its
newlines, up to the first error or the end. The last segment is what stands behind the last
newline. -/
def expected (max : Nat) : List Bytes → List (Except ControlError (Option Bytes))
  | [] => []
  | [tail] =>
    if tail = [] then [.ok none]
    else if max < tail.length then [.error (.lineTooLong max)]
    else [.error .unexpectedEof]
  | line :: rest =>
    if max < line.length then [.error (.lineTooLong max)]
    else
      match finished line with
      | .error error => [.error error]
      | .ok text => .ok (some text) :: expected max rest

/-- The results of at most `calls` calls of `next_line`, up to the first error or the end. -/
def nextLines : Nat → LineReader → List Bytes → List (Except ControlError (Option Bytes))
  | 0, _, _ => []
  | calls + 1, r, reads =>
    match r.nextLine reads with
    | (.ok (some text), r, reads) => .ok (some text) :: nextLines calls r reads
    | (result, _, _) => [result]

/-- The reader and what it has not read yet, after some calls of `next_line`. -/
def afterLines : Nat → LineReader → List Bytes → LineReader × List Bytes
  | 0, r, reads => (r, reads)
  | calls + 1, r, reads => afterLines calls (r.nextLine reads).2.1 (r.nextLine reads).2.2

/-! ### One call -/

/-- Every read returns something, and at most what its buffer takes. -/
def Cut (reads : List Bytes) : Prop := ∀ read ∈ reads, read ≠ [] ∧ read.length ≤ 512

/-- What a call may return for a stream, and where it leaves the reader. -/
inductive Served (max : Nat) :
    Bytes → Except ControlError (Option Bytes) × LineReader × List Bytes → Prop
  | line {line rest r reads} : 10 ∉ line → line.length ≤ max → r.max = max →
      r.pending.length < 512 → Cut reads → r.pending ++ reads.flatten = rest →
      Served max (line ++ 10 :: rest) ((finished line).map some, r, reads)
  | tooLong {front more r reads} : 10 ∉ front → max < front.length →
      Served max (front ++ more) (.error (.lineTooLong max), r, reads)
  | ended {r reads} : Served max [] (.ok none, r, reads)
  | inside {tail r reads} : 10 ∉ tail → tail ≠ [] → tail.length ≤ max →
      Served max tail (.error .unexpectedEof, r, reads)

theorem fill_served {buf : Bytes} {max : Nat} {reads : List Bytes} (hcut : Cut reads)
    (hbuf : 10 ∉ buf) (hmax : buf.length ≤ max) :
    Served max (buf ++ reads.flatten) ((⟨[], buf, max⟩ : LineReader).fill reads) := by
  induction reads generalizing buf with
  | nil =>
      rw [List.flatten_nil, List.append_nil, LineReader.fill]
      split
      · rename_i hempty
        dsimp only at hempty
        subst hempty
        exact .ended
      · rename_i hnonempty
        exact .inside hbuf hnonempty hmax
  | cons read reads ih =>
      obtain ⟨hread, hrest⟩ := List.forall_mem_cons.mp hcut
      rw [LineReader.fill, if_neg hread.1, List.flatten_cons]
      cases honce : Split.once [10] read with
      | some parts =>
          obtain ⟨before, after⟩ := parts
          obtain ⟨rfl, hbefore⟩ := Split.once_singleton.mp honce
          have hline : 10 ∉ buf ++ before := by
            rw [List.mem_append, not_or]
            exact ⟨hbuf, hbefore⟩
          have hstream : buf ++ (before ++ 10 :: after ++ reads.flatten) =
              (buf ++ before) ++ 10 :: (after ++ reads.flatten) := by simp
          dsimp only
          rw [hstream]
          split
          · rename_i hlong
            exact .tooLong hline hlong
          · rename_i hshort
            refine .line hline (not_lt.mp hshort) rfl ?_ hrest rfl
            have hlength := hread.2
            rw [List.length_append, List.length_cons] at hlength
            change after.length < 512
            omega
      | none =>
          have hfresh := Split.once_singleton_none.mp honce
          have hbuf' : 10 ∉ buf ++ read := by
            rw [List.mem_append, not_or]
            exact ⟨hbuf, hfresh⟩
          dsimp only
          rw [← List.append_assoc]
          split
          · rename_i hlong
            exact .tooLong hbuf' hlong
          · rename_i hshort
            exact ih hrest hbuf' (not_lt.mp hshort)

theorem nextLine_served {r : LineReader} {reads : List Bytes} (hcut : Cut reads)
    (hmax : 512 ≤ r.max) (hpending : r.pending.length < 512) :
    Served r.max (r.pending ++ reads.flatten) (r.nextLine reads) := by
  unfold LineReader.nextLine
  cases honce : Split.once [10] r.pending with
  | some parts =>
      obtain ⟨line, after⟩ := parts
      obtain ⟨hsplit, hline⟩ := Split.once_singleton.mp honce
      rw [hsplit, List.length_append, List.length_cons] at hpending
      rw [hsplit, List.append_assoc, List.cons_append]
      -- what is buffered already is shorter than any limit
      exact .line hline (by omega) rfl (show after.length < 512 by omega) hcut rfl
  | none =>
      exact fill_served hcut (Split.once_singleton_none.mp honce) (by omega)

/-! ### All calls -/

theorem splitOn_line {line : Bytes} (h : 10 ∉ line) (rest : Bytes) :
    (line ++ 10 :: rest).splitOn 10 = line :: rest.splitOn 10 :=
  List.splitOn_append_cons_self_of_not_mem h rest

theorem expected_line {max : Nat} {line rest : Bytes} (hline : 10 ∉ line)
    (hmax : line.length ≤ max) :
    expected max ((line ++ 10 :: rest).splitOn 10) =
      match finished line with
      | .error error => [.error error]
      | .ok text => .ok (some text) :: expected max (rest.splitOn 10) := by
  rw [splitOn_line hline]
  cases hsegments : rest.splitOn 10 with
  | nil => exact absurd hsegments (List.splitOn_ne_nil 10 rest)
  | cons segment segments =>
      rw [expected, if_neg (not_lt.mpr hmax)]
      exact List.cons_ne_nil segment segments

theorem expected_tooLong {max : Nat} {front more : Bytes} (hfront : 10 ∉ front)
    (hmax : max < front.length) :
    expected max ((front ++ more).splitOn 10) = [.error (.lineTooLong max)] := by
  by_cases hmore : 10 ∈ more
  · obtain ⟨before, after, rfl, hbefore⟩ := List.eq_append_cons_of_mem hmore
    have hline : 10 ∉ front ++ before := by
      rw [List.mem_append, not_or]
      exact ⟨hfront, hbefore⟩
    have hlong : max < (front ++ before).length := by
      rw [List.length_append]
      omega
    rw [← List.append_assoc, splitOn_line hline]
    cases hsegments : after.splitOn 10 with
    | nil => exact absurd hsegments (List.splitOn_ne_nil 10 after)
    | cons segment segments =>
        rw [expected, if_pos hlong]
        exact List.cons_ne_nil segment segments
  · have hline : 10 ∉ front ++ more := by
      rw [List.mem_append, not_or]
      exact ⟨hfront, hmore⟩
    have hlong : max < (front ++ more).length := by
      rw [List.length_append]
      omega
    have hnonempty : front ++ more ≠ [] := List.ne_nil_of_length_pos (Nat.zero_lt_of_lt hlong)
    rw [List.splitOn_eq_singleton hline, expected, if_neg hnonempty, if_pos hlong]

theorem nextLines_eq (calls : Nat) {r : LineReader} {reads : List Bytes} (hcut : Cut reads)
    (hmax : 512 ≤ r.max) (hpending : r.pending.length < 512) :
    nextLines calls r reads =
      (expected r.max ((r.pending ++ reads.flatten).splitOn 10)).take calls := by
  induction calls generalizing r reads with
  | zero => rfl
  | succ calls ih =>
      have hserved := nextLine_served hcut hmax hpending
      rw [nextLines]
      generalize r.pending ++ reads.flatten = stream at hserved
      generalize r.nextLine reads = out at hserved
      generalize hlimit : r.max = max at *
      cases hserved with
      | @line line rest r' reads' hline hshort hsame hpending' hcut' hrest =>
          rw [expected_line hline hshort]
          cases finished line with
          | error error => simp [Except.map]
          | ok text =>
              have hnext := ih hcut' (hsame.symm ▸ hmax) hpending'
              rw [hrest, hsame] at hnext
              simp [Except.map, hnext]
      | tooLong hfront hlong =>
          rw [expected_tooLong hfront hlong]
          simp
      | ended => simp [expected]
      | inside hfresh hnonempty hshort =>
          rw [List.splitOn_eq_singleton hfresh, expected, if_neg hnonempty,
            if_neg (not_lt.mpr hshort)]
          simp

/-- As long as the calls return lines, the stream is their lines and what is left of it. -/
theorem afterLines_stream (calls : Nat) {r : LineReader} {reads : List Bytes} (hcut : Cut reads)
    (hmax : 512 ≤ r.max) (hpending : r.pending.length < 512)
    (hlines : ∀ result ∈ nextLines calls r reads, ∃ text, result = .ok (some text)) :
    r.pending ++ reads.flatten =
      (((r.pending ++ reads.flatten).splitOn 10).take calls).flatMap (· ++ [10]) ++
        ((afterLines calls r reads).1.pending ++ (afterLines calls r reads).2.flatten) := by
  induction calls generalizing r reads with
  | zero => simp [afterLines]
  | succ calls ih =>
      have hserved := nextLine_served hcut hmax hpending
      rw [nextLines] at hlines
      rw [afterLines]
      generalize r.pending ++ reads.flatten = stream at hserved
      generalize r.nextLine reads = out at hserved hlines
      generalize hlimit : r.max = max at *
      cases hserved with
      | @line line rest r' reads' hline hshort hsame hpending' hcut' hrest =>
          rw [splitOn_line hline, List.take_succ_cons, List.flatMap_cons]
          cases hfinished : finished line with
          | error error =>
              rw [hfinished] at hlines
              obtain ⟨text, htext⟩ := hlines _ (.head _)
              cases htext
          | ok text =>
              rw [hfinished] at hlines
              have hnext := ih hcut' (hsame.symm ▸ hmax) hpending'
                fun result hresult => hlines result (.tail _ hresult)
              rw [hrest] at hnext
              dsimp only
              rw [List.append_assoc, ← hnext, List.append_assoc, List.singleton_append]
      | tooLong hfront hlong =>
          obtain ⟨text, htext⟩ := hlines _ (.head _)
          cases htext
      | ended =>
          obtain ⟨text, htext⟩ := hlines _ (.head _)
          cases htext
      | inside hfresh hnonempty hshort =>
          obtain ⟨text, htext⟩ := hlines _ (.head _)
          cases htext

/-! ### A fresh reader -/

/-- Like `expected`, but without a limit for what stands behind the last newline. -/
def expectedUnlimitedTail (max : Nat) : List Bytes → List (Except ControlError (Option Bytes))
  | [] => []
  | [tail] => if tail = [] then [.ok none] else [.error .unexpectedEof]
  | line :: rest =>
    if max < line.length then [.error (.lineTooLong max)]
    else
      match finished line with
      | .error error => [.error error]
      | .ok text => .ok (some text) :: expectedUnlimitedTail max rest

/-- The limit holds inside a line that never ends as well. -/
theorem unterminated_line_too_long :
    ¬ ∀ max reads, 512 ≤ max → Cut reads → ∀ calls, nextLines calls { max } reads =
      (expectedUnlimitedTail max (reads.flatten.splitOn 10)).take calls := by
  intro h
  have hcut : Cut [List.replicate 512 97, [97]] := by
    unfold Cut
    decide +kernel
  exact absurd (h 512 _ (by decide) hcut 1) (by decide +kernel)

/-- What a fresh reader returns is told by the stream and the limit, however the stream is cut,
and as long as it returns lines no byte is lost or read twice. -/
theorem line_reader_cut {max : Nat} {reads : List Bytes} (hmax : 512 ≤ max) (hcut : Cut reads)
    (calls : Nat) :
    nextLines calls { max } reads = (expected max (reads.flatten.splitOn 10)).take calls ∧
      ((∀ result ∈ nextLines calls { max } reads, ∃ text, result = .ok (some text)) →
        reads.flatten = ((reads.flatten.splitOn 10).take calls).flatMap (· ++ [10]) ++
          ((afterLines calls { max } reads).1.pending ++
            (afterLines calls { max } reads).2.flatten)) := by
  have hfresh : ({ max } : LineReader).pending.length < 512 := Nat.succ_pos 511
  constructor
  · exact nextLines_eq calls hcut hmax hfresh
  · intro hlines
    exact afterLines_stream calls hcut hmax hfresh hlines

/-- Two lines, the first with a carriage return, cut inside each; then a part of a third. -/
theorem line_reader_cut_lines :
    nextLines 3 { max := 512 } [[97], [13, 10, 98], [10, 99]] =
        [.ok (some [97]), .ok (some [98]), .error .unexpectedEof] ∧
      [97, 13, 10, 98, 10, 99] = [97, 13, 10] ++ [98, 10] ++
        ((afterLines 2 { max := 512 } [[97], [13, 10, 98], [10, 99]]).1.pending ++
          (afterLines 2 { max := 512 } [[97], [13, 10, 98], [10, 99]]).2.flatten) := by
  have hcut : Cut [[97], [13, 10, 98], [10, 99]] := by
    unfold Cut
    decide
  constructor
  · rw [(line_reader_cut (le_refl 512) hcut 3).1]
    decide +kernel
  · apply (line_reader_cut (le_refl 512) hcut 2).2
    have hlines : nextLines 2 { max := 512 } [[97], [13, 10, 98], [10, 99]] =
        [.ok (some [97]), .ok (some [98])] := by decide +kernel
    rw [hlines]
    simp

end Tor

end Veilroom
