import Veilroom.Tor.Parser

/-!
Replies of the Tor control port, and that the loop of a command reads exactly one of them.
-/
namespace Veilroom
namespace Tor
open ReplyAccumulator (unstuff)

/-! ### Lines -/

def separator : LineKind → UInt8
  | .continuation => 45
  | .data => 43
  | .last => 32

/-- A line of a reply: three digits, the separator, and the data. -/
def controlLine (code : Nat) (kind : LineKind) (data : Bytes) : Bytes :=
  UInt8.ofNat (48 + code / 100) :: UInt8.ofNat (48 + code / 10 % 10) ::
    UInt8.ofNat (48 + code % 10) :: separator kind :: data

theorem lineKind_eq_some {byte : UInt8} {kind : LineKind} :
    lineKind byte = some kind ↔ byte = separator kind := by
  constructor
  · intro h
    unfold lineKind at h
    split at h
    · cases h
      assumption
    split at h
    · cases h
      assumption
    split at h
    · cases h
      assumption
    · cases h
  · rintro rfl
    cases kind <;> rfl

theorem isAsciiDigit_ofNat {n : Nat} (h : n < 10) : isAsciiDigit (UInt8.ofNat (48 + n)) = true := by
  unfold isAsciiDigit
  rw [Bool.and_eq_true, decide_eq_true_eq, decide_eq_true_eq, UInt8.le_iff_toNat_le,
    UInt8.le_iff_toNat_le, UInt8.toNat_ofNat_of_lt' (show 48 + n < 256 by omega)]
  change 48 ≤ 48 + n ∧ 48 + n ≤ 57
  omega

theorem ofNat_of_isAsciiDigit {byte : UInt8} (h : isAsciiDigit byte = true) :
    byte.toNat - 48 < 10 ∧ UInt8.ofNat (48 + (byte.toNat - 48)) = byte := by
  unfold isAsciiDigit at h
  rw [Bool.and_eq_true, decide_eq_true_eq, decide_eq_true_eq, UInt8.le_iff_toNat_le,
    UInt8.le_iff_toNat_le] at h
  obtain ⟨hlow, hhigh⟩ : 48 ≤ byte.toNat ∧ byte.toNat ≤ 57 := h
  refine ⟨by omega, ?_⟩
  rw [Nat.add_sub_cancel' hlow, UInt8.ofNat_toNat]

theorem parseControlLine_eq_some {line : Bytes} {code : Nat} {kind : LineKind} {data : Bytes} :
    parseControlLine line = some ⟨code, kind, data⟩ ↔
      code < 1000 ∧ line = controlLine code kind data := by
  constructor
  · intro h
    unfold parseControlLine at h
    split at h
    rotate_left
    · cases h
    rename_i hundreds tens ones byte data'
    split at h
    rotate_left
    · cases h
    rename_i hdigits
    rw [Bool.and_eq_true, Bool.and_eq_true] at hdigits
    obtain ⟨⟨hhundreds, htens⟩, hones⟩ := hdigits
    obtain ⟨hlt₂, heq₂⟩ := ofNat_of_isAsciiDigit hhundreds
    obtain ⟨hlt₁, heq₁⟩ := ofNat_of_isAsciiDigit htens
    obtain ⟨hlt₀, heq₀⟩ := ofNat_of_isAsciiDigit hones
    dsimp only at h
    split at h
    · cases h
    rename_i kind' hkind
    cases h
    refine ⟨by omega, ?_⟩
    rw [controlLine, ← lineKind_eq_some.mp hkind]
    rw [show ((hundreds.toNat - 48) * 100 + (tens.toNat - 48) * 10 + (ones.toNat - 48)) / 100 =
      hundreds.toNat - 48 by omega, show ((hundreds.toNat - 48) * 100 + (tens.toNat - 48) * 10 +
      (ones.toNat - 48)) / 10 % 10 = tens.toNat - 48 by omega, show ((hundreds.toNat - 48) * 100 +
      (tens.toNat - 48) * 10 + (ones.toNat - 48)) % 10 = ones.toNat - 48 by omega, heq₂, heq₁, heq₀]
  · rintro ⟨hlt, rfl⟩
    have hvalue : ∀ n < 10, (UInt8.ofNat (48 + n)).toNat - 48 = n := by
      intro n hn
      rw [UInt8.toNat_ofNat_of_lt' (show 48 + n < 256 by omega)]
      omega
    rw [controlLine, parseControlLine, isAsciiDigit_ofNat (by omega), isAsciiDigit_ofNat (by omega),
      isAsciiDigit_ofNat (by omega), lineKind_eq_some.mpr rfl]
    dsimp only
    rw [hvalue _ (by omega), hvalue _ (by omega), hvalue _ (by omega)]
    have hcode : code / 100 * 100 + code / 10 % 10 * 10 + code % 10 = code := by omega
    rw [hcode]
    rfl

/-- Dot-stuffing: a line that begins with a period gets another one. -/
def stuff : Bytes → Bytes
  | 46 :: rest => 46 :: 46 :: rest
  | line => line

theorem unstuff_stuff (line : Bytes) : unstuff (stuff line) = line := by
  unfold stuff
  split
  · rfl
  · rename_i hfirst
    unfold unstuff
    split
    · exact absurd rfl (hfirst _)
    · rfl

theorem stuff_ne_dot (line : Bytes) : stuff line ≠ [46] := by
  unfold stuff
  split
  · simp
  · rename_i hfirst
    intro hdot
    exact hfirst [] hdot

/-! ### Replies -/

/-- The lines of a data block, as they are on the wire: the opening line and the raw lines. -/
structure DataBlock where
  opening : Bytes
  raw : List Bytes

/-- A reply as it is on the wire. -/
structure WireReply where
  code : Nat
  block : Option DataBlock
  continuations : List Bytes

namespace WireReply

/-- The lines before the final one. -/
def begun (r : WireReply) : List Bytes :=
  (match r.block with
    | none => []
    | some block => controlLine r.code .data block.opening :: (block.raw ++ [[46]])) ++
    r.continuations.map (controlLine r.code .continuation)

def wire (r : WireReply) (final : Bytes) : List Bytes :=
  r.begun ++ [controlLine r.code .last final]

/-- The data of the lines before the final one. -/
def data (r : WireReply) : List Bytes :=
  (match r.block with
    | none => []
    | some block => block.opening :: block.raw.map unstuff) ++ r.continuations

def reply (r : WireReply) (final : Bytes) : Reply := ⟨r.code, r.data ++ [final]⟩

/-- Three digits, and no raw line closes its block. -/
structure WellFormed (r : WireReply) : Prop where
  code : r.code < 1000
  raw : ∀ block, r.block = some block → [46] ∉ block.raw

end WireReply

/-! ### Limits -/

/-- The limits of `push_line` on a whole reply. -/
structure Fits (lines : List Bytes) : Prop where
  count : lines.length ≤ ReplyAccumulator.maxReplyLines
  bytes : (lines.map List.length).sum ≤ ReplyAccumulator.maxReplyBytes

theorem Fits.of_append {lines more : List Bytes} (h : Fits (lines ++ more)) : Fits lines := by
  obtain ⟨hcount, hbytes⟩ := h
  rw [List.length_append] at hcount
  rw [List.map_append, List.sum_append] at hbytes
  exact ⟨by omega, by omega⟩

variable {s : ReplyAccumulator} {line : Bytes}

theorem pushLine_fits (h : Fits (s.lines ++ [line])) :
    s.pushLine line = .ok { s with lines := s.lines ++ [line] } := by
  obtain ⟨hcount, hbytes⟩ := h
  simp only [List.length_append, List.length_singleton, List.map_append, List.map_cons,
    List.map_nil, List.sum_append, List.sum_cons, List.sum_nil, Nat.add_zero] at hcount hbytes
  rw [ReplyAccumulator.pushLine, if_neg]
  omega

theorem pushLine_too_large (h : ¬ Fits (s.lines ++ [line])) :
    s.pushLine line = .error .replyTooLarge := by
  rw [ReplyAccumulator.pushLine, if_pos]
  by_contra hsmall
  apply h
  rw [not_or] at hsmall
  constructor
  · rw [List.length_append, List.length_singleton]
    omega
  · simp only [List.map_append, List.map_cons, List.map_nil, List.sum_append, List.sum_cons,
      List.sum_nil]
    omega

/-! ### The loop, line by line -/

abbrev Reads := List (Except ControlError Bytes)

/-- The loop ended with an error. -/
def Fails (result : Except ControlError Reply × Reads) : Prop := ∃ error, result.1 = .error error

variable {code : Nat} {lines : List Bytes} {reads : Reads}

theorem commandLoop_raw {raw : Bytes} (hraw : raw ≠ [46]) :
    commandLoop ⟨some code, lines, true⟩ (.ok raw :: reads) =
      match (⟨some code, lines, true⟩ : ReplyAccumulator).pushLine (unstuff raw) with
      | .error error => (.error (.parser error), reads)
      | .ok s => commandLoop s reads := by
  rw [commandLoop, if_pos rfl, ReplyAccumulator.feedDataLine, if_neg (by simp), if_neg hraw]
  cases (⟨some code, lines, true⟩ : ReplyAccumulator).pushLine (unstuff raw) with
  | error error => rfl
  | ok s => rfl

theorem commandLoop_dot :
    commandLoop ⟨some code, lines, true⟩ (.ok [46] :: reads) =
      commandLoop ⟨some code, lines, false⟩ reads := rfl

theorem commandLoop_line {text : Bytes} {line : ControlLine} (hs : s.inDataBlock = false)
    (hline : parseControlLine text = some line) :
    commandLoop s (.ok text :: reads) =
      match s.feed line with
      | .error error => (.error (.parser error), reads)
      | .ok (_, some reply) => (.ok reply, reads)
      | .ok (s, none) => commandLoop s reads := by
  rw [commandLoop, if_neg (by simp [hs])]
  split
  · rename_i hnone
    cases hline.symm.trans hnone
  · rename_i line' hsome
    cases hline.symm.trans hsome
    rfl

theorem commandLoop_malformed {text : Bytes} (hs : s.inDataBlock = false)
    (hline : parseControlLine text = none) : Fails (commandLoop s (.ok text :: reads)) := by
  rw [commandLoop, if_neg (by simp [hs]), hline]
  dsimp only
  split <;> exact ⟨_, rfl⟩

theorem feed_mismatch {line : ControlLine} {expected : Nat} (hs : s.code = some expected)
    (hcode : line.code ≠ expected) : s.feed line = .error (.codeMismatch expected line.code) := by
  rw [ReplyAccumulator.feed, hs, Option.filter_some, if_pos (by simpa using hcode.symm)]

theorem feed_continuation {data : Bytes} :
    (⟨some code, lines, false⟩ : ReplyAccumulator).feed ⟨code, .continuation, data⟩ =
      match (⟨some code, lines, false⟩ : ReplyAccumulator).pushLine data with
      | .error error => .error error
      | .ok s => .ok (s, none) := by
  unfold ReplyAccumulator.feed
  split
  · rename_i hmismatch
    obtain ⟨rfl, hne⟩ : code = _ ∧ ¬ _ = code := by simpa using hmismatch
    exact absurd rfl hne
  · rfl

theorem feed_data {data : Bytes} :
    (⟨some code, lines, false⟩ : ReplyAccumulator).feed ⟨code, .data, data⟩ =
      .error .unexpectedDataBlock := by
  rw [ReplyAccumulator.feed, Option.filter_some, if_neg (by simp)]

theorem feed_last {data : Bytes} :
    (⟨some code, lines, false⟩ : ReplyAccumulator).feed ⟨code, .last, data⟩ =
      match (⟨some code, lines, false⟩ : ReplyAccumulator).pushLine data with
      | .error error => .error error
      | .ok s => .ok ({}, some ⟨s.code.getD code, s.lines⟩) := by
  rw [ReplyAccumulator.feed, Option.filter_some, if_neg (by simp)]
  cases (⟨some code, lines, false⟩ : ReplyAccumulator).pushLine data <;> rfl

/-! ### What the loop reads -/

/-- The loop goes on as `target`, if what it holds fits. -/
structure Arrives (fits : Prop) (result target : Except ControlError Reply × Reads) : Prop where
  reached : fits → result = target
  fails : ¬ fits → Fails result

theorem Arrives.fails_of {fits : Prop} {result target : Except ControlError Reply × Reads}
    (h : Arrives fits result target) (htarget : Fails target) : Fails result := by
  by_cases hfits : fits
  · rw [h.reached hfits]
    exact htarget
  · exact h.fails hfits

theorem Arrives.refl {fits : Prop} (h : fits) (result : Except ControlError Reply × Reads) :
    Arrives fits result result :=
  ⟨fun _ => rfl, fun hnot => absurd h hnot⟩

/-- One more line before what the rest of the run arrives at. -/
theorem Arrives.push (s : ReplyAccumulator) (line : Bytes) {more : List Bytes} (left reads : Reads)
    {target : Except ControlError Reply × Reads}
    (hnext : Fits (s.lines ++ [line]) → Arrives (Fits (s.lines ++ [line] ++ more))
      (commandLoop { s with lines := s.lines ++ [line] } reads) target) :
    Arrives (Fits (s.lines ++ line :: more))
      (match s.pushLine line with
        | .error error => (.error (.parser error), left)
        | .ok s => commandLoop s reads) target := by
  rw [List.append_assoc, List.singleton_append] at hnext
  by_cases hfits : Fits (s.lines ++ [line])
  · rw [pushLine_fits hfits]
    exact hnext hfits
  · rw [pushLine_too_large hfits]
    constructor
    · intro hall
      rw [← List.singleton_append, ← List.append_assoc] at hall
      exact absurd hall.of_append hfits
    · intro _
      exact ⟨_, rfl⟩

theorem commandLoop_continuation (hcode : code < 1000) (data : Bytes) :
    commandLoop ⟨some code, lines, false⟩ (.ok (controlLine code .continuation data) :: reads) =
      match (⟨some code, lines, false⟩ : ReplyAccumulator).pushLine data with
      | .error error => (.error (.parser error), reads)
      | .ok s => commandLoop s reads := by
  rw [commandLoop_line rfl (parseControlLine_eq_some.mpr ⟨hcode, rfl⟩), feed_continuation]
  cases (⟨some code, lines, false⟩ : ReplyAccumulator).pushLine data <;> rfl

theorem continuations_arrive (hcode : code < 1000) (datas : List Bytes) {lines : List Bytes}
    (hlines : Fits lines) :
    Arrives (Fits (lines ++ datas))
      (commandLoop ⟨some code, lines, false⟩
        ((datas.map (controlLine code .continuation)).map .ok ++ reads))
      (commandLoop ⟨some code, lines ++ datas, false⟩ reads) := by
  induction datas generalizing lines with
  | nil =>
      rw [List.append_nil]
      exact .refl hlines _
  | cons data datas ih =>
      rw [List.map_cons, List.map_cons, List.cons_append, commandLoop_continuation hcode]
      apply Arrives.push ⟨some code, lines, false⟩ data
      intro hfits
      have hnext := ih hfits
      rwa [List.append_assoc, List.singleton_append] at hnext ⊢

theorem raw_arrive (raws : List Bytes) (hraws : [46] ∉ raws) {lines : List Bytes}
    (hlines : Fits lines) :
    Arrives (Fits (lines ++ raws.map unstuff))
      (commandLoop ⟨some code, lines, true⟩ (raws.map .ok ++ .ok [46] :: reads))
      (commandLoop ⟨some code, lines ++ raws.map unstuff, false⟩ reads) := by
  induction raws generalizing lines with
  | nil =>
      rw [List.map_nil, List.append_nil]
      exact .refl hlines _
  | cons raw raws ih =>
      rw [List.mem_cons, not_or] at hraws
      rw [List.map_cons, List.map_cons, List.cons_append, commandLoop_raw (Ne.symm hraws.1)]
      apply Arrives.push ⟨some code, lines, true⟩ (unstuff raw)
      intro hfits
      have hnext := ih hraws.2 hfits
      rwa [List.append_assoc, List.singleton_append] at hnext ⊢

theorem Arrives.trans {first more : List Bytes}
    {result middle target : Except ControlError Reply × Reads}
    (h : Arrives (Fits first) result middle)
    (hnext : Fits first → Arrives (Fits (first ++ more)) middle target) :
    Arrives (Fits (first ++ more)) result target := by
  by_cases hfits : Fits first
  · rw [h.reached hfits]
    exact hnext hfits
  · exact ⟨fun hall => absurd hall.of_append hfits, fun _ => h.fails hfits⟩

/-- The first line of a reply that goes on. -/
theorem commandLoop_begin (hcode : code < 1000) {kind : LineKind} (hkind : kind ≠ .last)
    (data : Bytes) :
    commandLoop {} (.ok (controlLine code kind data) :: reads) =
      match (⟨some code, [], kind = .data⟩ : ReplyAccumulator).pushLine data with
      | .error error => (.error (.parser error), reads)
      | .ok s => commandLoop s reads := by
  rw [commandLoop_line rfl (parseControlLine_eq_some.mpr ⟨hcode, rfl⟩)]
  cases kind with
  | last => exact absurd rfl hkind
  | continuation | data =>
      by_cases hfits : Fits [data]
      · have hpushed : ∀ block, (⟨some code, [], block⟩ : ReplyAccumulator).pushLine data =
            .ok ⟨some code, [data], block⟩ := fun _ => pushLine_fits hfits
        simp [ReplyAccumulator.feed, ReplyAccumulator.begin, hpushed]
      · have hpushed : ∀ block, (⟨some code, [], block⟩ : ReplyAccumulator).pushLine data =
            .error .replyTooLarge := fun _ => pushLine_too_large hfits
        simp [ReplyAccumulator.feed, ReplyAccumulator.begin, hpushed]

theorem begun_arrives {r : WireReply} (h : r.WellFormed) (hbegun : r.begun ≠ []) :
    Arrives (Fits r.data) (commandLoop {} (r.begun.map .ok ++ reads))
      (commandLoop ⟨some r.code, r.data, false⟩ reads) := by
  unfold WireReply.begun WireReply.data at *
  cases hblock : r.block with
  | none =>
      rw [hblock] at hbegun
      cases hdatas : r.continuations with
      | nil => simp [hdatas] at hbegun
      | cons data datas =>
          simp only [List.nil_append, List.map_cons, List.cons_append]
          rw [commandLoop_begin h.code (by decide)]
          apply Arrives.push ⟨some r.code, [], false⟩ data
          intro hfits
          exact continuations_arrive h.code datas hfits
  | some block =>
      simp only [List.map_cons, List.map_append, List.cons_append, List.append_assoc,
        List.nil_append]
      rw [commandLoop_begin h.code (by decide)]
      apply Arrives.push ⟨some r.code, [], true⟩ block.opening
      intro hopening
      rw [← List.append_assoc]
      exact (raw_arrive block.raw (h.raw block hblock) hopening).trans fun hfits =>
        continuations_arrive h.code r.continuations hfits

theorem commandLoop_last (hcode : code < 1000) {data : Bytes} (h : Fits (lines ++ [data])) :
    commandLoop ⟨some code, lines, false⟩ (.ok (controlLine code .last data) :: reads) =
      (.ok ⟨code, lines ++ [data]⟩, reads) := by
  have hpushed : (⟨some code, lines, false⟩ : ReplyAccumulator).pushLine data =
      .ok ⟨some code, lines ++ [data], false⟩ := pushLine_fits h
  rw [commandLoop_line rfl (parseControlLine_eq_some.mpr ⟨hcode, rfl⟩), feed_last, hpushed]
  rfl

theorem commandLoop_only (hcode : code < 1000) {data : Bytes} (h : Fits [data]) :
    commandLoop {} (.ok (controlLine code .last data) :: reads) = (.ok ⟨code, [data]⟩, reads) := by
  have hpushed : ({} : ReplyAccumulator).pushLine data = .ok ⟨none, [data], false⟩ :=
    pushLine_fits h
  rw [commandLoop_line rfl (parseControlLine_eq_some.mpr ⟨hcode, rfl⟩)]
  simp [ReplyAccumulator.feed, hpushed, ReplyAccumulator.takeReply]

/-- A whole reply is read, and nothing behind it. -/
theorem commandLoop_wire {r : WireReply} (h : r.WellFormed) {final : Bytes}
    (hfits : Fits (r.data ++ [final])) :
    commandLoop {} ((r.wire final).map .ok ++ reads) = (.ok (r.reply final), reads) := by
  rw [WireReply.wire, List.map_append, List.append_assoc]
  by_cases hbegun : r.begun = []
  · have hdata : r.data = [] := by
      unfold WireReply.begun WireReply.data at *
      cases hblock : r.block with
      | none =>
          rw [hblock, List.nil_append, List.map_eq_nil_iff] at hbegun
          rw [hbegun]
          rfl
      | some block => simp [hblock] at hbegun
    rw [hdata] at hfits
    rw [hbegun, WireReply.reply, hdata]
    exact commandLoop_only h.code hfits
  · rw [(begun_arrives h hbegun).reached hfits.of_append]
    exact commandLoop_last h.code hfits

/-- A line that cannot go on the reply ends the loop with an error. -/
theorem commandLoop_bad {r : WireReply} (h : r.WellFormed) {bad : Bytes}
    (hbad : parseControlLine bad = none ∨
      r.begun ≠ [] ∧ ∃ line, parseControlLine bad = some line ∧ line.code ≠ r.code) :
    Fails (commandLoop {} (r.begun.map .ok ++ .ok bad :: reads)) := by
  by_cases hbegun : r.begun = []
  · rw [hbegun]
    exact commandLoop_malformed rfl (hbad.resolve_right fun hmismatch => hmismatch.1 hbegun)
  · apply (begun_arrives h hbegun).fails_of
    obtain hbad | ⟨-, line, hline, hcode⟩ := hbad
    · exact commandLoop_malformed rfl hbad
    · rw [commandLoop_line rfl hline, feed_mismatch rfl hcode]
      exact ⟨_, rfl⟩

/-! ### Only replies are returned -/

theorem ok_of_pushLine {next : ReplyAccumulator → Except ControlError Reply × Reads}
    {reply : Reply} {left : Reads}
    (h : (match s.pushLine line with
      | .error error => (.error (.parser error), left)
      | .ok s => next s) = (.ok reply, reads)) :
    next { s with lines := s.lines ++ [line] } = (.ok reply, reads) := by
  by_cases hfits : Fits (s.lines ++ [line])
  · rwa [pushLine_fits hfits] at h
  · rw [pushLine_too_large hfits] at h
    cases h

theorem not_ok_of_fails {result : Except ControlError Reply × Reads} (h : Fails result)
    {reply : Reply} : result ≠ (.ok reply, reads) := by
  rintro rfl
  obtain ⟨error, herror⟩ := h
  cases herror

theorem settled_reply {reply : Reply} {rest : Reads}
    (h : commandLoop ⟨some code, lines, false⟩ reads = (.ok reply, rest)) :
    ∃ datas final, code < 1000 ∧ reads = (datas.map (controlLine code .continuation) ++
        [controlLine code .last final]).map .ok ++ rest ∧
      reply = ⟨code, lines ++ datas ++ [final]⟩ := by
  induction reads generalizing lines with
  | nil => cases h
  | cons read reads ih =>
      cases read with
      | error error => cases h
      | ok text =>
          cases hline : parseControlLine text with
          | none => exact absurd h (not_ok_of_fails (commandLoop_malformed rfl hline))
          | some line =>
              obtain ⟨found, kind, data⟩ := line
              obtain ⟨hlt, rfl⟩ := parseControlLine_eq_some.mp hline
              by_cases hcode : found = code
              · subst hcode
                cases kind with
                | continuation =>
                    rw [commandLoop_continuation hlt] at h
                    obtain ⟨datas, final, -, rfl, rfl⟩ := ih (ok_of_pushLine h)
                    exact ⟨data :: datas, final, hlt, rfl, by simp⟩
                | data =>
                    rw [commandLoop_line rfl hline, feed_data] at h
                    cases h
                | last =>
                    by_cases hfits : Fits (lines ++ [data])
                    · rw [commandLoop_last hlt hfits] at h
                      cases h
                      exact ⟨[], data, hlt, rfl, by simp⟩
                    · have hpushed : (⟨some found, lines, false⟩ : ReplyAccumulator).pushLine data =
                          .error .replyTooLarge := pushLine_too_large hfits
                      rw [commandLoop_line rfl hline, feed_last, hpushed] at h
                      cases h
              · rw [commandLoop_line rfl hline, feed_mismatch rfl hcode] at h
                cases h

theorem block_reply {reply : Reply} {rest : Reads}
    (h : commandLoop ⟨some code, lines, true⟩ reads = (.ok reply, rest)) :
    ∃ raws datas final, code < 1000 ∧ [46] ∉ raws ∧
      reads = (raws ++ [46] :: (datas.map (controlLine code .continuation) ++
        [controlLine code .last final])).map .ok ++ rest ∧
      reply = ⟨code, lines ++ raws.map unstuff ++ datas ++ [final]⟩ := by
  induction reads generalizing lines with
  | nil => cases h
  | cons read reads ih =>
      cases read with
      | error error => cases h
      | ok raw =>
          by_cases hdot : raw = [46]
          · subst hdot
            rw [commandLoop_dot] at h
            obtain ⟨datas, final, hlt, rfl, rfl⟩ := settled_reply h
            exact ⟨[], datas, final, hlt, List.not_mem_nil, rfl, by simp⟩
          · rw [commandLoop_raw hdot] at h
            obtain ⟨raws, datas, final, hlt, hraws, rfl, rfl⟩ := ih (ok_of_pushLine h)
            refine ⟨raw :: raws, datas, final, hlt, ?_, rfl, by simp⟩
            rw [List.mem_cons, not_or]
            exact ⟨Ne.symm hdot, hraws⟩

/-- What the loop returns is the reply it read. -/
theorem commandLoop_reply {reply : Reply} {rest : Reads}
    (h : commandLoop {} reads = (.ok reply, rest)) :
    ∃ r : WireReply, ∃ final, r.WellFormed ∧ reads = (r.wire final).map .ok ++ rest ∧
      reply = r.reply final := by
  cases reads with
  | nil => cases h
  | cons read reads =>
      cases read with
      | error error => cases h
      | ok text =>
          cases hline : parseControlLine text with
          | none => exact absurd h (not_ok_of_fails (commandLoop_malformed rfl hline))
          | some line =>
              obtain ⟨code, kind, data⟩ := line
              obtain ⟨hlt, rfl⟩ := parseControlLine_eq_some.mp hline
              cases kind with
              | continuation =>
                  rw [commandLoop_begin hlt (by decide)] at h
                  obtain ⟨datas, final, -, rfl, rfl⟩ := settled_reply (ok_of_pushLine h)
                  exact ⟨⟨code, none, data :: datas⟩, final, ⟨hlt, nofun⟩, rfl, rfl⟩
              | data =>
                  rw [commandLoop_begin hlt (by decide)] at h
                  obtain ⟨raws, datas, final, -, hraws, rfl, rfl⟩ :=
                    block_reply (ok_of_pushLine h)
                  refine ⟨⟨code, some ⟨data, raws⟩, datas⟩, final, ⟨hlt, ?_⟩, ?_, ?_⟩
                  · rintro _ ⟨⟩
                    exact hraws
                  · simp [WireReply.wire, WireReply.begun]
                  · simp [WireReply.reply, WireReply.data]
              | last =>
                  by_cases hfits : Fits [data]
                  · rw [commandLoop_only hlt hfits] at h
                    cases h
                    exact ⟨⟨code, none, []⟩, data, ⟨hlt, nofun⟩, rfl, rfl⟩
                  · have hpushed : ({} : ReplyAccumulator).pushLine data = .error .replyTooLarge :=
                      pushLine_too_large hfits
                    rw [commandLoop_line rfl hline] at h
                    simp [ReplyAccumulator.feed, hpushed] at h

/-! ### Replies of Tor -/

/-- The data of a data block: its opening line and its lines. -/
abbrev Block := Bytes × List Bytes

/-- A reply as Tor sends it, the lines of its data block dot-stuffed. -/
def sent (code : Nat) (block : Option Block) (continuations : List Bytes) : WireReply where
  code
  block := block.map fun block => ⟨block.1, block.2.map stuff⟩
  continuations

/-- The data of a reply, line by line. -/
def contents (block : Option Block) (continuations : List Bytes) (final : Bytes) : List Bytes :=
  (block.elim [] fun block => block.1 :: block.2) ++ continuations ++ [final]

theorem sent_wellFormed (block : Option Block) (continuations : List Bytes) (hcode : code < 1000) :
    (sent code block continuations).WellFormed := by
  refine ⟨hcode, ?_⟩
  intro wired hwired hmem
  obtain ⟨block', -, rfl⟩ := Option.map_eq_some_iff.mp hwired
  obtain ⟨data, -, hdot⟩ := List.mem_map.mp hmem
  exact stuff_ne_dot data hdot

theorem data_sent (block : Option Block) (continuations : List Bytes) (final : Bytes) :
    (sent code block continuations).data ++ [final] = contents block continuations final := by
  have hback : unstuff ∘ stuff = id := funext unstuff_stuff
  cases block with
  | none => rfl
  | some block => simp [sent, WireReply.data, contents, hback]

/-- The loop of a command reads a whole reply within the limits, returns its code and its data
in order, and leaves the rest for the next command. A line that is malformed, or has another code
than the reply it stands in, ends it with an error. It returns nothing but what it read as one
reply. -/
theorem control_reply_assembly :
    (∀ code block continuations final rest, code < 1000 →
      Fits (contents block continuations final) →
      commandLoop {} (((sent code block continuations).wire final).map .ok ++ rest) =
        (.ok ⟨code, contents block continuations final⟩, rest)) ∧
    (∀ r : WireReply, r.WellFormed → ∀ bad rest,
      (parseControlLine bad = none ∨
        r.begun ≠ [] ∧ ∃ line, parseControlLine bad = some line ∧ line.code ≠ r.code) →
      ∃ error, (commandLoop {} (r.begun.map .ok ++ .ok bad :: rest)).1 = .error error) ∧
    ∀ reads reply rest, commandLoop {} reads = (.ok reply, rest) →
      ∃ r : WireReply, ∃ final, r.WellFormed ∧ reads = (r.wire final).map .ok ++ rest ∧
        reply = r.reply final := by
  refine ⟨?_, ?_, ?_⟩
  · intro code block continuations final rest hcode hfits
    rw [← data_sent] at hfits ⊢
    exact commandLoop_wire (sent_wellFormed block continuations hcode) hfits
  · intro r h bad rest hbad
    exact commandLoop_bad h hbad
  · intro reads reply rest h
    exact commandLoop_reply h

/-- A block with a line that begins with a period, and a line of the next reply behind it. -/
theorem control_reply_assembly_block :
    commandLoop {} ([.ok [50, 53, 48, 43, 97], .ok [46, 46, 98], .ok [46], .ok [50, 53, 48, 32, 99],
        .ok [53, 49, 48, 32]]) =
      (.ok ⟨250, [[97], [46, 98], [99]]⟩, [.ok [53, 49, 48, 32]]) := by
  have hfits : Fits (contents (some ([97], [[46, 98]])) [] [99]) := ⟨by decide, by decide⟩
  exact control_reply_assembly.1 250 (some ([97], [[46, 98]])) [] [99] [.ok [53, 49, 48, 32]]
    (by decide) hfits

end Tor

end Veilroom
