import Veilroom.Library.Filling
import Veilroom.Library.Utf8

/-!
Fitting text into cells (`ui/render.rs`): how the message lines are wrapped, plain and in styled
segments, and which part of the input line is shown.
-/
namespace Veilroom

/-- The cells that the `unicode-width` crate gives a character, and a string as a whole. -/
structure UnicodeWidth where
  char : Char → Option Nat
  str : List Char → Nat

/-- A character without a width takes no cell. -/
def UnicodeWidth.cells (widths : UnicodeWidth) (ch : Char) : Nat := (widths.char ch).getD 0

/-! ### Wrapping -/

/-- The state of the loop in `wrap_for_display`. -/
structure Chunking where
  chunks : List (List Char)
  current : List Char
  used : Nat

/-- The loop of `wrap_for_display` on one character. -/
def Chunking.push (widths : UnicodeWidth) (width : Nat) (state : Chunking) (ch : Char) : Chunking :=
  let state :=
    if state.used + widths.cells ch > width then
      { chunks := state.chunks ++ [state.current], current := [], used := 0 }
    else state
  { state with current := state.current ++ [ch], used := state.used + widths.cells ch }

/-- `wrap_for_display`. -/
def wrapForDisplay (widths : UnicodeWidth) (text : List Char) (width : Nat) : List (List Char) :=
  if width ≤ 1 ∨ text = [] then [text]
  else
    let state := text.foldl (Chunking.push widths width) ⟨[], [], 0⟩
    if state.current = [] then state.chunks else state.chunks ++ [state.current]

section
variable {σ : Type}

/-- A span of text in one style. -/
structure Span (σ : Type) where
  content : List Char
  style : σ
deriving DecidableEq

/-- The state of the loops in `wrap_segments`. -/
structure Wrapping (σ : Type) where
  lines : List (List (Span σ))
  current : List (Span σ)
  pending : List Char
  pendingStyle : σ
  used : Nat

namespace Wrapping

/-- The pending run becomes a span. -/
def flush (state : Wrapping σ) : Wrapping σ :=
  if state.pending = [] then state
  else
    { state with
      current := state.current ++ [⟨state.pending, state.pendingStyle⟩]
      pending := [] }

/-- The current spans become a line. -/
def endLine (state : Wrapping σ) : Wrapping σ :=
  if state.current = [] then state
  else { state with lines := state.lines ++ [state.current], current := [] }

/-- A style boundary closes the pending run. -/
def restyle [DecidableEq σ] (state : Wrapping σ) (style : σ) : Wrapping σ :=
  if style ≠ state.pendingStyle then { state.flush with pendingStyle := style } else state

/-- A character that does not fit ends the line. -/
def makeRoom (widths : UnicodeWidth) (width : Nat) (state : Wrapping σ) (ch : Char) : Wrapping σ :=
  if width > 1 ∧ state.used + widths.cells ch > width then { state.flush.endLine with used := 0 }
  else state

/-- The inner loop of `wrap_segments` on one character. -/
def push [DecidableEq σ] (widths : UnicodeWidth) (width : Nat) (style : σ) (state : Wrapping σ)
    (ch : Char) : Wrapping σ :=
  let state := (state.restyle style).makeRoom widths width ch
  { state with pending := state.pending ++ [ch], used := state.used + widths.cells ch }

end Wrapping

/-- `wrap_segments`. -/
def wrapSegments [DecidableEq σ] [Inhabited σ] (widths : UnicodeWidth)
    (segments : List (List Char × σ)) (width : Nat) : List (List (Span σ)) :=
  let state := segments.foldl
    (fun state (text, style) => text.foldl (Wrapping.push widths width style) state)
    ⟨[], [], [], default, 0⟩
  state.flush.endLine.lines

/-! ### The characters with their styles -/

/-- The characters of a span, each in its style. -/
def Span.styled (span : Span σ) : List (Char × σ) := span.content.map (·, span.style)

def lineStyled (line : List (Span σ)) : List (Char × σ) := line.flatMap Span.styled

def lineText (line : List (Span σ)) : List Char := line.flatMap Span.content

/-- The characters of segments, each in the style of its own segment. -/
def segmentsStyled (segments : List (List Char × σ)) : List (Char × σ) :=
  segments.flatMap fun (text, style) => text.map (·, style)

theorem map_fst_lineStyled (line : List (Span σ)) :
    (lineStyled line).map Prod.fst = lineText line := by
  induction line with
  | nil => rfl
  | cons span line ih =>
      have hspan : span.styled.map Prod.fst = span.content := by
        rw [Span.styled, List.map_map]
        exact List.map_id _
      rw [lineStyled, lineText, List.flatMap_cons, List.flatMap_cons, List.map_append, hspan]
      exact congrArg _ ih

namespace Wrapping

/-- The characters of the line that is not ended yet. -/
def openLine (state : Wrapping σ) : List (Char × σ) :=
  lineStyled state.current ++ state.pending.map (·, state.pendingStyle)

variable {widths : UnicodeWidth} {width : Nat} (state : Wrapping σ)

@[simp] theorem lines_flush : state.flush.lines = state.lines := by
  unfold flush
  split <;> rfl

@[simp] theorem used_flush : state.flush.used = state.used := by
  unfold flush
  split <;> rfl

@[simp] theorem pending_flush : state.flush.pending = [] := by
  unfold flush
  split
  · assumption
  · rfl

theorem pendingStyle_flush : state.flush.pendingStyle = state.pendingStyle := by
  unfold flush
  split <;> rfl

@[simp] theorem lineStyled_flush : lineStyled state.flush.current = state.openLine := by
  unfold flush openLine
  split
  · rename_i hpending
    simp [hpending]
  · simp [lineStyled, Span.styled]

theorem endLine_of_nonempty (h : state.current ≠ []) :
    state.endLine = { state with lines := state.lines ++ [state.current], current := [] } :=
  if_neg h

/-- What is known of the loops of `wrap_segments` after some characters. -/
structure Wraps (widths : UnicodeWidth) (width : Nat) (items : List (Char × σ))
    (state : Wrapping σ) : Prop where
  filling : Fill.Filling (widths.cells ∘ Prod.fst) width items (state.lines.map lineStyled)
    state.openLine
  used : state.used = Fill.total (widths.cells ∘ Prod.fst) state.openLine

variable {state} {items : List (Char × σ)}

/-- The state with one more character pending. -/
theorem openLine_pending (state : Wrapping σ) (ch : Char) (used : Nat) :
    openLine { state with pending := state.pending ++ [ch], used } =
      state.openLine ++ [(ch, state.pendingStyle)] := by
  simp [openLine]

/-- What making room for a character does. -/
theorem Wraps.makeRoom_cases (h : Wraps widths width items state) (hwidth : 2 ≤ width) {ch : Char}
    (hch : widths.cells ch ≤ width) :
    (state.makeRoom widths width ch = state ∧ state.used + widths.cells ch ≤ width) ∨
      ∃ room : Wrapping σ, state.makeRoom widths width ch = room ∧
        width < state.used + widths.cells ch ∧
        room.lines.map lineStyled = state.lines.map lineStyled ++ [state.openLine] ∧
        room.openLine = [] ∧ room.used = 0 ∧ room.pendingStyle = state.pendingStyle := by
  unfold makeRoom
  split
  · rename_i hover
    have hcurrent : state.flush.current ≠ [] := by
      intro hnil
      have hopen := state.lineStyled_flush
      rw [hnil] at hopen
      have hused : state.used = Fill.total (widths.cells ∘ Prod.fst) [] := hopen ▸ h.used
      rw [Fill.total_nil] at hused
      omega
    refine .inr ⟨_, rfl, hover.2, ?_⟩
    rw [endLine_of_nonempty _ hcurrent]
    refine ⟨?_, ?_, rfl, ?_⟩
    · simp
    · simp [openLine, lineStyled]
    · exact pendingStyle_flush state
  · rename_i hfits
    exact .inl ⟨rfl, by omega⟩

variable [DecidableEq σ]

@[simp] theorem lines_restyle (style : σ) : (state.restyle style).lines = state.lines := by
  unfold restyle
  split
  · exact state.lines_flush
  · rfl

@[simp] theorem used_restyle (style : σ) : (state.restyle style).used = state.used := by
  unfold restyle
  split
  · exact state.used_flush
  · rfl

@[simp] theorem pendingStyle_restyle (style : σ) : (state.restyle style).pendingStyle = style := by
  unfold restyle
  split
  · rfl
  · rename_i hsame
    exact (not_not.mp hsame).symm

@[simp] theorem openLine_restyle (style : σ) : (state.restyle style).openLine = state.openLine := by
  unfold restyle
  split
  · simp [openLine]
  · rfl

theorem Wraps.restyle (h : Wraps widths width items state) (style : σ) :
    Wraps widths width items (state.restyle style) := by
  constructor
  · rw [lines_restyle, openLine_restyle]
    exact h.filling
  · rw [used_restyle, openLine_restyle]
    exact h.used

/-- One character more. -/
theorem Wraps.push (h : Wraps widths width items state) (hwidth : 2 ≤ width) (style : σ) {ch : Char}
    (hch : widths.cells ch ≤ width) :
    Wraps widths width (items ++ [(ch, style)]) (state.push widths width style ch) := by
  have hrestyled := h.restyle style
  have hstyle := state.pendingStyle_restyle style
  unfold Wrapping.push
  generalize state.restyle style = state at hrestyled hstyle
  obtain ⟨hroom, hfits⟩ | ⟨room, hroom, hover, hlines, hopen, hused, hstyle'⟩ :=
    hrestyled.makeRoom_cases hwidth hch
  · dsimp only
    rw [hroom]
    rw [hrestyled.used] at hfits
    constructor
    · rw [openLine_pending, hstyle]
      exact hrestyled.filling.extend hfits
    · rw [openLine_pending, Fill.total_append, hrestyled.used]
      rfl
  · dsimp only
    rw [hroom]
    rw [hrestyled.used] at hover
    constructor
    · rw [openLine_pending, hopen, hstyle', hstyle]
      rw [hlines]
      exact hrestyled.filling.wrap hover hch
    · rw [openLine_pending, hopen, hused]
      simp

/-- All characters of the segments, each in its style. -/
theorem Wraps.segments (h : Wraps widths width items state) (hwidth : 2 ≤ width)
    {segments : List (List Char × σ)}
    (hcells : ∀ segment ∈ segments, ∀ ch ∈ segment.1, widths.cells ch ≤ width) :
    Wraps widths width (items ++ segmentsStyled segments) (segments.foldl
      (fun state (text, style) => text.foldl (Wrapping.push widths width style) state) state) := by
  have hsegment (text : List Char) (style : σ) : ∀ {items : List (Char × σ)} {state},
      Wraps widths width items state → (∀ ch ∈ text, widths.cells ch ≤ width) →
      Wraps widths width (items ++ text.map (·, style))
        (text.foldl (Wrapping.push widths width style) state) := by
    induction text with
    | nil =>
        intro items state h _
        simpa using h
    | cons ch text ih =>
        intro items state h htext
        have hnext := ih (h.push hwidth style (htext ch List.mem_cons_self))
          fun ch hch => htext ch (List.mem_cons_of_mem _ hch)
        simpa using hnext
  induction segments generalizing items state with
  | nil => simpa [segmentsStyled] using h
  | cons segment segments ih =>
      have hnext := ih (hsegment segment.1 segment.2 h (hcells segment List.mem_cons_self))
        fun segment hmem => hcells segment (List.mem_cons_of_mem _ hmem)
      simpa [segmentsStyled] using hnext

end Wrapping

/-- The lines of `wrap_segments` are filled with the characters in their styles. -/
theorem wrapSegments_filled [DecidableEq σ] [Inhabited σ] {widths : UnicodeWidth}
    {segments : List (List Char × σ)} {width : Nat} (hwidth : 2 ≤ width)
    (htext : segmentsStyled segments ≠ [])
    (hcells : ∀ segment ∈ segments, ∀ ch ∈ segment.1, widths.cells ch ≤ width) :
    Fill.Filled (widths.cells ∘ Prod.fst) width (segmentsStyled segments)
      ((wrapSegments widths segments width).map lineStyled) := by
  have hstart : Wrapping.Wraps widths width [] (⟨[], [], [], default, 0⟩ : Wrapping σ) :=
    ⟨.start, rfl⟩
  have hwraps := hstart.segments hwidth hcells
  unfold wrapSegments
  dsimp only
  generalize segments.foldl _ _ = state at hwraps
  rw [List.nil_append] at hwraps
  have hopen : state.openLine ≠ [] := by
    intro hnil
    have hflatten := hwraps.filling.flatten
    rw [hwraps.filling.first hnil, hnil] at hflatten
    exact htext hflatten.symm
  have hcurrent : state.flush.current ≠ [] := by
    intro hnil
    apply hopen
    rw [← state.lineStyled_flush, hnil]
    rfl
  rw [Wrapping.endLine_of_nonempty _ hcurrent]
  simpa using hwraps.filling.close hopen

end

/-! ### Plain text -/

/-- What is known of the loop of `wrap_for_display` after some characters. -/
structure Chunking.Chunks (widths : UnicodeWidth) (width : Nat) (text : List Char)
    (state : Chunking) : Prop where
  filling : Fill.Filling widths.cells width text state.chunks state.current
  used : state.used = Fill.total widths.cells state.current

theorem Chunking.Chunks.push {widths : UnicodeWidth} {width : Nat} {text : List Char}
    {state : Chunking} (h : Chunks widths width text state) {ch : Char}
    (hch : widths.cells ch ≤ width) :
    Chunks widths width (text ++ [ch]) (state.push widths width ch) := by
  unfold Chunking.push
  rw [h.used]
  split
  · rename_i hover
    exact ⟨h.filling.wrap hover hch, by simp⟩
  · rename_i hfits
    refine ⟨h.filling.extend (Nat.not_lt.mp hfits), ?_⟩
    simp [h.used]

/-- The lines of `wrap_for_display` are filled with the characters. -/
theorem wrapForDisplay_filled {widths : UnicodeWidth} {text : List Char} {width : Nat}
    (hwidth : 2 ≤ width) (htext : text ≠ []) (hcells : ∀ ch ∈ text, widths.cells ch ≤ width) :
    Fill.Filled widths.cells width text (wrapForDisplay widths text width) := by
  have hloop : ∀ {before : List Char} {state : Chunking}, state.Chunks widths width before →
      (text.foldl (Chunking.push widths width) state).Chunks widths width (before ++ text) := by
    clear htext
    induction text with
    | nil =>
        intro before state h
        simpa using h
    | cons ch text ih =>
        intro before state h
        have hnext := ih (fun ch hch => hcells ch (List.mem_cons_of_mem _ hch))
          (h.push (hcells ch List.mem_cons_self))
        simpa using hnext
  have hstart : Chunking.Chunks widths width [] ⟨[], [], 0⟩ := ⟨.start, rfl⟩
  have hchunks := hloop hstart
  rw [wrapForDisplay, if_neg (by simp only [htext, or_false]; omega)]
  dsimp only
  generalize text.foldl _ _ = state at hchunks
  rw [List.nil_append] at hchunks
  have hcurrent : state.current ≠ [] := by
    intro hnil
    have hflatten := hchunks.filling.flatten
    rw [hchunks.filling.first hnil, hnil] at hflatten
    exact htext hflatten.symm
  rw [if_neg hcurrent]
  exact hchunks.filling.close hcurrent

theorem map_fst_segmentsStyled {σ : Type} (segments : List (List Char × σ)) :
    (segmentsStyled segments).map Prod.fst = segments.flatMap Prod.fst := by
  induction segments with
  | nil => rfl
  | cons segment segments ih =>
      have hsegment : (segment.1.map (·, segment.2)).map Prod.fst = segment.1 := by
        rw [List.map_map]
        exact List.map_id _
      rw [segmentsStyled, List.flatMap_cons, List.flatMap_cons, List.map_append, hsegment]
      exact congrArg _ ih

/-- Styled segments are wrapped as their plain text is; nothing is lost, no line is wider than the
width or broken early, and every character keeps its style. -/
theorem wrapping_agrees {σ : Type} [DecidableEq σ] [Inhabited σ] {widths : UnicodeWidth}
    {segments : List (List Char × σ)} {width : Nat} (hwidth : 2 ≤ width)
    (htext : segments.flatMap Prod.fst ≠ [])
    (hcells : ∀ ch ∈ segments.flatMap Prod.fst, widths.cells ch ≤ width)
    {lines : List (List (Span σ))} (hlines : wrapSegments widths segments width = lines) :
    lines.map lineText = wrapForDisplay widths (segments.flatMap Prod.fst) width ∧
    (lines.map lineText).flatten = segments.flatMap Prod.fst ∧
    (∀ line ∈ lines, lineText line ≠ [] ∧ ((lineText line).map widths.cells).sum ≤ width) ∧
    (∀ before line line' after, lines = before ++ line :: line' :: after →
      ∃ ch rest, lineText line' = ch :: rest ∧
        width < ((lineText line).map widths.cells).sum + widths.cells ch) ∧
    lines.flatMap lineStyled = segmentsStyled segments := by
  have hstyled : segmentsStyled segments ≠ [] := by
    intro hnil
    rw [← map_fst_segmentsStyled, hnil] at htext
    exact htext rfl
  have hsegments : ∀ segment ∈ segments, ∀ ch ∈ segment.1, widths.cells ch ≤ width :=
    fun segment hmem ch hch => hcells ch (List.mem_flatMap.mpr ⟨segment, hmem, hch⟩)
  have hfilled := wrapSegments_filled hwidth hstyled hsegments
  rw [hlines] at hfilled
  have htexts : (lines.map lineStyled).map (List.map Prod.fst) = lines.map lineText := by
    rw [List.map_map]
    exact List.map_congr_left fun line _ => map_fst_lineStyled line
  have hplain : Fill.Filled widths.cells width (segments.flatMap Prod.fst)
      (lines.map lineText) := by
    have hmap := hfilled.map
    rwa [map_fst_segmentsStyled, htexts] at hmap
  refine ⟨hplain.unique (wrapForDisplay_filled hwidth htext hcells), hplain.flatten, ?_, ?_, ?_⟩
  · intro line hline
    exact ⟨hplain.nonempty _ (List.mem_map_of_mem hline), hplain.fits _ (List.mem_map_of_mem hline)⟩
  · intro before line line' after hsplit
    have hchain := hplain.overflows
    rw [hsplit, List.map_append, List.map_cons, List.map_cons, List.isChain_append_cons_cons]
      at hchain
    have hnonempty : lineText line' ≠ [] := hplain.nonempty _ (by simp [hsplit])
    obtain ⟨ch, rest, hrest⟩ := List.exists_cons_of_ne_nil hnonempty
    exact ⟨ch, rest, hrest, hchain.2.1 ch (by rw [hrest]; rfl)⟩
  · rw [List.flatMap_def]
    exact hfilled.flatten

/-- Two cells for a character of many, one for the others. -/
def asciiOrWide : UnicodeWidth where
  char ch := some (if ch.val < 0x1100 then 1 else 2)
  str text := (text.map fun ch => if ch.val < 0x1100 then 1 else 2).sum

def threeStyles : List (List Char × Nat) :=
  [("[1] ".toList, 0), ("日本".toList, 1), (": hi".toList, 0)]

/-- A wide name across two lines. -/
theorem wrapping_agrees_wide :
    (wrapSegments asciiOrWide threeStyles 5).map lineText =
        ["[1] ".toList, "日本:".toList, " hi".toList] ∧
      wrapForDisplay asciiOrWide "[1] 日本: hi".toList 5 =
        ["[1] ".toList, "日本:".toList, " hi".toList] := by
  have hlines : wrapSegments asciiOrWide threeStyles 5 = wrapSegments asciiOrWide threeStyles 5 :=
    rfl
  have hcells (ch : Char) : asciiOrWide.cells ch ≤ 5 := by
    simp only [UnicodeWidth.cells, asciiOrWide, Option.getD_some]
    split <;> omega
  have hagrees := (wrapping_agrees (by decide) (by decide) (fun ch _ => hcells ch) hlines).1
  refine ⟨?_, ?_⟩
  · rw [hagrees]
    decide
  · decide

/-! ### The input line -/

/-- The loop of `input_viewport` back from the cursor: where the slice starts. -/
def viewportStart (widths : UnicodeWidth) (width : Nat) : List (Nat × Char) → Nat → Nat → Nat
  | [], _, start => start
  | (index, ch) :: before, used, start =>
    if used + widths.cells ch > width then start
    else viewportStart widths width before (used + widths.cells ch) index

/-- The loop of `input_viewport` from the start on: where the slice ends. -/
def viewportEnd (widths : UnicodeWidth) (width start : Nat) : List (Nat × Char) → Nat → Nat → Nat
  | [], _, stop => stop
  | (offset, ch) :: after, used, stop =>
    if used + widths.cells ch > width then stop
    else viewportEnd widths width start after (used + widths.cells ch)
      (start + offset + ch.utf8Size)

/-- The bounds of the slice that `input_viewport` takes. -/
def inputBounds (widths : UnicodeWidth) (text : List Char) (cursor width : Nat) :
    Option (Nat × Nat) := do
  let cursor := min cursor (Utf8.size text)
  let before ← Utf8.sliceTo? text cursor
  let start :=
    if widths.str before ≤ width then 0
    else viewportStart widths width (Utf8.charIndices before).reverse 0 cursor
  let after ← Utf8.sliceFrom? text start
  return (start, viewportEnd widths width start (Utf8.charIndices after) 0 start)

/-- `input_viewport`. -/
def inputViewport (widths : UnicodeWidth) (text : List Char) (cursor width : Nat) :
    Option (List Char) :=
  if text = [] ∨ width = 0 then some []
  else (inputBounds widths text cursor width).bind fun (start, stop) =>
    Utf8.slice? text start stop

/-! ### What the loops take -/

/-- Back from the cursor the loop takes an end of the text that fits. -/
theorem viewportStart_spec (widths : UnicodeWidth) (width : Nat) (before : List Char)
    {used : Nat} (hused : used ≤ width) :
    ∃ skipped shown, before = skipped ++ shown ∧
      used + (shown.map widths.cells).sum ≤ width ∧
      viewportStart widths width (Utf8.charIndices before).reverse used (Utf8.size before) =
        Utf8.size skipped := by
  induction before using List.reverseRecOn generalizing used with
  | nil => exact ⟨[], [], rfl, hused, rfl⟩
  | append_singleton before ch ih =>
      rw [Utf8.charIndices_concat, List.reverse_concat, viewportStart]
      split
      · exact ⟨before ++ [ch], [], by simp, hused, rfl⟩
      · rename_i hfits
        obtain ⟨skipped, shown, hbefore, hshown, hstart⟩ := ih (Nat.not_lt.mp hfits)
        refine ⟨skipped, shown ++ [ch], by rw [hbefore, List.append_assoc], ?_, hstart⟩
        rw [List.map_append, List.sum_append]
        simp only [List.map_cons, List.map_nil, List.sum_cons, List.sum_nil]
        omega

/-- From the start on the loop takes the longest beginning of the text that fits. -/
theorem viewportEnd_spec (widths : UnicodeWidth) (width start offset : Nat) (after : List Char)
    {used : Nat} (hused : used ≤ width) :
    ∃ shown hidden, after = shown ++ hidden ∧ used + (shown.map widths.cells).sum ≤ width ∧
      (∀ ch rest, hidden = ch :: rest →
        width < used + (shown.map widths.cells).sum + widths.cells ch) ∧
      viewportEnd widths width start (Utf8.charIndicesFrom offset after) used (start + offset) =
        start + offset + Utf8.size shown := by
  induction after generalizing used offset with
  | nil => exact ⟨[], [], rfl, hused, nofun, rfl⟩
  | cons ch after ih =>
      rw [Utf8.charIndicesFrom, viewportEnd]
      split
      · rename_i hover
        refine ⟨[], ch :: after, rfl, hused, ?_, rfl⟩
        rintro _ _ ⟨⟩
        exact hover
      · rename_i hfits
        obtain ⟨shown, hidden, hafter, hshown, hhidden, hstop⟩ :=
          ih (offset + ch.utf8Size) (Nat.not_lt.mp hfits)
        refine ⟨ch :: shown, hidden, by rw [hafter]; rfl, ?_, ?_, ?_⟩
        · rw [List.map_cons, List.sum_cons]
          omega
        · intro ch' rest hrest
          have hover := hhidden ch' rest hrest
          rw [List.map_cons, List.sum_cons]
          omega
        · rw [Nat.add_assoc start offset, hstop, Utf8.size_cons]
          omega

/-- What the forward loop takes covers a beginning of the text just when that fits. -/
theorem viewportEnd_covers (widths : UnicodeWidth) (width start : Nat) (after : List Char) :
    ∃ shown hidden, after = shown ++ hidden ∧ (shown.map widths.cells).sum ≤ width ∧
      viewportEnd widths width start (Utf8.charIndices after) 0 start =
        start + Utf8.size shown ∧
      ∀ before, before <+: after →
        (Utf8.size before ≤ Utf8.size shown ↔ (before.map widths.cells).sum ≤ width) := by
  obtain ⟨shown, hidden, hafter, hshown, hhidden, hstop⟩ :=
    viewportEnd_spec widths width start 0 after (Nat.zero_le width)
  rw [Nat.zero_add] at hshown
  have hbegins : shown <+: after := ⟨hidden, hafter.symm⟩
  refine ⟨shown, hidden, hafter, hshown, hstop, fun before hbefore => ?_⟩
  constructor
  · intro hsize
    obtain ⟨more, hmore⟩ := Utf8.prefix_of_size_le hbefore hbegins hsize
    rw [← hmore, List.map_append, List.sum_append] at hshown
    omega
  · intro hfits
    by_contra hsize
    obtain ⟨more, rfl⟩ := Utf8.prefix_of_size_le hbegins hbefore (by omega)
    obtain ⟨rest, hrest⟩ := hbefore
    cases more with
    | nil => simp at hsize
    | cons ch more =>
        rw [hafter, List.append_assoc, List.append_cancel_left_eq] at hrest
        have hover := hhidden ch _ hrest.symm
        simp only [List.map_append, List.map_cons, List.sum_append, List.sum_cons] at hfits
        omega

/-! ### Whether the cursor is shown -/

/-- What is shown is a slice of the text that holds the cursor and fits. -/
def ShowsCursor (widths : UnicodeWidth) (text : List Char) (cursor width : Nat) : Prop :=
  ∃ start stop slice, inputBounds widths text cursor width = some (start, stop) ∧
    inputViewport widths text cursor width = some slice ∧
    Utf8.slice? text start stop = some slice ∧
    Utf8.IsCharBoundary text start ∧ Utf8.IsCharBoundary text stop ∧
    start ≤ cursor ∧ cursor ≤ stop ∧ (slice.map widths.cells).sum ≤ width

/-- A slice that fits shows the cursor when it ends there or after. -/
theorem showsCursor_of_bounds {widths : UnicodeWidth} (skipped : List Char)
    {shown hidden : List Char} {cursor width : Nat} (hwidth : width ≠ 0)
    (hbounds : inputBounds widths (skipped ++ shown ++ hidden) cursor width =
      some (Utf8.size skipped, Utf8.size (skipped ++ shown)))
    (hfits : (shown.map widths.cells).sum ≤ width) (hstart : Utf8.size skipped ≤ cursor) :
    ShowsCursor widths (skipped ++ shown ++ hidden) cursor width ↔
      cursor ≤ Utf8.size (skipped ++ shown) := by
  have hslice := Utf8.slice?_size skipped shown hidden
  constructor
  · rintro ⟨start, stop, slice, hbounds', -, -, -, -, -, hstop, -⟩
    rw [hbounds] at hbounds'
    cases hbounds'
    exact hstop
  · intro hstop
    have hskipped := Utf8.isCharBoundary_size skipped (shown ++ hidden)
    rw [← List.append_assoc] at hskipped
    refine ⟨_, _, shown, hbounds, ?_, hslice, hskipped, Utf8.isCharBoundary_size _ _, hstart, hstop,
      hfits⟩
    rw [inputViewport, hbounds, Option.bind_some]
    dsimp only
    rw [hslice]
    split
    · rename_i hempty
      obtain hempty | hzero := hempty
      · rw [List.append_eq_nil_iff, List.append_eq_nil_iff] at hempty
        rw [hempty.1.2]
      · exact absurd hzero hwidth
    · rfl

/-- The bounds at a cursor between two parts of the text, from where the backward loop stops. -/
theorem inputBounds_eq {widths : UnicodeWidth} {before after skipped rest : List Char} {width : Nat}
    (htext : before ++ after = skipped ++ rest)
    (hstart : (if widths.str before ≤ width then 0
      else viewportStart widths width (Utf8.charIndices before).reverse 0 (Utf8.size before)) =
        Utf8.size skipped) :
    inputBounds widths (before ++ after) (Utf8.size before) width =
      some (Utf8.size skipped, viewportEnd widths width (Utf8.size skipped) (Utf8.charIndices rest)
        0 (Utf8.size skipped)) := by
  have hcursor : min (Utf8.size before) (Utf8.size (before ++ after)) = Utf8.size before := by
    rw [Utf8.size_append]
    omega
  simp only [inputBounds, hcursor, Utf8.sliceTo?_size, Option.bind_eq_bind, Option.bind_some,
    hstart]
  rw [htext, Utf8.sliceFrom?_size]
  rfl

/-- The cursor is shown unless the string before it is narrow enough while its characters are
not. -/
theorem showsCursor_iff (widths : UnicodeWidth) {text : List Char} {cursor width : Nat}
    (hwidth : 2 ≤ width) (hcursor : Utf8.IsCharBoundary text cursor) :
    ShowsCursor widths text cursor width ↔
      ∀ before, Utf8.sliceTo? text cursor = some before → widths.str before ≤ width →
        (before.map widths.cells).sum ≤ width := by
  rw [← Utf8.isSome_splitAt?, Option.isSome_iff_exists] at hcursor
  obtain ⟨⟨before, after⟩, hsplit⟩ := hcursor
  obtain ⟨rfl, rfl⟩ := Utf8.splitAt?_eq_some.mp hsplit
  simp only [Utf8.sliceTo?_size, Option.some.injEq, forall_eq']
  by_cases hstr : widths.str before ≤ width
  · -- Nothing is skipped, and the forward loop measures the characters.
    obtain ⟨shown, hidden, htext, hshown, hstop, hcovers⟩ :=
      viewportEnd_covers widths width 0 (before ++ after)
    have hbounds := inputBounds_eq (List.nil_append (before ++ after)).symm (if_pos hstr)
    rw [Utf8.size_nil, hstop, Nat.zero_add] at hbounds
    have hiff := hcovers before (List.prefix_append _ _)
    rw [htext] at hbounds ⊢
    have hshows := showsCursor_of_bounds [] (by omega) hbounds hshown (Nat.zero_le _)
    rw [List.nil_append] at hshows
    rw [hshows, hiff]
    simp [hstr]
  · -- The backward loop keeps what fits before the cursor, and the forward loop takes that first.
    obtain ⟨skipped, kept, hbefore, hkept, hstart⟩ :=
      viewportStart_spec widths width before (Nat.zero_le width)
    obtain ⟨shown, hidden, htext, hshown, hstop, hcovers⟩ :=
      viewportEnd_covers widths width (Utf8.size skipped) (kept ++ after)
    have hrest : before ++ after = skipped ++ (kept ++ after) := by
      rw [hbefore, List.append_assoc]
    have hbounds := inputBounds_eq hrest ((if_neg hstr).trans hstart)
    rw [hstop, ← Utf8.size_append] at hbounds
    have hwhole : before ++ after = skipped ++ shown ++ hidden := by
      rw [hrest, htext, List.append_assoc]
    rw [Nat.zero_add] at hkept
    have hcovered := (hcovers kept (List.prefix_append _ _)).mpr hkept
    have hsize : Utf8.size before = Utf8.size skipped + Utf8.size kept := by
      rw [hbefore, Utf8.size_append]
    rw [hwhole] at hbounds ⊢
    rw [showsCursor_of_bounds skipped (by omega) hbounds hshown (by omega)]
    simp only [hstr, false_imp_iff, iff_true, Utf8.size_append]
    omega

/-- Wide characters before a cursor at the end. -/
theorem showsCursor_wide : ShowsCursor asciiOrWide "日本語abcd".toList 13 6 := by
  have hcursor : Utf8.IsCharBoundary "日本語abcd".toList 13 :=
    Utf8.isCharBoundary_size "日本語abcd".toList []
  rw [showsCursor_iff asciiOrWide (by decide) hcursor]
  intro before hbefore hstr
  have hwhole : Utf8.sliceTo? "日本語abcd".toList 13 = some "日本語abcd".toList := by decide
  rw [hwhole] at hbefore
  cases hbefore
  revert hstr
  decide

/-- An emoji modifier. -/
def isModifier (ch : Char) : Bool := 0x1F3FB ≤ ch.val && ch.val ≤ 0x1F3FF

/-- The width of a string in which a modifier takes no cells after an emoji. -/
def modifiedWidth : List Char → Nat
  | [] => 0
  | ch :: text =>
    (if ch.val < 0x1100 then 1 else 2) +
      (match text with
        | modifier :: rest =>
          if ch.val ≥ 0x1F300 && isModifier modifier then modifiedWidth rest
          else modifiedWidth (modifier :: rest)
        | [] => 0)

def emojiWidth : UnicodeWidth where
  char ch := if ch.val < 0x20 then none else some (if ch.val < 0x1100 then 1 else 2)
  str := modifiedWidth

/-- A thumb with a skin tone: its second character is cut off, and the cursor with it. -/
theorem not_showsCursor_thumb : ¬ ShowsCursor emojiWidth ['👍', '🏽'] 8 2 := by
  rintro ⟨start, stop, slice, hbounds, -, -, -, -, -, hstop, -⟩
  have hthumb : inputBounds emojiWidth ['👍', '🏽'] 8 2 = some (0, 4) := by decide
  rw [hthumb] at hbounds
  cases hbounds
  exact absurd hstop (by decide)

end Veilroom
