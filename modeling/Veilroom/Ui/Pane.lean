import Veilroom.Ui.Render
import Veilroom.Ui.Terminal

/-!
The message panel (`draw_messages` of `ui/render.rs`): its rows are the kept lines, each wrapped to
the panel with its timestamp and with its sender in the sender's color, and of them the newest that
the panel has room for.
-/
namespace Veilroom

/-- Two decimal digits, as `{:02}` writes a number below 100. -/
def twoDigits (n : Nat) : List Char := [Nat.digitChar (n / 10), Nat.digitChar (n % 10)]

/-- `Display` of `GmtTimestamp`. -/
def GmtTimestamp.display (timestamp : GmtTimestamp) : List Char :=
  let seconds := timestamp.secondsSinceMidnight.val
  twoDigits (seconds / 3600) ++ [':'] ++ twoDigits (seconds % 3600 / 60) ++ [':'] ++
    twoDigits (seconds % 60)

/-- The terminal's colors that the screens use. -/
inductive Color
  | red | green | yellow | blue | magenta | cyan | gray | darkGray
deriving DecidableEq

/-- A style, of which the room sets the foreground only. -/
structure Style where
  fg : Option Color
deriving DecidableEq

/-- `Style::default`. -/
instance : Inhabited Style := ⟨⟨none⟩⟩

/-- `member_color`. -/
def memberColor : ColorChoice → Color
  | .red => .red
  | .green => .green
  | .yellow => .yellow
  | .blue => .blue
  | .magenta => .magenta
  | .cyan => .cyan
  | .white => .gray

/-- `line_style`. -/
def lineStyle : LineStyle → Style
  | .chat => default
  | .notice => ⟨some .cyan⟩
  | .alert => ⟨some .yellow⟩
  | .palette color => ⟨some (memberColor color)⟩
  | .error => ⟨some .red⟩
  | .muted => ⟨some .darkGray⟩

namespace MessageLine
variable {latest : Nat}

/-- What stands before a line. -/
def timestamped (line : MessageLine latest) : List Char :=
  ['['] ++ line.timestamp.display ++ "] ".toList

/-- The segments of a line that names its sender. -/
def segments (line : MessageLine latest) (nickname : NicknameSpan) : List (List Char × Style) :=
  let text := line.text.toList
  let rest := (Utf8.sliceFrom? text nickname.text.utf8ByteSize).getD text
  [(line.timestamped, lineStyle line.style),
    (nickname.text.toList, ⟨some (memberColor nickname.color)⟩),
    (rest, lineStyle line.style)]

/-- The body of the loop in `draw_messages`. -/
def rows (widths : UnicodeWidth) (innerWidth : Nat) (line : MessageLine latest) :
    List (List (Span Style)) :=
  match line.nickname with
  | some nickname => wrapSegments widths (line.segments nickname) innerWidth
  | none =>
    let full := line.timestamped ++ (sanitizeForDisplay line.text).toList
    (wrapForDisplay widths full innerWidth).map fun chunk => [⟨chunk, lineStyle line.style⟩]

end MessageLine

namespace Ui
namespace RoomView
variable {latest : Nat} {view : RoomView latest}

/-- The lines that `draw_messages` goes through. -/
def panelLines (view : RoomView latest) : List (MessageLine latest) :=
  view.messages.lines.filter fun line => view.showSystemMessages || line.style = .chat

/-- `draw_messages`: the rows of the list in a panel of the given size. -/
def drawMessages (widths : UnicodeWidth) (view : RoomView latest) (width height : Nat) :
    List (List (Span Style)) :=
  let innerWidth := width - 2
  let rows := view.panelLines.flatMap (MessageLine.rows widths innerWidth)
  let visible := height - 2
  rows.drop (rows.length - visible)

end RoomView
end Ui

/-! ### What a line says -/

namespace MessageLine
variable {latest : Nat} {line : MessageLine latest} {widths : UnicodeWidth} {innerWidth : Nat}

/-- A line with its timestamp, the name of its sender in the sender's color. -/
def styled (line : MessageLine latest) : List (Char × Style) :=
  let sender : List (Char × Style) := (line.nickname.map fun nickname =>
    nickname.text.toList.map (·, (⟨some (memberColor nickname.color)⟩ : Style))).getD []
  line.timestamped.map (·, lineStyle line.style) ++ sender ++
    (line.text.toList.drop sender.length).map (·, lineStyle line.style)

/-- The line is its timestamp and its text, in whatever styles. -/
theorem map_fst_styled (h : line.Displayable) :
    line.styled.map Prod.fst = line.timestamped ++ line.text.toList := by
  have hplain : ∀ (text : List Char) (style : Style),
      (text.map (·, style)).map Prod.fst = text := by
    intro text style
    rw [List.map_map]
    exact List.map_id _
  cases hnickname : line.nickname with
  | none => simp [styled, hnickname, hplain]
  | some nickname =>
      obtain ⟨body, hbody⟩ := h.named nickname hnickname
      have htext : line.text.toList = nickname.text.toList ++ (": ".toList ++ body.toList) := by
        rw [hbody, String.toList_append, String.toList_append, List.append_assoc]
      simp [styled, hnickname, hplain, htext]

theorem segmentsStyled_segments (h : line.Displayable) {nickname : NicknameSpan}
    (hnickname : line.nickname = some nickname) :
    segmentsStyled (line.segments nickname) = line.styled := by
  obtain ⟨body, hbody⟩ := h.named nickname hnickname
  have htext : line.text.toList = nickname.text.toList ++ (": ".toList ++ body.toList) := by
    rw [hbody, String.toList_append, String.toList_append, List.append_assoc]
  have hsize : nickname.text.utf8ByteSize = Utf8.size nickname.text.toList := by
    rw [← Utf8.utf8ByteSize_ofList, String.ofList_toList]
  have hrest : Utf8.sliceFrom? line.text.toList nickname.text.utf8ByteSize =
      some (": ".toList ++ body.toList) := by
    rw [htext, hsize, Utf8.sliceFrom?_size]
  simp only [segments, hrest, Option.getD_some]
  simp [styled, segmentsStyled, hnickname, htext]

theorem styled_ne_nil : line.styled ≠ [] := by
  simp [styled, timestamped]

/-- The rows of a line are filled with what it says. -/
theorem rows_filled (h : line.Displayable) (hwidth : 2 ≤ innerWidth)
    (hcells : ∀ ch, widths.cells ch ≤ innerWidth) :
    Fill.Filled (widths.cells ∘ Prod.fst) innerWidth line.styled
      ((line.rows widths innerWidth).map lineStyled) := by
  cases hnickname : line.nickname with
  | some nickname =>
      have hsegments := segmentsStyled_segments h hnickname
      have hfilled := wrapSegments_filled hwidth (hsegments ▸ styled_ne_nil)
        fun _ _ ch _ => hcells ch
      rw [hsegments] at hfilled
      simpa [rows, hnickname] using hfilled
  | none =>
      have htext : sanitizeForDisplay line.text = line.text := sanitizeForDisplay_of_safe h.safe
      have hfull : line.timestamped ++ line.text.toList ≠ [] := by simp [timestamped]
      have hfilled := wrapForDisplay_filled hwidth hfull fun ch _ => hcells ch
      have hstyled : line.styled =
          (line.timestamped ++ line.text.toList).map (·, lineStyle line.style) := by
        simp [styled, hnickname]
      have hrows : (line.rows widths innerWidth).map lineStyled =
          (wrapForDisplay widths (line.timestamped ++ line.text.toList) innerWidth).map
            (List.map (·, lineStyle line.style)) := by
        simp [rows, hnickname, htext, lineStyled, Span.styled, Function.comp_def]
      rw [hstyled, hrows]
      exact Fill.Filled.map hfilled

theorem twoDigits_safe {n : Nat} (h : n < 100) : containsControlChar (twoDigits n) = false := by
  have hdigit : ∀ digit < 10, isUnsafeDisplayChar (Nat.digitChar digit) = false := by decide
  have htens : n / 10 < 10 := by omega
  have hunits : n % 10 < 10 := by omega
  simp [twoDigits, containsControlChar, hdigit _ htens, hdigit _ hunits]

/-- Nothing that a line says, its timestamp included, can drive the terminal. -/
theorem styled_safe (h : line.Displayable) :
    containsControlChar (line.styled.map Prod.fst) = false := by
  have hseconds := line.timestamp.secondsSinceMidnight.isLt
  have hdisplay : containsControlChar line.timestamp.display = false := by
    have hhour := twoDigits_safe (n := line.timestamp.secondsSinceMidnight / 3600) (by omega)
    have hminute := twoDigits_safe (n := line.timestamp.secondsSinceMidnight % 3600 / 60) (by omega)
    have hsecond := twoDigits_safe (n := line.timestamp.secondsSinceMidnight % 60) (by omega)
    simp only [GmtTimestamp.display, containsControlChar_append, hhour, hminute, hsecond]
    decide
  rw [map_fst_styled h]
  simp only [timestamped, containsControlChar_append, hdisplay, h.safe]
  decide

end MessageLine

namespace Ui
namespace RoomView
variable {latest : Nat} {isHost : Bool} {nickname : String} {past : Past latest}
  {view : RoomView latest} {widths : UnicodeWidth} {width : Nat}

/-- Rows for each line in turn, which what it says fills. -/
def Fills (widths : UnicodeWidth) (innerWidth : Nat) (lines : List (MessageLine latest))
    (rows : List (List (List (Char × Style)))) : Prop :=
  List.Forall₂ (fun line rows =>
    Fill.Filled (widths.cells ∘ Prod.fst) innerWidth line.styled rows) lines rows

theorem fills_rows {lines : List (MessageLine latest)} {innerWidth : Nat}
    (h : ∀ line ∈ lines, line.Displayable) (hwidth : 2 ≤ innerWidth)
    (hcells : ∀ ch, widths.cells ch ≤ innerWidth) :
    Fills widths innerWidth lines
      (lines.map fun line => (line.rows widths innerWidth).map lineStyled) := by
  induction lines with
  | nil => exact .nil
  | cons line lines ih =>
      exact .cons (MessageLine.rows_filled (h line (.head _)) hwidth hcells)
        (ih fun line hmem => h line (.tail _ hmem))

/-- Every row of lines that are fit for the terminal is so itself. -/
theorem Fills.safe {lines : List (MessageLine latest)} {innerWidth : Nat}
    {rows : List (List (List (Char × Style)))} (h : Fills widths innerWidth lines rows)
    (hlines : ∀ line ∈ lines, line.Displayable) {row : List (Char × Style)}
    (hrow : row ∈ rows.flatten) : containsControlChar (row.map Prod.fst) = false := by
  induction h with
  | nil => cases hrow
  | @cons line here lines rest hfilled _ ih =>
      rw [List.flatten_cons, List.mem_append] at hrow
      obtain hrow | hrow := hrow
      · have hline := MessageLine.styled_safe (hlines line (.head _))
        have hsublist : (row.map Prod.fst).Sublist (line.styled.map Prod.fst) := by
          rw [← hfilled.flatten]
          exact (List.sublist_flatten_of_mem hrow).map _
        exact containsControlChar_sublist hsublist hline
      · exact ih (fun line hmem => hlines line (.tail _ hmem)) hrow

/-- Over any keys, pastes and updates, on a panel of at least four columns with two of them for the
border, and with no character wider than the rest: the message panel shows the newest rows of the
kept lines, as many as it has room for. Each line fills its rows with its timestamp, then the name
of its sender in the sender's color, then the rest in its own color; no character is lost or
repeated, none can drive the terminal, and only chat is left when system messages are hidden. -/
theorem panel_shows_newest (run : Run (.new isHost nickname) past view) (hwidth : 4 ≤ width)
    (hcells : ∀ ch, widths.cells ch ≤ width - 2) (height : Nat) :
    view.panelLines = (if view.showSystemMessages then view.messages.lines
      else view.messages.lines.filter (·.nickname.isSome)) ∧
    (∀ line ∈ view.panelLines,
      line.styled.map Prod.fst = line.timestamped ++ line.text.toList) ∧
    ∃ rows above, Fills widths (width - 2) view.panelLines rows ∧
      rows.flatten = above ++ (view.drawMessages widths width height).map lineStyled ∧
      (view.drawMessages widths width height).length = min rows.flatten.length (height - 2) ∧
      ∀ row ∈ view.drawMessages widths width height,
        containsControlChar ((lineStyled row).map Prod.fst) = false := by
  have hlines := (shown_of_run run).lines
  have hpanel : ∀ line ∈ view.panelLines, line.Displayable :=
    fun line hmem => hlines line (List.mem_of_mem_filter hmem)
  have hfills := fills_rows hpanel (by omega : 2 ≤ width - 2) hcells
  have hrows : (view.panelLines.map fun line =>
      (line.rows widths (width - 2)).map lineStyled).flatten =
      (view.panelLines.flatMap (MessageLine.rows widths (width - 2))).map lineStyled := by
    rw [List.map_flatMap, List.flatMap_def]
  have hdrawn : ∃ above, (view.panelLines.flatMap (MessageLine.rows widths (width - 2))) =
      above ++ view.drawMessages widths width height :=
    ⟨_, (List.take_append_drop _ _).symm⟩
  obtain ⟨above, habove⟩ := hdrawn
  refine ⟨?_, fun line hmem => MessageLine.map_fst_styled (hpanel line hmem), _,
    above.map lineStyled, hfills, ?_, ?_, ?_⟩
  · split
    · rename_i hshow
      simp [panelLines, hshow]
    · rename_i hshow
      have hchat : ∀ line ∈ view.messages.lines,
          (view.showSystemMessages || decide (line.style = .chat)) = line.nickname.isSome := by
        intro line hmem
        have hline := (hlines line hmem).chat
        rw [(Bool.not_eq_true _).mp hshow, Bool.false_or, Bool.eq_iff_iff, decide_eq_true_iff]
        exact hline.symm
      exact List.filter_congr hchat
  · rw [hrows, habove, List.map_append]
  · rw [hrows, List.length_map]
    simp only [drawMessages, List.length_drop]
    omega
  · intro row hmem
    refine hfills.safe hpanel ?_
    rw [hrows]
    exact List.mem_map_of_mem (habove ▸ List.mem_append_right _ hmem)

theorem panel_shows_newest_greeting :
    ((Machine.exec RoomView.step greeting [] (.participant "alice")).2.drawMessages asciiOrWide
        20 5).length ≤ 3 ∧
    ∀ row ∈ (Machine.exec RoomView.step greeting [] (.participant "alice")).2.drawMessages
        asciiOrWide 20 5, containsControlChar ((lineStyled row).map Prod.fst) = false := by
  have hcells : ∀ ch, asciiOrWide.cells ch ≤ 20 - 2 := by
    intro ch
    simp only [UnicodeWidth.cells, asciiOrWide, Option.getD_some]
    split <;> omega
  obtain ⟨-, -, _, _, -, -, hlength, hsafe⟩ :=
    panel_shows_newest greeting_run (by decide) hcells 5
  exact ⟨by omega, hsafe⟩

end RoomView
end Ui
end Veilroom
