import Veilroom.Ui.RoomScreen

/-!
What the room screen keeps for the terminal: over any keys, pastes and updates, every message line
and every notice is free of the characters that could drive or spoof a terminal, and of bounded
number. Text that validates is shown as it is.
-/
namespace Veilroom

/-! ### Sanitized text -/

theorem sanitizeChar_safe (ch : Char) : containsControlChar (sanitizeChar ch) = false := by
  unfold sanitizeChar
  split
  · split
    · decide
    · rfl
  · rename_i hsafe
    rw [containsControlChar, List.any_cons, List.any_nil, Bool.or_false]
    exact (Bool.not_eq_true _).mp hsafe

theorem containsControlChar_flatMap {text : List Char} {f : Char → List Char}
    (h : ∀ ch ∈ text, containsControlChar (f ch) = false) :
    containsControlChar (text.flatMap f) = false := by
  induction text with
  | nil => rfl
  | cons ch text ih =>
      rw [List.flatMap_cons, containsControlChar_append, h ch (.head _), Bool.false_or]
      exact ih fun ch hch => h ch (.tail _ hch)

theorem sanitizeForDisplay_safe (input : String) :
    containsControlChar (sanitizeForDisplay input).toList = false := by
  rw [sanitizeForDisplay, String.toList_ofList]
  exact containsControlChar_flatMap fun ch _ => sanitizeChar_safe ch

private theorem flatMap_sanitizeChar {text : List Char} (h : containsControlChar text = false) :
    text.flatMap sanitizeChar = text := by
  induction text with
  | nil => rfl
  | cons ch text ih =>
      rw [containsControlChar, List.any_cons, Bool.or_eq_false_iff] at h
      have hch : sanitizeChar ch = [ch] := if_neg ((Bool.not_eq_true _).mpr h.1)
      rw [List.flatMap_cons, hch, ih h.2]
      rfl

/-- Safe text passes unchanged. -/
theorem sanitizeForDisplay_of_safe {input : String}
    (h : containsControlChar input.toList = false) : sanitizeForDisplay input = input := by
  rw [sanitizeForDisplay, flatMap_sanitizeChar h, String.ofList_toList]

/-! ### Lines -/

variable {latest : Nat}

/-- A line fit for the terminal. A chat line names its sender before anything the sender wrote,
and no other line names one. -/
structure MessageLine.Displayable (line : MessageLine latest) : Prop where
  safe : containsControlChar line.text.toList = false
  chat : line.nickname.isSome ↔ line.style = .chat
  named : ∀ span, line.nickname = some span → ∃ text, line.text = span.text ++ ": " ++ text

theorem MessageLine.Displayable.plain {text : String} {style : LineStyle} {timestamp : GmtTimestamp}
    {createdAt : Instant latest} {expiresAt : Option (Instant latest)}
    (hsafe : containsControlChar text.toList = false) (hstyle : style ≠ .chat) :
    MessageLine.Displayable ⟨text, style, none, timestamp, createdAt, expiresAt⟩ where
  safe := hsafe
  chat := by simp [hstyle]
  named := nofun

/-- The line shows `text` as said by `nickname`. -/
structure MessageLine.Says (line : MessageLine latest) (nickname text : String) : Prop where
  text : line.text = sanitizeForDisplay nickname ++ ": " ++ sanitizeForDisplay text
  nickname : line.nickname.map NicknameSpan.text = some (sanitizeForDisplay nickname)

theorem MessageLine.Says.of_undated {line before : MessageLine latest} {nickname text : String}
    (h : before.Says nickname text) (heq : before.undated = line.undated) :
    line.Says nickname text := by
  have htext : before.text = line.text := (congrArg MessageLine.text heq :)
  have hnickname : before.nickname = line.nickname := (congrArg MessageLine.nickname heq :)
  exact ⟨htext ▸ h.text, hnickname ▸ h.nickname⟩

theorem containsControlChar_string_append (first second : String) :
    containsControlChar (first ++ second).toList =
      (containsControlChar first.toList || containsControlChar second.toList) := by
  rw [String.toList_append, containsControlChar_append]

namespace NoticeBuffer

theorem mem_push {buffer : NoticeBuffer} {notice notice' : Notice}
    (h : notice' ∈ (buffer.push notice).notices) :
    notice' ∈ buffer.notices ∨ notice' = notice := by
  unfold push at h
  split at h
  · exact .inl h
  split at h
  · exact (List.mem_append.mp h).imp List.mem_of_mem_tail List.mem_singleton.mp
  · exact (List.mem_append.mp h).imp_right List.mem_singleton.mp

theorem capacity_push (buffer : NoticeBuffer) (notice : Notice) :
    (buffer.push notice).capacity = buffer.capacity := by
  unfold push
  split
  · rfl
  split <;> rfl

end NoticeBuffer

namespace Ui
namespace RoomView
variable {view view' : RoomView latest}

/-- Everything kept for the terminal is fit for it, and there is not too much of it. -/
structure Shown (view : RoomView latest) : Prop where
  lines : ∀ line ∈ view.messages.lines, line.Displayable
  notices : ∀ notice ∈ view.notices.notices, containsControlChar notice.text.toList = false
  capacity : view.messages.capacity = 256
  noticeCapacity : view.notices.capacity = 32

theorem Shown.same (h : view.Shown) (hmessages : view'.messages = view.messages)
    (hnotices : view'.notices = view.notices) : view'.Shown where
  lines := by rw [hmessages]; exact h.lines
  notices := by rw [hnotices]; exact h.notices
  capacity := by rw [hmessages]; exact h.capacity
  noticeCapacity := by rw [hnotices]; exact h.noticeCapacity

theorem Shown.foldl {α : Type} {update : RoomView latest → α → RoomView latest} {xs : List α}
    (hupdate : ∀ view, ∀ x ∈ xs, view.Shown → (update view x).Shown) (h : view.Shown) :
    (xs.foldl update view).Shown := by
  induction xs generalizing view with
  | nil => exact h
  | cons x xs ih =>
      exact ih (fun view y hy => hupdate view y (.tail _ hy)) (hupdate view x (.head _) h)

theorem Shown.pushLine (h : view.Shown) {text : String} {style : LineStyle}
    {nickname : Option NicknameSpan} {reading : Reading latest}
    (hline : ∀ expiresAt, MessageLine.Displayable
      ⟨text, style, nickname, reading.timestamp, reading.createdAt, expiresAt⟩) :
    (view.pushLine text style nickname reading).Shown where
  lines := by
    intro line hmem
    have hpush := RoomView.lines_push view.messages
      ⟨text, style, nickname, reading.timestamp, reading.createdAt,
        view.messageTimeoutInterval.bind fun seconds =>
          reading.createdAt.checkedAdd (Duration.fromSecs seconds)⟩
    obtain ⟨kept, hkept, hlines | hlines⟩ := hpush
    · have hmem : line ∈ kept ++ _ := hlines ▸ hmem
      obtain hmem | hmem := List.mem_append.mp hmem
      · exact h.lines line (hkept.mem hmem)
      · rw [List.mem_singleton.mp hmem]
        exact hline _
    · have hmem : line ∈ [] := hlines ▸ hmem
      cases hmem
  notices := h.notices
  capacity := by
    have hkept := view.toRoomView.capacity_apply
      (.push text style nickname reading.timestamp reading.createdAt)
    exact hkept.trans h.capacity
  noticeCapacity := h.noticeCapacity

theorem Shown.pushPlain (h : view.Shown) {text : String} {style : LineStyle}
    {reading : Reading latest} (hsafe : containsControlChar text.toList = false)
    (hstyle : style ≠ .chat) : (view.pushLine text style none reading).Shown :=
  h.pushLine fun _ => .plain hsafe hstyle

theorem Shown.pushChat (h : view.Shown) (nickname : String) (color : ColorChoice) (text : String)
    (reading : Reading latest) : (view.pushChat nickname color text reading).Shown := by
  refine h.pushLine fun expiresAt => ⟨?_, by simp, ?_⟩
  · rw [containsControlChar_string_append, containsControlChar_string_append,
      sanitizeForDisplay_safe, sanitizeForDisplay_safe]
    decide
  · intro span hspan
    cases hspan
    exact ⟨_, rfl⟩

theorem Shown.notice (h : view.Shown) (text : String) (clock : Clock latest) :
    (view.notice text clock).Shown := by
  have hsafe := sanitizeForDisplay_safe text
  have hkept : ({ view with
      notices := view.notices.push ⟨sanitizeForDisplay text, (clock 0).timestamp⟩ } :
        RoomView latest).Shown := by
    refine ⟨h.lines, fun notice hmem => ?_, h.capacity,
      (NoticeBuffer.capacity_push _ _).trans h.noticeCapacity⟩
    obtain hmem | rfl := NoticeBuffer.mem_push hmem
    · exact h.notices notice hmem
    · exact hsafe
  refine hkept.pushPlain ?_ (by simp)
  rw [containsControlChar_string_append, hsafe]
  decide

theorem Shown.showRequests (h : view.Shown) (requests : List RequestLine) (clock : Clock latest) :
    (view.showRequests requests clock).Shown :=
  Shown.foldl (fun _ _ _ h => h.notice _ _) (h.same rfl rfl)

theorem Shown.setTimeout (h : view.Shown) (interval : Option Nat) :
    (view.setTimeout interval).Shown where
  lines := by
    intro line hmem
    obtain ⟨before, hbefore, rfl⟩ := List.mem_map.mp hmem
    have hline := h.lines before hbefore
    exact ⟨hline.safe, hline.chat, hline.named⟩
  notices := h.notices
  capacity := h.capacity
  noticeCapacity := h.noticeCapacity

theorem Shown.tick (h : view.Shown) (now : Instant latest) : (view.tick now).Shown := by
  by_cases hnone : view.messageTimeoutInterval.isNone = true
  · refine h.same ?_ rfl
    simp [RoomView.tick, Veilroom.RoomView.tickMessageTimeout, hnone]
  · have hmessages : (view.tick now).messages = (view.messages.expireDue now).1 := by
      simp [RoomView.tick, Veilroom.RoomView.tickMessageTimeout, hnone]
    refine ⟨fun line hmem => ?_, h.notices, ?_, h.noticeCapacity⟩
    · rw [hmessages] at hmem
      exact h.lines line (List.mem_of_mem_filter hmem)
    · rw [hmessages]
      exact h.capacity

theorem Shown.clear (h : view.Shown) : view.clear.Shown where
  lines _ hmem := nomatch hmem
  notices := h.notices
  capacity := h.capacity
  noticeCapacity := h.noticeCapacity

theorem Touched.shown (h : Touched view view') (hview : view.Shown) : view'.Shown := by
  induction h with
  | untouched => exact hview
  | controls _ _ _ _ ih => exact ih.same rfl rfl
  | clear _ ih => exact ih.clear
  | system _ _ _ ih => exact ih.pushPlain (sanitizeForDisplay_safe _) (by simp)
  | palette color _ _ ih => exact ih.pushPlain (by cases color <;> decide) (by simp)

theorem Shown.step (h : view.Shown) (input : ViewInput latest) : (view.step input).1.Shown := by
  cases input with
  | key key clock => exact (onKey_touched view key clock).shown h
  | chat nickname color text reading => exact h.pushChat nickname color text reading
  | own text reading => exact h.pushChat _ _ text reading
  | system _ _ | muted _ _ | error _ _ =>
      exact h.pushPlain (sanitizeForDisplay_safe _) (by simp)
  | notice text clock => exact h.notice text clock
  | requests requests clock => exact h.showRequests requests clock
  | timeout interval => exact h.setTimeout interval
  | tick now => exact h.tick now
  | paste _ | members _ | invitation _ | status _ => exact h.same rfl rfl

variable {isHost : Bool} {nickname : String} {past : Past latest}

theorem shown_of_run (run : Run (.new isHost nickname) past view) : view.Shown := by
  have hnew : (.new isHost nickname : RoomView latest).Shown :=
    ⟨nofun, nofun, rfl, rfl⟩
  exact run.invariant (fun _ view => view.Shown) hnew fun _ _ input _ h _ => h.step input

/-- What is pushed is the last line. -/
theorem getLast?_push {buffer : RenderBuffer latest} (h : buffer.capacity = 256)
    (line : MessageLine latest) : (buffer.push line).lines.getLast? = some line := by
  unfold RenderBuffer.push
  rw [dif_neg (by omega)]
  split <;> exact List.getLast?_concat

/-- Over any keys, pastes and updates: every line and every notice that is kept is safe for the
terminal, however hostile the text it was made of; only chat lines name a sender, and they begin
with that name; at most 256 lines and 32 notices are kept; and a chat message of a valid nickname
and a valid text is shown as it is. -/
theorem terminal_safe (run : Run (.new isHost nickname) past view) :
    (∀ line ∈ view.messages.lines, line.Displayable) ∧
    (∀ notice ∈ view.notices.notices, containsControlChar notice.text.toList = false) ∧
    view.messages.lines.length ≤ 256 ∧ view.notices.notices.length ≤ 32 ∧
    ∀ sender color text reading, containsControlChar sender.toList = false →
      containsControlChar text.toList = false →
      ∃ line, (view.pushChat sender color text reading).messages.lines.getLast? = some line ∧
        line.text = sender ++ ": " ++ text ∧ line.nickname = some ⟨sender, color⟩ := by
  have hshown := shown_of_run run
  refine ⟨hshown.lines, hshown.notices, ?_, ?_, ?_⟩
  · exact hshown.capacity ▸ view.messages.bounded
  · exact hshown.noticeCapacity ▸ view.notices.bounded
  · intro sender color text reading hsender htext
    refine ⟨_, getLast?_push hshown.capacity _, ?_, ?_⟩
    · rw [sanitizeForDisplay_of_safe hsender, sanitizeForDisplay_of_safe htext]
    · rw [sanitizeForDisplay_of_safe hsender]

theorem terminal_safe_greeting :
    ∃ line, ((Machine.exec RoomView.step greeting [] (.participant "alice")).2.pushChat "bob" .red
        "hi" ⟨⟨0⟩, 0⟩).messages.lines.getLast? = some line ∧
      line.text = "bob" ++ ": " ++ "hi" ∧ line.nickname = some ⟨"bob", .red⟩ :=
  (terminal_safe greeting_run).2.2.2.2 "bob" .red "hi" ⟨⟨0⟩, 0⟩ (by decide) (by decide)

/-! ### Who is named -/

/-- Every line of `view'` that names somebody was a line of `view`, whenever it expires. -/
def Quiet (view view' : RoomView latest) : Prop :=
  ∀ line ∈ view'.messages.lines, line.nickname.isSome →
    ∃ before ∈ view.messages.lines, before.undated = line.undated

theorem Quiet.same (h : view'.messages = view.messages) : Quiet view view' :=
  fun line hline _ => ⟨line, h ▸ hline, rfl⟩

theorem Quiet.trans {view'' : RoomView latest} (h : Quiet view view') (h' : Quiet view' view'') :
    Quiet view view'' := by
  intro line hline hnamed
  obtain ⟨later, hlater, heq⟩ := h' line hline hnamed
  have hnickname : later.nickname = line.nickname := (congrArg MessageLine.nickname heq :)
  obtain ⟨before, hbefore, heq'⟩ := h later hlater (hnickname ▸ hnamed)
  exact ⟨before, hbefore, heq'.trans heq⟩

/-- A line that is pushed, or one that was there. -/
theorem mem_pushLine {text : String} {style : LineStyle} {nickname : Option NicknameSpan}
    {reading : Reading latest} {line : MessageLine latest}
    (h : line ∈ (view.pushLine text style nickname reading).messages.lines) :
    line ∈ view.messages.lines ∨ line.text = text ∧ line.nickname = nickname := by
  have hpush := RoomView.lines_push view.messages
    ⟨text, style, nickname, reading.timestamp, reading.createdAt,
      view.messageTimeoutInterval.bind fun seconds =>
        reading.createdAt.checkedAdd (Duration.fromSecs seconds)⟩
  obtain ⟨kept, hkept, hlines | hlines⟩ := hpush
  · have hmem : line ∈ kept ++ _ := hlines ▸ h
    obtain hmem | hmem := List.mem_append.mp hmem
    · exact .inl (hkept.mem hmem)
    · rw [List.mem_singleton.mp hmem]
      exact .inr ⟨rfl, rfl⟩
  · have hmem : line ∈ [] := hlines ▸ h
    cases hmem

theorem pushLine_quiet (view : RoomView latest) (text : String) (style : LineStyle)
    (reading : Reading latest) : Quiet view (view.pushLine text style none reading) := by
  intro line hline hnamed
  obtain hline | ⟨-, hnone⟩ := mem_pushLine hline
  · exact ⟨line, hline, rfl⟩
  · rw [hnone] at hnamed
    cases hnamed

theorem notice_quiet (view : RoomView latest) (text : String) (clock : Clock latest) :
    Quiet view (view.notice text clock) :=
  (Quiet.same rfl).trans (pushLine_quiet _ _ _ _)

theorem clear_quiet (view : RoomView latest) : Quiet view view.clear := by
  intro line hline
  cases hline

theorem setTimeout_quiet (view : RoomView latest) (interval : Option Nat) :
    Quiet view (view.setTimeout interval) := by
  intro line hline _
  obtain ⟨before, hbefore, rfl⟩ := List.mem_map.mp hline
  exact ⟨before, hbefore, rfl⟩

theorem tick_quiet (view : RoomView latest) (now : Instant latest) :
    Quiet view (view.tick now) := by
  intro line hline _
  refine ⟨line, ?_, rfl⟩
  simp only [RoomView.tick, Veilroom.RoomView.tickMessageTimeout] at hline
  split at hline
  · exact hline
  · exact List.mem_of_mem_filter hline

theorem showRequests_quiet (view : RoomView latest) (requests : List RequestLine)
    (clock : Clock latest) : Quiet view (view.showRequests requests clock) := by
  unfold RoomView.showRequests
  dsimp only
  generalize List.zipIdx _ = lines
  have hset : Quiet view { view with requests } := .same rfl
  generalize ({ view with requests } : RoomView latest) = shown at hset
  induction lines generalizing shown with
  | nil => exact hset
  | cons entry lines ih => exact ih _ (hset.trans (notice_quiet _ _ _))

theorem Touched.quiet (h : Touched view view') : Quiet view view' := by
  induction h with
  | untouched => exact .same rfl
  | controls _ _ _ _ ih => exact ih.trans (.same rfl)
  | clear _ ih => exact ih.trans (clear_quiet _)
  | system _ _ _ ih | palette _ _ _ ih => exact ih.trans (pushLine_quiet _ _ _ _)

end RoomView

/-- Whether a line is what an input shows of somebody. -/
def ViewInput.Says (own : String) (line : MessageLine latest) : ViewInput latest → Prop
  | .chat nickname _ text _ => line.Says nickname text
  | .own text _ => line.Says own text
  | _ => False

theorem ViewInput.Says.of_undated {own : String} {line before : MessageLine latest}
    {input : ViewInput latest} (h : input.Says own before) (heq : before.undated = line.undated) :
    input.Says own line := by
  cases input with
  | chat _ _ _ _ | own _ _ => exact MessageLine.Says.of_undated h heq
  | _ => exact h

namespace RoomView
variable {view : RoomView latest} {isHost : Bool} {nickname : String} {past : Past latest}

theorem mem_pushChat {sender text : String} {color : ColorChoice} {reading : Reading latest}
    {line : MessageLine latest}
    (h : line ∈ (view.pushChat sender color text reading).messages.lines) :
    line ∈ view.messages.lines ∨ line.Says sender text := by
  refine (mem_pushLine h).imp_right fun ⟨htext, hnickname⟩ => ⟨htext, ?_⟩
  rw [hnickname]
  rfl

/-- A line that names somebody was there before, or is shown as what that member says. -/
theorem step_named (view : RoomView latest) (input : ViewInput latest) {line : MessageLine latest}
    (hline : line ∈ (view.step input).1.messages.lines) (hnamed : line.nickname.isSome) :
    (∃ before ∈ view.messages.lines, before.undated = line.undated) ∨
      input.Says view.ownNickname line := by
  cases input with
  | chat sender color text reading =>
      exact (mem_pushChat hline).imp_left fun hmem => ⟨line, hmem, rfl⟩
  | own text reading =>
      exact (mem_pushChat hline).imp_left fun hmem => ⟨line, hmem, rfl⟩
  | key key clock => exact .inl ((onKey_touched view key clock).quiet line hline hnamed)
  | system _ _ | muted _ _ | error _ _ =>
      exact .inl (pushLine_quiet view _ _ _ line hline hnamed)
  | notice text clock => exact .inl (notice_quiet view text clock line hline hnamed)
  | requests requests clock =>
      exact .inl (showRequests_quiet view requests clock line hline hnamed)
  | timeout interval => exact .inl (setTimeout_quiet view interval line hline hnamed)
  | tick now => exact .inl (tick_quiet view now line hline hnamed)
  | paste _ | members _ | invitation _ | status _ =>
      exact .inl (Quiet.same rfl line hline hnamed)

theorem step_ownNickname (view : RoomView latest) (input : ViewInput latest) :
    (view.step input).1.ownNickname = view.ownNickname := by
  cases input with
  | key key clock => exact (onKey_sameRoom view key clock).ownNickname
  | requests requests clock =>
      exact List.foldlRecOn
        (motive := fun shown : RoomView latest => shown.ownNickname = view.ownNickname) _ _ rfl
        fun _ h _ _ => h
  | _ => rfl

/-- Whoever is named on a screen said so, through an input of its past. -/
theorem named_of_run (run : Run (.new isHost nickname) past view) :
    view.ownNickname = nickname ∧ ∀ line ∈ view.messages.lines, line.nickname.isSome →
      ∃ entry ∈ past, entry.input.Says nickname line := by
  refine run.invariant (fun past view => view.ownNickname = nickname ∧
    ∀ line ∈ view.messages.lines, line.nickname.isSome →
      ∃ entry ∈ past, entry.input.Says nickname line) ⟨rfl, nofun⟩ ?_
  rintro past view input - ⟨hown, hlines⟩ -
  refine ⟨(step_ownNickname view input).trans hown, fun line hline hnamed => ?_⟩
  obtain ⟨before, hbefore, heq⟩ | hsays := step_named view input hline hnamed
  · have hnickname : before.nickname = line.nickname := (congrArg MessageLine.nickname heq :)
    obtain ⟨entry, hentry, hsays⟩ := hlines before hbefore (hnickname ▸ hnamed)
    exact ⟨entry, .tail _ hentry, hsays.of_undated heq⟩
  · exact ⟨_, .head _, hown ▸ hsays⟩

end RoomView
end Ui
end Veilroom

