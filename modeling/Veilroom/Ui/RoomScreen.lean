import Veilroom.Ui.CommandLanguage
import Veilroom.Ui.RoomView

/-!
What the room screen hands to the supervisor over any keys, pastes and updates, and what can be
typed into it.
-/
namespace Veilroom

namespace TextField
variable {maxBytes : Nat} {field : TextField maxBytes}

@[simp] theorem complete_delete : field.delete.complete = field.complete := by
  unfold delete
  split <;> rfl

@[simp] theorem complete_moveTo (count : Nat) : (field.moveTo count).complete = field.complete := by
  unfold moveTo
  split <;> rfl

theorem text_toList : field.text.toList = field.before ++ field.after := String.toList_ofList

theorem text_isEmpty : field.text.isEmpty = true ↔ field.before ++ field.after = [] := by
  rw [String.isEmpty_iff, ← String.toList_eq_nil_iff, text_toList]

theorem eq_new (hcomplete : field.complete = false) (hempty : field.before ++ field.after = []) :
    field = .new := by
  obtain ⟨before, after, complete, fits, safe⟩ := field
  obtain ⟨rfl, rfl⟩ := List.append_eq_nil_iff.mp hempty
  cases hcomplete
  rfl

/-- Whether or not it hands its text out, an open line is empty once it was submitted. -/
theorem submit_clears (hcomplete : field.complete = false) :
    (if field.submit.2 then .new else field.submit.1) = .new := by
  unfold submit
  rw [hcomplete, if_neg Bool.false_ne_true]
  split
  · rename_i hempty
    exact eq_new hcomplete hempty
  · rfl

end TextField

/-- Whether a screen of the host or of a member hands a command over as a command. The others are
answered on the screen itself, or are actions of their own. This is no check of who may give a
command: a member's screen hands over `/kick` and `/newid`, and the member's session refuses
them. -/
def SlashCommand.reaches (isHost : Bool) : SlashCommand → Bool
  | .help | .exit | .leave | .colorList | .copy | .clear => false
  | .timeout _ => isHost
  | .timeoutRequest _ => !isHost
  | _ => true

namespace Ui
namespace RoomView
variable {latest : Nat} {view view' view'' : RoomView latest}

/-! ### What an update leaves alone -/

/-- The keys do the same on both screens, and nothing was typed. -/
structure SameControls (view view' : RoomView latest) : Prop where
  isHost : view'.isHost = view.isHost
  invitation : view'.invitation = view.invitation
  input : view'.input = view.input

theorem SameControls.refl (view : RoomView latest) : SameControls view view := ⟨rfl, rfl, rfl⟩

theorem SameControls.trans (h : SameControls view view') (h' : SameControls view' view'') :
    SameControls view view'' :=
  ⟨h'.isHost.trans h.isHost, h'.invitation.trans h.invitation, h'.input.trans h.input⟩

theorem SameControls.foldl {α : Type} {update : RoomView latest → α → RoomView latest}
    (h : ∀ view x, SameControls view (update view x)) (xs : List α) (view : RoomView latest) :
    SameControls view (xs.foldl update view) := by
  induction xs generalizing view with
  | nil => exact .refl view
  | cons x xs ih => exact (h view x).trans (ih _)

theorem pushLine_controls (view : RoomView latest) (text : String) (style : LineStyle)
    (nickname : Option NicknameSpan) (reading : Reading latest) :
    SameControls view (view.pushLine text style nickname reading) := ⟨rfl, rfl, rfl⟩

theorem notice_controls (view : RoomView latest) (text : String) (clock : Clock latest) :
    SameControls view (view.notice text clock) := ⟨rfl, rfl, rfl⟩

theorem pushColorList_controls (view : RoomView latest) (clock : Clock latest) :
    SameControls view (view.pushColorList clock) :=
  .foldl (fun _ _ => pushLine_controls ..) _ view

theorem showRequests_controls (view : RoomView latest) (requests : List RequestLine)
    (clock : Clock latest) : SameControls view (view.showRequests requests clock) := by
  have hset : SameControls view { view with requests } := ⟨rfl, rfl, rfl⟩
  exact hset.trans (.foldl (fun _ _ => notice_controls ..) _ _)

theorem commandAction_controls (view : RoomView latest) (command : SlashCommand)
    (clock : Clock latest) : SameControls view (view.commandAction command clock).1 := by
  cases command with
  | colorList => exact pushColorList_controls view clock
  | timeout _ | timeoutRequest _ | leave =>
      unfold commandAction
      dsimp only
      split <;> exact .refl view
  | _ => exact ⟨rfl, rfl, rfl⟩

theorem lineAction_controls (view : RoomView latest) (text : String) (clock : Clock latest) :
    SameControls view (view.lineAction text clock).1 := by
  unfold lineAction
  split
  · split <;> exact .refl view
  · exact commandAction_controls ..
  · exact .refl view

/-! ### The input line -/

/-- The line can be typed on: it is never left submitted. -/
def Open (view : RoomView latest) : Prop := view.input.complete = false

theorem submitLine_input (h : view.Open) : view.submitLine.input = .new :=
  TextField.submit_clears h

theorem onKey_open (h : view.Open) (key : RoomKey) (clock : Clock latest) :
    (view.onKey key clock).1.Open := by
  cases key with
  | enter =>
      have hcleared : view.submitLine.Open := by
        rw [Open, submitLine_input h]
        rfl
      unfold onKey
      dsimp only
      split
      · exact hcleared
      · rw [Open, (lineAction_controls ..).input]
        exact hcleared
  | backspace => exact (Veilroom.TextField.complete_backspace _).trans h
  | delete => exact Veilroom.TextField.complete_delete.trans h
  | left | right | home | «end» => exact (Veilroom.TextField.complete_moveTo _).trans h
  | char ch modifiers =>
      unfold onKey
      dsimp only
      split
      · exact h
      split
      · unfold toggleHostMemberView
        split <;> exact h
      split
      · exact h
      split
      · exact (Veilroom.TextField.complete_insertChar _ ch).trans h
      · exact h
  | esc => rfl
  | other => exact h

/-! ### Actions -/

end RoomView

/-- What a screen of the host or of a member may hand over. -/
def RoomUiAction.Authorised (isHost : Bool) (invitation : Option String) : RoomUiAction → Prop
  | .chat text => isHost = false ∧ text ≠ "" ∧ validateChatText text Limits.default = .ok ()
  | .command typed => typed.WellFormed ∧ typed.reaches isHost = true
  | .leave => isHost = false
  | .copyInvitation uri => invitation = some uri
  | .error _ | .exit => True

theorem validateChatText_ofList {line : List Char} (hsafe : containsControlChar line = false)
    (hfits : Utf8.size line ≤ roomInputMaxBytes) :
    validateChatText (String.ofList line) Limits.default = .ok () := by
  unfold validateChatText
  rw [String.toList_ofList, hsafe, if_neg Bool.false_ne_true, Utf8.utf8ByteSize_ofList]
  exact if_neg (Nat.not_lt.mpr hfits)

namespace RoomView
variable {latest : Nat} {view : RoomView latest} {action : RoomUiAction}

theorem copyInvitation_authorised (view : RoomView latest) :
    view.copyInvitation.Authorised view.isHost view.invitation := by
  unfold copyInvitation
  split
  · rename_i uri huri
    exact huri
  · trivial

theorem commandAction_authorised {command : SlashCommand} {clock : Clock latest}
    (hwell : command.WellFormed) (h : (view.commandAction command clock).2 = some action) :
    action.Authorised view.isHost view.invitation := by
  cases command with
  | help | colorList | clear => cases h
  | copy =>
      cases h
      exact copyInvitation_authorised view
  | exit =>
      cases h
      trivial
  | leave =>
      unfold commandAction at h
      dsimp only at h
      split at h <;> cases h
      · trivial
      · rename_i hhost
        exact (Bool.not_eq_true _).mp hhost
  | timeout interval =>
      unfold commandAction at h
      dsimp only at h
      split at h <;> cases h
      · exact ⟨hwell, by assumption⟩
      · trivial
  | timeoutRequest seconds =>
      unfold commandAction at h
      dsimp only at h
      split at h <;> cases h
      · trivial
      · rename_i hhost
        refine ⟨hwell, ?_⟩
        rw [SlashCommand.reaches, (Bool.not_eq_true _).mp hhost]
        rfl
  | _ =>
      cases h
      exact ⟨hwell, rfl⟩

/-- The text of a chat line is not longer than the line, and has no other characters. -/
theorem chat_sublist {line : List Char} {text : String} (h : Spells line (.chat text)) :
    text.toList.Sublist line := by
  cases h with
  | escaped rest =>
      rw [String.toList_ofList]
      exact List.sublist_cons_self _ _
  | plain | blank =>
      rw [String.toList_ofList]

theorem containsControlChar_sublist {text line : List Char} (h : text.Sublist line)
    (hsafe : containsControlChar line = false) : containsControlChar text = false := by
  rw [containsControlChar, List.any_eq_false] at hsafe ⊢
  exact fun c hc => hsafe c (h.subset hc)

theorem lineAction_authorised {line : List Char} {clock : Clock latest}
    (hsafe : containsControlChar line = false) (hfits : Utf8.size line ≤ roomInputMaxBytes)
    (h : (view.lineAction (String.ofList line) clock).2 = some action) :
    action.Authorised view.isHost view.invitation := by
  unfold lineAction at h
  split at h
  · rename_i chat hparsed
    have hspells := parseLine_eq_ok.mp hparsed
    have hsub := chat_sublist hspells
    split at h <;> cases h
    · trivial
    · rename_i hhost
      refine ⟨(Bool.not_eq_true _).mp hhost, wellFormed_of_spells hspells, ?_⟩
      have hchat := validateChatText_ofList (containsControlChar_sublist hsub hsafe)
        (Nat.le_trans (Utf8.size_le_of_sublist hsub) hfits)
      rwa [String.ofList_toList] at hchat
  · rename_i command hparsed
    exact commandAction_authorised (wellFormed_of_spells (parseLine_eq_ok.mp hparsed)) h
  · cases h
    trivial

theorem onKey_authorised {key : RoomKey} {clock : Clock latest}
    (h : (view.onKey key clock).2 = some action) :
    action.Authorised view.isHost view.invitation := by
  cases key with
  | enter =>
      unfold onKey at h
      dsimp only at h
      split at h
      · cases h
      · have hline : (view.submitLine.lineAction view.input.text clock).2 = some action := h
        have hauthorised : action.Authorised view.submitLine.isHost view.submitLine.invitation :=
          lineAction_authorised view.input.safe view.input.fits hline
        exact hauthorised
  | char ch modifiers =>
      unfold onKey at h
      dsimp only at h
      split at h
      · cases h
      split at h
      · cases h
      split at h
      · cases h
        exact copyInvitation_authorised view
      split at h <;> cases h
  | _ => cases h

/-! ### Runs -/

/-- The invitation the screen was last given. -/
def lastInvitation (past : Past latest) : Option String :=
  past.findSome? fun entry => match entry.input with
    | .invitation uri => some uri
    | _ => none

/-- What is known of a screen after a run. -/
structure Known (isHost : Bool) (past : Past latest) (view : RoomView latest) : Prop where
  isHost : view.isHost = isHost
  invitation : view.invitation = lastInvitation past
  isOpen : view.Open

variable {isHost : Bool} {nickname : String} {past : Past latest}

theorem Known.controls {entry} {view' : RoomView latest} (h : Known isHost past view)
    (hcontrols : SameControls view view')
    (hinput : lastInvitation (entry :: past) = lastInvitation past) :
    Known isHost (entry :: past) view' where
  isHost := hcontrols.isHost.trans h.isHost
  invitation := by rw [hcontrols.invitation, h.invitation, hinput]
  isOpen := by
    rw [Open, hcontrols.input]
    exact h.isOpen

theorem known_of_run (run : Run (.new isHost nickname) past view) : Known isHost past view := by
  have hnew : Known isHost [] (.new isHost nickname : RoomView latest) := by
    constructor <;> rfl
  refine run.invariant (fun past view => Known isHost past view) hnew ?_
  intro past view input _ h _
  cases input with
  | key key clock =>
      have hroom := onKey_sameRoom view key clock
      exact ⟨hroom.isHost.trans h.isHost, hroom.invitation.trans h.invitation,
        onKey_open h.isOpen key clock⟩
  | paste text =>
      exact ⟨h.isHost, h.invitation, (Veilroom.TextField.complete_insertText _ text).trans h.isOpen⟩
  | invitation uri => exact ⟨h.isHost, rfl, h.isOpen⟩
  | requests requests clock => exact h.controls (showRequests_controls view requests clock) rfl
  | _ => exact h.controls ⟨rfl, rfl, rfl⟩ rfl

/-- Over any keys, pastes and updates: the input line is never left submitted. A host's screen
hands over no chat, no leave and no `/timeoutreq`, a member's no `/timeout`, and neither hands over
as a command what it answers itself. A chat text is one that every receiver accepts, a command is
one that can be typed, and the invitation that is copied is the one last shown, in full. -/
theorem actions_authorised (run : Run (.new isHost nickname) past view) :
    view.isHost = isHost ∧ view.input.complete = false ∧
      ∀ newer older entry action, past = newer ++ entry :: older → entry.output = some action →
        action.Authorised isHost (lastInvitation older) := by
  have hknown := known_of_run run
  refine ⟨hknown.isHost, hknown.isOpen, ?_⟩
  rintro newer older entry action rfl haction
  obtain ⟨hrun, -, hstep, -⟩ := run.split
  have hbefore := known_of_run hrun
  have houtput : (entry.before.step entry.input).2 = some action := by
    rw [hstep]
    exact haction
  rw [← hbefore.isHost, ← hbefore.invitation]
  cases hinput : entry.input with
  | key key clock =>
      rw [hinput] at houtput
      exact onKey_authorised houtput
  | _ =>
      rw [hinput] at houtput
      cases houtput

/-- Two letters and Enter. -/
def greeting : List (ViewInput 0) :=
  [.key (.char 'h' .none) fun _ => ⟨⟨.last 86399⟩, .last 0⟩,
    .key (.char 'i' .none) fun _ => ⟨⟨.last 86399⟩, .last 0⟩,
    .key .enter fun _ => ⟨⟨.last 86399⟩, .last 0⟩]

theorem greeting_run :
    Run (.participant "alice") (Machine.exec step greeting [] (.participant "alice")).1
      (Machine.exec step greeting [] (.participant "alice")).2 :=
  Machine.Run.start.exec fun _ _ _ _ _ _ _ _ => trivial

theorem actions_authorised_greeting :
    (RoomUiAction.chat "hi").Authorised false none :=
  (actions_authorised greeting_run).2.2 [] _ _ _ rfl (by decide)

/-! ### Typing -/

/-- What a line of a screen can be taken as. -/
structure Typed (line : List Char) : Prop where
  safe : containsControlChar line = false
  fits : Utf8.size line ≤ roomInputMaxBytes

/-- Typing at the end of an open line adds to it, and does nothing else. -/
theorem typed_run {view₀ : RoomView latest} {line : List Char} (run : Run view₀ past view)
    (hopen : view.Open) (hend : view.input.after = [])
    (h : Typed (view.input.before ++ line)) (clock : Clock latest) :
    ∃ past' field, Run view₀ past' { view with input := field } ∧
      field.before = view.input.before ++ line ∧ field.after = [] ∧ field.complete = false := by
  induction line generalizing view past with
  | nil => exact ⟨past, view.input, run, (List.append_nil _).symm, hend, hopen⟩
  | cons ch line ih =>
      have hsafe : isUnsafeDisplayChar ch = false := by
        have hall := h.safe
        rw [containsControlChar, List.any_eq_false] at hall
        exact (Bool.not_eq_true _).mp (hall ch (by simp))
      have hroom : Utf8.size (view.input.before ++ view.input.after) + ch.utf8Size ≤
          roomInputMaxBytes := by
        have hfits := h.fits
        rw [Utf8.size_append, Utf8.size_cons] at hfits
        rw [hend, List.append_nil]
        omega
      have hrefused : ¬ (view.input.complete = true ∨ isUnsafeDisplayChar ch = true) := by
        rw [hopen, hsafe]
        simp
      have hinserted : (view.input.insertChar ch).before = view.input.before ++ [ch] ∧
          (view.input.insertChar ch).after = [] := by
        unfold Veilroom.TextField.insertChar
        rw [dif_neg hrefused, dif_neg (Nat.not_lt.mpr hroom)]
        exact ⟨rfl, hend⟩
      have hnext : Run view₀ _ (view.step (.key (.char ch .none) clock)).1 := run.step trivial
      have hkey : (view.step (.key (.char ch .none) clock)).1 =
          { view with input := view.input.insertChar ch } := by
        simp [step, onKey]
      rw [hkey] at hnext
      have hline : (view.input.insertChar ch).before ++ line =
          view.input.before ++ ch :: line := by
        rw [hinserted.1, List.append_assoc]
        rfl
      obtain ⟨past', field, hrun, hbefore, hafter, hcomplete⟩ :=
        ih hnext ((Veilroom.TextField.complete_insertChar _ ch).trans hopen) hinserted.2
          (by rw [hline]; exact h)
      exact ⟨past', field, hrun, hbefore.trans hline, hafter, hcomplete⟩

/-- A screen somebody can make hand out an action. -/
def Gives (latest : Nat) (isHost : Bool) (nickname : String) (action : RoomUiAction) : Prop :=
  ∃ (past : Past latest) (view : RoomView latest), Run (.new isHost nickname) past view ∧
    ∃ entry ∈ past, entry.output = some action

/-- What is typed into a new screen and entered is taken as what it spells. -/
theorem gives_typed {line : List Char} (h : Typed line) (hline : line ≠ []) (clock : Clock latest)
    (hanswer : ∀ view : RoomView latest, view.isHost = isHost → view.invitation = none →
      (view.lineAction (String.ofList line) clock).2 = some action) :
    Gives latest isHost nickname action := by
  have hstart : Run (.new isHost nickname : RoomView latest) [] (.new isHost nickname) := .start
  obtain ⟨past, field, hrun, hbefore, hafter, hcomplete⟩ := typed_run hstart rfl rfl h clock
  have hbefore : field.before = line := hbefore
  have htext : field.text = String.ofList line := by
    rw [Veilroom.TextField.text, hbefore, hafter, List.append_nil]
  have hnonempty : ¬ field.text.isEmpty = true := by
    rw [Veilroom.TextField.text_isEmpty, hbefore, hafter, List.append_nil]
    exact hline
  have henter : Run (.new isHost nickname) _
      (step { (.new isHost nickname : RoomView latest) with input := field }
        (.key .enter clock)).1 := hrun.step trivial
  refine ⟨_, _, henter, _, .head _, ?_⟩
  change (onKey _ .enter clock).2 = some action
  unfold onKey
  dsimp only
  rw [if_neg hnonempty, htext]
  exact hanswer _ rfl rfl

/-- A text that as a line would be read as a command, or as a text with one slash less. -/
def NeedsSlash (text : String) : Prop :=
  ∃ rest, text.toList = '/' :: rest ∧ (rest.head?.map isWhitespace).getD false = false

/-- A chat text was typed as a line. -/
theorem line_of_chat {input : ViewInput latest} {text : String}
    (h : (view.step input).2 = some (.chat text)) :
    ∃ line, Typed line ∧ Spells line (.chat text) := by
  cases input with
  | key key clock =>
      change (view.onKey key clock).2 = _ at h
      cases key with
      | enter =>
          unfold onKey at h
          dsimp only at h
          split at h
          · cases h
          refine ⟨_, ⟨view.input.safe, view.input.fits⟩, ?_⟩
          unfold lineAction at h
          split at h
          · rename_i chat hparsed
            split at h <;> cases h
            exact parseLine_eq_ok.mp hparsed
          · rename_i command _
            exfalso
            cases command with
            | copy =>
                unfold commandAction copyInvitation at h
                dsimp only at h
                split at h <;> cases h
            | timeout _ | timeoutRequest _ | leave =>
                unfold commandAction at h
                dsimp only at h
                split at h <;> cases h
            | _ => cases h
          · cases h
      | char ch modifiers =>
          unfold onKey copyInvitation at h
          dsimp only at h
          split at h
          · cases h
          split at h
          · cases h
          split at h
          · split at h <;> cases h
          split at h <;> cases h
      | _ => cases h
  | _ => cases h

/-- A text is on the line it was typed as, after a slash when it needs one. -/
theorem chat_fits {line : List Char} {text : String} (h : Spells line (.chat text)) :
    Utf8.size text.toList ≤ Utf8.size line ∧
      (NeedsSlash text → Utf8.size text.toList < Utf8.size line) := by
  refine ⟨Utf8.size_le_of_sublist (chat_sublist h), ?_⟩
  rintro ⟨rest, htext, hrest⟩
  cases h with
  | escaped rest' =>
      rw [String.toList_ofList, Utf8.size_cons '/' ('/' :: rest')]
      exact Nat.lt_add_of_pos_left (by decide)
  | plain rest' hfirst =>
      rw [String.toList_ofList] at htext
      exact absurd (List.cons.inj htext).1 hfirst
  | blank rest' hblank =>
      rw [String.toList_ofList] at htext
      obtain ⟨-, rfl⟩ := List.cons.inj htext
      cases hblank.symm.trans hrest

/-- A line for a text. -/
theorem exists_line {text : String} (hnonempty : text ≠ "")
    (hsafe : containsControlChar text.toList = false)
    (hfits : Utf8.size text.toList ≤ roomInputMaxBytes)
    (hslash : NeedsSlash text → Utf8.size text.toList < roomInputMaxBytes) :
    ∃ line, line ≠ [] ∧ Typed line ∧ Spells line (.chat text) := by
  by_cases hneeds : NeedsSlash text
  · obtain ⟨rest, htext, -⟩ := id hneeds
    refine ⟨'/' :: text.toList, List.cons_ne_nil _ _, ⟨?_, ?_⟩, ?_⟩
    · rw [containsControlChar, List.any_cons]
      exact Bool.or_eq_false_iff.mpr ⟨by decide, hsafe⟩
    · have hlt := hslash hneeds
      have hone : '/'.utf8Size = 1 := rfl
      rw [Utf8.size_cons, hone]
      omega
    · have hspells := Spells.escaped rest
      rwa [← htext, String.ofList_toList] at hspells
  · refine ⟨text.toList, ?_, ⟨hsafe, hfits⟩, ?_⟩
    · exact fun hnil => hnonempty (String.toList_eq_nil_iff.mp hnil)
    obtain ⟨first, rest, htext⟩ :=
      List.exists_cons_of_ne_nil fun hnil => hnonempty (String.toList_eq_nil_iff.mp hnil)
    by_cases hfirst : first = '/'
    · subst hfirst
      cases rest with
      | nil => exact absurd ⟨[], htext, rfl⟩ hneeds
      | cons second rest =>
          by_cases hblank : isWhitespace second = true
          · have hspells := Spells.blank rest hblank
            rwa [← htext, String.ofList_toList] at hspells
          · exact absurd ⟨_, htext, (Bool.not_eq_true _).mp hblank⟩ hneeds
    · have hspells := Spells.plain rest hfirst
      rwa [← htext, String.ofList_toList] at hspells

theorem validateChatText_eq_ok {text : String} :
    validateChatText text Limits.default = .ok () ↔
      containsControlChar text.toList = false ∧ Utf8.size text.toList ≤ roomInputMaxBytes := by
  have hsize : text.utf8ByteSize = Utf8.size text.toList := by
    rw [← Utf8.utf8ByteSize_ofList, String.ofList_toList]
  unfold validateChatText
  rw [hsize]
  constructor
  · intro h
    split at h
    · cases h
    split at h
    · cases h
    · rename_i hsafe hfits
      exact ⟨(Bool.not_eq_true _).mp hsafe, Nat.not_lt.mp hfits⟩
  · intro h
    rw [h.1, if_neg Bool.false_ne_true]
    exact if_neg (Nat.not_lt.mpr h.2)

/-- What can be said and done from a screen. A participant can send as chat exactly the texts that
validate, but for the empty one and for the longest of those that need a slash before them; a host
can send none. Every well-formed command that the screen hands over as a command and that fits on
the line can be given; those the screen answers itself, and `/leave`, `/exit` and `/copy`, are not
among them. -/
theorem sayable (isHost : Bool) (nickname : String) :
    (∀ text, Gives latest isHost nickname (.chat text) ↔
      isHost = false ∧ text ≠ "" ∧ validateChatText text Limits.default = .ok () ∧
        (NeedsSlash text → Utf8.size text.toList < roomInputMaxBytes)) ∧
    ∀ command : SlashCommand, command.WellFormed → command.reaches isHost = true →
      Typed (ParsedLine.command command).toLine →
        Gives latest isHost nickname (.command command) := by
  let clock : Clock latest := fun _ => ⟨⟨0⟩, 0⟩
  constructor
  · intro text
    constructor
    · rintro ⟨past, view, run, entry, hentry, haction⟩
      obtain ⟨newer, older, rfl⟩ := List.append_of_mem hentry
      obtain ⟨hrun, -, hstep, -⟩ := run.split
      have houtput : (entry.before.step entry.input).2 = some (.chat text) := by
        rw [hstep]
        exact haction
      have hauthorised : RoomUiAction.Authorised isHost entry.before.invitation (.chat text) := by
        rw [← (known_of_run hrun).isHost]
        cases hinput : entry.input with
        | key key clock =>
            rw [hinput] at houtput
            exact onKey_authorised houtput
        | _ =>
            rw [hinput] at houtput
            cases houtput
      obtain ⟨line, htyped, hspells⟩ := line_of_chat houtput
      refine ⟨hauthorised.1, hauthorised.2.1, hauthorised.2.2, fun hneeds => ?_⟩
      exact Nat.lt_of_lt_of_le ((chat_fits hspells).2 hneeds) htyped.fits
    · rintro ⟨hmember, hnonempty, hvalid, hslash⟩
      obtain ⟨hsafe, hfits⟩ := validateChatText_eq_ok.mp hvalid
      obtain ⟨line, hline, htyped, hspells⟩ := exists_line hnonempty hsafe hfits hslash
      refine gives_typed htyped hline clock fun view hrole _ => ?_
      unfold lineAction
      rw [parseLine_of_spells hspells]
      dsimp only
      rw [hrole, hmember]
      rfl
  · intro command hwell hreaches htyped
    refine gives_typed htyped (List.cons_ne_nil _ _) clock fun view hrole _ => ?_
    unfold lineAction
    have hspells : Spells (ParsedLine.command command).toLine (.command command) :=
      spells_toLine hwell
    rw [parseLine_of_spells hspells]
    dsimp only
    cases command with
    | timeout _ | timeoutRequest _ =>
        unfold commandAction
        dsimp only
        rw [hrole]
        cases isHost <;> first | rfl | cases hreaches
    | help | exit | leave | colorList | copy | clear => cases hreaches
    | _ => rfl

end RoomView
end Ui
end Veilroom
