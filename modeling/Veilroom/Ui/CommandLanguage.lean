import Veilroom.Ui.Command
import Veilroom.Uri.Language

/-!
The language of the lines a user types: the relation that `parse_line` decides, what its errors
name, and a printer that it reads back.
-/
namespace Veilroom

/-! ### The language -/

/-- The commands that take no argument. -/
def bareCommands : List (String × SlashCommand) :=
  [("help", .help), ("exit", .exit), ("leave", .leave), ("list", .list), ("newid", .newId),
    ("reqon", .reqOn), ("reqoff", .reqOff), ("requests", .requests), ("copy", .copy),
    ("clear", .clear)]

/-- An argument of text: there is one, and it is safe to display. -/
structure IsArgument (args : List Char) : Prop where
  nonempty : args ≠ []
  safe : containsControlChar args = false

/-- An argument that is the number of a member or a request. -/
structure IsId (args : List Char) (id : Nat) : Prop where
  numeral : Uri.Numeral args id
  lt : id < 2 ^ 64

/-- An argument that is a kick target: a nickname is one that is not all digits. -/
inductive IsTarget (args : List Char) : KickTarget → Prop
  | id {id : MemberId} : IsId args id → IsTarget args (.id id)
  | nickname : IsArgument args → (∃ c ∈ args, c.isDigit = false) →
      IsTarget args (.nickname (String.ofList args))

/-- An argument that is a lifetime; a plus sign may stand before its digits. -/
structure IsLifetime (args : List Char) (seconds : Nat) : Prop where
  numeral : ∃ digits, (args = digits ∨ args = '+' :: digits) ∧ Uri.Numeral digits seconds
  pos : 1 ≤ seconds
  le : seconds ≤ maxMessageTimeoutSeconds

/-- What a command word with its argument stands for. -/
inductive Means : String → List Char → SlashCommand → Prop
  | bare {name : String} {command : SlashCommand} : (name, command) ∈ bareCommands →
      Means name [] command
  | color (color : ColorChoice) : Means "color" color.name.toList (.color color)
  | colorList : Means "color" "list".toList .colorList
  | timeoutOff : Means "timeout" "off".toList (.timeout none)
  | timeout {args : List Char} {seconds : Nat} : IsLifetime args seconds →
      Means "timeout" args (.timeout (some seconds))
  | timeoutRequest {args : List Char} {seconds : Nat} : IsLifetime args seconds →
      Means "timeoutreq" args (.timeoutRequest seconds)
  | whois {args : List Char} : IsArgument args → Means "whois" args (.whois (String.ofList args))
  | kick {args : List Char} {target : KickTarget} : IsTarget args target →
      Means "kick" args (.kick target)
  | accept {args : List Char} {id : RequestId} : IsId args id → Means "accept" args (.accept id)
  | reject {args : List Char} {id : RequestId} : IsId args id → Means "reject" args (.reject id)

/-- The lines that mean something. A command word follows its slash at once, and blanks set its
argument off. -/
inductive Spells : List Char → ParsedLine → Prop
  | escaped (rest : List Char) : Spells ('/' :: '/' :: rest) (.chat (String.ofList ('/' :: rest)))
  | plain {first : Char} (rest : List Char) : first ≠ '/' →
      Spells (first :: rest) (.chat (String.ofList (first :: rest)))
  | blank {second : Char} (rest : List Char) : isWhitespace second = true →
      Spells ('/' :: second :: rest) (.chat (String.ofList ('/' :: second :: rest)))
  | command {name : String} {blanks args : List Char} {command : SlashCommand} :
      Means name args command → blanks.all isWhitespace = true → (args ≠ [] → blanks ≠ []) →
      (args.head?.map isWhitespace).getD false = false →
      Spells ('/' :: name.toList ++ blanks ++ args) (.command command)

/-! ### Arguments -/

variable {args : List Char} {name : String}

private theorem map_eq_ok {ε α β : Type} {f : α → β} {x : Except ε α} {y : β} :
    x.map f = .ok y ↔ ∃ a, x = .ok a ∧ f a = y := by
  cases x with
  | error error => simp [Except.map]
  | ok a => simp [Except.map]

theorem isUnsafeDisplayChar_digit {c : Char} (h : c.isDigit = true) :
    isUnsafeDisplayChar c = false := by
  rw [Char.isDigit_iff_toNat] at h
  have hzero : '0'.toNat = 48 := rfl
  have hnine : '9'.toNat = 57 := rfl
  simp only [isUnsafeDisplayChar, isControl, isDangerousFormatChar, Bool.or_eq_false_iff,
    Bool.and_eq_false_iff, decide_eq_false_iff_not]
  omega

theorem containsControlChar_numeral {value : Nat} (h : Uri.Numeral args value) :
    containsControlChar args = false := by
  rw [containsControlChar, List.any_eq_false]
  intro c hc
  rw [isUnsafeDisplayChar_digit (h.digits c hc)]
  exact Bool.false_ne_true

theorem parseU64_eq_some {value : Nat} :
    parseU64 args = some value ↔
      (∃ digits, (args = digits ∨ args = '+' :: digits) ∧ Uri.Numeral digits value) ∧
        value < 2 ^ 64 := by
  have hunsigned (digits : List Char) :
      (if Uri.isAsciiDigits digits then Uri.parseUnsigned 64 digits else none) = some value ↔
        Uri.Numeral digits value ∧ value < 2 ^ 64 := by
    split
    · rename_i hdigits
      exact Uri.parseUnsigned_eq_some hdigits
    · rename_i hdigits
      constructor
      · intro h
        cases h
      · intro h
        exact absurd (Uri.isAsciiDigits_iff.mpr h.1.digits) hdigits
  have hplus : ¬ ∃ rest, Uri.Numeral ('+' :: rest) value := by
    intro h
    obtain ⟨rest, h⟩ := h
    exact Uri.Numeral.not_mem h (c := '+') (by decide) (.head _)
  unfold parseU64
  dsimp only
  rw [hunsigned]
  split
  · rename_i digit digits
    constructor
    · intro h
      exact ⟨⟨_, .inr rfl, h.1⟩, h.2⟩
    · intro h
      obtain ⟨⟨text, htext, hnumeral⟩, hlt⟩ := h
      obtain rfl | htext := htext
      · exact absurd ⟨_, hnumeral⟩ hplus
      · cases htext
        exact ⟨hnumeral, hlt⟩
  · rename_i hshape
    constructor
    · intro h
      exact ⟨⟨_, .inl rfl, h.1⟩, h.2⟩
    · intro h
      obtain ⟨⟨text, htext, hnumeral⟩, hlt⟩ := h
      obtain rfl | htext := htext
      · exact ⟨hnumeral, hlt⟩
      · cases text with
        | nil => exact absurd rfl hnumeral.nonempty
        | cons digit digits => exact absurd htext (hshape digit digits)

theorem noArgs_eq_ok {command command' : SlashCommand} :
    noArgs name args command = .ok command' ↔ args = [] ∧ command' = command := by
  unfold noArgs
  split
  · rename_i hempty
    simp [hempty, eq_comm]
  · rename_i hargs
    simp [hargs]

theorem parseSimpleArg_eq_ok {arg : List Char} :
    parseSimpleArg name args = .ok arg ↔ IsArgument args ∧ arg = args := by
  unfold parseSimpleArg
  split
  · rename_i hempty
    constructor
    · intro h
      cases h
    · intro h
      exact absurd hempty h.1.nonempty
  rename_i hargs
  split
  · rename_i hunsafe
    constructor
    · intro h
      cases h
    · intro h
      rw [h.1.safe] at hunsafe
      cases hunsafe
  · rename_i hsafe
    rw [Bool.not_eq_true] at hsafe
    constructor
    · intro h
      cases h
      exact ⟨⟨hargs, hsafe⟩, rfl⟩
    · intro h
      rw [h.2]

theorem isArgument_numeral {value : Nat} (h : Uri.Numeral args value) : IsArgument args :=
  ⟨h.nonempty, containsControlChar_numeral h⟩

theorem isArgument_color (color : ColorChoice) : IsArgument color.name.toList := by
  cases color <;> exact ⟨by decide, by decide⟩

theorem IsLifetime.isArgument {seconds : Nat} (h : IsLifetime args seconds) : IsArgument args := by
  obtain ⟨digits, hargs, hnumeral⟩ := h.numeral
  obtain rfl | rfl := hargs
  · exact isArgument_numeral hnumeral
  · have hsafe := containsControlChar_numeral hnumeral
    refine ⟨List.cons_ne_nil _ _, ?_⟩
    rw [containsControlChar, List.any_cons]
    exact Bool.or_eq_false_iff.mpr ⟨by decide, hsafe⟩

theorem parseColor_eq_ok {color : ColorChoice} :
    parseColor args = .ok color ↔ args = color.name.toList := by
  constructor
  · intro h
    unfold parseColor at h
    split at h
    · cases h
    rename_i arg harg
    obtain ⟨-, rfl⟩ := parseSimpleArg_eq_ok.mp harg
    rw [← String.toList_ofList (l := arg)]
    split at h <;> first | (rename_i hname; cases h; rw [hname]; rfl) | cases h
  · rintro rfl
    have harg : parseSimpleArg "color" color.name.toList = .ok color.name.toList :=
      parseSimpleArg_eq_ok.mpr ⟨isArgument_color color, rfl⟩
    rw [parseColor, harg]
    cases color <;> rfl

theorem parseTimeout_eq_ok {interval : Option Nat} :
    parseTimeout args = .ok interval ↔
      interval = none ∧ args = "off".toList ∨ ∃ seconds, interval = some seconds ∧
        IsLifetime args seconds := by
  have hoff : ∀ seconds, ¬ IsLifetime "off".toList seconds := by
    intro seconds h
    obtain ⟨digits, hargs, hnumeral⟩ := h.numeral
    obtain rfl | hargs := hargs
    · exact hnumeral.not_mem (c := 'o') (by decide) (.head _)
    · cases hargs
  constructor
  · intro h
    unfold parseTimeout at h
    split at h
    · cases h
    rename_i arg harg
    obtain ⟨-, rfl⟩ := parseSimpleArg_eq_ok.mp harg
    split at h
    · cases h
      exact .inl ⟨rfl, by assumption⟩
    split at h
    · cases h
    rename_i seconds hseconds
    split at h
    · cases h
    split at h
    · cases h
    rename_i hzero hmax
    cases h
    exact .inr ⟨seconds, rfl, (parseU64_eq_some.mp hseconds).1, Nat.pos_of_ne_zero hzero,
      Nat.not_lt.mp hmax⟩
  · rintro (⟨rfl, rfl⟩ | ⟨seconds, rfl, h⟩)
    · rfl
    · have harg : parseSimpleArg "timeout" args = .ok args :=
        parseSimpleArg_eq_ok.mpr ⟨h.isArgument, rfl⟩
      have hne : args ≠ "off".toList := by
        rintro rfl
        exact hoff seconds h
      have hlt : seconds < 2 ^ 64 := Nat.lt_of_le_of_lt h.le (by decide)
      have hzero : seconds ≠ 0 := Nat.pos_iff_ne_zero.mp h.pos
      simp only [parseTimeout, harg, parseU64_eq_some.mpr ⟨h.numeral, hlt⟩]
      rw [if_neg hne, if_neg hzero, if_neg (Nat.not_lt.mpr h.le)]

theorem parseTimeoutRequest_eq_ok {seconds : Nat} :
    parseTimeoutRequest args = .ok seconds ↔ IsLifetime args seconds := by
  constructor
  · intro h
    unfold parseTimeoutRequest at h
    split at h <;> cases h
    rename_i hparsed
    obtain ⟨hnone, -⟩ | ⟨seconds, heq, hlifetime⟩ := parseTimeout_eq_ok.mp hparsed
    · cases hnone
    · cases heq
      exact hlifetime
  · intro h
    rw [parseTimeoutRequest, parseTimeout_eq_ok.mpr (.inr ⟨seconds, rfl, h⟩)]

/-- A number that has to be all digits cannot start with a plus sign. -/
private theorem parseU64_digits {id : Nat} (hdigits : Uri.isAsciiDigits args = true) :
    parseU64 args = some id ↔ IsId args id := by
  rw [parseU64_eq_some]
  constructor
  · rintro ⟨⟨digits, hargs, hnumeral⟩, hlt⟩
    obtain rfl | rfl := hargs
    · exact ⟨hnumeral, hlt⟩
    · exact absurd (Uri.isAsciiDigits_iff.mp hdigits '+' (.head _)) (by decide)
  · intro h
    exact ⟨⟨args, .inl rfl, h.numeral⟩, h.lt⟩

theorem parseRequestId_eq_ok {id : RequestId} :
    parseRequestId name args = .ok id ↔ IsId args id := by
  constructor
  · intro h
    unfold parseRequestId at h
    split at h
    · cases h
    rename_i arg harg
    obtain ⟨-, rfl⟩ := parseSimpleArg_eq_ok.mp harg
    split at h
    · cases h
    rename_i hdigits
    rw [not_not] at hdigits
    split at h
    · cases h
    · rename_i hid
      cases h
      exact (parseU64_digits hdigits).mp hid
  · intro h
    have hdigits := Uri.isAsciiDigits_iff.mpr h.numeral.digits
    rw [parseRequestId, parseSimpleArg_eq_ok.mpr ⟨isArgument_numeral h.numeral, rfl⟩]
    dsimp only
    rw [if_neg (not_not.mpr hdigits), (parseU64_digits hdigits).mpr h]

theorem parseKickTarget_eq_ok {target : KickTarget} :
    parseKickTarget args = .ok target ↔ IsTarget args target := by
  constructor
  · intro h
    unfold parseKickTarget at h
    split at h
    · cases h
    rename_i arg harg
    obtain ⟨hargument, rfl⟩ := parseSimpleArg_eq_ok.mp harg
    split at h
    · rename_i hdigits
      split at h
      · cases h
      · rename_i hid
        cases h
        exact .id ((parseU64_digits hdigits).mp hid)
    · rename_i hdigits
      cases h
      rw [Uri.isAsciiDigits_iff] at hdigits
      push Not at hdigits
      obtain ⟨c, hc, hdigit⟩ := hdigits
      exact .nickname hargument ⟨c, hc, Bool.not_eq_true _ ▸ hdigit⟩
  · intro h
    cases h with
    | id h =>
        have hdigits := Uri.isAsciiDigits_iff.mpr h.numeral.digits
        rw [parseKickTarget, parseSimpleArg_eq_ok.mpr ⟨isArgument_numeral h.numeral, rfl⟩]
        dsimp only
        rw [if_pos hdigits, (parseU64_digits hdigits).mpr h]
    | nickname hargument hletter =>
        obtain ⟨c, hc, hletter⟩ := hletter
        have hdigits : ¬ Uri.isAsciiDigits args = true := by
          intro hdigits
          rw [Uri.isAsciiDigits_iff.mp hdigits c hc] at hletter
          cases hletter
        rw [parseKickTarget, parseSimpleArg_eq_ok.mpr ⟨hargument, rfl⟩]
        dsimp only
        rw [if_neg hdigits]

/-! ### Lines -/

theorem parseCommand_of_means {command : SlashCommand} (h : Means name args command) :
    parseCommand name args = .ok command := by
  cases h with
  | bare hmem =>
      simp only [bareCommands, List.mem_cons, Prod.mk.injEq, List.not_mem_nil, or_false] at hmem
      rcases hmem with h | h | h | h | h | h | h | h | h | h <;>
        (obtain ⟨rfl, rfl⟩ := h; rfl)
  | color color =>
      have hcolor : parseColor color.name.toList = .ok color := parseColor_eq_ok.mpr rfl
      have hlist : color.name.toList ≠ "list".toList := by cases color <;> decide
      rw [parseCommand, if_neg hlist, hcolor]
      rfl
  | colorList => rfl
  | timeoutOff => rfl
  | timeout h =>
      rw [parseCommand, parseTimeout_eq_ok.mpr (.inr ⟨_, rfl, h⟩)]
      rfl
  | timeoutRequest h =>
      rw [parseCommand, parseTimeoutRequest_eq_ok.mpr h]
      rfl
  | whois h =>
      rw [parseCommand, parseSimpleArg_eq_ok.mpr ⟨h, rfl⟩]
      rfl
  | kick h =>
      rw [parseCommand, parseKickTarget_eq_ok.mpr h]
      rfl
  | accept h =>
      rw [parseCommand, parseRequestId_eq_ok.mpr h]
      rfl
  | reject h =>
      rw [parseCommand, parseRequestId_eq_ok.mpr h]
      rfl

private theorem means_bare {command command' : SlashCommand}
    (hmem : (name, command) ∈ bareCommands) (h : noArgs name args command = .ok command') :
    Means name args command' := by
  obtain ⟨rfl, rfl⟩ := noArgs_eq_ok.mp h
  exact .bare hmem

theorem parseCommand_eq_ok {command : SlashCommand} :
    parseCommand name args = .ok command ↔ Means name args command := by
  refine ⟨fun h => ?_, parseCommand_of_means⟩
  unfold parseCommand at h
  split at h
  case h_11 =>
    split at h
    · rename_i hlist
      cases h
      rw [hlist]
      exact .colorList
    · obtain ⟨color, hcolor, rfl⟩ := map_eq_ok.mp h
      rw [parseColor_eq_ok.mp hcolor]
      exact .color color
  case h_12 =>
    obtain ⟨interval, hinterval, rfl⟩ := map_eq_ok.mp h
    obtain ⟨rfl, rfl⟩ | ⟨seconds, rfl, hlifetime⟩ := parseTimeout_eq_ok.mp hinterval
    · exact .timeoutOff
    · exact .timeout hlifetime
  case h_13 =>
    obtain ⟨seconds, hseconds, rfl⟩ := map_eq_ok.mp h
    exact .timeoutRequest (parseTimeoutRequest_eq_ok.mp hseconds)
  case h_14 =>
    obtain ⟨arg, harg, rfl⟩ := map_eq_ok.mp h
    obtain ⟨hargument, rfl⟩ := parseSimpleArg_eq_ok.mp harg
    exact .whois hargument
  case h_15 =>
    obtain ⟨target, htarget, rfl⟩ := map_eq_ok.mp h
    exact .kick (parseKickTarget_eq_ok.mp htarget)
  case h_16 =>
    obtain ⟨id, hid, rfl⟩ := map_eq_ok.mp h
    exact .accept (parseRequestId_eq_ok.mp hid)
  case h_17 =>
    obtain ⟨id, hid, rfl⟩ := map_eq_ok.mp h
    exact .reject (parseRequestId_eq_ok.mp hid)
  case h_18 => cases h
  all_goals exact means_bare (by decide) h

/-- A command word has letters only. -/
theorem Means.word {command : SlashCommand} (h : Means name args command) :
    name.toList ≠ [] ∧ '/' ∉ name.toList ∧ ∀ c ∈ name.toList, isWhitespace c = false := by
  have hword : name.toList ≠ [] ∧ '/' ∉ name.toList ∧
      (name.toList.all fun c => !isWhitespace c) = true := by
    cases h with
    | bare hmem =>
        simp only [bareCommands, List.mem_cons, Prod.mk.injEq, List.not_mem_nil, or_false] at hmem
        rcases hmem with h | h | h | h | h | h | h | h | h | h <;> (rw [h.1]; decide)
    | _ => decide
  refine ⟨hword.1, hword.2.1, fun c hc => ?_⟩
  simpa using List.all_eq_true.mp hword.2.2 c hc

private theorem takeWhile_dropWhile_append {α : Type} {test : α → Bool} {front back : List α}
    (hfront : ∀ x ∈ front, test x = true) (hback : (back.head?.map test).getD false = false) :
    (front ++ back).takeWhile test = front ∧ (front ++ back).dropWhile test = back := by
  induction front with
  | nil =>
      cases back with
      | nil => exact ⟨rfl, rfl⟩
      | cons x back =>
          have hx : test x = false := hback
          exact ⟨List.takeWhile_cons_of_neg (by simp [hx]),
            List.dropWhile_cons_of_neg (by simp [hx])⟩
  | cons x front ih =>
      have hx := hfront x (.head _)
      obtain ⟨htake, hdrop⟩ := ih fun y hy => hfront y (.tail _ hy)
      rw [List.cons_append, List.takeWhile_cons_of_pos hx, List.dropWhile_cons_of_pos hx, htake]
      exact ⟨rfl, hdrop⟩

private theorem head?_dropWhile {α : Type} (test : α → Bool) (l : List α) :
    ((l.dropWhile test).head?.map test).getD false = false := by
  induction l with
  | nil => rfl
  | cons x l ih =>
      by_cases hx : test x = true
      · rw [List.dropWhile_cons_of_pos hx]
        exact ih
      · rw [List.dropWhile_cons_of_neg hx]
        simpa using hx

/-- What `parse_line` takes apart: a word, the blanks after it and the rest. -/
theorem parse_parts {word blanks rest : List Char} (hword : ∀ c ∈ word, isWhitespace c = false)
    (hblanks : blanks.all isWhitespace = true) (hset : rest ≠ [] → blanks ≠ [])
    (hrest : (rest.head?.map isWhitespace).getD false = false) :
    (word ++ blanks ++ rest).takeWhile (!isWhitespace ·) = word ∧
      ((word ++ blanks ++ rest).dropWhile (!isWhitespace ·)).dropWhile isWhitespace = rest := by
  have hhead : ((blanks ++ rest).head?.map (!isWhitespace ·)).getD false = false := by
    cases blanks with
    | nil =>
        cases rest with
        | nil => rfl
        | cons c rest => exact absurd rfl (hset (List.cons_ne_nil _ _))
    | cons blank blanks =>
        rw [List.all_cons, Bool.and_eq_true] at hblanks
        simp [hblanks.1]
  have hnonblank : ∀ c ∈ word, (!isWhitespace c) = true := by
    intro c hc
    rw [hword c hc]
    rfl
  obtain ⟨htake, hdrop⟩ := takeWhile_dropWhile_append hnonblank hhead
  rw [List.append_assoc, htake, hdrop]
  exact ⟨rfl, (takeWhile_dropWhile_append (List.all_eq_true.mp hblanks) hrest).2⟩

/-! The branches of `parse_line`. -/

section
variable {line : String} {rest : List Char}

private theorem parseLine_escaped (hline : line.toList = '/' :: '/' :: rest) :
    parseLine line = .ok (.chat (String.ofList ('/' :: rest))) := by
  unfold parseLine
  rw [hline]
  rfl

private theorem parseLine_plain {first : Char} (hfirst : first ≠ '/')
    (hline : line.toList = first :: rest) : parseLine line = .ok (.chat line) := by
  unfold parseLine
  rw [hline]
  split
  · rename_i h
    cases h
  · rename_i h
    exact absurd (List.cons.inj h).1 hfirst
  · rename_i h
    exact absurd (List.cons.inj h).1 hfirst
  · rfl

private theorem parseLine_rest (hslash : ∀ more, rest ≠ '/' :: more)
    (hline : line.toList = '/' :: rest) :
    parseLine line =
      if (rest.head?.map isWhitespace).getD false then .ok (.chat line)
      else
        (parseCommand
          (String.ofList ((rest.dropWhile isWhitespace).takeWhile (!isWhitespace ·)))
          (((rest.dropWhile isWhitespace).dropWhile (!isWhitespace ·)).dropWhile
            isWhitespace)).map .command := by
  unfold parseLine
  rw [hline]
  split
  · rename_i h
    cases h
  · rename_i h
    exact absurd (List.cons.inj h).2 (hslash _)
  · rename_i h
    cases h
    rfl
  · rename_i hother
    exact absurd rfl (hother rest)

private theorem parseLine_blank (hslash : ∀ more, rest ≠ '/' :: more)
    (hblank : (rest.head?.map isWhitespace).getD false = true)
    (hline : line.toList = '/' :: rest) : parseLine line = .ok (.chat line) := by
  rw [parseLine_rest hslash hline, if_pos hblank]

private theorem parseLine_slash (hslash : ∀ more, rest ≠ '/' :: more)
    (hblank : (rest.head?.map isWhitespace).getD false = false)
    (hline : line.toList = '/' :: rest) :
    parseLine line = (parseCommand (String.ofList (rest.takeWhile (!isWhitespace ·)))
      ((rest.dropWhile (!isWhitespace ·)).dropWhile isWhitespace)).map .command := by
  have htrim : rest.dropWhile isWhitespace = rest := by
    cases rest with
    | nil => rfl
    | cons c rest => exact List.dropWhile_cons_of_neg (by simpa using hblank)
  rw [parseLine_rest hslash hline, hblank, if_neg Bool.false_ne_true, htrim]

end

private theorem not_slash_of_blank {second : Char} (h : isWhitespace second = true)
    (rest more : List Char) : second :: rest ≠ '/' :: more := by
  intro heq
  cases heq
  cases h

/-- The word, the blanks and the argument that a line is taken apart into make it up again. -/
private theorem spells_slash {rest : List Char} {command : SlashCommand}
    (h : Means (String.ofList (rest.takeWhile (!isWhitespace ·)))
      ((rest.dropWhile (!isWhitespace ·)).dropWhile isWhitespace) command) :
    Spells ('/' :: rest) (.command command) := by
  have hset : (rest.dropWhile (!isWhitespace ·)).dropWhile isWhitespace ≠ [] →
      (rest.dropWhile (!isWhitespace ·)).takeWhile isWhitespace ≠ [] := by
    intro hargs hblanks
    have hrest := head?_dropWhile (!isWhitespace ·) rest
    cases htail : rest.dropWhile (!isWhitespace ·) with
    | nil =>
        rw [htail] at hargs
        exact hargs rfl
    | cons c tail =>
        rw [htail] at hrest hblanks
        have hc : isWhitespace c = true := by simpa using hrest
        rw [List.takeWhile_cons_of_pos hc] at hblanks
        cases hblanks
  have hspells := Spells.command h List.all_takeWhile hset (head?_dropWhile _ _)
  rwa [String.toList_ofList, List.append_assoc, List.takeWhile_append_dropWhile,
    List.cons_append, List.takeWhile_append_dropWhile] at hspells

theorem parseLine_of_spells {line : List Char} {parsed : ParsedLine} (h : Spells line parsed) :
    parseLine (String.ofList line) = .ok parsed := by
  cases h with
  | escaped rest => exact parseLine_escaped String.toList_ofList
  | plain rest hfirst => exact parseLine_plain hfirst String.toList_ofList
  | blank rest hsecond =>
      exact parseLine_blank (not_slash_of_blank hsecond rest) hsecond String.toList_ofList
  | @command name blanks args command hmeans hblanks hset hargs =>
      obtain ⟨hnonempty, hslash, hword⟩ := hmeans.word
      obtain ⟨hname, hrest⟩ := parse_parts hword hblanks hset hargs
      obtain ⟨first, word, hcons⟩ := List.exists_cons_of_ne_nil hnonempty
      have hfirst : ∀ more, name.toList ++ blanks ++ args ≠ '/' :: more := by
        intro more hmore
        rw [hcons, List.cons_append, List.cons_append, List.cons.injEq] at hmore
        rw [hcons, hmore.1] at hslash
        exact hslash (.head _)
      have hblank :
          ((name.toList ++ blanks ++ args).head?.map isWhitespace).getD false = false := by
        rw [hcons] at hword ⊢
        exact hword first (.head _)
      rw [List.cons_append, List.cons_append, parseLine_slash hfirst hblank String.toList_ofList,
        hname, hrest, String.ofList_toList, parseCommand_of_means hmeans]
      rfl

/-- A line is parsed as what it spells, and a line that spells nothing is refused. -/
theorem parseLine_eq_ok {line : List Char} {parsed : ParsedLine} :
    parseLine (String.ofList line) = .ok parsed ↔ Spells line parsed := by
  refine ⟨fun h => ?_, parseLine_of_spells⟩
  match line with
  | [] => cases h
  | first :: rest =>
    by_cases hfirst : first = '/'
    rotate_left
    · rw [parseLine_plain hfirst String.toList_ofList] at h
      cases h
      exact .plain rest hfirst
    subst hfirst
    by_cases hslash : ∃ more, rest = '/' :: more
    · obtain ⟨more, rfl⟩ := hslash
      rw [parseLine_escaped String.toList_ofList] at h
      cases h
      exact .escaped more
    push Not at hslash
    cases hblank : (rest.head?.map isWhitespace).getD false with
    | true =>
        rw [parseLine_blank hslash hblank String.toList_ofList] at h
        cases h
        cases rest with
        | nil => cases hblank
        | cons second rest => exact .blank rest hblank
    | false =>
        rw [parseLine_slash hslash hblank String.toList_ofList] at h
        obtain ⟨command, hcommand, rfl⟩ := map_eq_ok.mp h
        exact spells_slash (parseCommand_eq_ok.mp hcommand)

/-! ### Refusals -/

/-- The command words. -/
def commandWords : List String :=
  bareCommands.map Prod.fst ++
    ["color", "timeout", "timeoutreq", "whois", "kick", "accept", "reject"]

/-- The command whose argument an error is about. -/
def CommandError.misused : CommandError → Option String
  | .emptyLine | .unknownCommand _ => none
  | .missingArgument name | .unexpectedArgument name _ | .invalidArgument name _
  | .controlCharacterNotAllowed name => some name

variable {error : CommandError}

private theorem map_eq_error {ε α β : Type} {f : α → β} {x : Except ε α} {e : ε}
    (h : x.map f = .error e) : x = .error e := by
  cases x with
  | error error =>
      cases h
      rfl
  | ok a => cases h

theorem noArgs_names {command : SlashCommand} (h : noArgs name args command = .error error) :
    error.misused = some name := by
  unfold noArgs at h
  split at h <;> cases h
  rfl

theorem parseSimpleArg_error (h : parseSimpleArg name args = .error error) :
    error = .missingArgument name ∨ error = .controlCharacterNotAllowed name := by
  unfold parseSimpleArg at h
  split at h
  · cases h
    exact .inl rfl
  split at h <;> cases h
  exact .inr rfl

theorem parseSimpleArg_names (h : parseSimpleArg name args = .error error) :
    error.misused = some name := by
  obtain rfl | rfl := parseSimpleArg_error h <;> rfl

theorem parseColor_names (h : parseColor args = .error error) :
    error.misused = some "color" := by
  unfold parseColor at h
  split at h
  · rename_i hargument
    cases h
    exact parseSimpleArg_names hargument
  split at h <;> cases h
  rfl

theorem parseTimeout_error (h : parseTimeout args = .error error) :
    error = .missingArgument "timeout" ∨ error = .controlCharacterNotAllowed "timeout" ∨
      ∃ detail, error = .invalidArgument "timeout" detail := by
  unfold parseTimeout at h
  split at h
  · rename_i hargument
    cases h
    exact (parseSimpleArg_error hargument).imp_right .inl
  split at h
  · cases h
  split at h
  · cases h
    exact .inr (.inr ⟨_, rfl⟩)
  split at h
  · cases h
    exact .inr (.inr ⟨_, rfl⟩)
  split at h <;> cases h
  exact .inr (.inr ⟨_, rfl⟩)

theorem parseTimeoutRequest_names (h : parseTimeoutRequest args = .error error) :
    error.misused = some "timeoutreq" := by
  unfold parseTimeoutRequest at h
  cases hparsed : parseTimeout args with
  | error refusal =>
      rw [hparsed] at h
      obtain rfl | rfl | ⟨detail, rfl⟩ := parseTimeout_error hparsed <;> (cases h; rfl)
  | ok interval =>
      rw [hparsed] at h
      cases interval with
      | none =>
          cases h
          rfl
      | some seconds => cases h

theorem parseKickTarget_names (h : parseKickTarget args = .error error) :
    error.misused = some "kick" := by
  unfold parseKickTarget at h
  split at h
  · rename_i hargument
    cases h
    exact parseSimpleArg_names hargument
  split at h
  · split at h <;> cases h
    rfl
  · cases h

theorem parseRequestId_names (h : parseRequestId name args = .error error) :
    error.misused = some name := by
  unfold parseRequestId at h
  split at h
  · rename_i hargument
    cases h
    exact parseSimpleArg_names hargument
  split at h
  · cases h
    rfl
  split at h <;> cases h
  rfl

/-- A command is refused because its word is unknown or because of its argument, and either way
the error names the word that was typed. -/
theorem parseCommand_error (h : parseCommand name args = .error error) :
    name ∉ commandWords ∧ error = .unknownCommand name ∨
      name ∈ commandWords ∧ error.misused = some name := by
  unfold parseCommand at h
  split at h
  case h_11 =>
    refine .inr ⟨by decide, ?_⟩
    split at h
    · cases h
    · exact parseColor_names (map_eq_error h)
  case h_12 =>
    refine .inr ⟨by decide, ?_⟩
    obtain rfl | rfl | ⟨detail, rfl⟩ := parseTimeout_error (map_eq_error h) <;> rfl
  case h_13 => exact .inr ⟨by decide, parseTimeoutRequest_names (map_eq_error h)⟩
  case h_14 => exact .inr ⟨by decide, parseSimpleArg_names (map_eq_error h)⟩
  case h_15 => exact .inr ⟨by decide, parseKickTarget_names (map_eq_error h)⟩
  case h_16 | h_17 => exact .inr ⟨by decide, parseRequestId_names (map_eq_error h)⟩
  case h_18 =>
    cases h
    refine .inl ⟨?_, rfl⟩
    simp only [commandWords, bareCommands, List.map_cons, List.map_nil, List.cons_append,
      List.nil_append, List.mem_cons, List.not_mem_nil, or_false, not_or]
    repeat' constructor
    all_goals assumption
  all_goals exact .inr ⟨by decide, noArgs_names h⟩

/-- The word of a line that starts with a slash. -/
def commandWord (rest : List Char) : String := String.ofList (rest.takeWhile (!isWhitespace ·))

/-- A line is refused only if it is empty or starts with a slash and a command word. -/
theorem parseLine_error {line : List Char} (h : parseLine (String.ofList line) = .error error) :
    line = [] ∧ error = .emptyLine ∨ ∃ rest, line = '/' :: rest ∧
      (commandWord rest ∉ commandWords ∧ error = .unknownCommand (commandWord rest) ∨
        commandWord rest ∈ commandWords ∧ error.misused = some (commandWord rest)) := by
  match line with
  | [] =>
    cases h
    exact .inl ⟨rfl, rfl⟩
  | first :: rest =>
    by_cases hfirst : first = '/'
    rotate_left
    · rw [parseLine_plain hfirst String.toList_ofList] at h
      cases h
    subst hfirst
    by_cases hslash : ∃ more, rest = '/' :: more
    · obtain ⟨more, rfl⟩ := hslash
      rw [parseLine_escaped String.toList_ofList] at h
      cases h
    push Not at hslash
    cases hblank : (rest.head?.map isWhitespace).getD false with
    | true =>
        rw [parseLine_blank hslash hblank String.toList_ofList] at h
        cases h
    | false =>
        rw [parseLine_slash hslash hblank String.toList_ofList] at h
        exact .inr ⟨rest, rfl, parseCommand_error (map_eq_error h)⟩

/-! ### Printing -/

/-- An argument that starts where the blanks before it end. -/
structure IsWord (args : List Char) : Prop extends IsArgument args where
  set : (args.head?.map isWhitespace).getD false = false

/-- The commands that can be typed. -/
def SlashCommand.WellFormed : SlashCommand → Prop
  | .whois member => IsWord member.toList
  | .kick (.id id) | .accept id | .reject id => id < 2 ^ 64
  | .kick (.nickname nickname) =>
      IsWord nickname.toList ∧ ∃ c ∈ nickname.toList, c.isDigit = false
  | .timeout (some seconds) | .timeoutRequest seconds =>
      1 ≤ seconds ∧ seconds ≤ maxMessageTimeoutSeconds
  | _ => True

/-- What can be typed: the commands, and any text but the empty one. -/
def ParsedLine.WellFormed : ParsedLine → Prop
  | .command parsed => parsed.WellFormed
  | .chat text => text ≠ ""

/-- A command as a word with an argument. -/
def SlashCommand.spelling : SlashCommand → String × List Char
  | .help => ("help", [])
  | .exit => ("exit", [])
  | .leave => ("leave", [])
  | .color choice => ("color", choice.name.toList)
  | .colorList => ("color", "list".toList)
  | .list => ("list", [])
  | .whois member => ("whois", member.toList)
  | .kick (.id id) => ("kick", Nat.toDigits 10 id)
  | .kick (.nickname nickname) => ("kick", nickname.toList)
  | .newId => ("newid", [])
  | .reqOn => ("reqon", [])
  | .reqOff => ("reqoff", [])
  | .requests => ("requests", [])
  | .accept id => ("accept", Nat.toDigits 10 id)
  | .reject id => ("reject", Nat.toDigits 10 id)
  | .copy => ("copy", [])
  | .clear => ("clear", [])
  | .timeout none => ("timeout", "off".toList)
  | .timeout (some seconds) => ("timeout", Nat.toDigits 10 seconds)
  | .timeoutRequest seconds => ("timeoutreq", Nat.toDigits 10 seconds)

/-- A line for what it is to be parsed as. -/
def ParsedLine.toLine : ParsedLine → List Char
  | .command parsed =>
      '/' :: parsed.spelling.1.toList ++ (if parsed.spelling.2 = [] then [] else [' ']) ++
        parsed.spelling.2
  | .chat text =>
      match text.toList with
      | '/' :: rest => '/' :: '/' :: rest
      | text => text

theorem IsWord.numeral {value : Nat} (h : Uri.Numeral args value) : IsWord args where
  toIsArgument := isArgument_numeral h
  set := by
    obtain ⟨c, rest, rfl⟩ := List.exists_cons_of_ne_nil h.nonempty
    have hdigit := h.digits c (.head _)
    rw [Char.isDigit_iff_toNat] at hdigit
    have hzero : '0'.toNat = 48 := rfl
    have hnine : '9'.toNat = 57 := rfl
    simp only [List.head?_cons, Option.map_some, Option.getD_some, isWhitespace,
      Bool.or_eq_false_iff, Bool.and_eq_false_iff, decide_eq_false_iff_not]
    omega

theorem isId_toDigits {id : Nat} (h : id < 2 ^ 64) : IsId (Nat.toDigits 10 id) id :=
  ⟨Uri.numeral_toDigits id, h⟩

theorem isLifetime_toDigits {seconds : Nat}
    (h : 1 ≤ seconds ∧ seconds ≤ maxMessageTimeoutSeconds) :
    IsLifetime (Nat.toDigits 10 seconds) seconds :=
  ⟨⟨_, .inl rfl, Uri.numeral_toDigits seconds⟩, h.1, h.2⟩

/-- A command that can be typed is what its spelling means. -/
theorem means_spelling {command : SlashCommand} (h : command.WellFormed) :
    Means command.spelling.1 command.spelling.2 command := by
  cases command with
  | color color => exact .color color
  | colorList => exact .colorList
  | whois member =>
      have hmeans := Means.whois h.toIsArgument
      rwa [String.ofList_toList] at hmeans
  | kick target =>
      cases target with
      | id id => exact .kick (.id (isId_toDigits h))
      | nickname nickname =>
          have htarget := IsTarget.nickname h.1.toIsArgument h.2
          rw [String.ofList_toList] at htarget
          exact .kick htarget
  | accept id => exact .accept (isId_toDigits h)
  | reject id => exact .reject (isId_toDigits h)
  | timeout interval =>
      cases interval with
      | none => exact .timeoutOff
      | some seconds => exact .timeout (isLifetime_toDigits h)
  | timeoutRequest seconds => exact .timeoutRequest (isLifetime_toDigits h)
  | _ => exact .bare (by decide)

theorem spelling_set {command : SlashCommand} (h : command.WellFormed) :
    (command.spelling.2.head?.map isWhitespace).getD false = false := by
  cases command with
  | color color => cases color <;> rfl
  | whois member => exact h.set
  | kick target =>
      cases target with
      | id id => exact (IsWord.numeral (Uri.numeral_toDigits id)).set
      | nickname nickname => exact h.1.set
  | accept id | reject id => exact (IsWord.numeral (Uri.numeral_toDigits id)).set
  | timeout interval =>
      cases interval with
      | none => rfl
      | some seconds => exact (IsWord.numeral (Uri.numeral_toDigits seconds)).set
  | timeoutRequest seconds => exact (IsWord.numeral (Uri.numeral_toDigits seconds)).set
  | _ => rfl

theorem spells_toLine {parsed : ParsedLine} (h : parsed.WellFormed) :
    Spells parsed.toLine parsed := by
  cases parsed with
  | command command =>
      refine .command (means_spelling h) ?_ ?_ (spelling_set h)
      · split <;> rfl
      · intro hargs
        rw [if_neg hargs]
        exact List.cons_ne_nil _ _
  | chat text =>
      have hnonempty : text.toList ≠ [] := by
        intro hnil
        exact h (String.toList_eq_nil_iff.mp hnil)
      rw [← String.ofList_toList (s := text), ParsedLine.toLine, String.toList_ofList]
      split
      · rename_i rest hslash
        rw [hslash]
        exact .escaped rest
      · rename_i hplain
        obtain ⟨first, rest, hcons⟩ := List.exists_cons_of_ne_nil hnonempty
        rw [hcons] at hplain ⊢
        refine .plain rest ?_
        rintro rfl
        exact hplain rest rfl

private theorem ofList_ne_empty (first : Char) (rest : List Char) :
    String.ofList (first :: rest) ≠ "" := by
  intro h
  have hlist := congrArg String.toList h
  rw [String.toList_ofList] at hlist
  cases hlist

theorem wellFormed_of_spells {line : List Char} {parsed : ParsedLine} (h : Spells line parsed) :
    parsed.WellFormed := by
  cases h with
  | escaped rest | plain rest _ | blank rest _ => exact ofList_ne_empty _ _
  | @command name blanks args command hmeans _ _ hset =>
      cases hmeans with
      | bare hmem =>
          simp only [bareCommands, List.mem_cons, Prod.mk.injEq, List.not_mem_nil, or_false] at hmem
          rcases hmem with h | h | h | h | h | h | h | h | h | h <;> (rw [h.2]; trivial)
      | color | colorList | timeoutOff => trivial
      | timeout h | timeoutRequest h => exact ⟨h.pos, h.le⟩
      | whois h =>
          change IsWord (String.ofList args).toList
          rw [String.toList_ofList]
          exact ⟨h, hset⟩
      | kick h =>
          cases h with
          | id h => exact h.lt
          | nickname h hletter =>
              change IsWord (String.ofList args).toList ∧ ∃ c ∈ (String.ofList args).toList, _
              rw [String.toList_ofList]
              exact ⟨⟨h, hset⟩, hletter⟩
      | accept h | reject h => exact h.lt

/-- The parser reads exactly the language of commands and chat text. What starts with a slash and
a command word is never chat: it is the command it spells, or it is refused with an error that
names the word. -/
theorem command_language (line : List Char) :
    (∀ parsed, parseLine (String.ofList line) = .ok parsed ↔ Spells line parsed) ∧
    ∀ error, parseLine (String.ofList line) = .error error →
      line = [] ∧ error = .emptyLine ∨ ∃ rest, line = '/' :: rest ∧
        (commandWord rest ∉ commandWords ∧ error = .unknownCommand (commandWord rest) ∨
          commandWord rest ∈ commandWords ∧ error.misused = some (commandWord rest)) :=
  ⟨fun _ => parseLine_eq_ok, fun _ => parseLine_error⟩

/-- The parser reads back what is printed, and yields nothing that could not be printed: of the
commands those whose arguments are in range, and as chat every text but the empty one. -/
theorem command_round_trip (parsed : ParsedLine) :
    (parsed.WellFormed ↔ parseLine (String.ofList parsed.toLine) = .ok parsed) ∧
      (parsed.WellFormed ↔ ∃ line, parseLine line = .ok parsed) := by
  have hprinted (h : parsed.WellFormed) : parseLine (String.ofList parsed.toLine) = .ok parsed :=
    parseLine_of_spells (spells_toLine h)
  have hparsed {line : String} (h : parseLine line = .ok parsed) : parsed.WellFormed := by
    rw [← String.ofList_toList (s := line)] at h
    exact wellFormed_of_spells (parseLine_eq_ok.mp h)
  refine ⟨⟨hprinted, hparsed⟩, fun h => ⟨_, hprinted h⟩, fun h => ?_⟩
  obtain ⟨line, h⟩ := h
  exact hparsed h

end Veilroom
