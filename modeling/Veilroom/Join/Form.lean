import Veilroom.Library.Utf8
import Veilroom.Validation

/-!
The join form: the text field it is typed into (`ui/input.rs`), its model
(`ui/screen.rs`) and its keys (`on_join_form_key` of `ui/app.rs`).
-/
namespace Veilroom

/-! ### Text fields -/

@[simp] theorem containsControlChar_append (xs ys : List Char) :
    containsControlChar (xs ++ ys) = (containsControlChar xs || containsControlChar ys) :=
  List.any_append

/-- `TextField` of at most `maxBytes` bytes, its text split at the cursor. -/
structure TextField (maxBytes : Nat) where
  before : List Char
  after : List Char
  complete : Bool
  fits : Utf8.size (before ++ after) ≤ maxBytes
  safe : containsControlChar (before ++ after) = false
deriving DecidableEq

namespace TextField
variable {maxBytes : Nat}

/-- `TextField::new`. -/
def new : TextField maxBytes := ⟨[], [], false, Nat.zero_le _, rfl⟩

def text (field : TextField maxBytes) : String := String.ofList (field.before ++ field.after)

/-- `TextField::insert_char`. -/
def insertChar (field : TextField maxBytes) (ch : Char) : TextField maxBytes :=
  if hunsafe : field.complete = true ∨ isUnsafeDisplayChar ch = true then field
  else if hlong : Utf8.size (field.before ++ field.after) + ch.utf8Size > maxBytes then field
  else
    { field with
      before := field.before ++ [ch]
      fits := by
        simp only [Utf8.size_append, Utf8.size_cons, Utf8.size_nil] at hlong ⊢
        omega
      safe := by
        have hsafe := field.safe
        simp only [containsControlChar_append, Bool.or_eq_false_iff] at hsafe ⊢
        exact ⟨⟨hsafe.1, by simpa [containsControlChar] using (not_or.mp hunsafe).2⟩, hsafe.2⟩ }

/-- `TextField::insert_text`. -/
def insertText (field : TextField maxBytes) (text : String) : TextField maxBytes :=
  text.toList.foldl insertChar field

/-- `TextField::backspace`. -/
def backspace (field : TextField maxBytes) : TextField maxBytes :=
  if field.complete then field
  else
    { field with
      before := field.before.dropLast
      fits := by
        have hfits := field.fits
        have hdrop := Utf8.size_le_of_sublist (List.dropLast_sublist field.before)
        simp only [Utf8.size_append] at hfits ⊢
        omega
      safe := by
        have hsafe := field.safe
        simp only [containsControlChar_append, Bool.or_eq_false_iff] at hsafe ⊢
        refine ⟨?_, hsafe.2⟩
        rw [containsControlChar, List.any_eq_false] at hsafe ⊢
        exact fun ch hch => hsafe.1 ch (List.dropLast_subset _ hch) }

/-- `TextField::reopen`. -/
def reopen (field : TextField maxBytes) : TextField maxBytes where
  before := field.before ++ field.after
  after := []
  complete := false
  fits := by simpa only [List.append_nil] using field.fits
  safe := by simpa only [List.append_nil] using field.safe

/-- `TextField::submit`, with whether it handed its text out. -/
def submit (field : TextField maxBytes) : TextField maxBytes × Bool :=
  if field.complete then (field, false)
  else if field.before ++ field.after = [] then (field, false)
  else ({ field with complete := true }, true)

end TextField

/-! ### The form -/

inductive JoinFormField
  | nickname | introduction
deriving DecidableEq, Repr

/-- `JoinFormModel`. -/
structure JoinFormModel where
  nickname : TextField (Limits.default.maxNicknameScalars * 4)
  introduction : TextField (Limits.default.maxIntroScalars * 4)
  focus : JoinFormField
  submitted : Bool
  error : Option String
deriving DecidableEq

/-- A nickname with its optional introduction. -/
abbrev JoinForm := String × Option String

/-- The keys the form tells apart. -/
inductive KeyCode
  | enter | esc | backspace | char (ch : Char) | other
deriving DecidableEq

/-- The actions the form returns. -/
inductive FormAction
  | none
  | leave
  | submitted (form : JoinForm)
deriving DecidableEq

namespace JoinFormModel

/-- `JoinFormModel::new`. -/
def new : JoinFormModel where
  nickname := .new
  introduction := .new
  focus := .nickname
  submitted := false
  error := none

/-- The focused field is edited. -/
def edit (form : JoinFormModel) (change : ∀ {maxBytes}, TextField maxBytes → TextField maxBytes) :
    JoinFormModel :=
  match form.focus with
  | .nickname => { form with nickname := change form.nickname }
  | .introduction => { form with introduction := change form.introduction }

/-- `on_join_form_key`. A submitted form leaves the screen. -/
def onKey (form : JoinFormModel) (key : KeyCode) : JoinFormModel × FormAction :=
  match form.focus, key with
  | .nickname, .enter =>
    match form.nickname.submit with
    | (nickname, true) => ({ form with nickname, focus := .introduction, error := none }, .none)
    | (nickname, false) =>
      ({ form with nickname, error := some "Enter a nickname before continuing." }, .none)
  | .nickname, .esc => (form, .leave)
  | .introduction, .enter =>
    if form.submitted then (form, .none)
    else if form.introduction.before ++ form.introduction.after = [] then
      ({ form with submitted := true }, .submitted (form.nickname.text, none))
    else
      ({ form with introduction := form.introduction.submit.1, submitted := true },
        .submitted (form.nickname.text, some form.introduction.submit.1.text))
  | .introduction, .esc =>
    if form.submitted then (form, .none)
    else ({ form with nickname := form.nickname.reopen, focus := .nickname, error := none }, .none)
  | _, .backspace => (form.edit (·.backspace), .none)
  | _, .char ch => (form.edit (·.insertChar ch), .none)
  | _, .other => (form, .none)

end JoinFormModel

end Veilroom
