import Veilroom.Library.Utf8
import Veilroom.Ui.HostSetup

/-!
The input fields (`ui/input.rs`) with their byte offsets. A text field of a byte cursor does what
its text split at the cursor does, and a secret field what the stack of its characters does; what
would panic at a wrong offset gives `none`.
-/
namespace Veilroom
namespace Ui

/-! ### Text fields -/

/-- `TextField`. -/
structure TextField where
  text : List Char
  cursor : Nat
  maxBytes : Nat
  complete : Bool
deriving DecidableEq

namespace TextField

/-- `TextField::new`. -/
def new (maxBytes : Nat) : TextField := ⟨[], 0, maxBytes, false⟩

def len (field : TextField) : Nat := Utf8.size field.text

/-- `TextField::insert_char`. -/
def insertChar (field : TextField) (ch : Char) : Option (TextField × Bool) :=
  if field.complete ∨ isUnsafeDisplayChar ch then some (field, false)
  else if field.len + ch.utf8Size > field.maxBytes then some (field, false)
  else do
    let text ← Utf8.insert? field.text field.cursor ch
    return ({ field with text, cursor := field.cursor + ch.utf8Size }, true)

/-- `TextField::insert_text`. -/
def insertText (field : TextField) (text : String) : Option TextField :=
  text.toList.foldlM (fun field ch => (field.insertChar ch).map Prod.fst) field

/-- Where the character before the cursor begins. -/
def prev (field : TextField) : Option Nat := do
  let before ← Utf8.sliceTo? field.text field.cursor
  return ((Utf8.charIndices before).getLast?.map Prod.fst).getD 0

/-- Where the character at the cursor ends. -/
def next (field : TextField) : Option Nat := do
  let after ← Utf8.sliceFrom? field.text field.cursor
  return ((Utf8.charIndices after)[1]?.map (field.cursor + ·.1)).getD field.len

/-- `TextField::backspace`. -/
def backspace (field : TextField) : Option TextField :=
  if field.complete ∨ field.cursor = 0 then some field
  else do
    let prev ← field.prev
    let text ← Utf8.drain? field.text prev field.cursor
    return { field with text, cursor := prev }

/-- `TextField::delete`. -/
def delete (field : TextField) : Option TextField :=
  if field.complete ∨ field.cursor ≥ field.len then some field
  else do
    let next ← field.next
    let text ← Utf8.drain? field.text field.cursor next
    return { field with text }

/-- `TextField::move_left`. -/
def moveLeft (field : TextField) : Option TextField :=
  if field.complete ∨ field.cursor = 0 then some field
  else field.prev.map fun cursor => { field with cursor }

/-- `TextField::move_right`. -/
def moveRight (field : TextField) : Option TextField :=
  if field.complete ∨ field.cursor ≥ field.len then some field
  else field.next.map fun cursor => { field with cursor }

/-- `TextField::move_home`. -/
def moveHome (field : TextField) : TextField :=
  if field.complete then field else { field with cursor := 0 }

/-- `TextField::move_end`. -/
def moveEnd (field : TextField) : TextField :=
  if field.complete then field else { field with cursor := field.len }

/-- `TextField::clear`. -/
def clear (field : TextField) : TextField :=
  { field with text := [], cursor := 0, complete := false }

/-- `TextField::reopen`. -/
def reopen (field : TextField) : TextField :=
  { field with complete := false, cursor := field.len }

/-- `TextField::submit`, with the text it hands out. -/
def submit (field : TextField) : TextField × Option (List Char) :=
  if field.complete then (field, none)
  else if field.text = [] then (field, none)
  else ({ field with complete := true }, some field.text)

end TextField

/-- The operations of a text field. -/
inductive TextEdit
  | insertChar (ch : Char)
  | insertText (text : String)
  | backspace | delete
  | moveLeft | moveRight | moveHome | moveEnd
  | clear | reopen | submit

/-- What an operation of a text field returns. -/
inductive TextAnswer
  | done
  | inserted (accepted : Bool)
  | submitted (text : Option (List Char))
deriving DecidableEq

namespace TextField

def apply (field : TextField) : TextEdit → Option (TextField × TextAnswer)
  | .insertChar ch => (field.insertChar ch).map fun (field, accepted) => (field, .inserted accepted)
  | .insertText text => (field.insertText text).map (·, .done)
  | .backspace => field.backspace.map (·, .done)
  | .delete => field.delete.map (·, .done)
  | .moveLeft => field.moveLeft.map (·, .done)
  | .moveRight => field.moveRight.map (·, .done)
  | .moveHome => some (field.moveHome, .done)
  | .moveEnd => some (field.moveEnd, .done)
  | .clear => some (field.clear, .done)
  | .reopen => some (field.reopen, .done)
  | .submit => some (field.submit.1, .submitted field.submit.2)

/-- Operations one after the other, with what they return. -/
def run (field : TextField) : List TextEdit → Option (TextField × List TextAnswer)
  | [] => some (field, [])
  | edit :: edits => do
    let (field, answer) ← field.apply edit
    let (field, answers) ← field.run edits
    return (field, answer :: answers)

end TextField
end Ui

/-! ### The text split at the cursor -/

namespace TextField
variable {maxBytes : Nat}

/-- The first `count` characters are before the cursor. -/
def recut (field : TextField maxBytes) (count : Nat) : TextField maxBytes where
  before := (field.before ++ field.after).take count
  after := (field.before ++ field.after).drop count
  complete := field.complete
  fits := by simpa only [List.take_append_drop] using field.fits
  safe := by simpa only [List.take_append_drop] using field.safe

/-- Unless the field is complete, the cursor moves. -/
def moveTo (field : TextField maxBytes) (count : Nat) : TextField maxBytes :=
  if field.complete then field else field.recut count

def moveLeft (field : TextField maxBytes) : TextField maxBytes :=
  field.moveTo (field.before.length - 1)

def moveRight (field : TextField maxBytes) : TextField maxBytes :=
  field.moveTo (field.before.length + 1)

def moveHome (field : TextField maxBytes) : TextField maxBytes := field.moveTo 0

def moveEnd (field : TextField maxBytes) : TextField maxBytes :=
  field.moveTo (field.before.length + field.after.length)

/-- The character after the cursor goes. -/
def delete (field : TextField maxBytes) : TextField maxBytes :=
  if field.complete then field
  else
    { field with
      after := field.after.tail
      fits := by
        have hsub : (field.before ++ field.after.tail).Sublist (field.before ++ field.after) :=
          List.Sublist.append_left (List.tail_sublist _) _
        exact Nat.le_trans (Utf8.size_le_of_sublist hsub) field.fits
      safe := by
        have hsafe := field.safe
        rw [containsControlChar, List.any_eq_false] at hsafe ⊢
        intro ch hch
        apply hsafe ch
        simp only [List.mem_append] at hch ⊢
        exact hch.imp_right List.mem_of_mem_tail }

/-- Whether `insert_char` takes a character. -/
def accepts (field : TextField maxBytes) (ch : Char) : Bool :=
  !field.complete && !isUnsafeDisplayChar ch &&
    decide (Utf8.size (field.before ++ field.after) + ch.utf8Size ≤ maxBytes)

def apply (field : TextField maxBytes) : Ui.TextEdit → TextField maxBytes × Ui.TextAnswer
  | .insertChar ch => (field.insertChar ch, .inserted (field.accepts ch))
  | .insertText text => (field.insertText text, .done)
  | .backspace => (field.backspace, .done)
  | .delete => (field.delete, .done)
  | .moveLeft => (field.moveLeft, .done)
  | .moveRight => (field.moveRight, .done)
  | .moveHome => (field.moveHome, .done)
  | .moveEnd => (field.moveEnd, .done)
  | .clear => (.new, .done)
  | .reopen => (field.reopen, .done)
  | .submit => (field.submit.1,
      .submitted (if field.submit.2 then some (field.before ++ field.after) else none))

def run (field : TextField maxBytes) : List Ui.TextEdit → TextField maxBytes × List Ui.TextAnswer
  | [] => (field, [])
  | edit :: edits =>
    ((run (field.apply edit).1 edits).1, (field.apply edit).2 :: (run (field.apply edit).1 edits).2)

/-- The field of a byte cursor that stands for a text split at the cursor. -/
def toField (field : TextField maxBytes) : Ui.TextField where
  text := field.before ++ field.after
  cursor := Utf8.size field.before
  maxBytes := maxBytes
  complete := field.complete

/-! ### Each operation does the same on both -/

section
variable (field : TextField maxBytes)

@[simp] theorem text_toField : field.toField.text = field.before ++ field.after := rfl

@[simp] theorem cursor_toField : field.toField.cursor = Utf8.size field.before := rfl

@[simp] theorem maxBytes_toField : field.toField.maxBytes = maxBytes := rfl

@[simp] theorem complete_toField : field.toField.complete = field.complete := rfl

@[simp] theorem len_toField :
    field.toField.len = Utf8.size field.before + Utf8.size field.after :=
  Utf8.size_append _ _

end

theorem insertChar_toField (field : TextField maxBytes) (ch : Char) :
    field.toField.insertChar ch = some ((field.insertChar ch).toField, field.accepts ch) := by
  by_cases hunsafe : field.complete = true ∨ isUnsafeDisplayChar ch = true
  · have hrefused : field.accepts ch = false := by
      obtain h | h := hunsafe <;> simp [accepts, h]
    rw [hrefused]
    simp [Ui.TextField.insertChar, insertChar, hunsafe]
  obtain ⟨hopen, hsafe⟩ := not_or.mp hunsafe
  simp only [Bool.not_eq_true] at hopen hsafe
  by_cases hlong : Utf8.size field.before + Utf8.size field.after + ch.utf8Size > maxBytes
  · have hrefused : field.accepts ch = false := by
      simp only [accepts, Utf8.size_append, Nat.not_le.mpr hlong, decide_false,
        Bool.and_false]
    rw [hrefused]
    simp [Ui.TextField.insertChar, insertChar, hopen, hsafe, hlong]
  · have haccepted : field.accepts ch = true := by
      simp only [accepts, Utf8.size_append, hopen, hsafe, Nat.not_lt.mp hlong,
        decide_true, Bool.not_false, Bool.and_self]
    have hinsert : field.toField.insertChar ch = some ({ field.toField with
        text := field.before ++ ch :: field.after
        cursor := Utf8.size field.before + ch.utf8Size }, true) := by
      simp [Ui.TextField.insertChar, hopen, hsafe, hlong]
    rw [haccepted, hinsert]
    simp [insertChar, hopen, hsafe, hlong, toField]

theorem insertText_toField (field : TextField maxBytes) (text : String) :
    field.toField.insertText text = some (field.insertText text).toField := by
  unfold Ui.TextField.insertText insertText
  induction text.toList generalizing field with
  | nil => rfl
  | cons ch text ih =>
      rw [List.foldlM_cons, List.foldl_cons, insertChar_toField]
      exact ih (field.insertChar ch)

/-- A text field with a text before the cursor that ends in a character, or none. -/
theorem prev_toField (field : TextField maxBytes) :
    field.toField.prev = some (Utf8.size field.before.dropLast) := by
  simp only [Ui.TextField.prev, text_toField, cursor_toField, Utf8.sliceTo?_size,
    Option.bind_eq_bind, Option.bind_some, Option.pure_def]
  congr 1
  induction field.before using List.reverseRecOn with
  | nil => rfl
  | append_singleton before ch _ =>
      rw [Utf8.getLast?_charIndices, List.dropLast_concat]
      rfl

theorem next_toField {field : TextField maxBytes} (h : field.after ≠ []) :
    field.toField.next = some (Utf8.size (field.before ++ field.after.take 1)) := by
  simp only [Ui.TextField.next, text_toField, cursor_toField, Utf8.sliceFrom?_size,
    Option.bind_eq_bind, Option.bind_some, Option.pure_def, len_toField]
  congr 1
  cases hafter : field.after with
  | nil => exact absurd hafter h
  | cons ch after =>
      cases after with
      | nil => simp [Utf8.charIndices, Utf8.charIndicesFrom]
      | cons ch' after =>
          rw [Utf8.charIndices_second]
          simp

theorem cursor_eq_zero (field : TextField maxBytes) :
    field.toField.cursor = 0 ↔ field.before = [] :=
  Utf8.size_eq_zero

theorem len_le_cursor (field : TextField maxBytes) :
    field.toField.len ≤ field.toField.cursor ↔ field.after = [] := by
  rw [len_toField, cursor_toField, ← Utf8.size_eq_zero]
  omega

theorem backspace_toField (field : TextField maxBytes) :
    field.toField.backspace = some field.backspace.toField := by
  have hprev := field.prev_toField
  obtain ⟨before, after, complete, fits, safe⟩ := field
  cases complete with
  | true => simp [Ui.TextField.backspace, backspace]
  | false =>
      obtain rfl | ⟨before, ch, rfl⟩ := List.eq_nil_or_concat' before
      · simp [Ui.TextField.backspace, backspace, toField]
      · rw [List.dropLast_concat] at hprev
        simp only [Ui.TextField.backspace, backspace, hprev, cursor_eq_zero]
        simp [toField]

theorem delete_toField (field : TextField maxBytes) :
    field.toField.delete = some field.delete.toField := by
  have hnext := field.next_toField
  have hend := field.len_le_cursor
  obtain ⟨before, after, complete, fits, safe⟩ := field
  cases complete with
  | true => simp [Ui.TextField.delete, delete]
  | false =>
      cases after with
      | nil =>
          rw [Ui.TextField.delete, if_pos (.inr (hend.mpr rfl))]
          rfl
      | cons ch after =>
          simp only [Ui.TextField.delete, delete, hnext (List.cons_ne_nil _ _), ge_iff_le, hend]
          simp [toField]

theorem moveLeft_toField (field : TextField maxBytes) :
    field.toField.moveLeft = some field.moveLeft.toField := by
  have hprev := field.prev_toField
  obtain ⟨before, after, complete, fits, safe⟩ := field
  cases complete with
  | true => simp [Ui.TextField.moveLeft, moveLeft, moveTo]
  | false =>
      obtain rfl | ⟨before, ch, rfl⟩ := List.eq_nil_or_concat' before
      · simp [Ui.TextField.moveLeft, moveLeft, moveTo, toField, recut]
      · rw [List.dropLast_concat] at hprev
        simp only [Ui.TextField.moveLeft, hprev, cursor_eq_zero]
        simp [moveLeft, moveTo, recut, toField]

theorem moveRight_toField (field : TextField maxBytes) :
    field.toField.moveRight = some field.moveRight.toField := by
  have hnext := field.next_toField
  have hend := field.len_le_cursor
  obtain ⟨before, after, complete, fits, safe⟩ := field
  cases complete with
  | true => simp [Ui.TextField.moveRight, moveRight, moveTo]
  | false =>
      cases after with
      | nil =>
          rw [Ui.TextField.moveRight, if_pos (.inr (hend.mpr rfl))]
          simp [moveRight, moveTo, recut, toField, List.take_of_length_le]
      | cons ch after =>
          simp only [Ui.TextField.moveRight, hnext (List.cons_ne_nil _ _), ge_iff_le, hend]
          simp [moveRight, moveTo, recut, toField, List.take_append, List.take_of_length_le]

theorem moveHome_toField (field : TextField maxBytes) :
    field.toField.moveHome = field.moveHome.toField := by
  unfold Ui.TextField.moveHome moveHome moveTo
  rw [complete_toField]
  cases hcomplete : field.complete <;> simp [recut, toField, hcomplete]

theorem moveEnd_toField (field : TextField maxBytes) :
    field.toField.moveEnd = field.moveEnd.toField := by
  unfold Ui.TextField.moveEnd moveEnd moveTo
  rw [complete_toField]
  cases hcomplete : field.complete <;>
    simp [recut, toField, Ui.TextField.len, hcomplete, List.take_of_length_le]

theorem reopen_toField (field : TextField maxBytes) :
    field.toField.reopen = field.reopen.toField := by
  simp [Ui.TextField.reopen, reopen, toField, Ui.TextField.len]

theorem submit_toField (field : TextField maxBytes) :
    field.toField.submit = (field.submit.1.toField,
      if field.submit.2 then some (field.before ++ field.after) else none) := by
  unfold Ui.TextField.submit submit
  rw [complete_toField, text_toField]
  split
  · rfl
  split
  · rfl
  · rfl

/-- An operation on the field of a byte cursor never panics, and does and returns what it does on
the text split there. -/
theorem apply_toField (field : TextField maxBytes) (edit : Ui.TextEdit) :
    field.toField.apply edit = some ((field.apply edit).1.toField, (field.apply edit).2) := by
  cases edit with
  | insertChar ch =>
      rw [Ui.TextField.apply, insertChar_toField]
      rfl
  | insertText text =>
      rw [Ui.TextField.apply, insertText_toField]
      rfl
  | backspace =>
      rw [Ui.TextField.apply, backspace_toField]
      rfl
  | delete =>
      rw [Ui.TextField.apply, delete_toField]
      rfl
  | moveLeft =>
      rw [Ui.TextField.apply, moveLeft_toField]
      rfl
  | moveRight =>
      rw [Ui.TextField.apply, moveRight_toField]
      rfl
  | moveHome => rw [Ui.TextField.apply, moveHome_toField, apply]
  | moveEnd => rw [Ui.TextField.apply, moveEnd_toField, apply]
  | clear => rfl
  | reopen => rw [Ui.TextField.apply, reopen_toField, apply]
  | submit => rw [Ui.TextField.apply, submit_toField, apply]

theorem run_toField (field : TextField maxBytes) (edits : List Ui.TextEdit) :
    field.toField.run edits = some ((field.run edits).1.toField, (field.run edits).2) := by
  induction edits generalizing field with
  | nil => rfl
  | cons edit edits ih =>
      rw [Ui.TextField.run, apply_toField, Option.bind_eq_bind, Option.bind_some]
      dsimp only
      rw [ih]
      rfl

end TextField

/-! ### Secret fields -/

namespace SecretField

/-- `SecretField::masked`. -/
def masked (field : SecretField) : String :=
  String.ofList (List.replicate (field.bytes.filter (!Utf8.continues ·)).length '•')

/-- `SecretField::take_value`. -/
def takeValue (field : SecretField) : SecretField × Option Bytes :=
  if field.complete then ({ field with bytes := [] }, some field.bytes) else (field, none)

end SecretField

/-- The operations of a secret field. -/
inductive SecretEdit
  | pushChar (ch : Char)
  | pushText (text : String)
  | pop | clear | submit | takeValue

/-- What an operation of a secret field returns. -/
inductive SecretAnswer
  | done
  | pushed (accepted : Bool)
  | submitted (password : SecretSubmit)
  | taken (password : Option Bytes)
deriving DecidableEq

namespace SecretField

def apply (field : SecretField) : SecretEdit → SecretField × SecretAnswer
  | .pushChar ch => ((field.pushChar ch).1, .pushed (field.pushChar ch).2)
  | .pushText text => (field.pushText text, .done)
  | .pop => (field.pop, .done)
  | .clear => (field.clear, .done)
  | .submit => (field.submit.1, .submitted field.submit.2)
  | .takeValue => (field.takeValue.1, .taken field.takeValue.2)

def run (field : SecretField) : List SecretEdit → SecretField × List SecretAnswer
  | [] => (field, [])
  | edit :: edits =>
    ((run (field.apply edit).1 edits).1, (field.apply edit).2 :: (run (field.apply edit).1 edits).2)

end SecretField

/-- A stack of characters of at most `maxBytes` bytes. -/
structure SecretStack (maxBytes : Nat) where
  chars : List Char
  complete : Bool
  fits : Utf8.size chars ≤ maxBytes

namespace SecretStack
variable {maxBytes : Nat}

def empty (complete : Bool) : SecretStack maxBytes := ⟨[], complete, Nat.zero_le _⟩

def pushChar (stack : SecretStack maxBytes) (ch : Char) : SecretStack maxBytes × Bool :=
  if stack.complete ∨ isUnsafeDisplayChar ch then (stack, false)
  else if hfits : Utf8.size (stack.chars ++ [ch]) ≤ maxBytes then
    ({ stack with chars := stack.chars ++ [ch], fits := hfits }, true)
  else (stack, false)

def pushText (stack : SecretStack maxBytes) (text : String) : SecretStack maxBytes :=
  text.toList.foldl (fun stack ch => (stack.pushChar ch).1) stack

/-- The last character goes. -/
def pop (stack : SecretStack maxBytes) : SecretStack maxBytes :=
  if stack.complete then stack
  else
    { stack with
      chars := stack.chars.dropLast
      fits := Nat.le_trans (Utf8.size_le_of_sublist (List.dropLast_sublist _)) stack.fits }

def submit (stack : SecretStack maxBytes) : SecretStack maxBytes × Option (List Char) :=
  if stack.complete ∨ stack.chars = [] then (stack, none) else (empty true, some stack.chars)

def takeValue (stack : SecretStack maxBytes) : SecretStack maxBytes × Option (List Char) :=
  if stack.complete then (empty true, some stack.chars) else (stack, none)

/-- A password as it is handed out. -/
def submitted : Option (List Char) → SecretSubmit
  | none => .none
  | some chars => .value (Utf8.encode chars)

def apply (stack : SecretStack maxBytes) : SecretEdit → SecretStack maxBytes × SecretAnswer
  | .pushChar ch => ((stack.pushChar ch).1, .pushed (stack.pushChar ch).2)
  | .pushText text => (stack.pushText text, .done)
  | .pop => (stack.pop, .done)
  | .clear => (empty false, .done)
  | .submit => (stack.submit.1, .submitted (submitted stack.submit.2))
  | .takeValue => (stack.takeValue.1, .taken (stack.takeValue.2.map Utf8.encode))

def run (stack : SecretStack maxBytes) :
    List SecretEdit → SecretStack maxBytes × List SecretAnswer
  | [] => (stack, [])
  | edit :: edits =>
    ((run (stack.apply edit).1 edits).1, (stack.apply edit).2 :: (run (stack.apply edit).1 edits).2)

/-- The field that holds the bytes of the characters. -/
def toField (stack : SecretStack maxBytes) : SecretField where
  bytes := Utf8.encode stack.chars
  maxBytes := maxBytes
  complete := stack.complete

/-! ### Each operation does the same on both -/

section
variable (stack : SecretStack maxBytes)

@[simp] theorem bytes_toField : stack.toField.bytes = Utf8.encode stack.chars := rfl

@[simp] theorem maxBytes_toField : stack.toField.maxBytes = maxBytes := rfl

@[simp] theorem complete_toField : stack.toField.complete = stack.complete := rfl

end

theorem pushChar_toField (stack : SecretStack maxBytes) (ch : Char) :
    stack.toField.pushChar ch = ((stack.pushChar ch).1.toField, (stack.pushChar ch).2) := by
  have hsize : Utf8.size (stack.chars ++ [ch]) = Utf8.size stack.chars + ch.utf8Size := by simp
  unfold SecretField.pushChar pushChar
  rw [complete_toField, bytes_toField, maxBytes_toField, Utf8.length_encode]
  split
  · rfl
  split
  · rw [dif_neg (by omega)]
  · rw [dif_pos (by omega)]
    simp [toField]

theorem pushText_toField (stack : SecretStack maxBytes) (text : String) :
    stack.toField.pushText text = (stack.pushText text).toField := by
  unfold SecretField.pushText pushText
  induction text.toList generalizing stack with
  | nil => rfl
  | cons ch text ih =>
      rw [List.foldl_cons, List.foldl_cons, pushChar_toField]
      exact ih (stack.pushChar ch).1

/-- Before the bytes that continue the last character there is one that begins it. -/
theorem lastCharStart_lt (stack : SecretStack maxBytes) (h : stack.toField.bytes ≠ []) :
    (stack.toField.bytes.reverse.takeWhile Utf8.continues).length <
      stack.toField.bytes.length := by
  rw [bytes_toField] at h ⊢
  obtain hnil | ⟨chars, ch, hchars⟩ := List.eq_nil_or_concat' stack.chars
  · exact absurd (Utf8.encode_eq_nil.mpr hnil) h
  · have htail := Utf8.takeWhile_continues chars ch
    rw [hchars, Utf8.length_encode, Utf8.size_append, Utf8.size_cons]
    omega

theorem pop_toField (stack : SecretStack maxBytes) : stack.toField.pop = stack.pop.toField := by
  obtain ⟨chars, complete, fits⟩ := stack
  cases complete with
  | true => simp [SecretField.pop, pop]
  | false =>
      obtain rfl | ⟨chars, ch, rfl⟩ := List.eq_nil_or_concat' chars
      · simp [SecretField.pop, pop, toField]
      · have htail := Utf8.takeWhile_continues chars ch
        have hnonempty : Utf8.encode (chars ++ [ch]) ≠ [] := by
          simp [Utf8.encode_eq_nil, -Utf8.encode_append]
        have hkept : Utf8.size (chars ++ [ch]) -
            ((Utf8.encode (chars ++ [ch])).reverse.takeWhile Utf8.continues).length - 1 =
              Utf8.size chars := by
          rw [Utf8.size_append, Utf8.size_cons, Utf8.size_nil]
          omega
        simp only [SecretField.pop, bytes_toField, hnonempty, complete_toField,
          Bool.false_eq_true, or_self, if_false, Utf8.length_encode, hkept]
        rw [Utf8.encode_append, List.take_left' (Utf8.length_encode chars)]
        simp [pop, toField]

theorem submit_toField (stack : SecretStack maxBytes) :
    stack.toField.submit = (stack.submit.1.toField, submitted stack.submit.2) := by
  unfold SecretField.submit submit
  rw [complete_toField, bytes_toField]
  cases hcomplete : stack.complete with
  | true => simp [submitted]
  | false =>
      by_cases hempty : stack.chars = []
      · simp [hempty, submitted]
      · simp [hempty, submitted, Utf8.encode_eq_nil, toField, empty]

theorem takeValue_toField (stack : SecretStack maxBytes) :
    stack.toField.takeValue = (stack.takeValue.1.toField, stack.takeValue.2.map Utf8.encode) := by
  unfold SecretField.takeValue takeValue
  rw [complete_toField]
  split
  · rename_i hcomplete
    simp [toField, empty, hcomplete]
  · rfl

theorem apply_toField (stack : SecretStack maxBytes) (edit : SecretEdit) :
    stack.toField.apply edit = ((stack.apply edit).1.toField, (stack.apply edit).2) := by
  cases edit with
  | pushChar ch => rw [SecretField.apply, pushChar_toField, apply]
  | pushText text => rw [SecretField.apply, pushText_toField, apply]
  | pop => rw [SecretField.apply, pop_toField, apply]
  | clear => rfl
  | submit => rw [SecretField.apply, submit_toField, apply]
  | takeValue => rw [SecretField.apply, takeValue_toField, apply]

theorem run_toField (stack : SecretStack maxBytes) (edits : List SecretEdit) :
    stack.toField.run edits = ((stack.run edits).1.toField, (stack.run edits).2) := by
  induction edits generalizing stack with
  | nil => rfl
  | cons edit edits ih => rw [SecretField.run, apply_toField, ih, run]

theorem masked_toField (stack : SecretStack maxBytes) :
    stack.toField.masked = String.ofList (List.replicate stack.chars.length '•') := by
  have hcount := Utf8.countP_continues stack.chars
  rw [List.countP_eq_length_filter] at hcount
  rw [SecretField.masked, bytes_toField, hcount]

end SecretStack

/-! ### Both fields -/

/-- After any operations a text field is its text split at the cursor, with the cursor where a
character begins, and a secret field is the bytes of a stack of characters. -/
theorem input_fields_refine (maxBytes : Nat) :
    (∀ edits : List Ui.TextEdit, ∃ (field : TextField maxBytes) (answers : List Ui.TextAnswer),
      TextField.new.run edits = (field, answers) ∧
      (Ui.TextField.new maxBytes).run edits = some (field.toField, answers) ∧
      Utf8.IsCharBoundary field.toField.text field.toField.cursor ∧
      field.toField.cursor ≤ field.toField.len ∧ field.toField.len ≤ maxBytes ∧
      ∀ ch ∈ field.toField.text, isUnsafeDisplayChar ch = false) ∧
    ∀ edits : List SecretEdit, ∃ (stack : SecretStack maxBytes) (answers : List SecretAnswer),
      (SecretStack.empty false).run edits = (stack, answers) ∧
      (SecretField.new maxBytes).run edits = (stack.toField, answers) ∧
      stack.toField.bytes.toByteArray.IsValidUTF8 ∧ stack.toField.bytes.length ≤ maxBytes ∧
      stack.toField.masked = String.ofList (List.replicate stack.chars.length '•') ∧
      (stack.complete = false →
        stack.toField.pop = { stack.toField with bytes := Utf8.encode stack.chars.dropLast }) ∧
      (stack.toField.bytes ≠ [] →
        (stack.toField.bytes.reverse.takeWhile Utf8.continues).length <
          stack.toField.bytes.length) := by
  constructor
  · intro edits
    refine ⟨(TextField.new.run edits).1, (TextField.new.run edits).2, rfl,
      TextField.run_toField .new edits, Utf8.isCharBoundary_size _ _, ?_, ?_, ?_⟩
    · rw [TextField.len_toField, TextField.cursor_toField]
      omega
    · exact (TextField.new.run edits).1.fits
    · have hsafe := (TextField.new.run edits : TextField maxBytes × _).1.safe
      rw [containsControlChar, List.any_eq_false] at hsafe
      intro ch hch
      exact Bool.not_eq_true _ ▸ hsafe ch hch
  · intro edits
    refine ⟨((SecretStack.empty false).run edits).1, ((SecretStack.empty false).run edits).2, rfl,
      SecretStack.run_toField (.empty false) edits, Utf8.isValidUTF8_encode _, ?_,
      SecretStack.masked_toField _, ?_, SecretStack.lastCharStart_lt _⟩
    · rw [SecretStack.bytes_toField, Utf8.length_encode]
      exact SecretStack.fits _
    · intro hopen
      rw [SecretStack.pop_toField, SecretStack.pop, hopen]
      simp [SecretStack.toField, hopen]

end Veilroom
