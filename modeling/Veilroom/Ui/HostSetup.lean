import Veilroom.Join.Form
import Veilroom.Library.Run

/-!
The screens in front of a session (`ui/app.rs`, `ui/screen.rs`) with the masked password field
(`ui/input.rs`): what the host setup form hands out, over any keys and pastes.

The screens that only the supervisor sets (Tor connecting, join form, join pending, room, message)
are left out: no key leads to them.
-/
namespace Veilroom

/-! ### Secret fields -/

inductive SecretSubmit
  | none
  | value (password : Bytes)
  | cancel
deriving DecidableEq

/-- `SecretField`. -/
structure SecretField where
  bytes : Bytes
  maxBytes : Nat
  complete : Bool
deriving DecidableEq

namespace SecretField

/-- `SecretField::new`. -/
def new (maxBytes : Nat) : SecretField := ⟨[], maxBytes, false⟩

/-- `SecretField::push_char`. -/
def pushChar (field : SecretField) (ch : Char) : SecretField × Bool :=
  if field.complete ∨ isUnsafeDisplayChar ch then (field, false)
  else if field.bytes.length + ch.utf8Size > field.maxBytes then (field, false)
  else ({ field with bytes := field.bytes ++ String.utf8EncodeChar ch }, true)

/-- `SecretField::push_text`. -/
def pushText (field : SecretField) (text : String) : SecretField :=
  text.toList.foldl (fun field ch => (field.pushChar ch).1) field

/-- `SecretField::pop`. -/
def pop (field : SecretField) : SecretField :=
  if field.complete ∨ field.bytes = [] then field
  else
    let lastCharStart := (field.bytes.reverse.takeWhile Utf8.continues).length
    { field with bytes := field.bytes.take (field.bytes.length - lastCharStart - 1) }

/-- `SecretField::clear`. -/
def clear (field : SecretField) : SecretField := { field with bytes := [], complete := false }

/-- `SecretField::submit`. -/
def submit (field : SecretField) : SecretField × SecretSubmit :=
  if field.complete then (field, .none)
  else if field.bytes = [] then (field, .none)
  else ({ field with bytes := [], complete := true }, .value field.bytes)

/-- `secret_key`. -/
def onKey (field : SecretField) : KeyCode → SecretField × SecretSubmit
  | .enter => field.submit
  | .esc => (field, .cancel)
  | .backspace => (field.pop, .none)
  | .char ch => ((field.pushChar ch).1, .none)
  | .other => (field, .none)

end SecretField

/-! ### Screens -/

def menuItems : Vector String 4 :=
  #v["Host a room", "Join a room", "About Veilroom", "Exit"]

/-- `MenuModel`; its selection wraps around. -/
structure MenuModel where
  selection : Fin 4 := 0
deriving DecidableEq

def MenuModel.selectedLabel (menu : MenuModel) : String := menuItems[menu.selection]

inductive HostField
  | password | confirm | nickname
deriving DecidableEq

/-- `HostSetupModel`. -/
structure HostSetupModel where
  password : SecretField
  confirm : SecretField
  nickname : TextField (Limits.default.maxNicknameScalars * 4)
  focus : HostField
  error : Option String
  stored : Option Bytes
deriving DecidableEq

namespace HostSetupModel

/-- `HostSetupModel::new`. -/
def new : HostSetupModel where
  password := .new (Limits.default.maxNicknameScalars * 4)
  confirm := .new (Limits.default.maxNicknameScalars * 4)
  nickname := .new
  focus := .password
  error := none
  stored := none

/-- `restart_password_entry`. -/
def restartPasswordEntry (form : HostSetupModel) : HostSetupModel :=
  { form with
    stored := none
    password := form.password.clear
    confirm := form.confirm.clear
    focus := .password
    error := some "Enter the room password again." }

end HostSetupModel

inductive JoinField
  | invitation | password
deriving DecidableEq

/-- `JoinSetupModel`. -/
structure JoinSetupModel where
  invitation : TextField 1024
  password : SecretField
  focus : JoinField
  error : Option String
deriving DecidableEq

/-- `JoinSetupModel::new`. -/
def JoinSetupModel.new : JoinSetupModel where
  invitation := .new
  password := .new (Limits.default.maxNicknameScalars * 4)
  focus := .invitation
  error := none

/-- The variants of `Screen` that keys lead to. -/
inductive AppScreen
  | menu (menu : MenuModel)
  | hostSetup (form : HostSetupModel)
  | joinSetup (form : JoinSetupModel)
  | about
deriving DecidableEq

/-- The variants of `AppAction` that these screens return. -/
inductive AppAction
  | none
  | quit
  | hostSetupSubmitted (password : Bytes) (nickname : String)
  | joinSetupSubmitted (invitation : String) (password : Bytes)
deriving DecidableEq

/-- A key, with the arrows that only the menu tells apart. -/
inductive AppKey
  | up | down
  | code (key : KeyCode)
deriving DecidableEq

/-- The key as the forms see it. -/
def AppKey.formKey : AppKey → KeyCode
  | .up | .down => .other
  | .code key => key

/-! ### Keys -/

/-- `on_menu_key`, with the screen that comes next. -/
def MenuModel.onKey (menu : MenuModel) : AppKey → AppScreen × AppAction
  | .up | .code (.char 'k') => (.menu { menu with selection := menu.selection - 1 }, .none)
  | .down | .code (.char 'j') => (.menu { menu with selection := menu.selection + 1 }, .none)
  | .code .enter =>
    if menu.selectedLabel = "Host a room" then (.hostSetup .new, .none)
    else if menu.selectedLabel = "Join a room" then (.joinSetup .new, .none)
    else if menu.selectedLabel = "About Veilroom" then (.about, .none)
    else (.menu menu, .quit)
  | .code .esc | .code (.char 'q') => (.menu menu, .quit)
  | _ => (.menu menu, .none)

/-- `on_host_setup_key`. -/
def HostSetupModel.onKey (form : HostSetupModel) (key : KeyCode) : AppScreen × AppAction :=
  match form.focus with
  | .password =>
    match form.password.onKey key with
    | (field, .value password) =>
      (.hostSetup { form with password := field, stored := some password, focus := .confirm },
        .none)
    | (_, .cancel) => (.menu {}, .none)
    | (field, .none) => (.hostSetup { form with password := field }, .none)
  | .confirm =>
    match form.confirm.onKey key with
    | (field, .value confirm) =>
      if form.stored = some confirm then
        (.hostSetup { form with confirm := field, focus := .nickname, error := none }, .none)
      else
        (.hostSetup { form with
          confirm := field.clear
          focus := .confirm
          error := some ("The passwords do not match. Confirm again, or press Esc to " ++
            "re-enter the password.") }, .none)
    | (field, .cancel) => (.hostSetup { form with confirm := field }.restartPasswordEntry, .none)
    | (field, .none) => (.hostSetup { form with confirm := field }, .none)
  | .nickname =>
    match key with
    | .enter =>
      match form.nickname.submit with
      | (nickname, true) =>
        -- `take_password().unwrap_or_default()`
        (.hostSetup { form with nickname, stored := none },
          .hostSetupSubmitted (form.stored.getD []) nickname.text)
      | (nickname, false) =>
        (.hostSetup { form with
          nickname, error := some "Enter a nickname before continuing." }, .none)
    | .esc => (.hostSetup form.restartPasswordEntry, .none)
    | .backspace => (.hostSetup { form with nickname := form.nickname.backspace }, .none)
    | .char ch => (.hostSetup { form with nickname := form.nickname.insertChar ch }, .none)
    | .other => (.hostSetup form, .none)

/-- `on_join_setup_key`. -/
def JoinSetupModel.onKey (form : JoinSetupModel) (key : KeyCode) : AppScreen × AppAction :=
  match form.focus with
  | .invitation =>
    match key with
    | .enter =>
      match form.invitation.submit with
      | (invitation, true) =>
        (.joinSetup { form with invitation, focus := .password, error := none }, .none)
      | (invitation, false) =>
        (.joinSetup { form with
          invitation, error := some "Paste an invitation URI before continuing." }, .none)
    | .esc => (.menu {}, .none)
    | .backspace => (.joinSetup { form with invitation := form.invitation.backspace }, .none)
    | .char ch => (.joinSetup { form with invitation := form.invitation.insertChar ch }, .none)
    | .other => (.joinSetup form, .none)
  | .password =>
    match form.password.onKey key with
    | (field, .value password) =>
      (.joinSetup { form with password := field },
        .joinSetupSubmitted form.invitation.text password)
    | (field, .cancel) =>
      (.joinSetup { form with
        password := field.clear
        invitation := form.invitation.reopen
        focus := .invitation
        error := none }, .none)
    | (field, .none) => (.joinSetup { form with password := field }, .none)

/-- `App`. -/
structure App where
  screen : AppScreen
  quit : Bool := false
deriving DecidableEq

namespace App

/-- `App::on_key`. -/
def onKey (app : App) (key : AppKey) : App × AppAction :=
  let (screen, action) :=
    match app.screen with
    | .menu menu => menu.onKey key
    | .hostSetup form => form.onKey key.formKey
    | .joinSetup form => form.onKey key.formKey
    | .about => (.menu {}, .none)
  (⟨screen, app.quit || action = .quit⟩, action)

/-- `App::on_paste`. -/
def onPaste (app : App) (text : String) : App :=
  match app.screen with
  | .hostSetup form =>
    match form.focus with
    | .password =>
      { app with screen := .hostSetup { form with password := form.password.pushText text } }
    | .confirm =>
      { app with screen := .hostSetup { form with confirm := form.confirm.pushText text } }
    | .nickname =>
      { app with screen := .hostSetup { form with nickname := form.nickname.insertText text } }
  | .joinSetup form =>
    match form.focus with
    | .invitation =>
      { app with screen := .joinSetup { form with invitation := form.invitation.insertText text } }
    | .password =>
      { app with screen := .joinSetup { form with password := form.password.pushText text } }
  | .menu _ | .about => app

end App

inductive AppEvent
  | key (key : AppKey)
  | paste (text : String)
deriving DecidableEq

namespace App

def step (app : App) : AppEvent → App × AppAction
  | .key key => app.onKey key
  | .paste text => (app.onPaste text, .none)

abbrev Entry := Machine.Entry App AppEvent AppAction

/-- A run from a fresh host setup form. -/
abbrev Run : List Entry → App → Prop :=
  Machine.Run step (fun _ _ _ => True) ⟨.hostSetup .new, false⟩

end App

/-! ### What was typed -/

def SecretSubmit.password : SecretSubmit → Option Bytes
  | .value password => some password
  | _ => Option.none

/-- The password that the first entry of a host setup form hands out. -/
def entered (screen : AppScreen) (event : AppEvent) : Option Bytes :=
  match screen, event with
  | .hostSetup form, .key key =>
    if form.focus = .password then (form.password.onKey key.formKey).2.password else none
  | _, _ => none

/-- What the confirmation of a host setup form hands out. -/
def confirmation (screen : AppScreen) (event : AppEvent) : Option Bytes :=
  match screen, event with
  | .hostSetup form, .key key =>
    if form.focus = .confirm then (form.confirm.onKey key.formKey).2.password else none
  | _, _ => none

namespace App

/-- The most recent password entry. -/
def lastEntered (past : List Entry) : Option Bytes :=
  past.findSome? fun entry => entered entry.before.screen entry.input

/-- The most recent confirmation since then. -/
def lastConfirmation (past : List Entry) : Option Bytes :=
  (past.takeWhile fun entry => (entered entry.before.screen entry.input).isNone).findSome?
    fun entry => confirmation entry.before.screen entry.input

end App

/-! ### One event -/

theorem SecretField.onKey_value {field field' : SecretField} {key : KeyCode} {password : Bytes}
    (h : field.onKey key = (field', .value password)) : password ≠ [] := by
  cases key with
  | enter =>
      simp only [onKey, submit] at h
      split at h
      · cases h
      split at h
      · cases h
      · rename_i hnonempty
        cases h
        exact hnonempty
  | esc | backspace | char _ | other => cases h

namespace TextField
variable {maxBytes : Nat}

@[simp] theorem complete_insertChar (field : TextField maxBytes) (ch : Char) :
    (field.insertChar ch).complete = field.complete := by
  unfold insertChar
  split
  · rfl
  split <;> rfl

@[simp] theorem complete_backspace (field : TextField maxBytes) :
    field.backspace.complete = field.complete := by
  unfold backspace
  split <;> rfl

@[simp] theorem complete_insertText (field : TextField maxBytes) (text : String) :
    (field.insertText text).complete = field.complete := by
  unfold insertText
  induction text.toList generalizing field with
  | nil => rfl
  | cons ch rest ih => rw [List.foldl_cons, ih, complete_insertChar]

theorem submit_true {field field' : TextField maxBytes} (h : field.submit = (field', true)) :
    field.complete = false ∧ field'.complete = true ∧ field'.text ≠ "" := by
  unfold submit at h
  split at h
  · cases h
  split at h
  · cases h
  · rename_i hcomplete hnonempty
    cases h
    refine ⟨by simpa using hcomplete, rfl, ?_⟩
    intro htext
    apply hnonempty
    simpa [text] using htext

theorem submit_false {field field' : TextField maxBytes} (h : field.submit = (field', false)) :
    field' = field := by
  unfold submit at h
  split at h
  · cases h
    rfl
  split at h
  · cases h
    rfl
  · cases h

end TextField

/-- What an event can do on a host setup form. -/
inductive SetupTurn (form : HostSetupModel) (event : AppEvent) :
    AppScreen × AppAction → Prop
  | leaves : form.focus = .password → SetupTurn form event (.menu {}, .none)
  | edits {form' : HostSetupModel} : form'.focus = form.focus → form'.stored = form.stored →
      form'.nickname.complete = form.nickname.complete →
      entered (.hostSetup form) event = none →
      (form.focus = .nickname → confirmation (.hostSetup form) event = none) →
      SetupTurn form event (.hostSetup form', .none)
  | enters {form' : HostSetupModel} {password} : password ≠ [] →
      entered (.hostSetup form) event = some password → form'.focus = .confirm →
      form'.stored = some password → SetupTurn form event (.hostSetup form', .none)
  | confirms {form' : HostSetupModel} {password} : form.focus = .confirm →
      entered (.hostSetup form) event = none → form.stored = some password →
      confirmation (.hostSetup form) event = some password → form'.focus = .nickname →
      form'.stored = form.stored → SetupTurn form event (.hostSetup form', .none)
  | restarts {form' : HostSetupModel} : form'.focus = .password →
      SetupTurn form event (.hostSetup form', .none)
  | submits {form' : HostSetupModel} {nickname} : form.focus = .nickname →
      form.nickname.complete = false → nickname ≠ "" → form'.focus = .nickname →
      form'.nickname.complete = true →
      SetupTurn form event
        (.hostSetup form', .hostSetupSubmitted (form.stored.getD []) nickname)

theorem onKey_turn (form : HostSetupModel) (key : AppKey) :
    SetupTurn form (.key key) (form.onKey key.formKey) := by
  cases hfocus : form.focus with
  | password =>
      simp only [HostSetupModel.onKey, hfocus]
      cases hkey : form.password.onKey key.formKey with
      | mk field result =>
          have hentered : entered (.hostSetup form) (.key key) = result.password := by
            simp [entered, hfocus, hkey]
          cases result with
          | none => exact .edits hfocus.symm rfl rfl hentered (by simp [hfocus])
          | value password => exact .enters (SecretField.onKey_value hkey) hentered rfl rfl
          | cancel => exact .leaves hfocus
  | confirm =>
      simp only [HostSetupModel.onKey, hfocus]
      have hentered : entered (.hostSetup form) (.key key) = none := by simp [entered, hfocus]
      cases hkey : form.confirm.onKey key.formKey with
      | mk field result =>
          have hconfirmation : confirmation (.hostSetup form) (.key key) = result.password := by
            simp [confirmation, hfocus, hkey]
          cases result with
          | none => exact .edits hfocus.symm rfl rfl hentered (by simp [hfocus])
          | value password =>
              dsimp only
              split
              · rename_i hstored
                exact .confirms hfocus hentered hstored hconfirmation rfl rfl
              · exact .edits hfocus.symm rfl rfl hentered (by simp [hfocus])
          | cancel => exact .restarts rfl
  | nickname =>
      have hentered : entered (.hostSetup form) (.key key) = none := by simp [entered, hfocus]
      have hconfirmation : confirmation (.hostSetup form) (.key key) = none := by
        simp [confirmation, hfocus]
      simp only [HostSetupModel.onKey, hfocus]
      cases key.formKey with
      | enter =>
          dsimp only
          cases hsubmit : form.nickname.submit with
          | mk nickname submitted =>
              cases submitted with
              | true =>
                  obtain ⟨hcomplete, hcomplete', htext⟩ := TextField.submit_true hsubmit
                  exact .submits hfocus hcomplete htext rfl hcomplete'
              | false =>
                  have hsame := TextField.submit_false hsubmit
                  exact .edits hfocus.symm rfl (by rw [hsame]) hentered fun _ => hconfirmation
      | esc => exact .restarts rfl
      | backspace =>
          exact .edits hfocus.symm rfl (TextField.complete_backspace _) hentered
            fun _ => hconfirmation
      | char ch =>
          exact .edits hfocus.symm rfl (TextField.complete_insertChar _ ch) hentered
            fun _ => hconfirmation
      | other => exact .edits rfl rfl rfl hentered fun _ => hconfirmation

theorem onPaste_turn (form : HostSetupModel) (quit : Bool) (text : String) :
    SetupTurn form (.paste text) ((App.onPaste ⟨.hostSetup form, quit⟩ text).screen, .none) := by
  cases hfocus : form.focus with
  | password | confirm =>
      simp only [App.onPaste, hfocus]
      exact .edits hfocus.symm rfl rfl rfl fun _ => rfl
  | nickname =>
      simp only [App.onPaste, hfocus]
      exact .edits hfocus.symm rfl (TextField.complete_insertText _ text) rfl fun _ => rfl

theorem step_setup_turn (form : HostSetupModel) (quit : Bool) (event : AppEvent) :
    SetupTurn form event ((App.step ⟨.hostSetup form, quit⟩ event).1.screen,
      (App.step ⟨.hostSetup form, quit⟩ event).2) := by
  cases event with
  | key key => exact onKey_turn form key
  | paste text => exact onPaste_turn form quit text

/-- Away from the host setup form nothing is submitted by a host, and the form comes back
fresh. -/
theorem step_other {app : App} (h : ∀ form, app.screen ≠ .hostSetup form) (event : AppEvent) :
    (∀ form, (app.step event).1.screen = .hostSetup form → form = .new) ∧
      ∀ password nickname, (app.step event).2 ≠ .hostSetupSubmitted password nickname := by
  obtain ⟨screen, quit⟩ := app
  cases event with
  | paste text =>
      cases screen with
      | hostSetup form => exact absurd rfl (h form)
      | menu menu | about => simp [App.step, App.onPaste]
      | joinSetup form =>
          cases hfocus : form.focus <;> simp [App.step, App.onPaste, hfocus]
  | key key =>
      cases screen with
      | hostSetup form => exact absurd rfl (h form)
      | about => simp [App.step, App.onKey]
      | menu menu =>
          have hmenu : ∀ key, (∀ form, (menu.onKey key).1 = .hostSetup form → form = .new) ∧
              ∀ password nickname, (menu.onKey key).2 ≠ .hostSetupSubmitted password nickname := by
            intro key
            fun_cases menu.onKey key <;> simp
          exact hmenu key
      | joinSetup form =>
          have hjoin : ∀ key, (∀ form', (form.onKey key).1 ≠ .hostSetup form') ∧
              ∀ password nickname, (form.onKey key).2 ≠ .hostSetupSubmitted password nickname := by
            intro key
            fun_cases form.onKey key <;> simp
          obtain ⟨hscreen, haction⟩ := hjoin key.formKey
          exact ⟨fun form' h => absurd h (hscreen form'), haction⟩

/-! ### Whole runs -/

namespace App
variable {past : List Entry} {app : App}

theorem lastEntered_cons (entry : Entry) :
    lastEntered (entry :: past) =
      (entered entry.before.screen entry.input).or (lastEntered past) := by
  unfold lastEntered
  rw [List.findSome?_cons]
  cases entered entry.before.screen entry.input <;> rfl

theorem lastConfirmation_cons {entry : Entry} (h : entered entry.before.screen entry.input = none) :
    lastConfirmation (entry :: past) =
      (confirmation entry.before.screen entry.input).or (lastConfirmation past) := by
  unfold lastConfirmation
  rw [List.takeWhile_cons_of_pos (by simp [h]), List.findSome?_cons]
  cases confirmation entry.before.screen entry.input <;> rfl

/-- What a host setup form holds: from the first entry on the password entered last, and before
its nickname is submitted that password confirmed. -/
def Holds (past : List Entry) (form : HostSetupModel) : Prop :=
  match form.focus with
  | .password => True
  | .confirm => ∃ password, password ≠ [] ∧ form.stored = some password ∧
      lastEntered past = some password
  | .nickname => form.nickname.complete = false → ∃ password, password ≠ [] ∧
      form.stored = some password ∧ lastEntered past = some password ∧
      lastConfirmation past = some password

theorem Holds.turn {form form' : HostSetupModel} {event : AppEvent} {action : AppAction}
    {entry : Entry} (h : Holds past form)
    (hturn : SetupTurn form event (.hostSetup form', action))
    (hentry : entry.before.screen = .hostSetup form) (hinput : entry.input = event) :
    Holds (entry :: past) form' := by
  subst hinput
  unfold Holds at h ⊢
  cases hturn with
  | edits hfocus hstored hcomplete hentered hconfirmation =>
      rw [hfocus, hstored, hcomplete, lastEntered_cons, hentry, hentered, Option.none_or]
      cases hform : form.focus with
      | password => trivial
      | confirm => simpa only [hform] using h
      | nickname =>
          rw [lastConfirmation_cons (by rw [hentry, hentered]), hentry, hconfirmation hform,
            Option.none_or]
          simpa only [hform] using h
  | enters hnonempty hentered hfocus hstored =>
      rw [hfocus]
      refine ⟨_, hnonempty, hstored, ?_⟩
      rw [lastEntered_cons, hentry, hentered]
      rfl
  | confirms hfocus hentered hstored hconfirmation hfocus' hstored' =>
      rw [hfocus']
      rw [hfocus] at h
      intro _
      obtain ⟨password, hnonempty, hheld, hlast⟩ := h
      rw [hstored] at hheld
      cases hheld
      refine ⟨_, hnonempty, hstored'.trans hstored, ?_, ?_⟩
      · rw [lastEntered_cons, hentry, hentered, Option.none_or, hlast]
      · rw [lastConfirmation_cons (by rw [hentry, hentered]), hentry, hconfirmation]
        rfl
  | restarts hfocus =>
      rw [hfocus]
      trivial
  | submits _ _ _ hfocus hcomplete =>
      rw [hfocus]
      intro hopen
      rw [hcomplete] at hopen
      cases hopen

theorem holds_of_run (run : Run past app) {form : HostSetupModel}
    (hform : app.screen = .hostSetup form) : Holds past form := by
  induction run generalizing form with
  | start =>
      cases hform
      trivial
  | @step past app event run _ ih =>
      by_cases hsetup : ∃ form, app.screen = .hostSetup form
      · obtain ⟨before, hbefore⟩ := hsetup
        obtain ⟨screen, quit⟩ := app
        cases hbefore
        have hturn := step_setup_turn before quit event
        rw [hform] at hturn
        exact (ih rfl).turn hturn rfl rfl
      · obtain ⟨hfresh, -⟩ := step_other (fun form h => hsetup ⟨form, h⟩) event
        rw [hfresh form hform]
        trivial

/-- Over any keys and pastes: what the host setup form submits is the password entered last, as it
was confirmed since, and never the empty default, with a nickname. -/
theorem host_setup_confirmed (run : Run past app) {newer older : List Entry} {entry : Entry}
    (hpast : past = newer ++ entry :: older) {password : Bytes} {nickname : String}
    (hsubmitted : entry.output = .hostSetupSubmitted password nickname) :
    password ≠ [] ∧ lastEntered older = some password ∧
      lastConfirmation older = some password ∧ nickname ≠ "" ∧
      ∃ form, entry.before.screen = .hostSetup form ∧ form.stored = some password := by
  rw [hpast] at run
  obtain ⟨hbefore, -, hstep, -⟩ := run.split
  obtain ⟨⟨screen, quit⟩, event, output, after⟩ := entry
  cases hsubmitted
  dsimp only at hbefore hstep
  by_cases hsetup : ∃ form, screen = .hostSetup form
  · obtain ⟨form, rfl⟩ := hsetup
    have hholds := holds_of_run hbefore rfl
    have hturn := step_setup_turn form quit event
    rw [hstep] at hturn
    generalize after.screen = screen' at hturn
    cases hturn with
    | submits hfocus hopen hnickname _ _ =>
        unfold Holds at hholds
        rw [hfocus] at hholds
        obtain ⟨password, hnonempty, hstored, hlast, hconfirmed⟩ := hholds hopen
        rw [hstored]
        exact ⟨hnonempty, hlast, hconfirmed, hnickname, form, rfl, hstored⟩
  · have hother : ∀ form, (⟨screen, quit⟩ : App).screen ≠ .hostSetup form :=
      fun form h => hsetup ⟨form, h⟩
    exact absurd (congrArg Prod.snd hstep) ((step_other hother event).2 _ _)

/-- A confirmation that fails, a way back, another password, and its confirmation. -/
def secondThoughts : List AppEvent :=
  [.paste "pw", .key (.code .enter), .paste "px", .key (.code .enter), .key (.code .esc),
    .paste "abc", .key (.code .backspace), .key (.code .enter), .key (.code (.char 'a')),
    .key (.code (.char 'b')), .key (.code .enter), .key (.code .enter), .paste "n",
    .key (.code .enter)]

def secondThoughtsPast : List Entry :=
  (Machine.exec step secondThoughts [] ⟨.hostSetup .new, false⟩).1

theorem host_setup_confirmed_second :
    ([97, 98] : Bytes) ≠ [] ∧ lastEntered secondThoughtsPast.tail = some [97, 98] ∧
      lastConfirmation secondThoughtsPast.tail = some [97, 98] ∧ "n" ≠ "" := by
  have run : Run secondThoughtsPast
      (Machine.exec step secondThoughts [] ⟨.hostSetup .new, false⟩).2 := by
    apply Machine.Run.exec .start
    intros
    trivial
  have hlast : secondThoughtsPast.head?.map Machine.Entry.output =
      some (.hostSetupSubmitted [97, 98] "n") := by
    decide +kernel
  obtain ⟨entry, hhead, hsubmitted⟩ := Option.map_eq_some_iff.mp hlast
  have hpast : secondThoughtsPast = [] ++ entry :: secondThoughtsPast.tail :=
    (List.cons_head?_tail hhead).symm
  obtain ⟨hnonempty, hentered, hconfirmed, hnickname, -⟩ :=
    host_setup_confirmed run hpast hsubmitted
  exact ⟨hnonempty, hentered, hconfirmed, hnickname⟩

end App

end Veilroom
