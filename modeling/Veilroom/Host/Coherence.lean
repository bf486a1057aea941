import Veilroom.Host.Invitations
import Veilroom.Host.Panels
import Veilroom.Uri.Language

/-!
The host's screen over whole runs: what it says of the room it runs, at any time and once nothing
is in flight.
-/
namespace Veilroom

/-! ### Rounds of the room task -/

namespace RoomTask
open RoomActor
variable {P : Primitives} {a : RoomActor}

/-- A round changes neither the identity of the host nor the session. -/
theorem receive_sameRoom (hvalid : a.registry.Valid) (input : TaskInput) :
    (receive P a input).1.hostIdentity = a.hostIdentity ∧
      (receive P a input).1.sessionId = a.sessionId := by
  have heffect := handleEventAt_effect P input.rng hvalid input.event input.now
  have hfirst := heffect.move.sameRoom
  obtain heq | ⟨c, -, heq⟩ := receive_cases (P := P) a input
  · rw [heq]
    exact ⟨hfirst.hostIdentity, hfirst.sessionId⟩
  · have hsecond := (handleEventAt_effect P input.cleanupRng heffect.step.valid (.connectionLost c)
      input.cleanupNow).move.sameRoom
    rw [heq]
    exact ⟨hsecond.hostIdentity.trans hfirst.hostIdentity,
      hsecond.sessionId.trans hfirst.sessionId⟩

/-- A round on an honest event keeps the room keyed. -/
theorem receive_keyed (law : P.Lawful) (hkeyed : Keyed P a) (hvalid : a.registry.Valid)
    {input : TaskInput} (hrng : input.rng.Succeeds) (hcleanup : input.cleanupRng.Succeeds)
    (hreleased : ∀ connection application, input.event = .joinRequested connection application →
      application.Released P a.hostIdentity a.sessionId) :
    Keyed P (receive P a input).1 := by
  have hfirst : Keyed P (a.handle P input.toInput).1 :=
    hkeyed.step law hvalid (Honest.mk hrng hreleased : Honest P [] a input.toInput)
  have hvalid' := (handleEventAt_effect P input.rng hvalid input.event input.now).step.valid
  obtain heq | ⟨c, -, heq⟩ := receive_cases (P := P) a input
  · rw [heq]
    exact hfirst
  · rw [heq]
    exact hfirst.step law hvalid' (Honest.mk hcleanup nofun : Honest P [] _ (input.cleanup c))

/-- A room that is over stays over. -/
theorem receive_over (h : Over a) (input : TaskInput) : Over (receive P a input).1 := by
  have hhandle : ∀ (a : RoomActor) (input : Veilroom.Input), Over a →
      Over (a.handle P input).1 := by
    intro a input h
    unfold RoomActor.handle handleEventAt
    dsimp only
    split
    · exact h
    · rename_i hopen
      exact absurd h hopen
  obtain heq | ⟨c, -, heq⟩ := receive_cases (P := P) a input
  · rw [heq]
    exact hhandle a _ h
  · rw [heq]
    exact hhandle _ _ (hhandle a _ h)

end RoomTask

/-! ### Steps of the screen -/

namespace HostScreen
variable {latest : Nat} (P : Primitives) (C : Uri.Codecs) (debug : Message → String)

/-- Messages arrive on accepted connections, and keys on the screen. -/
def Arrives (screen : HostScreen latest) : Input latest → Prop
  | .supervisor (.actions _) _ | .supervisor (.key _) _ => False
  | .supervisor input _ => Supervisor.Arrives [] screen.session.supervisor input
  | _ => True

/-- A run in which the world may offer what `allowed` lets it. -/
abbrev Run (allowed : Input latest → Prop) (screen₀ : HostScreen latest)
    (past : List (Machine.Entry (HostScreen latest) (Input latest) HostSession.Output))
    (screen : HostScreen latest) : Prop :=
  Machine.Run (step P C debug) (fun _ screen input => screen.Arrives input ∧ allowed input)
    screen₀ past screen

/-- The screen as the session enters its loop. -/
structure Started (setup : Setup) (actions : List RoomAction) (before : Supervisor)
    (answers : Nat → Supervisor.ActionInput) (clocks : Nat → Ui.Clock latest)
    (screen : HostScreen latest) : Prop extends
    HostSession.Started P setup actions before answers screen.session where
  policy : before.policy = .opened
  view : screen.view = ((Ui.RoomView.host setup.hostNickname).pushSystem "Starting the room..."
    (clocks 0 0)).onActions P C before (HostSession.answered answers actions)
      fun i => clocks (i + 1)

/-- What the screen says once the supervisor has handled what is in flight. -/
def expected (screen : HostScreen latest) : Panels :=
  screen.session.batches.flatten.foldl (Panels.hear C screen.session.supervisor.onionAddress)
    (.shown screen.session.supervisor screen.view)

/-- What a step of the screen is: it shows something else, or it is a step of the session too. -/
inductive Moves (screen : HostScreen latest) : Input latest → HostScreen latest → Prop
  | shows {input : Input latest} {view : Ui.RoomView latest} : screen.view.SamePanels view →
      Moves screen input { screen with view }
  | supervised (input : Supervisor.Input) (clock : Ui.Clock latest) {view : Ui.RoomView latest} :
      (∀ batch, input ≠ .actions batch) → Supervisor.Arrives [] screen.session.supervisor input →
      screen.view.SamePanels view →
      Moves screen (.supervisor input clock)
        ⟨(screen.session.step P debug (.supervisor input)).1, view⟩
  | typed {input : Input latest} (key : Supervisor.KeyInput) {view : Ui.RoomView latest} :
      screen.view.SamePanels view →
      Moves screen input ⟨(screen.session.step P debug (.supervisor (.key key))).1, view⟩
  | acted (answers : Nat → Supervisor.ActionInput) (clocks : Nat → Ui.Clock latest)
      (batch : List RoomAction) {batches : List (List RoomAction)} :
      screen.session.batches = batch :: batches →
      Moves screen (.actions answers clocks)
        ⟨(screen.session.step P debug (.actions answers)).1,
          screen.view.onActions P C screen.session.supervisor
            (HostSession.answered answers batch) clocks⟩
  | received (input : TaskInput) {events : List RoomEvent} :
      screen.session.events = input.event :: events →
      Moves screen (.room input.now input.cleanupNow input.rng input.cleanupRng)
        { screen with session := (screen.session.step P debug
            (.room input.now input.cleanupNow input.rng input.cleanupRng)).1 }

variable {P C debug} {screen : HostScreen latest}

theorem onUiAction_moves (action : Ui.RoomUiAction) (nonce : Option Nonce)
    (clipboard : Except String Unit) (clock : Ui.Clock latest) {input : Input latest}
    {view : Ui.RoomView latest} (hview : screen.view.SamePanels view) :
    Moves P C debug screen input
      ((({ screen with view } : HostScreen latest).onUiAction P debug action nonce clipboard
        clock).1) := by
  cases action with
  | exit => exact .typed .exit hview
  | chat _ => exact .shows (hview.trans ⟨rfl, rfl⟩)
  | command command =>
      have hshown := hview.trans
        (view.onHostCommand_panels (P := P) screen.session.supervisor nonce clock command)
      unfold onUiAction
      dsimp only
      split
      · exact .typed _ hshown
      · exact .shows hshown
  | error text => exact .shows (hview.trans ⟨rfl, rfl⟩)
  | copyInvitation _ =>
      unfold onUiAction
      dsimp only
      split <;> exact .shows (hview.trans ⟨rfl, rfl⟩)
  | leave => exact .shows hview

theorem step_moves {input : Input latest} (harrives : screen.Arrives input) :
    Moves P C debug screen input (screen.step P C debug input).1 := by
  cases input with
  | supervisor input clock =>
      have hview := screen.view.onSupervised_panels (P := P) screen.session.supervisor clock input
      cases input with
      | actions _ | key _ => cases harrives
      | _ => exact .supervised _ clock (by simp) harrives hview
  | room now cleanupNow rng cleanupRng =>
      cases hevents : screen.session.events with
      | nil =>
          have hwaits :
              (screen.step P C debug (.room now cleanupNow rng cleanupRng)).1 = screen := by
            simp [step, proceed, HostSession.step, hevents]
          rw [hwaits]
          exact .shows (.refl _)
      | cons event events => exact .received ⟨⟨event, now, rng⟩, cleanupNow, cleanupRng⟩ hevents
  | actions answers clocks =>
      cases hbatches : screen.session.batches with
      | nil =>
          have hidles : (screen.step P C debug (.actions answers clocks)).1 = screen := by
            simp [step, proceed, HostSession.step, hbatches, HostSession.answered,
              Ui.RoomView.onActions]
          rw [hidles]
          exact .shows (.refl _)
      | cons batch batches =>
          simpa [step, proceed, hbatches] using Moves.acted answers clocks batch hbatches
  | key key nonce clipboard clock =>
      have hview := screen.view.onKey_panels key clock
      unfold step
      dsimp only
      split
      · exact onUiAction_moves _ nonce clipboard clock hview
      · exact .shows hview
  | paste text => exact .shows ⟨rfl, rfl⟩
  | expiry now => exact .shows ⟨rfl, rfl⟩

/-! ### What the screen says -/

section
variable {onionAddress : String}

theorem expected_congr {screen' : HostScreen latest}
    (hbatches : screen'.session.batches = screen.session.batches)
    (haddress : screen'.session.supervisor.onionAddress = screen.session.supervisor.onionAddress)
    (hshown : Panels.shown screen'.session.supervisor screen'.view =
      .shown screen.session.supervisor screen.view) :
    screen'.expected C = screen.expected C := by
  rw [expected, expected, hbatches, haddress, hshown]

theorem expected_shows {view : Ui.RoomView latest} (h : screen.view.SamePanels view) :
    ({ screen with view } : HostScreen latest).expected C = screen.expected C :=
  expected_congr rfl rfl (Panels.shown_congr (.refl screen.session.supervisor) h)

/-- What the supervisor does on its own is nothing that the screen says of the room. -/
theorem expected_supervised {input : Supervisor.Input} {view : Ui.RoomView latest}
    (hother : ∀ batch, input ≠ .actions batch) (h : screen.view.SamePanels view) :
    (⟨(screen.session.step P debug (.supervisor input)).1, view⟩ : HostScreen latest).expected C =
      screen.expected C := by
  have hsame : Supervisor.SameHost screen.session.supervisor
      (screen.session.supervisor.step P debug input).1 :=
    screen.session.supervisor.step_sameHost hother
  exact expected_congr rfl hsame.onionAddress (Panels.shown_congr hsame h)

/-- A batch that is handled is not in flight any more. -/
theorem expected_acted {answers : Nat → Supervisor.ActionInput} {clocks : Nat → Ui.Clock latest}
    {batch : List RoomAction} {batches : List (List RoomAction)}
    (hbatches : screen.session.batches = batch :: batches) :
    (⟨(screen.session.step P debug (.actions answers)).1,
      screen.view.onActions P C screen.session.supervisor
        (HostSession.answered answers batch) clocks⟩ : HostScreen latest).expected C =
      screen.expected C := by
  have hshown := Panels.onActions_shown (P := P) (C := C) screen.session.supervisor screen.view
    (HostSession.answered answers batch) clocks
  have hsame := screen.session.supervisor.handleHostActions_sameRoom (P := P)
    (HostSession.answered answers batch)
  rw [HostSession.map_answered] at hshown
  simp only [expected, HostSession.step, hbatches]
  change List.foldl (Panels.hear C (Supervisor.onionAddress
    (screen.session.supervisor.handleHostActions P (HostSession.answered answers batch)).1))
    (Panels.shown (screen.session.supervisor.handleHostActions P
      (HostSession.answered answers batch)).1 _) batches.flatten = _
  rw [hshown, hsame.onionAddress, List.flatten_cons, List.foldl_append]

private theorem flatten_emitted (batches : List (List RoomAction)) (batch : List RoomAction) :
    (if batch.isEmpty then batches else batches ++ [batch]).flatten = batches.flatten ++ batch := by
  cases batch with
  | nil => simp
  | cons action rest => simp

theorem expected_received {input : TaskInput} {events : List RoomEvent}
    (hevents : screen.session.events = input.event :: events) :
    ({ screen with session := (screen.session.step P debug
        (.room input.now input.cleanupNow input.rng input.cleanupRng)).1 } :
      HostScreen latest).expected C =
      (RoomTask.receive P screen.session.room input).2.foldl
        (Panels.hear C screen.session.supervisor.onionAddress) (screen.expected C) := by
  simp only [expected, HostSession.step, hevents, HostSession.receive]
  rw [flatten_emitted, List.foldl_append]

/-- The screen agrees with the room, once it has heard what is in flight. -/
structure Faithful (C : Uri.Codecs) (onionAddress : String) (screen : HostScreen latest) :
    Prop where
  valid : screen.session.room.registry.Valid
  held : NoNews screen.session.room.pendingMembership
  address : screen.session.supervisor.onionAddress = onionAddress
  agrees : (screen.expected C).Agrees C onionAddress screen.session.room.told

theorem Faithful.congr {screen' : HostScreen latest} (h : screen.Faithful C onionAddress)
    (hroom : screen'.session.room = screen.session.room)
    (haddress : screen'.session.supervisor.onionAddress = screen.session.supervisor.onionAddress)
    (hexpected : screen'.expected C = screen.expected C) : screen'.Faithful C onionAddress where
  valid := hroom ▸ h.valid
  held := hroom ▸ h.held
  address := haddress.trans h.address
  agrees := by
    rw [hexpected, hroom]
    exact h.agrees

/-- A round tells the screen what the room has after it. -/
theorem Faithful.received (h : screen.Faithful C onionAddress) {input : TaskInput}
    {events : List RoomEvent} (hevents : screen.session.events = input.event :: events) :
    ({ screen with session := (screen.session.step P debug
        (.room input.now input.cleanupNow input.rng input.cleanupRng)).1 } :
      HostScreen latest).Faithful C onionAddress := by
  have hroom : (screen.session.step P debug (.room input.now input.cleanupNow input.rng
      input.cleanupRng)).1.room = (RoomTask.receive P screen.session.room input).1 := by
    simp only [HostSession.step, hevents, HostSession.receive]
  have hsupervisor : (screen.session.step P debug (.room input.now input.cleanupNow input.rng
      input.cleanupRng)).1.supervisor = screen.session.supervisor := by
    simp only [HostSession.step, hevents, HostSession.receive]
  refine ⟨?_, ?_, ?_, ?_⟩
  · rw [hroom]
    exact RoomTask.receive_valid h.valid input
  · rw [hroom]
    exact RoomTask.receive_held h.valid h.held input
  · rw [hsupervisor]
    exact h.address
  · rw [expected_received hevents, hroom, h.address,
      ← RoomTask.receive_told h.valid h.held input]
    exact h.agrees.hears _

theorem Faithful.step (h : screen.Faithful C onionAddress) {input : Input latest}
    (harrives : screen.Arrives input) :
    (screen.step P C debug input).1.Faithful C onionAddress := by
  have hmoves : Moves P C debug screen input (screen.step P C debug input).1 :=
    step_moves harrives
  generalize (screen.step P C debug input).1 = screen' at hmoves ⊢
  cases hmoves with
  | shows hview => exact h.congr rfl rfl (expected_shows hview)
  | supervised input clock hother _ hview =>
      exact h.congr rfl (screen.session.supervisor.step_sameRoom input).onionAddress
        (expected_supervised hother hview)
  | typed key hview =>
      have hsame : Supervisor.SameRoom screen.session.supervisor
          (screen.session.supervisor.step P debug (.key key)).1 :=
        screen.session.supervisor.step_sameRoom (.key key)
      exact h.congr rfl hsame.onionAddress (expected_supervised (by simp) hview)
  | acted answers clocks batch hbatches =>
      have hsame := screen.session.supervisor.handleHostActions_sameRoom (P := P)
        (HostSession.answered answers batch)
      refine h.congr ?_ ?_ (expected_acted hbatches)
      · simp only [HostSession.step, hbatches, HostSession.supervise]
      · simp only [HostSession.step, hbatches]
        exact hsame.onionAddress
  | received input hevents => exact h.received hevents

end

/-! ### The start -/

section
variable {setup : Setup} {actions : List RoomAction} {before : Supervisor}
  {answers : Nat → Supervisor.ActionInput} {clocks : Nat → Ui.Clock latest}

/-- The screen starts with what the room started with. -/
theorem Started.expected (h : Started P C setup actions before answers clocks screen) :
    ∃ token wraps, NoNews wraps ∧ screen.session.room.told = ⟨token, .opened⟩ ∧
      screen.session.room.requestRows = [] ∧
      screen.expected C = wraps.foldl (Panels.hear C before.onionAddress)
        ⟨token.toList, .opened, hostInvitation C before.onionAddress token.toList, []⟩ := by
  obtain ⟨nickname, sessionId, token, key, wraps, hopening⟩ := h.room.opening
  refine ⟨token, wraps, RoomActor.noNews_wrapAll hopening.begins.wrapped, ?_, ?_, ?_⟩
  · rw [hopening.actor]
    rfl
  · rw [hopening.actor]
    exact List.mergeSort_nil
  · have hshown := Panels.onActions_shown (P := P) (C := C) before
      ((Ui.RoomView.host setup.hostNickname).pushSystem "Starting the room..." (clocks 0 0))
      (HostSession.answered answers actions) fun i => clocks (i + 1)
    have hsame := before.handleHostActions_sameRoom (P := P) (HostSession.answered answers actions)
    have hfirst : (Panels.shown before ((Ui.RoomView.host setup.hostNickname).pushSystem
        "Starting the room..." (clocks 0 0))).hear C before.onionAddress
          (.notifyHost (.invitationRotated token)) =
        ⟨token.toList, .opened, hostInvitation C before.onionAddress token.toList, []⟩ := by
      simp only [Panels.hear, Panels.shown, h.policy]
      exact congrArg (Panels.mk token.toList .opened · []) Option.or_none
    have hheard : actions.foldl (Panels.hear C before.onionAddress) (Panels.shown before
        ((Ui.RoomView.host setup.hostNickname).pushSystem "Starting the room..." (clocks 0 0))) =
        wraps.foldl (Panels.hear C before.onionAddress)
          ⟨token.toList, .opened, hostInvitation C before.onionAddress token.toList, []⟩ := by
      rw [hopening.actions, List.foldl_cons, hfirst]
    rw [HostSession.map_answered, hheard] at hshown
    rw [HostScreen.expected, h.batches, h.supervisor, h.view, hsame.onionAddress]
    exact hshown

theorem Started.faithful (h : Started P C setup actions before answers clocks screen) :
    screen.Faithful C before.onionAddress := by
  obtain ⟨token, wraps, hwraps, htold, -, hexpected⟩ := h.expected
  have hsame := before.handleHostActions_sameRoom (P := P) (HostSession.answered answers actions)
  refine ⟨h.room.valid, ?_, ?_, ?_⟩
  · obtain ⟨nickname, sessionId, token, key, wraps, hopening⟩ := h.room.opening
    rw [hopening.actor]
    exact noNews_nil
  · rw [h.supervisor]
    exact hsame.onionAddress
  · have hagrees : Panels.Agrees C before.onionAddress ⟨token, .opened⟩
        ⟨token.toList, .opened, hostInvitation C before.onionAddress token.toList, []⟩ :=
      ⟨rfl, rfl, rfl⟩
    rw [htold, hexpected, ← RoomActor.hear_of_noNews hwraps ⟨token, .opened⟩]
    exact hagrees.hears wraps

end

/-! ### The requests -/

/-- The room under the screen is the one that its flows are for. -/
structure Belongs (P : Primitives) (screen : HostScreen latest) : Prop where
  keyed : RoomActor.Keyed P screen.session.room
  hostIdentity : screen.session.supervisor.hostIdentity = screen.session.room.hostIdentity
  sessionId : screen.session.supervisor.sessionId = screen.session.room.sessionId
  lineage : screen.session.supervisor.Lineage
  released : ∀ connection application, .joinRequested connection application ∈
    screen.session.events → application.Released P screen.session.room.hostIdentity
      screen.session.room.sessionId

/-- The room is over, or the host is about to ask for the requests, or is about to be made to, or
it will know them. -/
def Informed (C : Uri.Codecs) (screen : HostScreen latest) : Prop :=
  RoomActor.Over screen.session.room ∨ Supervisor.refreshRequests ∈ screen.session.events ∨
    RoomActor.Asks screen.session.batches.flatten ∨
      (screen.expected C).requests = screen.session.room.requestRows

/-- The generator works, and join requests come off the wire. -/
def Honest (P : Primitives) : Input latest → Prop
  | .room _ _ rng cleanupRng => rng.Succeeds ∧ cleanupRng.Succeeds
  | .supervisor (.inbound _ (some (.joinRequest request)) _) _ => request.Decoded P
  | _ => True

theorem Belongs.supervised (h : screen.Belongs P) {input : Supervisor.Input}
    {view : Ui.RoomView latest} (harrives : Supervisor.Arrives [] screen.session.supervisor input)
    (hdecoded : ∀ id request i, input = .inbound id (some (.joinRequest request)) i →
      request.Decoded P) :
    (⟨(screen.session.step P debug (.supervisor input)).1, view⟩ :
      HostScreen latest).Belongs P := by
  have hsame : Supervisor.SameRoom screen.session.supervisor
      (screen.session.supervisor.step P debug input).1 :=
    screen.session.supervisor.step_sameRoom input
  refine ⟨h.keyed, hsame.hostIdentity.trans h.hostIdentity, hsame.sessionId.trans h.sessionId,
    h.lineage.step input, fun connection application hmem => ?_⟩
  obtain hmem | hmem := List.mem_append.mp hmem
  · exact h.released connection application hmem
  · have hreleased := Supervisor.step_released h.lineage harrives hdecoded hmem
    rwa [h.hostIdentity, h.sessionId] at hreleased

theorem Belongs.acted (h : screen.Belongs P) {answers : Nat → Supervisor.ActionInput}
    {batch : List RoomAction} {batches : List (List RoomAction)} {view : Ui.RoomView latest}
    (hbatches : screen.session.batches = batch :: batches) :
    (⟨(screen.session.step P debug (.actions answers)).1, view⟩ : HostScreen latest).Belongs P := by
  have hsupervised : (screen.session.step P debug (.actions answers)).1 =
      (({ screen.session with batches } : HostSession).step P debug
        (.supervisor (.actions (HostSession.answered answers batch)))).1 := by
    simp only [HostSession.step, hbatches]
  have hbefore : (⟨{ screen.session with batches }, view⟩ : HostScreen latest).Belongs P :=
    ⟨h.keyed, h.hostIdentity, h.sessionId, h.lineage, h.released⟩
  rw [hsupervised]
  exact hbefore.supervised trivial (by simp)

theorem Belongs.received (h : screen.Belongs P) (law : P.Lawful)
    (hvalid : screen.session.room.registry.Valid) {input : TaskInput} {events : List RoomEvent}
    (hevents : screen.session.events = input.event :: events) (hrng : input.rng.Succeeds)
    (hcleanup : input.cleanupRng.Succeeds) :
    ({ screen with session := (screen.session.step P debug
        (.room input.now input.cleanupNow input.rng input.cleanupRng)).1 } :
      HostScreen latest).Belongs P := by
  obtain ⟨hidentity, hsession⟩ := RoomTask.receive_sameRoom (P := P) hvalid input
  have hkeyed := RoomTask.receive_keyed law h.keyed hvalid hrng hcleanup
    fun connection application hevent =>
      h.released connection application (hevents ▸ hevent ▸ .head _)
  have hstep : (screen.session.step P debug (.room input.now input.cleanupNow input.rng
      input.cleanupRng)).1 =
        (({ screen.session with events } : HostSession).receive P input).1 := by
    simp only [HostSession.step, hevents]
  rw [hstep]
  refine ⟨hkeyed, h.hostIdentity.trans hidentity.symm, h.sessionId.trans hsession.symm, h.lineage,
    fun connection application hmem => ?_⟩
  have hreleased := h.released connection application (hevents ▸ .tail _ hmem)
  rwa [← hidentity, ← hsession] at hreleased

/-- What keeps the requests on the screen current. -/
structure Coherent (P : Primitives) (C : Uri.Codecs) (onionAddress : String)
    (screen : HostScreen latest) : Prop extends Faithful C onionAddress screen,
    Belongs P screen where
  paired : Paired screen.session.events
  informed : screen.Informed C

theorem Informed.congr {screen' : HostScreen latest} (h : screen.Informed C)
    (hroom : screen'.session.room = screen.session.room)
    (hevents : ∀ event ∈ screen.session.events, event ∈ screen'.session.events)
    (hbatches : screen'.session.batches = screen.session.batches)
    (hexpected : screen'.expected C = screen.expected C) : screen'.Informed C := by
  rw [Informed, hroom, hbatches, hexpected]
  exact h.imp_right (Or.imp_left (hevents _))

/-- The host asks on every notice that makes it. -/
theorem Informed.acted (h : screen.Informed C) {answers : Nat → Supervisor.ActionInput}
    {clocks : Nat → Ui.Clock latest} {batch : List RoomAction} {batches : List (List RoomAction)}
    (hbatches : screen.session.batches = batch :: batches) :
    (⟨(screen.session.step P debug (.actions answers)).1,
      screen.view.onActions P C screen.session.supervisor
        (HostSession.answered answers batch) clocks⟩ : HostScreen latest).Informed C := by
  have hstep : (screen.session.step P debug (.actions answers)).1 =
      (({ screen.session with batches } : HostSession).supervise P debug
        (.actions (HostSession.answered answers batch))).1 := by
    simp only [HostSession.step, hbatches]
  rw [Informed, expected_acted hbatches, hstep]
  obtain hover | hasked | hasks | hknown := h
  · exact .inl hover
  · exact .inr (.inl (List.mem_append_left _ hasked))
  · rw [hbatches, List.flatten_cons] at hasks
    obtain ⟨action, hmem, hrefresh⟩ := hasks
    obtain hmem | hmem := List.mem_append.mp hmem
    · refine .inr (.inl (List.mem_append_right _ (Supervisor.handleHostActions_asks ?_)))
      exact ⟨action, (HostSession.map_answered answers batch).symm ▸ hmem, hrefresh⟩
    · exact .inr (.inr (.inl ⟨action, hmem, hrefresh⟩))
  · exact .inr (.inr (.inr hknown))

/-- A round answers the question, or makes the host ask when the requests changed. -/
theorem Coherent.informs {onionAddress : String} (h : screen.Coherent P C onionAddress)
    (law : P.Lawful) {input : TaskInput} {events : List RoomEvent}
    (hevents : screen.session.events = input.event :: events) (hrng : input.rng.Succeeds)
    (hcleanup : input.cleanupRng.Succeeds) :
    ({ screen with session := (screen.session.step P debug
        (.room input.now input.cleanupNow input.rng input.cleanupRng)).1 } :
      HostScreen latest).Informed C := by
  have hstep : (screen.session.step P debug (.room input.now input.cleanupNow input.rng
      input.cleanupRng)).1 =
        (({ screen.session with events } : HostSession).receive P input).1 := by
    simp only [HostSession.step, hevents]
  have hsettles := RoomTask.receive_settles law h.keyed h.valid h.held hrng hcleanup
  have hpaired := h.paired
  rw [hevents] at hpaired
  rw [Informed, expected_received hevents, hstep]
  simp only [HostSession.receive]
  rw [flatten_emitted]
  have hinformed := h.informed
  have hstays : RoomActor.Over screen.session.room →
      RoomActor.Over (RoomTask.receive P screen.session.room input).1 :=
    fun hover => RoomTask.receive_over hover input
  generalize RoomTask.receive P screen.session.room input = round at hsettles hstays ⊢
  obtain ⟨after, batch⟩ := round
  cases hsettles with
  | closed hover => exact .inl hover
  | answered hanswers => exact .inr (.inl (hpaired.1 hanswers))
  | listed _ hsame =>
      refine .inr (.inr (.inr ?_))
      rw [hsame.requestRows]
      rfl
  | told hevent hnone hchanged =>
      obtain hover | hasked | hasks | hknown := hinformed
      · exact .inl (hstays hover)
      · rw [hevents] at hasked
        obtain heq | hasked := List.mem_cons.mp hasked
        · exact absurd heq.symm hevent
        · exact .inr (.inl hasked)
      · exact .inr (.inr (.inl (hasks.append_left batch)))
      · obtain hsame | hasks := hchanged
        · refine .inr (.inr (.inr ?_))
          rw [hsame.requestRows, ← hknown]
          exact Panels.requests_of_noSnapshot hnone
        · exact .inr (.inr (.inl (hasks.append_right _)))

theorem Coherent.supervised {onionAddress : String} (h : screen.Coherent P C onionAddress)
    {input : Supervisor.Input} {view : Ui.RoomView latest}
    (hother : ∀ batch, input ≠ .actions batch)
    (harrives : Supervisor.Arrives [] screen.session.supervisor input)
    (hdecoded : ∀ id request i, input = .inbound id (some (.joinRequest request)) i →
      request.Decoded P) (hview : screen.view.SamePanels view) :
    (⟨(screen.session.step P debug (.supervisor input)).1, view⟩ :
      HostScreen latest).Coherent P C onionAddress where
  toFaithful := h.toFaithful.congr rfl (screen.session.supervisor.step_sameRoom input).onionAddress
    (expected_supervised hother hview)
  toBelongs := h.toBelongs.supervised harrives hdecoded
  paired := h.paired.append (Supervisor.step_paired input)
  informed := h.informed.congr rfl (fun _ => List.mem_append_left _) rfl
    (expected_supervised hother hview)

theorem Coherent.step {onionAddress : String} (law : P.Lawful)
    (h : screen.Coherent P C onionAddress) {input : Input latest}
    (harrives : screen.Arrives input) (honest : Honest P input) :
    (screen.step P C debug input).1.Coherent P C onionAddress := by
  have hfaithful : (screen.step P C debug input).1.Faithful C onionAddress :=
    h.toFaithful.step harrives
  have hmoves : Moves P C debug screen input (screen.step P C debug input).1 :=
    step_moves harrives
  generalize (screen.step P C debug input).1 = screen' at hfaithful hmoves ⊢
  cases hmoves with
  | shows hview =>
      exact ⟨hfaithful, ⟨h.keyed, h.hostIdentity, h.sessionId, h.lineage, h.released⟩, h.paired,
        h.informed.congr rfl (fun _ => id) rfl (expected_shows hview)⟩
  | supervised input clock hother harrived hview =>
      refine h.supervised hother harrived ?_ hview
      rintro id request i rfl
      exact honest
  | typed key hview => exact h.supervised (by simp) trivial (by simp) hview
  | acted answers clocks batch hbatches =>
      refine ⟨hfaithful, h.toBelongs.acted hbatches, ?_, h.informed.acted hbatches⟩
      have hstep : (screen.session.step P debug (.actions answers)).1.events =
          screen.session.events ++ (screen.session.supervisor.handleHostActions P
            (HostSession.answered answers batch)).2.events := by
        simp only [HostSession.step, hbatches]
        rfl
      change Paired (screen.session.step P debug (.actions answers)).1.events
      rw [hstep]
      exact h.paired.append (Supervisor.handleHostActions_unanswered _).paired
  | received input hevents =>
      obtain ⟨hrng, hcleanup⟩ := honest
      refine ⟨hfaithful, h.toBelongs.received law h.valid hevents hrng hcleanup, ?_,
        h.informs law hevents hrng hcleanup⟩
      have hpaired := h.paired
      rw [hevents] at hpaired
      simp only [HostSession.step, hevents]
      exact hpaired.2

section
variable {setup : Setup} {actions : List RoomAction} {before : Supervisor}
  {answers : Nat → Supervisor.ActionInput} {clocks : Nat → Ui.Clock latest}

theorem Started.coherent (law : P.Lawful)
    (h : Started P C setup actions before answers clocks screen) :
    screen.Coherent P C before.onionAddress := by
  obtain ⟨token, wraps, hwraps, -, hrows, hexpected⟩ := h.expected
  have hsame := before.handleHostActions_sameRoom (P := P) (HostSession.answered answers actions)
  have hlineage : before.Lineage := by
    intro id c _ hc _
    cases (h.starts.connections id).symm.trans hc
  have hevents : Unanswered screen.session.events := by
    rw [h.events]
    exact Supervisor.handleHostActions_unanswered _
  refine ⟨h.faithful, ⟨h.room.keyed law, ?_, ?_, ?_, fun connection application hmem => ?_⟩,
    hevents.paired, .inr (.inr (.inr ?_))⟩
  · obtain ⟨nickname, sessionId, token, key, wraps, hopening⟩ := h.room.opening
    rw [h.supervisor, hopening.actor]
    exact hsame.hostIdentity.trans h.hostIdentity
  · rw [h.supervisor]
    exact hsame.sessionId.trans h.sessionId
  · have hstep : (before.step P (fun _ => "") (.actions
        (HostSession.answered answers actions))).1.Lineage := hlineage.step _
    rw [h.supervisor]
    exact hstep
  · cases (hevents _ hmem).2
  · rw [hexpected, hrows]
    exact Panels.requests_of_noSnapshot hwraps.noSnapshot

end

/-! ### Results -/

section
variable {setup : Setup} {actions : List RoomAction} {before : Supervisor}
  {answers : Nat → Supervisor.ActionInput} {clocks : Nat → Ui.Clock latest}
  {allowed : Input latest → Prop} {screen₀ : HostScreen latest}
  {past : List (Machine.Entry (HostScreen latest) (Input latest) HostSession.Output)}

theorem faithful_of_run (hstart : Started P C setup actions before answers clocks screen₀)
    (run : Run P C debug allowed screen₀ past screen) :
    screen.Faithful C before.onionAddress :=
  run.invariant (fun _ screen => screen.Faithful C before.onionAddress) hstart.faithful
    fun _ _ _ _ h hallowed => h.step hallowed.1

/-- The host's screen offers the invitation of the room. Whatever the environment does, once the
supervisor has handled what is in flight the screen shows the invitation to the room's current
token, at the room's own address, and the supervisor admits with that token under the room's join
policy; while no batch is in flight it does so already. -/
theorem invitation_current (hstart : Started P C setup actions before answers clocks screen₀)
    (run : Run P C debug allowed screen₀ past screen) :
    (screen.expected C).Agrees C before.onionAddress screen.session.room.told ∧
      (screen.session.batches = [] →
        screen.session.supervisor.token = screen.session.room.token.toList ∧
        screen.session.supervisor.policy = screen.session.room.policy ∧
        screen.view.invitation =
          hostInvitation C before.onionAddress screen.session.room.token.toList) := by
  have hfaithful := faithful_of_run hstart run
  refine ⟨hfaithful.agrees, fun hbatches => ?_⟩
  have hagrees := hfaithful.agrees
  rw [expected, hbatches] at hagrees
  exact ⟨hagrees.token, hagrees.policy, hagrees.invitation⟩

/-- The pending requests on the host's screen are those of the room. In every run of an honest
environment either the room is over, or the host is about to ask for them, or a notice that makes it
ask is in flight, or what the screen will show is what the room has; so once nothing is in flight
the panel of an open room is exact, whatever joined, left, failed or was answered in between. -/
theorem requests_current (law : P.Lawful)
    (hstart : Started P C setup actions before answers clocks screen₀)
    (run : Run P C debug (Honest P) screen₀ past screen) :
    screen.Informed C ∧
      (screen.session.events = [] → screen.session.batches = [] →
        RoomActor.Over screen.session.room ∨
          screen.view.requests = screen.session.room.requestRows) := by
  have hcoherent : screen.Coherent P C before.onionAddress :=
    run.invariant (fun _ screen => screen.Coherent P C before.onionAddress)
      (hstart.coherent law) fun _ _ _ _ h hallowed => h.step law hallowed.1 hallowed.2
  refine ⟨hcoherent.informed, fun hevents hbatches => ?_⟩
  have hinformed := hcoherent.informed
  rw [Informed, expected, hevents, hbatches] at hinformed
  obtain hover | hasked | ⟨_, hmem, _⟩ | hknown := hinformed
  · exact .inl hover
  · cases hasked
  · cases hmem
  · exact .inr hknown

end

end HostScreen

/-! ### The screen of the symbolic host -/

namespace Symbolic
open HostScreen

/-- The symbolic host at an address of its own. -/
def addressed : Supervisor :=
  { host with onionAddress := String.ofList Uri.zeroInvitation.onionAddress }

def idle : Nat → Ui.Clock 0 := fun _ _ => ⟨⟨.last 86399⟩, .last 0⟩

def screen : HostScreen 0 where
  session := { session with
    supervisor := (addressed.handleHostActions primitives
      (HostSession.answered answers roomStarted)).1
    events := (addressed.handleHostActions primitives
      (HostSession.answered answers roomStarted)).2.events }
  view := ((Ui.RoomView.host setup.hostNickname).pushSystem "Starting the room..."
    (idle 0 0)).onActions primitives Uri.codecs addressed
      (HostSession.answered answers roomStarted) idle

theorem screen_started : HostScreen.Started primitives Uri.codecs setup roomStarted addressed
    answers idle screen where
  room := room_started
  hostConnection := rfl
  hostIdentity := rfl
  sessionId := rfl
  starts := ⟨fun _ => rfl, rfl⟩
  supervisor := rfl
  events := rfl
  batches := rfl
  policy := rfl
  view := rfl

def screenRound : HostScreen.Input 0 := .room 0 0 (rng 11) (rng 11)

/-- A guest asks to join, and the host is told. -/
def guestAsks : List (HostScreen.Input 0) :=
  [screenRound, .supervisor (.stream .default) (idle 0), .supervisor (.connect answer) (idle 0),
    screenRound] ++ knocks.map (fun message => .supervisor (.inbound 1 (some message) answer)
      (idle 0)) ++ [screenRound, screenRound, .actions answers idle, screenRound,
        .actions answers idle]

def screenAfter (inputs : List (HostScreen.Input 0)) :=
  Machine.exec (HostScreen.step primitives Uri.codecs fun _ => "") inputs [] screen

theorem guestAsks_run : HostScreen.Run primitives Uri.codecs (fun _ => "") (Honest primitives)
    screen (screenAfter guestAsks).1 (screenAfter guestAsks).2 := by
  have hround : Honest primitives screenRound := ⟨rng_succeeds 11, rng_succeeds 11⟩
  refine .step (.step (.step (.step (.step (.step (.step (.step (.step (.step (.step (.step
    (.step .start ⟨trivial, hround⟩) ⟨trivial, trivial⟩) ⟨trivial, trivial⟩) ⟨trivial, hround⟩)
    ⟨⟨by decide, by decide +kernel⟩, trivial⟩) ⟨⟨by decide, by decide +kernel⟩, trivial⟩)
    ⟨⟨by decide, by decide +kernel⟩, trivial⟩) ⟨⟨by decide, by decide +kernel⟩, ?_⟩)
    ⟨trivial, hround⟩) ⟨trivial, hround⟩) ⟨trivial, trivial⟩) ⟨trivial, hround⟩)
    ⟨trivial, trivial⟩
  exact ⟨"guest", none, _, _, _, rfl⟩

end Symbolic

namespace HostScreen
open Symbolic

theorem invitation_current_guest :
    (screenAfter guestAsks).2.view.invitation =
      hostInvitation Uri.codecs addressed.onionAddress
        (screenAfter guestAsks).2.session.room.token.toList :=
  ((invitation_current screen_started guestAsks_run).2 (by decide +kernel)).2.2

theorem requests_current_guest :
    (screenAfter guestAsks).2.view.requests =
        (screenAfter guestAsks).2.session.room.requestRows ∧
      (screenAfter guestAsks).2.session.room.requests.requests.map
        JoinRequest.connection = [1] := by
  have hopen : ¬ RoomActor.Over (screenAfter guestAsks).2.session.room := by
    unfold RoomActor.Over
    decide +kernel
  have hcurrent := (requests_current lawful screen_started guestAsks_run).2 (by decide +kernel)
    (by decide +kernel)
  exact ⟨hcurrent.resolve_left hopen, by decide +kernel⟩

end HostScreen
end Veilroom
