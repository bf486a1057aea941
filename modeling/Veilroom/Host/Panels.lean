import Veilroom.Host.Screen
import Veilroom.Room.Reports

/-!
What the host's screen says of the room: the invitation, the join policy and the pending requests.

The supervisor learns of a change one batch later, and of a changed request only by asking. What
the screen will say once everything in flight is handled is computed by `HostScreen.expected`; the
room agrees with it on the invitation and the policy at any time, and on the requests unless the
question for them is on its way.
-/
namespace Veilroom

/-! ### The view -/

namespace Ui
namespace RoomView
variable {latest : Nat} {view view' view'' : RoomView latest} {P : Primitives} {C : Uri.Codecs}

/-- The panels of the host say the same. -/
structure SamePanels (view view' : RoomView latest) : Prop where
  invitation : view'.invitation = view.invitation
  requests : view'.requests = view.requests

theorem SamePanels.refl (view : RoomView latest) : SamePanels view view := ⟨rfl, rfl⟩

theorem SamePanels.trans (h : SamePanels view view') (h' : SamePanels view' view'') :
    SamePanels view view'' :=
  ⟨h'.invitation.trans h.invitation, h'.requests.trans h.requests⟩

theorem SamePanels.foldl {α : Type} {update : RoomView latest → α → RoomView latest}
    (hupdate : ∀ view x, SamePanels view (update view x)) (xs : List α)
    (view : RoomView latest) : SamePanels view (xs.foldl update view) := by
  induction xs generalizing view with
  | nil => exact .refl view
  | cons x xs ih => exact (hupdate view x).trans (ih (update view x))

theorem notice_panels (view : RoomView latest) (text : String) (clock : Clock latest) :
    SamePanels view (view.notice text clock) := ⟨rfl, rfl⟩

theorem onKey_panels (view : RoomView latest) (key : RoomKey) (clock : Clock latest) :
    SamePanels view (view.onKey key clock).1 :=
  ⟨(onKey_sameRoom view key clock).invitation, (onKey_sameRoom view key clock).requests⟩

theorem onOwnMessage_panels (view : RoomView latest) (s : Supervisor) (message : Message)
    (clock : Clock latest) : SamePanels view (view.onOwnMessage P s message clock) := by
  unfold onOwnMessage
  split
  · split
    · exact ⟨rfl, rfl⟩
    · split <;> exact ⟨rfl, rfl⟩
  · exact ⟨rfl, rfl⟩
  · split <;> exact ⟨rfl, rfl⟩
  · split
    · exact ⟨rfl, rfl⟩
    · split <;> exact ⟨rfl, rfl⟩
  · split <;> exact ⟨rfl, rfl⟩

theorem onSupervised_panels (view : RoomView latest) (s : Supervisor) (clock : Clock latest)
    (input : Supervisor.Input) : SamePanels view (view.onSupervised P s clock input) := by
  unfold onSupervised
  split
  · split
    · exact .refl view
    · split
      · exact ⟨rfl, rfl⟩
      · split <;> exact ⟨rfl, rfl⟩
  · exact ⟨rfl, rfl⟩
  · dsimp only
    split
    · exact .refl view
    · split
      · split <;> exact ⟨rfl, rfl⟩
      · exact .refl view
  · split
    · exact .refl view
    · dsimp only
      split
      · split <;> exact ⟨rfl, rfl⟩
      · split <;> exact ⟨rfl, rfl⟩
  all_goals exact .refl view

theorem onHostCommand_panels (view : RoomView latest) (s : Supervisor) (nonce : Option Nonce)
    (clock : Clock latest) (command : SlashCommand) :
    SamePanels view (view.onHostCommand P s nonce clock command) := by
  unfold onHostCommand
  split
  · split <;> exact ⟨rfl, rfl⟩
  · split <;> exact ⟨rfl, rfl⟩
  · exact .refl view

theorem invitation_showRequests (view : RoomView latest) (requests : List RequestLine)
    (clock : Clock latest) :
    (view.showRequests requests clock).invitation = view.invitation ∧
      (view.showRequests requests clock).requests = requests := by
  have hpanels := SamePanels.foldl (fun (view : RoomView latest) (entry : String × Nat) =>
    notice_panels view entry.1 fun k => clock (2 * entry.2 + k))
    ((if requests.isEmpty then ["no pending requests"]
      else s!"pending requests: {requests.length}" :: requests.map requestText).zipIdx)
    ({ view with requests } : RoomView latest)
  exact ⟨hpanels.invitation, hpanels.requests⟩

end RoomView
end Ui

/-! ### The panels -/

/-- What the host's screen says of the room, and the supervisor goes by. -/
structure Panels where
  token : Bytes
  policy : JoinPolicy
  invitation : Option String
  requests : List Ui.RequestLine

/-- The rows of the room's pending requests. -/
def RoomActor.requestRows (a : RoomActor) : List Ui.RequestLine :=
  Veilroom.requestRows
    (a.requests.requests.map fun request => ⟨request.id, request.connection,
      request.application.nickname, request.application.introduction⟩)
    (a.timeoutRequests.map fun request => ⟨request.requestId, request.memberId, request.nickname,
      request.seconds⟩)

theorem RoomActor.SamePending.requestRows {a b : RoomActor} (h : a.SamePending b) :
    b.requestRows = a.requestRows := by
  rw [RoomActor.requestRows, RoomActor.requestRows, h.joins, h.timeouts]

namespace Panels
variable {C : Uri.Codecs} {onionAddress : String} {known : Panels}

/-- A notice replaces what it is about; an invitation that cannot be built is not shown. -/
def hear (C : Uri.Codecs) (onionAddress : String) (known : Panels) : RoomAction → Panels
  | .notifyHost (.invitationRotated token) => { known with
      token := token.toList
      invitation := (hostInvitation C onionAddress token.toList).or known.invitation }
  | .notifyHost (.joinPolicyChanged policy) => { known with policy }
  | .notifyHost (.requestsSnapshot joinRequests timeoutRequests) =>
    { known with requests := requestRows joinRequests timeoutRequests }
  | _ => known

/-- The panels say what the host was told. -/
structure Agrees (C : Uri.Codecs) (onionAddress : String) (told : RoomActor.Told)
    (known : Panels) : Prop where
  token : known.token = told.token.toList
  policy : known.policy = told.policy
  invitation : known.invitation = hostInvitation C onionAddress told.token.toList

/-- Whether an invitation can be built depends on the address alone. -/
theorem hostInvitation_eq_none_iff (token token' : Key) :
    hostInvitation C onionAddress token.toList = none ↔
      hostInvitation C onionAddress token'.toList = none := by
  have hfits : ∀ key : Key, Uri.minTokenBytes ≤ key.toList.length ∧
      key.toList.length ≤ Uri.maxTokenBytes := by
    intro key
    rw [Vector.length_toList]
    decide
  have hport : virtualPort.toUInt16 ≠ 0 := by decide
  unfold hostInvitation Uri.Invitation.new
  cases Uri.validateOnionAddress C onionAddress.toList with
  | error error => simp
  | ok _ =>
      simp only [if_neg hport, if_neg (not_not_intro (hfits token)),
        if_neg (not_not_intro (hfits token'))]
      simp

theorem Agrees.hear {told : RoomActor.Told} (h : Agrees C onionAddress told known)
    (action : RoomAction) :
    Agrees C onionAddress (told.hear action) (known.hear C onionAddress action) := by
  cases action with
  | notifyHost notice =>
      cases notice with
      | invitationRotated token =>
          refine ⟨rfl, h.policy, ?_⟩
          change (hostInvitation C onionAddress token.toList).or known.invitation =
            hostInvitation C onionAddress token.toList
          cases hbuilt : hostInvitation C onionAddress token.toList with
          | some uri => rfl
          | none =>
              rw [h.invitation]
              exact (hostInvitation_eq_none_iff token told.token).mp hbuilt
      | joinPolicyChanged policy => exact ⟨h.token, rfl, h.invitation⟩
      | _ => exact ⟨h.token, h.policy, h.invitation⟩
  | _ => exact h

theorem Agrees.hears {told : RoomActor.Told} (h : Agrees C onionAddress told known)
    (actions : List RoomAction) :
    Agrees C onionAddress (actions.foldl RoomActor.Told.hear told)
      (actions.foldl (Panels.hear C onionAddress) known) := by
  induction actions generalizing told known with
  | nil => exact h
  | cons action rest ih => exact ih (h.hear action)

/-- Without a snapshot the requests stay what they were. -/
theorem requests_of_noSnapshot {actions : List RoomAction} (h : NoSnapshot actions) :
    (actions.foldl (Panels.hear C onionAddress) known).requests = known.requests := by
  induction actions generalizing known with
  | nil => rfl
  | cons action rest ih =>
      have hrest : NoSnapshot rest := fun joins timeouts hmem => h joins timeouts (.tail _ hmem)
      have hfirst : (known.hear C onionAddress action).requests = known.requests := by
        unfold Panels.hear
        split
        · rfl
        · rfl
        · exact absurd (.head _) (h _ _)
        · rfl
      exact (ih hrest).trans hfirst

end Panels

/-! ### The supervisor -/

namespace Supervisor
variable {P : Primitives} {debug : Message → String} {s s' : Supervisor}

/-- What only the actions of the room change, and what nothing does. -/
structure SameHost (s s' : Supervisor) : Prop where
  token : s'.token = s.token
  policy : s'.policy = s.policy
  onionAddress : s'.onionAddress = s.onionAddress
  sessionId : s'.sessionId = s.sessionId
  hostIdentity : s'.hostIdentity = s.hostIdentity

theorem SameHost.refl (s : Supervisor) : SameHost s s := ⟨rfl, rfl, rfl, rfl, rfl⟩

theorem sendTimeoutChanged_sameHost (s : Supervisor) (nonce : Option Nonce)
    (interval : Option Nat) : SameHost s (s.sendTimeoutChanged P nonce interval).1 := by
  unfold sendTimeoutChanged
  split <;> exact ⟨rfl, rfl, rfl, rfl, rfl⟩

theorem onKey_sameHost (s : Supervisor) (input : KeyInput) : SameHost s (s.onKey P input).1 := by
  cases input with
  | exit | member _ => exact .refl s
  | timeout interval nonce => exact sendTimeoutChanged_sameHost s nonce interval
  | color color nonce =>
      unfold onKey
      dsimp only
      split <;> exact ⟨rfl, rfl, rfl, rfl, rfl⟩
  | host command => cases command <;> exact .refl s

theorem handleHostMessage_sameHost (s : Supervisor) (id : ConnectionId) (message : Message)
    (input : MessageInput) : SameHost s (s.handleHostMessage P id message input).1 := by
  unfold handleHostMessage
  split <;> exact ⟨rfl, rfl, rfl, rfl, rfl⟩

theorem onInbound_sameHost (s : Supervisor) (id : ConnectionId) (message : Option Message)
    (input : MessageInput) : SameHost s (s.onInbound P debug id message input).1 := by
  cases message with
  | none => exact ⟨rfl, rfl, rfl, rfl, rfl⟩
  | some message =>
      unfold onInbound
      dsimp only
      have hhandled := handleHostMessage_sameHost (P := P) (s.setConnection id
        ((s.connections id).map fun c => { c with lastSeen := input.now })) id message input
      generalize handleHostMessage P _ id message input = result at hhandled
      obtain ⟨after, output, error | done⟩ := result
      · exact ⟨hhandled.token, hhandled.policy, hhandled.onionAddress, hhandled.sessionId,
          hhandled.hostIdentity⟩
      · exact ⟨hhandled.token, hhandled.policy, hhandled.onionAddress, hhandled.sessionId,
          hhandled.hostIdentity⟩

/-- Only the actions of the room tell the supervisor anything. -/
theorem step_sameHost (s : Supervisor) {input : Input} (h : ∀ batch, input ≠ .actions batch) :
    SameHost s (s.step P debug input).1 := by
  cases input with
  | stream _ | tick => exact ⟨rfl, rfl, rfl, rfl, rfl⟩
  | connect input =>
      unfold step onConnect
      dsimp only
      split
      · exact .refl s
      split
      · exact ⟨rfl, rfl, rfl, rfl, rfl⟩
      split <;> exact ⟨rfl, rfl, rfl, rfl, rfl⟩
  | inbound id message input => exact onInbound_sameHost s id message input
  | actions batch => exact absurd rfl (h batch)
  | expire id now =>
      unfold step expire
      dsimp only
      split
      · exact .refl s
      split <;> split <;> exact ⟨rfl, rfl, rfl, rfl, rfl⟩
  | key input => exact onKey_sameHost s input

theorem onOwnMessage_sameHost (s : Supervisor) (message : Message) :
    SameHost s (s.onOwnMessage P message).1 := by
  unfold onOwnMessage
  split
  · split
    · exact .refl s
    · split
      · exact .refl s
      · exact ⟨rfl, rfl, rfl, rfl, rfl⟩
  · exact .refl s
  · exact ⟨rfl, rfl, rfl, rfl, rfl⟩
  · split
    · exact ⟨rfl, rfl, rfl, rfl, rfl⟩
    · split <;> exact ⟨rfl, rfl, rfl, rfl, rfl⟩
  · exact ⟨rfl, rfl, rfl, rfl, rfl⟩

theorem onSendTo_sameHost (s : Supervisor) (connection : ConnectionId) (message : Message)
    (input : ActionInput) : SameHost s (s.onSendTo connection message input).1 := by
  unfold onSendTo
  split
  · exact ⟨rfl, rfl, rfl, rfl, rfl⟩
  · split <;> exact ⟨rfl, rfl, rfl, rfl, rfl⟩

/-- What stays when the supervisor handles the actions of the room. -/
structure SameRoom (s s' : Supervisor) : Prop where
  onionAddress : s'.onionAddress = s.onionAddress
  sessionId : s'.sessionId = s.sessionId
  hostIdentity : s'.hostIdentity = s.hostIdentity

theorem SameHost.sameRoom (h : SameHost s s') : SameRoom s s' :=
  ⟨h.onionAddress, h.sessionId, h.hostIdentity⟩

theorem SameRoom.trans {s'' : Supervisor} (h : SameRoom s s') (h' : SameRoom s' s'') :
    SameRoom s s'' :=
  ⟨h'.onionAddress.trans h.onionAddress, h'.sessionId.trans h.sessionId,
    h'.hostIdentity.trans h.hostIdentity⟩

theorem onNotice_sameRoom (s : Supervisor) (nonce : Option Nonce) (notice : HostNotice) :
    SameRoom s (s.onNotice P nonce notice).1 := by
  cases notice with
  | timeoutRequestAccepted _ seconds | timeoutRebroadcast seconds =>
      exact (s.sendTimeoutChanged_sameHost nonce (some seconds)).sameRoom
  | _ => exact ⟨rfl, rfl, rfl⟩

theorem onAction_sameRoom (s : Supervisor) (action : RoomAction) (input : ActionInput) :
    SameRoom s (s.onAction P action input).1 := by
  cases action with
  | sendTo connection message =>
      unfold onAction
      dsimp only
      split
      · exact (s.onOwnMessage_sameHost message).sameRoom
      · exact (s.onSendTo_sameHost connection message input).sameRoom
  | closeConnection connection => exact ⟨rfl, rfl, rfl⟩
  | notifyHost notice => exact s.onNotice_sameRoom input.nonce notice

theorem handleHostActions_sameRoom (s : Supervisor) (batch : List (RoomAction × ActionInput)) :
    SameRoom s (s.handleHostActions P batch).1 := by
  induction batch generalizing s with
  | nil => exact ⟨rfl, rfl, rfl⟩
  | cons first rest ih => exact (s.onAction_sameRoom first.1 first.2).trans (ih _)

theorem step_sameRoom (s : Supervisor) (input : Input) : SameRoom s (s.step P debug input).1 := by
  cases input with
  | actions batch => exact s.handleHostActions_sameRoom batch
  | _ => exact (s.step_sameHost fun _ => by simp).sameRoom

end Supervisor

/-! ### The screen -/

namespace Panels
variable {latest : Nat} {P : Primitives} {C : Uri.Codecs} {s s' : Supervisor}
  {view view' : Ui.RoomView latest}

/-- What the screen of a host says. -/
def shown (s : Supervisor) (view : Ui.RoomView latest) : Panels :=
  ⟨s.token, s.policy, view.invitation, view.requests⟩

theorem shown_congr (hs : s.SameHost s') (hview : view.SamePanels view') :
    shown s' view' = shown s view := by
  rw [shown, shown, hs.token, hs.policy, hview.invitation, hview.requests]

/-- The screen and the supervisor take a notice alike. -/
theorem onNotice_shown (s : Supervisor) (view : Ui.RoomView latest) (nonce : Option Nonce)
    (clock : Ui.Clock latest) (notice : HostNotice) :
    shown (s.onNotice P nonce notice).1 (view.onNotice P C s nonce clock notice) =
      (shown s view).hear C s.onionAddress (.notifyHost notice) := by
  cases notice with
  | invitationRotated token =>
      unfold Ui.RoomView.onNotice
      dsimp only
      cases hbuilt : hostInvitation C s.onionAddress token.toList with
      | some uri =>
          simp only [Panels.hear, hbuilt]
          rfl
      | none =>
          simp only [Panels.hear, hbuilt]
          rfl
  | timeoutRequestAccepted requestId seconds =>
      refine shown_congr (s.sendTimeoutChanged_sameHost nonce (some seconds)) ?_
      unfold Ui.RoomView.onNotice
      dsimp only
      split <;> exact ⟨rfl, rfl⟩
  | timeoutRebroadcast seconds =>
      refine shown_congr (s.sendTimeoutChanged_sameHost nonce (some seconds)) ?_
      unfold Ui.RoomView.onNotice
      dsimp only
      split <;> exact ⟨rfl, rfl⟩
  | requestsSnapshot joinRequests timeoutRequests =>
      obtain ⟨hinvitation, hrequests⟩ := view.invitation_showRequests
        (requestRows joinRequests timeoutRequests) clock
      change shown s (view.showRequests _ clock) = _
      rw [shown, hinvitation, hrequests]
      rfl
  | _ => rfl

theorem onAction_shown (s : Supervisor) (view : Ui.RoomView latest) (action : RoomAction)
    (input : Supervisor.ActionInput) (clock : Ui.Clock latest) :
    shown (s.onAction P action input).1 (view.onAction P C s action input.nonce clock) =
      (shown s view).hear C s.onionAddress action := by
  cases action with
  | sendTo connection message =>
      unfold Supervisor.onAction Ui.RoomView.onAction
      dsimp only
      split
      · exact shown_congr (s.onOwnMessage_sameHost message)
          (view.onOwnMessage_panels s message clock)
      · exact shown_congr (s.onSendTo_sameHost connection message input) (.refl view)
  | closeConnection connection => rfl
  | notifyHost notice => exact onNotice_shown s view input.nonce clock notice

/-- After a batch the screen says what its notices said. -/
theorem onActions_shown (s : Supervisor) (view : Ui.RoomView latest)
    (batch : List (RoomAction × Supervisor.ActionInput)) (clocks : Nat → Ui.Clock latest) :
    shown (s.handleHostActions P batch).1 (view.onActions P C s batch clocks) =
      (batch.map Prod.fst).foldl (Panels.hear C s.onionAddress) (shown s view) := by
  induction batch generalizing s view clocks with
  | nil => rfl
  | cons first rest ih =>
      obtain ⟨action, input⟩ := first
      have hrest := ih (s.onAction P action input).1
        (view.onAction P C s action input.nonce (clocks 0)) fun i => clocks (i + 1)
      rw [onAction_shown, (s.onAction_sameRoom action input).onionAddress] at hrest
      exact hrest

end Panels

/-! ### Questions and answers -/

/-- The event of a client that asks to join. -/
def RoomEvent.applies : RoomEvent → Bool
  | .joinRequested .. => true
  | _ => false

/-- None of the events answers a request or is one. -/
def Unanswered (events : List RoomEvent) : Prop :=
  ∀ event ∈ events, event.answers = false ∧ event.applies = false

theorem Unanswered.append {first second : List RoomEvent} (h : Unanswered first)
    (h' : Unanswered second) : Unanswered (first ++ second) := by
  intro event hmem
  exact (List.mem_append.mp hmem).elim (h event) (h' event)

/-- Behind every answer the host asks for the requests. -/
def Paired : List RoomEvent → Prop
  | [] => True
  | event :: rest => (event.answers = true → Supervisor.refreshRequests ∈ rest) ∧ Paired rest

theorem Paired.append {first second : List RoomEvent} (h : Paired first) (h' : Paired second) :
    Paired (first ++ second) := by
  induction first with
  | nil => exact h'
  | cons event rest ih =>
      exact ⟨fun hanswers => List.mem_append_left _ (h.1 hanswers), ih h.2⟩

theorem paired_of_unanswered {events : List RoomEvent}
    (h : ∀ event ∈ events, event.answers = false) : Paired events := by
  induction events with
  | nil => trivial
  | cons event rest ih =>
      refine ⟨fun hanswers => ?_, ih fun event hmem => h event (.tail _ hmem)⟩
      cases (h event (.head _)).symm.trans hanswers

theorem Unanswered.paired {events : List RoomEvent} (h : Unanswered events) : Paired events :=
  paired_of_unanswered fun event hmem => (h event hmem).1

namespace Supervisor
variable {P : Primitives} {debug : Message → String} {s : Supervisor}

theorem sendTimeoutChanged_unanswered (nonce : Option Nonce) (interval : Option Nat) :
    Unanswered (s.sendTimeoutChanged P nonce interval).2 := by
  unfold sendTimeoutChanged
  split <;> simp [Unanswered, RoomEvent.answers, RoomEvent.applies]

theorem onOwnMessage_unanswered (message : Message) :
    Unanswered (s.onOwnMessage P message).2 := by
  unfold onOwnMessage
  split
  · split
    · simp [Unanswered]
    · split <;> simp [Unanswered, RoomEvent.answers, RoomEvent.applies]
  · simp [Unanswered]
  · simp [Unanswered]
  · split
    · simp [Unanswered]
    · split <;> simp [Unanswered]
  · simp [Unanswered]

theorem onNotice_unanswered (nonce : Option Nonce) (notice : HostNotice) :
    Unanswered (s.onNotice P nonce notice).2 := by
  unfold onNotice
  split
  · simp [Unanswered]
  · simp [Unanswered]
  · refine (sendTimeoutChanged_unanswered nonce _).append ?_
    simp [Unanswered, refreshRequests, RoomEvent.answers, RoomEvent.applies]
  · exact sendTimeoutChanged_unanswered nonce _
  all_goals
    simp [Unanswered, refreshRequests, refreshMembers, RoomEvent.answers, RoomEvent.applies]

theorem onAction_unanswered (action : RoomAction) (input : ActionInput) :
    Unanswered (s.onAction P action input).2.events := by
  cases action with
  | sendTo connection message =>
      unfold onAction
      dsimp only
      split
      · exact onOwnMessage_unanswered message
      · unfold onSendTo
        split
        · simp [Unanswered, RoomEvent.answers, RoomEvent.applies]
        · split <;> simp [Unanswered]
  | closeConnection connection => simp [onAction, Unanswered]
  | notifyHost notice => exact onNotice_unanswered input.nonce notice

/-- On a notice that asks for it the question goes out. -/
theorem onAction_asks {action : RoomAction} (h : action.asksRefresh = true) (input : ActionInput) :
    refreshRequests ∈ (s.onAction P action input).2.events := by
  cases action with
  | notifyHost notice =>
      cases notice with
      | joinRequestPending | joinRequestWithdrawn | timeoutRequestPending
      | timeoutRequestRejected => exact List.mem_singleton_self _
      | timeoutRequestAccepted => exact List.mem_append_right _ (List.mem_singleton_self _)
      | _ => cases h
  | _ => cases h

theorem handleHostActions_unanswered (batch : List (RoomAction × ActionInput)) :
    Unanswered (s.handleHostActions P batch).2.events := by
  induction batch generalizing s with
  | nil => simp [handleHostActions, Unanswered]
  | cons first rest ih => exact (onAction_unanswered first.1 first.2).append ih

theorem handleHostActions_asks {batch : List (RoomAction × ActionInput)}
    (h : RoomActor.Asks (batch.map Prod.fst)) :
    refreshRequests ∈ (s.handleHostActions P batch).2.events := by
  obtain ⟨action, hmem, hasks⟩ := h
  induction batch generalizing s with
  | nil => cases hmem
  | cons first rest ih =>
      rw [List.map_cons] at hmem
      obtain rfl | hmem := List.mem_cons.mp hmem
      · exact List.mem_append_left _ (onAction_asks hasks first.2)
      · exact List.mem_append_right _ (ih hmem)

theorem onKey_paired (input : KeyInput) : Paired (s.onKey P input).2.events := by
  cases input with
  | exit | member _ => exact ⟨nofun, trivial⟩
  | timeout interval nonce => exact (sendTimeoutChanged_unanswered nonce interval).paired
  | color color nonce =>
      unfold onKey
      dsimp only
      split
      · exact ⟨nofun, trivial⟩
      · trivial
  | host command =>
      cases command with
      | accept _ | reject _ => exact ⟨fun _ => List.mem_singleton_self _, nofun, trivial⟩
      | _ => exact ⟨nofun, trivial⟩

theorem onInbound_paired (id : ConnectionId) (message : Option Message)
    (input : MessageInput) : Paired (s.onInbound P debug id message input).2.events := by
  cases message with
  | none => exact ⟨nofun, trivial⟩
  | some message =>
      obtain ⟨error, -, -, hevents, -⟩ | ⟨_, _, output, -, haccepts, houtput, -⟩ :=
        onInbound_message P debug s id message input
      · rw [hevents]
        exact ⟨nofun, trivial⟩
      · rw [houtput]
        cases haccepts with
        | hello | token | keepalive => trivial
        | proof | request => exact ⟨nofun, trivial⟩
        | member _ _ _ hevent =>
            obtain ⟨epoch, rfl⟩ | ⟨messageType, envelope, rfl⟩ := hevent <;>
              exact ⟨nofun, trivial⟩

theorem step_paired (input : Input) : Paired (s.step P debug input).2.events := by
  cases input with
  | stream _ => trivial
  | tick => exact ⟨nofun, trivial⟩
  | connect input =>
      unfold step onConnect
      dsimp only
      split
      · trivial
      split
      · trivial
      split
      · trivial
      · exact ⟨nofun, trivial⟩
  | inbound id message input => exact onInbound_paired id message input
  | actions batch => exact (handleHostActions_unanswered batch).paired
  | expire id now =>
      unfold step expire
      dsimp only
      split
      · trivial
      split <;> split
      · exact ⟨nofun, trivial⟩
      · trivial
      · exact ⟨nofun, trivial⟩
      · trivial
  | key input => exact onKey_paired input

end Supervisor

/-! ### Where applications come from -/

namespace HostConnection
variable {P : Primitives} {c after : HostConnection} {id : ConnectionId} {policy : JoinPolicy}
  {input : MessageInput} {output : SupervisorOutput}

theorem onMessage_of_handle {request : JoinRequestMessage} {application : JoinApplication}
    (h : c.handle P id (.joinRequest request) policy input = (after, output, .ok ()))
    (hevents : output.events = [.joinRequested id application]) :
    (c.admission.onMessage P input.nonce (.joinRequest request) policy).2 =
      .ok (some (.joinRequested application)) := by
  have hadmitted : ∃ after, c.admitMessage P id (.joinRequest request) policy input =
      (after, output, .ok ()) := by
    unfold handle dispatch at h
    split at h
    · cases h
    split at h
    · cases h
    dsimp only at h
    split at h
    · cases h
    · rename_i next output' hadmit
      split at h <;> cases h <;> exact ⟨_, hadmit⟩
  obtain ⟨next, hadmitted⟩ := hadmitted
  unfold admitMessage at hadmitted
  split at hadmitted
  · cases hadmitted
  · unfold reply at hadmitted
    split at hadmitted
    · cases hadmitted
    · cases hadmitted
      cases hevents
  · rename_i heq
    cases hadmitted
    cases hevents
    rw [heq]
  · cases hadmitted
    cases hevents

/-- A flow that is still open releases the applications that its connection is taken for. -/
theorem released_of_handle {message : Message} {applicant : ConnectionId}
    {application : JoinApplication}
    (h : c.handle P id message policy input = (after, output, .ok ()))
    (hdecoded : ∀ request, message = .joinRequest request → request.Decoded P)
    (hmem : .joinRequested applicant application ∈ output.events) :
    c.admission.state ≠ .decided ∧
      application.Released P c.admission.hostIdentity c.admission.roomSessionId := by
  have haccepts := accepts_of_handle h
  cases haccepts with
  | hello | token | keepalive => cases hmem
  | proof => simp at hmem
  | request hstate _ _ _ _ =>
      cases List.mem_singleton.mp hmem
      refine ⟨by simp [hstate], c.admission, input.nonce, _, policy, rfl, rfl, hdecoded _ rfl, ?_⟩
      exact onMessage_of_handle h rfl
  | member _ _ _ hevent =>
      obtain ⟨epoch, rfl⟩ | ⟨messageType, envelope, rfl⟩ := hevent <;> simp at hmem

end HostConnection

namespace Supervisor
variable {P : Primitives} {debug : Message → String} {s : Supervisor}

/-- The open flows are those of the room. -/
def Lineage (s : Supervisor) : Prop :=
  ∀ id c, id ≠ hostConnectionId → s.connections id = some c → c.admission.state ≠ .decided →
    c.admission.hostIdentity = s.hostIdentity ∧ c.admission.roomSessionId = s.sessionId

theorem Lineage.step (h : s.Lineage) (input : Input) : (s.step P debug input).1.Lineage := by
  intro id c hid hc hopen
  have hroom : SameRoom s (s.step P debug input).1 := s.step_sameRoom input
  have hturn := step_turn P debug hid s input
  rw [hroom.hostIdentity, hroom.sessionId]
  generalize s.step P debug input = result at hturn hc
  obtain ⟨s', output⟩ := result
  dsimp only at hturn hc
  cases hturn with
  | @handles _ _ _ _ before _ hbefore hafter _ haccepts =>
      cases hafter.symm.trans hc
      have hflow := h id before hid hbefore
      cases haccepts with
      | hello _ hstate _ _ hnext | token _ hstate _ hnext | proof hstate _ _ _ hnext =>
          have hstate : before.admission.state = _ := hstate
          rw [hnext]
          exact hflow (by rw [hstate]; nofun)
      | request _ _ _ _ hdecided => exact absurd hdecided hopen
      | member _ _ hnext _ | keepalive hnext =>
          rw [hnext] at hopen ⊢
          exact hflow hopen
  | fails _ _ hgone _ _ => cases hgone.symm.trans hc
  | opens _ _ _ hflow hafter _ =>
      cases hafter.symm.trans hc
      unfold HostAdmission.new at hflow
      split at hflow
      · cases hflow
      · cases hflow
        exact ⟨rfl, rfl⟩
  | aside _ hkept _ _ _ =>
      obtain ⟨before, hbefore, hflow, -⟩ := hkept c hc
      rw [hflow] at hopen ⊢
      exact h id before hid hbefore hopen

theorem onKey_applies (input : KeyInput) :
    ∀ event ∈ (s.onKey P input).2.events, event.applies = false := by
  cases input with
  | exit | member _ => simp [onKey, RoomEvent.applies]
  | timeout interval nonce =>
      exact fun event hmem => (sendTimeoutChanged_unanswered nonce interval event hmem).2
  | color color nonce =>
      unfold onKey
      dsimp only
      split <;> simp [RoomEvent.applies]
  | host command => cases command <;> simp [onKey, RoomEvent.applies, refreshRequests]

/-- The applications that the supervisor submits come out of the admission flows of the room. -/
theorem step_released (h : s.Lineage) {input : Input} (harrives : Arrives [] s input)
    (hdecoded : ∀ id request i, input = .inbound id (some (.joinRequest request)) i →
      request.Decoded P) {applicant : ConnectionId} {application : JoinApplication}
    (hmem : .joinRequested applicant application ∈ (s.step P debug input).2.events) :
    application.Released P s.hostIdentity s.sessionId := by
  have hnone : ∀ {events : List RoomEvent}, (∀ event ∈ events, event.applies = false) →
      .joinRequested applicant application ∉ events :=
    fun happlies hmem => Bool.noConfusion (happlies _ hmem)
  cases input with
  | stream _ => cases hmem
  | tick => exact absurd hmem (hnone (by simp [step, RoomEvent.applies]))
  | connect input =>
      refine absurd hmem (hnone ?_)
      unfold step onConnect
      dsimp only
      split
      · simp
      split
      · simp
      split <;> simp [RoomEvent.applies]
  | inbound id message input =>
      cases message with
      | none => exact absurd hmem (hnone (by simp [step, onInbound, RoomEvent.applies]))
      | some message =>
          simp only [step, onInbound, handleHostMessage, connections_setConnection, ↓reduceIte]
            at hmem
          cases hfound : s.connections id with
          | none => simp [hfound] at hmem
          | some connection =>
              simp only [hfound, Option.map_some] at hmem
              generalize hresult : HostConnection.handle P { connection with lastSeen := input.now }
                id message _ _ = result at hmem
              obtain ⟨after, output, error | done⟩ := result
              · simp [HostConnection.output_of_error hresult] at hmem
              · obtain ⟨hopen, hreleased⟩ := HostConnection.released_of_handle hresult
                  (fun request hmessage => hdecoded id request input (by rw [hmessage])) hmem
                obtain ⟨hidentity, hsession⟩ := h id connection harrives.1.ne' hfound hopen
                rwa [← hidentity, ← hsession]
  | actions batch =>
      exact absurd hmem (hnone fun event hmem => (handleHostActions_unanswered batch event hmem).2)
  | expire id now =>
      refine absurd hmem (hnone ?_)
      unfold step expire
      dsimp only
      split
      · simp
      split <;> split <;> simp [RoomEvent.applies]
  | key input => exact absurd hmem (hnone (onKey_applies input))

end Supervisor

end Veilroom
