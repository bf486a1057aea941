import Veilroom.Room.Atomicity
import Veilroom.Room.Invitation

/-!
What the room tells its host.

Three notices replace what the host knows of the room: its invitation, its join policy and its
pending requests. On the notices about single requests the host only asks for the last of these
again, so the room has to send one of them whenever the pending requests change, but for the
answers of the host, which asks by itself.
-/
namespace Veilroom

namespace RoomAction

/-- The notices that replace what the host knows. -/
def isNews : RoomAction → Bool
  | .notifyHost (.invitationRotated _) | .notifyHost (.joinPolicyChanged _)
  | .notifyHost (.requestsSnapshot ..) => true
  | _ => false

/-- The notices on which the host asks for the pending requests again. -/
def asksRefresh : RoomAction → Bool
  | .notifyHost (.joinRequestPending ..) | .notifyHost (.joinRequestWithdrawn _)
  | .notifyHost (.timeoutRequestPending ..) | .notifyHost (.timeoutRequestAccepted ..)
  | .notifyHost (.timeoutRequestRejected _) => true
  | _ => false

end RoomAction

/-- The answers of the host to a pending request. -/
def RoomEvent.answers : RoomEvent → Bool
  | .hostAccepted _ | .hostRejected _ | .hostCommand (.accept _) | .hostCommand (.reject _) => true
  | _ => false

/-- The commands that bring news. -/
def RoomEvent.bringsNews : RoomEvent → Bool
  | .hostCommand .newId | .hostCommand .reqOn | .hostCommand .reqOff | .hostCommand .requests =>
    true
  | _ => false

def NoNews (actions : List RoomAction) : Prop := ∀ action ∈ actions, action.isNews = false

theorem noNews_nil : NoNews [] := nofun

theorem NoNews.append {first second : List RoomAction} (h : NoNews first) (h' : NoNews second) :
    NoNews (first ++ second) := by
  intro action hmem
  exact (List.mem_append.mp hmem).elim (h action) (h' action)

theorem NoNews.cons {action : RoomAction} {rest : List RoomAction} (h : action.isNews = false)
    (h' : NoNews rest) : NoNews (action :: rest) := by
  intro action' hmem
  cases hmem with
  | head => exact h
  | tail _ hmem => exact h' action' hmem

theorem noNews_map {α : Type} (f : α → RoomAction) (xs : List α)
    (h : ∀ x, (f x).isNews = false) : NoNews (xs.map f) := by
  intro action hmem
  obtain ⟨x, -, rfl⟩ := List.mem_map.mp hmem
  exact h x

/-- No action is a snapshot of the requests. -/
def NoSnapshot (actions : List RoomAction) : Prop :=
  ∀ joins timeouts, .notifyHost (.requestsSnapshot joins timeouts) ∉ actions

theorem NoNews.noSnapshot {actions : List RoomAction} (h : NoNews actions) :
    NoSnapshot actions := by
  intro joins timeouts hmem
  cases h _ hmem

theorem NoSnapshot.append {first second : List RoomAction} (h : NoSnapshot first)
    (h' : NoSnapshot second) : NoSnapshot (first ++ second) := by
  intro joins timeouts hmem
  exact (List.mem_append.mp hmem).elim (h joins timeouts) (h' joins timeouts)

namespace RoomActor
variable {P : Primitives} {rng : Rng} {a b : RoomActor}

/-- The pending requests are what they were. -/
structure SamePending (a b : RoomActor) : Prop where
  joins : b.requests.requests = a.requests.requests
  timeouts : b.timeoutRequests = a.timeoutRequests

theorem SamePending.refl (a : RoomActor) : SamePending a a := ⟨rfl, rfl⟩

theorem SamePending.trans {c : RoomActor} (h : SamePending a b) (h' : SamePending b c) :
    SamePending a c :=
  ⟨h'.joins.trans h.joins, h'.timeouts.trans h.timeouts⟩

/-- Among the actions is one on which the host asks for the pending requests. -/
def Asks (actions : List RoomAction) : Prop := ∃ action ∈ actions, action.asksRefresh = true

/-- A handler brings no news, and when it changes the pending requests it makes the host ask. -/
structure Reports (a : RoomActor) (outcome : Outcome) : Prop where
  noNews : NoNews (actionsOf outcome.2)
  asks : ∀ actions, outcome.2 = .ok actions → SamePending a outcome.1 ∨ Asks actions

theorem Reports.refused {error : RoomError} : Reports a (b, .error error) :=
  ⟨noNews_nil, nofun⟩

theorem Reports.same {actions : List RoomAction} (h : SamePending a b) (hactions : NoNews actions) :
    Reports a (b, .ok actions) :=
  ⟨hactions, fun _ _ => .inl h⟩

theorem Reports.quiet (h : SamePending a b) : Reports a (b, .ok []) := .same h noNews_nil

theorem Reports.asked {actions : List RoomAction} (hactions : NoNews actions)
    (h : Asks actions) : Reports a (b, .ok actions) :=
  ⟨hactions, fun _ heq => .inr (Except.ok.inj heq ▸ h)⟩

theorem Reports.congr {outcome : Outcome} (h : SamePending a b) (hreports : Reports b outcome) :
    Reports a outcome :=
  ⟨hreports.noNews, fun actions heq => (hreports.asks actions heq).imp_left h.trans⟩

/-! ### Transitions -/

theorem noNews_wrapAll {key : Key} {i : Nat} {members : List Member} {wraps : List RoomAction}
    (h : a.wrapAll P rng key i members = .ok wraps) : NoNews wraps := by
  induction members generalizing i wraps with
  | nil =>
      cases h
      exact noNews_nil
  | cons m rest ih =>
      rw [wrapAll] at h
      split at h
      · cases h
      rename_i wrap hwrap
      split at h
      · cases h
      rename_i wraps' hwraps
      cases h
      have hsend : wrap.isNews = false := by
        unfold wrapFor at hwrap
        split at hwrap
        · cases hwrap
        split at hwrap
        · cases hwrap
        split at hwrap
        · cases hwrap
        cases hwrap
        rfl
      exact .cons hsend (ih hwraps)

/-- A transition sends wraps and leaves the requests alone. -/
structure Rotation (a b : RoomActor) (result : Except RoomError (List RoomAction)) : Prop where
  pending : SamePending a b
  noNews : ∀ wraps, result = .ok wraps → NoNews wraps

theorem beginEpochTransition_rotation {result : Except RoomError (List RoomAction)}
    (heq : a.beginEpochTransition P rng = (b, result)) : Rotation a b result := by
  obtain ⟨key, wraps, hbegins, hcases⟩ | ⟨error, hcases⟩ := beginEpochTransition_cases P rng a
  · rw [hcases] at heq
    cases heq
    refine ⟨⟨rfl, rfl⟩, fun wraps' hwraps => ?_⟩
    cases hwraps
    exact noNews_wrapAll hbegins.wrapped
  · rw [hcases] at heq
    cases heq
    exact ⟨⟨rfl, rfl⟩, nofun⟩

/-- So does the removal of a member. -/
structure Removes (a b : RoomActor)
    (result : Except RoomError (Option (Member × List RoomAction))) : Prop where
  pending : SamePending a b
  noNews : ∀ member wraps, result = .ok (some (member, wraps)) → NoNews wraps

theorem removeMember_removes {id : MemberId} {eventType : UInt8}
    {result : Except RoomError (Option (Member × List RoomAction))}
    (heq : a.removeMember P rng id eventType = (b, result)) : Removes a b result := by
  unfold removeMember at heq
  split at heq
  · cases heq
    exact ⟨.refl a, nofun⟩
  split at heq
  · cases heq
    exact ⟨.refl a, nofun⟩
  dsimp only at heq
  split at heq
  · rename_i hbegin
    cases heq
    have hrotation := beginEpochTransition_rotation hbegin
    exact ⟨⟨hrotation.pending.joins, hrotation.pending.timeouts⟩, nofun⟩
  · rename_i hbegin
    cases heq
    have hrotation := beginEpochTransition_rotation hbegin
    refine ⟨⟨hrotation.pending.joins, hrotation.pending.timeouts⟩, fun member wraps hresult => ?_⟩
    cases hresult
    exact hrotation.noNews _ rfl

/-! ### Departures -/

theorem onLeave_reports (connection : ConnectionId) :
    Reports a (a.onLeave P rng connection) := by
  unfold onLeave
  split
  · exact .refused
  split
  · exact .refused
  split <;> rename_i heq
  · exact .refused
  · exact .quiet (removeMember_removes heq).pending
  · have hremoves := removeMember_removes heq
    refine .same hremoves.pending ((hremoves.noNews _ _ rfl).append ?_)
    simp [NoNews, RoomAction.isNews]

theorem onMemberLeft_reports (id : MemberId) : Reports a (a.onMemberLeft P rng id) := by
  unfold onMemberLeft
  split <;> rename_i heq
  · exact .refused
  · exact .quiet (removeMember_removes heq).pending
  · have hremoves := removeMember_removes heq
    refine .same hremoves.pending ((hremoves.noNews _ _ rfl).append ?_)
    simp [NoNews, RoomAction.isNews]

theorem onKick_reports (target : MemberRef) : Reports a (a.onKick P rng target) := by
  unfold onKick
  split
  · exact .refused
  split
  · exact .refused
  split
  · exact .refused
  split <;> rename_i heq
  · exact .refused
  · exact .quiet (removeMember_removes heq).pending
  · have hremoves := removeMember_removes heq
    refine .same hremoves.pending ((hremoves.noNews _ _ rfl).append ?_)
    simp [NoNews, RoomAction.isNews]

theorem closeRoom_reports : Reports a a.closeRoom := by
  unfold closeRoom
  split
  · exact .refused
  · refine .same ⟨rfl, rfl⟩ (NoNews.append (fun action hmem => ?_) ?_)
    · obtain ⟨connection, -, hmem⟩ := List.mem_flatMap.mp hmem
      simp only [List.mem_cons, List.not_mem_nil, or_false] at hmem
      obtain rfl | rfl := hmem <;> rfl
    · simp [NoNews, RoomAction.isNews]

/-- The requests of a lost connection are withdrawn one by one. -/
theorem onConnectionLost_reports (connection : ConnectionId) :
    Reports a (a.onConnectionLost P rng connection) := by
  unfold onConnectionLost
  split
  · exact closeRoom_reports
  dsimp only
  generalize hlost : a.timeoutRequests.filter (fun request => request.connection = connection) =
    lost
  generalize hkept : a.timeoutRequests.filter (fun request => request.connection ≠ connection) =
    kept
  generalize hrejected : lost.map (fun request =>
    RoomAction.notifyHost (.timeoutRequestRejected request.requestId)) = rejected
  have hplain : NoNews rejected := hrejected ▸ noNews_map _ _ fun _ => rfl
  -- without a rejection nothing was withdrawn
  have hpending : SamePending a { a with timeoutRequests := kept } ∨ Asks rejected := by
    cases lost with
    | nil =>
        refine .inl ⟨rfl, ?_⟩
        rw [← hkept]
        refine List.filter_eq_self.mpr fun request hmem => ?_
        rw [List.filter_eq_nil_iff] at hlost
        simpa using hlost request hmem
    | cons request rest =>
        refine .inr ⟨.notifyHost (.timeoutRequestRejected request.requestId), ?_, rfl⟩
        rw [← hrejected]
        exact .head _
  have hreports : ∀ {b : RoomActor} {more : List RoomAction},
      SamePending { a with timeoutRequests := kept } b → NoNews more →
      Reports a (b, .ok (rejected ++ more)) := by
    intro b more hsame hmore
    obtain hkeeps | ⟨action, hmem, hasks⟩ := hpending
    · exact .same (hkeeps.trans hsame) (hplain.append hmore)
    · exact .asked (hplain.append hmore) ⟨action, List.mem_append_left _ hmem, hasks⟩
  have hquiet : ∀ {b : RoomActor}, SamePending { a with timeoutRequests := kept } b →
      Reports a (b, .ok rejected) := by
    intro b hsame
    have hnothing := hreports hsame noNews_nil
    rwa [List.append_nil] at hnothing
  split
  · split <;> rename_i heq
    · exact .refused
    · have hremoves := removeMember_removes heq
      exact hquiet ⟨hremoves.pending.joins, hremoves.pending.timeouts⟩
    · have hremoves := removeMember_removes heq
      rw [List.append_assoc]
      refine hreports ⟨hremoves.pending.joins, hremoves.pending.timeouts⟩
        ((hremoves.noNews _ _ rfl).append ?_)
      simp [NoNews, RoomAction.isNews]
  split
  · exact hquiet ⟨rfl, rfl⟩
  split <;> rename_i heq
  · refine .asked (hplain.append ?_) ⟨_, List.mem_append_right _ (.head _), rfl⟩
    simp [NoNews, RoomAction.isNews]
  · refine hquiet ⟨?_, rfl⟩
    unfold JoinRequestQueue.take at heq
    split at heq <;> cases heq
    rfl

theorem evict_reports (ids : List MemberId) (a : RoomActor) :
    SamePending a (a.evict ids).1 ∧ NoNews (a.evict ids).2.1 := by
  induction ids generalizing a with
  | nil => exact ⟨.refl a, noNews_nil⟩
  | cons id rest ih =>
      unfold evict
      split
      · exact ih a
      · rename_i members member _
        obtain ⟨hsame, hplain⟩ := ih (forgetRateLimit
          { a with members, connections := a.connections.remove member.connection } id)
        refine ⟨⟨hsame.joins, hsame.timeouts⟩, fun action hmem => ?_⟩
        simp only [List.mem_cons] at hmem
        obtain rfl | rfl | hmem := hmem
        · rfl
        · rfl
        · exact hplain action hmem

theorem samePending_queueMembersGone (a : RoomActor) (gone : List MemberId) (eventType : UInt8) :
    SamePending a (a.queueMembersGone P gone eventType) := by
  obtain ⟨sequence, held, heq, -⟩ := queueMembersGone_eq (P := P) a gone eventType
  rw [heq]
  exact ⟨rfl, rfl⟩

theorem onEpochTimeout_reports : Reports a (a.onEpochTimeout P rng) := by
  unfold onEpochTimeout
  split
  · exact .quiet (.refl a)
  rename_i pending _
  split
  · exact .quiet (.refl a)
  dsimp only
  split
  · have hsame : SamePending a { a with pendingEpoch := none } := ⟨rfl, rfl⟩
    exact .congr hsame closeRoom_reports
  obtain ⟨hevicted, hplain⟩ := evict_reports pending.awaiting { a with pendingEpoch := none }
  split
  · exact .refused
  · rename_i b wraps heq
    have hrotation := beginEpochTransition_rotation heq
    have hgone := samePending_queueMembersGone (P := P) b
      ({ a with pendingEpoch := none }.evict pending.awaiting).2.2 msgMemberLeft
    have hsame := (hevicted.trans hrotation.pending).trans hgone
    exact .same ⟨hsame.joins, hsame.timeouts⟩ (hplain.append (hrotation.noNews _ rfl))

theorem onEpochAck_reports (hheld : NoNews a.pendingMembership) (connection : ConnectionId)
    (epoch : Nat) : Reports a (a.onEpochAck connection epoch) := by
  unfold onEpochAck
  split
  · exact .quiet (.refl a)
  split
  · exact .quiet (.refl a)
  split
  · exact .quiet (.refl a)
  dsimp only
  split
  · exact .quiet ⟨rfl, rfl⟩
  split
  · refine .same ⟨rfl, rfl⟩ (hheld.append ?_)
    split <;> simp [NoNews, RoomAction.isNews]
  · exact .quiet ⟨rfl, rfl⟩

/-! ### Requests and answers -/

theorem onJoinRequested_reports (connection : ConnectionId) (application : JoinApplication) :
    Reports a (a.onJoinRequested connection application) := by
  unfold onJoinRequested
  split
  · exact .refused
  split
  · exact .refused
  split
  · exact .refused
  split
  · exact .refused
  split
  · exact .refused
  · refine .asked ?_ ⟨_, .head _, rfl⟩
    simp [NoNews, RoomAction.isNews]

/-- Whatever an answer does, it brings no news. -/
theorem admitMember_noNews (connection : ConnectionId) (application : JoinApplication) :
    NoNews (actionsOf (a.admitMember P rng connection application).2) := by
  unfold admitMember
  split
  · dsimp only
    split <;> rename_i heq
    · exact noNews_nil
    · exact .cons rfl (.cons rfl ((beginEpochTransition_rotation heq).noNews _ rfl))
  · refine NoNews.append ?_ ?_
    · simp [NoNews, RoomAction.isNews]
    · split <;> simp [NoNews, RoomAction.isNews]

theorem onAccept_noNews (requestId : RequestId) :
    NoNews (actionsOf (a.onAccept P rng requestId).2) := by
  unfold onAccept
  split
  · simp [NoNews, RoomAction.isNews, actionsOf]
  split
  · exact noNews_nil
  · exact admitMember_noNews _ _

theorem onReject_noNews (requestId : RequestId) :
    NoNews (actionsOf (a.onReject requestId).2) := by
  unfold onReject
  split
  · simp [NoNews, RoomAction.isNews, actionsOf]
  split
  · exact noNews_nil
  · unfold rejectedMessage
    dsimp only
    split
    · simp [NoNews, RoomAction.isNews, actionsOf]
    · split <;> simp [NoNews, RoomAction.isNews, actionsOf]

/-! ### Chat -/

theorem onTimeoutRequest_reports (connection : ConnectionId) (senderId : MemberId)
    (plaintext : Bytes) : Reports a (a.onTimeoutRequest connection senderId plaintext) := by
  unfold onTimeoutRequest
  split
  · exact .refused
  split
  · exact .refused
  dsimp only
  split
  · exact .refused
  split
  · exact .refused
  · refine .asked ?_ ⟨_, .head _, rfl⟩
    simp [NoNews, RoomAction.isNews]

theorem noNews_relay (connection : ConnectionId) (message : Message) :
    NoNews (a.relay connection message) := noNews_map _ _ fun _ => rfl

theorem onPlaintext_reports (connection : ConnectionId) (senderId : MemberId)
    (messageType : UInt8) (envelope : EncryptedEnvelope) (plaintext : Bytes) :
    Reports a (a.onPlaintext connection senderId messageType envelope plaintext) := by
  unfold onPlaintext
  split
  · split
    · split
      · exact .refused
      · exact .same ⟨rfl, rfl⟩ (noNews_relay _ _)
    · exact .refused
  split
  · exact onTimeoutRequest_reports connection senderId plaintext
  split
  · split
    · exact .refused
    · split
      · exact .refused
      · exact .same ⟨rfl, rfl⟩ (noNews_relay _ _)
  · split
    · exact .refused
    · split
      · exact .refused
      · exact .same (.refl a) (noNews_relay _ _)

theorem onEnvelope_reports (connection : ConnectionId) (senderId : MemberId) (messageType : UInt8)
    (envelope : EncryptedEnvelope) :
    Reports a (a.onEnvelope P connection senderId messageType envelope) := by
  unfold onEnvelope
  split
  · exact .refused
  split
  · exact .refused
  split
  · exact .refused
  · have hsame : SamePending a { a with
        chatReplay := (a.chatReplay.accept senderId a.epoch envelope.senderSequence).1 } :=
      ⟨rfl, rfl⟩
    exact .congr hsame (onPlaintext_reports connection senderId messageType envelope _)

theorem onRateLimited_reports (connection : ConnectionId) (senderId : MemberId) (abusive : Bool) :
    Reports a (a.onRateLimited P rng connection senderId abusive) := by
  unfold onRateLimited
  split
  · exact .refused
  dsimp only
  have hplain : ∀ message : ErrorMessage, NoNews [.sendTo connection (.error message),
      .notifyHost (.error "member exceeded the message rate limit")] := by
    simp [NoNews, RoomAction.isNews]
  split
  · split <;> rename_i heq
    · exact .refused
    · exact .same (removeMember_removes heq).pending (hplain _)
    · have hremoves := removeMember_removes heq
      refine .same hremoves.pending (((hplain _).append (hremoves.noNews _ _ rfl)).append ?_)
      simp [NoNews, RoomAction.isNews]
  · exact .same (.refl a) (hplain _)

theorem onChatReceived_reports (connection : ConnectionId) (messageType : UInt8)
    (envelope : EncryptedEnvelope) :
    Reports a (a.onChatReceived P rng connection messageType envelope) := by
  unfold onChatReceived
  split
  · exact .refused
  split
  · exact .refused
  rename_i senderId _
  split
  · exact .refused
  split
  · exact .refused
  split
  · exact onEnvelope_reports connection _ messageType envelope
  have hcharged : SamePending a (a.chargeRateLimit senderId).1 := ⟨rfl, rfl⟩
  generalize a.chargeRateLimit senderId = charge at hcharged
  obtain ⟨b, allowed, abusive⟩ := charge
  dsimp only at hcharged ⊢
  split
  · exact .congr hcharged (onEnvelope_reports connection _ messageType envelope)
  · exact .congr hcharged (onRateLimited_reports connection _ abusive)

/-! ### Commands -/

theorem noNews_dropAdmissions (a : RoomActor) : NoNews a.dropAdmissions.2 := by
  refine NoNews.append (fun action hmem => ?_) (noNews_map _ _ fun _ => rfl)
  obtain ⟨request, -, hmem⟩ := List.mem_flatMap.mp hmem
  simp only [List.mem_cons, List.not_mem_nil, or_false] at hmem
  obtain rfl | rfl := hmem <;> rfl

/-- The loops that close the admission flows report every request they drain. -/
theorem dropAdmissions_reports : Reports a (a.dropAdmissions.1, .ok a.dropAdmissions.2) := by
  have hplain := noNews_dropAdmissions a
  cases hrequests : a.requests.requests with
  | nil =>
      refine .same ⟨?_, rfl⟩ hplain
      rw [hrequests]
      rfl
  | cons request rest =>
      refine .asked hplain ⟨.notifyHost (.joinRequestWithdrawn request.id), ?_, rfl⟩
      simp [dropAdmissions, JoinRequestQueue.drain, hrequests]

theorem onMemberCommand_reports (connection : ConnectionId) (command : MemberCommand) :
    Reports a (a.onMemberCommand P rng connection command) := by
  cases command with
  | leave => exact onLeave_reports connection
  | color color =>
      unfold onMemberCommand onColor
      dsimp only
      split
      · exact .quiet ⟨rfl, rfl⟩
      split
      · exact .quiet ⟨rfl, rfl⟩
      · exact .refused
  | list =>
      refine .same (.refl a) ?_
      simp [NoNews, RoomAction.isNews]
  | whois target =>
      unfold onMemberCommand
      dsimp only
      split
      · exact .refused
      · refine .same (.refl a) ?_
        simp [NoNews, RoomAction.isNews]

theorem rejectDuringTransition_reports (connection : ConnectionId) :
    Reports a (a.rejectDuringTransition connection) := by
  unfold rejectDuringTransition
  split
  · refine .same (.refl a) ?_
    simp [NoNews, RoomAction.isNews]
  · split
    · exact .refused
    · refine .same (.refl a) ?_
      simp [NoNews, RoomAction.isNews]

/-! ### Events -/

theorem handleInTransition_reports (hheld : NoNews a.pendingMembership) {event : RoomEvent}
    (hnews : event.bringsNews = false) : Reports a (a.handleInTransition P rng event) := by
  cases event with
  | epochAck connection epoch => exact onEpochAck_reports hheld connection epoch
  | connectionLost connection => exact onConnectionLost_reports connection
  | timeoutExpired connection kind =>
      unfold handleInTransition
      dsimp only
      split
      · exact onEpochTimeout_reports
      · exact onConnectionLost_reports connection
  | epochMaintenance => exact onEpochTimeout_reports
  | closeRequested | torStopped => exact closeRoom_reports
  | hostCommand command =>
      cases command with
      | requests => cases hnews
      | _ => exact .refused
  | chatReceived connection messageType envelope =>
      unfold handleInTransition
      dsimp only
      split
      · exact onChatReceived_reports connection messageType envelope
      · exact rejectDuringTransition_reports connection
  | _ => exact .refused

theorem handleSettled_reports (hheld : NoNews a.pendingMembership) {event : RoomEvent}
    (hnews : event.bringsNews = false) (hanswers : event.answers = false) :
    Reports a (a.handleSettled P rng event) := by
  cases event with
  | clientConnected _ | passwordVerified _ | epochMaintenance => exact .quiet ⟨rfl, rfl⟩
  | epochAck connection epoch => exact onEpochAck_reports hheld connection epoch
  | joinRequested connection application => exact onJoinRequested_reports connection application
  | hostCommand command =>
      cases command with
      | kick target => exact onKick_reports target
      | newId | reqOn | reqOff | requests => cases hnews
      | accept _ | reject _ => cases hanswers
  | memberCommand connection command => exact onMemberCommand_reports connection command
  | hostAccepted _ | hostRejected _ => cases hanswers
  | connectionLost connection | timeoutExpired connection _ =>
      exact onConnectionLost_reports connection
  | memberLeft member => exact onMemberLeft_reports member
  | chatReceived connection messageType envelope =>
      exact onChatReceived_reports connection messageType envelope
  | torStopped | closeRequested => exact closeRoom_reports

/-- An event that brings no news is reported, unless it is an answer of the host. -/
theorem handleEventAt_reports (hheld : NoNews a.pendingMembership) {event : RoomEvent}
    (hnews : event.bringsNews = false) (hanswers : event.answers = false) (now : Duration) :
    Reports a (a.handleEventAt P rng event now) := by
  have hsame : SamePending a { a with now } := ⟨rfl, rfl⟩
  have hheld : NoNews { a with now }.pendingMembership := hheld
  unfold handleEventAt
  dsimp only
  split
  · exact .refused
  split
  · exact .congr hsame (handleInTransition_reports hheld hnews)
  · exact .congr hsame (handleSettled_reports hheld hnews hanswers)

theorem handleEventAt_noNews (hheld : NoNews a.pendingMembership) {event : RoomEvent}
    (hnews : event.bringsNews = false) (now : Duration) :
    NoNews (actionsOf (a.handleEventAt P rng event now).2) := by
  cases hanswers : event.answers with
  | false => exact (handleEventAt_reports hheld hnews hanswers now).noNews
  | true =>
      have hheld : NoNews { a with now }.pendingMembership := hheld
      unfold handleEventAt
      dsimp only
      split
      · exact noNews_nil
      split
      · exact (handleInTransition_reports hheld hnews).noNews
      · cases event with
        | hostAccepted requestId => exact onAccept_noNews requestId
        | hostRejected requestId => exact onReject_noNews requestId
        | hostCommand command =>
            cases command with
            | accept requestId => exact onAccept_noNews requestId
            | reject requestId => exact onReject_noNews requestId
            | _ => cases hanswers
        | _ => cases hanswers

/-! ### What the host knows -/

/-- What the notices tell the host of the room. -/
structure Told where
  token : Key
  policy : JoinPolicy

/-- A notice replaces what it is about. -/
def Told.hear (told : Told) : RoomAction → Told
  | .notifyHost (.invitationRotated token) => { told with token }
  | .notifyHost (.joinPolicyChanged policy) => { told with policy }
  | _ => told

def told (a : RoomActor) : Told := ⟨a.token, a.policy⟩

theorem hear_of_noNews {actions : List RoomAction} (h : NoNews actions) (known : Told) :
    actions.foldl Told.hear known = known := by
  induction actions with
  | nil => rfl
  | cons action rest ih =>
      have hrest : NoNews rest := fun action hmem => h action (.tail _ hmem)
      have hfirst : known.hear action = known := by
        have hnews := h action (.head _)
        unfold Told.hear
        split
        · cases hnews
        · cases hnews
        · rfl
      rw [List.foldl_cons, hfirst]
      exact ih hrest

/-- A policy changes with its notice only. -/
theorem Move.policy {event : RoomEvent} {result : Except RoomError (List RoomAction)}
    (hmove : Move P rng a event b result) (h : NoNews (actionsOf result)) :
    b.policy = a.policy := by
  cases hmove with
  | refused | acked | activated | closed => rfl
  | failed htabled => exact htabled.policy
  | quiet hstill => exact hstill.policy
  | relayed _ _ hstill => exact hstill.policy
  | @policySet _ policy actions _ htabled =>
      have hnotice := h (.notifyHost (.joinPolicyChanged policy)) (by
        simp [actionsOf, announcePolicy])
      cases hnotice
  | joined _ htabled => exact htabled.policy
  | departed gone _ _ htabled =>
      obtain ⟨_, _, heq, -⟩ := queueMembersGone_eq (P := P) (_ : RoomActor) gone _
      rw [heq]
      exact htabled.policy

/-- The events that are held back stay messages. -/
theorem Move.held {event : RoomEvent} {result : Except RoomError (List RoomAction)}
    (hmove : Move P rng a event b result) (h : NoNews a.pendingMembership) :
    NoNews b.pendingMembership := by
  cases hmove with
  | refused | acked | closed => exact h
  | activated => exact noNews_nil
  | failed htabled => exact htabled.pendingMembership ▸ h
  | quiet hstill => exact hstill.pendingMembership ▸ h
  | relayed _ _ hstill => exact hstill.pendingMembership ▸ h
  | policySet _ _ htabled => exact htabled.pendingMembership ▸ h
  | joined _ htabled =>
      refine NoNews.append (NoNews.append ?_ (noNews_map _ _ fun _ => rfl)) ?_
      · exact htabled.pendingMembership ▸ h
      · simp [NoNews, RoomAction.isNews]
  | departed gone _ _ htabled =>
      obtain ⟨_, held, heq, hheld⟩ := queueMembersGone_eq (P := P) (_ : RoomActor) gone _
      rw [heq]
      refine NoNews.append (htabled.pendingMembership ▸ h) fun action hmem => ?_
      have hmembership := hheld action hmem
      cases action with
      | sendTo _ _ => rfl
      | closeConnection _ | notifyHost _ => cases hmembership

theorem onNewId_told :
    (actionsOf (a.onNewId rng).2).foldl Told.hear a.told = (a.onNewId rng).1.told := by
  unfold onNewId
  split
  · rfl
  · rename_i token _
    dsimp only [actionsOf]
    rw [List.foldl_append, hear_of_noNews (noNews_dropAdmissions _)]
    rfl

theorem setPolicy_told (policy : JoinPolicy) :
    (actionsOf (a.setPolicy P policy).2).foldl Told.hear a.told =
      (a.setPolicy P policy).1.told := by
  have hannounced : ∀ b : RoomActor,
      (b.announcePolicy P policy).2.foldl Told.hear b.told =
        (b.announcePolicy P policy).1.told := by
    intro b
    simp only [announcePolicy]
    rw [List.foldl_append, hear_of_noNews (noNews_map _ _ fun _ => rfl)]
    rfl
  unfold setPolicy
  dsimp only [actionsOf]
  split
  · have hdropped := hear_of_noNews (noNews_dropAdmissions a) a.told
    rw [List.foldl_append]
    exact (congrArg (List.foldl Told.hear · _) hdropped).trans (hannounced a.dropAdmissions.1)
  · exact hannounced a

/-- What the host is told is what the room has. -/
theorem handleEventAt_told (hvalid : a.registry.Valid) (hheld : NoNews a.pendingMembership)
    (event : RoomEvent) (now : Duration) :
    (actionsOf (a.handleEventAt P rng event now).2).foldl Told.hear a.told =
      (a.handleEventAt P rng event now).1.told := by
  cases hnews : event.bringsNews with
  | false =>
      have hnone : NoNews (actionsOf (a.handleEventAt P rng event now).2) :=
        handleEventAt_noNews hheld hnews now
      have hpolicy := (handleEventAt_effect P rng hvalid event now).move.policy hnone
      have htoken : (a.handleEventAt P rng event now).1.token = a.token := by
        apply token_handleEventAt
        rintro ⟨rfl, -⟩
        cases hnews
      rw [hear_of_noNews hnone, told, told, htoken, hpolicy]
  | true =>
      unfold handleEventAt
      dsimp only
      split
      · rfl
      split
      · cases event with
        | hostCommand command => cases command <;> rfl
        | _ => cases hnews
      · cases event with
        | hostCommand command =>
            cases command with
            | newId => exact onNewId_told (a := { a with now })
            | reqOn => exact setPolicy_told (a := { a with now }) .opened
            | reqOff => exact setPolicy_told (a := { a with now }) .locked
            | requests => rfl
            | _ => cases hnews
        | _ => cases hnews

/-! ### What the host asks again -/

/-- The room takes no more events. -/
def Over (a : RoomActor) : Prop := a.state = .closing ∨ a.state = .destroyed

/-- What one event does to the pending requests: it answers the question for them, or makes the
host ask when it changed them. Nothing is said to the answers of the host, nor by a room that is
over. -/
inductive Settles (a : RoomActor) (event : RoomEvent) :
    RoomActor → List RoomAction → Prop
  | closed {after : RoomActor} {actions : List RoomAction} : Over after →
      Settles a event after actions
  | answered {after : RoomActor} {actions : List RoomAction} : event.answers = true →
      Settles a event after actions
  | listed {after : RoomActor} : event = .hostCommand .requests → SamePending a after →
      Settles a event after [.notifyHost a.requestsSnapshot]
  | told {after : RoomActor} {actions : List RoomAction} : event ≠ .hostCommand .requests →
      NoSnapshot actions →
      SamePending a after ∨ Asks actions → Settles a event after actions

theorem Asks.append_left {actions : List RoomAction} (h : Asks actions)
    (more : List RoomAction) : Asks (actions ++ more) := by
  obtain ⟨action, hmem, hasks⟩ := h
  exact ⟨action, List.mem_append_left _ hmem, hasks⟩

theorem Asks.append_right {actions : List RoomAction} (h : Asks actions)
    (before : List RoomAction) : Asks (before ++ actions) := by
  obtain ⟨action, hmem, hasks⟩ := h
  exact ⟨action, List.mem_append_right _ hmem, hasks⟩

theorem Reports.settles {event : RoomEvent} {actions : List RoomAction}
    (h : Reports a (b, .ok actions)) (hevent : event ≠ .hostCommand .requests) :
    Settles a event b actions :=
  .told hevent h.noNews.noSnapshot (h.asks actions rfl)

/-- The admission flows were closed, and more was said that is no snapshot. -/
theorem settles_of_dropped {c : RoomActor} {event : RoomEvent} {more : List RoomAction}
    (hevent : event ≠ .hostCommand .requests) (hc : SamePending a c)
    (hb : SamePending c.dropAdmissions.1 b) (hmore : NoSnapshot more) :
    Settles a event b (c.dropAdmissions.2 ++ more) := by
  have hreports := dropAdmissions_reports (a := c)
  refine .told hevent ((noNews_dropAdmissions c).noSnapshot.append hmore) ?_
  obtain hsame | hasks := hreports.asks _ rfl
  · exact .inl ((hc.trans hsame).trans hb)
  · exact .inr (hasks.append_left more)

theorem setPolicy_settles {c : RoomActor} {event : RoomEvent}
    (hevent : event ≠ .hostCommand .requests) (hc : SamePending a c) (policy : JoinPolicy)
    {actions : List RoomAction} (h : c.setPolicy P policy = (b, .ok actions)) :
    Settles a event b actions := by
  have hannounced : ∀ c : RoomActor, NoSnapshot (c.announcePolicy P policy).2 := by
    intro c joins timeouts hmem
    simp [announcePolicy] at hmem
  unfold setPolicy at h
  dsimp only at h
  split at h
  · cases h
    exact settles_of_dropped hevent hc ⟨rfl, rfl⟩ (hannounced _)
  · cases h
    exact .told hevent (hannounced _) (.inl (hc.trans ⟨rfl, rfl⟩))

theorem onNewId_settles {c : RoomActor} {event : RoomEvent}
    (hevent : event ≠ .hostCommand .requests) (hc : SamePending a c)
    {actions : List RoomAction} (h : c.onNewId rng = (b, .ok actions)) :
    Settles a event b actions := by
  unfold onNewId at h
  split at h
  · cases h
  · cases h
    exact settles_of_dropped hevent ⟨hc.joins, hc.timeouts⟩ (.refl _) (by simp [NoSnapshot])

theorem handleEventAt_settles (hheld : NoNews a.pendingMembership) {event : RoomEvent}
    {now : Duration} {actions : List RoomAction}
    (h : a.handleEventAt P rng event now = (b, .ok actions)) : Settles a event b actions := by
  cases hanswers : event.answers with
  | true => exact .answered hanswers
  | false =>
      cases hnews : event.bringsNews with
      | false =>
          have hreports : Reports a (a.handleEventAt P rng event now) :=
            handleEventAt_reports hheld hnews hanswers now
          rw [h] at hreports
          refine hreports.settles ?_
          rintro rfl
          cases hnews
      | true =>
          have hsame : SamePending a { a with now } := ⟨rfl, rfl⟩
          unfold handleEventAt at h
          dsimp only at h
          split at h
          · cases h
          split at h
          · cases event with
            | hostCommand command =>
                cases command with
                | requests =>
                    cases h
                    exact .listed rfl ⟨rfl, rfl⟩
                | _ => cases h
            | _ => cases hnews
          · cases event with
            | hostCommand command =>
                cases command with
                | requests =>
                    cases h
                    exact .listed rfl ⟨rfl, rfl⟩
                | newId => exact onNewId_settles (by nofun) hsame h
                | reqOn => exact setPolicy_settles (by nofun) hsame .opened h
                | reqOff => exact setPolicy_settles (by nofun) hsame .locked h
                | _ => cases hnews
            | _ => cases hnews

/-! ### Rounds of the room task -/

theorem Unchanged.samePending (h : Unchanged a b) : SamePending a b := by
  obtain ⟨now, rateLimits, chatReplay, rfl⟩ := h
  exact ⟨rfl, rfl⟩

theorem Unchanged.keyed (h : Unchanged a b) (hkeyed : Keyed P a) : Keyed P b := by
  obtain ⟨now, rateLimits, chatReplay, rfl⟩ := h
  exact ⟨hkeyed.members, hkeyed.requests⟩

theorem Unchanged.valid (h : Unchanged a b) (hvalid : a.registry.Valid) : b.registry.Valid := by
  obtain ⟨now, rateLimits, chatReplay, rfl⟩ := h
  exact hvalid

theorem Unchanged.pendingMembership (h : Unchanged a b) :
    b.pendingMembership = a.pendingMembership := by
  obtain ⟨now, rateLimits, chatReplay, rfl⟩ := h
  rfl

theorem Unchanged.state (h : Unchanged a b) : b.state = a.state := by
  obtain ⟨now, rateLimits, chatReplay, rfl⟩ := h
  rfl

theorem Unchanged.told (h : Unchanged a b) : b.told = a.told := by
  obtain ⟨now, rateLimits, chatReplay, rfl⟩ := h
  rfl

/-- Only a room that is over does not list its requests. -/
theorem over_of_unlisted {now : Duration} {error : RoomError}
    (h : (a.handleEventAt P rng (.hostCommand .requests) now).2 = .error error) : Over a := by
  unfold handleEventAt at h
  dsimp only at h
  split at h
  · assumption
  · split at h <;> cases h

end RoomActor

namespace RoomTask
open RoomActor
variable {P : Primitives} {a : RoomActor} {input : TaskInput}

/-- A round of the task settles its event, while the generator works. -/
theorem receive_settles (law : P.Lawful) (hkeyed : Keyed P a) (hvalid : a.registry.Valid)
    (hheld : NoNews a.pendingMembership) (hrng : input.rng.Succeeds)
    (hcleanup : input.cleanupRng.Succeeds) :
    Settles a input.event (receive P a input).1 (receive P a input).2 := by
  unfold receive
  split
  · rename_i b actions hresult
    exact handleEventAt_settles hheld hresult
  rename_i b error hresult
  have hhandled : a.handleEventAt P input.rng input.event input.now = (b, .error error) := hresult
  have hunchanged : Unchanged a b := by
    have hkept := hkeyed.unchanged law hrng hvalid (congrArg Prod.snd hhandled)
    rwa [hhandled] at hkept
  by_cases hevent : input.event = .hostCommand .requests
  · rw [hevent] at hhandled ⊢
    have hover : Over a := over_of_unlisted (congrArg Prod.snd hhandled)
    have hafter : Over b := by rwa [Over, hunchanged.state]
    split
    · exact .closed hafter
    split
    · exact .closed hafter
    · rename_i hoffender
      cases hoffender
  split
  · exact .told hevent (by simp [NoSnapshot]) (.inl hunchanged.samePending)
  split
  · exact .told hevent (by simp [NoSnapshot]) (.inl hunchanged.samePending)
  rename_i connection _
  have hplain : NoSnapshot [.notifyHost (.error (error.toString P)),
      .sendTo connection (.error (errorMessage P error)), .closeConnection connection] := by
    simp [NoSnapshot]
  have hheld' : NoNews b.pendingMembership := hunchanged.pendingMembership ▸ hheld
  -- what the clean-up does to the requests is reported after the error
  split
  rename_i c result hcleaned
  have hcleaned : b.handleEventAt P input.cleanupRng (.connectionLost connection)
      input.cleanupNow = (c, result) := hcleaned
  cases result with
  | error error' =>
      have hkept := (hunchanged.keyed hkeyed).unchanged law hcleanup (hunchanged.valid hvalid)
        (congrArg Prod.snd hcleaned)
      rw [hcleaned] at hkept
      exact .told hevent hplain (.inl (hunchanged.samePending.trans hkept.samePending))
  | ok actions =>
      have hsettles := handleEventAt_settles hheld' hcleaned
      cases hsettles with
      | closed hover => exact .closed hover
      | answered hanswers => cases hanswers
      | listed hlisted _ => cases hlisted
      | told _ hnone hasks =>
          refine .told hevent (hplain.append hnone) ?_
          exact hasks.imp hunchanged.samePending.trans fun hasks => hasks.append_right [_, _, _]

/-- A round keeps what is held back plain. -/
theorem receive_held (hvalid : a.registry.Valid) (hheld : NoNews a.pendingMembership)
    (input : TaskInput) : NoNews (receive P a input).1.pendingMembership := by
  have heffect := handleEventAt_effect P input.rng hvalid input.event input.now
  have hfirst : NoNews (a.handle P input.toInput).1.pendingMembership :=
    heffect.move.held (a := { a with now := input.now }) hheld
  obtain heq | ⟨c, -, heq⟩ := receive_cases (P := P) a input
  · rw [heq]
    exact hfirst
  · rw [heq]
    have hsecond := handleEventAt_effect P input.cleanupRng heffect.step.valid (.connectionLost c)
      input.cleanupNow
    exact hsecond.move.held
      (a := { (a.handle P input.toInput).1 with now := input.cleanupNow }) hfirst

/-- The batch of a round tells the host what the room has after it. -/
theorem receive_told (hvalid : a.registry.Valid) (hheld : NoNews a.pendingMembership)
    (input : TaskInput) :
    (receive P a input).2.foldl Told.hear a.told = (receive P a input).1.told := by
  have htold : (actionsOf (a.handleEventAt P input.rng input.event input.now).2).foldl Told.hear
      a.told = (a.handleEventAt P input.rng input.event input.now).1.told :=
    handleEventAt_told hvalid hheld input.event input.now
  have heffect := handleEventAt_effect P input.rng hvalid input.event input.now
  have hafter : NoNews (a.handle P input.toInput).1.pendingMembership :=
    heffect.move.held (a := { a with now := input.now }) hheld
  have hvalid' : (a.handle P input.toInput).1.registry.Valid := heffect.step.valid
  change (actionsOf (a.handle P input.toInput).2).foldl Told.hear a.told =
    (a.handle P input.toInput).1.told at htold
  unfold receive
  split
  · rename_i b actions hresult
    rw [hresult] at htold
    exact htold
  · rename_i b error hresult
    rw [hresult] at htold hafter hvalid'
    have hsame : a.told = b.told := htold
    split
    · exact hsame
    split
    · exact hsame
    · rename_i connection _
      rw [hsame]
      exact handleEventAt_told hvalid' hafter (.connectionLost connection) input.cleanupNow

end RoomTask

end Veilroom
