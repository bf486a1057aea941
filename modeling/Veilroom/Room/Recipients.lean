import Veilroom.Room.Task
import Veilroom.Room.Traffic

/-!
Whom the room writes to, seen from outside: connections that applied or were
admitted, and connections the same batch closes.

`S` is any set of connections that an event which makes the room take a
connection up has to come from.
-/
namespace Veilroom

theorem MemberTable.mem_of_mem_remove {t : MemberTable} {id : MemberId} {m : Member}
    (h : m ∈ (t.remove id).1.members) : m ∈ t.members := by
  unfold MemberTable.remove at h
  split at h
  · exact h
  · exact List.mem_of_mem_eraseP h

theorem JoinRequestQueue.mem_of_mem_take {q : JoinRequestQueue} {id : RequestId} {r : JoinRequest}
    (h : r ∈ (q.take id).1.requests) : r ∈ q.requests := by
  unfold JoinRequestQueue.take at h
  split at h
  · exact h
  · exact List.mem_of_mem_eraseP h

namespace RoomActor
variable {P : Primitives} {rng : Rng} {S : ConnectionId → Prop} {a b : RoomActor}
variable {c : ConnectionId} {action : RoomAction} {actions : List RoomAction}

/-- Every message goes to a connection of `S`, or to one that is closed with it. -/
def Directed (S : ConnectionId → Prop) (actions : List RoomAction) : Prop :=
  ∀ c message, .sendTo c message ∈ actions → S c ∨ .closeConnection c ∈ actions

/-- The room knows only connections of `S` as members or applicants, and has nothing queued for
others. -/
structure Within (S : ConnectionId → Prop) (a : RoomActor) : Prop where
  members : ∀ m ∈ a.members.members, S m.connection
  requests : ∀ q ∈ a.requests.requests, S q.connection
  queued : ∀ c message, .sendTo c message ∈ a.pendingMembership → S c

structure Serves (S : ConnectionId → Prop) (outcome : Outcome) : Prop where
  holds : Within S outcome.1
  directed : Directed S (actionsOf outcome.2)

/-- The connection the event makes the room take up, or answer, is in `S`. -/
def Grants (S : ConnectionId → Prop) : RoomEvent → Prop
  | .joinRequested c _ | .chatReceived c _ _ => S c
  | _ => True

namespace Directed

theorem nil : Directed S [] := by simp [Directed]

theorem silent (h : ∀ c message, .sendTo c message ∉ actions) : Directed S actions :=
  fun c message hmem => absurd hmem (h c message)

theorem of_all (h : ∀ c message, .sendTo c message ∈ actions → S c) : Directed S actions :=
  fun c message hmem => .inl (h c message hmem)

theorem append {first second : List RoomAction} (h : Directed S first) (k : Directed S second) :
    Directed S (first ++ second) := by
  intro c message hmem
  obtain hmem | hmem := List.mem_append.mp hmem
  · exact (h c message hmem).imp_right (List.mem_append_left _)
  · exact (k c message hmem).imp_right (List.mem_append_right _)

theorem cons (haction : ∀ c message, action = .sendTo c message → S c) (h : Directed S actions) :
    Directed S (action :: actions) := by
  intro c message hmem
  obtain heq | hmem := List.mem_cons.mp hmem
  · exact .inl (haction c message heq.symm)
  · exact (h c message hmem).imp_right (List.mem_cons_of_mem _)

theorem cons_sendTo {message : Message} (hc : S c) (h : Directed S actions) :
    Directed S (.sendTo c message :: actions) := by
  apply h.cons
  rintro _ _ ⟨⟩
  exact hc

theorem cons_closeConnection (h : Directed S actions) :
    Directed S (.closeConnection c :: actions) :=
  h.cons (by simp)

theorem cons_notifyHost {notice : HostNotice} (h : Directed S actions) :
    Directed S (.notifyHost notice :: actions) :=
  h.cons (by simp)

end Directed

theorem Directed.mono {T : ConnectionId → Prop} (h : Directed S actions)
    (hle : ∀ c, S c → T c) : Directed T actions :=
  fun c message hmem => (h c message hmem).imp_left (hle c)

theorem Grants.mono {T : ConnectionId → Prop} {event : RoomEvent} (h : Grants S event)
    (hle : ∀ c, S c → T c) : Grants T event := by
  cases event with
  | joinRequested c _ | chatReceived c _ _ => exact hle c h
  | _ => trivial

/-! ### Holding -/

theorem Within.mono {T : ConnectionId → Prop} (h : Within S a) (hle : ∀ c, S c → T c) :
    Within T a where
  members m hm := hle _ (h.members m hm)
  requests q hq := hle _ (h.requests q hq)
  queued c message hmem := hle c (h.queued c message hmem)

theorem Within.known (h : Within S a) (hvalid : a.registry.Valid) {id : MemberId}
    (hid : a.connections.memberId c = some id) : S c := by
  obtain ⟨m, hm, rfl, -⟩ := hvalid.entry_member c id hid
  exact h.members m hm

theorem Within.refused (h : Within S a) {error : RoomError} : Serves S (a, .error error) :=
  ⟨h, .nil⟩

theorem Within.setColor (h : Within S a) (id : MemberId) (color : ColorChoice) :
    Within S { a with members := a.members.setColor id color } := by
  refine ⟨fun m hm => ?_, h.requests, h.queued⟩
  obtain ⟨n, hn, hcolor⟩ := MemberTable.mem_setColor hm
  rw [hcolor]
  exact h.members n hn

theorem Within.without (h : Within S a) {id : MemberId} {members : MemberTable} {member : Member}
    (hremove : a.members.remove id = (members, some member)) :
    Within S (forgetRateLimit
      { a with members, connections := a.connections.remove member.connection } id) := by
  refine ⟨fun m hm => h.members m ?_, h.requests, h.queued⟩
  apply MemberTable.mem_of_mem_remove
  rw [hremove]
  exact hm

/-! ### Transitions -/

theorem beginEpochTransition_serves (P : Primitives) (rng : Rng) (h : Within S a) :
    Serves S (a.beginEpochTransition P rng) := by
  obtain ⟨key, wraps, hbegins, heq⟩ | ⟨error, heq⟩ := beginEpochTransition_cases P rng a
  · rw [heq]
    refine ⟨⟨h.members, h.requests, h.queued⟩, .of_all fun c message hmem => ?_⟩
    obtain ⟨m, hm, rfl⟩ := mem_wrapAll hbegins.wrapped hmem
    exact h.members m hm
  · rw [heq]
    exact ⟨⟨h.members, h.requests, h.queued⟩, .nil⟩

theorem queueMemberSnapshot_holds (h : Within S a) (hc : S c) :
    Within S (a.queueMemberSnapshot P c) := by
  refine ⟨h.members, h.requests, fun c' message hmem => ?_⟩
  obtain hmem | hmem := List.mem_append.mp hmem
  · exact h.queued c' message hmem
  · cases List.mem_singleton.mp hmem
    exact hc

theorem queueMemberJoined_holds (h : Within S a) {member : Member} (hc : S member.connection) :
    Within S (a.queueMemberJoined P member) := by
  apply queueMemberSnapshot_holds _ hc
  refine ⟨h.members, h.requests, fun c message hmem => ?_⟩
  obtain hmem | hmem := List.mem_append.mp hmem
  · exact h.queued c message hmem
  · obtain ⟨m, hm, heq⟩ := List.mem_map.mp hmem
    cases heq
    exact h.members m (List.mem_filter.mp hm).1

theorem queueMemberGone_holds (h : Within S a) (id : MemberId) (eventType : UInt8) :
    Within S (a.queueMemberGone P id eventType) := by
  refine ⟨h.members, h.requests, fun c message hmem => ?_⟩
  obtain hmem | hmem := List.mem_append.mp hmem
  · exact h.queued c message hmem
  · obtain ⟨m, hm, heq⟩ := List.mem_map.mp hmem
    cases heq
    exact h.members m hm

theorem removeMember_serves (P : Primitives) (rng : Rng) (h : Within S a) (id : MemberId)
    (eventType : UInt8) :
    Within S (a.removeMember P rng id eventType).1 ∧
      ∀ m wraps, (a.removeMember P rng id eventType).2 = .ok (some (m, wraps)) →
        Directed S wraps := by
  unfold removeMember
  split
  · exact ⟨h, nofun⟩
  split
  · exact ⟨h, nofun⟩
  rename_i members member hremove
  have hbegin := beginEpochTransition_serves P rng (h.without hremove)
  dsimp only
  split <;> rename_i heq <;> rw [heq] at hbegin
  · exact ⟨hbegin.holds, nofun⟩
  · refine ⟨queueMemberGone_holds hbegin.holds id eventType, ?_⟩
    rintro _ _ ⟨⟩
    exact hbegin.directed

theorem closeRoom_serves (h : Within S a) : Serves S a.closeRoom := by
  unfold closeRoom
  split
  · exact h.refused
  refine ⟨⟨h.members, h.requests, h.queued⟩, .append (fun c message hmem => .inr ?_)
    (.cons_notifyHost .nil)⟩
  obtain ⟨connection, hconnection, hmem⟩ := List.mem_flatMap.mp hmem
  obtain ⟨rfl, -⟩ : c = connection ∧ message = .shutdown := by simpa using hmem
  exact List.mem_flatMap.mpr ⟨c, hconnection, by simp⟩

theorem evict_holds (h : Within S a) (ids : List MemberId) :
    Within S (a.evict ids).1 ∧ ∀ c message, .sendTo c message ∉ (a.evict ids).2.1 := by
  induction ids generalizing a with
  | nil => exact ⟨h, by simp [evict]⟩
  | cons id rest ih =>
      unfold evict
      split
      · exact ih h
      · rename_i members member hremove
        obtain ⟨hholds, hsilent⟩ := ih (h.without hremove)
        exact ⟨hholds, fun c message => by simpa using hsilent c message⟩

theorem queueMembersGone_holds (h : Within S a) (gone : List MemberId) (eventType : UInt8) :
    Within S (gone.foldl (fun a id => a.queueMemberGone P id eventType) a) := by
  induction gone generalizing a with
  | nil => exact h
  | cons id rest ih => exact ih (queueMemberGone_holds h id eventType)

theorem onEpochTimeout_serves (h : Within S a) : Serves S (a.onEpochTimeout P rng) := by
  unfold onEpochTimeout
  split
  · exact ⟨h, .nil⟩
  rename_i pending _
  split
  · exact ⟨h, .nil⟩
  dsimp only
  split
  · exact closeRoom_serves ⟨h.members, h.requests, h.queued⟩
  obtain ⟨hholds, hsilent⟩ := evict_holds (a := { a with pendingEpoch := none })
    ⟨h.members, h.requests, h.queued⟩ pending.awaiting
  have hbegin := beginEpochTransition_serves P rng hholds
  split <;> rename_i heq <;> rw [heq] at hbegin
  · exact hbegin.holds.refused
  · refine ⟨queueMembersGone_holds hbegin.holds _ _, ?_⟩
    exact (Directed.silent hsilent).append hbegin.directed

theorem onEpochAck_serves (h : Within S a) (connection : ConnectionId) (epoch : Nat) :
    Serves S (a.onEpochAck connection epoch) := by
  unfold onEpochAck
  split
  · exact ⟨h, .nil⟩
  split
  · exact ⟨h, .nil⟩
  split
  · exact ⟨h, .nil⟩
  dsimp only
  split
  · exact ⟨⟨h.members, h.requests, h.queued⟩, .nil⟩
  split
  · refine ⟨⟨h.members, h.requests, by simp⟩, (Directed.of_all h.queued).append ?_⟩
    split
    · exact .cons_notifyHost .nil
    · exact .nil
  · exact ⟨⟨h.members, h.requests, h.queued⟩, .nil⟩

/-! ### Requests and host commands -/

theorem onJoinRequested_serves (h : Within S a) (hc : S c) (application : JoinApplication) :
    Serves S (a.onJoinRequested c application) := by
  have hpush : ∀ q ∈ (a.requests.push c application).1.requests, S q.connection := by
    unfold JoinRequestQueue.push
    split
    · exact h.requests
    · intro q hq
      obtain hq | hq := List.mem_append.mp hq
      · exact h.requests q hq
      · rw [List.mem_singleton.mp hq]
        exact hc
  unfold onJoinRequested
  split
  · exact h.refused
  split
  · exact h.refused
  split
  · exact h.refused
  split <;> rename_i heq <;> rw [heq] at hpush
  · exact ⟨⟨h.members, hpush, h.queued⟩, .nil⟩
  split
  · exact ⟨⟨h.members, hpush, h.queued⟩, .nil⟩
  · exact ⟨⟨h.members, hpush, h.queued⟩, .cons_notifyHost .nil⟩

theorem takeRequest_holds (h : Within S a) (requestId : RequestId) :
    Within S (a.takeRequest requestId).1 ∧
      ∀ request, (a.takeRequest requestId).2 = .ok request → S request.connection := by
  have hkept : ∀ q ∈ (a.requests.take requestId).1.requests, S q.connection :=
    fun q hq => h.requests q (JoinRequestQueue.mem_of_mem_take hq)
  have htaken : ∀ q, (a.requests.take requestId).2 = .ok q → q ∈ a.requests.requests := by
    unfold JoinRequestQueue.take
    split
    · exact nofun
    · rename_i hfind
      rintro _ ⟨⟩
      exact List.mem_of_find?_eq_some hfind
  unfold takeRequest
  split <;> rename_i heq <;> rw [heq] at hkept htaken
  · refine ⟨⟨h.members, hkept, h.queued⟩, ?_⟩
    rintro _ ⟨⟩
    exact h.requests _ (htaken _ rfl)
  · exact ⟨⟨h.members, hkept, h.queued⟩, nofun⟩
  · exact ⟨⟨h.members, hkept, h.queued⟩, nofun⟩

theorem admitMember_serves (h : Within S a) (hc : S c) (application : JoinApplication) :
    Serves S (a.admitMember P rng c application) := by
  unfold admitMember
  split
  · rename_i members member hadd
    obtain ⟨hmember, hmembers, -, -⟩ := Registry.add_eq_ok hadd
    have hconn : S member.connection := by
      rw [hmember]
      exact hc
    have hadded : ∀ m ∈ members.members, S m.connection := by
      intro m hm
      rw [hmembers] at hm
      obtain hm | hm := List.mem_append.mp hm
      · exact h.members m hm
      · rw [List.mem_singleton.mp hm]
        exact hconn
    have hbegin := beginEpochTransition_serves P rng (S := S) (a := { a with
      members
      connections := ((a.connections.register c).promote c member.memberId).1 })
      ⟨hadded, h.requests, h.queued⟩
    dsimp only
    split <;> rename_i heq <;> rw [heq] at hbegin
    · exact hbegin.holds.refused
    · refine ⟨queueMemberJoined_holds hbegin.holds hconn, ?_⟩
      exact .cons_sendTo hc (.cons_notifyHost hbegin.directed)
  · rename_i hadd
    obtain rfl := Registry.add_eq_error hadd
    refine ⟨⟨h.members, h.requests, h.queued⟩, .append ?_ ?_⟩
    · exact .cons_sendTo hc (.cons_closeConnection (.cons_notifyHost .nil))
    · split
      · exact .cons_notifyHost .nil
      · exact .nil

theorem onAccept_serves (h : Within S a) (requestId : RequestId) :
    Serves S (a.onAccept P rng requestId) := by
  unfold onAccept
  split
  · exact ⟨⟨h.members, h.requests, h.queued⟩, .cons_notifyHost .nil⟩
  obtain ⟨hholds, htaken⟩ := takeRequest_holds h requestId
  split <;> rename_i heq <;> rw [heq] at hholds htaken
  · exact hholds.refused
  · exact admitMember_serves hholds (htaken _ rfl) _

theorem onReject_serves (h : Within S a) (requestId : RequestId) :
    Serves S (a.onReject requestId) := by
  unfold onReject
  split
  · exact ⟨⟨h.members, h.requests, h.queued⟩, .cons_notifyHost .nil⟩
  obtain ⟨hholds, htaken⟩ := takeRequest_holds h requestId
  split <;> rename_i heq <;> rw [heq] at hholds htaken
  · exact hholds.refused
  · refine ⟨⟨hholds.members, hholds.requests, hholds.queued⟩, ?_⟩
    exact .cons_sendTo (htaken _ rfl) (.cons_closeConnection .nil)

theorem onKick_serves (h : Within S a) (target : MemberRef) :
    Serves S (a.onKick P rng target) := by
  unfold onKick
  split
  · exact h.refused
  rename_i resolved _
  split
  · exact h.refused
  split
  · exact h.refused
  obtain ⟨hholds, hwraps⟩ := removeMember_serves P rng h resolved.memberId msgMemberKicked
  split <;> rename_i heq <;> rw [heq] at hholds hwraps
  · exact hholds.refused
  · exact ⟨hholds, .nil⟩
  · refine ⟨hholds, (hwraps _ _ rfl).append ?_⟩
    exact .cons_closeConnection (.cons_notifyHost .nil)

theorem dropAdmissions_holds (h : Within S a) :
    Within S a.dropAdmissions.1 ∧ ∀ c message, .sendTo c message ∉ a.dropAdmissions.2 :=
  ⟨⟨h.members, by simp [dropAdmissions, JoinRequestQueue.drain], h.queued⟩,
    by simp [dropAdmissions, JoinRequestQueue.drain]⟩

theorem onNewId_serves (h : Within S a) : Serves S (a.onNewId rng) := by
  unfold onNewId
  split
  · exact h.refused
  rename_i token _
  obtain ⟨hholds, hsilent⟩ := dropAdmissions_holds (S := S)
    (a := { a with token, roomSequence := a.roomSequence + 1 }) ⟨h.members, h.requests, h.queued⟩
  exact ⟨hholds, (Directed.silent hsilent).append (.cons_notifyHost .nil)⟩

theorem announcePolicy_directed (h : Within S a) (policy : JoinPolicy) :
    Directed S (a.announcePolicy P policy).2 := by
  refine .of_all fun c message hmem => ?_
  obtain ⟨m, hm, rfl⟩ := announcePolicy_sends policy hmem
  exact h.members m hm

theorem setPolicy_serves (h : Within S a) (policy : JoinPolicy) :
    Serves S (a.setPolicy P policy) := by
  unfold setPolicy
  cases policy with
  | opened =>
      refine ⟨⟨h.members, h.requests, h.queued⟩, ?_⟩
      exact .append .nil (announcePolicy_directed h .opened)
  | locked =>
      obtain ⟨hholds, hsilent⟩ := dropAdmissions_holds h
      refine ⟨⟨hholds.members, hholds.requests, hholds.queued⟩, ?_⟩
      exact (Directed.silent hsilent).append (announcePolicy_directed hholds .locked)

theorem onHostCommand_serves (h : Within S a) (command : HostCommand) :
    Serves S (a.onHostCommand P rng command) := by
  cases command with
  | kick target => exact onKick_serves h target
  | newId => exact onNewId_serves h
  | reqOn => exact setPolicy_serves h .opened
  | reqOff => exact setPolicy_serves h .locked
  | requests => exact ⟨h, .cons_notifyHost .nil⟩
  | accept requestId => exact onAccept_serves h requestId
  | reject requestId => exact onReject_serves h requestId

/-! ### Members and lost connections -/

theorem onLeave_serves (h : Within S a) (hvalid : a.registry.Valid) (connection : ConnectionId) :
    Serves S (a.onLeave P rng connection) := by
  unfold onLeave
  split
  · exact h.refused
  split
  · exact h.refused
  rename_i id hid
  obtain ⟨hholds, hwraps⟩ := removeMember_serves P rng h id msgMemberLeft
  split <;> rename_i heq <;> rw [heq] at hholds hwraps
  · exact hholds.refused
  · exact ⟨hholds, .nil⟩
  · refine ⟨hholds, (hwraps _ _ rfl).append ?_⟩
    exact .cons_sendTo (h.known hvalid hid) (.cons_closeConnection (.cons_notifyHost .nil))

theorem onMemberCommand_serves (h : Within S a) (hvalid : a.registry.Valid)
    (connection : ConnectionId) (command : MemberCommand) :
    Serves S (a.onMemberCommand P rng connection command) := by
  cases command with
  | leave => exact onLeave_serves h hvalid connection
  | color color =>
      unfold onMemberCommand onColor
      dsimp only
      split
      · exact ⟨h.setColor _ color, .nil⟩
      split
      · exact ⟨h.setColor 0 color, .nil⟩
      · exact h.refused
  | list => exact ⟨h, .cons_notifyHost .nil⟩
  | whois target =>
      unfold onMemberCommand
      dsimp only
      split
      · exact h.refused
      · exact ⟨h, .cons_notifyHost .nil⟩

theorem onConnectionLost_serves (h : Within S a) (connection : ConnectionId) :
    Serves S (a.onConnectionLost P rng connection) := by
  unfold onConnectionLost
  split
  · exact closeRoom_serves h
  have hrejected (lost : List PendingTimeoutRequest) : Directed S (lost.map fun request =>
      RoomAction.notifyHost (.timeoutRequestRejected request.requestId)) :=
    .silent fun c message hmem => by simp at hmem
  dsimp only
  split
  · rename_i id _
    have hlost : Within S { a with timeoutRequests :=
        (a.timeoutRequests.filter fun request => request.connection ≠ connection) } :=
      ⟨h.members, h.requests, h.queued⟩
    obtain ⟨hholds, hwraps⟩ := removeMember_serves P rng hlost id msgMemberLeft
    split <;> rename_i heq <;> rw [heq] at hholds hwraps
    · exact hholds.refused
    · exact ⟨⟨hholds.members, hholds.requests, hholds.queued⟩, hrejected _⟩
    · refine ⟨⟨hholds.members, hholds.requests, hholds.queued⟩, ?_⟩
      exact ((hrejected _).append (hwraps _ _ rfl)).append (.cons_notifyHost .nil)
  · split
    · exact ⟨⟨h.members, h.requests, h.queued⟩, hrejected _⟩
    rename_i requestId _
    have hkept : ∀ q ∈ (a.requests.take requestId).1.requests, S q.connection :=
      fun q hq => h.requests q (JoinRequestQueue.mem_of_mem_take hq)
    split <;> rename_i heq <;> rw [heq] at hkept
    · exact ⟨⟨h.members, hkept, h.queued⟩, (hrejected _).append (.cons_notifyHost .nil)⟩
    · exact ⟨⟨h.members, hkept, h.queued⟩, hrejected _⟩

theorem onMemberLeft_serves (h : Within S a) (id : MemberId) :
    Serves S (a.onMemberLeft P rng id) := by
  unfold onMemberLeft
  obtain ⟨hholds, hwraps⟩ := removeMember_serves P rng h id msgMemberLeft
  split <;> rename_i heq <;> rw [heq] at hholds hwraps
  · exact hholds.refused
  · exact ⟨hholds, .nil⟩
  · exact ⟨hholds, (hwraps _ _ rfl).append (.cons_notifyHost .nil)⟩

/-! ### Chat -/

theorem rejectDuringTransition_serves (h : Within S a) (hc : S c) :
    Serves S (a.rejectDuringTransition c) := by
  unfold rejectDuringTransition
  split
  · exact ⟨h, .cons_notifyHost .nil⟩
  split
  · exact h.refused
  · exact ⟨h, .cons_sendTo hc .nil⟩

theorem onRateLimited_serves (h : Within S a) (hc : S c) (senderId : MemberId) (abusive : Bool) :
    Serves S (a.onRateLimited P rng c senderId abusive) := by
  unfold onRateLimited
  split
  · exact h.refused
  rename_i message _
  have hactions : Directed S [.sendTo c (.error message),
      .notifyHost (.error "member exceeded the message rate limit")] :=
    .cons_sendTo hc (.cons_notifyHost .nil)
  dsimp only
  split
  · obtain ⟨hholds, hwraps⟩ := removeMember_serves P rng h senderId msgMemberKicked
    split <;> rename_i heq <;> rw [heq] at hholds hwraps
    · exact hholds.refused
    · exact ⟨hholds, hactions⟩
    · refine ⟨hholds, (hactions.append (hwraps _ _ rfl)).append ?_⟩
      exact .cons_closeConnection (.cons_notifyHost .nil)
  · exact ⟨h, hactions⟩

theorem relay_directed (h : Within S a) (connection : ConnectionId) (message : Message) :
    Directed S (a.relay connection message) := by
  refine .of_all fun c message hmem => ?_
  obtain ⟨m, hm, heq⟩ := List.mem_map.mp hmem
  cases heq
  exact h.members m (List.mem_filter.mp hm).1

theorem onTimeoutRequest_serves (h : Within S a) (connection : ConnectionId) (senderId : MemberId)
    (plaintext : Bytes) : Serves S (a.onTimeoutRequest connection senderId plaintext) := by
  unfold onTimeoutRequest
  split
  · exact h.refused
  split
  · exact h.refused
  dsimp only
  split
  · exact h.refused
  split
  · exact h.refused
  · exact ⟨⟨h.members, h.requests, h.queued⟩, .cons_notifyHost .nil⟩

theorem onPlaintext_serves (h : Within S a) (connection : ConnectionId) (senderId : MemberId)
    (messageType : UInt8) (envelope : EncryptedEnvelope) (plaintext : Bytes) :
    Serves S (a.onPlaintext connection senderId messageType envelope plaintext) := by
  unfold onPlaintext
  split
  · split
    · split
      · exact h.refused
      · rename_i color _
        have hcolored := h.setColor senderId color
        exact ⟨hcolored, relay_directed hcolored connection _⟩
    · exact h.refused
  split
  · exact onTimeoutRequest_serves h connection senderId plaintext
  split
  · split
    · exact h.refused
    split
    · exact h.refused
    · rename_i setting _
      have hset : Within S { a with roomTimeout := setting } := ⟨h.members, h.requests, h.queued⟩
      exact ⟨hset, relay_directed hset connection _⟩
  · split
    · exact h.refused
    split
    · exact h.refused
    · exact ⟨h, relay_directed h connection _⟩

theorem onEnvelope_serves (h : Within S a) (connection : ConnectionId) (senderId : MemberId)
    (messageType : UInt8) (envelope : EncryptedEnvelope) :
    Serves S (a.onEnvelope P connection senderId messageType envelope) := by
  unfold onEnvelope
  split
  · exact h.refused
  split
  · exact h.refused
  split
  · exact h.refused
  · apply onPlaintext_serves
    exact ⟨h.members, h.requests, h.queued⟩

theorem onChatReceived_serves (h : Within S a) (hc : S c) (messageType : UInt8)
    (envelope : EncryptedEnvelope) :
    Serves S (a.onChatReceived P rng c messageType envelope) := by
  unfold onChatReceived
  split
  · exact h.refused
  split
  · exact h.refused
  rename_i senderId _
  split
  · exact h.refused
  split
  · exact h.refused
  split
  · exact onEnvelope_serves h c senderId messageType envelope
  have hcharged : Within S (a.chargeRateLimit senderId).1 := ⟨h.members, h.requests, h.queued⟩
  dsimp only
  split
  · exact onEnvelope_serves hcharged c senderId messageType envelope
  · exact onRateLimited_serves hcharged hc senderId _

/-! ### Events -/

theorem handleInTransition_serves (h : Within S a) {event : RoomEvent} (hgrants : Grants S event) :
    Serves S (a.handleInTransition P rng event) := by
  unfold handleInTransition
  split
  · exact onEpochAck_serves h _ _
  · exact onConnectionLost_serves h _
  · split
    · exact onEpochTimeout_serves h
    · exact onConnectionLost_serves h _
  · exact onEpochTimeout_serves h
  · exact closeRoom_serves h
  · exact closeRoom_serves h
  · exact onHostCommand_serves h .requests
  · split
    · exact onChatReceived_serves h hgrants _ _
    · exact rejectDuringTransition_serves h hgrants
  · exact h.refused

theorem handleSettled_serves (h : Within S a) (hvalid : a.registry.Valid) {event : RoomEvent}
    (hgrants : Grants S event) : Serves S (a.handleSettled P rng event) := by
  cases event with
  | clientConnected connection | passwordVerified connection =>
      exact ⟨⟨h.members, h.requests, h.queued⟩, .nil⟩
  | epochAck connection epoch => exact onEpochAck_serves h connection epoch
  | joinRequested connection application => exact onJoinRequested_serves h hgrants application
  | hostCommand command => exact onHostCommand_serves h command
  | memberCommand connection command => exact onMemberCommand_serves h hvalid connection command
  | hostAccepted requestId => exact onAccept_serves h requestId
  | hostRejected requestId => exact onReject_serves h requestId
  | connectionLost connection | timeoutExpired connection _ => exact onConnectionLost_serves h _
  | epochMaintenance => exact ⟨h, .nil⟩
  | memberLeft id => exact onMemberLeft_serves h id
  | chatReceived connection messageType envelope =>
      exact onChatReceived_serves h hgrants messageType envelope
  | torStopped | closeRequested => exact closeRoom_serves h

theorem handle_serves (h : Within S a) (hvalid : a.registry.Valid) {input : Input}
    (hgrants : Grants S input.event) : Serves S (a.handle P input) := by
  have hnow : Within S { a with now := input.now } := ⟨h.members, h.requests, h.queued⟩
  unfold handle handleEventAt
  dsimp only
  split
  · exact hnow.refused
  split
  · exact handleInTransition_serves hnow hgrants
  · exact handleSettled_serves hnow hvalid hgrants

end RoomActor

open RoomActor in
/-- A round of the room task writes to connections of `S`, and to those it closes. -/
theorem RoomTask.receive_serves {P : Primitives} {S : ConnectionId → Prop} {a : RoomActor}
    {input : TaskInput} (h : Within S a) (hvalid : a.registry.Valid)
    (hgrants : Grants S input.event) :
    Within S (receive P a input).1 ∧ Directed S (receive P a input).2 := by
  have hfirst := handle_serves (P := P) h hvalid hgrants
  have hvalid' := (handleEventAt_effect P input.rng hvalid input.event input.now).step.valid
  unfold receive
  change (a.handle P input.toInput).1.registry.Valid at hvalid'
  generalize a.handle P input.toInput = result at hfirst hvalid' ⊢
  obtain ⟨b, error | actions⟩ := result
  · dsimp only at hfirst hvalid' ⊢
    split
    · exact ⟨hfirst.holds, .nil⟩
    split
    · exact ⟨hfirst.holds, .cons_notifyHost .nil⟩
    · rename_i connection _
      have hlost : Serves S (b.handle P (input.cleanup connection)) :=
        handle_serves hfirst.holds hvalid' trivial
      refine ⟨hlost.holds, .cons_notifyHost ?_⟩
      have hanswer : Directed S [.sendTo connection (.error (errorMessage P error)),
          .closeConnection connection] := by
        intro c message hmem
        obtain ⟨rfl, -⟩ : c = connection ∧ message = .error (errorMessage P error) := by
          simpa using hmem
        exact .inr (by simp)
      exact hanswer.append hlost.directed
  · exact ⟨hfirst.holds, hfirst.directed⟩

end Veilroom
