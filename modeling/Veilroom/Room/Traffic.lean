import Veilroom.Room.TimeoutRequests
import Veilroom.Room.Admissions
import Veilroom.Room.Eviction
import Veilroom.Room.Invitation

/-!
Traffic of one step: whom the room writes to, and which connections it closes.

A handler writes to connections of its registry, and closes last what it takes
out of the registry. The exceptions are named: a removal whose transition fails
emits nothing, an activation releases membership events as they were addressed,
and a transition answers the chat of anybody.
-/
namespace Veilroom
namespace RoomActor
variable {P : Primitives} {rng : Rng} {a b : RoomActor} {c : ConnectionId}
variable {message : Message} {actions : List RoomAction} {gone : MemberId → Prop}

/-- The registry has an entry for `c`. -/
def Knows (a : RoomActor) (c : ConnectionId) : Prop :=
  ∃ entry, a.connections.get c = some entry

/-- Every message goes to a connection of the registry. -/
def Addressed (a : RoomActor) (actions : List RoomAction) : Prop :=
  ∀ c message, .sendTo c message ∈ actions → a.Knows c

/-- `c` is closed, and nothing is sent to it after that. -/
def ClosedLast (c : ConnectionId) (actions : List RoomAction) : Prop :=
  ∃ front back, actions = front ++ .closeConnection c :: back ∧
    ∀ message, .sendTo c message ∉ back

/-- A new epoch can be keyed for these members: the generator answers, and a key can be wrapped
for each of them. -/
def CanRotate (P : Primitives) (rng : Rng) (a : RoomActor) (members : List Member) : Prop :=
  ∃ key wraps, rng.epochKey = some key ∧
    a.advanceEpoch.wrapAll P rng key 0 members = .ok wraps

open Classical in
/-- The members that stay when those of `gone` leave. -/
noncomputable def remaining (a : RoomActor) (gone : MemberId → Prop) : List Member :=
  a.members.members.filter fun m => ¬ gone m.memberId

/-- Somebody leaves, and the next epoch cannot be keyed for the others. -/
def Strands (P : Primitives) (rng : Rng) (a : RoomActor) (gone : MemberId → Prop) : Prop :=
  (∃ m ∈ a.members.members, gone m.memberId) ∧ ¬ CanRotate P rng a (a.remaining gone)

/-- A step in which the members of `gone` leave writes to known connections, and closes the
connections it forgets exactly when the next epoch can be keyed. -/
structure Dismisses (P : Primitives) (rng : Rng) (gone : MemberId → Prop) (a : RoomActor)
    (outcome : Outcome) : Prop where
  addressed : Addressed a (actionsOf outcome.2)
  closed_iff : (∀ c, a.Knows c → ¬ outcome.1.Knows c → ClosedLast c (actionsOf outcome.2)) ↔
    ¬ Strands P rng a gone

theorem Addressed.append {first second : List RoomAction} (h : Addressed a first)
    (k : Addressed a second) : Addressed a (first ++ second) := by
  intro c message hmem
  exact (List.mem_append.mp hmem).elim (h c message) (k c message)

theorem Addressed.nil : Addressed a [] := by
  intro c message hmem
  cases hmem

/-- Messages that are not sent to anybody. -/
theorem Addressed.of_silent (h : ∀ c message, .sendTo c message ∉ actions) :
    Addressed a actions :=
  fun c message hmem => absurd hmem (h c message)

theorem ClosedLast.append_left (h : ClosedLast c actions) (front : List RoomAction) :
    ClosedLast c (front ++ actions) := by
  obtain ⟨before, back, rfl, hback⟩ := h
  exact ⟨front ++ before, back, by simp, hback⟩

theorem ClosedLast.append_right (h : ClosedLast c actions) {back : List RoomAction}
    (hback : ∀ message, .sendTo c message ∉ back) : ClosedLast c (actions ++ back) := by
  obtain ⟨front, rest, rfl, hrest⟩ := h
  refine ⟨front, rest ++ back, by simp, fun message hmem => ?_⟩
  exact (List.mem_append.mp hmem).elim (hrest message) (hback message)

/-- Closing is last in a list that sends nothing. -/
theorem ClosedLast.of_mem (h : .closeConnection c ∈ actions)
    (hsilent : ∀ message, .sendTo c message ∉ actions) : ClosedLast c actions := by
  obtain ⟨front, back, rfl⟩ := List.append_of_mem h
  refine ⟨front, back, rfl, fun message hmem => hsilent message ?_⟩
  exact List.mem_append_right _ (.tail _ hmem)

theorem knows_of_member (h : a.registry.Valid) {m : Member} (hm : m ∈ a.members.members) :
    a.Knows m.connection := by
  obtain ⟨entry, hget, -⟩ := Connections.memberId_eq_some.mp (h.member_entry m hm)
  exact ⟨entry, hget⟩

theorem knows_of_memberId {id : MemberId} (h : a.connections.memberId c = some id) :
    a.Knows c := by
  obtain ⟨entry, hget, -⟩ := Connections.memberId_eq_some.mp h
  exact ⟨entry, hget⟩

theorem knows_of_request (h : a.registry.Valid) {q : JoinRequest} (hq : q ∈ a.requests.requests) :
    a.Knows q.connection := by
  obtain ⟨entry, hget, -⟩ := Connections.requestId_eq_some.mp (h.request_entry q hq)
  exact ⟨entry, hget⟩

/-- Removing one connection forgets that one. -/
theorem eq_of_forgotten {connection : ConnectionId} (hknown : a.Knows c)
    (hb : b.connections = a.connections.remove connection) (hgone : ¬ b.Knows c) :
    c = connection := by
  by_contra hne
  obtain ⟨entry, hget⟩ := hknown
  exact hgone ⟨entry, by rw [hb, Connections.get_remove, if_neg hne, hget]⟩

theorem knows_of_same (hb : b.connections = a.connections) : b.Knows c ↔ a.Knows c := by
  unfold Knows
  rw [hb]

/-! ### Wraps -/

theorem wrapAll_congr (hidentity : b.hostIdentity = a.hostIdentity)
    (hsession : b.sessionId = a.sessionId) (hepoch : b.epoch = a.epoch) (key : Key) (i : Nat)
    (members : List Member) : b.wrapAll P rng key i members = a.wrapAll P rng key i members := by
  induction members generalizing i with
  | nil => rfl
  | cons m rest ih =>
      have hwrap : b.wrapFor P rng key i m = a.wrapFor P rng key i m := by
        unfold wrapFor
        rw [hidentity, hsession, hepoch]
      rw [wrapAll, wrapAll, hwrap, ih]

theorem canRotate_congr (P : Primitives) (rng : Rng) (hidentity : b.hostIdentity = a.hostIdentity)
    (hsession : b.sessionId = a.sessionId) (hepoch : b.epoch = a.epoch) (members : List Member) :
    CanRotate P rng b members ↔ CanRotate P rng a members := by
  unfold CanRotate
  simp only [wrapAll_congr (a := a.advanceEpoch) (b := b.advanceEpoch) hidentity hsession
    (congrArg (· + 1) hepoch)]

theorem canRotate_iff (P : Primitives) (rng : Rng) (h : Tabled a b) :
    CanRotate P rng a b.members.members ↔ ∃ key wraps, Begins P rng b key wraps := by
  rw [← canRotate_congr P rng h.hostIdentity h.sessionId h.epoch]
  refine exists_congr fun key => exists_congr fun wraps => ?_
  exact ⟨fun ⟨hkey, hwraps⟩ => ⟨hkey, hwraps⟩, fun hbegins => ⟨hbegins.generated, hbegins.wrapped⟩⟩

theorem Begins.begins {key : Key} {wraps : List RoomAction} (h : Begins P rng b key wraps) :
    b.beginEpochTransition P rng = (b.rotated key, .ok wraps) := by
  unfold beginEpochTransition
  rw [h.generated]
  dsimp only
  rw [show b.advanceEpoch.wrapAll P rng key 0 b.advanceEpoch.members.members = .ok wraps from
    h.wrapped]
  rfl

/-- A wrap goes to one of the members it was made for. -/
theorem mem_wrapAll {key : Key} {i : Nat} {members : List Member} {wraps : List RoomAction}
    (h : a.wrapAll P rng key i members = .ok wraps) (hmem : .sendTo c message ∈ wraps) :
    ∃ m ∈ members, m.connection = c := by
  induction members generalizing i wraps with
  | nil =>
      cases h
      cases hmem
  | cons m rest ih =>
      rw [wrapAll] at h
      split at h
      · cases h
      rename_i wrap hwrap
      split at h
      · cases h
      rename_i wraps' hwraps
      cases h
      obtain heq | hmem := List.mem_cons.mp hmem
      · refine ⟨m, .head _, ?_⟩
        unfold wrapFor at hwrap
        split at hwrap
        · cases hwrap
        split at hwrap
        · cases hwrap
        split at hwrap
        · cases hwrap
        cases hwrap
        cases heq
        rfl
      · obtain ⟨n, hn, hconn⟩ := ih hwraps hmem
        exact ⟨n, .tail _ hn, hconn⟩

/-! ### Steps that forget nobody's connection, or close it -/

theorem Dismisses.tidy {outcome : Outcome} (haddressed : Addressed a (actionsOf outcome.2))
    (hclosed : ∀ c, a.Knows c → ¬ outcome.1.Knows c → ClosedLast c (actionsOf outcome.2))
    (hnone : ∀ m ∈ a.members.members, ¬ gone m.memberId) : Dismisses P rng gone a outcome where
  addressed := haddressed
  closed_iff := iff_of_true hclosed fun hstrands => by
    obtain ⟨⟨m, hm, hgone⟩, -⟩ := hstrands
    exact hnone m hm hgone

theorem Dismisses.kept {outcome : Outcome} (hconnections : outcome.1.connections = a.connections)
    (haddressed : Addressed a (actionsOf outcome.2))
    (hnone : ∀ m ∈ a.members.members, ¬ gone m.memberId) : Dismisses P rng gone a outcome :=
  .tidy haddressed (fun _ hknown hgone => absurd ((knows_of_same hconnections).mpr hknown) hgone)
    hnone

theorem Dismisses.failed (hconnections : b.connections = a.connections) {error : RoomError}
    (hnone : ∀ m ∈ a.members.members, ¬ gone m.memberId) :
    Dismisses P rng gone a (b, .error error) :=
  .kept hconnections .nil hnone

/-! ### Departures -/

theorem remaining_eq (ids : List MemberId)
    (h : ∀ m ∈ a.members.members, gone m.memberId ↔ m.memberId ∈ ids) :
    a.remaining gone = a.members.members.filter fun m => m.memberId ∉ ids := by
  apply List.filter_congr
  intro m hm
  simp [h m hm]

theorem mem_remaining {m : Member} :
    m ∈ a.remaining gone ↔ m ∈ a.members.members ∧ ¬ gone m.memberId := by
  simp [remaining]

/-- What `remove_member` does to the connections, and whom it writes to. -/
inductive Removal (P : Primitives) (rng : Rng) (gone : MemberId → Prop) (a : RoomActor) :
    RoomActor × Except RoomError (Option (Member × List RoomAction)) → Prop
  | kept {b result} : b.connections = a.connections →
      (∀ m ∈ a.members.members, ¬ gone m.memberId) → (∀ found, result ≠ .ok (some found)) →
      Removal P rng gone a (b, result)
  | failed {b m error} : m ∈ a.members.members → gone m.memberId →
      b.connections = a.connections.remove m.connection →
      ¬ CanRotate P rng a (a.remaining gone) → Removal P rng gone a (b, .error error)
  | removed {b m wraps} : m ∈ a.members.members → gone m.memberId →
      b.connections = a.connections.remove m.connection →
      CanRotate P rng a (a.remaining gone) → Addressed a wraps →
      (∀ message, .sendTo m.connection message ∉ wraps) →
      Removal P rng gone a (b, .ok (some (m, wraps)))

theorem removeMember_removal (P : Primitives) (rng : Rng) (h : a.registry.Valid) (id : MemberId)
    (eventType : UInt8) :
    Removal P rng (fun i => i ≠ 0 ∧ i = id) a (a.removeMember P rng id eventType) := by
  obtain ⟨rfl, heq⟩ | ⟨hnone, heq⟩ | ⟨m, hm, rfl, hne, hcases⟩ :=
    removeMember_cases P rng h id eventType
  · rw [heq]
    exact .kept rfl (fun _ _ hgone => hgone.1 hgone.2) nofun
  · rw [heq]
    exact .kept rfl (fun m hm hgone => hnone m hm hgone.2) nofun
  · have hremaining : a.remaining (fun i => i ≠ 0 ∧ i = m.memberId) =
        (a.without m).members.members := by
      rw [members_without h]
      apply remaining_eq
      intro n _
      rw [List.mem_singleton]
      exact ⟨fun hgone => hgone.2, fun heq => ⟨by rw [heq]; exact hne, heq⟩⟩
    have hrotate := canRotate_iff P rng (tabled_without a m)
    rw [← hremaining] at hrotate
    obtain ⟨error, hfail, heq⟩ | ⟨key, wraps, hbegins, heq⟩ := hcases
    · rw [heq]
      refine .failed hm ⟨hne, rfl⟩ rfl fun hcan => ?_
      obtain ⟨key, wraps, hbegins⟩ := hrotate.mp hcan
      cases congrArg Prod.snd (hbegins.begins.symm.trans hfail)
    · rw [heq]
      have hto : ∀ c message, .sendTo c message ∈ wraps →
          ∃ n ∈ a.members.members, n.memberId ≠ m.memberId ∧ n.connection = c := by
        intro c message hmem
        obtain ⟨n, hn, hconn⟩ := mem_wrapAll hbegins.wrapped hmem
        exact ⟨n, (h.mem_without.mp hn).1, (h.mem_without.mp hn).2, hconn⟩
      refine .removed hm ⟨hne, rfl⟩ rfl (hrotate.mpr ⟨key, wraps, hbegins⟩) ?_ ?_
      · intro c message hmem
        obtain ⟨n, hn, -, rfl⟩ := hto c message hmem
        exact knows_of_member h hn
      · intro message hmem
        obtain ⟨n, hn, hid, hconn⟩ := hto _ message hmem
        exact hid (congrArg Member.memberId (h.eq_of_connection hn hm hconn))

theorem Dismisses.stranded (hgone : ∃ m ∈ a.members.members, gone m.memberId)
    (hforgets : ∃ c, a.Knows c ∧ ¬ b.Knows c)
    (hcannot : ¬ CanRotate P rng a (a.remaining gone)) {error : RoomError} :
    Dismisses P rng gone a (b, .error error) where
  addressed := .nil
  closed_iff := by
    refine iff_of_false (fun hclosed => ?_) fun hnot => hnot ⟨hgone, hcannot⟩
    obtain ⟨c, hknown, hforgotten⟩ := hforgets
    obtain ⟨front, back, heq, -⟩ := hclosed c hknown hforgotten
    simp [actionsOf] at heq

/-- A removal that took a member out and could not go on. -/
theorem Dismisses.removalFailed (h : a.registry.Valid) {m : Member} (hm : m ∈ a.members.members)
    (hgone : gone m.memberId) (hb : b.connections = a.connections.remove m.connection)
    (hcannot : ¬ CanRotate P rng a (a.remaining gone)) {error : RoomError} :
    Dismisses P rng gone a (b, .error error) := by
  refine .stranded ⟨m, hm, hgone⟩ ⟨m.connection, knows_of_member h hm, ?_⟩ hcannot
  rintro ⟨entry, hget⟩
  rw [hb, Connections.get_remove, if_pos rfl] at hget
  cases hget

theorem Dismisses.removed {connection : ConnectionId}
    (hb : b.connections = a.connections.remove connection)
    (hcan : CanRotate P rng a (a.remaining gone)) (haddressed : Addressed a actions)
    (hclosed : ClosedLast connection actions) : Dismisses P rng gone a (b, .ok actions) where
  addressed := haddressed
  closed_iff := by
    refine iff_of_true (fun c hknown hgone => ?_) fun hstrands => hstrands.2 hcan
    rw [eq_of_forgotten hknown hb hgone]
    exact hclosed

theorem Addressed.cons_sendTo (hknown : a.Knows c) (h : Addressed a actions) :
    Addressed a (.sendTo c message :: actions) := by
  intro c' message' hmem
  obtain heq | hmem := List.mem_cons.mp hmem
  · cases heq
    exact hknown
  · exact h c' message' hmem

theorem Addressed.cons_closeConnection (h : Addressed a actions) :
    Addressed a (.closeConnection c :: actions) := by
  intro c' message' hmem
  obtain heq | hmem := List.mem_cons.mp hmem
  · cases heq
  · exact h c' message' hmem

theorem Addressed.cons_notifyHost {notice : HostNotice} (h : Addressed a actions) :
    Addressed a (.notifyHost notice :: actions) := by
  intro c' message' hmem
  obtain heq | hmem := List.mem_cons.mp hmem
  · cases heq
  · exact h c' message' hmem

theorem onLeave_dismisses (h : a.registry.Valid) (connection : ConnectionId) :
    Dismisses P rng (fun i => connection ≠ a.hostConnection ∧
      a.connections.memberId connection = some i) a (a.onLeave P rng connection) := by
  unfold onLeave
  split
  · rename_i hhost
    exact .failed rfl fun m _ hgone => hgone.1 hhost
  rename_i hhost
  split
  · rename_i hnone
    refine .failed rfl fun m _ hgone => ?_
    cases hnone.symm.trans hgone.2
  rename_i id hid
  rw [leaving_eq h hhost hid]
  have hremoval := removeMember_removal P rng h id msgMemberLeft
  split <;> rename_i heq <;> rw [heq] at hremoval
  · cases hremoval with
    | kept hb hnone _ => exact .failed hb hnone
    | failed hm hgone hb hcannot => exact .removalFailed h hm hgone hb hcannot
  · cases hremoval with
    | kept hb hnone _ => exact .kept hb .nil hnone
  · cases hremoval with
    | kept _ _ hnot => exact absurd rfl (hnot _)
    | removed hm hgone hb hcan haddressed _ =>
        obtain ⟨n, hn, rfl, hnid⟩ := h.entry_member connection id hid
        obtain rfl := h.eq_of_memberId hn hm (hnid.trans hgone.2.symm)
        have hlast : ClosedLast n.connection [.sendTo n.connection .shutdown,
            .closeConnection n.connection, .notifyHost (.memberLeft id n.nickname)] :=
          ⟨[_], _, rfl, by simp⟩
        refine .removed hb hcan (haddressed.append ?_) (hlast.append_left _)
        exact .cons_sendTo (knows_of_member h hn)
          (.cons_closeConnection (.cons_notifyHost .nil))

theorem onKick_dismisses (h : a.registry.Valid) (target : MemberRef) :
    Dismisses P rng (fun i => i ≠ 0 ∧ ∃ m, a.resolveMember target = .ok m ∧ m.memberId = i) a
      (a.onKick P rng target) := by
  unfold onKick
  split
  · rename_i hresolve
    refine .failed rfl ?_
    rintro m - ⟨-, n, hn, -⟩
    cases hresolve.symm.trans hn
  rename_i resolved hresolve
  rw [kicking_eq hresolve]
  split
  · rename_i hnone
    exact .failed rfl fun m hm hgone => List.find?_key_eq_none.mp hnone m hm hgone.2
  rename_i member hmember
  obtain ⟨hm, hid⟩ := h.byId_eq_some.mp hmember
  split
  · rename_i hhost
    refine .failed rfl fun n _ hgone => hgone.1 ?_
    exact hgone.2.trans (hid.symm.trans ((h.isHost_iff member hm).mp hhost))
  have hremoval := removeMember_removal P rng h resolved.memberId msgMemberKicked
  split <;> rename_i heq <;> rw [heq] at hremoval
  · cases hremoval with
    | kept hb hnone _ => exact .failed hb hnone
    | failed hm hgone hb hcannot => exact .removalFailed h hm hgone hb hcannot
  · cases hremoval with
    | kept hb hnone _ => exact .kept hb .nil hnone
  · cases hremoval with
    | kept _ _ hnot => exact absurd rfl (hnot _)
    | removed hn hgone hb hcan haddressed _ =>
        obtain rfl := h.eq_of_memberId hm hn (hid.trans hgone.2.symm)
        have hlast : ClosedLast member.connection [.closeConnection member.connection,
            .notifyHost (.memberKicked resolved.memberId member.nickname)] :=
          ⟨[], _, rfl, by simp⟩
        refine .removed hb hcan (haddressed.append ?_) (hlast.append_left _)
        exact .cons_closeConnection (.cons_notifyHost .nil)

theorem onMemberLeft_addressed (h : a.registry.Valid) (id : MemberId) :
    Addressed a (actionsOf (a.onMemberLeft P rng id).2) := by
  have hremoval := removeMember_removal P rng h id msgMemberLeft
  unfold onMemberLeft
  split <;> rename_i heq <;> rw [heq] at hremoval
  · exact .nil
  · exact .nil
  · cases hremoval with
    | kept _ _ hnot => exact absurd rfl (hnot _)
    | removed _ _ _ _ haddressed _ => exact haddressed.append (.cons_notifyHost .nil)

theorem closeRoom_addressed : Addressed a (actionsOf a.closeRoom.2) := by
  unfold closeRoom
  split
  · exact .nil
  refine .append (fun c message hmem => ?_) (.cons_notifyHost .nil)
  obtain ⟨connection, hconnection, hmem⟩ := List.mem_flatMap.mp hmem
  obtain heq | hmem := List.mem_cons.mp hmem
  · cases heq
    exact Connections.mem_ids.mp hconnection
  · simp at hmem

theorem connections_closeRoom : a.closeRoom.1.connections = a.connections := by
  unfold closeRoom
  split <;> rfl

theorem onConnectionLost_addressed (h : a.registry.Valid) (connection : ConnectionId) :
    Addressed a (actionsOf (a.onConnectionLost P rng connection).2) := by
  unfold onConnectionLost
  split
  · exact closeRoom_addressed
  have hrejected : Addressed a ((a.timeoutRequests.filter fun request =>
      request.connection = connection).map fun request =>
        .notifyHost (.timeoutRequestRejected request.requestId)) :=
    .of_silent (by simp)
  let a₁ : RoomActor := { a with
    timeoutRequests := a.timeoutRequests.filter fun request => request.connection ≠ connection }
  have hvalid : a₁.registry.Valid := (h.dropTimeoutRequests List.filter_sublist).valid
  dsimp only
  split
  · rename_i id _
    have hremoval := removeMember_removal P rng hvalid id msgMemberLeft
    split <;> rename_i heq <;> rw [heq] at hremoval
    · exact .nil
    · exact hrejected
    · cases hremoval with
      | kept _ _ hnot => exact absurd rfl (hnot _)
      | removed _ _ _ _ haddressed _ =>
          have haddressed : Addressed a _ := haddressed
          exact (hrejected.append haddressed).append (.cons_notifyHost .nil)
  split
  · exact hrejected
  split
  · exact hrejected.append (.cons_notifyHost .nil)
  · exact hrejected

/-! ### Evictions -/

/-- The eviction loop sends nothing, and forgets the connections of the members it finds. -/
theorem evict_forgets (ids : List MemberId) (a : RoomActor) (h : a.registry.Valid)
    (hzero : 0 ∉ ids) :
    (∀ c message, .sendTo c message ∉ (a.evict ids).2.1) ∧
      ∀ c, a.Knows c → ¬ (a.evict ids).1.Knows c →
        ∃ m ∈ a.members.members, m.memberId ∈ ids ∧ m.connection = c := by
  induction ids generalizing a with
  | nil => exact ⟨fun _ _ => List.not_mem_nil, fun c hknown hgone => absurd hknown hgone⟩
  | cons id rest ih =>
      rw [List.mem_cons, not_or] at hzero
      cases hfind : a.members.byId id with
      | none =>
          rw [evict, MemberTable.remove, hfind]
          obtain ⟨hsilent, hforgets⟩ := ih a h hzero.2
          refine ⟨hsilent, fun c hknown hgone => ?_⟩
          obtain ⟨m, hm, hid, hconn⟩ := hforgets c hknown hgone
          exact ⟨m, hm, .tail _ hid, hconn⟩
      | some m =>
          obtain ⟨hm, rfl⟩ := h.byId_eq_some.mp hfind
          rw [evict_cons rest hfind]
          have hstep := h.removeMember hm (Ne.symm hzero.1)
          obtain ⟨hsilent, hforgets⟩ := ih (a.without m) hstep.valid hzero.2
          refine ⟨fun c message hmem => hsilent c message (by simpa using hmem), ?_⟩
          intro c hknown hgone
          by_cases hwithout : (a.without m).Knows c
          · obtain ⟨n, hn, hid, hconn⟩ := hforgets c hwithout hgone
            exact ⟨n, (h.mem_without.mp hn).1, .tail _ hid, hconn⟩
          · exact ⟨m, hm, .head _, (eq_of_forgotten hknown rfl hwithout).symm⟩

theorem onEpochTimeout_dismisses (h : a.registry.Valid) :
    Dismisses P rng a.Late a (a.onEpochTimeout P rng) := by
  unfold onEpochTimeout
  split
  · rename_i hnone
    refine .kept rfl .nil ?_
    rintro m - ⟨pending, hpending, -⟩
    cases hnone.symm.trans hpending
  rename_i pending hpending
  have hlate : ∀ id, a.Late id ↔
      a.timeouts.get .epochAcknowledgement ≤ a.now - pending.startedAt ∧ 0 ∉ pending.awaiting ∧
        id ∈ pending.awaiting := by
    intro id
    simp [Late, hpending]
  split
  · rename_i hearly
    refine .kept rfl .nil fun m _ hgone => ?_
    exact Nat.not_le.mpr hearly ((hlate _).mp hgone).1
  rename_i hoverdue
  dsimp only
  split
  · rename_i hhost
    refine .kept connections_closeRoom closeRoom_addressed fun m _ hgone => ?_
    exact ((hlate _).mp hgone).2.1 hhost
  rename_i hhost
  let a₁ : RoomActor := { a with pendingEpoch := none }
  have hevict := evict_spec pending.awaiting a₁ h hhost
  obtain ⟨hsilent, hforgets⟩ := evict_forgets pending.awaiting a₁ h hhost
  have hcloses := evict_closes pending.awaiting a₁ h hhost
  have htabled : Tabled a a₁ := ⟨⟨rfl, rfl, rfl, rfl, rfl⟩, rfl, rfl, rfl, rfl, rfl, rfl, rfl⟩
  have hgone : ∀ m ∈ a.members.members, a.Late m.memberId ↔ m.memberId ∈ pending.awaiting := by
    intro m _
    rw [hlate]
    exact ⟨fun hm => hm.2.2, fun hm => ⟨Nat.not_lt.mp hoverdue, hhost, hm⟩⟩
  have hremaining : a.remaining a.Late = (a₁.evict pending.awaiting).1.members.members := by
    rw [hevict.members]
    apply remaining_eq
    intro m hm
    rw [hgone m hm, hevict.gone]
    exact ⟨fun hid => ⟨hid, m, hm, rfl⟩, fun hid => hid.1⟩
  have hrotate := canRotate_iff P rng (htabled.trans hevict.tabled)
  rw [← hremaining] at hrotate
  have hconnections := connections_beginEpochTransition P rng (a₁.evict pending.awaiting).1
  split <;> rename_i heq <;> rw [heq] at hconnections
  · by_cases hany : ∃ m ∈ a.members.members, a.Late m.memberId
    · refine .stranded hany ?_ fun hcan => ?_
      · obtain ⟨m, hm, hid⟩ := hany
        refine ⟨m.connection, knows_of_member h hm, ?_⟩
        rw [knows_of_same hconnections]
        have hforgotten := hevict.step.departed m hm fun n hn heq => by
          change n ∈ (a₁.evict pending.awaiting).1.members.members at hn
          rw [← hremaining, mem_remaining] at hn
          exact hn.2 (heq ▸ hid)
        rintro ⟨entry, hget⟩
        cases hforgotten.symm.trans hget
      · obtain ⟨key, wraps, hbegins⟩ := hrotate.mp hcan
        cases congrArg Prod.snd (hbegins.begins.symm.trans heq)
    · have hnone : ∀ m ∈ a.members.members, ¬ a.Late m.memberId :=
        fun m hm hid => hany ⟨m, hm, hid⟩
      refine .tidy .nil (fun c hknown hgone' => ?_) hnone
      rw [knows_of_same hconnections] at hgone'
      obtain ⟨m, hm, hid, -⟩ := hforgets c hknown hgone'
      exact absurd ((hgone m hm).mpr hid) (hnone m hm)
  · rename_i b' wraps
    obtain ⟨key, wraps', hbegins, hbegun⟩ | ⟨error, hfail⟩ :=
      beginEpochTransition_cases P rng (a₁.evict pending.awaiting).1
    rotate_left
    · cases congrArg Prod.snd (heq.symm.trans hfail)
    obtain rfl : wraps = wraps' := by
      cases congrArg Prod.snd (heq.symm.trans hbegun)
      rfl
    have hto : ∀ c message, .sendTo c message ∈ wraps → ∃ m ∈ a.members.members,
        ¬ a.Late m.memberId ∧ m.connection = c := by
      intro c message hmem
      obtain ⟨m, hm, hconn⟩ := mem_wrapAll hbegins.wrapped hmem
      rw [← hremaining, mem_remaining] at hm
      exact ⟨m, hm.1, hm.2, hconn⟩
    refine ⟨.append (.of_silent hsilent) fun c message hmem => ?_, iff_of_true ?_ ?_⟩
    · obtain ⟨m, hm, -, rfl⟩ := hto c message hmem
      exact knows_of_member h hm
    · intro c hknown hforgotten
      have hsame := congrArg Registry.connections (registry_queueMembersGone P b'
        (a₁.evict pending.awaiting).2.2 msgMemberLeft)
      obtain ⟨m, hm, hid, rfl⟩ :=
        hforgets c hknown (mt (knows_of_same (hsame.trans hconnections)).mpr hforgotten)
      refine (ClosedLast.of_mem ((hcloses _).mpr ⟨m, hm, hid, rfl⟩) (hsilent _)).append_right ?_
      intro message hmem
      obtain ⟨n, hn, hstays, hconn⟩ := hto _ message hmem
      rw [h.eq_of_connection hn hm hconn] at hstays
      exact hstays ((hgone m hm).mpr hid)
    · exact fun hstrands => hstrands.2 (hrotate.mpr ⟨key, wraps, hbegins⟩)

/-! ### Join requests and host commands -/

theorem knows_update {cs : Connections} {id : ConnectionId} {f : ConnectionEntry → ConnectionEntry}
    (hb : b.connections = (cs.update id f).1) (hknown : ∃ entry, cs.get c = some entry) :
    b.Knows c := by
  obtain ⟨entry, hget⟩ := hknown
  unfold Knows
  rw [hb, Connections.get_update]
  split
  · rename_i heq
    rw [← heq, hget]
    exact ⟨_, rfl⟩
  · exact ⟨entry, hget⟩

theorem knows_register {cs : Connections} {id : ConnectionId}
    (hknown : ∃ entry, cs.get c = some entry) : ∃ entry, (cs.register id).get c = some entry := by
  obtain ⟨entry, hget⟩ := hknown
  rw [Connections.get_register]
  split
  · exact ⟨_, rfl⟩
  · exact ⟨entry, hget⟩

/-- Steps that remove nobody. -/
abbrev Polite (P : Primitives) (rng : Rng) (a : RoomActor) (outcome : Outcome) : Prop :=
  Dismisses P rng (fun _ => False) a outcome

theorem Polite.same (hconnections : b.connections = a.connections)
    (haddressed : Addressed a actions) : Polite P rng a (b, .ok actions) :=
  .kept hconnections haddressed fun _ _ h => h

theorem Polite.refused (hconnections : b.connections = a.connections) {error : RoomError} :
    Polite P rng a (b, .error error) :=
  .failed hconnections fun _ _ h => h

theorem Polite.closed {outcome : Outcome} (h : Polite P rng a outcome) (c : ConnectionId)
    (hknown : a.Knows c) (hgone : ¬ outcome.1.Knows c) : ClosedLast c (actionsOf outcome.2) :=
  h.closed_iff.mpr (fun ⟨⟨_, _, hnone⟩, _⟩ => hnone) c hknown hgone

theorem Polite.congr {outcome : Outcome} (hconnections : b.connections = a.connections)
    (h : Polite P rng b outcome) : Polite P rng a outcome := by
  have hsame : ∀ c, b.Knows c ↔ a.Knows c := fun c => knows_of_same hconnections
  refine .tidy (fun c message hmem => (hsame c).mp (h.addressed c message hmem)) ?_ fun _ _ h => h
  exact fun c hknown hgone => h.closed c ((hsame c).mpr hknown) hgone

/-- Every known connection stays known. -/
theorem Polite.known {outcome : Outcome} (haddressed : Addressed a (actionsOf outcome.2))
    (hknown : ∀ c, a.Knows c → outcome.1.Knows c) : Polite P rng a outcome :=
  .tidy haddressed (fun c h hgone => absurd (hknown c h) hgone) fun _ _ h => h

theorem onJoinRequested_polite (connection : ConnectionId) (application : JoinApplication) :
    Polite P rng a (a.onJoinRequested connection application) := by
  unfold onJoinRequested
  split
  · exact .refused rfl
  split
  · exact .refused rfl
  split
  · exact .refused rfl
  split
  · refine .refused ?_
    rfl
  rename_i requests requestId _
  have hattached : ∀ c, a.Knows c → ({ a with
      connections := (a.connections.attachRequest connection requestId).1 } : RoomActor).Knows c :=
    fun c hknown => knows_update rfl hknown
  split <;> rename_i heq <;> rw [heq] at hattached
  · exact .known .nil hattached
  · exact .known (.cons_notifyHost .nil) hattached

theorem admitMember_polite (h : ∀ m ∈ a.members.members, a.Knows m.connection)
    {connection : ConnectionId} (hknown : a.Knows connection) (application : JoinApplication) :
    Polite P rng a (a.admitMember P rng connection application) := by
  unfold admitMember
  split
  · rename_i members member hadd
    obtain ⟨hmember, hmembers, -, -⟩ := Registry.add_eq_ok hadd
    have hconn : member.connection = connection := congrArg Member.connection hmember
    let b : RoomActor := { a with
      members
      connections := ((a.connections.register connection).promote connection member.memberId).1 }
    have hb : ∀ c, a.Knows c → b.Knows c := fun c hc =>
      knows_update (b := b) rfl (knows_register hc)
    dsimp only
    obtain ⟨key, wraps, hbegins, heq⟩ | ⟨error, heq⟩ := beginEpochTransition_cases P rng b
    · rw [heq]
      refine .known (.cons_sendTo hknown (.cons_notifyHost ?_)) hb
      intro c message hmem
      obtain ⟨m, hm, rfl⟩ := mem_wrapAll hbegins.wrapped hmem
      change m ∈ members.members at hm
      rw [hmembers] at hm
      obtain hm | hm := List.mem_append.mp hm
      · exact h m hm
      · rw [List.mem_singleton.mp hm, hconn]
        exact hknown
    · rw [heq]
      exact .known .nil hb
  · dsimp only
    refine .tidy ?_ (fun c hc hgone => ?_) fun _ _ h => h
    · refine .append (.cons_sendTo hknown (.cons_closeConnection (.cons_notifyHost .nil))) ?_
      refine .of_silent fun c message hmem => ?_
      split at hmem <;> simp at hmem
    · rw [eq_of_forgotten hc rfl hgone]
      have hlast : ∀ reason notice, ClosedLast connection [.sendTo connection reason,
          .closeConnection connection, .notifyHost notice] := fun reason notice =>
        ⟨[_], _, rfl, by simp⟩
      refine (hlast _ _).append_right fun message hmem => ?_
      split at hmem <;> simp at hmem

theorem onAccept_polite (h : a.registry.Valid) (requestId : RequestId) :
    Polite P rng a (a.onAccept P rng requestId) := by
  unfold onAccept
  split
  · exact .same rfl (.cons_notifyHost .nil)
  · obtain ⟨error, heq⟩ | ⟨q, hq, -, heq⟩ := takeRequest_cases h requestId
    · rw [heq]
      exact .refused rfl
    · rw [heq]
      refine .congr (b := { a with requests := a.registry.taken q }) rfl ?_
      exact admitMember_polite (a := { a with requests := a.registry.taken q })
        (fun m hm => knows_of_member h hm) (knows_of_request h hq) q.application

theorem onReject_polite (h : a.registry.Valid) (requestId : RequestId) :
    Polite P rng a (a.onReject requestId) := by
  unfold onReject
  split
  · exact .same rfl (.cons_notifyHost .nil)
  · obtain ⟨error, heq⟩ | ⟨q, hq, -, heq⟩ := takeRequest_cases h requestId
    · rw [heq]
      exact .refused rfl
    · rw [heq]
      refine .tidy ?_ (fun c hc hgone => ?_) fun _ _ h => h
      · exact .cons_sendTo (knows_of_request h hq) (.cons_closeConnection .nil)
      · rw [eq_of_forgotten hc rfl hgone]
        exact ⟨[_], [], rfl, by simp⟩

/-- What `/newid` and `/reqoff` forget they close, and they send nothing. -/
theorem dropAdmissions_closes (h : a.registry.Valid) :
    (∀ c message, .sendTo c message ∉ a.dropAdmissions.2) ∧
      ∀ c, a.Knows c → ¬ a.dropAdmissions.1.Knows c →
        a.connections.memberId c = none ∧ .closeConnection c ∈ a.dropAdmissions.2 := by
  constructor
  · intro c message hmem
    simp only [dropAdmissions, JoinRequestQueue.drain, List.mem_append, List.mem_flatMap,
      List.mem_map, List.mem_cons, reduceCtorEq, List.not_mem_nil, or_self, and_false,
      exists_false] at hmem
  · rintro c ⟨entry, hget⟩ hgone
    have hmember : a.connections.memberId c = none := by
      by_contra hmember
      refine hgone ⟨entry, ?_⟩
      rw [get_dropAdmissions h, if_pos (Option.isSome_iff_ne_none.mpr hmember), hget]
    refine ⟨hmember, closed_by_dropAdmissions a hget fun id hrole => ?_⟩
    cases hmember.symm.trans (Connections.memberId_eq_some.mpr ⟨entry, hget, hrole⟩)

theorem onNewId_polite (h : a.registry.Valid) : Polite P rng a (a.onNewId rng) := by
  unfold onNewId
  split
  · exact .refused rfl
  rename_i token _
  obtain ⟨hsilent, hcloses⟩ := dropAdmissions_closes
    (a := { a with token, roomSequence := a.roomSequence + 1 }) h
  refine .tidy (.append (.of_silent hsilent) (.cons_notifyHost .nil)) ?_ fun _ _ h => h
  intro c hknown hgone
  obtain ⟨-, hclosed⟩ := hcloses c hknown hgone
  exact (ClosedLast.of_mem hclosed (hsilent c)).append_right (by simp)

theorem announcePolicy_sends (policy : JoinPolicy)
    (hmem : .sendTo c message ∈ (a.announcePolicy P policy).2) :
    ∃ m ∈ a.members.members, m.connection = c := by
  obtain hmem | hmem := List.mem_append.mp hmem
  · obtain ⟨m, hm, heq⟩ := List.mem_map.mp hmem
    cases heq
    exact ⟨m, (List.mem_filter.mp hm).1, rfl⟩
  · simp at hmem

theorem setPolicy_polite (h : a.registry.Valid) (policy : JoinPolicy) :
    Polite P rng a (a.setPolicy P policy) := by
  unfold setPolicy
  cases policy with
  | opened =>
      refine .same rfl (.append .nil fun c message hmem => ?_)
      obtain ⟨m, hm, rfl⟩ := announcePolicy_sends .opened hmem
      exact knows_of_member h hm
  | locked =>
      obtain ⟨hsilent, hcloses⟩ := dropAdmissions_closes h
      refine .tidy (.append (.of_silent hsilent) fun c message hmem => ?_) ?_ fun _ _ h => h
      · obtain ⟨m, hm, rfl⟩ := announcePolicy_sends .locked hmem
        exact knows_of_member h hm
      · intro c hknown hgone
        obtain ⟨hmember, hclosed⟩ := hcloses c hknown hgone
        refine (ClosedLast.of_mem hclosed (hsilent c)).append_right fun message hmem => ?_
        obtain ⟨m, hm, rfl⟩ := announcePolicy_sends .locked hmem
        cases hmember.symm.trans (h.member_entry m hm)

theorem onColor_polite (connection : ConnectionId) (color : ColorChoice) :
    Polite P rng a (a.onColor connection color) := by
  unfold onColor
  split
  · exact .same rfl .nil
  split
  · exact .same rfl .nil
  · exact .refused rfl

theorem whois_polite (connection : ConnectionId) (target : String) :
    Polite P rng a (a.onMemberCommand P rng connection (.whois target)) := by
  unfold onMemberCommand
  dsimp only
  split
  · exact .refused rfl
  · exact .same rfl (.cons_notifyHost .nil)

/-! ### Chat -/

theorem relay_addressed (h : ∀ m ∈ b.members.members, a.Knows m.connection)
    (connection : ConnectionId) (message : Message) :
    Addressed a (b.relay connection message) := by
  intro c message' hmem
  obtain ⟨m, hm, heq⟩ := List.mem_map.mp hmem
  cases heq
  exact h m (List.mem_filter.mp hm).1

theorem onTimeoutRequest_polite (connection : ConnectionId) (senderId : MemberId)
    (plaintext : Bytes) : Polite P rng a (a.onTimeoutRequest connection senderId plaintext) := by
  unfold onTimeoutRequest
  split
  · exact .refused rfl
  split
  · exact .refused rfl
  dsimp only
  split
  · exact .refused rfl
  split
  · exact .refused rfl
  · exact .same rfl (.cons_notifyHost .nil)

theorem onPlaintext_polite (h : a.registry.Valid) (connection : ConnectionId)
    (senderId : MemberId) (messageType : UInt8) (envelope : EncryptedEnvelope)
    (plaintext : Bytes) :
    Polite P rng a (a.onPlaintext connection senderId messageType envelope plaintext) := by
  have hmembers : ∀ m ∈ a.members.members, a.Knows m.connection :=
    fun m hm => knows_of_member h hm
  unfold onPlaintext
  split
  · split
    · split
      · exact .refused rfl
      · rename_i color _
        refine .same rfl (relay_addressed (fun m hm => ?_) connection _)
        obtain ⟨n, hn, hnm⟩ := exists_uncolored_of_mem
          (a.members.map_uncolored_setColor senderId color) hm
        rw [← Member.connection_congr hnm]
        exact hmembers n hn
    · exact .refused rfl
  split
  · exact onTimeoutRequest_polite connection senderId plaintext
  split
  · split
    · exact .refused rfl
    · split
      · exact .refused rfl
      · exact .same rfl (relay_addressed hmembers connection _)
  · split
    · exact .refused rfl
    · split
      · exact .refused rfl
      · exact .same rfl (relay_addressed hmembers connection _)

theorem onEnvelope_polite (h : a.registry.Valid) (connection : ConnectionId)
    (senderId : MemberId) (messageType : UInt8) (envelope : EncryptedEnvelope) :
    Polite P rng a (a.onEnvelope P connection senderId messageType envelope) := by
  unfold onEnvelope
  split
  · exact .refused rfl
  split
  · exact .refused rfl
  split
  · exact .refused rfl
  · rename_i plaintext _
    refine .congr (b := { a with
      chatReplay := (a.chatReplay.accept senderId a.epoch envelope.senderSequence).1 }) rfl ?_
    exact onPlaintext_polite (a := { a with
      chatReplay := (a.chatReplay.accept senderId a.epoch envelope.senderSequence).1 }) h
      connection senderId messageType envelope plaintext

theorem onRateLimited_dismisses (h : a.registry.Valid) {connection : ConnectionId}
    {id : MemberId} (hid : a.connections.memberId connection = some id) (abusive : Bool) :
    Dismisses P rng (fun i => abusive = true ∧ i ≠ 0 ∧ i = id) a
      (a.onRateLimited P rng connection id abusive) := by
  have hknown : a.Knows connection := knows_of_memberId hid
  unfold onRateLimited
  split
  · rename_i hfail
    cases hfail
  rename_i answer _
  have hanswered : Addressed a [.sendTo connection (.error answer),
      .notifyHost (.error "member exceeded the message rate limit")] :=
    .cons_sendTo hknown (.cons_notifyHost .nil)
  dsimp only
  split
  · rename_i habusive
    simp only [habusive, true_and]
    have hremoval := removeMember_removal P rng h id msgMemberKicked
    split <;> rename_i heq <;> rw [heq] at hremoval
    · cases hremoval with
      | kept hb hnone _ => exact .failed hb hnone
      | failed hm hgone hb hcannot => exact .removalFailed h hm hgone hb hcannot
    · cases hremoval with
      | kept hb hnone _ => exact .kept hb hanswered hnone
    · cases hremoval with
      | kept _ _ hnot => exact absurd rfl (hnot _)
      | removed hm hgone hb hcan haddressed _ =>
          obtain ⟨n, hn, rfl, hnid⟩ := h.entry_member connection id hid
          obtain rfl := h.eq_of_memberId hn hm (hnid.trans hgone.2.symm)
          have hlast : ClosedLast n.connection [.closeConnection n.connection,
              .notifyHost (.memberKicked id n.nickname)] := ⟨[], _, rfl, by simp⟩
          refine .removed hb hcan ?_ (hlast.append_left _)
          exact (hanswered.append haddressed).append (.cons_closeConnection (.cons_notifyHost .nil))
  · rename_i habusive
    exact .kept rfl hanswered fun m _ hgone => habusive hgone.1

/-- The rate-limit buckets do not matter to a departure. -/
theorem Dismisses.charged {senderId : MemberId} {outcome : Outcome}
    (h : Dismisses P rng gone (a.chargeRateLimit senderId).1 outcome) :
    Dismisses P rng gone a outcome where
  addressed := h.addressed
  closed_iff := by
    have hrotate := canRotate_congr (a := a) (b := (a.chargeRateLimit senderId).1) P rng rfl rfl rfl
      (a.remaining gone)
    exact h.closed_iff.trans (not_congr (and_congr_right fun _ => not_congr hrotate))

theorem onChatReceived_dismisses (h : a.registry.Valid) (connection : ConnectionId)
    (messageType : UInt8) (envelope : EncryptedEnvelope) :
    Dismisses P rng (a.Abuses connection messageType envelope) a
      (a.onChatReceived P rng connection messageType envelope) := by
  unfold onChatReceived
  split
  · rename_i htype
    exact .failed rfl fun m _ habuses => htype habuses.1
  rename_i htype
  rw [not_not] at htype
  split
  · rename_i hnone
    refine .failed rfl fun m _ habuses => ?_
    cases hnone.symm.trans habuses.2.2.2.1
  rename_i senderId hknown
  have hsender : ∀ {id}, a.Abuses connection messageType envelope id → id = senderId := by
    intro id habuses
    exact Option.some_inj.mp (habuses.2.2.2.1.symm.trans hknown)
  split
  · rename_i hne
    refine .failed rfl fun m _ habuses => hne ?_
    rw [← hsender habuses]
    exact habuses.2.2.2.2.1
  rename_i hid
  rw [not_not] at hid
  split
  · rename_i hmember
    obtain ⟨m, hm, -, hmid⟩ := h.entry_member connection senderId hknown
    rw [show a.members.byId senderId = some m from h.byId_eq_some.mpr ⟨hm, hmid⟩] at hmember
    cases hmember
  split
  · rename_i hchanged
    have hpolite : Polite P rng a (a.onEnvelope P connection senderId messageType envelope) :=
      onEnvelope_polite h connection senderId messageType envelope
    exact .tidy hpolite.addressed hpolite.closed fun m _ habuses => habuses.2.1 hchanged
  rename_i hchanged
  have habusive := abuses_iff htype hchanged hknown hid
  have hcalm := calm_of_allowed (a := a) senderId
  let b := (a.chargeRateLimit senderId).1
  change Dismisses P rng _ a (if (a.chargeRateLimit senderId).2.1 then
    b.onEnvelope P connection senderId messageType envelope
    else b.onRateLimited P rng connection senderId (a.chargeRateLimit senderId).2.2)
  split
  · rename_i hallowed
    have hpolite : Polite P rng b (b.onEnvelope P connection senderId messageType envelope) :=
      onEnvelope_polite (a := b) h connection senderId messageType envelope
    refine .tidy hpolite.addressed hpolite.closed fun m _ habuses => ?_
    rw [habusive, hcalm hallowed] at habuses
    cases habuses.1
  · have hgone : a.Abuses connection messageType envelope = fun i =>
        (a.chargeRateLimit senderId).2.2 = true ∧ i ≠ 0 ∧ i = senderId :=
      funext fun id => propext (habusive id)
    rw [hgone]
    exact .charged (onRateLimited_dismisses (a := b) h hknown _)

/-! ### Events -/

/-- The events that report a connection or member as gone already. -/
def isLost : RoomEvent → Bool
  | .connectionLost _ | .timeoutExpired _ _ | .memberLeft _ => true
  | _ => false

/-- The event is the last acknowledgement the open room waits for, and a membership event is
queued for `c`. -/
def Releases (a : RoomActor) (event : RoomEvent) (c : ConnectionId) : Prop :=
  a.state ≠ .closing ∧ a.state ≠ .destroyed ∧ ∃ connection pending id,
    event = .epochAck connection pending.epoch ∧ a.pendingEpoch = some pending ∧
    a.connections.memberId connection = some id ∧ id ∈ pending.awaiting ∧
    (pending.retain id).awaiting = [] ∧ ∃ message, .sendTo c message ∈ a.pendingMembership

/-- The event is a chat message on `c` during a transition that `c` has not acknowledged. -/
def Rebuffs (a : RoomActor) (event : RoomEvent) (c : ConnectionId) : Prop :=
  ∃ messageType envelope, event = .chatReceived c messageType envelope ∧
    a.state = .epochTransition ∧ a.memberHasAckedPendingEpoch c = false ∧ c ≠ a.hostConnection

/-- The traffic of one event. -/
structure Traffic (P : Primitives) (rng : Rng) (a : RoomActor) (event : RoomEvent)
    (outcome : Outcome) : Prop where
  sent : ∀ c message, .sendTo c message ∈ actionsOf outcome.2 →
    a.Knows c ∨ a.Releases event c ∨ a.Rebuffs event c
  closed_iff : isLost event = false →
    ((∀ c, a.Knows c → ¬ outcome.1.Knows c → ClosedLast c (actionsOf outcome.2)) ↔
      ¬ Strands P rng a (a.Expels event))

section
variable {event : RoomEvent} {outcome : Outcome}

theorem Dismisses.traffic (h : Dismisses P rng gone a outcome)
    (hgone : ∀ id, a.Expels event id ↔ gone id) : Traffic P rng a event outcome where
  sent c message hmem := .inl (h.addressed c message hmem)
  closed_iff _ := by
    obtain rfl : a.Expels event = gone := funext fun id => propext (hgone id)
    exact h.closed_iff

theorem Polite.traffic (h : Polite P rng a outcome) (hnone : ∀ id, ¬ a.Expels event id) :
    Traffic P rng a event outcome :=
  Dismisses.traffic h fun id => iff_of_false (hnone id) not_false

/-- An event that reports a loss may leave its connection open. -/
theorem Addressed.traffic (h : Addressed a (actionsOf outcome.2)) (hlost : isLost event = true) :
    Traffic P rng a event outcome where
  sent c message hmem := .inl (h c message hmem)
  closed_iff hevent := absurd (hevent.symm.trans hlost) nofun

end

theorem onEpochAck_traffic (hopen : ¬ (a.state = .closing ∨ a.state = .destroyed))
    (connection : ConnectionId) (epoch : Nat) :
    Traffic P rng a (.epochAck connection epoch) (a.onEpochAck connection epoch) := by
  have hquiet {b : RoomActor} (hb : b.connections = a.connections) :
      Traffic P rng a (.epochAck connection epoch) (b, .ok []) :=
    Polite.traffic (.same hb .nil) fun _ hexpels => hexpels
  unfold onEpochAck
  split
  · exact hquiet rfl
  rename_i pending hpending
  split
  · exact hquiet rfl
  rename_i hepoch
  rw [not_not] at hepoch
  split
  · exact hquiet rfl
  rename_i id hid
  dsimp only
  split
  · exact hquiet rfl
  rename_i hlength
  split
  · rename_i hlast
    refine ⟨fun c message hmem => .inr (.inl ?_), fun _ => ?_⟩
    · refine ⟨fun hs => hopen (.inl hs), fun hs => hopen (.inr hs), connection, pending, id,
        by rw [hepoch], hpending, hid, ?_, List.isEmpty_iff.mp hlast, message, ?_⟩
      · by_contra hnot
        exact hlength (by rw [PendingEpoch.retain_of_not_mem hnot])
      · obtain hmem | hmem := List.mem_append.mp hmem
        · exact hmem
        · split at hmem <;> simp at hmem
    · refine iff_of_true (fun c hknown hgone => absurd hknown hgone) ?_
      rintro ⟨⟨_, _, hexpels⟩, _⟩
      exact hexpels
  · exact hquiet rfl

theorem onChatReceived_traffic (h : a.registry.Valid)
    (hopen : ¬ (a.state = .closing ∨ a.state = .destroyed)) {connection : ConnectionId}
    {messageType : UInt8} {envelope : EncryptedEnvelope}
    (hacked : a.state = .epochTransition → a.memberHasAckedPendingEpoch connection = true) :
    Traffic P rng a (.chatReceived connection messageType envelope)
      (a.onChatReceived P rng connection messageType envelope) := by
  refine (onChatReceived_dismisses h connection messageType envelope).traffic fun id => ?_
  refine ⟨fun hexpels => hexpels.2.2.2, fun habuses => ?_⟩
  exact ⟨fun hs => hopen (.inl hs), fun hs => hopen (.inr hs), hacked, habuses⟩

/-- A transition answers the chat of any connection but the host's. -/
theorem rejectDuringTransition_traffic (hstate : a.state = .epochTransition)
    {connection : ConnectionId} (hacked : a.memberHasAckedPendingEpoch connection = false)
    (messageType : UInt8) (envelope : EncryptedEnvelope) :
    Traffic P rng a (.chatReceived connection messageType envelope)
      (a.rejectDuringTransition connection) := by
  have hnone : ∀ id, ¬ a.Expels (.chatReceived connection messageType envelope) id := by
    intro id hexpels
    cases hacked.symm.trans (hexpels.2.2.1 hstate)
  unfold rejectDuringTransition
  split
  · exact Polite.traffic (.same rfl (.cons_notifyHost .nil)) hnone
  rename_i hhost
  split
  · exact Polite.traffic (.refused rfl) hnone
  · refine ⟨fun c message hmem => .inr (.inr ?_), fun _ => iff_of_true ?_ ?_⟩
    · obtain heq | hmem := List.mem_cons.mp hmem
      · cases heq
        exact ⟨messageType, envelope, rfl, hstate, hacked, hhost⟩
      · cases hmem
    · exact fun c hknown hgone => absurd hknown hgone
    · rintro ⟨⟨_, _, hexpels⟩, _⟩
      exact hnone _ hexpels

theorem handleInTransition_traffic (h : a.registry.Valid)
    (hopen : ¬ (a.state = .closing ∨ a.state = .destroyed)) (hstate : a.state = .epochTransition)
    (event : RoomEvent) : Traffic P rng a event (a.handleInTransition P rng event) := by
  have hunsettled : ¬ a.AtRest := fun hsettled => hsettled.2.2 hstate
  cases event with
  | epochAck connection epoch => exact onEpochAck_traffic hopen connection epoch
  | connectionLost connection => exact (onConnectionLost_addressed h connection).traffic rfl
  | timeoutExpired connection kind =>
      unfold handleInTransition
      dsimp only
      split
      · exact (onEpochTimeout_dismisses h).addressed.traffic rfl
      · exact (onConnectionLost_addressed h connection).traffic rfl
  | epochMaintenance =>
      refine (onEpochTimeout_dismisses h).traffic fun id => ?_
      exact ⟨fun hexpels => hexpels.2, fun hlate => ⟨hstate, hlate⟩⟩
  | closeRequested | torStopped =>
      exact Polite.traffic (.known closeRoom_addressed fun _ hknown =>
        (knows_of_same connections_closeRoom).mpr hknown) fun _ hexpels => hexpels
  | hostCommand command =>
      cases command with
      | kick target => exact Polite.traffic (.refused rfl) fun _ hexpels => hunsettled hexpels.1
      | requests =>
          exact Polite.traffic (.same rfl (.cons_notifyHost .nil)) fun _ hexpels => hexpels
      | newId | reqOn | reqOff | accept _ | reject _ =>
          exact Polite.traffic (.refused rfl) fun _ hexpels => hexpels
  | chatReceived connection messageType envelope =>
      unfold handleInTransition
      dsimp only
      split
      · rename_i hacked
        exact onChatReceived_traffic h hopen fun _ => hacked
      · rename_i hacked
        exact rejectDuringTransition_traffic hstate (Bool.eq_false_iff.mpr hacked) messageType
          envelope
  | memberCommand connection command =>
      cases command with
      | leave => exact Polite.traffic (.refused rfl) fun _ hexpels => hunsettled hexpels.1
      | color _ | list | whois _ => exact Polite.traffic (.refused rfl) fun _ hexpels => hexpels
  | memberLeft memberId => exact Addressed.traffic .nil rfl
  | clientConnected _ | passwordVerified _ | joinRequested _ _ | hostAccepted _ | hostRejected _ =>
      exact Polite.traffic (.refused rfl) fun _ hexpels => hexpels

theorem handleSettled_traffic (h : a.registry.Valid) (hsettled : a.AtRest) (event : RoomEvent) :
    Traffic P rng a event (a.handleSettled P rng event) := by
  have hopen : ¬ (a.state = .closing ∨ a.state = .destroyed) :=
    fun hclosed => hclosed.elim hsettled.1 hsettled.2.1
  cases event with
  | clientConnected connection =>
      exact Polite.traffic (.known .nil fun c hknown => knows_register hknown)
        fun _ hexpels => hexpels
  | passwordVerified connection =>
      exact Polite.traffic (.known .nil fun c hknown => knows_update rfl hknown)
        fun _ hexpels => hexpels
  | epochAck connection epoch => exact onEpochAck_traffic hopen connection epoch
  | joinRequested connection application =>
      exact Polite.traffic (onJoinRequested_polite connection application)
        fun _ hexpels => hexpels
  | hostAccepted requestId =>
      exact Polite.traffic (onAccept_polite h requestId) fun _ hexpels => hexpels
  | hostRejected requestId =>
      exact Polite.traffic (onReject_polite h requestId) fun _ hexpels => hexpels
  | connectionLost connection => exact (onConnectionLost_addressed h connection).traffic rfl
  | timeoutExpired connection kind => exact (onConnectionLost_addressed h connection).traffic rfl
  | epochMaintenance =>
      exact Polite.traffic (.same rfl .nil) fun _ hexpels => hsettled.2.2 hexpels.1
  | memberLeft memberId => exact (onMemberLeft_addressed h memberId).traffic rfl
  | chatReceived connection messageType envelope =>
      exact onChatReceived_traffic h hopen fun htransition => absurd htransition hsettled.2.2
  | torStopped | closeRequested =>
      exact Polite.traffic (.known closeRoom_addressed fun _ hknown =>
        (knows_of_same connections_closeRoom).mpr hknown) fun _ hexpels => hexpels
  | hostCommand command =>
      cases command with
      | kick target =>
          refine (onKick_dismisses h target).traffic fun id => ?_
          exact ⟨fun hexpels => hexpels.2, fun hgone => ⟨hsettled, hgone⟩⟩
      | newId => exact Polite.traffic (onNewId_polite h) fun _ hexpels => hexpels
      | reqOn => exact Polite.traffic (setPolicy_polite h .opened) fun _ hexpels => hexpels
      | reqOff => exact Polite.traffic (setPolicy_polite h .locked) fun _ hexpels => hexpels
      | requests =>
          exact Polite.traffic (.same rfl (.cons_notifyHost .nil)) fun _ hexpels => hexpels
      | accept requestId =>
          exact Polite.traffic (onAccept_polite h requestId) fun _ hexpels => hexpels
      | reject requestId =>
          exact Polite.traffic (onReject_polite h requestId) fun _ hexpels => hexpels
  | memberCommand connection command =>
      cases command with
      | leave =>
          refine (onLeave_dismisses h connection).traffic fun id => ?_
          exact ⟨fun hexpels => hexpels.2, fun hgone => ⟨hsettled, hgone⟩⟩
      | color color =>
          exact Polite.traffic (onColor_polite connection color) fun _ hexpels => hexpels
      | list => exact Polite.traffic (.same rfl (.cons_notifyHost .nil)) fun _ hexpels => hexpels
      | whois target =>
          exact Polite.traffic (whois_polite connection target) fun _ hexpels => hexpels

theorem handleEventAt_traffic (P : Primitives) (rng : Rng) (h : a.registry.Valid)
    (event : RoomEvent) (now : Duration) :
    Traffic P rng { a with now } event (a.handleEventAt P rng event now) := by
  unfold handleEventAt
  dsimp only
  split
  · rename_i hclosed
    exact Polite.traffic (.refused rfl) fun id =>
      not_expels_closed (a := { a with now }) hclosed event id
  rename_i hopen
  split
  · rename_i hstate
    exact handleInTransition_traffic (a := { a with now }) h hopen hstate event
  · rename_i hstate
    exact handleSettled_traffic (a := { a with now }) h (AtRest.of_open hopen hstate) event

/-- An activation emits the queued events as they were addressed. -/
theorem Releases.sends {event : RoomEvent} (h : a.Releases event c) (now : Duration) :
    ∃ message, .sendTo c message ∈ actionsOf (a.handleEventAt P rng event now).2 := by
  obtain ⟨hclosing, hdestroyed, connection, pending, id, rfl, hpending, hid, hawaited, hlast,
    message, hqueued⟩ := h
  have hlength : ([] : List MemberId).length ≠ pending.awaiting.length :=
    fun hlength => List.ne_nil_of_mem hawaited (List.eq_nil_of_length_eq_zero hlength.symm)
  have hack : .sendTo c message ∈
      actionsOf (onEpochAck { a with now } connection pending.epoch).2 := by
    simp only [onEpochAck, hpending, hid, hlast, ne_eq, not_true_eq_false, if_false,
      if_neg hlength, List.isEmpty_nil, if_true]
    exact List.mem_append_left _ hqueued
  refine ⟨message, ?_⟩
  unfold handleEventAt
  dsimp only
  rw [if_neg fun hclosed => hclosed.elim hclosing hdestroyed]
  split <;> exact hack

theorem Rebuffs.sends {event : RoomEvent} (h : a.Rebuffs event c) (now : Duration) :
    ∃ message, .sendTo c message ∈ actionsOf (a.handleEventAt P rng event now).2 := by
  obtain ⟨messageType, envelope, rfl, hstate, hacked, hhost⟩ := h
  have hreject : ∃ message, .sendTo c message ∈
      actionsOf (rejectDuringTransition { a with now } c).2 := by
    unfold rejectDuringTransition
    rw [if_neg hhost]
    exact ⟨_, List.mem_singleton_self _⟩
  unfold handleEventAt
  dsimp only
  rw [if_neg (by rw [hstate]; nofun), if_pos hstate]
  unfold handleInTransition
  dsimp only
  rw [if_neg (by rw [show memberHasAckedPendingEpoch { a with now } c = false from hacked]; nofun)]
  exact hreject

end RoomActor

end Veilroom
