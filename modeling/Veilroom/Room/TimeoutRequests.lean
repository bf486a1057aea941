import Veilroom.Room.Scripts

/-!
The owners of pending timeout requests.

A lost connection withdraws the requests of its member. The other ways to leave
do not, so a request can outlive its member in the queue of the host.
-/
namespace Veilroom
namespace RoomActor
variable (P : Primitives) (rng : Rng) {a b : RoomActor}

/-- The request names a member, as the table has it. -/
def Owns (a : RoomActor) (t : PendingTimeoutRequest) : Prop :=
  ∃ m ∈ a.members.members,
    m.memberId = t.memberId ∧ m.connection = t.connection ∧ m.nickname = t.nickname

def RequestsOwned (a : RoomActor) : Prop := ∀ t ∈ a.timeoutRequests, a.Owns t

instance (a : RoomActor) : Decidable a.RequestsOwned :=
  inferInstanceAs (Decidable (∀ t ∈ a.timeoutRequests, ∃ m ∈ a.members.members,
    m.memberId = t.memberId ∧ m.connection = t.connection ∧ m.nickname = t.nickname))

/-! ### Who leaves without a lost connection -/

/-- The room is open and no transition is pending. -/
def AtRest (a : RoomActor) : Prop :=
  a.state ≠ .closing ∧ a.state ≠ .destroyed ∧ a.state ≠ .epochTransition

/-- The pending epoch is overdue, the host acknowledged it and `id` did not. -/
def Late (a : RoomActor) (id : MemberId) : Prop :=
  ∃ pending, a.pendingEpoch = some pending ∧
    a.timeouts.get .epochAcknowledgement ≤ a.now - pending.startedAt ∧ 0 ∉ pending.awaiting ∧
    id ∈ pending.awaiting

/-- A message that makes its sender `id` abusive. -/
def Abuses (a : RoomActor) (connection : ConnectionId) (messageType : UInt8)
    (envelope : EncryptedEnvelope) (id : MemberId) : Prop :=
  isChatType messageType = true ∧ messageType ≠ msgTimeoutChanged ∧ id ≠ 0 ∧
    a.connections.memberId connection = some id ∧ envelope.senderId = id ∧
    (a.chargeRateLimit id).2.2 = true

/-- The event removes member `id` on another ground than its lost connection. -/
def Expels (a : RoomActor) : RoomEvent → MemberId → Prop
  | .hostCommand (.kick target), id =>
      a.AtRest ∧ id ≠ 0 ∧ ∃ m, a.resolveMember target = .ok m ∧ m.memberId = id
  | .memberCommand connection .leave, id =>
      a.AtRest ∧ connection ≠ a.hostConnection ∧ a.connections.memberId connection = some id
  | .memberLeft memberId, id => a.AtRest ∧ id ≠ 0 ∧ memberId = id
  | .chatReceived connection messageType envelope, id =>
      a.state ≠ .closing ∧ a.state ≠ .destroyed ∧
        (a.state = .epochTransition → a.memberHasAckedPendingEpoch connection = true) ∧
        a.Abuses connection messageType envelope id
  | .timeoutExpired _ kind, id =>
      a.state = .epochTransition ∧ kind = .epochAcknowledgement ∧ a.Late id
  | .epochMaintenance, id => a.state = .epochTransition ∧ a.Late id
  | _, _ => False

/-- From `a` to `b` the members of `gone` left, and the requests are what they were. -/
structure Departs (gone : MemberId → Prop) (a b : RoomActor) : Prop where
  stays : ∀ m ∈ a.members.members, ¬ gone m.memberId →
    ∃ n ∈ b.members.members, n.uncolored = m.uncolored
  left : ∀ n ∈ b.members.members, ¬ gone n.memberId
  requests : b.timeoutRequests = a.timeoutRequests

/-- From `a` to `b` only the owners of withdrawn requests left, and new requests have owners. -/
structure Keeps (a b : RoomActor) : Prop where
  requests : ∀ t ∈ b.timeoutRequests, b.Owns t ∨ t ∈ a.timeoutRequests ∧
    ∀ m ∈ a.members.members, m.memberId = t.memberId → m.connection = t.connection →
      ∃ n ∈ b.members.members, n.uncolored = m.uncolored

theorem Member.nickname_congr {m n : Member} (h : m.uncolored = n.uncolored) :
    m.nickname = n.nickname :=
  show m.uncolored.nickname = n.uncolored.nickname by rw [h]

theorem Owns.uncolored {t : PendingTimeoutRequest} {m n : Member} (hn : n ∈ b.members.members)
    (h : n.uncolored = m.uncolored) (hid : m.memberId = t.memberId)
    (hconn : m.connection = t.connection) (hnick : m.nickname = t.nickname) : b.Owns t :=
  ⟨n, hn, (Member.memberId_congr h).trans hid, (Member.connection_congr h).trans hconn,
    (Member.nickname_congr h).trans hnick⟩

theorem Departs.owned_iff {gone : MemberId → Prop} (h : Departs gone a b)
    (ha : a.RequestsOwned) :
    b.RequestsOwned ↔ ∀ t ∈ a.timeoutRequests, ¬ gone t.memberId := by
  unfold RequestsOwned
  rw [h.requests]
  constructor
  · intro hb t ht
    obtain ⟨n, hn, hid, -, -⟩ := hb t ht
    rw [← hid]
    exact h.left n hn
  · intro hkept t ht
    obtain ⟨m, hm, hid, hconn, hnick⟩ := ha t ht
    obtain ⟨n, hn, hnm⟩ := h.stays m hm (by rw [hid]; exact hkept t ht)
    exact .uncolored hn hnm hid hconn hnick

theorem Keeps.owned (h : Keeps a b) (ha : a.RequestsOwned) : b.RequestsOwned := by
  intro t ht
  obtain howned | ⟨hold, hstays⟩ := h.requests t ht
  · exact howned
  · obtain ⟨m, hm, hid, hconn, hnick⟩ := ha t hold
    obtain ⟨n, hn, hnm⟩ := hstays m hm hid hconn
    exact .uncolored hn hnm hid hconn hnick

theorem Departs.none (hmembers : b.members.members.map Member.uncolored =
    a.members.members.map Member.uncolored) (hrequests : b.timeoutRequests = a.timeoutRequests) :
    Departs (fun _ => False) a b where
  stays _ hm _ := exists_uncolored_of_mem hmembers.symm hm
  left _ _ h := h
  requests := hrequests

theorem Departs.keeps (h : Departs (fun _ => False) a b) : Keeps a b where
  requests _ ht := .inr ⟨h.requests ▸ ht, fun _ hm _ _ => h.stays _ hm not_false⟩

/-- Nothing moved that requests depend on. -/
theorem Departs.same (hmembers : b.members = a.members)
    (hrequests : b.timeoutRequests = a.timeoutRequests) : Departs (fun _ => False) a b :=
  .none (by rw [hmembers]) hrequests

theorem Keeps.same (hmembers : b.members = a.members)
    (hrequests : b.timeoutRequests = a.timeoutRequests) : Keeps a b :=
  (Departs.same hmembers hrequests).keeps

/-- Requests were withdrawn, and nobody left. -/
theorem Keeps.withdrawn (hmembers : b.members = a.members)
    (hrequests : ∀ t ∈ b.timeoutRequests, t ∈ a.timeoutRequests) : Keeps a b where
  requests _ ht := .inr ⟨hrequests _ ht, fun m hm _ _ => ⟨m, by rw [hmembers]; exact hm, rfl⟩⟩

/-! ### Departures -/

theorem removeMember_departs (h : a.registry.Valid) (id : MemberId) (eventType : UInt8) :
    Departs (fun i => i ≠ 0 ∧ i = id) a (a.removeMember P rng id eventType).1 := by
  obtain ⟨hzero, heq⟩ | ⟨hnone, heq⟩ | ⟨m, hm, hid, hne, hcases⟩ :=
    removeMember_cases P rng h id eventType
  · rw [heq]
    exact ⟨fun m hm _ => ⟨m, hm, rfl⟩, fun n _ ⟨hpos, hid⟩ => hpos (hid.trans hzero), rfl⟩
  · rw [heq]
    exact ⟨fun m hm _ => ⟨m, hm, rfl⟩, fun n hn ⟨_, hid⟩ => hnone n hn hid, rfl⟩
  · have hwithout : Departs (fun i => i ≠ 0 ∧ i = id) a (a.without m) := by
      refine ⟨fun n hn hnot => ⟨n, h.mem_without.mpr ⟨hn, fun heq => hnot ?_⟩, rfl⟩, ?_, rfl⟩
      · exact ⟨by rw [heq, hid]; exact hne, heq.trans hid⟩
      · rintro n hn ⟨-, hnid⟩
        exact (h.mem_without.mp hn).2 (hnid.trans hid.symm)
    obtain ⟨error, -, heq⟩ | ⟨key, wraps, -, heq⟩ := hcases
    · rw [heq]
      exact ⟨hwithout.stays, hwithout.left, hwithout.requests⟩
    · rw [heq]
      exact ⟨hwithout.stays, hwithout.left, hwithout.requests⟩

theorem onMemberLeft_departs (h : a.registry.Valid) (id : MemberId) :
    Departs (fun i => i ≠ 0 ∧ i = id) a (a.onMemberLeft P rng id).1 := by
  have hdeparts := removeMember_departs P rng h id msgMemberLeft
  unfold onMemberLeft
  split <;> rename_i heq <;> rw [heq] at hdeparts <;> exact hdeparts

/-- `/leave` on a connection that is a member's, not the host's, removes that member. -/
theorem leaving_eq (h : a.registry.Valid) {connection : ConnectionId} {id : MemberId}
    (hhost : connection ≠ a.hostConnection) (hid : a.connections.memberId connection = some id) :
    (fun i => connection ≠ a.hostConnection ∧ a.connections.memberId connection = some i) =
      fun i => i ≠ 0 ∧ i = id := by
  funext i
  rw [hid, Option.some_inj, eq_iff_iff]
  constructor
  · rintro ⟨-, rfl⟩
    refine ⟨?_, rfl⟩
    rintro rfl
    obtain ⟨m, hm, hconn, hmid⟩ := h.entry_member connection 0 hid
    exact hhost (hconn ▸ (h.connection_eq_host_iff hm).mpr hmid)
  · rintro ⟨-, rfl⟩
    exact ⟨hhost, rfl⟩

theorem onLeave_departs (h : a.registry.Valid) (connection : ConnectionId) :
    Departs (fun i => connection ≠ a.hostConnection ∧ a.connections.memberId connection = some i) a
      (a.onLeave P rng connection).1 := by
  unfold onLeave
  split
  · rename_i hhost
    exact ⟨fun m hm _ => ⟨m, hm, rfl⟩, fun n _ hgone => hgone.1 hhost, rfl⟩
  rename_i hhost
  split
  · rename_i hnone
    refine ⟨fun m hm _ => ⟨m, hm, rfl⟩, fun n _ hgone => ?_, rfl⟩
    cases hnone.symm.trans hgone.2
  · rename_i id hid
    have hdeparts := removeMember_departs P rng h id msgMemberLeft
    rw [leaving_eq h hhost hid]
    split <;> rename_i heq <;> rw [heq] at hdeparts <;> exact hdeparts

/-- `/kick` removes the member its target resolves to. -/
theorem kicking_eq {target : MemberRef} {resolved : Member}
    (hresolve : a.resolveMember target = .ok resolved) :
    (fun i => i ≠ 0 ∧ ∃ m, a.resolveMember target = .ok m ∧ m.memberId = i) =
      fun i => i ≠ 0 ∧ i = resolved.memberId := by
  funext i
  simp [hresolve, eq_comm]

theorem onKick_departs (h : a.registry.Valid) (target : MemberRef) :
    Departs (fun i => i ≠ 0 ∧ ∃ m, a.resolveMember target = .ok m ∧ m.memberId = i) a
      (a.onKick P rng target).1 := by
  unfold onKick
  split
  · rename_i hresolve
    refine ⟨fun m hm _ => ⟨m, hm, rfl⟩, fun n _ ⟨_, m, hm, _⟩ => ?_, rfl⟩
    cases hresolve.symm.trans hm
  · rename_i resolved hresolve
    rw [kicking_eq hresolve]
    split
    · rename_i hnone
      exact ⟨fun m hm _ => ⟨m, hm, rfl⟩,
        fun n hn ⟨_, hid⟩ => List.find?_key_eq_none.mp hnone n hn hid, rfl⟩
    · rename_i member hmember
      split
      · rename_i hhost
        obtain ⟨hm, hid⟩ := h.byId_eq_some.mp hmember
        have hzero := (h.isHost_iff member hm).mp hhost
        exact ⟨fun m hm _ => ⟨m, hm, rfl⟩,
          fun n _ ⟨hpos, hnid⟩ => hpos (hnid.trans (hid.symm.trans hzero)), rfl⟩
      · have hdeparts := removeMember_departs P rng h resolved.memberId msgMemberKicked
        split <;> rename_i heq <;> rw [heq] at hdeparts <;> exact hdeparts

theorem closeRoom_departs : Departs (fun _ => False) a a.closeRoom.1 := by
  unfold closeRoom
  split <;> exact .same rfl rfl

theorem beginEpochTransition_same (b : RoomActor) :
    (b.beginEpochTransition P rng).1.members = b.members ∧
      (b.beginEpochTransition P rng).1.timeoutRequests = b.timeoutRequests := by
  obtain ⟨key, wraps, -, heq⟩ | ⟨error, heq⟩ := beginEpochTransition_cases P rng b
  · rw [heq]
    exact ⟨rfl, rfl⟩
  · rw [heq]
    exact ⟨rfl, rfl⟩

theorem evict_requests (a : RoomActor) (ids : List MemberId) :
    (a.evict ids).1.timeoutRequests = a.timeoutRequests := by
  induction ids generalizing a with
  | nil => rfl
  | cons id rest ih =>
      unfold evict
      split
      · exact ih a
      · exact ih _

theorem onEpochTimeout_departs (h : a.registry.Valid) :
    Departs a.Late a (a.onEpochTimeout P rng).1 := by
  unfold onEpochTimeout
  split
  · rename_i hnone
    refine ⟨fun m hm _ => ⟨m, hm, rfl⟩, fun n _ ⟨pending, hpending, _⟩ => ?_, rfl⟩
    cases hnone.symm.trans hpending
  · rename_i pending hpending
    have hgone : ∀ id, a.Late id ↔
        a.timeouts.get .epochAcknowledgement ≤ a.now - pending.startedAt ∧ 0 ∉ pending.awaiting ∧
          id ∈ pending.awaiting := by
      intro id
      simp [Late, hpending]
    split
    · rename_i hearly
      exact ⟨fun m hm _ => ⟨m, hm, rfl⟩,
        fun n _ hlate => absurd ((hgone _).mp hlate).1 (Nat.not_le.mpr hearly), rfl⟩
    rename_i hlate
    dsimp only
    split
    · rename_i hhost
      have hclosed := closeRoom_departs (a := { a with pendingEpoch := none })
      exact ⟨fun m hm _ => hclosed.stays m hm not_false,
        fun n _ hlate => ((hgone _).mp hlate).2.1 hhost, hclosed.requests⟩
    · rename_i hhost
      let a₁ : RoomActor := { a with pendingEpoch := none }
      have hevict := evict_spec pending.awaiting a₁ h hhost
      have hrequests := evict_requests a₁ pending.awaiting
      have hdeparts : Departs a.Late a (a₁.evict pending.awaiting).1 := by
        refine ⟨fun m hm hstays => ⟨m, ?_, rfl⟩, fun n hn hnlate => ?_, hrequests⟩
        · rw [hevict.members, List.mem_filter]
          refine ⟨hm, decide_eq_true fun hmem => hstays ?_⟩
          exact (hgone _).mpr ⟨Nat.not_lt.mp hlate, hhost, ((hevict.gone _).mp hmem).1⟩
        · rw [hevict.members, List.mem_filter] at hn
          refine of_decide_eq_true hn.2 ((hevict.gone _).mpr ?_)
          exact ⟨((hgone _).mp hnlate).2.2, n, hn.1, rfl⟩
      obtain ⟨hmembers, hkept⟩ := beginEpochTransition_same P rng (a₁.evict pending.awaiting).1
      split <;> rename_i heq <;> rw [heq] at hmembers hkept
      · exact ⟨by rw [hmembers]; exact hdeparts.stays, by rw [hmembers]; exact hdeparts.left,
          hkept.trans hdeparts.requests⟩
      · have hsame := registry_queueMembersGone P ‹RoomActor›
          (a₁.evict pending.awaiting).2.2 msgMemberLeft
        have hmembers' := (congrArg Registry.members hsame).trans hmembers
        have hkept' := (congrArg Registry.timeoutRequests hsame).trans hkept
        refine ⟨?_, ?_, hkept'.trans hdeparts.requests⟩
        · intro m hm hstays
          obtain ⟨n, hn, hnm⟩ := hdeparts.stays m hm hstays
          exact ⟨n, (congrArg MemberTable.members hmembers').symm ▸ hn, hnm⟩
        · intro n hn
          exact hdeparts.left n ((congrArg MemberTable.members hmembers') ▸ hn)

/-- A lost connection takes the requests of its member with it. -/
theorem onConnectionLost_keeps (h : a.registry.Valid) (connection : ConnectionId) :
    Keeps a (a.onConnectionLost P rng connection).1 := by
  unfold onConnectionLost
  split
  · exact closeRoom_departs.keeps
  let a₁ : RoomActor := { a with
    timeoutRequests := a.timeoutRequests.filter fun request => request.connection ≠ connection }
  have hvalid : a₁.registry.Valid := (h.dropTimeoutRequests List.filter_sublist).valid
  have hkept : ∀ t ∈ a₁.timeoutRequests, t ∈ a.timeoutRequests ∧ t.connection ≠ connection := by
    intro t ht
    obtain ⟨hold, hne⟩ := List.mem_filter.mp ht
    exact ⟨hold, of_decide_eq_true hne⟩
  dsimp only
  split
  · rename_i id hid
    have hdeparts := removeMember_departs P rng (a := a₁) hvalid id msgMemberLeft
    have howner : ∀ m ∈ a.members.members, m.memberId = id → m.connection = connection := by
      intro m hm hmid
      obtain hknown | ⟨-, hknown⟩ := Option.or_eq_some_iff.mp hid
      · obtain ⟨n, hn, hconn, hnid⟩ := h.entry_member connection id hknown
        rw [h.eq_of_memberId hm hn (hmid.trans hnid.symm), hconn]
      · obtain ⟨n, hfind, hnid⟩ := Option.map_eq_some_iff.mp hknown
        rw [h.eq_of_memberId hm (List.mem_of_find?_eq_some hfind) (hmid.trans hnid.symm)]
        simpa using List.find?_some hfind
    have hkeeps : ∀ b : RoomActor, Departs (fun i => i ≠ 0 ∧ i = id) a₁ b → Keeps a b := by
      intro b hb
      refine ⟨fun t ht => .inr ?_⟩
      obtain ⟨hold, hne⟩ := hkept t (hb.requests ▸ ht)
      refine ⟨hold, fun m hm _ hconn => hb.stays m hm ?_⟩
      rintro ⟨-, hmid⟩
      exact hne (hconn.symm.trans (howner m hm hmid))
    split <;> rename_i heq <;> rw [heq] at hdeparts
    · exact hkeeps _ hdeparts
    · exact hkeeps _ ⟨hdeparts.stays, hdeparts.left, hdeparts.requests⟩
    · exact hkeeps _ ⟨hdeparts.stays, hdeparts.left, hdeparts.requests⟩
  · split
    · exact .withdrawn rfl fun t ht => (hkept t ht).1
    · split <;> exact .withdrawn rfl fun t ht => (hkept t ht).1

/-! ### Everything else -/

theorem onEpochAck_departs (connection : ConnectionId) (epoch : Nat) :
    Departs (fun _ => False) a (a.onEpochAck connection epoch).1 := by
  unfold onEpochAck
  split
  · exact .same rfl rfl
  · split
    · exact .same rfl rfl
    · split
      · exact .same rfl rfl
      · dsimp only
        split
        · exact .same rfl rfl
        · split <;> exact .same rfl rfl

theorem onJoinRequested_departs (connection : ConnectionId) (application : JoinApplication) :
    Departs (fun _ => False) a (a.onJoinRequested connection application).1 := by
  unfold onJoinRequested
  split
  · exact .same rfl rfl
  · split
    · exact .same rfl rfl
    · split
      · exact .same rfl rfl
      · split
        · exact .same rfl rfl
        · split <;> exact .same rfl rfl

theorem takeRequest_same (requestId : RequestId) :
    (a.takeRequest requestId).1.members = a.members ∧
      (a.takeRequest requestId).1.timeoutRequests = a.timeoutRequests := by
  unfold takeRequest
  split <;> exact ⟨rfl, rfl⟩

theorem admitMember_departs (connection : ConnectionId) (application : JoinApplication) :
    Departs (fun _ => False) a (a.admitMember P rng connection application).1 := by
  have hadd : ∀ m ∈ a.members.members, m ∈ (a.members.add connection application.nickname
      application.ed25519Pubkey application.x25519Pubkey (a.epoch + 1)).1.members := by
    intro m hm
    unfold MemberTable.add
    split
    · exact hm
    split
    · exact hm
    split
    · exact hm
    split
    · exact hm
    · exact List.mem_append_left _ hm
  unfold admitMember
  split
  · rename_i members member heq
    rw [heq] at hadd
    dsimp only
    obtain ⟨hmembers, hkept⟩ := beginEpochTransition_same P rng { a with
      members
      connections := ((a.connections.register connection).promote connection member.memberId).1 }
    split <;> rename_i hbegin <;> rw [hbegin] at hmembers hkept
    · exact ⟨fun m hm _ => ⟨m, hmembers ▸ hadd m hm, rfl⟩, fun _ _ h => h, hkept⟩
    · exact ⟨fun m hm _ => ⟨m, hmembers ▸ hadd m hm, rfl⟩, fun _ _ h => h, hkept⟩
  · rename_i heq
    rw [heq] at hadd
    exact ⟨fun m hm _ => ⟨m, hadd m hm, rfl⟩, fun _ _ h => h, rfl⟩

theorem onAccept_keeps (requestId : RequestId) : Keeps a (a.onAccept P rng requestId).1 := by
  unfold onAccept
  split
  · exact .withdrawn rfl fun t ht => List.mem_of_mem_eraseP ht
  · obtain ⟨hmembers, hkept⟩ := takeRequest_same (a := a) requestId
    generalize a.takeRequest requestId = taken at hmembers hkept
    obtain ⟨b, error | request⟩ := taken
    · exact .same hmembers hkept
    · have hdeparts := admitMember_departs P rng (a := b) request.connection request.application
      refine Departs.keeps ⟨?_, hdeparts.left, hdeparts.requests.trans hkept⟩
      exact fun m hm hnot => hdeparts.stays m (hmembers ▸ hm) hnot

theorem onReject_keeps (requestId : RequestId) : Keeps a (a.onReject requestId).1 := by
  unfold onReject
  split
  · exact .withdrawn rfl fun t ht => List.mem_of_mem_eraseP ht
  · obtain ⟨hmembers, hkept⟩ := takeRequest_same (a := a) requestId
    generalize a.takeRequest requestId = taken at hmembers hkept
    obtain ⟨b, error | request⟩ := taken
    · exact .same hmembers hkept
    · exact .same hmembers hkept

theorem onNewId_departs : Departs (fun _ => False) a (a.onNewId rng).1 := by
  unfold onNewId
  split <;> exact .same rfl rfl

theorem setPolicy_departs (policy : JoinPolicy) :
    Departs (fun _ => False) a (a.setPolicy P policy).1 := by
  unfold setPolicy
  cases policy <;> exact .same rfl rfl

theorem setColor_departs (id : MemberId) (color : ColorChoice) :
    Departs (fun _ => False) a { a with members := a.members.setColor id color } :=
  .none (a.members.map_uncolored_setColor id color) rfl

theorem onColor_departs (connection : ConnectionId) (color : ColorChoice) :
    Departs (fun _ => False) a (a.onColor connection color).1 := by
  unfold onColor
  split
  · exact setColor_departs _ color
  · split
    · exact setColor_departs 0 color
    · exact .same rfl rfl

theorem whois_departs (connection : ConnectionId) (target : String) :
    Departs (fun _ => False) a (a.onMemberCommand P rng connection (.whois target)).1 := by
  unfold onMemberCommand
  dsimp only
  split <;> exact .same rfl rfl

/-! ### Chat -/

theorem onTimeoutRequest_keeps (h : a.registry.Valid) {connection : ConnectionId}
    {senderId : MemberId} (hknown : a.connections.memberId connection = some senderId)
    (plaintext : Bytes) : Keeps a (a.onTimeoutRequest connection senderId plaintext).1 := by
  unfold onTimeoutRequest
  split
  · exact .same rfl rfl
  split
  · exact .same rfl rfl
  dsimp only
  split
  · exact .same rfl rfl
  split
  · exact .same rfl rfl
  · obtain ⟨m, hm, hconn, hid⟩ := h.entry_member connection senderId hknown
    have hfind := h.byId_eq_some.mpr ⟨hm, hid⟩
    refine ⟨fun t ht => ?_⟩
    obtain hold | hnew := List.mem_append.mp ht
    · exact .inr ⟨hold, fun m hm _ _ => ⟨m, hm, rfl⟩⟩
    · rw [List.mem_singleton] at hnew
      subst hnew
      refine .inl ⟨m, hm, hid, hconn, ?_⟩
      change m.nickname = ((a.members.byId senderId).map Member.nickname).getD ""
      rw [show a.members.byId senderId = some m from hfind]
      rfl

theorem onPlaintext_keeps (h : a.registry.Valid) {connection : ConnectionId}
    {senderId : MemberId} (hknown : a.connections.memberId connection = some senderId)
    (messageType : UInt8) (envelope : EncryptedEnvelope) (plaintext : Bytes) :
    Keeps a (a.onPlaintext connection senderId messageType envelope plaintext).1 := by
  unfold onPlaintext
  split
  · split
    · split
      · exact .same rfl rfl
      · exact (setColor_departs senderId _).keeps
    · exact .same rfl rfl
  split
  · exact onTimeoutRequest_keeps h hknown plaintext
  split
  · split
    · exact .same rfl rfl
    · split <;> exact .same rfl rfl
  · split
    · exact .same rfl rfl
    · split <;> exact .same rfl rfl

/-- Requests and members are all that `Keeps` looks at. -/
theorem Keeps.congr {a' : RoomActor} (h : Keeps a' b) (hmembers : a'.members = a.members)
    (hrequests : a'.timeoutRequests = a.timeoutRequests) : Keeps a b := by
  refine ⟨fun t ht => ?_⟩
  have hkept := h.requests t ht
  rwa [hmembers, hrequests] at hkept

theorem onEnvelope_keeps (h : a.registry.Valid) {connection : ConnectionId}
    {senderId : MemberId} (hknown : a.connections.memberId connection = some senderId)
    (messageType : UInt8) (envelope : EncryptedEnvelope) :
    Keeps a (a.onEnvelope P connection senderId messageType envelope).1 := by
  unfold onEnvelope
  split
  · exact .same rfl rfl
  split
  · exact .same rfl rfl
  split
  · exact .same rfl rfl
  · rename_i plaintext _
    exact (onPlaintext_keeps (a := { a with
      chatReplay := (a.chatReplay.accept senderId a.epoch envelope.senderSequence).1 }) h hknown
      messageType envelope plaintext).congr rfl rfl

theorem onRateLimited_departs (h : a.registry.Valid) (connection : ConnectionId) (id : MemberId)
    (abusive : Bool) :
    Departs (fun i => abusive = true ∧ i ≠ 0 ∧ i = id) a
      (a.onRateLimited P rng connection id abusive).1 := by
  unfold onRateLimited
  split
  · rename_i hfail
    cases hfail
  · dsimp only
    split
    · rename_i habusive
      simp only [habusive, true_and]
      have hdeparts := removeMember_departs P rng h id msgMemberKicked
      split <;> rename_i heq <;> rw [heq] at hdeparts <;> exact hdeparts
    · rename_i habusive
      exact ⟨fun m hm _ => ⟨m, hm, rfl⟩, fun n _ hgone => habusive hgone.1, rfl⟩

/-- An allowed message is no violation. -/
theorem calm_of_allowed (id : MemberId) (h : (a.chargeRateLimit id).2.1 = true) :
    (a.chargeRateLimit id).2.2 = false := by
  simp only [chargeRateLimit] at h ⊢
  rw [h]
  rfl

/-- The sender of a charged message abuses the room when its bucket says so. -/
theorem abuses_iff {connection : ConnectionId} {messageType : UInt8} {envelope : EncryptedEnvelope}
    {senderId : MemberId} (htype : isChatType messageType = true)
    (hchanged : messageType ≠ msgTimeoutChanged)
    (hknown : a.connections.memberId connection = some senderId)
    (hid : envelope.senderId = senderId) (id : MemberId) :
    a.Abuses connection messageType envelope id ↔
      (a.chargeRateLimit senderId).2.2 = true ∧ id ≠ 0 ∧ id = senderId := by
  constructor
  · rintro ⟨-, -, hne, hmember, -, habusive⟩
    obtain rfl := Option.some_inj.mp (hmember.symm.trans hknown)
    exact ⟨habusive, hne, rfl⟩
  · rintro ⟨habusive, hne, rfl⟩
    exact ⟨htype, hchanged, hne, hknown, hid, habusive⟩

/-- A message sorts its sender out only when it makes the sender abusive. -/
theorem onChatReceived_departs (h : a.registry.Valid) (connection : ConnectionId)
    (messageType : UInt8) (envelope : EncryptedEnvelope) :
    Keeps a (a.onChatReceived P rng connection messageType envelope).1 ∧
        (∀ id, ¬ a.Abuses connection messageType envelope id) ∨
      Departs (a.Abuses connection messageType envelope) a
        (a.onChatReceived P rng connection messageType envelope).1 := by
  unfold onChatReceived
  split
  · rename_i htype
    exact .inl ⟨(.same rfl rfl), fun id habuses => htype habuses.1⟩
  rename_i htype
  rw [not_not] at htype
  split
  · rename_i hnone
    refine .inl ⟨(.same rfl rfl), fun id habuses => ?_⟩
    cases hnone.symm.trans habuses.2.2.2.1
  rename_i senderId hknown
  have hsender : ∀ {id}, a.Abuses connection messageType envelope id → id = senderId := by
    intro id habuses
    exact Option.some_inj.mp (habuses.2.2.2.1.symm.trans hknown)
  split
  · rename_i hne
    refine .inl ⟨(.same rfl rfl), fun id habuses => hne ?_⟩
    rw [← hsender habuses]
    exact habuses.2.2.2.2.1
  rename_i hid
  rw [not_not] at hid
  split
  · rename_i hmember
    obtain ⟨m, hm, -, hmid⟩ := h.entry_member connection senderId hknown
    rw [show a.members.byId senderId = some m from h.byId_eq_some.mpr ⟨hm, hmid⟩] at hmember
    cases hmember
  split
  · rename_i hchanged
    refine .inl ⟨onEnvelope_keeps P h hknown messageType envelope, fun id habuses => ?_⟩
    exact habuses.2.1 hchanged
  rename_i hchanged
  generalize hcharge : a.chargeRateLimit senderId = charge
  obtain ⟨b, allowed, abusive⟩ := charge
  have hb : b.registry = a.registry := (congrArg (fun c => c.1.registry) hcharge).symm
  have habusive : ∀ id, a.Abuses connection messageType envelope id ↔
      abusive = true ∧ id ≠ 0 ∧ id = senderId := by
    intro id
    rw [abuses_iff htype hchanged hknown hid, hcharge]
  have hvalid : b.registry.Valid := by rwa [hb]
  have hmembers : b.members = a.members := congrArg Registry.members hb
  have hrequests : b.timeoutRequests = a.timeoutRequests := congrArg Registry.timeoutRequests hb
  have hconn : b.connections = a.connections := congrArg Registry.connections hb
  dsimp only
  split
  · rename_i hallowed
    refine .inl ⟨(onEnvelope_keeps P hvalid (by rwa [hconn]) messageType envelope).congr
      hmembers hrequests, fun id habuses => ?_⟩
    have hcalm := calm_of_allowed (a := a) senderId (by rw [hcharge]; exact hallowed)
    rw [hcharge] at hcalm
    dsimp only at hcalm
    rw [((habusive id).mp habuses).1] at hcalm
    cases hcalm
  · have hdeparts := onRateLimited_departs P rng hvalid connection senderId abusive
    refine .inr ⟨fun m hm hnot => ?_, fun n hn habuses => ?_, hdeparts.requests.trans hrequests⟩
    · exact hdeparts.stays m (hmembers ▸ hm) fun hgone => hnot ((habusive _).mpr hgone)
    · exact hdeparts.left n hn ((habusive _).mp habuses)

/-! ### Events -/

theorem AtRest.of_open (hopen : ¬ (a.state = .closing ∨ a.state = .destroyed))
    (h : a.state ≠ .epochTransition) : a.AtRest :=
  ⟨fun hclosing => hopen (.inl hclosing), fun hdestroyed => hopen (.inr hdestroyed), h⟩

/-- A closed room expels nobody. -/
theorem not_expels_closed (hclosed : a.state = .closing ∨ a.state = .destroyed)
    (event : RoomEvent) (id : MemberId) : ¬ a.Expels event id := by
  have hsettled : ¬ a.AtRest := fun h => hclosed.elim h.1 h.2.1
  have htransition : a.state ≠ .epochTransition := by
    obtain h | h := hclosed <;> rw [h] <;> nofun
  intro hexpels
  cases event with
  | hostCommand command =>
      cases command with
      | kick target => exact hsettled hexpels.1
      | newId | reqOn | reqOff | requests | accept _ | reject _ => exact hexpels
  | memberCommand connection command =>
      cases command with
      | leave => exact hsettled hexpels.1
      | color _ | list | whois _ => exact hexpels
  | memberLeft memberId => exact hsettled hexpels.1
  | chatReceived connection messageType envelope =>
      exact hclosed.elim hexpels.1 hexpels.2.1
  | timeoutExpired connection kind => exact htransition hexpels.1
  | epochMaintenance => exact htransition hexpels.1
  | _ => exact hexpels

/-- An event expels members and leaves the requests, or every request left keeps its owner. -/
inductive Sorts (a : RoomActor) (event : RoomEvent) (b : RoomActor) : Prop
  | expelled {gone : MemberId → Prop} : Departs gone a b → (∀ id, a.Expels event id ↔ gone id) →
      Sorts a event b
  | kept : Keeps a b → (∀ id, ¬ a.Expels event id) → Sorts a event b

theorem Sorts.owned_iff {event : RoomEvent} (h : Sorts a event b) (ha : a.RequestsOwned) :
    b.RequestsOwned ↔ ∀ t ∈ a.timeoutRequests, ¬ a.Expels event t.memberId := by
  cases h with
  | expelled hdeparts hgone =>
      rw [hdeparts.owned_iff ha]
      exact forall₂_congr fun t _ => not_congr (hgone t.memberId).symm
  | kept hkeeps hnone => exact ⟨fun _ t _ => hnone t.memberId, fun _ => hkeeps.owned ha⟩

theorem onChatReceived_sorts (h : a.registry.Valid)
    (hopen : ¬ (a.state = .closing ∨ a.state = .destroyed)) {connection : ConnectionId}
    {messageType : UInt8} {envelope : EncryptedEnvelope}
    (hacked : a.state = .epochTransition → a.memberHasAckedPendingEpoch connection = true) :
    Sorts a (.chatReceived connection messageType envelope)
      (a.onChatReceived P rng connection messageType envelope).1 := by
  obtain ⟨hkeeps, hnone⟩ | hdeparts :=
    onChatReceived_departs P rng h connection messageType envelope
  · exact .kept hkeeps fun id hexpels => hnone id hexpels.2.2.2
  · refine .expelled hdeparts fun id => ⟨fun hexpels => hexpels.2.2.2, fun habuses => ?_⟩
    exact ⟨fun hs => hopen (.inl hs), fun hs => hopen (.inr hs), hacked, habuses⟩

theorem handleInTransition_sorts (h : a.registry.Valid)
    (hopen : ¬ (a.state = .closing ∨ a.state = .destroyed)) (hstate : a.state = .epochTransition)
    (event : RoomEvent) : Sorts a event (a.handleInTransition P rng event).1 := by
  have hunsettled : ¬ a.AtRest := fun hsettled => hsettled.2.2 hstate
  cases event with
  | epochAck connection epoch =>
      exact .kept (onEpochAck_departs connection epoch).keeps fun _ hexpels => hexpels
  | connectionLost connection =>
      exact .kept (onConnectionLost_keeps P rng h connection)
        fun _ hexpels => hexpels
  | timeoutExpired connection kind =>
      unfold handleInTransition
      dsimp only
      split
      · rename_i hkind
        refine .expelled (onEpochTimeout_departs P rng h) fun id => ?_
        exact ⟨fun hexpels => hexpels.2.2, fun hlate => ⟨hstate, hkind, hlate⟩⟩
      · rename_i hkind
        refine .kept (onConnectionLost_keeps P rng h connection) fun id => ?_
        exact fun hexpels => hkind hexpels.2.1
  | epochMaintenance =>
      refine .expelled (onEpochTimeout_departs P rng h) fun id => ?_
      exact ⟨fun hexpels => hexpels.2, fun hlate => ⟨hstate, hlate⟩⟩
  | closeRequested | torStopped =>
      exact .kept closeRoom_departs.keeps fun _ hexpels => hexpels
  | hostCommand command =>
      refine .kept ?_ fun id hexpels => ?_
      · cases command <;> exact .same rfl rfl
      · cases command with
        | kick target => exact hunsettled hexpels.1
        | newId | reqOn | reqOff | requests | accept _ | reject _ => exact hexpels
  | chatReceived connection messageType envelope =>
      unfold handleInTransition
      dsimp only
      split
      · rename_i hacked
        exact onChatReceived_sorts P rng h hopen fun _ => hacked
      · rename_i hacked
        refine .kept ?_ fun id hexpels => hacked (hexpels.2.2.1 hstate)
        unfold rejectDuringTransition
        split
        · exact .same rfl rfl
        · split <;> exact .same rfl rfl
  | memberCommand connection command =>
      refine .kept (.same rfl rfl) fun id hexpels => ?_
      cases command with
      | leave => exact hunsettled hexpels.1
      | color _ | list | whois _ => exact hexpels
  | memberLeft memberId =>
      refine .kept (.same rfl rfl) fun id hexpels => ?_
      exact hunsettled hexpels.1
  | clientConnected _ | passwordVerified _ | joinRequested _ _ | hostAccepted _ | hostRejected _ =>
      exact .kept (.same rfl rfl) fun _ hexpels => hexpels

theorem handleSettled_sorts (h : a.registry.Valid) (hsettled : a.AtRest) (event : RoomEvent) :
    Sorts a event (a.handleSettled P rng event).1 := by
  have hstate := hsettled.2.2
  cases event with
  | clientConnected _ | passwordVerified _ =>
      exact .kept (.same rfl rfl) fun _ hexpels => hexpels
  | epochAck connection epoch =>
      exact .kept (onEpochAck_departs connection epoch).keeps fun _ hexpels => hexpels
  | joinRequested connection application =>
      exact .kept (onJoinRequested_departs connection application).keeps
        fun _ hexpels => hexpels
  | hostAccepted requestId =>
      exact .kept (onAccept_keeps P rng requestId) fun _ hexpels => hexpels
  | hostRejected requestId =>
      exact .kept (onReject_keeps requestId) fun _ hexpels => hexpels
  | connectionLost connection =>
      exact .kept (onConnectionLost_keeps P rng h connection)
        fun _ hexpels => hexpels
  | timeoutExpired connection kind =>
      refine .kept (onConnectionLost_keeps P rng h connection) fun id => ?_
      exact fun hexpels => hstate hexpels.1
  | epochMaintenance =>
      refine .kept (.same rfl rfl) fun id hexpels => ?_
      exact hstate hexpels.1
  | memberLeft memberId =>
      refine .expelled (onMemberLeft_departs P rng h memberId) fun id => ?_
      exact ⟨fun hexpels => ⟨hexpels.2.1, hexpels.2.2.symm⟩,
        fun hgone => ⟨hsettled, hgone.1, hgone.2.symm⟩⟩
  | chatReceived connection messageType envelope =>
      exact onChatReceived_sorts P rng h (fun hclosed => hclosed.elim hsettled.1 hsettled.2.1)
        fun htransition => absurd htransition hstate
  | torStopped | closeRequested =>
      exact .kept closeRoom_departs.keeps fun _ hexpels => hexpels
  | hostCommand command =>
      cases command with
      | kick target =>
          refine .expelled (onKick_departs P rng h target) fun id => ?_
          exact ⟨fun hexpels => hexpels.2, fun hgone => ⟨hsettled, hgone⟩⟩
      | newId => exact .kept (onNewId_departs rng).keeps fun _ hexpels => hexpels
      | reqOn =>
          exact .kept (setPolicy_departs P .opened).keeps fun _ hexpels => hexpels
      | reqOff =>
          exact .kept (setPolicy_departs P .locked).keeps fun _ hexpels => hexpels
      | requests => exact .kept (.same rfl rfl) fun _ hexpels => hexpels
      | accept requestId =>
          exact .kept (onAccept_keeps P rng requestId) fun _ hexpels => hexpels
      | reject requestId =>
          exact .kept (onReject_keeps requestId) fun _ hexpels => hexpels
  | memberCommand connection command =>
      cases command with
      | leave =>
          refine .expelled (onLeave_departs P rng h connection) fun id => ?_
          exact ⟨fun hexpels => hexpels.2, fun hgone => ⟨hsettled, hgone⟩⟩
      | color color =>
          exact .kept (onColor_departs connection color).keeps
            fun _ hexpels => hexpels
      | list => exact .kept (.same rfl rfl) fun _ hexpels => hexpels
      | whois target =>
          exact .kept (whois_departs P rng connection target).keeps
            fun _ hexpels => hexpels

theorem handleEventAt_sorts (h : a.registry.Valid) (event : RoomEvent) (now : Duration) :
    Sorts { a with now } event (a.handleEventAt P rng event now).1 := by
  unfold handleEventAt
  dsimp only
  split
  · rename_i hclosed
    exact .kept (.same rfl rfl) (not_expels_closed (a := { a with now }) hclosed event)
  rename_i hopen
  split
  · rename_i hstate
    exact handleInTransition_sorts P rng (a := { a with now }) h hopen hstate event
  · rename_i hstate
    exact handleSettled_sorts P rng (a := { a with now }) h (.of_open hopen hstate) event

section
variable {P} {setup : Setup} {a₀ : RoomActor} {started : List RoomAction} {past : Past}

theorem Started.requestsOwned (hstart : Started P setup a₀ started) : a₀.RequestsOwned := by
  obtain ⟨nickname, sessionId, token, key, wraps, hopening⟩ := hstart.opening
  rw [hopening.actor]
  exact fun t ht => nomatch ht

/-- Every pending timeout request belongs to a current member in every state of a run, if and only
if no step removed the owner of one otherwise than by its lost connection. -/
theorem requests_owned_iff (hstart : Started P setup a₀ started)
    (run : Run P Unconstrained a₀ past a) :
    (∀ entry ∈ past, entry.after.RequestsOwned) ↔
      ∀ entry ∈ past, ∀ t ∈ entry.before.timeoutRequests,
        ¬ Expels { entry.before with now := entry.input.now } entry.input.event t.memberId := by
  have hboth : a₀.RequestsOwned ∧ ((∀ entry ∈ past, entry.after.RequestsOwned) ↔
      ∀ entry ∈ past, ∀ t ∈ entry.before.timeoutRequests,
        ¬ Expels { entry.before with now := entry.input.now } entry.input.event t.memberId) ∧
      ((∀ entry ∈ past, entry.after.RequestsOwned) → a.RequestsOwned) := by
    induction run with
    | start => exact ⟨hstart.requestsOwned, by simp, fun _ => hstart.requestsOwned⟩
    | @step past a input run _ ih =>
        obtain ⟨hfirst, hiff, hlast⟩ := ih
        refine ⟨hfirst, ?_, fun hall => hall _ (.head _)⟩
        have hstep (howned : a.RequestsOwned) :=
          (handleEventAt_sorts P input.rng (Run.valid hstart.valid run) input.event
            input.now).owned_iff howned
        rw [List.forall_mem_cons, List.forall_mem_cons]
        constructor
        · rintro ⟨hafter, hpast⟩
          exact ⟨(hstep (hlast hpast)).mp hafter, hiff.mp hpast⟩
        · rintro ⟨hafter, hpast⟩
          have howned := hiff.mpr hpast
          exact ⟨(hstep (hlast howned)).mpr hafter, howned⟩
  exact hboth.2.1

end

end RoomActor

/-! ### The symbolic room -/

namespace Symbolic
open RoomActor

/-- The guest's request for messages that last half a minute, sealed for epoch 2. -/
def timeoutRequest : EncryptedEnvelope :=
  ⟨2, 1, 1, Vector.replicate 24 11,
    encrypt (Vector.replicate 32 11) (List.replicate 7 0 ++ [30]), guest.sign primitives []⟩

/-- The guest joins and asks, and then something ends its membership. -/
def asked (departure : RoomEvent) : Past × RoomActor :=
  script primitives room <|
    [.epochAck 0 1, .clientConnected 1, .passwordVerified 1, .joinRequested 1 application,
      .hostAccepted 0, .epochAck 1 2, .epochAck 0 2,
      .chatReceived 1 msgTimeoutRequest timeoutRequest, departure].map
      fun event => ⟨event, 0, rng 11⟩

theorem asked_run (departure : RoomEvent) :
    Run primitives Unconstrained room (asked departure).1 (asked departure).2 :=
  unconstrained_script room _

end Symbolic

namespace RoomActor
open Symbolic

/-- A lost connection withdraws the request. -/
theorem requests_owned_iff_lost :
    (asked (.connectionLost 1)).2.timeoutRequests = [] ∧
      ∀ entry ∈ (asked (.connectionLost 1)).1, ∀ t ∈ entry.before.timeoutRequests,
        ¬ Expels { entry.before with now := entry.input.now } entry.input.event t.memberId :=
  ⟨by decide +kernel,
    (requests_owned_iff room_started (asked_run (.connectionLost 1))).mp (by decide +kernel)⟩

/-- A kick does not. -/
theorem kicked_request_stays :
    ∃ past a, Run primitives Unconstrained room past a ∧ ¬ a.RequestsOwned :=
  ⟨_, _, asked_run (.hostCommand (.kick (.id 1))), by decide +kernel⟩

end RoomActor

end Veilroom
