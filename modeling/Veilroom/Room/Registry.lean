import Veilroom.Room.Actor

/-!
Consistency of the member table, the connection registry and the two request
queues.

`Registry` is the part of the actor these four structures make up. Each way the
actor changes it keeps `Registry.Valid` and only moves `Later`; which handler
makes which change is `Veilroom.Room.RegistrySteps`.
-/
namespace Veilroom

/-- The part of the actor that says who is known to the room and who is waiting. -/
structure Registry where
  members : MemberTable
  connections : Connections
  requests : JoinRequestQueue
  timeoutRequests : List PendingTimeoutRequest
  policy : JoinPolicy
  hostConnection : ConnectionId

def RoomActor.registry (a : RoomActor) : Registry :=
  ⟨a.members, a.connections, a.requests, a.timeoutRequests, a.policy, a.hostConnection⟩

/-- Two members that share nothing that identifies them. -/
structure Member.Apart (m n : Member) : Prop where
  memberId : m.memberId ≠ n.memberId
  connection : m.connection ≠ n.connection
  nickname : m.nickname ≠ n.nickname
  ed25519Pubkey : m.ed25519Pubkey ≠ n.ed25519Pubkey
  x25519Pubkey : m.x25519Pubkey ≠ n.x25519Pubkey

namespace Registry

/-- The ids of the requests `/accept` and `/reject` may name. -/
def requestIds (r : Registry) : List RequestId :=
  r.requests.requests.map JoinRequest.id ++ r.timeoutRequests.map PendingTimeoutRequest.requestId

structure Valid (r : Registry) : Prop where
  apart : r.members.members.Pairwise Member.Apart
  host : ∃ m ∈ r.members.members, m.memberId = 0 ∧ m.connection = r.hostConnection
  isHost_iff : ∀ m ∈ r.members.members, m.isHost = true ↔ m.memberId = 0
  /-- The host is added whatever the limit. -/
  within_limit : r.members.members.length ≤ max r.members.limit 1
  next_pos : 0 < r.members.nextId
  id_lt : ∀ m ∈ r.members.members, m.memberId < r.members.nextId
  member_entry : ∀ m ∈ r.members.members, r.connections.memberId m.connection = some m.memberId
  entry_member : ∀ c id, r.connections.memberId c = some id →
    ∃ m ∈ r.members.members, m.connection = c ∧ m.memberId = id
  request_entry : ∀ q ∈ r.requests.requests, r.connections.requestId q.connection = some q.id
  entry_request : ∀ c id, r.connections.requestId c = some id →
    ∃ q ∈ r.requests.requests, q.connection = c ∧ q.id = id
  request_ids : r.requestIds.Nodup
  request_id_lt : ∀ id ∈ r.requestIds, id < r.requests.nextId
  locked : r.policy = .locked → r.requests.requests = []

/-- `r` may become `r'`: ids are only handed out upwards, and whatever carries an id that was
already handed out was already there. -/
structure Later (r r' : Registry) : Prop where
  nextId_le : r.members.nextId ≤ r'.members.nextId
  member : ∀ m' ∈ r'.members.members, m'.memberId < r.members.nextId →
    ∃ m ∈ r.members.members, m.withColor m'.color = m'
  nextRequestId_le : r.requests.nextId ≤ r'.requests.nextId
  request : ∀ q ∈ r'.requests.requests, q.id < r.requests.nextId → q ∈ r.requests.requests
  timeoutRequest : ∀ t ∈ r'.timeoutRequests, t.requestId < r.requests.nextId →
    t ∈ r.timeoutRequests

/-- What an event may bring to the registry from outside. -/
inductive Arrival
  | connection (connection : ConnectionId)
  | application (application : JoinApplication)

/-- One change of a valid registry; `new` is what it may have added. -/
structure Step (new : Option Arrival) (r r' : Registry) : Prop where
  valid : r'.Valid
  later : r.Later r'
  hostConnection : r'.hostConnection = r.hostConnection
  limit : r'.members.limit = r.members.limit
  known : ∀ c entry, r'.connections.get c = some entry →
    new = some (.connection c) ∨ ∃ entry', r.connections.get c = some entry'
  queued : ∀ q ∈ r'.requests.requests,
    new = some (.application q.application) ∨ q ∈ r.requests.requests
  /-- The connection of a member that left is forgotten. -/
  departed : ∀ m ∈ r.members.members, (∀ m' ∈ r'.members.members, m'.memberId ≠ m.memberId) →
    r'.connections.get m.connection = none

@[simp] theorem withColor_color (m : Member) : m.withColor m.color = m := rfl

theorem Later.refl (r : Registry) : r.Later r where
  nextId_le := Nat.le_refl _
  member m hm _ := ⟨m, hm, rfl⟩
  nextRequestId_le := Nat.le_refl _
  request _ hq _ := hq
  timeoutRequest _ ht _ := ht

theorem Later.trans {r s t : Registry} (h : r.Later s) (k : s.Later t) : r.Later t where
  nextId_le := Nat.le_trans h.nextId_le k.nextId_le
  member m hm hlt := by
    obtain ⟨n, hn, hcolor⟩ := k.member m hm (Nat.lt_of_lt_of_le hlt h.nextId_le)
    have hid : n.memberId = m.memberId := by rw [← hcolor]; rfl
    obtain ⟨o, ho, hcolor'⟩ := h.member n hn (by rw [hid]; exact hlt)
    refine ⟨o, ho, ?_⟩
    rw [← hcolor, ← hcolor']
    rfl
  nextRequestId_le := Nat.le_trans h.nextRequestId_le k.nextRequestId_le
  request q hq hlt := h.request q (k.request q hq (Nat.lt_of_lt_of_le hlt h.nextRequestId_le)) hlt
  timeoutRequest t ht hlt :=
    h.timeoutRequest t (k.timeoutRequest t ht (Nat.lt_of_lt_of_le hlt h.nextRequestId_le)) hlt

/-! ### What a valid registry says about lookups -/

section
variable {r : Registry} (h : r.Valid)
include h

theorem Valid.ids_nodup : (r.members.members.map Member.memberId).Nodup :=
  List.pairwise_map.mpr (h.apart.imp fun hmn => hmn.memberId)

theorem Valid.connections_nodup : (r.members.members.map Member.connection).Nodup :=
  List.pairwise_map.mpr (h.apart.imp fun hmn => hmn.connection)

theorem Valid.nicknames_nodup : (r.members.members.map Member.nickname).Nodup :=
  List.pairwise_map.mpr (h.apart.imp fun hmn => hmn.nickname)

theorem Valid.joinIds_nodup : (r.requests.requests.map JoinRequest.id).Nodup :=
  h.request_ids.of_append_left

theorem Valid.byId_eq_some {id : MemberId} {m : Member} :
    r.members.byId id = some m ↔ m ∈ r.members.members ∧ m.memberId = id :=
  List.find?_eq_some_of_nodup h.ids_nodup

theorem Valid.eq_of_memberId {m n : Member} (hm : m ∈ r.members.members)
    (hn : n ∈ r.members.members) (hid : m.memberId = n.memberId) : m = n :=
  List.inj_on_of_nodup_map h.ids_nodup hm hn hid

theorem Valid.eq_of_connection {m n : Member} (hm : m ∈ r.members.members)
    (hn : n ∈ r.members.members) (hc : m.connection = n.connection) : m = n :=
  List.inj_on_of_nodup_map h.connections_nodup hm hn hc

theorem Valid.connection_eq_host_iff {m : Member} (hm : m ∈ r.members.members) :
    m.connection = r.hostConnection ↔ m.memberId = 0 := by
  obtain ⟨host, hhost, hid, hconn⟩ := h.host
  constructor
  · intro hc
    rw [h.eq_of_connection hm hhost (hc.trans hconn.symm), hid]
  · intro hzero
    rw [h.eq_of_memberId hm hhost (hzero.trans hid.symm), hconn]

theorem Valid.requestId_of_member {m : Member} (hm : m ∈ r.members.members) :
    r.connections.requestId m.connection = none := by
  have hentry := h.member_entry m hm
  cases hreq : r.connections.requestId m.connection with
  | none => rfl
  | some id =>
      obtain ⟨entry, hget, hrole⟩ := Connections.memberId_eq_some.mp hentry
      obtain ⟨entry', hget', hrole'⟩ := Connections.requestId_eq_some.mp hreq
      rw [hget] at hget'
      cases hget'
      rw [hrole] at hrole'
      cases hrole'

end

/-! ### Steps -/

theorem Valid.same {r : Registry} (h : r.Valid) : Step none r r where
  valid := h
  later := .refl r
  hostConnection := rfl
  limit := rfl
  known _ entry hget := .inr ⟨entry, hget⟩
  queued _ hq := .inr hq
  departed m hm hgone := absurd rfl (hgone m hm)

theorem Step.trans {r s t : Registry} (hr : r.Valid) (h : Step none r s) (k : Step none s t) :
    Step none r t where
  valid := k.valid
  later := h.later.trans k.later
  hostConnection := k.hostConnection.trans h.hostConnection
  limit := k.limit.trans h.limit
  known c entry hget := by
    obtain hnew | ⟨entry', hget'⟩ := k.known c entry hget
    · cases hnew
    · exact h.known c entry' hget'
  queued q hq := (k.queued q hq).elim (fun hnew => nomatch hnew) (h.queued q)
  departed m hm hgone := by
    by_cases hs : ∃ n ∈ s.members.members, n.memberId = m.memberId
    · obtain ⟨n, hn, hid⟩ := hs
      obtain ⟨o, ho, hcolor⟩ := h.later.member n hn (by rw [hid]; exact hr.id_lt m hm)
      have hom : o = m := hr.eq_of_memberId ho hm (by rw [← hid, ← hcolor]; rfl)
      have hconn : n.connection = m.connection := by rw [← hcolor, hom]; rfl
      rw [← hconn]
      exact k.departed n hn fun m' hm' => hid ▸ hgone m' hm'
    · have hnone := h.departed m hm fun m' hm' hid => hs ⟨m', hm', hid⟩
      cases hget : t.connections.get m.connection with
      | none => rfl
      | some entry =>
          obtain hnew | ⟨entry', hget'⟩ := k.known _ entry hget
          · cases hnew
          · rw [hnone] at hget'
            cases hget'

end Registry

end Veilroom
