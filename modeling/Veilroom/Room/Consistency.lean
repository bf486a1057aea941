import Veilroom.Room.Scripts

/-!
Consistency of the tables over whole runs.

`RoomActor.Consistent` says for one state what `Registry.Valid` carries;
`NeverReused` compares an earlier state of a run with a later one. Nothing is
assumed of the generator, the keys or the order of events.
-/
namespace Veilroom
namespace RoomActor

/-- The member table, the connection registry and the two request queues agree. -/
structure Consistent (a : RoomActor) : Prop where
  /-- Members and member entries are the same pairs of connection and id. -/
  member_entry_iff : ∀ c id, a.connections.memberId c = some id ↔
    ∃ m ∈ a.members.members, m.connection = c ∧ m.memberId = id
  memberIds : (a.members.members.map Member.memberId).Nodup
  memberConnections : (a.members.members.map Member.connection).Nodup
  nicknames : (a.members.members.map Member.nickname).Nodup
  ed25519Pubkeys : (a.members.members.map Member.ed25519Pubkey).Nodup
  x25519Pubkeys : (a.members.members.map Member.x25519Pubkey).Nodup
  /-- Exactly one member is the host. -/
  host : ∃ m ∈ a.members.members, m.memberId = 0 ∧ m.connection = a.hostConnection ∧
    ∀ n ∈ a.members.members, n.isHost = true ↔ n = m
  within_limit : a.members.members.length ≤ a.members.limit
  memberId_lt : ∀ m ∈ a.members.members, m.memberId < a.members.nextId
  /-- Queued requests and pending entries are the same pairs of connection and request id. -/
  pending_entry_iff : ∀ c id, a.connections.requestId c = some id ↔
    ∃ q ∈ a.requests.requests, q.connection = c ∧ q.id = id
  requestIds : (a.requests.requests.map JoinRequest.id ++
    a.timeoutRequests.map PendingTimeoutRequest.requestId).Nodup
  locked : a.policy = .locked → a.requests.requests = []

/-- Between the earlier state `a` and the later state `b` no id was handed out again: who
carries an id of `a` in `b` is who carried it in `a`, and an id given up by then stays free. -/
structure NeverReused (a b : RoomActor) : Prop where
  member : ∀ m ∈ a.members.members, ∀ n ∈ b.members.members, n.memberId = m.memberId →
    n.uncolored = m.uncolored
  memberGone : ∀ id < a.members.nextId, (∀ m ∈ a.members.members, m.memberId ≠ id) →
    ∀ n ∈ b.members.members, n.memberId ≠ id
  joinRequest : ∀ q ∈ a.requests.requests, ∀ q' ∈ b.requests.requests, q'.id = q.id → q' = q
  timeoutRequest : ∀ t ∈ a.timeoutRequests, ∀ t' ∈ b.timeoutRequests,
    t'.requestId = t.requestId → t' = t
  joinId : ∀ q ∈ a.requests.requests, ∀ t ∈ b.timeoutRequests, t.requestId ≠ q.id
  timeoutId : ∀ t ∈ a.timeoutRequests, ∀ q ∈ b.requests.requests, q.id ≠ t.requestId
  requestGone : ∀ id < a.requests.nextId, id ∉ a.registry.requestIds →
    id ∉ b.registry.requestIds

variable {a b : RoomActor}

theorem consistent_of_valid (h : a.registry.Valid) (hlimit : 1 ≤ a.members.limit) :
    a.Consistent where
  member_entry_iff c id := by
    refine ⟨h.entry_member c id, ?_⟩
    rintro ⟨m, hm, rfl, rfl⟩
    exact h.member_entry m hm
  memberIds := h.ids_nodup
  memberConnections := h.connections_nodup
  nicknames := h.nicknames_nodup
  ed25519Pubkeys := List.pairwise_map.mpr (h.apart.imp fun hmn => hmn.ed25519Pubkey)
  x25519Pubkeys := List.pairwise_map.mpr (h.apart.imp fun hmn => hmn.x25519Pubkey)
  host := by
    obtain ⟨m, hm, hzero, hconn⟩ := h.host
    refine ⟨m, hm, hzero, hconn, fun n hn => ?_⟩
    rw [h.isHost_iff n hn]
    constructor
    · intro hid
      exact h.eq_of_memberId hn hm (hid.trans hzero.symm)
    · rintro rfl
      exact hzero
  within_limit := by
    have hle := h.within_limit
    rwa [show a.registry.members = a.members from rfl, Nat.max_eq_left hlimit] at hle
  memberId_lt := h.id_lt
  pending_entry_iff c id := by
    refine ⟨h.entry_request c id, ?_⟩
    rintro ⟨q, hq, rfl, rfl⟩
    exact h.request_entry q hq
  requestIds := h.request_ids
  locked := h.locked

private theorem request_mem {r : Registry} {q : JoinRequest} (hq : q ∈ r.requests.requests) :
    q.id ∈ r.requestIds :=
  List.mem_append_left _ (List.mem_map_of_mem hq)

private theorem timeout_mem {r : Registry} {t : PendingTimeoutRequest}
    (ht : t ∈ r.timeoutRequests) : t.requestId ∈ r.requestIds :=
  List.mem_append_right _ (List.mem_map_of_mem ht)

/-- In a valid registry a join request and a timeout request never share an id. -/
private theorem join_ne_timeout {r : Registry} (h : r.Valid) {q : JoinRequest}
    (hq : q ∈ r.requests.requests) {t : PendingTimeoutRequest} (ht : t ∈ r.timeoutRequests) :
    q.id ≠ t.requestId :=
  (List.nodup_append.mp h.request_ids).2.2 _ (List.mem_map_of_mem hq) _ (List.mem_map_of_mem ht)

theorem neverReused_of_later (ha : a.registry.Valid) (h : a.registry.Later b.registry) :
    NeverReused a b where
  member m hm n hn hid := by
    obtain ⟨m', hm', hcolor⟩ := h.member n hn (by rw [hid]; exact ha.id_lt m hm)
    have hmm : m' = m := ha.eq_of_memberId hm' hm (by rw [← hid, ← hcolor]; rfl)
    rw [← hcolor, hmm]
    rfl
  memberGone id hlt hgone n hn hid := by
    obtain ⟨m, hm, hcolor⟩ := h.member n hn (by rw [hid]; exact hlt)
    refine hgone m hm ?_
    rw [← hid, ← hcolor]
    rfl
  joinRequest q hq q' hq' hid := by
    have hold := h.request q' hq' (by rw [hid]; exact ha.request_id_lt _ (request_mem hq))
    exact List.inj_on_of_nodup_map ha.joinIds_nodup hold hq hid
  timeoutRequest t ht t' ht' hid := by
    have hold := h.timeoutRequest t' ht'
      (by rw [hid]; exact ha.request_id_lt _ (timeout_mem ht))
    exact List.inj_on_of_nodup_map ha.request_ids.of_append_right hold ht hid
  joinId q hq t ht hid := by
    have hold := h.timeoutRequest t ht
      (by rw [hid]; exact ha.request_id_lt _ (request_mem hq))
    exact join_ne_timeout ha hq hold hid.symm
  timeoutId t ht q hq hid := by
    have hold := h.request q hq (by rw [hid]; exact ha.request_id_lt _ (timeout_mem ht))
    exact join_ne_timeout ha hold ht hid
  requestGone id hlt hgone hmem := by
    refine hgone ?_
    obtain hmem | hmem := List.mem_append.mp hmem
    · obtain ⟨q, hq, rfl⟩ := List.mem_map.mp hmem
      exact request_mem (h.request q hq hlt)
    · obtain ⟨t, ht, rfl⟩ := List.mem_map.mp hmem
      exact timeout_mem (h.timeoutRequest t ht hlt)

section
variable {P : Primitives} {setup : Setup} {a₀ : RoomActor} {actions : List RoomAction}
variable {past : Past}

/-- The limit of the table is the configured one. -/
theorem Run.limit (hstart : Started P setup a₀ actions) (run : Run P Unconstrained a₀ past a) :
    a.members.limit = setup.limits.maxActiveMembers := by
  have h₀ := Started.valid hstart
  refine run.invariant (fun _ a => a.members.limit = setup.limits.maxActiveMembers) ?_ ?_
  · obtain ⟨nickname, sessionId, token, key, wraps, hopening⟩ := hstart.opening
    rw [hopening.actor]
    rfl
  · intro past a input run ih _
    exact (handleEventAt_effect P input.rng (Run.valid h₀ run) input.event
      input.now).step.limit.trans ih

/-- Every state a run reaches is consistent, and reuses no id of any state before it. -/
theorem consistent_of_run (hstart : Started P setup a₀ actions)
    (hlimit : 1 ≤ setup.limits.maxActiveMembers) (run : Run P Unconstrained a₀ past a) :
    a.Consistent ∧ a.members.limit = setup.limits.maxActiveMembers ∧
      ∀ entry ∈ past, NeverReused entry.before a ∧ NeverReused entry.after a := by
  have h₀ := Started.valid hstart
  have hlim := Run.limit hstart run
  refine ⟨consistent_of_valid (Run.valid h₀ run) (by rwa [hlim]), hlim, ?_⟩
  intro entry hentry
  obtain ⟨newer, older, rfl⟩ := List.append_of_mem hentry
  obtain ⟨before, -, -, after⟩ := run.split
  have hlater := Run.registryLater h₀ run hentry
  exact ⟨neverReused_of_later (Run.valid h₀ before) hlater.1,
    neverReused_of_later (Run.valid h₀ after) hlater.2⟩

theorem consistent_of_run_visit :
    Symbolic.visited.2.Consistent ∧
      Symbolic.visited.2.members.limit = Symbolic.setup.limits.maxActiveMembers ∧
      ∀ entry ∈ Symbolic.visited.1, NeverReused entry.before Symbolic.visited.2 ∧
        NeverReused entry.after Symbolic.visited.2 :=
  consistent_of_run Symbolic.room_started (by decide) (unconstrained_script _ _)

end

end RoomActor

end Veilroom
