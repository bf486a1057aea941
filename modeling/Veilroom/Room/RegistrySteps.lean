import Veilroom.Room.Registry

/-!
The changes the room makes to its registry, each a step from a valid registry
to a valid one.
-/
namespace Veilroom
namespace Registry
variable {r : Registry}

/-! ### Connections -/

theorem Valid.register (h : r.Valid) (c : ConnectionId) :
    Step (some (.connection c)) r { r with connections := r.connections.register c } where
  valid :=
    { h with
      member_entry := by simpa using h.member_entry
      entry_member := by simpa using h.entry_member
      request_entry := by simpa using h.request_entry
      entry_request := by simpa using h.entry_request }
  later := { Later.refl r with }
  hostConnection := rfl
  limit := rfl
  known c' entry hget := by
    rw [Connections.get_register] at hget
    by_cases hc : c' = c
    · exact .inl (by rw [hc])
    · rw [if_neg hc] at hget
      exact .inr ⟨entry, hget⟩
  queued _ hq := .inr hq
  departed m hm hgone := absurd rfl (hgone m hm)

theorem Valid.markPasswordVerified (h : r.Valid) (c : ConnectionId) :
    Step none r { r with connections := (r.connections.markPasswordVerified c).1 } where
  valid :=
    { h with
      member_entry := by simpa using h.member_entry
      entry_member := by simpa using h.entry_member
      request_entry := by simpa using h.request_entry
      entry_request := by simpa using h.entry_request }
  later := { Later.refl r with }
  hostConnection := rfl
  limit := rfl
  known c' entry hget := by
    rw [Connections.markPasswordVerified, Connections.get_update] at hget
    by_cases hc : c' = c
    · rw [if_pos hc, Option.map_eq_some_iff] at hget
      obtain ⟨entry', hget', -⟩ := hget
      exact .inr ⟨entry', hc ▸ hget'⟩
    · rw [if_neg hc] at hget
      exact .inr ⟨entry, hget⟩
  queued _ hq := .inr hq
  departed m hm hgone := absurd rfl (hgone m hm)

/-- Forgetting a connection that is neither a member's nor a request's. -/
theorem Valid.forget (h : r.Valid) {c : ConnectionId} (hmember : r.connections.memberId c = none)
    (hrequest : r.connections.requestId c = none) :
    Step none r { r with connections := r.connections.remove c } where
  valid :=
    { h with
      member_entry := by
        intro m hm
        have hentry := h.member_entry m hm
        have hne : m.connection ≠ c := by
          rintro rfl
          rw [hmember] at hentry
          cases hentry
        simp [hne, hentry]
      entry_member := by
        intro c' id hid
        simp only [Connections.memberId_remove] at hid
        split at hid
        · cases hid
        · exact h.entry_member c' id hid
      request_entry := by
        intro q hq
        have hentry := h.request_entry q hq
        have hne : q.connection ≠ c := by
          rintro rfl
          rw [hrequest] at hentry
          cases hentry
        simp [hne, hentry]
      entry_request := by
        intro c' id hid
        simp only [Connections.requestId_remove] at hid
        split at hid
        · cases hid
        · exact h.entry_request c' id hid }
  later := { Later.refl r with }
  hostConnection := rfl
  limit := rfl
  known c' entry hget := by
    simp only [Connections.get_remove] at hget
    split at hget
    · cases hget
    · exact .inr ⟨entry, hget⟩
  queued _ hq := .inr hq
  departed m hm hgone := absurd rfl (hgone m hm)

/-! ### Join requests -/

/-- The role of an admission entry excludes the other two. -/
private theorem not_member_of_admission {c : ConnectionId} {entry : ConnectionEntry}
    (hget : r.connections.get c = some entry) (hrole : entry.role = .admission) :
    r.connections.memberId c = none ∧ r.connections.requestId c = none := by
  simp [Connections.memberId_eq_bind, Connections.requestId_eq_bind, hget, hrole]

private theorem memberId_of_requestId {c : ConnectionId} {id : RequestId}
    (hrequest : r.connections.requestId c = some id) : r.connections.memberId c = none := by
  obtain ⟨entry, hget, hrole⟩ := Connections.requestId_eq_some.mp hrequest
  simp [Connections.memberId_eq_bind, hget, hrole]

theorem Valid.enqueue (h : r.Valid) {c : ConnectionId} {entry : ConnectionEntry}
    (hget : r.connections.get c = some entry) (hrole : entry.role = .admission)
    (hpolicy : r.policy = .opened) (application : JoinApplication) :
    Step (some (.application application)) r { r with
      requests := { r.requests with
        nextId := r.requests.nextId + 1
        requests := r.requests.requests ++ [⟨r.requests.nextId, c, application⟩] }
      connections := (r.connections.attachRequest c r.requests.nextId).1 } where
  valid :=
    { h with
      member_entry := by
        intro m hm
        have hentry := h.member_entry m hm
        have hne : m.connection ≠ c := by
          rintro rfl
          rw [(not_member_of_admission hget hrole).1] at hentry
          cases hentry
        simp [Connections.memberId_attachRequest hget, hne, hentry]
      entry_member := by
        intro c' id hid
        simp only [Connections.memberId_attachRequest hget] at hid
        split at hid
        · cases hid
        · exact h.entry_member c' id hid
      request_entry := by
        intro q hq
        simp only [Connections.requestId_attachRequest hget]
        rw [List.mem_append, List.mem_singleton] at hq
        obtain hq | rfl := hq
        · have hentry := h.request_entry q hq
          have hne : q.connection ≠ c := by
            rintro rfl
            rw [(not_member_of_admission hget hrole).2] at hentry
            cases hentry
          simp [hne, hentry]
        · simp
      entry_request := by
        intro c' id hid
        simp only [Connections.requestId_attachRequest hget] at hid
        split at hid
        · rename_i hc
          cases hid
          exact ⟨⟨r.requests.nextId, c, application⟩, by simp, hc.symm, rfl⟩
        · obtain ⟨q, hq, hqc, hqid⟩ := h.entry_request c' id hid
          exact ⟨q, List.mem_append_left _ hq, hqc, hqid⟩
      request_ids := by
        have hfresh : r.requests.nextId ∉ r.requestIds := fun hmem =>
          Nat.lt_irrefl _ (h.request_id_lt _ hmem)
        have hperm : (r.requests.requests.map JoinRequest.id ++ [r.requests.nextId] ++
            r.timeoutRequests.map PendingTimeoutRequest.requestId).Perm
            (r.requests.nextId :: r.requestIds) := by
          rw [List.append_assoc]
          exact List.perm_middle
        simpa [requestIds] using hperm.nodup_iff.mpr (List.nodup_cons.mpr ⟨hfresh, h.request_ids⟩)
      request_id_lt := by
        intro id hid
        simp only [requestIds, List.map_append, List.map_cons, List.map_nil, List.mem_append,
          List.mem_singleton] at hid
        obtain (hid | rfl) | hid := hid
        · exact Nat.lt_succ_of_lt (h.request_id_lt id (List.mem_append_left _ hid))
        · exact Nat.lt_succ_self _
        · exact Nat.lt_succ_of_lt (h.request_id_lt id (List.mem_append_right _ hid))
      locked := by
        intro hlocked
        rw [hpolicy] at hlocked
        cases hlocked }
  later :=
    { Later.refl r with
      nextRequestId_le := Nat.le_succ _
      request := by
        intro q hq hlt
        rw [List.mem_append, List.mem_singleton] at hq
        obtain hq | rfl := hq
        · exact hq
        · exact absurd hlt (Nat.lt_irrefl _) }
  hostConnection := rfl
  limit := rfl
  known c' entry' hget' := by
    rw [Connections.attachRequest, Connections.get_update] at hget'
    by_cases hc : c' = c
    · exact .inr ⟨entry, hc ▸ hget⟩
    · rw [if_neg hc] at hget'
      exact .inr ⟨entry', hget'⟩
  queued q hq := by
    rw [List.mem_append, List.mem_singleton] at hq
    obtain hq | rfl := hq
    · exact .inr hq
    · exact .inl rfl
  departed m hm hgone := absurd rfl (hgone m hm)

/-- The queue after `take` found `q`. -/
def taken (r : Registry) (q : JoinRequest) : JoinRequestQueue :=
  { r.requests with requests := r.requests.requests.eraseP fun p => p.id = q.id }

theorem Valid.mem_taken (h : r.Valid) {q p : JoinRequest} :
    p ∈ (r.taken q).requests ↔ p ∈ r.requests.requests ∧ p.id ≠ q.id :=
  List.mem_eraseP_of_nodup h.joinIds_nodup

private theorem request_ids_taken (r : Registry) (q : JoinRequest) :
    ((r.taken q).requests.map JoinRequest.id ++
      r.timeoutRequests.map PendingTimeoutRequest.requestId).Sublist r.requestIds :=
  (List.eraseP_sublist.map _).append_right _

/-- What is left of the request entries when `q` was taken and its connection changed. -/
private theorem Valid.request_entries_taken (h : r.Valid) {q : JoinRequest}
    (hq : q ∈ r.requests.requests) (connections : Connections)
    (hother : ∀ c, c ≠ q.connection → connections.requestId c = r.connections.requestId c)
    (hself : connections.requestId q.connection = none) :
    (∀ p ∈ (r.taken q).requests, connections.requestId p.connection = some p.id) ∧
      ∀ c id, connections.requestId c = some id →
        ∃ p ∈ (r.taken q).requests, p.connection = c ∧ p.id = id := by
  constructor
  · intro p hp
    obtain ⟨hp, hne⟩ := h.mem_taken.mp hp
    have hconn : p.connection ≠ q.connection := by
      intro hc
      have hpe := h.request_entry p hp
      rw [hc, h.request_entry q hq] at hpe
      exact hne (Option.some.inj hpe).symm
    rw [hother _ hconn]
    exact h.request_entry p hp
  · intro c id hid
    have hc : c ≠ q.connection := by
      rintro rfl
      rw [hself] at hid
      cases hid
    rw [hother c hc] at hid
    obtain ⟨p, hp, rfl, rfl⟩ := h.entry_request c id hid
    refine ⟨p, h.mem_taken.mpr ⟨hp, ?_⟩, rfl, rfl⟩
    intro hpid
    exact hc (by rw [List.inj_on_of_nodup_map h.joinIds_nodup hp hq hpid])

/-- A request is withdrawn, rejected or refused, and its connection forgotten. -/
theorem Valid.dropRequest (h : r.Valid) {q : JoinRequest} (hq : q ∈ r.requests.requests) :
    Step none r { r with
      requests := r.taken q, connections := r.connections.remove q.connection } where
  valid :=
    have hmember := memberId_of_requestId (h.request_entry q hq)
    have hrest := h.request_entries_taken hq (r.connections.remove q.connection)
      (fun c hc => by simp [hc]) (by simp)
    { h with
      member_entry := by
        intro m hm
        have hentry := h.member_entry m hm
        have hne : m.connection ≠ q.connection := by
          intro hc
          rw [hc, hmember] at hentry
          cases hentry
        simp [hne, hentry]
      entry_member := by
        intro c' id hid
        simp only [Connections.memberId_remove] at hid
        split at hid
        · cases hid
        · exact h.entry_member c' id hid
      request_entry := hrest.1
      entry_request := hrest.2
      request_ids := h.request_ids.sublist (request_ids_taken r q)
      request_id_lt := fun id hid => h.request_id_lt id ((request_ids_taken r q).subset hid)
      locked := fun hlocked => by simp [taken, h.locked hlocked] }
  later := { Later.refl r with request := fun _ hp _ => (h.mem_taken.mp hp).1 }
  hostConnection := rfl
  limit := rfl
  known c' entry hget := by
    simp only [Connections.get_remove] at hget
    split at hget
    · cases hget
    · exact .inr ⟨entry, hget⟩
  queued _ hp := .inr (h.mem_taken.mp hp).1
  departed m hm hgone := absurd rfl (hgone m hm)

/-- Every admission flow is dropped: the queue is emptied and only members stay known. -/
theorem Valid.dropAdmissions (h : r.Valid) {connections : Connections}
    (hget : ∀ c, connections.get c =
      if (r.connections.memberId c).isSome then r.connections.get c else none) :
    Step none r { r with requests := { r.requests with requests := [] }, connections } where
  valid :=
    have hmember : ∀ c, connections.memberId c = r.connections.memberId c := by
      intro c
      rw [Connections.memberId_eq_bind, hget]
      cases hid : r.connections.memberId c with
      | none => simp
      | some id => simpa [Connections.memberId_eq_bind] using hid
    have hrequest : ∀ c, connections.requestId c = none := by
      intro c
      rw [Connections.requestId_eq_bind, hget]
      cases hid : r.connections.memberId c with
      | none => simp
      | some id =>
          obtain ⟨entry, hentry, hrole⟩ := Connections.memberId_eq_some.mp hid
          simp [hentry, hrole]
    { h with
      member_entry := fun m hm => (hmember _).trans (h.member_entry m hm)
      entry_member := fun c id hid => h.entry_member c id ((hmember c).symm.trans hid)
      request_entry := fun q hq => nomatch hq
      entry_request := fun c id hid => by rw [hrequest] at hid; cases hid
      request_ids := h.request_ids.of_append_right
      request_id_lt := fun id hid => h.request_id_lt id (List.mem_append_right _ hid)
      locked := fun _ => rfl }
  later := { Later.refl r with request := fun _ hq => nomatch hq }
  hostConnection := rfl
  limit := rfl
  known c entry hentry := by
    rw [hget] at hentry
    split at hentry
    · exact .inr ⟨entry, hentry⟩
    · cases hentry
  queued _ hq := nomatch hq
  departed m hm hgone := absurd rfl (hgone m hm)

theorem Valid.setPolicy (h : r.Valid) (policy : JoinPolicy)
    (hempty : policy = .locked → r.requests.requests = []) : Step none r { r with policy } where
  valid := { h with locked := hempty }
  later := { Later.refl r with }
  hostConnection := rfl
  limit := rfl
  known _ entry hget := .inr ⟨entry, hget⟩
  queued _ hq := .inr hq
  departed m hm hgone := absurd rfl (hgone m hm)

/-! ### Timeout requests -/

theorem Valid.dropTimeoutRequests (h : r.Valid) {kept : List PendingTimeoutRequest}
    (hkept : kept.Sublist r.timeoutRequests) :
    Step none r { r with timeoutRequests := kept } where
  valid :=
    have hids : (r.requests.requests.map JoinRequest.id ++
        kept.map PendingTimeoutRequest.requestId).Sublist r.requestIds :=
      (hkept.map _).append_left _
    { h with
      request_ids := h.request_ids.sublist hids
      request_id_lt := fun id hid => h.request_id_lt id (hids.subset hid) }
  later := { Later.refl r with timeoutRequest := fun _ ht _ => hkept.subset ht }
  hostConnection := rfl
  limit := rfl
  known _ entry hget := .inr ⟨entry, hget⟩
  queued _ hq := .inr hq
  departed m hm hgone := absurd rfl (hgone m hm)

theorem Valid.addTimeoutRequest (h : r.Valid) {t : PendingTimeoutRequest}
    (hid : t.requestId = r.requests.nextId) :
    Step none r { r with
      requests := { r.requests with nextId := r.requests.nextId + 1 }
      timeoutRequests := r.timeoutRequests ++ [t] } where
  valid :=
    { h with
      request_ids := by
        have hfresh : r.requests.nextId ∉ r.requestIds := fun hmem =>
          Nat.lt_irrefl _ (h.request_id_lt _ hmem)
        have hconcat := List.nodup_append.mpr
          ⟨h.request_ids, List.nodup_singleton r.requests.nextId, fun a ha b hb =>
            by rw [List.mem_singleton.mp hb]; exact fun heq => hfresh (heq ▸ ha)⟩
        simpa [requestIds, hid] using hconcat
      request_id_lt := by
        intro id hmem
        simp only [requestIds, List.map_append, List.map_cons, List.map_nil, List.mem_append,
          List.mem_singleton, hid] at hmem
        obtain hmem | hmem | rfl := hmem
        · exact Nat.lt_succ_of_lt (h.request_id_lt id (List.mem_append_left _ hmem))
        · exact Nat.lt_succ_of_lt (h.request_id_lt id (List.mem_append_right _ hmem))
        · exact Nat.lt_succ_self _ }
  later :=
    { Later.refl r with
      nextRequestId_le := Nat.le_succ _
      timeoutRequest := by
        intro t' ht hlt
        rw [List.mem_append, List.mem_singleton] at ht
        obtain ht | rfl := ht
        · exact ht
        · exact absurd hlt (by rw [hid]; exact Nat.lt_irrefl _) }
  hostConnection := rfl
  limit := rfl
  known _ entry hget := .inr ⟨entry, hget⟩
  queued _ hq := .inr hq
  departed m hm hgone := absurd rfl (hgone m hm)

/-! ### Members -/

private theorem apart_uncolored {l : List Member} :
    (l.map Member.uncolored).Pairwise Member.Apart ↔ l.Pairwise Member.Apart := by
  rw [List.pairwise_map]
  exact ⟨fun h => h.imp fun hmn => ⟨hmn.1, hmn.2, hmn.3, hmn.4, hmn.5⟩,
    fun h => h.imp fun hmn => ⟨hmn.1, hmn.2, hmn.3, hmn.4, hmn.5⟩⟩

theorem Valid.setColor (h : r.Valid) (id : MemberId) (color : ColorChoice) :
    Step none r { r with members := r.members.setColor id color } where
  valid :=
    have hplain := MemberTable.map_uncolored_setColor r.members id color
    { h with
      apart := by
        rw [← apart_uncolored, hplain, apart_uncolored]
        exact h.apart
      host := by
        obtain ⟨host, hhost, hid, hconn⟩ := h.host
        obtain ⟨n, hn, heq⟩ := exists_uncolored_of_mem hplain.symm hhost
        exact ⟨n, hn, (congrArg Member.memberId heq).trans hid,
          (congrArg Member.connection heq).trans hconn⟩
      isHost_iff := by
        intro m hm
        obtain ⟨n, hn, heq⟩ := MemberTable.mem_setColor hm
        rw [heq]
        exact h.isHost_iff n hn
      within_limit := by
        have hlength := congrArg List.length hplain
        rw [List.length_map, List.length_map] at hlength
        rw [show (r.members.setColor id color).limit = r.members.limit from rfl, hlength]
        exact h.within_limit
      id_lt := by
        intro m hm
        obtain ⟨n, hn, heq⟩ := MemberTable.mem_setColor hm
        rw [heq]
        exact h.id_lt n hn
      member_entry := by
        intro m hm
        obtain ⟨n, hn, heq⟩ := MemberTable.mem_setColor hm
        rw [heq]
        exact h.member_entry n hn
      entry_member := by
        intro c id hid
        obtain ⟨m, hm, hconn, hmid⟩ := h.entry_member c id hid
        obtain ⟨n, hn, heq⟩ := exists_uncolored_of_mem hplain.symm hm
        exact ⟨n, hn, (congrArg Member.connection heq).trans hconn,
          (congrArg Member.memberId heq).trans hmid⟩ }
  later :=
    { Later.refl r with
      member := by
        intro m hm _
        obtain ⟨n, hn, heq⟩ := MemberTable.mem_setColor hm
        exact ⟨n, hn, heq.symm⟩ }
  hostConnection := rfl
  limit := rfl
  known _ entry hget := .inr ⟨entry, hget⟩
  queued _ hq := .inr hq
  departed m hm hgone := by
    have hplain := MemberTable.map_uncolored_setColor r.members id color
    obtain ⟨n, hn, heq⟩ := exists_uncolored_of_mem hplain.symm hm
    exact absurd (congrArg Member.memberId heq) (hgone n hn)

/-- The table without one of its members. -/
def without (r : Registry) (m : Member) : MemberTable :=
  { r.members with members := r.members.members.eraseP fun n => n.memberId = m.memberId }

theorem Valid.mem_without (h : r.Valid) {m n : Member} :
    n ∈ (r.without m).members ↔ n ∈ r.members.members ∧ n.memberId ≠ m.memberId :=
  List.mem_eraseP_of_nodup h.ids_nodup

theorem Valid.removeMember (h : r.Valid) {m : Member} (hm : m ∈ r.members.members)
    (hne : m.memberId ≠ 0) :
    Step none r { r with
      members := r.without m, connections := r.connections.remove m.connection } where
  valid :=
    { h with
      apart := h.apart.sublist List.eraseP_sublist
      host := by
        obtain ⟨host, hhost, hid, hconn⟩ := h.host
        exact ⟨host, h.mem_without.mpr ⟨hhost, by rw [hid]; exact hne.symm⟩, hid, hconn⟩
      isHost_iff := fun n hn => h.isHost_iff n (h.mem_without.mp hn).1
      within_limit := Nat.le_trans List.eraseP_sublist.length_le h.within_limit
      id_lt := fun n hn => h.id_lt n (h.mem_without.mp hn).1
      member_entry := by
        intro n hn
        obtain ⟨hn, hid⟩ := h.mem_without.mp hn
        have hconn : n.connection ≠ m.connection := fun hc =>
          hid (by rw [h.eq_of_connection hn hm hc])
        simp [hconn, h.member_entry n hn]
      entry_member := by
        intro c id hid
        simp only [Connections.memberId_remove] at hid
        split at hid
        · cases hid
        · rename_i hc
          obtain ⟨n, hn, rfl, rfl⟩ := h.entry_member c id hid
          exact ⟨n, h.mem_without.mpr ⟨hn, fun heq => hc (by rw [h.eq_of_memberId hn hm heq])⟩,
            rfl, rfl⟩
      request_entry := by
        intro q hq
        have hentry := h.request_entry q hq
        have hconn : q.connection ≠ m.connection := by
          intro hc
          rw [hc, h.requestId_of_member hm] at hentry
          cases hentry
        simp [hconn, hentry]
      entry_request := by
        intro c id hid
        simp only [Connections.requestId_remove] at hid
        split at hid
        · cases hid
        · exact h.entry_request c id hid }
  later := { Later.refl r with member := fun n hn _ => ⟨n, (h.mem_without.mp hn).1, rfl⟩ }
  hostConnection := rfl
  limit := rfl
  known c entry hget := by
    simp only [Connections.get_remove] at hget
    split at hget
    · cases hget
    · exact .inr ⟨entry, hget⟩
  queued _ hq := .inr hq
  departed n hn hgone := by
    have hnm : n.memberId = m.memberId := by
      by_contra hid
      exact hgone n (h.mem_without.mpr ⟨hn, hid⟩) rfl
    rw [h.eq_of_memberId hn hm hnm]
    simp

/-- What `MemberTable::add` checked before it admitted a member. -/
theorem add_eq_ok {t t' : MemberTable} {c : ConnectionId} {nickname : String} {ed x : Key}
    {epoch : Nat} {m : Member} (h : t.add c nickname ed x epoch = (t', .ok m)) :
    m = ⟨t.nextId, c, nickname, default, false, ed, x, epoch⟩ ∧
      t' = { t with nextId := t.nextId + 1, members := t.members ++ [m] } ∧
      t.members.length < t.limit ∧ ∀ n ∈ t.members, n.nickname ≠ nickname ∧ n.connection ≠ c ∧
        n.ed25519Pubkey ≠ ed ∧ n.x25519Pubkey ≠ x := by
  unfold MemberTable.add at h
  split at h
  · cases h
  rename_i hfull
  split at h
  · cases h
  rename_i hnick
  split at h
  · cases h
  rename_i hconn
  split at h
  · cases h
  rename_i hkeys
  cases h
  refine ⟨rfl, rfl, ?_, ?_⟩
  · simpa [MemberTable.isFull] using hfull
  · intro n hn
    have hnick' := by simpa [MemberTable.nicknameTaken] using hnick
    have hconn' := by simpa [MemberTable.byConnection] using hconn
    have hkeys' := by simpa using hkeys
    exact ⟨hnick' n hn, hconn' n hn, (hkeys' n hn).1, (hkeys' n hn).2⟩

/-- A failing `MemberTable::add` leaves the table as it was. -/
theorem add_eq_error {t t' : MemberTable} {c : ConnectionId} {nickname : String} {ed x : Key}
    {epoch : Nat} {e : MemberError} (h : t.add c nickname ed x epoch = (t', .error e)) :
    t' = t := by
  unfold MemberTable.add at h
  split at h
  · cases h; rfl
  split at h
  · cases h; rfl
  split at h
  · cases h; rfl
  split at h
  · cases h; rfl
  · cases h

/-- A taken request becomes a member. -/
theorem Valid.admitMember (h : r.Valid) {q : JoinRequest} (hq : q ∈ r.requests.requests)
    {members : MemberTable} {m : Member} {epoch : Nat}
    (hadd : r.members.add q.connection q.application.nickname q.application.ed25519Pubkey
      q.application.x25519Pubkey epoch = (members, .ok m)) :
    Step none r { r with
      requests := r.taken q
      members
      connections :=
        ((r.connections.register q.connection).promote q.connection m.memberId).1 } where
  valid := by
    obtain ⟨rfl, rfl, hlimit, hapart⟩ := add_eq_ok hadd
    obtain ⟨entry, hentry⟩ := Connections.get_register_self r.connections q.connection
    have hmember := memberId_of_requestId (h.request_entry q hq)
    have hrest := h.request_entries_taken hq
      ((r.connections.register q.connection).promote q.connection r.members.nextId).1
      (fun c hc => by simp [Connections.requestId_promote hentry, hc])
      (by simp [Connections.requestId_promote hentry])
    exact
      { h with
        apart := by
          refine List.pairwise_append.mpr ⟨h.apart, List.pairwise_singleton _ _, ?_⟩
          intro n hn m hm
          rw [List.mem_singleton] at hm
          subst hm
          obtain ⟨hnick, hconn, hed, hx⟩ := hapart n hn
          exact ⟨Nat.ne_of_lt (h.id_lt n hn), hconn, hnick, hed, hx⟩
        host := by
          obtain ⟨host, hhost, hid⟩ := h.host
          exact ⟨host, List.mem_append_left _ hhost, hid⟩
        isHost_iff := by
          intro n hn
          rw [List.mem_append, List.mem_singleton] at hn
          obtain hn | rfl := hn
          · exact h.isHost_iff n hn
          · simpa using Nat.ne_of_gt h.next_pos
        within_limit := by
          rw [List.length_append, List.length_singleton]
          exact Nat.le_trans hlimit (Nat.le_max_left _ _)
        next_pos := Nat.succ_pos _
        id_lt := by
          intro n hn
          rw [List.mem_append, List.mem_singleton] at hn
          obtain hn | rfl := hn
          · exact Nat.lt_succ_of_lt (h.id_lt n hn)
          · exact Nat.lt_succ_self _
        member_entry := by
          intro n hn
          rw [Connections.memberId_promote hentry]
          rw [List.mem_append, List.mem_singleton] at hn
          obtain hn | rfl := hn
          · simp [(hapart n hn).2.1, h.member_entry n hn]
          · simp
        entry_member := by
          intro c id hid
          simp only [Connections.memberId_promote hentry, Connections.memberId_register] at hid
          split at hid
          · rename_i hc
            cases hid
            exact ⟨_, List.mem_append_right _ (List.mem_singleton_self _), hc.symm, rfl⟩
          · obtain ⟨n, hn, hconn, hnid⟩ := h.entry_member c id hid
            exact ⟨n, List.mem_append_left _ hn, hconn, hnid⟩
        request_entry := hrest.1
        entry_request := hrest.2
        request_ids := h.request_ids.sublist (request_ids_taken r q)
        request_id_lt := fun id hid => h.request_id_lt id ((request_ids_taken r q).subset hid)
        locked := fun hlocked => by simp [taken, h.locked hlocked] }
  later := by
    obtain ⟨rfl, rfl, -⟩ := add_eq_ok hadd
    exact
      { Later.refl r with
        nextId_le := Nat.le_succ _
        member := by
          intro n hn hlt
          rw [List.mem_append, List.mem_singleton] at hn
          obtain hn | rfl := hn
          · exact ⟨n, hn, rfl⟩
          · exact absurd hlt (Nat.lt_irrefl _)
        request := fun _ hp _ => (h.mem_taken.mp hp).1 }
  hostConnection := rfl
  limit := by
    obtain ⟨-, rfl, -⟩ := add_eq_ok hadd
    rfl
  known c entry hget := by
    rw [Connections.promote, Connections.get_update] at hget
    by_cases hc : c = q.connection
    · obtain ⟨e, he, -⟩ := Connections.requestId_eq_some.mp (h.request_entry q hq)
      exact .inr ⟨e, hc ▸ he⟩
    · simp only [if_neg hc] at hget
      rw [Connections.get_register, if_neg hc] at hget
      exact .inr ⟨entry, hget⟩
  queued _ hp := .inr (h.mem_taken.mp hp).1
  departed n hn hgone := by
    obtain ⟨-, rfl, -⟩ := add_eq_ok hadd
    exact absurd rfl (hgone n (List.mem_append_left _ hn))

end Registry

end Veilroom
