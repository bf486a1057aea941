import Veilroom.Room.Moves

/-!
What a handler leaves behind: a step of the registry and a move.

One lemma for each handler, under the only assumption that the registry was
valid: no randomness, no key and no caller is trusted here. This module has the
handlers of departures, lost connections and acknowledgements.
-/
namespace Veilroom
namespace RoomActor
variable (P : Primitives) (rng : Rng) {a : RoomActor} {event : RoomEvent}

/-- The outcome of handling `event` is a registry step and a move. -/
structure Effect (new : Option Registry.Arrival) (event : RoomEvent) (a : RoomActor)
    (outcome : Outcome) : Prop where
  step : Registry.Step new a.registry outcome.1.registry
  move : Move P rng a event outcome.1 outcome.2

theorem SameRoom.refl (a : RoomActor) : SameRoom a a := ⟨rfl, rfl, rfl, rfl, rfl⟩
theorem Tabled.refl (a : RoomActor) : Tabled a a := ⟨.refl a, rfl, rfl, rfl, rfl, rfl, rfl, rfl⟩
theorem Still.refl (a : RoomActor) : Still a a := ⟨.refl a, rfl, rfl, rfl, rfl, rfl, rfl, rfl⟩
theorem ReplayGrows.refl (a : RoomActor) : ReplayGrows a a.chatReplay := .inl rfl

theorem SameRoom.trans {a b c : RoomActor} (h : SameRoom a b) (k : SameRoom b c) :
    SameRoom a c where
  sessionId := k.sessionId.trans h.sessionId
  hostConnection := k.hostConnection.trans h.hostConnection
  hostIdentity := k.hostIdentity.trans h.hostIdentity
  timeouts := k.timeouts.trans h.timeouts
  now := k.now.trans h.now

theorem Tabled.trans {a b c : RoomActor} (h : Tabled a b) (k : Tabled b c) : Tabled a c where
  toSameRoom := h.toSameRoom.trans k.toSameRoom
  policy := k.policy.trans h.policy
  roomTimeout := k.roomTimeout.trans h.roomTimeout
  epoch := k.epoch.trans h.epoch
  epochKey := k.epochKey.trans h.epochKey
  roomSequence := k.roomSequence.trans h.roomSequence
  chatReplay := k.chatReplay.trans h.chatReplay
  pendingMembership := k.pendingMembership.trans h.pendingMembership

section
variable {P rng}

theorem Effect.refused (h : a.registry.Valid) (error : RoomError) :
    Effect P rng none event a (a, .error error) :=
  ⟨h.same, .refused a.rateLimits (.refl a)⟩

/-- Answers that change nothing. -/
theorem Effect.answered (h : a.registry.Valid) {actions : List RoomAction}
    (hplain : ∀ action ∈ actions, action.isPlain = true) :
    Effect P rng none event a (a, .ok actions) :=
  ⟨h.same, .quiet (.refl a) rfl (Nat.le_refl _) (.refl a) hplain⟩

/-- A new transition begins, or fails and leaves only the counters moved. -/
theorem beginEpochTransition_cases (P : Primitives) (rng : Rng) (b : RoomActor) :
    (∃ key wraps, Begins P rng b key wraps ∧
      b.beginEpochTransition P rng = (b.rotated key, .ok wraps)) ∨
    ∃ error, b.beginEpochTransition P rng = (b.advanceEpoch, .error error) := by
  unfold beginEpochTransition
  cases hkey : rng.epochKey with
  | none => exact .inr ⟨_, rfl⟩
  | some key =>
      cases hwraps : b.advanceEpoch.wrapAll P rng key 0 b.members.members with
      | error error => exact .inr ⟨error, by simp [advanceEpoch] at hwraps ⊢; simp [hwraps]⟩
      | ok wraps =>
          exact .inl ⟨key, wraps, ⟨hkey, hwraps⟩,
            by simp [advanceEpoch] at hwraps ⊢; simp [hwraps, rotated, advanceEpoch]⟩

end

/-! ### Departures -/

/-- The actor without one member: table, connection and rate-limit bucket. -/
def without (a : RoomActor) (m : Member) : RoomActor :=
  { a with
    members := a.registry.without m
    connections := a.connections.remove m.connection }.forgetRateLimit m.memberId

theorem tabled_without (a : RoomActor) (m : Member) : Tabled a (a.without m) :=
  ⟨⟨rfl, rfl, rfl, rfl, rfl⟩, rfl, rfl, rfl, rfl, rfl, rfl, rfl⟩

/-- What `remove_member` does, by case. -/
theorem removeMember_cases (h : a.registry.Valid) (id : MemberId) (eventType : UInt8) :
    (id = 0 ∧ a.removeMember P rng id eventType = (a, .error .hostCannotLeave)) ∨
    ((∀ m ∈ a.members.members, m.memberId ≠ id) ∧
      a.removeMember P rng id eventType = (a, .ok none)) ∨
    ∃ m ∈ a.members.members, m.memberId = id ∧ id ≠ 0 ∧
      ((∃ error, (a.without m).beginEpochTransition P rng =
          ((a.without m).advanceEpoch, .error error) ∧
        a.removeMember P rng id eventType = ((a.without m).advanceEpoch, .error error)) ∨
      ∃ key wraps, Begins P rng (a.without m) key wraps ∧
        a.removeMember P rng id eventType =
          (((a.without m).rotated key).queueMemberGone P id eventType,
            .ok (some (m, wraps)))) := by
  unfold removeMember
  by_cases hid : id = 0
  · exact .inl ⟨hid, if_pos hid⟩
  · rw [if_neg hid]
    unfold MemberTable.remove
    cases hfind : a.members.byId id with
    | none =>
        refine .inr (.inl ⟨?_, rfl⟩)
        exact List.find?_key_eq_none.mp hfind
    | some m =>
        obtain ⟨hm, rfl⟩ := h.byId_eq_some.mp hfind
        refine .inr (.inr ⟨m, hm, rfl, hid, ?_⟩)
        have hb : (RoomActor.forgetRateLimit
            { a with
              members := { a.members with
                members := a.members.members.eraseP fun n => n.memberId = m.memberId }
              connections := a.connections.remove m.connection } m.memberId) = a.without m := rfl
        dsimp only
        rw [hb]
        obtain ⟨key, wraps, hbegins, heq⟩ | ⟨error, heq⟩ :=
          beginEpochTransition_cases P rng (a.without m)
        · exact .inr ⟨key, wraps, hbegins, by rw [heq]⟩
        · exact .inl ⟨error, heq, by rw [heq]⟩

section
variable {P rng}
variable {a₁ : RoomActor}

/-- The members that stay when `m` is removed. -/
theorem members_without (h : a.registry.Valid) (m : Member) :
    (a.without m).members.members =
      a.members.members.filter fun n => n.memberId ∉ [m.memberId] := by
  refine (List.eraseP_eq_filter_of_nodup h.ids_nodup m.memberId).trans ?_
  simp [registry]

/-- A removal whose transition fails. `a₁` is `a` with other queues. -/
theorem Effect.removalFailed (h : a.registry.Valid) (htabled : Tabled a a₁)
    (hstep : Registry.Step none a.registry a₁.registry) (hmembers : a₁.members = a.members)
    {m : Member} (hm : m ∈ a.members.members) (hne : m.memberId ≠ 0) {error : RoomError}
    (hfail : (a₁.without m).beginEpochTransition P rng =
      ((a₁.without m).advanceEpoch, .error error)) :
    Effect P rng none event a ((a₁.without m).advanceEpoch, .error error) where
  step := hstep.trans h (hstep.valid.removeMember (by rwa [registry, hmembers]) hne)
  move := by
    refine .failed (htabled.trans (tabled_without a₁ m)) ?_ (by rw [hfail])
    intro n hn
    rw [members_without hstep.valid, hmembers] at hn
    exact .inl (List.mem_filter.mp hn).1

/-- A removal whose transition begins. `a₁` is `a` with other queues. -/
theorem Effect.removed (h : a.registry.Valid) (htabled : Tabled a a₁)
    (hstep : Registry.Step none a.registry a₁.registry) (hmembers : a₁.members = a.members)
    {m : Member} (hm : m ∈ a.members.members) (hne : m.memberId ≠ 0) {key : Key}
    {wraps : List RoomAction} (before after : List RoomAction)
    (hbegins : Begins P rng (a₁.without m) key wraps)
    {eventType : UInt8} (htype : eventType = msgMemberLeft ∨ eventType = msgMemberKicked)
    (hplain : ∀ action ∈ before ++ after, action.isPlain = true)
    (hdeparting : a.state = .epochTransition → a.departing event = [m.memberId]) :
    Effect P rng none event a
      (((a₁.without m).rotated key).queueMemberGone P m.memberId eventType,
        .ok (before ++ wraps ++ after)) where
  step := hstep.trans h (hstep.valid.removeMember (by rwa [registry, hmembers]) hne)
  move := by
    refine .departed [m.memberId] before after (htabled.trans (tabled_without a₁ m))
      (List.nodup_singleton _) (by simpa using hne.symm) ?_ ?_ ?_ htype hbegins hplain
    · intro id hid
      exact ⟨m, hm, (List.mem_singleton.mp hid).symm⟩
    · intro hstate id
      rw [hdeparting hstate]
    · rw [members_without hstep.valid, hmembers]

end

/-- `remove_member` called on a settled room, with the plain actions of its caller. -/
theorem removeMember_effect (h : a.registry.Valid) (hsettled : a.state ≠ .epochTransition)
    (id : MemberId) {eventType : UInt8}
    (htype : eventType = msgMemberLeft ∨ eventType = msgMemberKicked)
    (after : Member → List RoomAction) (hafter : ∀ m, ∀ action ∈ after m, action.isPlain = true) :
    Effect P rng none event a
      (match a.removeMember P rng id eventType with
      | (a, .error error) => (a, .error error)
      | (a, .ok none) => (a, .ok [])
      | (a, .ok (some (m, wraps))) => (a, .ok (wraps ++ after m))) := by
  obtain ⟨-, heq⟩ | ⟨-, heq⟩ | ⟨m, hm, rfl, hne, hcases⟩ := removeMember_cases P rng h id eventType
  · rw [heq]
    exact .refused h _
  · rw [heq]
    exact .answered h (by simp)
  · obtain ⟨error, hfail, heq⟩ | ⟨key, wraps, hbegins, heq⟩ := hcases
    · rw [heq]
      exact .removalFailed h (.refl a) h.same rfl hm hne hfail
    · rw [heq]
      refine .removed h (.refl a) h.same rfl hm hne [] _ hbegins htype ?_
        (fun hstate => absurd hstate hsettled)
      simpa using hafter m

theorem onLeave_effect (h : a.registry.Valid) (hsettled : a.state ≠ .epochTransition)
    (connection : ConnectionId) : Effect P rng none event a (a.onLeave P rng connection) := by
  unfold onLeave
  split
  · exact .refused h _
  · split
    · exact .refused h _
    · rename_i id _
      exact removeMember_effect P rng h hsettled id (.inl rfl)
        (fun m => [.sendTo connection .shutdown, .closeConnection connection,
          .notifyHost (.memberLeft id m.nickname)])
        (fun m action haction => by
          simp only [List.mem_cons, List.not_mem_nil, or_false] at haction
          obtain rfl | rfl | rfl := haction <;> rfl)

theorem onMemberLeft_effect (h : a.registry.Valid) (hsettled : a.state ≠ .epochTransition)
    (id : MemberId) : Effect P rng none event a (a.onMemberLeft P rng id) :=
  removeMember_effect P rng h hsettled id (.inl rfl)
    (fun m => [.notifyHost (.memberLeft id m.nickname)])
    (fun m action haction => by rw [List.mem_singleton.mp haction]; rfl)

theorem onKick_effect (h : a.registry.Valid) (hsettled : a.state ≠ .epochTransition)
    (target : MemberRef) : Effect P rng none event a (a.onKick P rng target) := by
  unfold onKick
  split
  · exact .refused h _
  · rename_i resolved _
    split
    · exact .refused h _
    · rename_i member _
      split
      · exact .refused h _
      · exact removeMember_effect P rng h hsettled resolved.memberId (.inr rfl)
          (fun m => [.closeConnection member.connection,
            .notifyHost (.memberKicked resolved.memberId m.nickname)])
          (fun m action haction => by
            simp only [List.mem_cons, List.not_mem_nil, or_false] at haction
            obtain rfl | rfl := haction <;> rfl)

private theorem closing_isPlain (a : RoomActor) :
    ∀ action ∈ (a.connections.ids.flatMap fun connection =>
      [RoomAction.sendTo connection .shutdown, .closeConnection connection]) ++
        [.notifyHost .roomClosed], action.isPlain = true := by
  intro action haction
  simp only [List.mem_append, List.mem_flatMap, List.mem_cons, List.not_mem_nil, or_false]
    at haction
  obtain ⟨c, -, rfl | rfl⟩ | rfl := haction <;> rfl

theorem closeRoom_effect (h : a.registry.Valid) :
    Effect P rng none event a a.closeRoom := by
  unfold closeRoom
  split
  · exact .refused h _
  · exact ⟨{ h.same with }, .closed a.pendingEpoch (closing_isPlain a)⟩

/-- Forgetting a connection twice is forgetting it once. -/
theorem Connections.remove_of_unknown {cs : Connections} {c : ConnectionId}
    (h : cs.get c = none) : cs.remove c = cs := by
  have hkey : c ∉ cs.entries.entries.keys := AList.lookup_eq_none.mp h
  have hentries : (cs.entries.erase c).entries = cs.entries.entries :=
    List.kerase_of_notMem_keys hkey
  rw [Connections.remove, AList.ext hentries]

theorem onConnectionLost_effect (h : a.registry.Valid) (connection : ConnectionId)
    (hevent : a.state = .epochTransition → a.departing event = departing.lost a connection) :
    Effect P rng none event a (a.onConnectionLost P rng connection) := by
  unfold onConnectionLost
  split
  · exact closeRoom_effect P rng h
  rename_i hhost
  dsimp only
  -- the actor once the timeout requests of the connection are gone
  let a₁ : RoomActor := { a with
    timeoutRequests := a.timeoutRequests.filter fun request => request.connection ≠ connection }
  have hstep : Registry.Step none a.registry a₁.registry :=
    h.dropTimeoutRequests List.filter_sublist
  have htabled : Tabled a a₁ := ⟨⟨rfl, rfl, rfl, rfl, rfl⟩, rfl, rfl, rfl, rfl, rfl, rfl, rfl⟩
  have hplain : ∀ action ∈ (a.timeoutRequests.filter fun request =>
      request.connection = connection).map fun request =>
        RoomAction.notifyHost (.timeoutRequestRejected request.requestId),
      action.isPlain = true := by
    intro action haction
    obtain ⟨request, -, rfl⟩ := List.mem_map.mp haction
    rfl
  cases hmember : a.connections.memberId connection with
  | some id =>
      obtain ⟨m, hm, hconn, rfl⟩ := h.entry_member connection id hmember
      have hne : m.memberId ≠ 0 := fun hzero =>
        hhost (hconn.symm.trans ((h.connection_eq_host_iff hm).mpr hzero))
      have hlost : a.state = .epochTransition → a.departing event = [m.memberId] := by
        intro hstate
        rw [hevent hstate, departing.lost, if_neg hhost, hmember]
        rfl
      have hcases := removeMember_cases P rng hstep.valid m.memberId msgMemberLeft
      obtain ⟨hzero, -⟩ | ⟨hnone, -⟩ | ⟨m', hm', hid, -, hcases⟩ := hcases
      · exact absurd hzero hne
      · exact absurd rfl (hnone m hm)
      · cases h.eq_of_memberId hm' hm hid
        simp only [Option.some_or]
        obtain ⟨error, hfail, heq⟩ | ⟨key, wraps, hbegins, heq⟩ := hcases
        · rw [heq]
          exact .removalFailed h htabled hstep rfl hm hne hfail
        · rw [heq]
          have hgone : (((a₁.without m).rotated key).queueMemberGone P m.memberId
              msgMemberLeft).connections.get connection = none := by
            rw [← hconn]
            exact (Connections.get_remove _ _ _).trans (if_pos rfl)
          dsimp only
          rw [Connections.remove_of_unknown hgone]
          refine .removed h htabled hstep rfl hm hne _ _ hbegins (.inl rfl) ?_ hlost
          intro action haction
          obtain haction | haction := List.mem_append.mp haction
          · exact hplain action haction
          · rw [List.mem_singleton.mp haction]
            rfl
  | none =>
      have hby : a.members.byConnection connection = none := by
        refine List.find?_key_eq_none.mpr fun m hm hconn => ?_
        have hentry := h.member_entry m hm
        rw [hconn] at hentry
        rw [show a.registry.connections = a.connections from rfl, hmember] at hentry
        cases hentry
      rw [hby]
      simp only [Option.map_none, Option.or_none]
      cases hrequest : a.connections.requestId connection with
      | none =>
          refine ⟨hstep.trans h (hstep.valid.forget hmember hrequest), ?_⟩
          exact .quiet ⟨⟨rfl, rfl, rfl, rfl, rfl⟩, rfl, rfl, rfl, rfl, rfl, rfl, rfl⟩ rfl
            (Nat.le_refl _) (.refl a) hplain
      | some requestId =>
          obtain ⟨q, hq, hconn, rfl⟩ := h.entry_request connection requestId hrequest
          have hfind : (a.requests.requests.find? fun r => r.id = q.id) = some q :=
            (List.find?_eq_some_of_nodup h.joinIds_nodup).mpr ⟨hq, rfl⟩
          simp only [JoinRequestQueue.take, hfind]
          have hdrop := hstep.valid.dropRequest hq
          rw [hconn] at hdrop
          refine ⟨hstep.trans h hdrop, ?_⟩
          refine .quiet ⟨⟨rfl, rfl, rfl, rfl, rfl⟩, rfl, rfl, rfl, rfl, rfl, rfl, rfl⟩ rfl
            (Nat.le_refl _) (.refl a) ?_
          intro action haction
          obtain haction | haction := List.mem_append.mp haction
          · exact hplain action haction
          · rw [List.mem_singleton.mp haction]
            rfl

/-! ### Acknowledgements and evictions -/

/-- What the eviction loop did: `gone` are the members among `ids`, in order. -/
structure Evicts (a₁ : RoomActor) (ids : List MemberId) (b : RoomActor)
    (actions : List RoomAction) (gone : List MemberId) : Prop where
  tabled : Tabled a₁ b
  step : Registry.Step none a₁.registry b.registry
  members : b.members.members = a₁.members.members.filter fun m => m.memberId ∉ gone
  nodup : gone.Nodup
  gone : ∀ id, id ∈ gone ↔ id ∈ ids ∧ ∃ m ∈ a₁.members.members, m.memberId = id
  plain : ∀ action ∈ actions, action.isPlain = true

/-- The eviction loop at a member it finds. -/
theorem evict_cons {a₁ : RoomActor} {m : Member} (rest : List MemberId)
    (hfind : a₁.members.byId m.memberId = some m) :
    a₁.evict (m.memberId :: rest) =
      (((a₁.without m).evict rest).1,
        .closeConnection m.connection :: .notifyHost (.memberLeft m.memberId m.nickname) ::
          ((a₁.without m).evict rest).2.1,
        m.memberId :: ((a₁.without m).evict rest).2.2) := by
  rw [evict, MemberTable.remove, hfind]
  rfl

theorem evict_spec (ids : List MemberId) (a₁ : RoomActor) (h : a₁.registry.Valid)
    (hzero : 0 ∉ ids) : Evicts a₁ ids (a₁.evict ids).1 (a₁.evict ids).2.1 (a₁.evict ids).2.2 := by
  induction ids generalizing a₁ with
  | nil => exact ⟨.refl a₁, h.same, by simp [evict], .nil, by simp [evict], by simp [evict]⟩
  | cons id rest ih =>
      rw [List.mem_cons, not_or] at hzero
      cases hfind : a₁.members.byId id with
      | none =>
          rw [evict, MemberTable.remove, hfind]
          have hrest := ih a₁ h hzero.2
          refine ⟨hrest.tabled, hrest.step, hrest.members, hrest.nodup, fun i => ?_, hrest.plain⟩
          refine (hrest.gone i).trans ⟨fun ⟨hi, hm⟩ => ⟨.tail _ hi, hm⟩, fun ⟨hi, m, hm, hid⟩ => ?_⟩
          cases hi with
          | head => exact absurd hid (List.find?_key_eq_none.mp hfind m hm)
          | tail _ hi => exact ⟨hi, m, hm, hid⟩
      | some m =>
          obtain ⟨hm, rfl⟩ := h.byId_eq_some.mp hfind
          rw [evict_cons rest hfind]
          have hstep := h.removeMember hm (Ne.symm hzero.1)
          have hrest := ih (a₁.without m) hstep.valid hzero.2
          have hkept : ∀ n, n ∈ (a₁.without m).members.members ↔
              n ∈ a₁.members.members ∧ n.memberId ≠ m.memberId := by
            intro n
            rw [members_without h, List.mem_filter]
            simp
          refine ⟨(tabled_without a₁ m).trans hrest.tabled, hstep.trans h hrest.step,
            ?_, ?_, ?_, ?_⟩
          · refine hrest.members.trans ?_
            rw [members_without h, List.filter_filter]
            congr 1
            funext n
            simp [Bool.and_comm]
          · refine List.nodup_cons.mpr ⟨fun hmem => ?_, hrest.nodup⟩
            obtain ⟨-, n, hn, hid⟩ := (hrest.gone m.memberId).mp hmem
            exact ((hkept n).mp hn).2 hid
          · intro i
            rw [List.mem_cons, List.mem_cons]
            constructor
            · rintro (rfl | hi)
              · exact ⟨.inl rfl, m, hm, rfl⟩
              · obtain ⟨hi, n, hn, hid⟩ := (hrest.gone i).mp hi
                exact ⟨.inr hi, n, ((hkept n).mp hn).1, hid⟩
            · rintro ⟨hi, n, hn, hid⟩
              by_cases hnm : i = m.memberId
              · exact .inl hnm
              · refine .inr ((hrest.gone i).mpr ⟨hi.resolve_left hnm, n, ?_, hid⟩)
                exact (hkept n).mpr ⟨hn, by rw [hid]; exact hnm⟩
          · intro action haction
            simp only [List.mem_cons] at haction
            obtain rfl | rfl | haction := haction
            · rfl
            · rfl
            · exact hrest.plain action haction

theorem sameRoom_queueMembersGone (a : RoomActor) (gone : List MemberId) (eventType : UInt8) :
    SameRoom a (a.queueMembersGone P gone eventType) := by
  induction gone generalizing a with
  | nil => exact .refl a
  | cons id rest ih =>
      have hone : SameRoom a (a.queueMemberGone P id eventType) := ⟨rfl, rfl, rfl, rfl, rfl⟩
      exact hone.trans (ih _)

@[simp] theorem registry_queueMembersGone (a : RoomActor) (gone : List MemberId)
    (eventType : UInt8) : (a.queueMembersGone P gone eventType).registry = a.registry := by
  induction gone generalizing a with
  | nil => rfl
  | cons id rest ih => exact ih (a.queueMemberGone P id eventType)

@[simp] theorem members_queueMembersGone (a : RoomActor) (gone : List MemberId)
    (eventType : UInt8) : (a.queueMembersGone P gone eventType).members = a.members :=
  congrArg Registry.members (registry_queueMembersGone P a gone eventType)

/-- The members `on_epoch_timeout` evicts are those it finds late. -/
private theorem mem_late {pending : PendingEpoch} (hpending : a.pendingEpoch = some pending)
    (hlate : ¬ a.now - pending.startedAt < a.timeouts.get .epochAcknowledgement)
    (hzero : 0 ∉ pending.awaiting) (id : MemberId) :
    id ∈ departing.late a ↔
      id ∈ pending.awaiting ∧ ∃ m ∈ a.members.members, m.memberId = id := by
  rw [departing.late, hpending]
  simp only [hlate, hzero, if_false, List.mem_filter, MemberTable.byId, List.find?_isSome,
    decide_eq_true_eq]

theorem onEpochTimeout_effect (h : a.registry.Valid) (hopen : a.state ≠ .destroyed)
    (hevent : a.departing event = departing.late a) :
    Effect P rng none event a (a.onEpochTimeout P rng) := by
  unfold onEpochTimeout
  cases hpending : a.pendingEpoch with
  | none => exact .answered h (by simp)
  | some pending =>
      dsimp only
      split
      · exact .answered h (by simp)
      rename_i hlate
      let a₁ : RoomActor := { a with pendingEpoch := none }
      split
      · unfold closeRoom
        rw [if_neg hopen]
        exact ⟨{ h.same with }, .closed none (closing_isPlain a)⟩
      rename_i hzero
      have hevict := evict_spec pending.awaiting a₁ h hzero
      generalize hresult : a₁.evict pending.awaiting = result at hevict
      obtain ⟨b, actions, gone⟩ := result
      dsimp only at hevict ⊢
      have htabled : Tabled a b := Tabled.trans (b := a₁)
        ⟨⟨rfl, rfl, rfl, rfl, rfl⟩, rfl, rfl, rfl, rfl, rfl, rfl, rfl⟩ hevict.tabled
      obtain ⟨key, wraps, hbegins, heq⟩ | ⟨error, heq⟩ := beginEpochTransition_cases P rng b
      · rw [heq]
        dsimp only
        refine ⟨?_, ?_⟩
        · have hsame := registry_queueMembersGone P (b.rotated key) gone msgMemberLeft
          rw [queueMembersGone] at hsame
          rw [hsame]
          exact hevict.step
        · rw [← List.append_nil (actions ++ wraps)]
          refine .departed gone actions [] htabled hevict.nodup ?_ ?_ ?_ hevict.members (.inl rfl)
            hbegins ?_
          · exact fun hmem => hzero ((hevict.gone 0).mp hmem).1
          · exact fun id hid => ((hevict.gone id).mp hid).2
          · intro _ id
            rw [hevent, mem_late hpending hlate hzero]
            exact hevict.gone id
          · simpa using hevict.plain
      · rw [heq]
        refine ⟨hevict.step, .failed htabled ?_ (by rw [heq])⟩
        intro m hm
        rw [hevict.members] at hm
        exact .inl (List.mem_filter.mp hm).1

/-- Nothing was retained away iff the member was not awaited. -/
theorem PendingEpoch.retain_eq_self {pending : PendingEpoch} {id : MemberId} :
    (pending.retain id).awaiting.length = pending.awaiting.length ↔ id ∉ pending.awaiting := by
  rw [PendingEpoch.retain, List.length_filter_eq_length_iff]
  constructor
  · intro h hmem
    simpa using h id hmem
  · intro h i hi
    simpa using fun heq : i = id => h (heq ▸ hi)

theorem PendingEpoch.retain_of_not_mem {pending : PendingEpoch} {id : MemberId}
    (h : id ∉ pending.awaiting) : pending.retain id = pending := by
  rw [PendingEpoch.retain, List.filter_eq_self.mpr]
  intro i hi
  simpa using fun heq : i = id => h (heq ▸ hi)

theorem onEpochAck_effect (h : a.registry.Valid) {connection : ConnectionId} {epoch : Nat}
    (hevent : event = .epochAck connection epoch) :
    Effect P rng none event a (a.onEpochAck connection epoch) := by
  unfold onEpochAck
  cases hpending : a.pendingEpoch with
  | none => exact .answered h (by simp)
  | some pending =>
      dsimp only
      split
      · exact .answered h (by simp)
      rename_i hepoch
      rw [not_not] at hepoch
      subst hepoch
      cases hmember : a.connections.memberId connection with
      | none => exact .answered h (by simp)
      | some memberId =>
          dsimp only
          split
          · rename_i hlength
            rw [PendingEpoch.retain_of_not_mem (PendingEpoch.retain_eq_self.mp hlength), ← hpending]
            exact .answered h (by simp)
          rename_i hlength
          rw [PendingEpoch.retain_eq_self, not_not] at hlength
          split
          · rename_i hempty
            refine ⟨{ h.same with }, .activated hevent hpending hmember hlength ?_⟩
            simpa using hempty
          · rename_i hempty
            refine ⟨{ h.same with }, .acked hevent hpending hmember hlength ?_⟩
            simpa using hempty

end RoomActor

end Veilroom
