import Veilroom.System.Hearing

/-!
What one event makes of the sessions at the other ends.

`Turn` has one constructor for each way an event can reach a member that stays;
it is the only thing the agreements between the room and its members look at.
A member that just joined is told of its admission and of the epoch that begins
with it.
-/
namespace Veilroom

namespace Seat
variable (P : Primitives) (setup : Setup) (a₀ : RoomActor)

/-- The host's session as the application opens it. -/
def hostSession : ChatSession :=
  (ChatSession.new a₀.sessionId (a₀.hostIdentity.ed25519Pubkey P)
    (a₀.hostIdentity.x25519Pubkey P) 0).installMember
      ⟨0, setup.hostNickname, default, true, setup.hostClientIdentity.ed25519Pubkey P⟩

/-- The session at the other end of a connection before anything was sent to it. -/
def initial (c : ConnectionId) : Option ChatSession :=
  if c = a₀.hostConnection then some (hostSession P setup a₀) else none

/-- The session at the other end once it has received one more message; a joiner opens its
session when it is accepted. -/
def receive (identity : MemberIdentity) : Option ChatSession → Message → Option ChatSession
  | some s, message => some (s.consume P identity message)
  | none, .joinAccepted accepted =>
    some (.new a₀.sessionId (a₀.hostIdentity.ed25519Pubkey P) (a₀.hostIdentity.x25519Pubkey P)
      accepted.memberId)
  | none, _ => none

/-- The session at the other end of `c` once it has consumed everything it was ever sent. -/
def heard (identity : ConnectionId → MemberIdentity) (started : List RoomAction) (past : Past)
    (c : ConnectionId) : Option ChatSession :=
  (sentTo c (RoomActor.emitted started past)).foldl (receive P a₀ (identity c))
    (initial P setup a₀ c)

end Seat

namespace RoomActor

/-- The epoch the room is in or moving to, with its key. -/
def currentKey (a : RoomActor) : Option (Nat × Key) :=
  match a.pendingEpoch, a.epochKey with
  | some pending, _ => some (pending.epoch, pending.key)
  | none, some key => some (a.epoch, key)
  | none, none => none

/-- The room keeps its epoch, its members and what it holds back. -/
structure Unmoved (a a' : RoomActor) : Prop extends SameRoom a a' where
  epoch : a'.epoch = a.epoch
  currentKey : a'.currentKey = a.currentKey
  pendingMembership : a'.pendingMembership = a.pendingMembership
  members : a'.members.members.map Member.uncolored = a.members.members.map Member.uncolored
  roomSequence : a.roomSequence ≤ a'.roomSequence

section
variable (P : Primitives) (rng : Rng) (identity : MemberIdentity)

/-- `Turn P rng identity a event a' m s s'`: the event took the room from `a` to `a'`, the member
`m` was there and still is, and consuming all it was sent took its session from `s` to `s'`. -/
inductive Turn (a : RoomActor) (event : RoomEvent) (a' : RoomActor) (m : Member)
    (s : ChatSession) : ChatSession → Prop
  | idle : Unmoved a a' → ReplayGrows a a'.chatReplay → Turn a event a' m s s
  | relayed {connection sender messageType envelope plaintext} :
      event = .chatReceived connection messageType envelope →
      Relays P a connection sender messageType envelope plaintext → Unmoved a a' →
      a'.chatReplay = a.chatReplay.record sender a.epoch envelope.senderSequence →
      m.connection ≠ connection →
      Turn a event a' m s (s.consume P identity (RoomActor.relayed messageType envelope))
  | policySet {notice : JoinPolicyChanged} : a.state ≠ .epochTransition → Unmoved a a' →
      a'.chatReplay = a.chatReplay → notice.sequence ≤ a'.roomSequence →
      Turn a event a' m s (s.consume P identity (.joinPolicyChanged notice))
  /-- The room released what it held back. -/
  | activated : SameRoom a a' → a'.epoch = a.epoch → a'.currentKey = a.currentKey →
      a'.pendingMembership = [] → a'.members = a.members → a'.roomSequence = a.roomSequence →
      a'.chatReplay = a.chatReplay →
      Turn a event a' m s
        ((sentTo m.connection a.pendingMembership).foldl (ChatSession.consume P identity) s)
  | joined {b : RoomActor} {key wraps} {request : JoinRequest} {member : Member}
      {wrap : EpochWrap} : a.state ≠ .epochTransition → Tabled a b →
      request ∈ a.requests.requests →
      member = ⟨a.members.nextId, request.connection, request.application.nickname, default, false,
        request.application.ed25519Pubkey, request.application.x25519Pubkey, a.epoch + 1⟩ →
      b.members.members = a.members.members ++ [member] → Begins P rng b key wraps →
      a' = (b.rotated key).queueMemberJoined P member → m ∈ a.members.members →
      WrapOf P a.hostIdentity a.sessionId (a.epoch + 1) key m wrap →
      Turn a event a' m s (s.consume P identity (.epochWrap wrap))
  | departed {b : RoomActor} {key wraps} {gone : List MemberId} {eventType : UInt8}
      {wrap : EpochWrap} : Tabled a b →
      (a.state = .epochTransition → ∀ id, id ∈ gone ↔ id ∈ a.departing event) →
      b.members.members = a.members.members.filter (fun m => m.memberId ∉ gone) →
      eventType = msgMemberLeft ∨ eventType = msgMemberKicked → Begins P rng b key wraps →
      a' = (b.rotated key).queueMembersGone P gone eventType → m ∈ b.members.members →
      WrapOf P a.hostIdentity a.sessionId (a.epoch + 1) key m wrap →
      Turn a event a' m s (s.consume P identity (.epochWrap wrap))

end

variable {P : Primitives} {rng : Rng} {identity : MemberIdentity} {a a' b : RoomActor}
variable {event : RoomEvent} {result : Except RoomError (List RoomAction)} {s : ChatSession}
variable {m : Member}

theorem Still.unmoved (h : Still a a') (hsequence : a.roomSequence ≤ a'.roomSequence) :
    Unmoved a a' where
  toSameRoom := h.toSameRoom
  epoch := h.epoch
  currentKey := by simp only [currentKey, h.pendingEpoch, h.epochKey, h.epoch]
  pendingMembership := h.pendingMembership
  members := h.members
  roomSequence := hsequence

/-! ### What one batch makes of a session -/

/-- The session at the other end of `c` after it consumed what a batch sends it. -/
def hears (P : Primitives) (identity : MemberIdentity) (c : ConnectionId)
    (actions : List RoomAction) (s : ChatSession) : ChatSession :=
  (sentTo c actions).foldl (ChatSession.consume P identity) s

theorem hears_append (c : ConnectionId) (first second : List RoomAction) :
    hears P identity c (first ++ second) s =
      hears P identity c second (hears P identity c first s) := by
  simp [hears]

theorem hears_plain {c : ConnectionId} {actions : List RoomAction}
    (h : ∀ action ∈ actions, action.isPlain = true) : hears P identity c actions s = s := by
  have hmessages : ∀ message ∈ sentTo c actions,
      (RoomAction.sendTo c message).isPlain = true := fun message hmem => h _ (mem_sentTo.mp hmem)
  unfold hears
  generalize sentTo c actions = messages at hmessages
  induction messages with
  | nil => rfl
  | cons message rest ih =>
      rw [List.forall_mem_cons] at hmessages
      rw [List.foldl_cons, ChatSession.consume_of_isPlain hmessages.1]
      exact ih hmessages.2

/-- One message to each of some members reaches each of them once. -/
theorem sentTo_broadcast {members : List Member} (hnodup : (members.map Member.connection).Nodup)
    (message : Message) {m : Member} (hm : m ∈ members) :
    sentTo m.connection (members.map fun n => .sendTo n.connection message) = [message] := by
  have hbroadcast : Broadcast (fun _ sent => sent = message) members
      (members.map fun n => .sendTo n.connection message) := by
    rw [Broadcast, List.forall₂_map_right_iff, List.forall₂_same]
    exact fun n _ => ⟨message, rfl, rfl⟩
  obtain ⟨sent, heq, rfl⟩ := hbroadcast.sentTo_of_mem hnodup hm
  exact heq

/-- A connection that is no receiver's gets nothing. -/
theorem sentTo_broadcast_of_not_mem {members : List Member} (message : Message) {c : ConnectionId}
    (hc : ∀ n ∈ members, n.connection ≠ c) :
    sentTo c (members.map fun n => .sendTo n.connection message) = [] := by
  refine List.eq_nil_iff_forall_not_mem.mpr fun sent hsent => ?_
  obtain ⟨n, hn, heq⟩ := List.mem_map.mp (mem_sentTo.mp hsent)
  cases heq
  exact hc n hn rfl

/-- The wraps of a transition reach each member once. -/
theorem Begins.sentTo (law : P.Lawful) {key : Key} {wraps : List RoomAction}
    (h : Begins P rng b key wraps) (htabled : Tabled a b)
    (hnodup : (b.members.members.map Member.connection).Nodup) (hm : m ∈ b.members.members) :
    ∃ wrap, WrapOf P a.hostIdentity a.sessionId (a.epoch + 1) key m wrap ∧
      Veilroom.sentTo m.connection wraps = [.epochWrap wrap] := by
  obtain ⟨_, hsent, wrap, rfl, hof⟩ := (h.wraps law).sentTo_of_mem hnodup hm
  refine ⟨wrap, ?_, hsent⟩
  rw [← htabled.hostIdentity, ← htabled.sessionId, ← htabled.epoch]
  exact hof

/-! ### The turns -/

theorem members_queueMemberJoined (a : RoomActor) (member : Member) :
    (a.queueMemberJoined P member).members = a.members := rfl

/-- The rebroadcast of the timeout goes to the host's side only. -/
theorem sentTo_rebroadcast (c : ConnectionId) (held : List RoomAction) (timeout : Option Nat) :
    sentTo c (actionsOf (.ok (held ++ match timeout with
      | some seconds => [.notifyHost (.timeoutRebroadcast seconds)]
      | none => []))) = sentTo c held := by
  rw [actionsOf, sentTo_append]
  split <;> simp

/-- Every move that does not close the room is a turn for the members that stay. -/
theorem Move.turn (law : P.Lawful) (hvalid : a.registry.Valid) (hvalid' : a'.registry.Valid)
    (hnofault : NoFault P rng a) (hpending : ∀ p, a.pendingEpoch = some p → p.epoch = a.epoch)
    (hmove : Move P rng a event a' result) (hopen : a'.state ≠ .destroyed)
    (hm : m ∈ a'.members.members) {n : Member} (hn : n ∈ a.members.members)
    (heq : n.uncolored = m.uncolored) :
    Turn P rng identity a event a' m s (hears P identity m.connection (actionsOf result) s) := by
  have hsame : Unmoved a a := (Still.refl a).unmoved (Nat.le_refl _)
  cases hmove with
  | refused rateLimits hreplay =>
      exact .idle { hsame with } hreplay
  | failed htabled hmembers hfail => exact absurd hfail (hnofault _ _ htabled hmembers)
  | quiet hstill _ hsequence hreplay hplain =>
      rw [actionsOf, hears_plain hplain]
      exact .idle (hstill.unmoved hsequence) hreplay
  | @relayed _ connection sender messageType envelope plaintext hevent hrelays hstill _ hsequence
      hreplay =>
      have hunmoved := hstill.unmoved (Nat.le_of_eq hsequence.symm)
      by_cases hc : m.connection = connection
      · have hnone : sentTo m.connection
            (a.relay connection (RoomActor.relayed messageType envelope)) = [] := by
          apply sentTo_broadcast_of_not_mem
          intro k hk
          rw [hc]
          simpa using (List.mem_filter.mp hk).2
        rw [hears, actionsOf, hnone]
        exact .idle hunmoved (.inr ⟨_, _, hrelays.fresh, hreplay⟩)
      · have hsent : sentTo m.connection
            (a.relay connection (RoomActor.relayed messageType envelope)) =
              [RoomActor.relayed messageType envelope] := by
          rw [← Member.connection_congr heq] at hc ⊢
          apply sentTo_broadcast
          · exact hvalid.connections_nodup.sublist (List.filter_sublist.map _)
          · exact List.mem_filter.mpr ⟨hn, by simpa using hc⟩
        rw [hears, actionsOf, hsent]
        exact .relayed hevent hrelays hunmoved hreplay hc
  | @policySet b policy actions hstate htabled hpending hmembers hplain =>
      have hunmoved : Unmoved a (b.announcePolicy P policy).1 := {
        toSameRoom := { htabled.toSameRoom with }
        epoch := htabled.epoch
        currentKey := by
          simp only [currentKey, announcePolicy, hpending, htabled.epochKey, htabled.epoch]
        pendingMembership := htabled.pendingMembership
        members := congrArg (fun t : MemberTable => t.members.map Member.uncolored) hmembers
        roomSequence := Nat.le_succ_of_le (Nat.le_of_eq htabled.roomSequence.symm) }
      have hreplay : (b.announcePolicy P policy).1.chatReplay = a.chatReplay := htabled.chatReplay
      rw [actionsOf, hears_append, hears_plain hplain]
      by_cases hhost : m.isHost = true
      · have hnone : sentTo m.connection (b.announcePolicy P policy).2 = [] := by
          simp only [announcePolicy, sentTo_append, sentTo_cons_notifyHost, sentTo_nil,
            List.append_nil]
          apply sentTo_broadcast_of_not_mem
          intro k hk hc
          obtain ⟨hk, hguest⟩ := List.mem_filter.mp hk
          rw [hvalid'.eq_of_connection (m := k) hk hm hc] at hguest
          rw [hhost] at hguest
          cases hguest
        rw [hears, hnone]
        exact .idle hunmoved (.inl hreplay)
      · have hsent : ∃ notice : JoinPolicyChanged,
            sentTo m.connection (b.announcePolicy P policy).2 = [.joinPolicyChanged notice] ∧
              notice.sequence ≤ (b.announcePolicy P policy).1.roomSequence := by
          simp only [announcePolicy, sentTo_append, sentTo_cons_notifyHost, sentTo_nil,
            List.append_nil]
          refine ⟨_, sentTo_broadcast ?_ _ (List.mem_filter.mpr ⟨hm, by simpa using hhost⟩),
            Nat.le_refl _⟩
          exact hvalid'.connections_nodup.sublist (List.filter_sublist.map _)
        obtain ⟨notice, hsent, hle⟩ := hsent
        rw [hears, hsent]
        exact .policySet hstate hunmoved hreplay hle
  | @acked pending connection memberId _ hpending =>
      refine .idle ?_ (.refl a)
      exact { hsame with currentKey := by simp only [currentKey, hpending, PendingEpoch.retain] }
  | @activated pending connection memberId hevent hsome _ _ _ =>
      have hkey : currentKey { a with
          pendingEpoch := none
          epochKey := some pending.key
          state := a.policy.roomState
          pendingMembership := [] } = a.currentKey := by
        simp only [currentKey, hsome, hpending pending hsome]
      have hsent := sentTo_rebroadcast m.connection a.pendingMembership a.roomTimeout
      unfold hears
      refine Eq.subst (motive := fun sent => Turn P rng identity a event _ m s
        (sent.foldl (ChatSession.consume P identity) s)) hsent.symm ?_
      exact .activated { hsame with } rfl hkey rfl rfl rfl rfl
  | @joined b key wraps request member hstate htabled hrequest hmember hmembers hbegins =>
      rw [members_queueMemberJoined, members_rotated] at hm
      have hnodup : (b.members.members.map Member.connection).Nodup := hvalid'.connections_nodup
      have hbm : m ∈ b.members.members := hm
      have hne : m ≠ member := by
        rintro rfl
        have hlt := hvalid.id_lt n hn
        rw [Member.memberId_congr heq, hmember] at hlt
        exact Nat.lt_irrefl _ hlt
      have hold : m ∈ a.members.members := by
        rw [hmembers, List.mem_append, List.mem_singleton] at hm
        exact hm.resolve_right hne
      have hmem : member ∈ b.members.members := by
        rw [hmembers]
        exact List.mem_append_right _ (.head _)
      have hother : member.connection ≠ m.connection := fun hc =>
        hne (hvalid'.eq_of_connection hbm hmem hc.symm)
      obtain ⟨wrap, hof, hsent⟩ := hbegins.sentTo law htabled hnodup hbm
      rw [actionsOf, hears, sentTo_cons_sendTo, if_neg hother, sentTo_cons_notifyHost, hsent]
      exact .joined hstate htabled hrequest hmember hmembers hbegins rfl hold hof
  | @departed b key wraps gone before after eventType htabled _ _ _ hgone hmembers htype hbegins
      hplain =>
      rw [members_queueMembersGone, members_rotated] at hm
      have hnodup : (b.members.members.map Member.connection).Nodup := by
        have hnodup := hvalid'.connections_nodup
        rwa [show (registry _).members = _ from
          members_queueMembersGone P _ gone eventType] at hnodup
      rw [List.forall_mem_append] at hplain
      obtain ⟨wrap, hof, hsent⟩ := hbegins.sentTo law htabled hnodup hm
      rw [actionsOf, hears_append, hears_append, hears_plain hplain.1, hears_plain hplain.2, hears,
        hsent]
      exact .departed htabled hgone hmembers htype hbegins rfl hm hof
  | closed => exact absurd rfl hopen

/-- A member that was not there before has just joined: it is told so, and the epoch that begins
with it is wrapped for it. -/
theorem Move.newcomer (law : P.Lawful) (hvalid' : a'.registry.Valid) (hnofault : NoFault P rng a)
    (hmove : Move P rng a event a' result) (hm : m ∈ a'.members.members)
    (hnew : ∀ n ∈ a.members.members, n.uncolored ≠ m.uncolored) :
    ∃ b key wraps request wrap, a.state ≠ .epochTransition ∧ Tabled a b ∧
      request ∈ a.requests.requests ∧
      m = ⟨a.members.nextId, request.connection, request.application.nickname, default, false,
        request.application.ed25519Pubkey, request.application.x25519Pubkey, a.epoch + 1⟩ ∧
      b.members.members = a.members.members ++ [m] ∧ Begins P rng b key wraps ∧
      a' = (b.rotated key).queueMemberJoined P m ∧
      WrapOf P a.hostIdentity a.sessionId (a.epoch + 1) key m wrap ∧
      sentTo m.connection (actionsOf result) =
        [.joinAccepted ⟨m.memberId⟩, .epochWrap wrap] := by
  have hnone (hold : m ∈ a.members.members) : False := hnew m hold rfl
  have hstays (hsame : a'.members.members.map Member.uncolored =
      a.members.members.map Member.uncolored) : False := by
    obtain ⟨n, hn, heq⟩ := exists_uncolored_of_mem hsame hm
    exact hnew n hn heq
  cases hmove with
  | refused | acked | activated | closed => exact (hnone hm).elim
  | failed htabled hmembers hfail => exact absurd hfail (hnofault _ _ htabled hmembers)
  | quiet hstill => exact (hstays hstill.members).elim
  | relayed _ _ hstill => exact (hstays hstill.members).elim
  | policySet _ _ _ _ hmembers =>
      exact (hstays (congrArg (fun t : MemberTable => t.members.map Member.uncolored)
        hmembers)).elim
  | @joined b key wraps request member hstate htabled hrequest hmember hmembers hbegins =>
      have hbm : m ∈ b.members.members := hm
      have hnodup : (b.members.members.map Member.connection).Nodup := hvalid'.connections_nodup
      have hself : m = member := by
        rw [hmembers, List.mem_append, List.mem_singleton] at hbm
        exact hbm.resolve_left hnone
      subst hself
      obtain ⟨wrap, hof, hsent⟩ := hbegins.sentTo law htabled hnodup hbm
      refine ⟨b, key, wraps, request, wrap, hstate, htabled, hrequest, hmember, hmembers, hbegins,
        rfl, hof, ?_⟩
      rw [actionsOf, sentTo_cons_sendTo, if_pos rfl, sentTo_cons_notifyHost, hsent]
  | departed gone _ _ _ _ _ _ _ hmembers =>
      rw [members_queueMembersGone, members_rotated, hmembers] at hm
      exact (hnone (List.mem_filter.mp hm).1).elim

end RoomActor

end Veilroom
