import Veilroom.Room.Consistency
import Veilroom.System.Informed

/-!
Every member comes to know everyone, over every run that tells it.

A turn keeps a session informed unless it removes members while the room still
owes the session news of another (`LeavesNobodyOut`); who enters is owed the
whole table.
-/
namespace Veilroom

namespace RoomActor
variable {P : Primitives} {rng : Rng} {own : MemberIdentity} {a a' b : RoomActor}
variable {event : RoomEvent} {s s' : ChatSession} {n m : Member} {gone : List MemberId}
variable {identity : ConnectionId → MemberIdentity} {started : List RoomAction} {past : Past}

theorem owed_nil (h : a.pendingMembership = []) (c : ConnectionId) : a.owed c = [] := by
  rw [owed, h, sentTo_nil]

theorem roster_filter {gone : List MemberId}
    (h : a'.members.members = a.members.members.filter fun m => m.memberId ∉ gone) :
    a'.roster = a.roster.filter fun entry => entry.1 ∉ gone := by
  rw [roster, h, roster, List.filter_map]
  rfl

/-- The message `queue_member_joined` queues for the others. -/
def welcome (P : Primitives) (a : RoomActor) (member : Member) : MemberJoined :=
  ⟨a.roomSequence + 1, a.epoch, member.memberId, member.nickname, member.ed25519Pubkey,
    a.hostIdentity.sign P (roomEventTranscript 1 a.sessionId (a.roomSequence + 1) a.epoch
      msgMemberJoined (memberJoinedBody member.memberId member.nickname member.ed25519Pubkey))⟩

/-- The message `queue_member_snapshot` queues for the newcomer. -/
def tableau (P : Primitives) (a : RoomActor) : MemberSnapshot :=
  let members := a.members.members.map Member.toSnapshot
  ⟨a.roomSequence + 1, a.epoch, members, a.hostIdentity.sign P
    (roomEventTranscript 1 a.sessionId (a.roomSequence + 1) a.epoch msgMemberSnapshot
      (memberSnapshotBody (members.map SnapshotMember.toBody)))⟩

theorem pendingMembership_queueMemberJoined (a : RoomActor) (member : Member) :
    (a.queueMemberJoined P member).pendingMembership = a.pendingMembership ++
      (a.members.members.filter fun other => other.memberId ≠ member.memberId).map
        (fun other => .sendTo other.connection (.memberJoined (a.welcome P member))) ++
      [.sendTo member.connection
        (.memberSnapshot (tableau P { a with roomSequence := a.roomSequence + 1 }))] := rfl

/-- The others are owed the news of a newcomer. -/
theorem owed_queueMemberJoined (hnodup : (a.members.members.map Member.connection).Nodup)
    {member : Member} (hm : m ∈ a.members.members) (hid : m.memberId ≠ member.memberId)
    (hc : member.connection ≠ m.connection) :
    (a.queueMemberJoined P member).owed m.connection =
      a.owed m.connection ++ [.memberJoined (a.welcome P member)] := by
  rw [owed, pendingMembership_queueMemberJoined, sentTo_append, sentTo_append, sentTo_cons_sendTo,
    if_neg hc, sentTo_nil, List.append_nil]
  congr 1
  refine sentTo_broadcast (hnodup.sublist (List.filter_sublist.map _)) _ ?_
  exact List.mem_filter.mpr ⟨hm, by simpa using hid⟩

/-- The newcomer is owed the table. -/
theorem owed_newcomer (hnodup : (a.members.members.map Member.connection).Nodup)
    {member : Member} (hmember : member ∈ a.members.members) :
    (a.queueMemberJoined P member).owed member.connection = a.owed member.connection ++
      [.memberSnapshot (tableau P { a with roomSequence := a.roomSequence + 1 })] := by
  rw [owed, pendingMembership_queueMemberJoined, sentTo_append, sentTo_append, sentTo_cons_sendTo,
    if_pos rfl, sentTo_nil, sentTo_broadcast_of_not_mem, List.append_nil]
  · rfl
  · intro other hother hc
    obtain ⟨hother, hid⟩ := List.mem_filter.mp hother
    rw [List.inj_on_of_nodup_map hnodup hother hmember hc] at hid
    simp at hid

/-! ### Steps -/

theorem Informed.alike (hheld : HoldsEvents a) (h : Informed P own a n s) (halike : s'.Alike s)
    (howed : a'.pendingMembership = a.pendingMembership)
    (hmembers : a'.members.members.map Member.uncolored = a.members.members.map Member.uncolored)
    (hc : n.connection = m.connection) : Informed P own a' m s' where
  fresh message hmessage id hid view hview := by
    rw [owed_mono howed, ← hc] at hmessage
    have hmem : view.uncolored ∈ s.members.map MemberView.uncolored := by
      rw [← halike.members]
      exact List.mem_map_of_mem hview
    obtain ⟨view', hview', heq⟩ := List.mem_map.mp hmem
    have hfresh := h.fresh message hmessage id hid view' hview'
    rwa [show view'.memberId = view.memberId from congrArg Prod.fst heq] at hfresh
  roster := by
    rw [owed_mono howed, roster_congr hmembers, ← hc, ← h.roster]
    refine (halike.foldl_consume fun message hmessage => ?_).members
    exact (hheld _ message (mem_sentTo.mp hmessage)).1

/-- A room that owes nothing, and a session that knows who is in it. -/
theorem Informed.settled (howed : a.pendingMembership = [])
    (hmembers : s.members.map MemberView.uncolored = a.roster) : Informed P own a m s := by
  have hnone := owed_nil howed m.connection
  constructor
  · rw [hnone]
    exact nofun
  · rw [hnone]
    exact hmembers

theorem Informed.members (h : Informed P own a m s) (howed : a.pendingMembership = []) :
    s.members.map MemberView.uncolored = a.roster := by
  have hroster := h.roster
  rwa [owed_nil howed] at hroster

/-- An attuned session that knows everyone but the newcomer admits the news of it. -/
theorem Attuned.joins (law : P.Lawful) (h : Attuned P a m s)
    (hkey : ∃ key, a.currentKey = some (a.epoch, key)) (hvalid : a.registry.Valid)
    {members : List Member} {member : Member} (hmembers : a.members.members = members ++ [member])
    (hknown : s.members.map MemberView.uncolored = members.map fun m => m.toView.uncolored)
    (hnickname : validateNickname P member.nickname Limits.default = .ok member.nickname)
    (hid : member.memberId ≠ 0) : ChatSession.Joins P s (a.welcome P member) where
  nickname := ⟨_, hnickname⟩
  memberId := hid
  fresh view hview hclash := by
    have hmem : view.uncolored ∈ members.map fun m => m.toView.uncolored := by
      rw [← hknown]
      exact List.mem_map_of_mem hview
    obtain ⟨other, hother, heq⟩ := List.mem_map.mp hmem
    have hapart := hvalid.apart
    rw [show a.registry.members.members = _ from hmembers, List.pairwise_append] at hapart
    have hapart := hapart.2.2 other hother member (.head _)
    rw [← ChatSession.clashes_congr heq] at hclash
    obtain hclash | hclash | hclash := hclash
    · exact hapart.memberId hclash
    · exact hapart.nickname hclash
    · exact hapart.ed25519Pubkey hclash
  accepts := h.accepts law hkey (Nat.lt_succ_self _) _ _

theorem Informed.joined (law : P.Lawful) (h : Attuned P a m s)
    (hkey : ∃ key, a.currentKey = some (a.epoch, key)) (hvalid : a.registry.Valid)
    (howed : a.pendingMembership = []) {members : List Member} {member : Member}
    (hmembers : a.members.members = members ++ [member])
    (hknown : s.members.map MemberView.uncolored = members.map fun m => m.toView.uncolored)
    (hnickname : validateNickname P member.nickname Limits.default = .ok member.nickname)
    (hid : member.memberId ≠ 0) (hguest : member.isHost = false) (hm : m ∈ members) :
    Informed P own (a.queueMemberJoined P member) m s := by
  have hjoins := h.joins law hkey hvalid hmembers hknown hnickname hid
  have hapart := hvalid.apart
  rw [show a.registry.members.members = _ from hmembers, List.pairwise_append] at hapart
  have hapart := hapart.2.2 m hm member (.head _)
  have hm : m ∈ a.members.members := by
    rw [hmembers]
    exact List.mem_append_left _ hm
  have hqueued := owed_queueMemberJoined (P := P) hvalid.connections_nodup hm hapart.memberId
    hapart.connection.symm
  rw [owed_nil howed, List.nil_append] at hqueued
  constructor
  · rw [hqueued]
    intro message hmessage id hjoiner view hview
    rw [List.mem_singleton.mp hmessage] at hjoiner
    cases hjoiner
    exact fun heq => hjoins.fresh view hview (.inl heq)
  · have hadmits : ChatSession.Admits P s (.memberJoined (a.welcome P member)) := hjoins
    rw [hqueued, List.foldl_cons, List.foldl_nil, ChatSession.consume_of_admits hadmits,
      RoomActor.roster, members_queueMemberJoined, hmembers, List.map_append]
    change (s.members ++ [(a.welcome P member).toView]).map MemberView.uncolored = _
    rw [List.map_append, hknown, List.map_singleton, List.map_singleton]
    congr 2
    simp [welcome, MemberJoined.toView, Member.toView, MemberView.uncolored, hguest]

/-- What the newcomer is owed tells it of everyone. -/
theorem Informed.newcomer (law : P.Lawful) (h : Attuned P a m s)
    (hkey : ∃ key, a.currentKey = some (a.epoch, key)) (hvalid : a.registry.Valid)
    (howed : a.pendingMembership = [])
    (hlimit : a.members.limit ≤ Limits.default.maxActiveMembers)
    (hnames : ∀ n ∈ a.members.members,
      ∃ nickname, validateNickname P n.nickname Limits.default = .ok nickname)
    (hm : m ∈ a.members.members) : Informed P own (a.queueMemberJoined P m) m s := by
  have hqueued := owed_newcomer (P := P) hvalid.connections_nodup hm
  rw [owed_nil howed, List.nil_append] at hqueued
  have hadmits : ChatSession.Admits P s
      (.memberSnapshot (tableau P { a with roomSequence := a.roomSequence + 1 })) := by
    refine ⟨?_, h.accepts law hkey (Nat.lt_succ_of_lt (Nat.lt_succ_self _)) _ _⟩
    rw [h.memberId]
    exact validateSnapshot_ok hvalid hlimit hnames hm
  constructor
  · rw [hqueued]
    intro message hmessage id hjoiner
    rw [List.mem_singleton.mp hmessage] at hjoiner
    cases hjoiner
  · rw [hqueued, List.foldl_cons, List.foldl_nil, ChatSession.consume_of_admits hadmits]
    change ((a.members.members.map Member.toSnapshot).map SnapshotMember.toView).map
      MemberView.uncolored = a.roster
    rw [List.map_map, List.map_map]
    exact List.map_congr_left fun n _ => congrArg MemberView.uncolored (toView_toSnapshot n)

/-- Departures: what was held back is lost on the session, and the farewells reach it. -/
theorem Informed.departed (law : P.Lawful) (h : Informed P own a n s) (hheld : HoldsEvents a)
    (htabled : Tabled a b) {key : Key} (hattuned : Attuned P (b.rotated key) m s')
    (hs : s'.members = s.members) (hc : n.connection = m.connection)
    (hmoot : a.Moot gone n) (hmembers : b.members.members =
      a.members.members.filter fun m => m.memberId ∉ gone)
    (hnodup : (b.members.members.map Member.connection).Nodup) (hm : m ∈ b.members.members)
    {eventType : UInt8} (htype : eventType = msgMemberLeft ∨ eventType = msgMemberKicked) :
    Informed P own ((b.rotated key).queueMembersGone P gone eventType) m s' := by
  have hkey : ∃ key', (b.rotated key).currentKey = some ((b.rotated key).epoch, key') := ⟨key, rfl⟩
  obtain ⟨farewells, howed, hkinds, hfilter⟩ :=
    owed_queueMembersGone own law (a := b.rotated key) hnodup hm hkey gone htype
  have hsame : (b.rotated key).owed m.connection = a.owed n.connection := by
    rw [hc]
    exact owed_mono htabled.pendingMembership _
  rw [hsame] at howed
  have hcurrent : s'.epoch = some (a.epoch + 1) := by
    rw [ChatSession.epoch, hattuned.currentEpoch, currentKey_rotated htabled]
    rfl
  have hstale : (a.owed n.connection).foldl (ChatSession.consume P own) s' = s' := by
    refine foldl_consume_stale hcurrent fun message hmessage => ?_
    obtain ⟨hkind, -, epoch, heq, hle⟩ := hheld _ message (mem_sentTo.mp hmessage)
    exact ⟨hkind, epoch, heq, Nat.lt_succ_of_le hle⟩
  constructor
  · rw [howed, hs]
    intro message hmessage id hid
    obtain hmessage | hmessage := List.mem_append.mp hmessage
    · exact h.fresh message hmessage id hid
    · rw [hkinds message hmessage] at hid
      cases hid
  · rw [howed, List.foldl_append, hstale, hfilter s' hattuned, hs, h.moot hmoot]
    refine (roster_filter ?_).symm
    rw [members_queueMembersGone]
    exact hmembers

theorem Moot.congr {gone' : List MemberId} (h : a.Moot gone m) (hgone : ∀ id ∈ gone, id ∈ gone')
    (hc : m.connection = n.connection) : a.Moot gone' n := by
  intro message hmessage
  rw [← hc] at hmessage ⊢
  obtain ⟨id, hid, hintroduced, hleft⟩ := h message hmessage
  exact ⟨id, hid, hintroduced, fun n hn heq => hgone id (hleft n hn heq)⟩

theorem moot_of_settled (howed : a.pendingMembership = []) : a.Moot gone m := by
  intro message hmessage
  rw [owed_nil howed] at hmessage
  cases hmessage

/-- A turn keeps a session informed, unless it removes members and leaves `m` out. -/
theorem Turn.informed (law : P.Lawful) (hattuned : Attuned P a n s) (h : Informed P own a n s)
    (heq : n.uncolored = m.uncolored) (hkey : ∃ key, a.currentKey = some (a.epoch, key))
    (hheld : HoldsEvents a) (hsettled : a.state ≠ .epochTransition → a.pendingMembership = [])
    (hnames : ∀ q ∈ a.requests.requests,
      validateNickname P q.application.nickname Limits.default = .ok q.application.nickname)
    (hown : m.x25519Pubkey = own.x25519Pubkey P) (hvalid : a.registry.Valid)
    (hvalid' : a'.registry.Valid)
    (hmoot : a.state = .epochTransition → a'.epoch ≠ a.epoch →
      n.memberId ∉ a.departing event → a.Moot (a.departing event) n)
    (hturn : Turn P rng own a event a' m s s') : Informed P own a' m s' := by
  have hid := Member.memberId_congr heq
  have hc := Member.connection_congr heq
  cases hturn with
  | idle hunmoved =>
      exact h.alike hheld (.refl s) hunmoved.pendingMembership hunmoved.members hc
  | relayed _ _ hunmoved =>
      exact h.alike hheld (ChatSession.consume_relayed_alike _ _) hunmoved.pendingMembership
        hunmoved.members hc
  | @policySet notice hstate hunmoved =>
      have howed := hsettled hstate
      refine .settled (hunmoved.pendingMembership.trans howed) ?_
      rw [roster_congr hunmoved.members, ← h.members howed]
      have hcases : s.consume P own (.joinPolicyChanged notice) = s ∨ _ :=
        ChatSession.consume_joinPolicyChanged notice
      obtain heq | heq := hcases <;> rw [heq]
  | activated _ _ _ hreleased hmembers =>
      refine .settled hreleased ?_
      rw [← hc, roster_congr (a := a) (congrArg (fun t : MemberTable =>
        t.members.map Member.uncolored) hmembers)]
      exact h.roster
  | @joined b key wraps request member wrap hstate htabled hrequest hmember hmembers _ hafter hm
      hof =>
      have howed := hsettled hstate
      rw [hafter] at hvalid' ⊢
      rw [hattuned.wrapped law hof hid hkey hown]
      refine Informed.joined law (hattuned.begun
        (sameRoom_rotated htabled key) (currentKey_rotated htabled key) ?_ hid _) ⟨key, rfl⟩
        hvalid' ?_ hmembers (h.members howed) ?_ ?_ ?_ hm
      · rw [roomSequence_rotated htabled]
        exact Nat.le_succ _
      · exact htabled.pendingMembership.trans howed
      · rw [hmember]
        exact hnames request hrequest
      · rw [hmember]
        exact Nat.ne_of_gt hvalid.next_pos
      · rw [hmember]
  | @departed b key wraps gone eventType wrap htabled hgone hmembers htype _ hafter hm hof =>
      have hstays : m.memberId ∉ gone := by
        rw [hmembers, List.mem_filter] at hm
        simpa using hm.2
      obtain ⟨sequence, held, hqueued, -⟩ :=
        queueMembersGone_eq (P := P) (b.rotated key) gone eventType
      have hlater : a'.epoch ≠ a.epoch := by
        rw [hafter, hqueued]
        change b.epoch + 1 ≠ a.epoch
        rw [htabled.epoch]
        exact Nat.succ_ne_self _
      have hmoot : a.Moot gone n := by
        by_cases hstate : a.state = .epochTransition
        · refine (hmoot hstate hlater fun hmem => ?_).congr
            (fun id hid => (hgone hstate id).mpr hid) rfl
          rw [hid] at hmem
          exact hstays ((hgone hstate _).mpr hmem)
        · exact moot_of_settled (hsettled hstate)
      rw [hafter] at hvalid' ⊢
      rw [hattuned.wrapped law hof hid hkey hown]
      refine h.departed law hheld htabled (hattuned.begun (sameRoom_rotated htabled key)
        (currentKey_rotated htabled key) ?_ hid _) rfl hc hmoot hmembers ?_ hm htype
      · rw [roomSequence_rotated htabled]
        exact Nat.le_succ _
      · have hnodup := hvalid'.connections_nodup
        rwa [show (registry _).members = _ from members_queueMembersGone P _ gone eventType]
          at hnodup

/-- The session of a member that has just entered will know everyone. -/
theorem Enters.informed (law : P.Lawful) {wrap : EpochWrap} (h : Enters P rng a a' m wrap)
    (hsettled : a.state ≠ .epochTransition → a.pendingMembership = [])
    (hvalid' : a'.registry.Valid) (hlimit : a'.members.limit ≤ Limits.default.maxActiveMembers)
    (hnames : ∀ n ∈ a'.members.members,
      ∃ nickname, validateNickname P n.nickname Limits.default = .ok nickname)
    (hm : m ∈ a'.members.members) (hown : m.x25519Pubkey = own.x25519Pubkey P) :
    Informed P own a' m ((ChatSession.new a.sessionId (a.hostIdentity.ed25519Pubkey P)
      (a.hostIdentity.x25519Pubkey P) m.memberId).consume P own (.epochWrap wrap)) := by
  obtain ⟨key, hkey, heq⟩ := h.opened law hown
  obtain ⟨hstate, htabled, -, -, -, -, rfl, -⟩ := h
  rw [heq]
  refine Informed.newcomer law ?_ ⟨_, rfl⟩ hvalid' ?_ hlimit hnames hm
  · exact ⟨htabled.sessionId.symm, congrArg (fun i => i.ed25519Pubkey P) htabled.hostIdentity.symm,
      congrArg (fun i => i.x25519Pubkey P) htabled.hostIdentity.symm, rfl, hkey.symm, nofun⟩
  · exact htabled.pendingMembership.trans (hsettled hstate)

/-! ### Runs -/

section
variable {setup : Setup} {a₀ : RoomActor}

/-- The host keeps the nickname the room was created with. -/
theorem Run.hostNickname (hstart : Started P setup a₀ started)
    (hplain : validateNickname P setup.hostNickname setup.limits = .ok setup.hostNickname)
    (run : Run P Unconstrained a₀ past a) :
    ∀ m ∈ a.members.members, m.memberId = 0 → m.nickname = setup.hostNickname := by
  refine run.invariant (fun _ a => ∀ m ∈ a.members.members, m.memberId = 0 →
    m.nickname = setup.hostNickname) ?_ ?_
  · obtain ⟨nickname, sessionId, token, key, wraps, hopening⟩ := hstart.opening
    rw [hopening.actor]
    intro m hm _
    rw [List.mem_singleton.mp hm]
    exact Except.ok.inj (hopening.validated.symm.trans hplain)
  · intro past a input run ih _ m hm hid
    have hvalid := Run.valid hstart.valid run
    have hstep := (handleEventAt_effect P input.rng hvalid input.event input.now).step
    obtain ⟨n, hn, heq⟩ := hstep.later.member m hm (hid ▸ hvalid.next_pos)
    rw [← heq] at hid ⊢
    exact ih n hn hid

/-- An orderly run in which everyone is told who comes and goes: no event removes members while
the room still owes a member that stays the news of another. -/
structure Telling (P : Primitives) (identity : ConnectionId → MemberIdentity) (past : Past)
    (a : RoomActor) (input : Input) : Prop extends Fair P identity past a input where
  told : LeavesNobodyOut { a with now := input.now } input.event

theorem Run.informed (law : P.Lawful) (hstart : Started P setup a₀ started)
    (hhost : identity setup.hostConnection = setup.hostClientIdentity)
    (hlimits : setup.limits = Limits.default)
    (hplain : validateNickname P setup.hostNickname setup.limits = .ok setup.hostNickname)
    (run : Run P (Telling P identity) a₀ past a) :
    a.state = .destroyed ∨ ∀ m ∈ a.members.members,
      ∃ s, Seat.heard P setup a₀ identity started past m.connection = some s ∧
        Attuned P a m s ∧ Informed P (identity m.connection) a m s := by
  have hlimit : setup.limits.maxActiveMembers = Limits.default.maxActiveMembers := by rw [hlimits]
  refine run.sessions law hstart hhost (fun _ _ _ telling => telling.toFair)
    (fun a m s => Attuned P a m s ∧ Informed P (identity m.connection) a m s) ?_ ?_ ?_ ?_
  · exact fun a now m s h => ⟨{ h.1 with }, { h.2 with }⟩
  · intro m hm
    obtain ⟨s, hs, hattuned⟩ := hstart.attuned law hhost hm
    obtain ⟨-, key, -, hheard⟩ := hstart.heard law hhost hm
    refine ⟨s, hs, hattuned, ?_⟩
    rw [hs] at hheard
    cases hheard
    obtain ⟨nickname, sessionId, token, key, wraps, hopening⟩ := hstart.opening
    cases hopening.validated.symm.trans hplain
    have hactor := hopening.actor
    subst hactor
    exact .settled rfl rfl
  · intro past a input n m s s' hfacing telling hn heq hm hvalid' h hturn
    have hnow := hfacing.presented.step law hfacing.facts telling.toFair
    have hsettled : a.state ≠ .epochTransition → a.pendingMembership = [] := by
      intro hstate
      obtain ⟨p, hp⟩ | hsettled := hfacing.phase
      · exact absurd hp.state hstate
      · exact hsettled.held
    refine ⟨hturn.attuned law h.1 (Member.memberId_congr heq) hfacing.phase.currentKey hfacing.held
      (hnow.members m hm).2, ?_⟩
    rw [← Member.connection_congr heq] at hturn ⊢
    refine hturn.informed law h.1 h.2 heq hfacing.phase.currentKey hfacing.held hsettled
      (fun q hq => (hfacing.presented.requests q hq).2) ?_ hfacing.facts.valid hvalid' ?_
    · rw [Member.connection_congr heq]
      exact (hnow.members m hm).2
    · intro hstate hlater hstays
      refine telling.told (fun hnone => hlater ?_) n hn hstays
      obtain ⟨p, hp⟩ | hsettled := hfacing.phase
      · exact hp.same_epoch hfacing.facts.valid hnone
      · rw [hsettled.state] at hstate
        exact absurd hstate (JoinPolicy.roomState_ne_epochTransition _)
  · intro past a input m wrap hfacing hm hvalid' hidentity hsession henters
    have hnow := hfacing.presented.step law hfacing.facts hfacing.fair
    have hattuned := henters.attuned law (hnow.members m hm).2
    have hsettled : a.state ≠ .epochTransition → a.pendingMembership = [] := by
      intro hstate
      obtain ⟨p, hp⟩ | hsettled := hfacing.phase
      · exact absurd hp.state hstate
      · exact hsettled.held
    rw [← hidentity, ← hsession]
    have run : Run P Unconstrained a₀
      (⟨a, input, (a.handle P input).2, (a.handle P input).1⟩ :: past)
        (a.handle P input).1 := .step (hfacing.run.mono fun _ _ _ _ => trivial) trivial
    refine ⟨hattuned, henters.informed law hsettled hvalid' ?_ ?_ hm (hnow.members m hm).2⟩
    · rw [Run.limit hstart run, hlimit]
    · intro n hn
      by_cases hid : n.memberId = 0
      · rw [Run.hostNickname hstart hplain run n hn hid]
        exact ⟨_, hlimits ▸ hplain⟩
      · exact ⟨_, hnow.guests n hn hid⟩

end

end RoomActor

end Veilroom
