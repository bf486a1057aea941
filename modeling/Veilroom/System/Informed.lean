import Veilroom.Room.Restarts
import Veilroom.System.Attuned

/-!
Every member knows who is in the room, once it has been told.

`Informed` compares what a session will make of everything the room still
holds back for it with the room's table. A departure in the middle of a
transition makes the room sign for the next epoch, and what it held back is
refused when it is released; that costs a member nothing exactly when all of it
is `Moot`.
-/
namespace Veilroom

/-- The member a broadcast is about. -/
def Message.subject? : Message → Option MemberId
  | .memberJoined event => some event.memberId
  | .memberLeft event | .memberKicked event => some event.memberId
  | _ => none

/-- The member a broadcast introduces. -/
def Message.joiner? : Message → Option MemberId
  | .memberJoined event => some event.memberId
  | _ => none

theorem toView_toSnapshot (m : Member) : m.toSnapshot.toView = m.toView := by
  simp [Member.toSnapshot, SnapshotMember.toView, Member.toView, ColorChoice.fromIndex_asIndex]

/-! ### Snapshots -/

theorem validateSnapshotEntries_ok {P : Primitives} {members prior : List SnapshotMember}
    (hnames : ∀ m ∈ members, ∃ nickname,
      validateNickname P m.nickname Limits.default = .ok nickname)
    (hcolors : ∀ m ∈ members, (ColorChoice.fromIndex m.color).isSome)
    (hprior : ∀ p ∈ prior, ∀ m ∈ members, ¬ p.toView.Clashes m.toView)
    (hpairs : members.Pairwise fun a b => ¬ a.toView.Clashes b.toView) :
    validateSnapshotEntries P prior members = .ok () := by
  induction members generalizing prior with
  | nil => rfl
  | cons member rest ih =>
      rw [List.forall_mem_cons] at hnames hcolors
      rw [List.pairwise_cons] at hpairs
      obtain ⟨nickname, hnickname⟩ := hnames.1
      have hseen : (prior.any fun p => p.memberId = member.memberId ||
          p.nickname = member.nickname || p.ed25519Pubkey = member.ed25519Pubkey) = false := by
        rw [List.any_eq_false]
        intro p hp
        have hclash := hprior p hp member (.head _)
        simpa [MemberView.Clashes, SnapshotMember.toView, not_or, and_assoc] using hclash
      have hcolor : (ColorChoice.fromIndex member.color).isNone = false := by
        simpa using hcolors.1
      rw [validateSnapshotEntries, hnickname]
      dsimp only
      rw [hcolor, hseen]
      apply ih hnames.2 hcolors.2 _ hpairs.2
      intro p hp m hm
      obtain hp | hp := List.mem_append.mp hp
      · exact hprior p hp m (.tail _ hm)
      · rw [List.mem_singleton.mp hp]
        exact hpairs.1 m hm

theorem validateSnapshot_ok {P : Primitives} {r : Registry} (h : r.Valid)
    (hlimit : r.members.limit ≤ Limits.default.maxActiveMembers)
    (hnames : ∀ m ∈ r.members.members,
      ∃ nickname, validateNickname P m.nickname Limits.default = .ok nickname)
    {m : Member} (hm : m ∈ r.members.members) :
    validateSnapshot P (r.members.members.map Member.toSnapshot) m.memberId = .ok () := by
  have hown : ((r.members.members.map Member.toSnapshot).isEmpty ||
      !(r.members.members.map Member.toSnapshot).any fun member =>
        member.memberId = m.memberId) = false := by
    rw [Bool.or_eq_false_iff]
    constructor
    · rw [List.isEmpty_eq_false_iff]
      exact List.ne_nil_of_mem (List.mem_map_of_mem hm)
    · rw [Bool.not_eq_false', List.any_eq_true]
      exact ⟨m.toSnapshot, List.mem_map_of_mem hm, decide_eq_true rfl⟩
  have hlength : ¬ (r.members.members.map Member.toSnapshot).length >
      Limits.default.maxActiveMembers := by
    have hwithin := h.within_limit
    rw [List.length_map]
    have hone : 1 ≤ Limits.default.maxActiveMembers := by decide
    omega
  have hhost : ((r.members.members.map Member.toSnapshot).filter fun member =>
      member.isHost && member.memberId = 0).length = 1 := by
    obtain ⟨host, hmem, hzero, -⟩ := h.host
    have hids : (r.members.members.map Member.memberId).count 0 = 1 :=
      List.count_eq_one_of_mem h.ids_nodup (hzero ▸ List.mem_map_of_mem hmem)
    rw [← List.countP_eq_length_filter, List.countP_map, ← hids, List.count, List.countP_map]
    apply List.countP_congr
    intro n hn
    have hiff := h.isHost_iff n hn
    by_cases hid : n.memberId = 0
    · simp [Member.toSnapshot, hid, hiff.mpr hid]
    · simp [Member.toSnapshot, hid]
  have hflags : ((r.members.members.map Member.toSnapshot).any fun member =>
      member.isHost ≠ decide (member.memberId = 0)) = false := by
    rw [List.any_eq_false]
    intro member hmember
    obtain ⟨n, hn, rfl⟩ := List.mem_map.mp hmember
    have hiff := h.isHost_iff n hn
    by_cases hid : n.memberId = 0
    · simp [Member.toSnapshot, hid, hiff.mpr hid]
    · have hguest : n.isHost = false := by simpa using mt hiff.mp hid
      simp [Member.toSnapshot, hid, hguest]
  unfold validateSnapshot
  rw [hown, if_neg (by simp), if_neg hlength, hhost, hflags, if_neg (by simp)]
  apply validateSnapshotEntries_ok
  · intro member hmember
    obtain ⟨n, hn, rfl⟩ := List.mem_map.mp hmember
    exact hnames n hn
  · intro member hmember
    obtain ⟨n, -, rfl⟩ := List.mem_map.mp hmember
    simp [Member.toSnapshot, ColorChoice.fromIndex_asIndex]
  · exact fun p hp => nomatch hp
  · rw [List.pairwise_map]
    refine h.apart.imp fun hapart hclash => ?_
    obtain hid | hnickname | hkey := hclash
    · exact hapart.memberId hid
    · exact hapart.nickname hnickname
    · exact hapart.ed25519Pubkey hkey

namespace RoomActor
variable {P : Primitives} {rng : Rng} {own : MemberIdentity} {a a' b : RoomActor}
variable {event : RoomEvent} {s s' t : ChatSession} {n m : Member} {gone : List MemberId}
variable {identity : ConnectionId → MemberIdentity} {started : List RoomAction} {past : Past}

/-- The room's table as a session keeps it, but for colors. -/
def roster (a : RoomActor) : List (MemberId × String × Bool × Key) :=
  a.members.members.map fun m => m.toView.uncolored

/-- What the room holds back for a connection. -/
def owed (a : RoomActor) (c : ConnectionId) : List Message := sentTo c a.pendingMembership

/-- The session will know who is in the room, once it has what the room owes it. -/
structure Informed (P : Primitives) (own : MemberIdentity) (a : RoomActor) (m : Member)
    (s : ChatSession) : Prop where
  fresh : ∀ message ∈ a.owed m.connection, ∀ id ∈ message.joiner?,
    ∀ view ∈ s.members, view.memberId ≠ id
  roster : ((a.owed m.connection).foldl (ChatSession.consume P own) s).members.map
    MemberView.uncolored = a.roster

/-- All the room owes `m` is about members it was never told of and that are not in the room once
`gone` have left. -/
def Moot (a : RoomActor) (gone : List MemberId) (m : Member) : Prop :=
  ∀ message ∈ a.owed m.connection, ∃ id ∈ message.subject?,
    (∃ other ∈ a.owed m.connection, id ∈ other.joiner?) ∧
      ∀ n ∈ a.members.members, n.memberId = id → id ∈ gone

instance (a : RoomActor) (gone : List MemberId) (m : Member) : Decidable (a.Moot gone m) :=
  inferInstanceAs (Decidable (∀ _ ∈ _, _))

/-- What the room owes those who stay is moot whenever an event removes members. -/
def LeavesNobodyOut (a : RoomActor) (event : RoomEvent) : Prop :=
  a.departing event ≠ [] → ∀ m ∈ a.members.members, m.memberId ∉ a.departing event →
    a.Moot (a.departing event) m

/-! ### What the room owes -/

theorem owed_mono (h : a'.pendingMembership = a.pendingMembership) (c : ConnectionId) :
    a'.owed c = a.owed c := by
  rw [owed, h, owed]

theorem roster_congr (h : a'.members.members.map Member.uncolored =
    a.members.members.map Member.uncolored) : a'.roster = a.roster := by
  have huncolored (l : List Member) : l.map (fun m => m.toView.uncolored) =
      (l.map Member.uncolored).map fun m => m.toView.uncolored := by
    rw [List.map_map]
    rfl
  rw [roster, huncolored, h, ← huncolored, roster]

/-- The room signs its events so that an attuned session accepts them. -/
theorem Attuned.accepts (law : P.Lawful) (h : Attuned P a m t)
    (hkey : ∃ key, a.currentKey = some (a.epoch, key)) {sequence : Nat}
    (hlater : a.roomSequence < sequence) (eventType : UInt8) (body : Bytes) :
    ChatSession.Accepts P t sequence a.epoch eventType body
      (a.hostIdentity.sign P
        (roomEventTranscript 1 a.sessionId sequence a.epoch eventType body)) where
  signed := by
    rw [h.hostEd25519Pubkey, h.roomSessionId]
    exact law.verify_sign _ _
  epoch current hcurrent := by
    obtain ⟨key, hkey⟩ := hkey
    rw [ChatSession.epoch, h.currentEpoch, hkey] at hcurrent
    cases hcurrent
    rfl
  sequence last hlast := Nat.lt_of_le_of_lt (h.last last hlast) hlater

/-- What was signed for an earlier epoch is lost on a session. -/
theorem foldl_consume_stale {messages : List Message} {epoch : Nat}
    (hcurrent : t.epoch = some epoch)
    (hmessages : ∀ message ∈ messages, message.isMembership = true ∧
      ∃ e, message.eventEpoch = some e ∧ e < epoch) :
    messages.foldl (ChatSession.consume P own) t = t := by
  induction messages with
  | nil => rfl
  | cons message rest ih =>
      rw [List.forall_mem_cons] at hmessages
      obtain ⟨⟨hmessage, e, he, hlt⟩, hrest⟩ := hmessages
      have hrefused := ChatSession.not_admits_of_epoch (P := P) he hcurrent (Nat.ne_of_lt hlt)
      rw [List.foldl_cons, ChatSession.consume_of_not_admits hmessage hrefused]
      exact ih hrest

/-! ### Departures -/

/-- The message `queue_member_gone` queues for everyone. -/
def farewell (P : Primitives) (a : RoomActor) (id : MemberId) (eventType : UInt8) : Message :=
  goneMessage eventType ⟨a.roomSequence + 1, a.epoch, id, a.hostIdentity.sign P
    (roomEventTranscript 1 a.sessionId (a.roomSequence + 1) a.epoch eventType (memberGoneBody id))⟩

theorem owed_queueMemberGone (hnodup : (a.members.members.map Member.connection).Nodup)
    (hm : m ∈ a.members.members) (id : MemberId) (eventType : UInt8) :
    (a.queueMemberGone P id eventType).owed m.connection =
      a.owed m.connection ++ [a.farewell P id eventType] := by
  rw [owed, queueMemberGone, sentTo_append]
  exact congrArg _ (sentTo_broadcast hnodup _ hm)

/-- An attuned session drops whoever the room says has gone. -/
theorem Attuned.consume_farewell (law : P.Lawful) (h : Attuned P a m t)
    (hkey : ∃ key, a.currentKey = some (a.epoch, key)) (id : MemberId) {eventType : UInt8}
    (htype : eventType = msgMemberLeft ∨ eventType = msgMemberKicked) :
    t.consume P own (a.farewell P id eventType) =
      { t with
        lastRoomSequence := some (a.roomSequence + 1)
        members := t.members.filter fun view => view.memberId ≠ id } := by
  have haccepts := h.accepts law hkey (Nat.lt_succ_self _) eventType (memberGoneBody id)
  have hadmits : ChatSession.Admits P t (a.farewell P id eventType) := by
    obtain rfl | rfl := htype
    · exact haccepts
    · exact haccepts
  rw [ChatSession.consume_of_admits hadmits]
  obtain rfl | rfl := htype <;> rfl

theorem Attuned.queueMemberGone (h : Attuned P a m t) (id : MemberId) (eventType : UInt8)
    (members : List MemberView) :
    Attuned P (a.queueMemberGone P id eventType) m
      { t with lastRoomSequence := some (a.roomSequence + 1), members } :=
  ⟨h.roomSessionId, h.hostEd25519Pubkey, h.hostX25519Pubkey, h.memberId, h.currentEpoch,
    fun _ hlast => Nat.le_of_eq (Option.some.inj hlast).symm⟩

/-- The farewells of several members, and what they make of a session. -/
theorem owed_queueMembersGone (own : MemberIdentity) (law : P.Lawful)
    (hnodup : (a.members.members.map Member.connection).Nodup) (hm : m ∈ a.members.members)
    (hkey : ∃ key, a.currentKey = some (a.epoch, key)) (gone : List MemberId) {eventType : UInt8}
    (htype : eventType = msgMemberLeft ∨ eventType = msgMemberKicked) :
    ∃ farewells, (a.queueMembersGone P gone eventType).owed m.connection =
        a.owed m.connection ++ farewells ∧
      (∀ message ∈ farewells, message.joiner? = none) ∧
      ∀ t, Attuned P a m t → (farewells.foldl (ChatSession.consume P own) t).members =
        t.members.filter fun view => view.memberId ∉ gone := by
  induction gone generalizing a with
  | nil =>
      refine ⟨[], (List.append_nil _).symm, nofun, fun t _ => ?_⟩
      simp
  | cons id rest ih =>
      obtain ⟨farewells, howed, hkinds, hmembers⟩ :=
        ih (a := a.queueMemberGone P id eventType) hnodup hm hkey
      refine ⟨a.farewell P id eventType :: farewells, ?_, ?_, fun t ht => ?_⟩
      · rw [owed_queueMemberGone hnodup hm, List.append_assoc] at howed
        exact howed
      · refine List.forall_mem_cons.mpr ⟨?_, hkinds⟩
        unfold farewell goneMessage
        split <;> rfl
      · rw [List.foldl_cons, ht.consume_farewell law hkey id htype,
          hmembers _ (ht.queueMemberGone id eventType _), List.filter_filter]
        apply List.filter_congr
        intro view _
        simp [Bool.and_comm]

/-! ### Moot messages -/

/-- Messages about members of `about` leave the others' entries alone. -/
theorem filter_foldl_consume (about : List MemberId) {messages : List Message}
    (hmessages : ∀ message ∈ messages, ∃ id ∈ message.subject?, id ∈ about) (t : ChatSession) :
    (messages.foldl (ChatSession.consume P own) t).members.filter
        (fun view => view.memberId ∉ about) =
      t.members.filter fun view => view.memberId ∉ about := by
  induction messages generalizing t with
  | nil => rfl
  | cons message rest ih =>
      rw [List.forall_mem_cons] at hmessages
      obtain ⟨⟨id, hid, habout⟩, hrest⟩ := hmessages
      rw [List.foldl_cons, ih hrest]
      have hmessage : message.isMembership = true := by
        cases message <;> first | rfl | cases hid
      by_cases hadmits : ChatSession.Admits P t message
      · rw [ChatSession.consume_of_admits hadmits]
        have hdropped (members : List MemberView) (hid : id ∈ about) :
            (members.filter fun view => view.memberId ≠ id).filter
                (fun view => view.memberId ∉ about) =
              members.filter fun view => view.memberId ∉ about := by
          rw [List.filter_filter]
          apply List.filter_congr
          intro view _
          by_cases hview : view.memberId ∈ about
          · simp [hview]
          · have hne : view.memberId ≠ id := fun heq => hview (heq ▸ hid)
            simp [hview, hne]
        cases message with
        | memberJoined event =>
            cases hid
            have hview : event.toView.memberId ∈ about := habout
            simp [ChatSession.heed, Message.rewrite, hview]
        | memberLeft event | memberKicked event =>
            cases hid
            exact hdropped t.members habout
        | _ => cases hid
      · rw [ChatSession.consume_of_not_admits hmessage hadmits]

/-- When all that is owed is moot, losing it loses nobody. -/
theorem Informed.moot (h : Informed P own a m s) (hmoot : a.Moot gone m) :
    (s.members.filter fun view => view.memberId ∉ gone).map MemberView.uncolored =
      a.roster.filter fun entry => entry.1 ∉ gone := by
  let about := (a.owed m.connection).filterMap Message.subject?
  have habout : ∀ id ∈ about, (∀ view ∈ s.members, view.memberId ≠ id) ∧
      ∀ n ∈ a.members.members, n.memberId = id → id ∈ gone := by
    intro id hid
    obtain ⟨message, hmessage, hsubject⟩ := List.mem_filterMap.mp hid
    obtain ⟨id', hid', ⟨other, hother, hjoiner⟩, hgone⟩ := hmoot message hmessage
    cases hsubject.symm.trans hid'
    exact ⟨h.fresh other hother id hjoiner, hgone⟩
  have hsubjects : ∀ message ∈ a.owed m.connection, ∃ id ∈ message.subject?, id ∈ about := by
    intro message hmessage
    obtain ⟨id, hid, -⟩ := hmoot message hmessage
    exact ⟨id, hid, List.mem_filterMap.mpr ⟨message, hmessage, hid⟩⟩
  have hkept : s.members.filter (fun view => view.memberId ∉ about) = s.members := by
    rw [List.filter_eq_self]
    intro view hview
    have hnot : view.memberId ∉ about := fun hmem => (habout _ hmem).1 view hview rfl
    simpa using hnot
  have hfold : ((a.owed m.connection).foldl (ChatSession.consume P own) s).members.filter
      (fun view => view.memberId ∉ about) = s.members := by
    rw [filter_foldl_consume about hsubjects, hkept]
  have hroster : a.roster.filter (fun entry => entry.1 ∉ gone) =
      (a.roster.filter fun entry => entry.1 ∉ about).filter fun entry => entry.1 ∉ gone := by
    rw [List.filter_filter]
    apply List.filter_congr
    intro entry hentry
    obtain ⟨n, hn, rfl⟩ := List.mem_map.mp hentry
    by_cases hmem : n.memberId ∈ about
    · have hgone := (habout _ hmem).2 n hn rfl
      simp [Member.toView, MemberView.uncolored, hgone]
    · simp [Member.toView, MemberView.uncolored, hmem]
  have hids (p : MemberId → Bool) (members : List MemberView) :
      (members.filter fun view => p view.memberId).map MemberView.uncolored =
        (members.map MemberView.uncolored).filter fun entry => p entry.1 := by
    rw [List.filter_map]
    rfl
  have habsent := hids (fun id => decide (id ∉ about))
    ((a.owed m.connection).foldl (ChatSession.consume P own) s).members
  rw [hroster, ← h.roster, ← habsent, hfold]
  exact hids (fun id => decide (id ∉ gone)) s.members

end RoomActor

end Veilroom
