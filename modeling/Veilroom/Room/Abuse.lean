import Veilroom.Chat.RateLimit
import Veilroom.Room.Scripts

/-!
The rate limit in the room: the bucket of every member answers as the limiter alone does on the
messages the member had charged to it, and the tenth denial in a row removes the member.
-/
namespace Veilroom
namespace RoomActor
variable {P : Primitives} {rng : Rng} {a a' : RoomActor}

/-- The bucket of every member is as it was, but for members that left. -/
def KeepsBuckets (a a' : RoomActor) : Prop :=
  ∀ id, a'.rateLimits id = a.rateLimits id ∨
    (∃ m ∈ a.members.members, m.memberId = id) ∧ ∀ m ∈ a'.members.members, m.memberId ≠ id

theorem KeepsBuckets.of_eq (h : a'.rateLimits = a.rateLimits) : KeepsBuckets a a' :=
  fun id => .inl (congrFun h id)

/-- What happens to the rest of the actor does not matter. -/
theorem KeepsBuckets.congr {b b' : RoomActor} (h : KeepsBuckets a a')
    (hbefore : b.rateLimits = a.rateLimits) (hmembers : b.members = a.members)
    (hafter : b'.rateLimits = a'.rateLimits) (hmembers' : b'.members = a'.members) :
    KeepsBuckets b b' := by
  intro id
  rw [hbefore, hmembers, hafter, hmembers']
  exact h id

theorem rateLimits_beginEpochTransition (P : Primitives) (rng : Rng) (b : RoomActor) :
    (b.beginEpochTransition P rng).1.rateLimits = b.rateLimits ∧
      (b.beginEpochTransition P rng).1.members = b.members := by
  obtain ⟨key, wraps, -, heq⟩ | ⟨error, heq⟩ := beginEpochTransition_cases P rng b
  · rw [heq]
    exact ⟨rfl, rfl⟩
  · rw [heq]
    exact ⟨rfl, rfl⟩

/-! ### Departures -/

theorem KeepsBuckets.without (h : a.registry.Valid) {m : Member} (hm : m ∈ a.members.members) :
    KeepsBuckets a (a.without m) := by
  intro id
  by_cases hid : id = m.memberId
  · refine .inr ⟨⟨m, hm, hid.symm⟩, ?_⟩
    intro n hn
    rw [members_without h] at hn
    simpa [hid] using (List.mem_filter.mp hn).2
  · exact .inl (if_neg hid)

theorem removeMember_keepsBuckets (P : Primitives) (rng : Rng) (h : a.registry.Valid)
    (id : MemberId) (eventType : UInt8) :
    KeepsBuckets a (a.removeMember P rng id eventType).1 := by
  obtain ⟨-, heq⟩ | ⟨-, heq⟩ | ⟨m, hm, -, -, hcases⟩ := removeMember_cases P rng h id eventType
  · rw [heq]
    exact .of_eq rfl
  · rw [heq]
    exact .of_eq rfl
  · have hwithout : KeepsBuckets a (a.without m) := .without h hm
    obtain ⟨error, -, heq⟩ | ⟨key, wraps, -, heq⟩ := hcases
    · rw [heq]
      exact hwithout.congr rfl rfl rfl rfl
    · rw [heq]
      exact hwithout.congr rfl rfl rfl rfl

theorem onMemberLeft_keepsBuckets (h : a.registry.Valid) (id : MemberId) :
    KeepsBuckets a (a.onMemberLeft P rng id).1 := by
  have hkeeps := removeMember_keepsBuckets P rng h id msgMemberLeft
  unfold onMemberLeft
  split <;> rename_i heq <;> rw [heq] at hkeeps <;> exact hkeeps

theorem onLeave_keepsBuckets (h : a.registry.Valid) (connection : ConnectionId) :
    KeepsBuckets a (a.onLeave P rng connection).1 := by
  unfold onLeave
  split
  · exact .of_eq rfl
  split
  · exact .of_eq rfl
  rename_i id _
  have hkeeps := removeMember_keepsBuckets P rng h id msgMemberLeft
  split <;> rename_i heq <;> rw [heq] at hkeeps <;> exact hkeeps

theorem onKick_keepsBuckets (h : a.registry.Valid) (target : MemberRef) :
    KeepsBuckets a (a.onKick P rng target).1 := by
  unfold onKick
  split
  · exact .of_eq rfl
  rename_i resolved _
  split
  · exact .of_eq rfl
  split
  · exact .of_eq rfl
  have hkeeps := removeMember_keepsBuckets P rng h resolved.memberId msgMemberKicked
  split <;> rename_i heq <;> rw [heq] at hkeeps <;> exact hkeeps

theorem rateLimits_closeRoom (a : RoomActor) : a.closeRoom.1.rateLimits = a.rateLimits := by
  unfold closeRoom
  split <;> rfl

theorem onConnectionLost_keepsBuckets (h : a.registry.Valid) (connection : ConnectionId) :
    KeepsBuckets a (a.onConnectionLost P rng connection).1 := by
  unfold onConnectionLost
  split
  · exact .of_eq (rateLimits_closeRoom a)
  dsimp only
  split
  · rename_i id _
    have hkeeps := removeMember_keepsBuckets P rng (a := { a with
      timeoutRequests := a.timeoutRequests.filter fun request => request.connection ≠ connection })
      (h.dropTimeoutRequests List.filter_sublist).valid id msgMemberLeft
    split <;> rename_i heq <;> rw [heq] at hkeeps
    · exact hkeeps
    · exact hkeeps.congr rfl rfl rfl rfl
    · exact hkeeps.congr rfl rfl rfl rfl
  split
  · exact .of_eq rfl
  split <;> exact .of_eq rfl

theorem rateLimits_forgetRateLimit (a : RoomActor) (id next : MemberId) :
    (a.forgetRateLimit next).rateLimits id = if id = next then none else a.rateLimits id := rfl

/-- The eviction loop forgets the buckets of the members it removes. -/
theorem rateLimits_evict (ids : List MemberId) (a : RoomActor) (id : MemberId) :
    (a.evict ids).1.rateLimits id =
      if id ∈ (a.evict ids).2.2 then none else a.rateLimits id := by
  induction ids generalizing a with
  | nil => rfl
  | cons next rest ih =>
      unfold evict
      split
      · exact ih a
      · rename_i members member _
        rw [ih]
        simp only [List.mem_cons]
        rw [rateLimits_forgetRateLimit]
        by_cases hnext : id = next
        · simp [hnext]
        · simp only [hnext, if_false, false_or]

theorem evict_keepsBuckets (h : a.registry.Valid) {ids : List MemberId} (hzero : 0 ∉ ids) :
    KeepsBuckets a (a.evict ids).1 := by
  have hspec := evict_spec ids a h hzero
  intro id
  rw [rateLimits_evict]
  split
  · rename_i hgone
    refine .inr ⟨((hspec.gone id).mp hgone).2, ?_⟩
    rintro m hm rfl
    rw [hspec.members] at hm
    simpa [hgone] using (List.mem_filter.mp hm).2
  · exact .inl rfl

theorem onEpochTimeout_keepsBuckets (h : a.registry.Valid) :
    KeepsBuckets a (a.onEpochTimeout P rng).1 := by
  unfold onEpochTimeout
  split
  · exact .of_eq rfl
  rename_i pending _
  split
  · exact .of_eq rfl
  split
  · exact .of_eq (rateLimits_closeRoom _)
  rename_i hzero
  have hkeeps := evict_keepsBuckets (a := { a with pendingEpoch := none }) h hzero
  obtain ⟨hbuckets, hmembers⟩ := rateLimits_beginEpochTransition P rng
    (evict { a with pendingEpoch := none } pending.awaiting).1
  dsimp only
  split <;> rename_i heq <;> rw [heq] at hbuckets hmembers
  · exact hkeeps.congr rfl rfl hbuckets hmembers
  · rename_i rotated wraps
    obtain ⟨sequence, held, hgone, -⟩ := queueMembersGone_eq (P := P) rotated
      (evict { a with pendingEpoch := none } pending.awaiting).2.2 msgMemberLeft
    have hsame := congrArg RoomActor.rateLimits hgone
    have htable := congrArg RoomActor.members hgone
    exact hkeeps.congr rfl rfl (hsame.trans hbuckets) (htable.trans hmembers)

/-! ### Requests and commands -/

theorem rateLimits_onEpochAck (a : RoomActor) (connection : ConnectionId) (epoch : Nat) :
    (a.onEpochAck connection epoch).1.rateLimits = a.rateLimits := by
  unfold onEpochAck
  split
  · rfl
  split
  · rfl
  split
  · rfl
  dsimp only
  split
  · rfl
  split <;> rfl

theorem rateLimits_onJoinRequested (a : RoomActor) (connection : ConnectionId)
    (application : JoinApplication) :
    (a.onJoinRequested connection application).1.rateLimits = a.rateLimits := by
  unfold onJoinRequested
  split
  · rfl
  split
  · rfl
  split
  · rfl
  split
  · rfl
  split <;> rfl

theorem rateLimits_takeRequest (a : RoomActor) (requestId : RequestId) :
    (a.takeRequest requestId).1.rateLimits = a.rateLimits := by
  unfold takeRequest
  split <;> rfl

theorem rateLimits_admitMember (a : RoomActor) (connection : ConnectionId)
    (application : JoinApplication) :
    (a.admitMember P rng connection application).1.rateLimits = a.rateLimits := by
  unfold admitMember
  split
  · rename_i members member _
    have hbuckets := (rateLimits_beginEpochTransition P rng { a with
      members
      connections :=
        ((a.connections.register connection).promote connection member.memberId).1 }).1
    dsimp only
    split <;> rename_i heq <;> rw [heq] at hbuckets <;> exact hbuckets
  · rfl

theorem rateLimits_onAccept (a : RoomActor) (requestId : RequestId) :
    (a.onAccept P rng requestId).1.rateLimits = a.rateLimits := by
  unfold onAccept
  split
  · rfl
  have htake := rateLimits_takeRequest a requestId
  split <;> rename_i heq <;> rw [heq] at htake
  · exact htake
  · exact (rateLimits_admitMember _ _ _).trans htake

theorem rateLimits_onReject (a : RoomActor) (requestId : RequestId) :
    (a.onReject requestId).1.rateLimits = a.rateLimits := by
  unfold onReject
  split
  · rfl
  have htake := rateLimits_takeRequest a requestId
  split <;> rename_i heq <;> rw [heq] at htake <;> exact htake

theorem rateLimits_onNewId (a : RoomActor) : (a.onNewId rng).1.rateLimits = a.rateLimits := by
  unfold onNewId
  split <;> rfl

theorem rateLimits_setPolicy (a : RoomActor) (policy : JoinPolicy) :
    (a.setPolicy P policy).1.rateLimits = a.rateLimits := by
  cases policy <;> rfl

theorem onHostCommand_keepsBuckets (h : a.registry.Valid) (command : HostCommand) :
    KeepsBuckets a (a.onHostCommand P rng command).1 := by
  cases command with
  | kick target => exact onKick_keepsBuckets h target
  | newId => exact .of_eq (rateLimits_onNewId a)
  | reqOn => exact .of_eq (rateLimits_setPolicy a .opened)
  | reqOff => exact .of_eq (rateLimits_setPolicy a .locked)
  | requests => exact .of_eq rfl
  | accept requestId => exact .of_eq (rateLimits_onAccept a requestId)
  | reject requestId => exact .of_eq (rateLimits_onReject a requestId)

theorem onMemberCommand_keepsBuckets (h : a.registry.Valid) (connection : ConnectionId)
    (command : MemberCommand) :
    KeepsBuckets a (a.onMemberCommand P rng connection command).1 := by
  cases command with
  | leave => exact onLeave_keepsBuckets h connection
  | color color =>
      apply KeepsBuckets.of_eq
      unfold onMemberCommand onColor
      dsimp only
      split
      · rfl
      split <;> rfl
  | list => exact .of_eq rfl
  | whois target =>
      apply KeepsBuckets.of_eq
      unfold onMemberCommand
      dsimp only
      split <;> rfl

/-- An event that is no message leaves the buckets of the members it keeps alone. -/
theorem handle_keepsBuckets (h : a.registry.Valid) {input : Input}
    (hevent : ∀ connection messageType envelope,
      input.event ≠ .chatReceived connection messageType envelope) :
    KeepsBuckets a (a.handle P input).1 := by
  have hclock : ({ a with now := input.now } : RoomActor).registry.Valid := h
  suffices hsuffices : KeepsBuckets { a with now := input.now } (a.handle P input).1 from
    hsuffices.congr rfl rfl rfl rfl
  unfold handle handleEventAt
  dsimp only
  split
  · exact .of_eq rfl
  split
  · unfold handleInTransition
    split
    · exact .of_eq (rateLimits_onEpochAck _ _ _)
    · exact onConnectionLost_keepsBuckets hclock _
    · split
      · exact onEpochTimeout_keepsBuckets hclock
      · exact onConnectionLost_keepsBuckets hclock _
    · exact onEpochTimeout_keepsBuckets hclock
    · exact .of_eq (rateLimits_closeRoom _)
    · exact .of_eq (rateLimits_closeRoom _)
    · exact .of_eq rfl
    · rename_i heq
      exact absurd heq (hevent _ _ _)
    · exact .of_eq rfl
  · unfold handleSettled
    split
    · exact .of_eq rfl
    · exact .of_eq rfl
    · exact .of_eq (rateLimits_onEpochAck _ _ _)
    · exact .of_eq (rateLimits_onJoinRequested _ _ _)
    · exact onHostCommand_keepsBuckets hclock _
    · exact onMemberCommand_keepsBuckets hclock _ _
    · exact .of_eq (rateLimits_onAccept _ _)
    · exact .of_eq (rateLimits_onReject _ _)
    · exact onConnectionLost_keepsBuckets hclock _
    · exact onConnectionLost_keepsBuckets hclock _
    · exact .of_eq rfl
    · exact onMemberLeft_keepsBuckets hclock _
    · rename_i heq
      exact absurd heq (hevent _ _ _)
    · exact .of_eq (rateLimits_closeRoom _)
    · exact .of_eq (rateLimits_closeRoom _)

/-! ### Messages -/

def memberIds (a : RoomActor) : List MemberId := a.members.members.map Member.memberId

/-- The member whose bucket `on_chat_received` charges a message to. -/
def chargedSender (a : RoomActor) (connection : ConnectionId) (messageType : UInt8)
    (envelope : EncryptedEnvelope) : Option MemberId :=
  if isChatType messageType = false ∨ messageType = msgTimeoutChanged then none
  else (a.connections.memberId connection).filter fun senderId =>
    envelope.senderId = senderId && (a.members.byId senderId).isSome

/-- The member whose bucket an event is charged to. -/
def charges (a : RoomActor) : RoomEvent → Option MemberId
  | .chatReceived connection messageType envelope =>
    if a.state = .closing ∨ a.state = .destroyed then none
    else if a.state = .epochTransition ∧ a.memberHasAckedPendingEpoch connection = false then none
    else a.chargedSender connection messageType envelope
  | _ => none

/-- The buckets are those of `b`, and the same members are there. -/
structure Seated (b a' : RoomActor) : Prop where
  rateLimits : a'.rateLimits = b.rateLimits
  memberIds : a'.memberIds = b.memberIds

theorem Seated.refl (a : RoomActor) : Seated a a := ⟨rfl, rfl⟩

theorem memberIds_setColor (t : MemberTable) (id : MemberId) (color : ColorChoice) :
    (t.setColor id color).members.map Member.memberId = t.members.map Member.memberId := by
  have hcolors := congrArg (List.map Member.memberId) (t.map_uncolored_setColor id color)
  rw [List.map_map, List.map_map] at hcolors
  exact hcolors

theorem onEnvelope_seated (connection : ConnectionId) (senderId : MemberId) (messageType : UInt8)
    (envelope : EncryptedEnvelope) :
    Seated a (a.onEnvelope P connection senderId messageType envelope).1 := by
  unfold onEnvelope
  split
  · exact .refl a
  split
  · exact .refl a
  split
  · exact .refl a
  unfold onPlaintext
  dsimp only
  split
  · split
    · split
      · exact ⟨rfl, rfl⟩
      · exact ⟨rfl, memberIds_setColor _ _ _⟩
    · exact ⟨rfl, rfl⟩
  split
  · unfold onTimeoutRequest
    split
    · exact ⟨rfl, rfl⟩
    split
    · exact ⟨rfl, rfl⟩
    dsimp only
    split
    · exact ⟨rfl, rfl⟩
    split <;> exact ⟨rfl, rfl⟩
  split
  · split
    · exact ⟨rfl, rfl⟩
    split <;> exact ⟨rfl, rfl⟩
  split
  · exact ⟨rfl, rfl⟩
  split <;> exact ⟨rfl, rfl⟩

/-- What the bucket of a member answers to an event charged to it. -/
def answer (a : RoomActor) (id : MemberId) (now : Duration) : Bool :=
  (({ a with now } : RoomActor).chargeRateLimit id).2.1

/-- The answers the bucket of a member gave, newest first. -/
def verdicts (id : MemberId) : Past → List (Duration × Bool)
  | [] => []
  | entry :: older =>
    if entry.before.charges entry.input.event = some id then
      (entry.input.now, entry.before.answer id entry.input.now) :: verdicts id older
    else verdicts id older

/-- The bucket of a member, whether it exists already or not. -/
def bucket (a : RoomActor) (id : MemberId) : RateLimiter :=
  (a.rateLimits id).getD (RateLimiter.new 5 1)

/-- The text of the rejection is one the protocol takes. -/
theorem rateLimited_message : ErrorMessage.new .rateLimited
    (some "the room rate limit rejected that message; send more slowly") =
      .ok ⟨.rateLimited, some "the room rate limit rejected that message; send more slowly"⟩ := by
  decide +kernel

/-- A rejection removes an abusive member, and nobody else. -/
theorem onRateLimited_seated (h : a.registry.Valid) (connection : ConnectionId) {m : Member}
    (hm : m ∈ a.members.members) (abusive : Bool) :
    Seated (if abusive ∧ m.memberId ≠ 0 then a.without m else a)
      (a.onRateLimited P rng connection m.memberId abusive).1 := by
  unfold onRateLimited
  rw [rateLimited_message]
  dsimp only
  cases abusive with
  | false => exact ⟨rfl, rfl⟩
  | true =>
      obtain ⟨hzero, heq⟩ | ⟨hgone, -⟩ | ⟨n, hn, hid, hne, hcases⟩ :=
        removeMember_cases P rng h m.memberId msgMemberKicked
      · rw [heq]
        simp only [hzero, ne_eq, not_true_eq_false, and_false, if_false]
        exact ⟨rfl, rfl⟩
      · exact absurd rfl (hgone m hm)
      · cases h.eq_of_memberId hn hm hid
        rw [if_pos rfl, if_pos ⟨rfl, hne⟩]
        obtain ⟨error, -, heq⟩ | ⟨key, wraps, -, heq⟩ := hcases
        · rw [heq]
          exact ⟨rfl, rfl⟩
        · rw [heq]
          exact ⟨rfl, rfl⟩

theorem onChatReceived_uncharged (P : Primitives) (rng : Rng) {connection : ConnectionId}
    {messageType : UInt8} {envelope : EncryptedEnvelope}
    (h : a.chargedSender connection messageType envelope = none) :
    Seated a (a.onChatReceived P rng connection messageType envelope).1 := by
  unfold onChatReceived
  split
  · exact .refl a
  rename_i htype
  split
  · exact .refl a
  rename_i senderId hknown
  split
  · exact .refl a
  rename_i hsender
  split
  · exact .refl a
  rename_i hmember
  split
  · exact onEnvelope_seated _ _ _ _
  · rename_i hchanged
    unfold chargedSender at h
    rw [not_not] at htype hsender
    rw [if_neg (by simp [hchanged, htype]), hknown, Option.filter_some, if_pos] at h
    · cases h
    · simpa [hsender, Option.isSome_iff_ne_none] using hmember

theorem onChatReceived_eq_of_charged {connection : ConnectionId} {messageType : UInt8}
    {envelope : EncryptedEnvelope} {id : MemberId}
    (h : a.chargedSender connection messageType envelope = some id) :
    a.onChatReceived P rng connection messageType envelope =
      if (a.chargeRateLimit id).2.1 then
        (a.chargeRateLimit id).1.onEnvelope P connection id messageType envelope
      else (a.chargeRateLimit id).1.onRateLimited P rng connection id
        (a.chargeRateLimit id).2.2 := by
  unfold chargedSender at h
  split at h
  · cases h
  rename_i htype
  rw [not_or, Bool.not_eq_false] at htype
  obtain ⟨hknown, hcharged⟩ := Option.filter_eq_some_iff.mp h
  rw [Bool.and_eq_true, decide_eq_true_eq] at hcharged
  unfold onChatReceived
  rw [if_neg (not_not.mpr htype.1), hknown]
  dsimp only
  rw [if_neg (not_not.mpr hcharged.1),
    if_neg (by simpa [Option.isSome_iff_ne_none] using hcharged.2), if_neg htype.2]

theorem onChatReceived_charged (P : Primitives) (rng : Rng) (hvalid : a.registry.Valid)
    {connection : ConnectionId} {messageType : UInt8} {envelope : EncryptedEnvelope} {m : Member}
    (hm : m ∈ a.members.members)
    (h : a.chargedSender connection messageType envelope = some m.memberId) :
    Seated (if (a.chargeRateLimit m.memberId).2.2 ∧ m.memberId ≠ 0 then
        (a.chargeRateLimit m.memberId).1.without m else (a.chargeRateLimit m.memberId).1)
      (a.onChatReceived P rng connection messageType envelope).1 := by
  rw [onChatReceived_eq_of_charged h]
  by_cases hallowed : (a.chargeRateLimit m.memberId).2.1 = true
  · have hnot : (a.chargeRateLimit m.memberId).2.2 = false := by
      unfold chargeRateLimit at hallowed ⊢
      dsimp only at hallowed ⊢
      rw [hallowed]
      rfl
    rw [if_neg (by simp [hnot]), if_pos hallowed]
    exact onEnvelope_seated _ _ _ _
  · rw [if_neg hallowed]
    exact onRateLimited_seated (a := (a.chargeRateLimit m.memberId).1) hvalid connection hm _

/-- The actor once `handle_event_at` has set its clock. -/
def clocked (a : RoomActor) (now : Duration) : RoomActor := { a with now }

/-- What `handle_event_at` does with a message. -/
theorem handle_chat {input : Input} {connection : ConnectionId} {messageType : UInt8}
    {envelope : EncryptedEnvelope}
    (hevent : input.event = .chatReceived connection messageType envelope) :
    a.handle P input =
      if a.state = .closing ∨ a.state = .destroyed then (a.clocked input.now, .error .roomClosed)
      else if a.state = .epochTransition ∧ a.memberHasAckedPendingEpoch connection = false then
        (a.clocked input.now).rejectDuringTransition connection
      else (a.clocked input.now).onChatReceived P input.rng connection messageType envelope := by
  unfold handle handleEventAt
  rw [hevent]
  change (if a.state = .closing ∨ a.state = .destroyed then _
    else if a.state = .epochTransition then
      if a.memberHasAckedPendingEpoch connection = true then
        (a.clocked input.now).onChatReceived P input.rng connection messageType envelope
      else (a.clocked input.now).rejectDuringTransition connection
    else _) = _
  split
  · rfl
  split
  · cases hacked : a.memberHasAckedPendingEpoch connection with
    | true => rw [if_pos rfl, if_neg (by simp)]
    | false => rw [if_neg (by simp), if_pos ⟨‹_›, rfl⟩]
  · rw [if_neg (fun htransition => absurd htransition.1 ‹_›)]
    rfl

/-- A message no bucket is charged for changes no bucket and removes nobody. -/
theorem handle_uncharged {input : Input} {connection : ConnectionId} {messageType : UInt8}
    {envelope : EncryptedEnvelope}
    (hevent : input.event = .chatReceived connection messageType envelope)
    (h : a.charges input.event = none) : Seated a (a.handle P input).1 := by
  rw [hevent] at h
  unfold charges at h
  dsimp only at h
  rw [handle_chat hevent]
  split
  · exact ⟨rfl, rfl⟩
  rename_i hopen
  rw [if_neg hopen] at h
  split
  · unfold rejectDuringTransition
    split
    · exact ⟨rfl, rfl⟩
    split <;> exact ⟨rfl, rfl⟩
  · rename_i hacked
    rw [if_neg hacked] at h
    have hseated := onChatReceived_uncharged P input.rng (a := a.clocked input.now) h
    exact ⟨hseated.rateLimits, hseated.memberIds⟩

/-- A charge removes the member it makes abusive, but for the host, and nobody else. -/
theorem handle_charged (hvalid : a.registry.Valid) {input : Input} {m : Member}
    (hm : m ∈ a.members.members) (h : a.charges input.event = some m.memberId) :
    let charged := (a.clocked input.now).chargeRateLimit m.memberId
    Seated (if charged.2.2 ∧ m.memberId ≠ 0 then charged.1.without m else charged.1)
      (a.handle P input).1 := by
  unfold charges at h
  split at h
  rotate_left
  · cases h
  rename_i connection messageType envelope hevent
  rw [handle_chat hevent]
  split at h
  · cases h
  rename_i hopen
  split at h
  · cases h
  rename_i hacked
  rw [if_neg hopen, if_neg hacked]
  exact onChatReceived_charged P input.rng (a := a.clocked input.now) hvalid hm h

/-! ### Runs -/

theorem charges_member {event : RoomEvent} {id : MemberId} (h : a.charges event = some id) :
    ∃ m ∈ a.members.members, m.memberId = id := by
  unfold charges at h
  split at h
  rotate_left
  · cases h
  split at h
  · cases h
  split at h
  · cases h
  unfold chargedSender at h
  split at h
  · cases h
  obtain ⟨-, hcharged⟩ := Option.filter_eq_some_iff.mp h
  rw [Bool.and_eq_true] at hcharged
  obtain ⟨m, hm⟩ := Option.isSome_iff_exists.mp hcharged.2
  exact ⟨m, List.mem_of_find?_eq_some hm, by simpa using List.find?_some hm⟩

/-- The id is a member's, or none was given it yet. -/
def Present (a : RoomActor) (id : MemberId) : Prop :=
  id ∈ a.memberIds ∨ a.members.nextId ≤ id

theorem present_before (h : a.registry.Valid) {input : Input} {id : MemberId}
    (hid : (a.handle P input).1.Present id) : a.Present id := by
  have hlater := (handleEventAt_effect P input.rng h input.event input.now).step.later
  obtain hid | hid := hid
  · obtain ⟨m, hm, rfl⟩ := List.mem_map.mp hid
    obtain hlt | hle := Nat.lt_or_ge m.memberId a.members.nextId
    · obtain ⟨n, hn, hcolor⟩ := hlater.member m hm hlt
      exact .inl (List.mem_map.mpr ⟨n, hn, by rw [← hcolor]; rfl⟩)
    · exact .inr hle
  · exact .inr (hlater.nextId_le.trans hid)

/-- A member that left is not present, whoever joins. -/
theorem not_present (h : a.registry.Valid) {input : Input} {m : Member}
    (hm : m ∈ a.members.members) (hgone : m.memberId ∉ (a.handle P input).1.memberIds) :
    ¬ (a.handle P input).1.Present m.memberId := by
  have hlater := (handleEventAt_effect P input.rng h input.event input.now).step.later
  rintro (hid | hid)
  · exact hgone hid
  · exact absurd (h.id_lt m hm) (Nat.not_lt_of_le (hlater.nextId_le.trans hid))

theorem bucket_charge (a : RoomActor) (id other : MemberId) (now : Duration) :
    ((a.clocked now).chargeRateLimit other).1.bucket id =
      if id = other then ((a.bucket id).allow now).1 else a.bucket id := by
  unfold bucket chargeRateLimit
  dsimp only
  by_cases hid : id = other
  · rw [if_pos hid, if_pos hid, hid]
    rfl
  · rw [if_neg hid, if_neg hid]
    rfl

theorem abusive_charge (a : RoomActor) (id : MemberId) (now : Duration) :
    ((a.clocked now).chargeRateLimit id).2.2 =
      (!a.answer id now && ((a.bucket id).allow now).1.isAbusive rateLimitTermination) := rfl

theorem answer_eq (a : RoomActor) (id : MemberId) (now : Duration) :
    a.answer id now = ((a.bucket id).allow now).2 := rfl

theorem not_mem_without (h : a.registry.Valid) (m : Member) :
    m.memberId ∉ (a.without m).memberIds := by
  intro hmem
  obtain ⟨n, hn, hid⟩ := List.mem_map.mp hmem
  rw [members_without h] at hn
  simpa [hid] using (List.mem_filter.mp hn).2

theorem bucket_without {m : Member} {id : MemberId} (hne : id ≠ m.memberId) :
    (a.without m).bucket id = a.bucket id := by
  unfold bucket
  have hkept : (a.without m).rateLimits id = a.rateLimits id := if_neg hne
  rw [hkept]

/-- What one event does to the bucket of a member that is still there afterwards. -/
theorem bucket_handle (h : a.registry.Valid) {input : Input} {id : MemberId}
    (hid : (a.handle P input).1.Present id) :
    (a.handle P input).1.bucket id =
      if a.charges input.event = some id then ((a.bucket id).allow input.now).1
      else a.bucket id := by
  by_cases hcharged : ∃ other, a.charges input.event = some other
  · obtain ⟨other, hother⟩ := hcharged
    obtain ⟨m, hm, rfl⟩ := charges_member hother
    have hseated := handle_charged (P := P) h hm hother
    dsimp only at hseated
    have hcharge := bucket_charge a id m.memberId input.now
    rw [hother]
    simp only [Option.some.injEq]
    split at hseated
    · -- the member that left is not the one asked about
      have hgone : m.memberId ∉ (a.handle P input).1.memberIds := by
        rw [hseated.memberIds]
        exact not_mem_without (a := ((a.clocked input.now).chargeRateLimit m.memberId).1) h m
      have hne : id ≠ m.memberId := by
        rintro rfl
        exact not_present h hm hgone hid
      rw [if_neg hne] at hcharge
      rw [if_neg hne.symm, ← hcharge, bucket, hseated.rateLimits]
      exact bucket_without hne
    · rw [bucket, hseated.rateLimits]
      refine hcharge.trans ?_
      by_cases hne : id = m.memberId
      · rw [if_pos hne, if_pos hne.symm]
      · rw [if_neg hne, if_neg (Ne.symm hne)]
  · rw [if_neg fun hself => hcharged ⟨id, hself⟩]
    have hkeeps : KeepsBuckets a (a.handle P input).1 := by
      by_cases hchat : ∃ connection messageType envelope,
          input.event = .chatReceived connection messageType envelope
      · obtain ⟨connection, messageType, envelope, hevent⟩ := hchat
        have hnone := Option.eq_none_iff_forall_ne_some.mpr fun other hother =>
          hcharged ⟨other, hother⟩
        exact .of_eq (handle_uncharged hevent hnone).rateLimits
      · exact handle_keepsBuckets h fun connection messageType envelope hevent =>
          hchat ⟨connection, messageType, envelope, hevent⟩
    obtain hsame | ⟨⟨m, hm, rfl⟩, hgone⟩ := hkeeps id
    · unfold bucket
      rw [hsame]
    · refine absurd hid (not_present h hm ?_)
      intro hmem
      obtain ⟨n, hn, heq⟩ := List.mem_map.mp hmem
      exact hgone n hn heq

/-- A message removes a guest exactly when it is charged to the guest and makes it abusive. -/
theorem removed_iff (h : a.registry.Valid) {input : Input} {connection : ConnectionId}
    {messageType : UInt8} {envelope : EncryptedEnvelope}
    (hevent : input.event = .chatReceived connection messageType envelope) {m : Member}
    (hm : m ∈ a.members.members) (hguest : m.memberId ≠ 0) :
    m.memberId ∉ (a.handle P input).1.memberIds ↔
      a.charges input.event = some m.memberId ∧
        ((a.clocked input.now).chargeRateLimit m.memberId).2.2 = true := by
  have hthere : m.memberId ∈ a.memberIds := List.mem_map_of_mem hm
  cases hcharges : a.charges input.event with
  | none =>
      rw [(handle_uncharged hevent hcharges).memberIds]
      simp [hthere]
  | some other =>
      obtain ⟨n, hn, rfl⟩ := charges_member hcharges
      have hseated := handle_charged (P := P) h hn hcharges
      dsimp only at hseated
      rw [hseated.memberIds, Option.some.injEq]
      by_cases hself : n.memberId = m.memberId
      · cases h.eq_of_memberId hn hm hself
        split
        · rename_i habusive
          have hgone := not_mem_without
            (a := ((a.clocked input.now).chargeRateLimit m.memberId).1) h m
          simp [hgone, habusive.1]
        · rename_i habusive
          have hstays : m.memberId ∈
              ((a.clocked input.now).chargeRateLimit m.memberId).1.memberIds := hthere
          simp only [hstays, not_true_eq_false, false_iff, true_and]
          exact fun habusive' => habusive ⟨habusive', hguest⟩
      · simp only [hself, false_and, iff_false, not_not]
        split
        · refine List.mem_map.mpr ⟨m, ?_, rfl⟩
          rw [members_without (a := ((a.clocked input.now).chargeRateLimit n.memberId).1) h]
          exact List.mem_filter.mpr ⟨hm, by simpa using Ne.symm hself⟩
        · exact hthere

section
variable {allowed : Past → RoomActor → Input → Prop} {a₀ : RoomActor} {past : Past}

/-- Each bucket is the limiter after the calls it answered, and no guest is at its tenth denial
in a row. -/
structure Metered (past : Past) (a : RoomActor) : Prop where
  bucket_eq : ∀ id, a.Present id →
    a.bucket id = (RateLimiter.calls 5 1 ((verdicts id past).map Prod.fst)).1
  verdicts_eq : ∀ id,
    verdicts id past = (RateLimiter.calls 5 1 ((verdicts id past).map Prod.fst)).2
  patient : ∀ id, id ≠ 0 → a.Present id → RateLimiter.denials (verdicts id past) < 10

/-- The answer to an event is that of the limiter alone. -/
theorem Metered.calls_cons (h : Metered past a) {id : MemberId} (now : Duration)
    (hid : a.Present id) :
    RateLimiter.calls 5 1 (now :: (verdicts id past).map Prod.fst) =
      (((a.bucket id).allow now).1, (now, a.answer id now) :: verdicts id past) := by
  have hbucket := h.bucket_eq id hid
  have hverdicts := h.verdicts_eq id
  rw [answer_eq, hbucket]
  simp only [RateLimiter.calls]
  rw [← hverdicts]

/-- A charge is abusive from the tenth denial in a row on. -/
theorem Metered.abusive_iff (h : Metered past a) {id : MemberId} (now : Duration)
    (hid : a.Present id) :
    ((a.clocked now).chargeRateLimit id).2.2 = true ↔
      10 ≤ RateLimiter.denials ((now, a.answer id now) :: verdicts id past) := by
  have hviolations := RateLimiter.calls_violations 5 1 (now :: (verdicts id past).map Prod.fst)
  rw [h.calls_cons now hid] at hviolations
  rw [abusive_charge, RateLimiter.isAbusive, hviolations, rateLimitTermination]
  cases a.answer id now with
  | true => simp [RateLimiter.denials]
  | false => simp

theorem present_of_charges {event : RoomEvent} {id : MemberId}
    (h : a.charges event = some id) : a.Present id := by
  obtain ⟨m, hm, rfl⟩ := charges_member h
  exact .inl (List.mem_map_of_mem hm)

theorem Metered.step (hvalid : a.registry.Valid) (h : Metered past a) (input : Input) :
    Metered (⟨a, input, (a.handle P input).2, (a.handle P input).1⟩ :: past)
      (a.handle P input).1 := by
  constructor
  · intro id hid
    have hbefore := present_before hvalid hid
    rw [bucket_handle hvalid hid, verdicts]
    split
    · rw [List.map_cons, h.calls_cons input.now hbefore]
    · exact h.bucket_eq id hbefore
  · intro id
    rw [verdicts]
    split
    · rename_i hcharges
      rw [List.map_cons, h.calls_cons input.now (present_of_charges hcharges)]
    · exact h.verdicts_eq id
  · intro id hguest hid
    have hbefore := present_before hvalid hid
    rw [verdicts]
    split
    · rename_i hcharges
      obtain ⟨m, hm, rfl⟩ := charges_member hcharges
      have hchat : ∃ connection messageType envelope,
          input.event = .chatReceived connection messageType envelope := by
        unfold charges at hcharges
        split at hcharges
        · exact ⟨_, _, _, ‹_›⟩
        · cases hcharges
      obtain ⟨connection, messageType, envelope, hevent⟩ := hchat
      have hremoved := removed_iff (P := P) hvalid hevent hm hguest
      rw [h.abusive_iff input.now hbefore] at hremoved
      rw [← not_le]
      intro habusive
      exact not_present hvalid hm (hremoved.mpr ⟨hcharges, habusive⟩) hid
    · exact h.patient id hguest hbefore

theorem Run.metered {setup : Setup} {started : List RoomAction}
    (hstart : Started P setup a₀ started) (run : Run P allowed a₀ past a) : Metered past a := by
  refine run.invariant Metered ?_ fun past a input run h _ =>
    h.step (Run.valid hstart.valid run) input
  obtain ⟨nickname, sessionId, token, key, wraps, hopening⟩ := hstart.opening
  refine ⟨fun id _ => ?_, fun id => rfl, fun id _ _ => ?_⟩
  · rw [hopening.actor]
    rfl
  · exact Nat.zero_lt_succ _

/-- A message removes a guest exactly at its tenth denial in a row. -/
theorem Run.removed_iff {setup : Setup} {started : List RoomAction}
    (hstart : Started P setup a₀ started) (run : Run P allowed a₀ past a) {input : Input}
    {connection : ConnectionId} {messageType : UInt8} {envelope : EncryptedEnvelope}
    (hevent : input.event = .chatReceived connection messageType envelope) {m : Member}
    (hm : m ∈ a.members.members) (hguest : m.memberId ≠ 0) :
    m.memberId ∉ (a.handle P input).1.memberIds ↔
      a.charges input.event = some m.memberId ∧ RateLimiter.denials (verdicts m.memberId
        (⟨a, input, (a.handle P input).2, (a.handle P input).1⟩ :: past)) = 10 := by
  have hmetered := Run.metered hstart run
  have hthere : a.Present m.memberId := .inl (List.mem_map_of_mem hm)
  rw [RoomActor.removed_iff (Run.valid hstart.valid run) hevent hm hguest,
    hmetered.abusive_iff input.now hthere]
  refine and_congr_right fun hcharges => ?_
  rw [verdicts, if_pos hcharges]
  have hpatient := hmetered.patient m.memberId hguest hthere
  rw [RateLimiter.denials]
  split
  · simp
  · omega

end

/-! ### The token bucket -/

/-- The level of a limiter stays within its burst whatever the clock says; a window of a clock
that does not go back lets at most the burst and what flows in meanwhile through; the violations
count the denials since the last allowed call. In the room, a message removes a guest exactly
when it is its tenth denial in a row. -/
theorem token_bucket (P : Primitives) :
    (∀ burst rate times,
      0 ≤ (RateLimiter.calls burst rate times).1.tokens ∧
        (RateLimiter.calls burst rate times).1.tokens ≤ burst ∧
      (times.Pairwise (· ≥ ·) → ∀ start stop, start ≤ stop →
        (RateLimiter.allowedWithin start stop (RateLimiter.calls burst rate times).2 : ℚ) ≤
          burst + rate * RateLimiter.seconds (stop - start)) ∧
      (RateLimiter.calls burst rate times).1.consecutiveViolations =
        RateLimiter.denials (RateLimiter.calls burst rate times).2) ∧
    ∀ setup started a₀ a newer entry older, Started P setup a₀ started →
      Run P Unconstrained a₀ (newer ++ entry :: older) a →
      ∀ connection messageType envelope,
        entry.input.event = .chatReceived connection messageType envelope →
      ∀ m ∈ entry.before.members.members, m.memberId ≠ 0 →
        (m.memberId ∉ entry.after.memberIds ↔
          entry.before.charges entry.input.event = some m.memberId ∧
            RateLimiter.denials (verdicts m.memberId (entry :: older)) = 10) := by
  refine ⟨fun burst rate times => ?_, ?_⟩
  · have hbounded := RateLimiter.calls_bounded burst rate times
    refine ⟨hbounded.nonneg, hbounded.le_burst, ?_, RateLimiter.calls_violations burst rate times⟩
    intro hsorted start stop hwindow
    exact RateLimiter.allowedWithin_le hsorted hwindow
  · intro setup started a₀ a newer entry older hstart run connection messageType envelope hevent
      m hm hguest
    obtain ⟨hbefore, -, hstep, -⟩ := run.split
    have hremoved := Run.removed_iff hstart hbefore hevent hm hguest
    have hafter : (entry.before.handle P entry.input).1 = entry.after := congrArg Prod.fst hstep
    rw [hafter] at hremoved
    rw [hremoved]
    rfl

end RoomActor

/-! A guest that floods the symbolic room: five of its messages reach the room's other checks,
nine are denied, and the tenth denial removes it. -/

namespace Symbolic
open RoomActor

/-- A message of the guest. -/
def floodMessage : Input where
  event := .chatReceived 1 msgChat ⟨2, 1, 0, Vector.replicate 24 0, [], Vector.replicate 64 0⟩
  now := 0
  rng := rng 11

/-- The room before the guest's tenth denial. -/
def flooding : Past × RoomActor :=
  script primitives room (visit.take 7 ++ List.replicate 14 floodMessage)

/-- The step of the tenth denial. -/
def lastStraw : Machine.Entry RoomActor Input (Except RoomError (List RoomAction)) :=
  ⟨flooding.2, floodMessage, (flooding.2.handle primitives floodMessage).2,
    (flooding.2.handle primitives floodMessage).1⟩

theorem flooding_run : Run primitives Unconstrained room ([] ++ lastStraw :: flooding.1)
    (flooding.2.handle primitives floodMessage).1 :=
  .step (unconstrained_script room (visit.take 7 ++ List.replicate 14 floodMessage)) trivial

theorem token_bucket_flooded :
    (∃ m ∈ lastStraw.before.members.members, m.memberId = 1) ∧
      1 ∉ lastStraw.after.memberIds := by
  have hmember : ∃ m ∈ lastStraw.before.members.members, m.memberId = 1 := by decide +kernel
  have hcharged : (lastStraw.before.charges lastStraw.input.event == some 1) = true := by
    decide +kernel
  have hdenials : RateLimiter.denials (verdicts 1 (lastStraw :: flooding.1)) = 10 := by
    decide +kernel
  refine ⟨hmember, ?_⟩
  obtain ⟨m, hm, hid⟩ := hmember
  have hremoved := (token_bucket primitives).2 setup roomStarted room _ [] lastStraw flooding.1
    room_started flooding_run 1 msgChat _ rfl m hm (by rw [hid]; exact Nat.one_ne_zero)
  rw [hid] at hremoved
  exact hremoved.mpr ⟨eq_of_beq hcharged, hdenials⟩

end Symbolic

end Veilroom
