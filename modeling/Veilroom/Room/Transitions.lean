import Veilroom.Room.Runs

/-!
What a transition emits and leaves behind.

`WrapOf` says what an epoch wrap is worth to its member. `Begun` is the common
part of a join and of a departure: everything the later invariants need from a
move that began a transition.
-/
namespace Veilroom

def RoomAction.isWrap : RoomAction → Bool
  | .sendTo _ (.epochWrap _) => true
  | _ => false

/-- The membership messages the room holds back until an epoch is active. -/
def RoomAction.isMembership : RoomAction → Bool
  | .sendTo _ (.memberJoined _) | .sendTo _ (.memberLeft _) | .sendTo _ (.memberKicked _)
  | .sendTo _ (.memberSnapshot _) => true
  | _ => false

/-- `wrap` is of `epoch`, and the channel key of `m` opens it to `key`. -/
structure WrapOf (P : Primitives) (identity : HostIdentity) (sessionId : Key) (epoch : Nat)
    (key : Key) (m : Member) (wrap : EpochWrap) : Prop where
  ofEpoch : wrap.epoch = epoch
  opens : ∃ wrapKey,
    identity.tryWrapKeyFor P m.x25519Pubkey sessionId m.memberId = .ok wrapKey ∧
      unwrapEpochKey P wrapKey epoch sessionId wrap.nonce wrap.ciphertext = .ok key

/-- `message` is a wrap of `epoch` that the channel key of `m` opens to `key`. -/
def CarriesWrap (P : Primitives) (identity : HostIdentity) (sessionId : Key) (epoch : Nat)
    (key : Key) (m : Member) (message : Message) : Prop :=
  ∃ wrap, message = .epochWrap wrap ∧ WrapOf P identity sessionId epoch key m wrap

/-! ### Broadcasts -/

/-- `actions` send one message to each of `members`, in order, as `R` says. -/
def Broadcast (R : Member → Message → Prop) (members : List Member) (actions : List RoomAction) :
    Prop :=
  List.Forall₂ (fun m action => ∃ message, action = .sendTo m.connection message ∧ R m message)
    members actions

section
variable {R : Member → Message → Prop} {members : List Member} {actions : List RoomAction}

theorem Broadcast.mem (h : Broadcast R members actions) {action : RoomAction}
    (haction : action ∈ actions) :
    ∃ m ∈ members, ∃ message, action = .sendTo m.connection message ∧ R m message := by
  induction h with
  | nil => cases haction
  | cons hsend _ ih =>
      cases haction with
      | head => exact ⟨_, .head _, hsend⟩
      | tail _ haction =>
          obtain ⟨m, hm, hsend⟩ := ih haction
          exact ⟨m, .tail _ hm, hsend⟩

theorem Broadcast.of_mem (h : Broadcast R members actions) {m : Member} (hm : m ∈ members) :
    ∃ message, .sendTo m.connection message ∈ actions ∧ R m message := by
  induction h with
  | nil => cases hm
  | cons hsend _ ih =>
      cases hm with
      | head =>
          obtain ⟨message, rfl, hR⟩ := hsend
          exact ⟨message, .head _, hR⟩
      | tail _ hm =>
          obtain ⟨message, hmem, hR⟩ := ih hm
          exact ⟨message, .tail _ hmem, hR⟩

/-- A connection that is no member's gets nothing. -/
theorem Broadcast.sentTo_eq_nil (h : Broadcast R members actions) {c : ConnectionId}
    (hc : ∀ m ∈ members, m.connection ≠ c) : sentTo c actions = [] := by
  refine List.eq_nil_iff_forall_not_mem.mpr fun message hmessage => ?_
  obtain ⟨m, hm, _, heq, -⟩ := h.mem (mem_sentTo.mp hmessage)
  cases heq
  exact hc m hm rfl

/-- A member gets exactly its own message. -/
theorem Broadcast.sentTo_of_mem (h : Broadcast R members actions)
    (hnodup : (members.map Member.connection).Nodup) {m : Member} (hm : m ∈ members) :
    ∃ message, sentTo m.connection actions = [message] ∧ R m message := by
  induction h with
  | nil => cases hm
  | @cons n action members actions hsend hrest ih =>
      obtain ⟨message, rfl, hR⟩ := hsend
      rw [List.map_cons, List.nodup_cons] at hnodup
      cases hm with
      | head =>
          have hnil := Broadcast.sentTo_eq_nil hrest (c := m.connection)
            fun k hk heq => hnodup.1 (by rw [← heq]; exact List.mem_map_of_mem hk)
          refine ⟨message, ?_, hR⟩
          rw [sentTo_cons_sendTo, if_pos rfl, hnil]
      | tail _ hm =>
          obtain ⟨message', heq, hR'⟩ := ih hnodup.2 hm
          refine ⟨message', ?_, hR'⟩
          rw [sentTo_cons_sendTo, if_neg fun heq =>
            hnodup.1 (by rw [heq]; exact List.mem_map_of_mem hm), heq]

end

/-- The envelope an action sends. -/
def RoomAction.envelope? : RoomAction → Option EncryptedEnvelope
  | .sendTo _ message => message.envelope?
  | _ => none

/-! The kinds of actions exclude each other. -/

theorem RoomAction.isWrap_of_isPlain {action : RoomAction} (h : action.isPlain = true) :
    action.isWrap = false := by
  cases action with
  | sendTo _ message => cases message <;> first | rfl | cases h
  | closeConnection _ | notifyHost _ => rfl

theorem RoomAction.isWrap_of_isMembership {action : RoomAction}
    (h : action.isMembership = true) : action.isWrap = false := by
  cases action with
  | sendTo _ message => cases message <;> first | rfl | cases h
  | closeConnection _ | notifyHost _ => rfl

theorem RoomAction.envelope?_of_isPlain {action : RoomAction} (h : action.isPlain = true) :
    action.envelope? = none := by
  cases action with
  | sendTo _ message => cases message <;> first | rfl | cases h
  | closeConnection _ | notifyHost _ => rfl

theorem RoomAction.envelope?_of_isMembership {action : RoomAction}
    (h : action.isMembership = true) : action.envelope? = none := by
  cases action with
  | sendTo _ message => cases message <;> first | rfl | cases h
  | closeConnection _ | notifyHost _ => rfl

theorem RoomAction.envelope?_of_isWrap {action : RoomAction} (h : action.isWrap = true) :
    action.envelope? = none := by
  cases action with
  | sendTo _ message => cases message <;> first | rfl | cases h
  | closeConnection _ | notifyHost _ => rfl

namespace RoomActor
variable {P : Primitives} {rng : Rng} {a a' b : RoomActor} {event : RoomEvent}
variable {result : Except RoomError (List RoomAction)}

theorem wrapFor_eq_ok (law : P.Lawful) {key : Key} {i : Nat} {m : Member} {action : RoomAction}
    (h : a.wrapFor P rng key i m = .ok action) :
    ∃ wrap, action = .sendTo m.connection (.epochWrap wrap) ∧
      WrapOf P a.hostIdentity a.sessionId a.epoch key m wrap := by
  unfold wrapFor at h
  split at h
  · cases h
  rename_i wrapKey hwrapKey
  split at h
  · cases h
  rename_i envelope henvelope
  unfold EpochWrap.new at h
  by_cases hlength : envelope.ciphertext.length ≠ epochWrapCiphertextLen
  · rw [if_pos hlength] at h
    cases h
  · rw [if_neg hlength] at h
    cases h
    exact ⟨_, rfl, rfl, wrapKey, hwrapKey, unwrapEpochKey_wrapEpochKey law henvelope⟩

/-- One wrap for each member, in the order of the table. -/
theorem wrapAll_eq_ok (law : P.Lawful) {key : Key} {i : Nat} {members : List Member}
    {wraps : List RoomAction} (h : a.wrapAll P rng key i members = .ok wraps) :
    Broadcast (CarriesWrap P a.hostIdentity a.sessionId a.epoch key) members wraps := by
  induction members generalizing i wraps with
  | nil =>
      cases h
      exact .nil
  | cons m rest ih =>
      unfold wrapAll at h
      split at h
      · cases h
      rename_i wrap hwrap
      split at h
      · cases h
      rename_i wraps hwraps
      cases h
      obtain ⟨wrap, hsend, hof⟩ := wrapFor_eq_ok law hwrap
      exact .cons ⟨_, hsend, wrap, rfl, hof⟩ (ih hwraps)

theorem isWrap_of_wrapAll {key : Key} {i : Nat} {members : List Member} {wraps : List RoomAction}
    (h : a.wrapAll P rng key i members = .ok wraps) :
    ∀ action ∈ wraps, action.isWrap = true := by
  induction members generalizing i wraps with
  | nil =>
      cases h
      nofun
  | cons m rest ih =>
      unfold wrapAll at h
      split at h
      · cases h
      rename_i wrap hwrap
      split at h
      · cases h
      rename_i wraps hwraps
      cases h
      refine List.forall_mem_cons.mpr ⟨?_, ih hwraps⟩
      unfold wrapFor at hwrap
      repeat' split at hwrap
      all_goals cases hwrap
      rfl

/-- The wraps of a transition that begins on `b`: one for each member. -/
theorem Begins.wraps (law : P.Lawful) {key : Key} {wraps : List RoomAction}
    (h : Begins P rng b key wraps) :
    Broadcast (CarriesWrap P b.hostIdentity b.sessionId (b.epoch + 1) key) b.members.members
      wraps :=
  wrapAll_eq_ok law h.wrapped

/-! ### What the departures queue -/

/-- Queueing departures moves the room sequence and the held events, and nothing else. -/
theorem queueMembersGone_eq (a : RoomActor) (gone : List MemberId) (eventType : UInt8) :
    ∃ roomSequence held, a.queueMembersGone P gone eventType =
        { a with roomSequence, pendingMembership := a.pendingMembership ++ held } ∧
      ∀ action ∈ held, action.isMembership = true := by
  induction gone generalizing a with
  | nil => exact ⟨a.roomSequence, [], by simp [queueMembersGone], by simp⟩
  | cons id rest ih =>
      obtain ⟨roomSequence, held, heq, hheld⟩ := ih (a.queueMemberGone P id eventType)
      refine ⟨roomSequence, ((a.queueMemberGone P id eventType).pendingMembership.drop
        a.pendingMembership.length) ++ held, ?_, ?_⟩
      · refine heq.trans ?_
        simp [queueMemberGone]
      · intro action haction
        obtain haction | haction := List.mem_append.mp haction
        · simp only [queueMemberGone, List.drop_left, List.mem_map] at haction
          obtain ⟨m, -, rfl⟩ := haction
          unfold goneMessage
          split <;> rfl
        · exact hheld action haction

/-- A transition began: the wraps went out to everyone in the table, and nobody has
acknowledged it. -/
structure Begun (P : Primitives) (rng : Rng) (a a' : RoomActor)
    (result : Except RoomError (List RoomAction)) (key : Key) (wraps : List RoomAction) :
    Prop extends SameRoom a a' where
  state : a'.state = .epochTransition
  policy : a'.policy = a.policy
  roomTimeout : a'.roomTimeout = a.roomTimeout
  epoch : a'.epoch = a.epoch + 1
  epochKey : a'.epochKey = a.epochKey
  chatReplay : a'.chatReplay = a.chatReplay.retainEpoch (a.epoch + 1)
  pendingEpoch : a'.pendingEpoch = some
    { epoch := a.epoch + 1, key, awaiting := a'.members.members.map Member.memberId,
      startedAt := a.now }
  held : ∀ action ∈ a'.pendingMembership,
    action ∈ a.pendingMembership ∨ action.isMembership = true
  generated : rng.epochKey = some key
  wrapped : P.Lawful → Broadcast (CarriesWrap P a.hostIdentity a.sessionId (a.epoch + 1) key)
    a'.members.members wraps
  areWraps : ∀ action ∈ wraps, action.isWrap = true
  output : ∃ before after, actionsOf result = before ++ wraps ++ after ∧
    ∀ action ∈ before ++ after, action.isPlain = true ∨
      ∃ connection accepted, action = .sendTo connection (.joinAccepted accepted)

theorem Begun.mem_output {key : Key} {wraps : List RoomAction}
    (h : Begun P rng a a' result key wraps) {action : RoomAction}
    (haction : action ∈ actionsOf result) : action ∈ wraps ∨ action.isPlain = true ∨
      ∃ connection accepted, action = .sendTo connection (.joinAccepted accepted) := by
  obtain ⟨before, after, heq, hkinds⟩ := h.output
  rw [heq] at haction
  obtain haction | haction := List.mem_append.mp haction
  · obtain haction | haction := List.mem_append.mp haction
    · exact .inr (hkinds action (List.mem_append_left _ haction))
    · exact .inl haction
  · exact .inr (hkinds action (List.mem_append_right _ haction))

theorem Begun.wrap_of_mem (law : P.Lawful) {key : Key} {wraps : List RoomAction}
    (h : Begun P rng a a' result key wraps) {m : Member} (hm : m ∈ a'.members.members) :
    ∃ wrap, .sendTo m.connection (.epochWrap wrap) ∈ actionsOf result ∧
      WrapOf P a.hostIdentity a.sessionId (a.epoch + 1) key m wrap := by
  obtain ⟨_, hmem, wrap, rfl, hof⟩ := (h.wrapped law).of_mem hm
  obtain ⟨before, after, heq, -⟩ := h.output
  rw [heq]
  exact ⟨wrap, List.mem_append_left _ (List.mem_append_right _ hmem), hof⟩

/-- What the two ways to begin a transition on `b` share; only events were queued since. -/
private theorem begun_of_rotated (htabled : Tabled a b) {key : Key} {wraps : List RoomAction}
    (hbegins : Begins P rng b key wraps) {roomSequence : Nat} {held : List RoomAction}
    (hheld : ∀ action ∈ held, action.isMembership = true) (before after : List RoomAction)
    (hresult : actionsOf result = before ++ wraps ++ after)
    (hkinds : ∀ action ∈ before ++ after, action.isPlain = true ∨
      ∃ connection accepted, action = .sendTo connection (.joinAccepted accepted)) :
    Begun P rng a
      { b.rotated key with roomSequence, pendingMembership := b.pendingMembership ++ held }
      result key wraps where
  toSameRoom := { htabled.toSameRoom with }
  state := rfl
  policy := htabled.policy
  roomTimeout := htabled.roomTimeout
  epoch := congrArg (· + 1) htabled.epoch
  epochKey := htabled.epochKey
  chatReplay := by
    rw [← htabled.chatReplay, ← htabled.epoch]
    rfl
  pendingEpoch := by
    rw [← htabled.epoch, ← htabled.now]
    rfl
  held action haction := by
    rw [htabled.pendingMembership, List.mem_append] at haction
    exact haction.imp id (hheld action)
  generated := hbegins.generated
  wrapped law := by
    rw [← htabled.hostIdentity, ← htabled.sessionId, ← htabled.epoch]
    exact hbegins.wraps law
  areWraps := isWrap_of_wrapAll hbegins.wrapped
  output := ⟨before, after, hresult, hkinds⟩

theorem begun_of_joined (htabled : Tabled a b) {key : Key} {wraps : List RoomAction}
    (hbegins : Begins P rng b key wraps) (member : Member) :
    Begun P rng a ((b.rotated key).queueMemberJoined P member)
      (.ok (.sendTo member.connection (.joinAccepted ⟨member.memberId⟩) ::
        .notifyHost (.memberJoined member.memberId member.nickname) :: wraps)) key wraps := by
  unfold queueMemberJoined queueMemberSnapshot
  dsimp only
  rw [List.append_assoc]
  refine begun_of_rotated htabled hbegins ?_
    [.sendTo member.connection (.joinAccepted ⟨member.memberId⟩),
      .notifyHost (.memberJoined member.memberId member.nickname)] [] ?_ ?_
  · intro action haction
    obtain haction | haction := List.mem_append.mp haction
    · obtain ⟨m, -, rfl⟩ := List.mem_map.mp haction
      rfl
    · rw [List.mem_singleton.mp haction]
      rfl
  · rw [List.append_nil]
    rfl
  · intro action haction
    simp only [List.append_nil, List.mem_cons, List.not_mem_nil, or_false] at haction
    obtain rfl | rfl := haction
    · exact .inr ⟨_, _, rfl⟩
    · exact .inl rfl

theorem begun_of_departed (htabled : Tabled a b) {key : Key} {wraps : List RoomAction}
    (hbegins : Begins P rng b key wraps) (gone : List MemberId) (eventType : UInt8)
    (before after : List RoomAction) (hplain : ∀ action ∈ before ++ after, action.isPlain = true) :
    Begun P rng a ((b.rotated key).queueMembersGone P gone eventType)
      (.ok (before ++ wraps ++ after)) key wraps := by
  obtain ⟨roomSequence, held, heq, hheld⟩ :=
    queueMembersGone_eq (P := P) (b.rotated key) gone eventType
  rw [heq]
  exact begun_of_rotated htabled hbegins hheld before after rfl
    fun action haction => .inl (hplain action haction)

/-! ### The outline of a move -/

theorem Move.sameRoom (h : Move P rng a event a' result) : SameRoom a a' := by
  cases h with
  | refused | acked | activated | closed => exact ⟨rfl, rfl, rfl, rfl, rfl⟩
  | failed tabled => exact { tabled.toSameRoom with }
  | quiet still => exact still.toSameRoom
  | relayed _ _ still => exact still.toSameRoom
  | policySet _ _ tabled => exact { tabled.toSameRoom with }
  | joined _ tabled => exact { tabled.toSameRoom with }
  | departed _ _ _ tabled =>
      refine SameRoom.trans ?_ (sameRoom_queueMembersGone P _ _ _)
      exact { tabled.toSameRoom with }

/-- A transition was attempted and failed. -/
structure Failed (P : Primitives) (rng : Rng) (a a' : RoomActor)
    (result : Except RoomError (List RoomAction)) : Prop extends SameRoom a a' where
  epoch : a'.epoch = a.epoch + 1
  pendingMembership : a'.pendingMembership = a.pendingMembership
  fault : ∃ b error, Tabled a b ∧
    (∀ m ∈ b.members.members, m ∈ a.members.members ∨
      ∃ q ∈ a.requests.requests, m.x25519Pubkey = q.application.x25519Pubkey) ∧
    (b.beginEpochTransition P rng).2 = .error error ∧ result = .error error

/-- No transition was attempted. -/
structure Steady (a a' : RoomActor) (result : Except RoomError (List RoomAction)) :
    Prop extends SameRoom a a' where
  epoch : a'.epoch = a.epoch
  members : a'.members.members.map Member.uncolored = a.members.members.map Member.uncolored
  held : ∀ action ∈ a'.pendingMembership, action ∈ a.pendingMembership
  replay : ReplayGrows a a'.chatReplay
  noWrap : ∀ action ∈ actionsOf result, action.isWrap = false

/-- What the room holds back are membership messages. -/
def HoldsMembership (a : RoomActor) : Prop :=
  ∀ action ∈ a.pendingMembership, action.isMembership = true

theorem envelope?_relayed (messageType : UInt8) (envelope : EncryptedEnvelope) :
    (relayed messageType envelope).envelope? = some envelope := by
  unfold relayed
  split
  · rfl
  · split <;> rfl

theorem Move.outline (hheld : HoldsMembership a) (h : Move P rng a event a' result) :
    Failed P rng a a' result ∨ (∃ key wraps, Begun P rng a a' result key wraps) ∨
      Steady a a' result := by
  have hsame : SameRoom a a := .refl a
  cases h with
  | refused _ hreplay =>
      exact .inr (.inr ⟨{ hsame with }, rfl, rfl, fun _ h => h, hreplay, by simp [actionsOf]⟩)
  | @failed b state pendingEpoch error htabled hmembers hfail =>
      exact .inl ⟨{ htabled.toSameRoom with }, congrArg (· + 1) htabled.epoch,
        htabled.pendingMembership, b, error, htabled, hmembers, hfail, rfl⟩
  | quiet hstill _ _ hreplay hplain =>
      exact .inr (.inr ⟨hstill.toSameRoom, hstill.epoch, hstill.members,
        fun _ h => hstill.pendingMembership ▸ h, hreplay,
        fun action haction => RoomAction.isWrap_of_isPlain (hplain action haction)⟩)
  | relayed _ hrelays hstill _ _ hreplay =>
      refine .inr (.inr ⟨hstill.toSameRoom, hstill.epoch, hstill.members,
        fun _ h => hstill.pendingMembership ▸ h, .inr ⟨_, _, hrelays.fresh, hreplay⟩, ?_⟩)
      intro action haction
      obtain ⟨m, -, rfl⟩ := List.mem_map.mp haction
      unfold RoomActor.relayed
      split
      · rfl
      · split <;> rfl
  | policySet actions _ htabled _ hmembers hplain =>
      refine .inr (.inr ⟨{ htabled.toSameRoom with }, htabled.epoch,
        congrArg (fun t : MemberTable => t.members.map Member.uncolored) hmembers,
        fun _ h => htabled.pendingMembership ▸ h, .inl htabled.chatReplay, ?_⟩)
      intro action haction
      simp only [actionsOf, announcePolicy, List.mem_append, List.mem_map, List.mem_singleton]
        at haction
      obtain haction | ⟨m, -, rfl⟩ | rfl := haction
      · exact RoomAction.isWrap_of_isPlain (hplain action haction)
      · rfl
      · rfl
  | acked =>
      exact .inr (.inr ⟨{ hsame with }, rfl, rfl, fun _ h => h, .refl a, by simp [actionsOf]⟩)
  | activated =>
      refine .inr (.inr ⟨{ hsame with }, rfl, rfl, (fun _ h => nomatch h), .refl a, ?_⟩)
      intro action haction
      obtain haction | haction := List.mem_append.mp haction
      · exact RoomAction.isWrap_of_isMembership (hheld action haction)
      · split at haction
        · rw [List.mem_singleton.mp haction]
          rfl
        · cases haction
  | joined _ htabled _ _ _ hbegins =>
      exact .inr (.inl ⟨_, _, begun_of_joined htabled hbegins _⟩)
  | departed gone before after htabled _ _ _ _ _ _ hbegins hplain =>
      exact .inr (.inl ⟨_, _, begun_of_departed htabled hbegins gone _ before after hplain⟩)
  | closed _ hplain =>
      exact .inr (.inr ⟨{ hsame with }, rfl, rfl, fun _ h => h, .refl a,
        fun action haction => RoomAction.isWrap_of_isPlain (hplain action haction)⟩)

theorem HoldsMembership.move (h : HoldsMembership a) (hmove : Move P rng a event a' result) :
    HoldsMembership a' := by
  intro action haction
  obtain hfailed | ⟨key, wraps, hbegun⟩ | hsteady := hmove.outline h
  · exact h action (hfailed.pendingMembership ▸ haction)
  · exact (hbegun.held action haction).elim (h action) id
  · exact h action (hsteady.held action haction)

theorem Run.holdsMembership {allowed : Past → RoomActor → Input → Prop} {setup : Setup}
    {a₀ : RoomActor} {actions : List RoomAction} {past : Past}
    (hstart : Started P setup a₀ actions) (run : Run P allowed a₀ past a) :
    HoldsMembership a := by
  refine run.invariant (fun _ a => HoldsMembership a) ?_ ?_
  · obtain ⟨nickname, sessionId, token, key, wraps, hopening⟩ := hstart.opening
    rw [hopening.actor]
    nofun
  · intro past a input run hheld _
    exact HoldsMembership.move (a := { a with now := input.now }) hheld
      (handleEventAt_effect P input.rng (Run.valid hstart.valid run) input.event input.now).move

end RoomActor

end Veilroom
