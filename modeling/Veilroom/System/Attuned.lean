import Veilroom.System.Sessions

/-!
Every member holds the room's key.

Whatever joins, leaves or times out, the session of a member that has consumed
everything it was sent holds the key of the epoch the room is in or moving to,
and no event later than the room's own.
-/
namespace Veilroom
namespace RoomActor
variable {P : Primitives} {rng : Rng} {own : MemberIdentity} {a a' b c : RoomActor}
variable {event : RoomEvent} {s s' : ChatSession} {n m : Member}
variable {identity : ConnectionId → MemberIdentity} {started : List RoomAction} {past : Past}

/-- The session holds the room's identity, its epoch key, and no event it has not sent. -/
structure Attuned (P : Primitives) (a : RoomActor) (m : Member) (s : ChatSession) : Prop where
  roomSessionId : s.roomSessionId = a.sessionId
  hostEd25519Pubkey : s.hostEd25519Pubkey = a.hostIdentity.ed25519Pubkey P
  hostX25519Pubkey : s.hostX25519Pubkey = a.hostIdentity.x25519Pubkey P
  memberId : s.memberId = m.memberId
  currentEpoch : s.currentEpoch = a.currentKey
  last : ∀ sequence, s.lastRoomSequence = some sequence → sequence ≤ a.roomSequence

theorem Phase.currentKey (h : Phase P started past a) :
    ∃ key, a.currentKey = some (a.epoch, key) := by
  obtain ⟨p, h⟩ | h := h
  · exact ⟨p.key, by simp only [RoomActor.currentKey, h.pending, h.epoch]⟩
  · obtain ⟨key, hkey, -⟩ := h.epochKey
    exact ⟨key, by simp only [RoomActor.currentKey, h.pending, hkey]⟩

/-- Attunement depends only on what `Alike` keeps, and on a room that has not moved on. -/
theorem Attuned.alike (h : Attuned P a n s) (halike : s'.Alike s) (hsame : SameRoom a a')
    (hkey : a'.currentKey = a.currentKey) (hsequence : a.roomSequence ≤ a'.roomSequence)
    (hid : n.memberId = m.memberId) : Attuned P a' m s' where
  roomSessionId := by rw [halike.roomSessionId, h.roomSessionId, hsame.sessionId]
  hostEd25519Pubkey := by rw [halike.hostEd25519Pubkey, h.hostEd25519Pubkey, hsame.hostIdentity]
  hostX25519Pubkey := by rw [halike.hostX25519Pubkey, h.hostX25519Pubkey, hsame.hostIdentity]
  memberId := by rw [halike.memberId, h.memberId, hid]
  currentEpoch := by rw [halike.currentEpoch, h.currentEpoch, hkey]
  last sequence hlast := by
    rw [halike.lastRoomSequence] at hlast
    exact Nat.le_trans (h.last sequence hlast) hsequence

/-- A membership message of a sequence the room has reached keeps a session attuned. -/
theorem Attuned.consume (h : Attuned P a m s) {message : Message}
    (hmessage : message.isMembership = true)
    (hsequence : ∀ sequence, message.eventSequence = some sequence → sequence ≤ a.roomSequence) :
    Attuned P a m (s.consume P own message) := by
  by_cases hadmits : ChatSession.Admits P s message
  · rw [ChatSession.consume_of_admits hadmits]
    exact { h with last := hsequence }
  · rw [ChatSession.consume_of_not_admits hmessage hadmits]
    exact h

theorem Attuned.foldl_consume {messages : List Message} (h : Attuned P a m s)
    (hmessages : ∀ message ∈ messages, message.isMembership = true ∧
      ∀ sequence, message.eventSequence = some sequence → sequence ≤ a.roomSequence) :
    Attuned P a m (messages.foldl (ChatSession.consume P own) s) := by
  induction messages generalizing s with
  | nil => exact h
  | cons message rest ih =>
      rw [List.forall_mem_cons] at hmessages
      exact ih (h.consume hmessages.1.1 hmessages.1.2) hmessages.2

/-- What the room holds back for a member keeps its session attuned. -/
theorem Attuned.release (h : Attuned P a m s) (hheld : HoldsEvents a) (c : ConnectionId) :
    Attuned P a m ((sentTo c a.pendingMembership).foldl (ChatSession.consume P own) s) := by
  apply h.foldl_consume
  intro message hmem
  obtain ⟨hmessage, ⟨n, heq, hle⟩, -⟩ := hheld c message (mem_sentTo.mp hmem)
  refine ⟨hmessage, fun sequence hsequence => ?_⟩
  rw [heq] at hsequence
  cases hsequence
  exact hle

/-- The session of an attuned member once it consumed the wrap of the next epoch. -/
theorem Attuned.wrapped (law : P.Lawful) (h : Attuned P a n s) {key : Key} {wrap : EpochWrap}
    (hof : WrapOf P a.hostIdentity a.sessionId (a.epoch + 1) key m wrap)
    (hid : n.memberId = m.memberId) (hkey : ∃ key, a.currentKey = some (a.epoch, key))
    (hown : m.x25519Pubkey = own.x25519Pubkey P) :
    s.consume P own (.epochWrap wrap) =
      { s with
        currentEpoch := some (a.epoch + 1, key),
          replay := s.replay.retainEpoch (a.epoch + 1) } := by
  rw [← h.roomSessionId] at hof
  refine ChatSession.consume_epochWrap law hof h.hostX25519Pubkey (h.memberId.trans hid) hown ?_
  intro now hnow
  obtain ⟨current, hcurrent⟩ := hkey
  rw [ChatSession.epoch, h.currentEpoch, hcurrent] at hnow
  cases hnow
  exact Nat.lt_succ_self _

/-- A room that began the next epoch finds its members on it. -/
theorem Attuned.begun (h : Attuned P a n s) {key : Key} (hsame : SameRoom a c)
    (hkey : c.currentKey = some (a.epoch + 1, key)) (hsequence : a.roomSequence ≤ c.roomSequence)
    (hid : n.memberId = m.memberId) (replay : ReplayTracker) :
    Attuned P c m { s with currentEpoch := some (a.epoch + 1, key), replay } where
  roomSessionId := by rw [hsame.sessionId, ← h.roomSessionId]
  hostEd25519Pubkey := by rw [hsame.hostIdentity, ← h.hostEd25519Pubkey]
  hostX25519Pubkey := by rw [hsame.hostIdentity, ← h.hostX25519Pubkey]
  memberId := h.memberId.trans hid
  currentEpoch := hkey.symm
  last sequence hlast := Nat.le_trans (h.last sequence hlast) hsequence

/-! ### Rooms that began an epoch -/

theorem sameRoom_rotated (htabled : Tabled a b) (key : Key) : SameRoom a (b.rotated key) :=
  { htabled.toSameRoom with }

theorem currentKey_rotated (htabled : Tabled a b) (key : Key) :
    (b.rotated key).currentKey = some (a.epoch + 1, key) := by
  rw [← htabled.epoch]
  rfl

theorem roomSequence_rotated (htabled : Tabled a b) (key : Key) :
    (b.rotated key).roomSequence = a.roomSequence + 1 :=
  congrArg (· + 1) htabled.roomSequence

/-- Queueing departures moves the room sequence up and holds more back. -/
theorem queueMembersGone_le (a : RoomActor) (gone : List MemberId) (eventType : UInt8) :
    SameRoom a (a.queueMembersGone P gone eventType) ∧
      (a.queueMembersGone P gone eventType).currentKey = a.currentKey ∧
      a.roomSequence ≤ (a.queueMembersGone P gone eventType).roomSequence := by
  induction gone generalizing a with
  | nil => exact ⟨.refl a, rfl, Nat.le_refl _⟩
  | cons id rest ih =>
      obtain ⟨hsame, hkey, hle⟩ := ih (a.queueMemberGone P id eventType)
      exact ⟨⟨hsame.sessionId, hsame.hostConnection, hsame.hostIdentity, hsame.timeouts, hsame.now⟩,
        hkey, Nat.le_trans (Nat.le_succ _) hle⟩

/-! ### Turns and runs -/

theorem Turn.attuned (law : P.Lawful) (h : Attuned P a n s) (hid : n.memberId = m.memberId)
    (hkey : ∃ key, a.currentKey = some (a.epoch, key)) (hheld : HoldsEvents a)
    (hown : m.x25519Pubkey = own.x25519Pubkey P) (hturn : Turn P rng own a event a' m s s') :
    Attuned P a' m s' := by
  have hmoved (hmoved : Unmoved a a') {s' : ChatSession} (halike : s'.Alike s) :
      Attuned P a' m s' :=
    h.alike halike hmoved.toSameRoom hmoved.currentKey hmoved.roomSequence hid
  cases hturn with
  | idle hunmoved => exact hmoved hunmoved (.refl s)
  | relayed _ _ hunmoved => exact hmoved hunmoved (ChatSession.consume_relayed_alike _ _)
  | @policySet notice _ hunmoved _ hsequence =>
      have hsame := hmoved hunmoved (.refl s)
      have hcases : s.consume P own (.joinPolicyChanged notice) = s ∨ _ :=
        ChatSession.consume_joinPolicyChanged notice
      obtain heq | heq := hcases
      · rw [heq]
        exact hsame
      · rw [heq]
        refine { hsame with last := fun sequence hlast => ?_ }
        cases hlast
        exact hsequence
  | activated hsame _ hkey' _ _ hsequence =>
      have hafter : Attuned P a n
          ((sentTo m.connection a.pendingMembership).foldl (ChatSession.consume P own) s) :=
        h.release hheld m.connection
      exact hafter.alike (.refl _) hsame hkey' (Nat.le_of_eq hsequence.symm) hid
  | @joined b key wraps request member wrap _ htabled _ _ _ _ hafter _ hof =>
      rw [h.wrapped law hof hid hkey hown, hafter]
      refine h.begun (c := (b.rotated key).queueMemberJoined P member) ?_
        (currentKey_rotated htabled key) ?_ hid _
      · exact { sameRoom_rotated htabled key with }
      · exact Nat.le_trans (Nat.le_of_eq htabled.roomSequence.symm) (Nat.le_add_right _ 3)
  | @departed b key wraps gone eventType wrap htabled _ _ _ _ hafter _ hof =>
      obtain ⟨hsame, hkey', hle⟩ := queueMembersGone_le (P := P) (b.rotated key) gone eventType
      rw [h.wrapped law hof hid hkey hown, hafter]
      refine h.begun ((sameRoom_rotated htabled key).trans hsame)
        (hkey'.trans (currentKey_rotated htabled key)) (Nat.le_trans ?_ hle) hid _
      rw [roomSequence_rotated htabled]
      exact Nat.le_succ _

/-- The session of a member that has just entered. -/
theorem Enters.opened (law : P.Lawful) {wrap : EpochWrap} (h : Enters P rng a a' m wrap)
    (hown : m.x25519Pubkey = own.x25519Pubkey P) :
    ∃ key, a'.currentKey = some (a.epoch + 1, key) ∧
      (ChatSession.new a.sessionId (a.hostIdentity.ed25519Pubkey P) (a.hostIdentity.x25519Pubkey P)
        m.memberId).consume P own (.epochWrap wrap) =
          { ChatSession.new a.sessionId (a.hostIdentity.ed25519Pubkey P)
              (a.hostIdentity.x25519Pubkey P) m.memberId with
            currentEpoch := some (a.epoch + 1, key)
            replay := ReplayTracker.new.retainEpoch (a.epoch + 1) } := by
  obtain ⟨-, htabled, -, -, -, -, rfl, hof⟩ := h
  exact ⟨_, currentKey_rotated htabled _,
    ChatSession.consume_epochWrap law hof rfl rfl hown nofun⟩

theorem Enters.attuned (law : P.Lawful) {wrap : EpochWrap} (h : Enters P rng a a' m wrap)
    (hown : m.x25519Pubkey = own.x25519Pubkey P) :
    Attuned P a' m ((ChatSession.new a.sessionId (a.hostIdentity.ed25519Pubkey P)
      (a.hostIdentity.x25519Pubkey P) m.memberId).consume P own (.epochWrap wrap)) := by
  obtain ⟨key, hkey, heq⟩ := h.opened law hown
  obtain ⟨-, htabled, -, -, -, -, rfl, -⟩ := h
  rw [heq]
  exact ⟨htabled.sessionId.symm, congrArg (fun i => i.ed25519Pubkey P) htabled.hostIdentity.symm,
    congrArg (fun i => i.x25519Pubkey P) htabled.hostIdentity.symm, rfl, hkey.symm, nofun⟩

section
variable {setup : Setup} {a₀ : RoomActor}

/-- The host's session once it consumed the first wrap. -/
theorem Started.heard (law : P.Lawful) (hstart : Started P setup a₀ started)
    (hhost : identity setup.hostConnection = setup.hostClientIdentity) {m : Member}
    (hm : m ∈ a₀.members.members) :
    m.memberId = 0 ∧ ∃ key, a₀.currentKey = some (1, key) ∧
      Seat.heard P setup a₀ identity started [] m.connection =
        some { Seat.hostSession P setup a₀ with
          currentEpoch := some (1, key), replay := ReplayTracker.new.retainEpoch 1 } := by
  obtain ⟨nickname, sessionId, token, key, wraps, hopening⟩ := hstart.opening
  have hmembers : a₀.members.members = [setup.hostMember P nickname] := by rw [hopening.actor]; rfl
  rw [hmembers] at hm
  obtain rfl := List.mem_singleton.mp hm
  obtain ⟨wrap, hof, hsent⟩ := hopening.begins.sentTo law
    (.refl (connected P setup nickname sessionId token)) (List.nodup_singleton _) (.head _)
  refine ⟨rfl, key, ?_, ?_⟩
  · rw [hopening.actor]
    rfl
  have hc : (setup.hostMember P nickname).connection = a₀.hostConnection := by
    rw [hopening.actor]
    rfl
  have hof : WrapOf P setup.hostIdentity (Seat.hostSession P setup a₀).roomSessionId 1 key
      (setup.hostMember P nickname) wrap := by
    rw [hopening.actor]
    exact hof
  have hidentity : (Seat.hostSession P setup a₀).hostX25519Pubkey =
      setup.hostIdentity.x25519Pubkey P := by
    rw [hopening.actor]
    rfl
  have hwrap : (Seat.hostSession P setup a₀).consume P setup.hostClientIdentity (.epochWrap wrap) =
      _ := ChatSession.consume_epochWrap law hof hidentity rfl rfl nofun
  rw [Seat.heard, emitted_nil, hopening.actions, sentTo_cons_notifyHost, hsent, Seat.initial,
    if_pos hc, show identity (setup.hostMember P nickname).connection = _ from hhost]
  exact congrArg some hwrap

theorem Started.attuned (law : P.Lawful) (hstart : Started P setup a₀ started)
    (hhost : identity setup.hostConnection = setup.hostClientIdentity) {m : Member}
    (hm : m ∈ a₀.members.members) :
    ∃ s, Seat.heard P setup a₀ identity started [] m.connection = some s ∧ Attuned P a₀ m s := by
  obtain ⟨hzero, key, hkey, hheard⟩ := hstart.heard law hhost hm
  exact ⟨_, hheard, rfl, rfl, rfl, hzero.symm, hkey.symm, nofun⟩

/-- Whatever happens, a member that consumed everything holds the room's current key. -/
theorem Run.attuned (law : P.Lawful) (hstart : Started P setup a₀ started)
    (hhost : identity setup.hostConnection = setup.hostClientIdentity)
    (run : Run P (Fair P identity) a₀ past a) :
    a.state = .destroyed ∨ ∀ m ∈ a.members.members,
      ∃ s, Seat.heard P setup a₀ identity started past m.connection = some s ∧
        Attuned P a m s := by
  refine run.sessions law hstart hhost (fun _ _ _ fair => fair) (Attuned P) ?_ ?_ ?_ ?_
  · exact fun a now m s h => { h with }
  · exact fun m hm => hstart.attuned law hhost hm
  · intro past a input n m s s' hfacing fair hn heq hm _ h hturn
    have hkeys := (hfacing.presented.step law hfacing.facts fair).members m hm
    exact hturn.attuned law h (Member.memberId_congr heq) hfacing.phase.currentKey hfacing.held
      hkeys.2
  · intro past a input m wrap hfacing hm _ hidentity hsession henters
    have hkeys := (hfacing.presented.step law hfacing.facts hfacing.fair).members m hm
    have hattuned := henters.attuned law hkeys.2
    rw [← hidentity, ← hsession]
    exact hattuned

end

end RoomActor

end Veilroom
