import Veilroom.Chat.Delivery
import Veilroom.Crypto.Symbolic

/-!
Rejected messages leave a session alone, and accepted ones only move it forward.

A room event is accepted by its sequence and an epoch key is installed by its
epoch. Both are counters in the sense of `Machine.Counts`; everything else a
session does keeps them.
-/
namespace Veilroom

/-- The sequence of a signed room event. -/
def Message.eventSequence : Message → Option Nat
  | .memberJoined event => some event.sequence
  | .memberLeft event | .memberKicked event => some event.sequence
  | .joinPolicyChanged event => some event.sequence
  | .memberSnapshot event => some event.sequence
  | _ => none

/-- Every method that changes a session, with any arguments. -/
inductive SessionUse
  | call (input : SessionCall)
  | memberJoined (event : MemberJoined)
  | memberGone (eventType : UInt8) (event : MemberGone)
  | memberSnapshot (event : MemberSnapshot)
  | removeMember (memberId : MemberId)
  | installSnapshot (members : List SnapshotMember)
  | sendChat (nonce : Option Nonce) (identity : MemberIdentity) (text : String)
  | sendColor (nonce : Option Nonce) (identity : MemberIdentity) (color : ColorChoice)
  | sendTimeoutRequest (nonce : Option Nonce) (identity : MemberIdentity) (seconds : Nat)
  | sendTimeoutChanged (nonce : Option Nonce) (identity : MemberIdentity) (interval : Option Nat)

/-- What a use of a session accepted: the sequence of a room event, the epoch of a key. -/
structure Taken where
  event : Option Nat := none
  epoch : Option Nat := none
deriving DecidableEq

namespace ChatSession
variable (P : Primitives)

/-- The sequence of an event that was handled with this result. -/
def accepted (sequence : Option Nat) : Except ChatError Unit → Taken
  | .ok () => { event := sequence }
  | .error _ => {}

/-- One use of a session, with what it accepted. -/
def use (s : ChatSession) : SessionUse → ChatSession × Taken
  | .call (.setEpochFromWrap identity wrap) =>
    let (s, result) := s.setEpochFromWrap P identity wrap
    (s, { epoch := result.toOption })
  | .call (.installEpoch epoch key) =>
    (s.installEpoch epoch key,
      { epoch := if s.epoch.any fun current => epoch ≤ current then none else some epoch })
  | .call (.membership message) =>
    let (s, result) := s.handleMembershipMessage P message
    (s, accepted message.eventSequence result)
  | .call input => (s.call P input, {})
  | .memberJoined event =>
    let (s, result) := s.handleMemberJoined P event
    (s, accepted (some event.sequence) result)
  | .memberGone eventType event =>
    let (s, result) := s.handleMemberGone P eventType event
    (s, accepted (some event.sequence) result)
  | .memberSnapshot event =>
    let (s, result) := s.handleMemberSnapshot P event
    (s, accepted (some event.sequence) result)
  | .removeMember memberId => (s.removeMember memberId, {})
  | .installSnapshot members => (s.installSnapshot members, {})
  | .sendChat nonce identity text => ((s.sendChat P nonce identity text).1, {})
  | .sendColor nonce identity color => ((s.sendColor P nonce identity color).1, {})
  | .sendTimeoutRequest nonce identity seconds =>
    ((s.sendTimeoutRequest P nonce identity seconds).1, {})
  | .sendTimeoutChanged nonce identity interval =>
    ((s.sendTimeoutChanged P nonce identity interval).1, {})

/-- Any uses in any order. -/
abbrev Uses (s₀ : ChatSession) (past : List (Machine.Entry ChatSession SessionUse Taken))
    (s : ChatSession) : Prop :=
  Machine.Run (use P) (fun _ _ _ => True) s₀ past s

variable {P} {s : ChatSession}

/-- The two ways a signed room event ends: refused, with the session as it was, or accepted by
a sequence above every one accepted before. -/
inductive Handles (s : ChatSession) (sequence : Option Nat) :
    ChatSession × Except ChatError Unit → Prop
  | refused (error : ChatError) : Handles s sequence (s, .error error)
  | accepted {s' : ChatSession} {n : Nat} : sequence = some n → s'.lastRoomSequence = some n →
      (∀ last, s.lastRoomSequence = some last → last < n) → s'.currentEpoch = s.currentEpoch →
      Handles s sequence (s', .ok ())

theorem verifyRoomEvent_handles (sequence epoch : Nat) (eventType : UInt8) (body : Bytes)
    (signature : Signature) :
    Handles s (some sequence) (s.verifyRoomEvent P sequence epoch eventType body signature) := by
  unfold verifyRoomEvent
  dsimp only
  split
  · exact .refused _
  split
  · exact .refused _
  split
  · exact .refused _
  · rename_i hlater
    refine .accepted rfl rfl (fun last hlast => ?_) rfl
    rw [hlast] at hlater
    simpa using hlater

/-- A handler that changes the session only after its event was verified. -/
private theorem after_handles {sequence epoch : Nat} {eventType : UInt8} {body : Bytes}
    {signature : Signature} (f : ChatSession → ChatSession)
    (hf : ∀ s, (f s).lastRoomSequence = s.lastRoomSequence ∧
      (f s).currentEpoch = s.currentEpoch) :
    Handles s (some sequence)
      (match s.verifyRoomEvent P sequence epoch eventType body signature with
        | (s, .error error) => (s, .error error)
        | (s, .ok ()) => (f s, .ok ())) := by
  have hverify := verifyRoomEvent_handles (P := P) (s := s) sequence epoch eventType body signature
  generalize s.verifyRoomEvent P sequence epoch eventType body signature = result at hverify
  cases hverify with
  | refused error => exact .refused error
  | accepted hsequence hlast hlater hepoch =>
      exact .accepted hsequence ((hf _).1.trans hlast) hlater ((hf _).2.trans hepoch)

theorem memberJoined_handles (event : MemberJoined) :
    Handles s (some event.sequence) (s.handleMemberJoined P event) := by
  unfold handleMemberJoined
  split
  · exact .refused _
  dsimp only
  split
  · exact .refused _
  · exact after_handles (fun s => s.installMember _) fun _ => ⟨rfl, rfl⟩

theorem memberGone_handles (eventType : UInt8) (event : MemberGone) :
    Handles s (some event.sequence) (s.handleMemberGone P eventType event) :=
  after_handles (fun s => s.removeMember event.memberId) fun _ => ⟨rfl, rfl⟩

theorem memberSnapshot_handles (event : MemberSnapshot) :
    Handles s (some event.sequence) (s.handleMemberSnapshot P event) := by
  unfold handleMemberSnapshot
  split
  · exact .refused _
  · exact after_handles (fun s => s.installSnapshot event.members) fun _ => ⟨rfl, rfl⟩

theorem membership_handles (message : Message) :
    Handles s message.eventSequence (s.handleMembershipMessage P message) := by
  cases message with
  | memberJoined event => exact memberJoined_handles event
  | memberLeft event | memberKicked event => exact memberGone_handles _ event
  | joinPolicyChanged event =>
      exact after_handles (fun s => { s with joinPolicyOpen := event.isOpen })
        fun _ => ⟨rfl, rfl⟩
  | memberSnapshot event => exact memberSnapshot_handles event
  | _ => exact .refused _

private theorem validateSnapshotEntries_ne_replayed (members : List SnapshotMember) {sender n : Nat}
    (prior : List SnapshotMember) :
    validateSnapshotEntries P prior members ≠ .error (.replayRejected sender n) := by
  induction members generalizing prior with
  | nil => nofun
  | cons member rest ih =>
      unfold validateSnapshotEntries
      split
      · nofun
      split
      · nofun
      split
      · nofun
      · exact ih _

/-- A snapshot is refused for its contents before its sequence is looked at. -/
private theorem validateSnapshot_ne_replayed (members : List SnapshotMember) (ownId : MemberId)
    {sender n : Nat} :
    validateSnapshot P members ownId ≠ .error (.replayRejected sender n) := by
  unfold validateSnapshot
  split
  · nofun
  split
  · nofun
  split
  · nofun
  · exact validateSnapshotEntries_ne_replayed members []

/-- Only an event at or below the last accepted sequence is refused as a replay. -/
theorem verifyRoomEvent_replayed {sequence epoch : Nat} {eventType : UInt8} {body : Bytes}
    {signature : Signature} {sender n : Nat}
    (h : (s.verifyRoomEvent P sequence epoch eventType body signature).2 =
      .error (.replayRejected sender n)) :
    ∃ last, s.lastRoomSequence = some last ∧ sequence ≤ last := by
  unfold verifyRoomEvent at h
  dsimp only at h
  split at h
  · cases h
  split at h
  · cases h
  split at h
  · rename_i hlast
    obtain ⟨last, hlast, hle⟩ := (Option.any_eq_true _ _).mp hlast
    exact ⟨last, hlast, of_decide_eq_true hle⟩
  · cases h

private theorem after_replayed {sequence epoch : Nat} {eventType : UInt8} {body : Bytes}
    {signature : Signature} {sender n : Nat} (f : ChatSession → ChatSession)
    (h : (match s.verifyRoomEvent P sequence epoch eventType body signature with
      | (s, .error error) => (s, .error error)
      | (s, .ok ()) => (f s, .ok ()) : ChatSession × Except ChatError Unit).2 =
        .error (.replayRejected sender n)) :
    ∃ last, s.lastRoomSequence = some last ∧ sequence ≤ last := by
  generalize hresult : s.verifyRoomEvent P sequence epoch eventType body signature = result at h
  obtain ⟨s', error | _⟩ := result
  · exact verifyRoomEvent_replayed ((congrArg Prod.snd hresult).trans h)
  · cases h

theorem membership_replayed {message : Message} {sender n : Nat}
    (h : (s.handleMembershipMessage P message).2 = .error (.replayRejected sender n)) :
    ∃ sequence last, message.eventSequence = some sequence ∧ s.lastRoomSequence = some last ∧
      sequence ≤ last := by
  cases message with
  | memberJoined event =>
      unfold handleMembershipMessage handleMemberJoined at h
      dsimp only at h
      split at h
      · cases h
      split at h
      · cases h
      · obtain ⟨last, hlast, hle⟩ := after_replayed (fun s => s.installMember _) h
        exact ⟨_, last, rfl, hlast, hle⟩
  | memberLeft event | memberKicked event =>
      obtain ⟨last, hlast, hle⟩ := after_replayed (fun s => s.removeMember event.memberId) h
      exact ⟨_, last, rfl, hlast, hle⟩
  | joinPolicyChanged event =>
      obtain ⟨last, hlast, hle⟩ :=
        after_replayed (fun s => { s with joinPolicyOpen := event.isOpen }) h
      exact ⟨_, last, rfl, hlast, hle⟩
  | memberSnapshot event =>
      unfold handleMembershipMessage handleMemberSnapshot at h
      dsimp only at h
      split at h
      · rename_i hinvalid
        cases h
        exact absurd hinvalid (validateSnapshot_ne_replayed _ _)
      · obtain ⟨last, hlast, hle⟩ := after_replayed (fun s => s.installSnapshot event.members) h
        exact ⟨_, last, rfl, hlast, hle⟩
  | _ => cases h

theorem Handles.unchanged {sequence : Option Nat} {result : ChatSession × Except ChatError Unit}
    (h : Handles s sequence result) {error : ChatError} (herror : result.2 = .error error) :
    result.1 = s := by
  cases h with
  | refused => rfl
  | accepted => cases herror

/-- A wrap is refused, with the session as it was, or its epoch is installed. -/
theorem setEpochFromWrap_cases (identity : MemberIdentity) (wrap : EpochWrap) :
    (∃ error, s.setEpochFromWrap P identity wrap = (s, .error error)) ∨
    ∃ key, (∀ now, s.epoch = some now → now < wrap.epoch) ∧
      s.setEpochFromWrap P identity wrap = ({ s with
        currentEpoch := some (wrap.epoch, key)
        replay := s.replay.retainEpoch wrap.epoch }, .ok wrap.epoch) := by
  unfold setEpochFromWrap
  split
  · exact .inl ⟨_, rfl⟩
  rename_i hnewer
  split
  · exact .inl ⟨_, rfl⟩
  split
  · exact .inl ⟨_, rfl⟩
  rename_i key _
  have hlater : ∀ now, s.epoch = some now → now < wrap.epoch := by
    intro now hnow
    rw [hnow] at hnewer
    simpa [Option.filter] using hnewer
  refine .inr ⟨key, hlater, ?_⟩
  unfold installEpoch
  rw [if_neg]
  cases hnow : s.epoch with
  | none => simp
  | some now =>
      have := hlater now hnow
      simp
      omega

/-! ### Steps -/

/-- What a use does to the two counters of a session. -/
structure Moves (s s' : ChatSession) (taken : Taken) : Prop where
  event : Machine.Counts s.lastRoomSequence s'.lastRoomSequence taken.event
  epoch : Machine.Counts s.epoch s'.epoch taken.epoch

/-- A use that keeps both counters. -/
theorem Moves.idle {s' : ChatSession} (hlast : s'.lastRoomSequence = s.lastRoomSequence)
    (hepoch : s'.currentEpoch = s.currentEpoch) : Moves s s' {} := by
  constructor
  · rw [hlast]
    exact .kept _
  · rw [ChatSession.epoch, ChatSession.epoch, hepoch]
    exact .kept _

theorem Handles.moves {sequence : Option Nat} {result : ChatSession × Except ChatError Unit}
    (h : Handles s sequence result) :
    Moves s result.1 (ChatSession.accepted sequence result.2) := by
  cases h with
  | refused => exact .idle rfl rfl
  | accepted hsequence hlast hlater hepoch =>
      constructor
      · rw [hlast, hsequence]
        exact .raised hlater
      · rw [epoch, epoch, hepoch]
        exact .kept _

theorem setEpochFromWrap_moves (identity : MemberIdentity) (wrap : EpochWrap) :
    Moves s (s.setEpochFromWrap P identity wrap).1
      { epoch := (s.setEpochFromWrap P identity wrap).2.toOption } := by
  obtain ⟨error, heq⟩ | ⟨key, hlater, heq⟩ := setEpochFromWrap_cases (P := P) (s := s) identity wrap
  · rw [heq]
    exact .idle rfl rfl
  · rw [heq]
    exact ⟨.kept _, .raised hlater⟩

theorem installEpoch_moves (epoch : Nat) (key : Key) :
    Moves s (s.installEpoch epoch key)
      { epoch := if s.epoch.any fun current => epoch ≤ current then none else some epoch } := by
  unfold installEpoch
  split
  · exact .idle rfl rfl
  · rename_i hnewer
    refine ⟨.kept _, .raised fun now hnow => ?_⟩
    rw [hnow] at hnewer
    simpa using hnewer

theorem sealMessage_frame (nonce : Option Nonce) (identity : MemberIdentity)
    (messageType : UInt8) (plaintext : Bytes) :
    Moves s (s.sealMessage P nonce identity messageType plaintext).1 {} := by
  unfold sealMessage
  split
  · exact .idle rfl rfl
  dsimp only
  split
  · exact .idle rfl rfl
  split <;> exact .idle rfl rfl

theorem openMessage_frame (messageType : UInt8) (envelope : EncryptedEnvelope) :
    Moves s (s.openMessage P messageType envelope).1 {} := by
  obtain ⟨error, heq⟩ | ⟨_, _, _, -, -, -, -, heq⟩ :=
    openMessage_cases (P := P) (s := s) messageType envelope
  · rw [heq]
    exact .idle rfl rfl
  · rw [heq]
    exact .idle rfl rfl

theorem use_moves (input : SessionUse) : Moves s (s.use P input).1 (s.use P input).2 := by
  cases input with
  | call input =>
      cases input with
      | setEpochFromWrap identity wrap => exact setEpochFromWrap_moves identity wrap
      | installEpoch epoch key => exact installEpoch_moves epoch key
      | installMember view => exact .idle rfl rfl
      | membership message => exact (membership_handles message).moves
      | receiveChat envelope =>
          rw [use, call, receiveChat_fst]
          · exact openMessage_frame _ _
          all_goals (intros; contradiction)
      | receiveColor envelope =>
          rw [use, call, receiveColor_fst]
          · exact openMessage_frame _ _
          all_goals (intros; contradiction)
      | receiveTimeoutRequest envelope =>
          rw [use, call, receiveTimeoutRequest_fst]
          · exact openMessage_frame _ _
          all_goals (intros; contradiction)
      | receiveTimeoutChanged envelope =>
          by_cases hsender : envelope.senderId = 0
          · rw [use, call, receiveTimeoutChanged_fst hsender]
            · exact openMessage_frame _ _
            all_goals (intros; contradiction)
          · rw [use, call, receiveTimeoutChanged, if_pos hsender]
            · exact .idle rfl rfl
            all_goals (intros; contradiction)
  | memberJoined event => exact (memberJoined_handles event).moves
  | memberGone eventType event => exact (memberGone_handles eventType event).moves
  | memberSnapshot event => exact (memberSnapshot_handles event).moves
  | removeMember memberId => exact .idle rfl rfl
  | installSnapshot members => exact .idle rfl rfl
  | sendChat nonce identity text =>
      simp only [use, sendChat]
      split
      · exact .idle rfl rfl
      · exact sealMessage_frame _ _ _ _
  | sendColor nonce identity color => exact sealMessage_frame _ _ _ _
  | sendTimeoutRequest nonce identity seconds =>
      simp only [use, sendTimeoutRequest]
      split
      · exact .idle rfl rfl
      · exact sealMessage_frame _ _ _ _
  | sendTimeoutChanged nonce identity interval =>
      simp only [use, sendTimeoutChanged]
      split
      · exact .idle rfl rfl
      · exact sealMessage_frame _ _ _ _

/-! ### Runs -/

/-- A rejected room event or wrap changes nothing of a session, whatever state it is in. -/
structure Atomic (P : Primitives) (s : ChatSession) : Prop where
  membership : ∀ message error, (s.handleMembershipMessage P message).2 = .error error →
    (s.handleMembershipMessage P message).1 = s
  wrap : ∀ identity wrap error, (s.setEpochFromWrap P identity wrap).2 = .error error →
    (s.setEpochFromWrap P identity wrap).1 = s

/-- The room sequences accepted and the epochs installed, newest first: both ascend from what
the session started with, and the last of each is what the session holds. -/
structure ReplayFree (s₀ : ChatSession)
    (past : List (Machine.Entry ChatSession SessionUse Taken)) (s : ChatSession) : Prop where
  events : Machine.Ascent s₀.lastRoomSequence s.lastRoomSequence
    (Machine.emissions Taken.event past)
  epochs : Machine.Ascent s₀.epoch s.epoch (Machine.emissions Taken.epoch past)

theorem atomic (s : ChatSession) : Atomic P s where
  membership message _ herror := (membership_handles message).unchanged herror
  wrap identity wrap error herror := by
    obtain ⟨_, heq⟩ | ⟨_, -, heq⟩ := setEpochFromWrap_cases (P := P) (s := s) identity wrap
    · rw [heq]
    · rw [heq] at herror
      cases herror

theorem Uses.replayFree {s₀ : ChatSession} {past} (uses : Uses P s₀ past s) :
    ReplayFree s₀ past s where
  events := uses.ascent lastRoomSequence Taken.event fun _ input => (use_moves input).event
  epochs := uses.ascent epoch Taken.epoch fun _ input => (use_moves input).epoch

/-- Every state of a session is atomic, and no event or key is applied twice or out of order. -/
theorem atomic_replay_free {s₀ : ChatSession} {past} (uses : Uses P s₀ past s) :
    Atomic P s ∧ ReplayFree s₀ past s :=
  ⟨atomic s, uses.replayFree⟩

end ChatSession

namespace Symbolic
open ChatSession

/-- A session of the room whose host signs with a key of sevens. -/
def listener : ChatSession :=
  .new (Vector.replicate 32 3) (Vector.replicate 32 7) (Vector.replicate 32 8) 1

/-- A policy change of the host, signed. -/
def policyEvent (sequence epoch : Nat) (isOpen : Bool) : Message :=
  .joinPolicyChanged ⟨sequence, epoch, isOpen, sign (Vector.replicate 32 7)⟩

/-- Two events, the first one again, a key, and an event of the epoch before. -/
def heard : List (Machine.Entry ChatSession SessionUse Taken) × ChatSession :=
  Machine.exec (use primitives)
    [.call (.membership (policyEvent 2 1 false)), .call (.membership (policyEvent 5 1 true)),
      .call (.membership (policyEvent 2 1 false)), .call (.installEpoch 3 (Vector.replicate 32 9)),
      .call (.membership (policyEvent 6 1 false))] [] listener

end Symbolic

namespace ChatSession
open Symbolic

theorem atomic_replay_free_heard :
    (Atomic primitives heard.2 ∧ ReplayFree listener heard.1 heard.2) ∧
      Machine.emissions Taken.event heard.1 = [5, 2] ∧
      Machine.emissions Taken.epoch heard.1 = [3] :=
  ⟨atomic_replay_free (.exec .start fun _ _ _ _ _ _ _ _ => trivial), by decide +kernel,
    by decide +kernel⟩

end ChatSession

end Veilroom
