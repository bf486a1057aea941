import Veilroom.Chat.Session
import Veilroom.Library.Run

/-!
At-most-once delivery by a chat session.

`ReplayTracker.Covers` relates a tracker to everything its owner ever accepted,
also of epochs that have been pruned; `DeliveredOnce` is what follows for the
history of the owner. The room actor uses both the same way.
-/
namespace Veilroom

namespace ReplayTracker
variable {t : ReplayTracker} {current : Option Nat} {accepted : MemberId → Nat → Nat → Prop}

/-- Everything accepted is of an epoch up to the current one, and what is of the current epoch
itself is at or below the last sequence the tracker holds. -/
def Covers (t : ReplayTracker) (current : Option Nat) (accepted : MemberId → Nat → Nat → Prop) :
    Prop :=
  ∀ sender epoch sequence, accepted sender epoch sequence →
    ∃ now, current = some now ∧ epoch ≤ now ∧
      (epoch = now → ∃ last, t.lastAccepted sender epoch = some last ∧ sequence ≤ last)

/-- Pruning is harmless: a later epoch needs nothing of what was accepted before. -/
theorem Covers.advance (h : Covers t current accepted) {later : Nat}
    (hlater : ∀ now, current = some now → now < later) (t' : ReplayTracker) :
    Covers t' (some later) accepted := by
  intro sender epoch sequence haccepted
  obtain ⟨now, hnow, hle, -⟩ := h sender epoch sequence haccepted
  have hlt := hlater now hnow
  exact ⟨later, rfl, Nat.le_of_lt (Nat.lt_of_le_of_lt hle hlt), fun heq => by omega⟩

theorem Covers.lt_of_fresh {now : Nat} (h : Covers t (some now) accepted) {sender : MemberId}
    {sequence sequence' : Nat} (hfresh : t.Fresh sender now sequence)
    (haccepted : accepted sender now sequence') : sequence' < sequence := by
  obtain ⟨epoch, heq, -, hlast⟩ := h sender now sequence' haccepted
  cases heq
  obtain ⟨last, hlast, hle⟩ := hlast rfl
  exact Nat.lt_of_le_of_lt hle (hfresh last hlast)

theorem Covers.record {now : Nat} (h : Covers t (some now) accepted) {sender : MemberId}
    {sequence : Nat} (hfresh : t.Fresh sender now sequence) :
    Covers (t.record sender now sequence) (some now) fun s e n =>
      accepted s e n ∨ s = sender ∧ e = now ∧ n = sequence := by
  intro s e n haccepted
  obtain haccepted | ⟨rfl, rfl, rfl⟩ := haccepted
  · obtain ⟨epoch, heq, hle, hlast⟩ := h s e n haccepted
    cases heq
    refine ⟨now, rfl, hle, fun hnow => ?_⟩
    subst hnow
    obtain ⟨last, hlast, hn⟩ := hlast rfl
    by_cases hs : s = sender
    · subst hs
      refine ⟨sequence, by simp, ?_⟩
      exact Nat.le_of_lt (h.lt_of_fresh hfresh haccepted)
    · exact ⟨last, by simp [hs, hlast], hn⟩
  · exact ⟨_, rfl, Nat.le_refl _, fun _ => ⟨_, by simp, Nat.le_refl _⟩⟩

end ReplayTracker

section
universe u
variable {ε : Type u} {delivered : ε → EncryptedEnvelope → Prop} {past : List ε} {entry : ε}

/-- Each step of `past` (newest first) delivered at most one envelope, and the sequences
delivered for one sender and epoch strictly increase. -/
structure DeliveredOnce (delivered : ε → EncryptedEnvelope → Prop) (past : List ε) : Prop where
  single : ∀ entry ∈ past, ∀ e e', delivered entry e → delivered entry e' → e = e'
  increasing : past.Pairwise fun newer older => ∀ e e', delivered newer e → delivered older e' →
    e'.senderId = e.senderId → e'.epoch = e.epoch → e'.senderSequence < e.senderSequence

/-- The numbers of everything delivered so far. -/
def DeliveredIn (delivered : ε → EncryptedEnvelope → Prop) (past : List ε)
    (sender : MemberId) (epoch sequence : Nat) : Prop :=
  ∃ entry ∈ past, ∃ e, delivered entry e ∧
    e.senderId = sender ∧ e.epoch = epoch ∧ e.senderSequence = sequence

theorem DeliveredOnce.nil : DeliveredOnce delivered [] := ⟨nofun, .nil⟩

/-- A step that delivered nothing. -/
theorem DeliveredOnce.idle (h : DeliveredOnce delivered past) (hnone : ∀ e, ¬ delivered entry e) :
    DeliveredOnce delivered (entry :: past) where
  single entry' hentry e e' he he' := by
    cases hentry with
    | head => exact absurd he (hnone e)
    | tail _ hentry => exact h.single entry' hentry e e' he he'
  increasing := List.pairwise_cons.mpr ⟨fun _ _ e _ he => absurd he (hnone e), h.increasing⟩

/-- A step that delivered one envelope of the current epoch with a fresh sequence. -/
theorem DeliveredOnce.deliver (h : DeliveredOnce delivered past) {t : ReplayTracker} {now : Nat}
    (hcovers : t.Covers (some now) (DeliveredIn delivered past)) {e : EncryptedEnvelope}
    (hone : ∀ e', delivered entry e' → e' = e) (hepoch : e.epoch = now)
    (hfresh : t.Fresh e.senderId now e.senderSequence) :
    DeliveredOnce delivered (entry :: past) where
  single entry' hentry e₁ e₂ he₁ he₂ := by
    cases hentry with
    | head => rw [hone e₁ he₁, hone e₂ he₂]
    | tail _ hentry => exact h.single entry' hentry e₁ e₂ he₁ he₂
  increasing := by
    refine List.pairwise_cons.mpr ⟨fun older holder e₁ e' he₁ he' hsender he => ?_, h.increasing⟩
    rw [hone e₁ he₁] at hsender he ⊢
    exact hcovers.lt_of_fresh hfresh ⟨older, holder, e', he', hsender, he.trans hepoch, rfl⟩

theorem covers_idle {t : ReplayTracker} {current : Option Nat}
    (h : t.Covers current (DeliveredIn delivered past)) (hnone : ∀ e, ¬ delivered entry e) :
    t.Covers current (DeliveredIn delivered (entry :: past)) := by
  rintro sender epoch sequence ⟨entry', hentry, e, he, hnumbers⟩
  cases hentry with
  | head => exact absurd he (hnone e)
  | tail _ hentry => exact h sender epoch sequence ⟨entry', hentry, e, he, hnumbers⟩

theorem covers_deliver {t : ReplayTracker} {now : Nat}
    (h : t.Covers (some now) (DeliveredIn delivered past)) {e : EncryptedEnvelope}
    (hone : ∀ e', delivered entry e' → e' = e) (hepoch : e.epoch = now)
    (hfresh : t.Fresh e.senderId now e.senderSequence) :
    (t.record e.senderId now e.senderSequence).Covers (some now)
      (DeliveredIn delivered (entry :: past)) := by
  rintro sender epoch sequence ⟨entry', hentry, e', he', rfl, rfl, rfl⟩
  refine h.record hfresh _ _ _ ?_
  cases hentry with
  | head =>
      rw [hone e' he']
      exact .inr ⟨rfl, hepoch, rfl⟩
  | tail _ hentry => exact .inl ⟨entry', hentry, e', he', rfl, rfl, rfl⟩

end

/-! ### Sessions -/

/-- The calls a session takes, with any arguments. -/
inductive SessionCall
  | setEpochFromWrap (identity : MemberIdentity) (wrap : EpochWrap)
  | installEpoch (epoch : Nat) (key : Key)
  | installMember (view : MemberView)
  | membership (message : Message)
  | receiveChat (envelope : EncryptedEnvelope)
  | receiveColor (envelope : EncryptedEnvelope)
  | receiveTimeoutRequest (envelope : EncryptedEnvelope)
  | receiveTimeoutChanged (envelope : EncryptedEnvelope)

namespace ChatSession
variable (P : Primitives)

/-- The session after a call. -/
def call (s : ChatSession) : SessionCall → ChatSession
  | .setEpochFromWrap identity wrap => (s.setEpochFromWrap P identity wrap).1
  | .installEpoch epoch key => s.installEpoch epoch key
  | .installMember view => s.installMember view
  | .membership message => (s.handleMembershipMessage P message).1
  | .receiveChat envelope => (s.receiveChat P envelope).1
  | .receiveColor envelope => (s.receiveColor P envelope).1
  | .receiveTimeoutRequest envelope => (s.receiveTimeoutRequest P envelope).1
  | .receiveTimeoutChanged envelope => (s.receiveTimeoutChanged P envelope).1

/-- The envelope a call hands to `open`, with its message type. -/
def offered : SessionCall → Option (UInt8 × EncryptedEnvelope)
  | .receiveChat envelope => some (msgChat, envelope)
  | .receiveColor envelope => some (msgColor, envelope)
  | .receiveTimeoutRequest envelope => some (msgTimeoutRequest, envelope)
  | .receiveTimeoutChanged envelope =>
    if envelope.senderId ≠ 0 then none else some (msgTimeoutChanged, envelope)
  | _ => none

/-- The envelope `open` accepted during a call. -/
def opened (s : ChatSession) (input : SessionCall) : Option EncryptedEnvelope :=
  match offered input with
  | none => none
  | some (messageType, envelope) =>
    match (s.openMessage P messageType envelope).2 with
    | .ok _ => some envelope
    | .error _ => none

/-- Any calls in any order. -/
abbrev Run (s₀ : ChatSession) (past : List (Machine.Entry ChatSession SessionCall
    (Option EncryptedEnvelope))) (s : ChatSession) : Prop :=
  Machine.Run (fun s input => (s.call P input, s.opened P input)) (fun _ _ _ => True) s₀ past s

variable {P} {s : ChatSession}

theorem openMessage_cases (messageType : UInt8) (envelope : EncryptedEnvelope) :
    (∃ error, s.openMessage P messageType envelope = (s, .error error)) ∨
    ∃ key plaintext sender, s.currentEpoch = some (envelope.epoch, key) ∧
      s.member envelope.senderId = some sender ∧
      s.replay.Fresh envelope.senderId envelope.epoch envelope.senderSequence ∧
      openEnvelope P key sender.ed25519Pubkey 1 s.roomSessionId envelope.epoch envelope.senderId
        envelope.senderSequence messageType envelope.nonce envelope.ciphertext
        envelope.signature = .ok plaintext ∧
      s.openMessage P messageType envelope =
        ({ s with replay :=
          s.replay.record envelope.senderId envelope.epoch envelope.senderSequence },
          .ok plaintext) := by
  unfold openMessage
  split
  · exact .inl ⟨_, rfl⟩
  rename_i epoch key hepoch
  split
  · exact .inl ⟨_, rfl⟩
  rename_i heq
  rw [not_not] at heq
  subst heq
  split
  · exact .inl ⟨_, rfl⟩
  rename_i sender hsender
  split
  · exact .inl ⟨_, rfl⟩
  rename_i hfresh
  rw [not_not] at hfresh
  split
  · exact .inl ⟨_, rfl⟩
  · exact .inl ⟨_, rfl⟩
  rename_i plaintext hopen
  refine .inr ⟨key, plaintext, sender, hepoch, hsender, hfresh, hopen, ?_⟩
  rw [ReplayTracker.accept_of_fresh hfresh]

/-- What a call does to the epoch and the tracker of a session. -/
inductive Receives (s : ChatSession) : ChatSession → Option EncryptedEnvelope → Prop
  | idle {s' : ChatSession} : s'.currentEpoch = s.currentEpoch → s'.replay = s.replay →
      Receives s s' none
  | advanced {s' : ChatSession} {epoch key} : s'.currentEpoch = some (epoch, key) →
      (∀ now, s.epoch = some now → now < epoch) → Receives s s' none
  | opened {s' : ChatSession} {envelope : EncryptedEnvelope} {key} :
      s.currentEpoch = some (envelope.epoch, key) → s'.currentEpoch = s.currentEpoch →
      s.replay.Fresh envelope.senderId envelope.epoch envelope.senderSequence →
      s'.replay = s.replay.record envelope.senderId envelope.epoch envelope.senderSequence →
      Receives s s' (some envelope)

theorem installEpoch_receives (epoch : Nat) (key : Key) :
    Receives s (s.installEpoch epoch key) none := by
  unfold installEpoch
  split
  · exact .idle rfl rfl
  · rename_i hlater
    refine .advanced rfl fun now hnow => ?_
    rw [hnow] at hlater
    simpa using hlater

/-- Membership messages touch neither the epoch nor the tracker. -/
theorem verifyRoomEvent_frame (sequence epoch : Nat) (eventType : UInt8) (body : Bytes)
    (signature : Signature) :
    (s.verifyRoomEvent P sequence epoch eventType body signature).1.currentEpoch =
        s.currentEpoch ∧
      (s.verifyRoomEvent P sequence epoch eventType body signature).1.replay = s.replay := by
  unfold verifyRoomEvent
  dsimp only
  split
  · exact ⟨rfl, rfl⟩
  split
  · exact ⟨rfl, rfl⟩
  split <;> exact ⟨rfl, rfl⟩

/-- What follows a verified room event keeps the epoch and the tracker. -/
private theorem afterRoomEvent_frame {sequence epoch : Nat} {eventType : UInt8} {body : Bytes}
    {signature : Signature} (f : ChatSession → ChatSession)
    (hf : ∀ s, (f s).currentEpoch = s.currentEpoch ∧ (f s).replay = s.replay) :
    Receives s (match s.verifyRoomEvent P sequence epoch eventType body signature with
      | (s, .error error) => (s, .error error)
      | (s, .ok ()) => (f s, .ok ()) : ChatSession × Except ChatError Unit).1 none := by
  have hframe := verifyRoomEvent_frame (P := P) (s := s) sequence epoch eventType body signature
  generalize s.verifyRoomEvent P sequence epoch eventType body signature = result at hframe
  obtain ⟨s', error | _⟩ := result
  · exact .idle hframe.1 hframe.2
  · exact .idle ((hf s').1.trans hframe.1) ((hf s').2.trans hframe.2)

theorem membership_receives (message : Message) :
    Receives s (s.handleMembershipMessage P message).1 none := by
  cases message with
  | memberJoined event =>
      unfold handleMembershipMessage handleMemberJoined
      dsimp only
      split
      · exact .idle rfl rfl
      split
      · exact .idle rfl rfl
      · exact afterRoomEvent_frame (fun s => s.installMember _) fun _ => ⟨rfl, rfl⟩
  | memberLeft event | memberKicked event =>
      exact afterRoomEvent_frame (fun s => s.removeMember event.memberId) fun _ => ⟨rfl, rfl⟩
  | joinPolicyChanged event =>
      exact afterRoomEvent_frame (fun s => { s with joinPolicyOpen := event.isOpen })
        fun _ => ⟨rfl, rfl⟩
  | memberSnapshot event =>
      unfold handleMembershipMessage handleMemberSnapshot
      dsimp only
      split
      · exact .idle rfl rfl
      · exact afterRoomEvent_frame (fun s => s.installSnapshot event.members) fun _ => ⟨rfl, rfl⟩
  | _ => exact .idle rfl rfl

theorem setEpochFromWrap_receives (identity : MemberIdentity) (wrap : EpochWrap) :
    Receives s (s.setEpochFromWrap P identity wrap).1 none := by
  unfold setEpochFromWrap
  split
  · exact .idle rfl rfl
  split
  · exact .idle rfl rfl
  split
  · exact .idle rfl rfl
  · exact installEpoch_receives _ _

/-! Decoding the plaintext changes nothing more. -/

theorem receiveChat_fst (envelope : EncryptedEnvelope) :
    (s.receiveChat P envelope).1 = (s.openMessage P msgChat envelope).1 := by
  unfold receiveChat
  generalize s.openMessage P msgChat envelope = result
  obtain ⟨s', error | plaintext⟩ := result
  · rfl
  · dsimp only
    split
    · rfl
    split <;> rfl

theorem receiveColor_fst (envelope : EncryptedEnvelope) :
    (s.receiveColor P envelope).1 = (s.openMessage P msgColor envelope).1 := by
  unfold receiveColor
  generalize s.openMessage P msgColor envelope = result
  obtain ⟨s', error | plaintext⟩ := result
  · rfl
  · match plaintext with
    | [] => rfl
    | [index] =>
        dsimp only
        split <;> rfl
    | _ :: _ :: _ => rfl

theorem receiveTimeoutRequest_fst (envelope : EncryptedEnvelope) :
    (s.receiveTimeoutRequest P envelope).1 = (s.openMessage P msgTimeoutRequest envelope).1 := by
  unfold receiveTimeoutRequest
  generalize s.openMessage P msgTimeoutRequest envelope = result
  obtain ⟨s', error | plaintext⟩ := result
  · rfl
  · dsimp only
    split
    · rfl
    split <;> rfl

theorem receiveTimeoutChanged_fst {envelope : EncryptedEnvelope} (h : envelope.senderId = 0) :
    (s.receiveTimeoutChanged P envelope).1 = (s.openMessage P msgTimeoutChanged envelope).1 := by
  unfold receiveTimeoutChanged
  rw [if_neg (by simpa using h)]
  generalize s.openMessage P msgTimeoutChanged envelope = result
  obtain ⟨s', error | plaintext⟩ := result
  · rfl
  · cases plaintext with
    | nil => rfl
    | cons flag rest =>
        dsimp only
        split
        · rfl
        split
        · rfl
        split
        · split <;> rfl
        · rfl

theorem openMessage_receives {input : SessionCall} {messageType : UInt8}
    {envelope : EncryptedEnvelope} (hoffered : offered input = some (messageType, envelope)) :
    Receives s (s.openMessage P messageType envelope).1 (s.opened P input) := by
  unfold opened
  rw [hoffered]
  obtain ⟨error, heq⟩ | ⟨key, plaintext, _, hepoch, -, hfresh, -, heq⟩ :=
    openMessage_cases (P := P) (s := s) messageType envelope
  · simp only [heq]
    exact .idle rfl rfl
  · simp only [heq]
    exact .opened hepoch rfl hfresh rfl

theorem call_receives (input : SessionCall) :
    Receives s (s.call P input) (s.opened P input) := by
  cases input with
  | setEpochFromWrap identity wrap => exact setEpochFromWrap_receives identity wrap
  | installEpoch epoch key => exact installEpoch_receives epoch key
  | installMember view => exact .idle rfl rfl
  | membership message => exact membership_receives message
  | receiveChat envelope =>
      rw [call, receiveChat_fst]
      exact openMessage_receives rfl
  | receiveColor envelope =>
      rw [call, receiveColor_fst]
      exact openMessage_receives rfl
  | receiveTimeoutRequest envelope =>
      rw [call, receiveTimeoutRequest_fst]
      exact openMessage_receives rfl
  | receiveTimeoutChanged envelope =>
      by_cases hsender : envelope.senderId = 0
      · rw [call, receiveTimeoutChanged_fst hsender]
        exact openMessage_receives (if_neg (by simpa using hsender))
      · rw [call, receiveTimeoutChanged, if_pos hsender, opened, offered, if_pos hsender]
        exact .idle rfl rfl

/-- Whatever a session is offered, it opens each envelope number at most once. -/
theorem deliveredOnce_of_run {s₀ : ChatSession} {past} (run : Run P s₀ past s) :
    DeliveredOnce (fun entry e => entry.output = some e) past := by
  refine (run.invariant (fun past s => s.replay.Covers s.epoch
    (DeliveredIn (fun entry e => entry.output = some e) past) ∧
      DeliveredOnce (fun entry e => entry.output = some e) past) ⟨?_, .nil⟩ ?_).2
  · rintro _ _ _ ⟨_, hentry, -⟩
    cases hentry
  rintro past s input - ⟨hcovers, honce⟩ -
  have hreceives := call_receives (P := P) (s := s) input
  dsimp only
  generalize hafter : s.call P input = s' at hreceives
  generalize hout : s.opened P input = out at hreceives
  cases hreceives with
  | idle hepoch hreplay =>
      rw [epoch, hepoch, hreplay]
      exact ⟨covers_idle hcovers nofun, honce.idle nofun⟩
  | advanced hepoch hlater =>
      rw [epoch, hepoch]
      exact ⟨covers_idle (hcovers.advance hlater _) nofun, honce.idle nofun⟩
  | opened hepoch hsame hfresh hreplay =>
      rw [epoch, hepoch] at hcovers
      rw [epoch, hsame, hepoch, hreplay]
      exact ⟨covers_deliver hcovers (fun e' he' => (Option.some.inj he').symm) rfl hfresh,
        honce.deliver hcovers (fun e' he' => (Option.some.inj he').symm) rfl hfresh⟩

end ChatSession

end Veilroom
