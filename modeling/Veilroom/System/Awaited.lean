import Veilroom.Library.KeyedList
import Veilroom.Room.Records
import Veilroom.System.Attuned

/-!
Whom the room awaits, and what it has of a member.

A room that stays on an epoch stops awaiting a member only when it handles the
member's acknowledgement. What a member was wrapped for the current epoch is the
current key, the tracker has nothing of later epochs, and a member that applies
with its own keys is in the table with them.
-/
namespace Veilroom

/-- The number of the envelope an event brings. -/
def RoomEvent.sequence? : RoomEvent → Option Nat
  | .chatReceived _ _ envelope => some envelope.senderSequence
  | _ => none

namespace RoomActor
variable {P : Primitives} {rng : Rng} {a a' : RoomActor} {event : RoomEvent}
variable {result : Except RoomError (List RoomAction)} {m n : Member}
variable {started : List RoomAction} {past : Past} {c : ConnectionId}

/-! ### Whom the room awaits -/

/-- `id` has yet to acknowledge the pending epoch. -/
def Awaits (a : RoomActor) (id : MemberId) : Prop :=
  ∃ pending, a.pendingEpoch = some pending ∧ id ∈ pending.awaiting

/-- The room keeps its key, and stops awaiting only those whose acknowledgement it handles. -/
structure Abides (a : RoomActor) (event : RoomEvent) (a' : RoomActor) : Prop where
  epoch : a'.epoch = a.epoch
  currentKey : a'.currentKey = a.currentKey
  awaits : ∀ id, a.Awaits id → a'.Awaits id ∨
    ∃ connection, event = .epochAck connection a.epoch ∧
      a.connections.memberId connection = some id

theorem Unmoved.abides (h : Unmoved a a') (hpending : a'.pendingEpoch = a.pendingEpoch)
    (event : RoomEvent) : Abides a event a' where
  epoch := h.epoch
  currentKey := h.currentKey
  awaits id hawaits := by
    rw [Awaits, ← hpending] at hawaits
    exact .inl hawaits

/-- Every move that leaves the room open begins an epoch or abides by the one there is. -/
theorem Move.begun_or_abides (hpending : ∀ p, a.pendingEpoch = some p → p.epoch = a.epoch)
    (hnofault : NoFault P rng a) (hmove : Move P rng a event a' result)
    (hopen : a'.state ≠ .destroyed) :
    (∃ key wraps, Begun P rng a a' result key wraps) ∨ Abides a event a' := by
  cases hmove with
  | refused => exact .inr ⟨rfl, rfl, fun _ hawaits => .inl hawaits⟩
  | failed htabled hmembers hfail => exact absurd hfail (hnofault _ _ htabled hmembers)
  | quiet hstill _ hsequence =>
      exact .inr ((hstill.unmoved hsequence).abides hstill.pendingEpoch event)
  | relayed _ _ hstill _ hsequence =>
      exact .inr ((hstill.unmoved (Nat.le_of_eq hsequence.symm)).abides hstill.pendingEpoch _)
  | @policySet b policy _ _ htabled hsame =>
      refine .inr ⟨htabled.epoch, ?_, fun id hawaits => ?_⟩
      · simp only [currentKey, announcePolicy, hsame, htabled.epochKey, htabled.epoch]
      · rw [Awaits, ← hsame] at hawaits
        exact .inl hawaits
  | @acked pending connection memberId hevent hsome hknown =>
      refine .inr ⟨rfl, by simp only [currentKey, hsome, PendingEpoch.retain], ?_⟩
      rintro id ⟨p, hp, hid⟩
      cases hp.symm.trans hsome
      by_cases hself : id = memberId
      · rw [hself]
        exact .inr ⟨connection, by rw [hevent, hpending _ hsome], hknown⟩
      · refine .inl ⟨_, rfl, ?_⟩
        simpa [PendingEpoch.retain] using ⟨hid, hself⟩
  | @activated pending connection memberId hevent hsome hknown _ hnone =>
      refine .inr ⟨rfl, by simp only [currentKey, hsome, hpending _ hsome], ?_⟩
      rintro id ⟨p, hp, hid⟩
      cases hp.symm.trans hsome
      refine .inr ⟨connection, by rw [hevent, hpending _ hsome], ?_⟩
      have hself : id = memberId := by
        by_contra hne
        have hmem : id ∈ (pending.retain memberId).awaiting := by
          simpa [PendingEpoch.retain] using ⟨hid, hne⟩
        rw [hnone] at hmem
        cases hmem
      rw [hself]
      exact hknown
  | joined _ htabled _ _ _ hbegins => exact .inl ⟨_, _, begun_of_joined htabled hbegins _⟩
  | departed gone before after htabled _ _ _ _ _ _ hbegins hplain =>
      exact .inl ⟨_, _, begun_of_departed htabled hbegins gone _ before after hplain⟩
  | closed => exact absurd rfl hopen

/-- A transition awaits everybody. -/
theorem Begun.awaits {key : Key} {wraps : List RoomAction}
    (h : Begun P rng a a' result key wraps) (hm : m ∈ a'.members.members) :
    a'.Awaits m.memberId :=
  ⟨_, h.pendingEpoch, List.mem_map_of_mem hm⟩

theorem Phase.pending_epoch (h : Phase P started past a) :
    ∀ p, a.pendingEpoch = some p → p.epoch = a.epoch := by
  intro p hp
  obtain ⟨q, hq⟩ | hsettled := h
  · cases hq.pending.symm.trans hp
    exact hq.epoch
  · rw [hsettled.pending] at hp
    cases hp

/-! ### What a member was sent -/

/-- A wrap of the current epoch that was sent to a member carries the current key. -/
theorem Phase.wrapOf (hphase : Phase P started past a) (hseparated : Separated started past a)
    (hm : m ∈ a.members.members) {wrap : EpochWrap}
    (hsent : .epochWrap wrap ∈ sentTo m.connection (emitted started past))
    (hepoch : wrap.epoch = a.epoch) :
    ∃ key, a.currentKey = some (a.epoch, key) ∧
      WrapOf P a.hostIdentity a.sessionId a.epoch key m wrap := by
  have hcarried {key : Key} (hwrapped : Wrapped P started past a key) :
      WrapOf P a.hostIdentity a.sessionId a.epoch key m wrap := by
    obtain ⟨wrap', hsent', hof⟩ := hwrapped m hm
    have hnodup : (wrapEpochs m.connection (emitted started past)).Nodup :=
      (hseparated.increasing m.connection).imp Nat.ne_of_lt
    cases List.eq_of_filterMap_nodup hnodup hsent (mem_sentTo.mpr hsent') (congrArg some hepoch)
      (congrArg some hof.ofEpoch)
    exact hof
  obtain ⟨p, h⟩ | h := hphase
  · exact ⟨p.key, by simp only [RoomActor.currentKey, h.pending, h.epoch], hcarried h.wrapped⟩
  · obtain ⟨key, hkey, hwrapped⟩ := h.epochKey
    exact ⟨key, by simp only [RoomActor.currentKey, h.pending, hkey], hcarried hwrapped⟩

section
variable {setup : Setup} {a₀ : RoomActor}

/-- The tracker holds no later epoch than the room's. -/
theorem Run.tracker_epoch (law : P.Lawful) (hstart : Started P setup a₀ started)
    (run : Run P (Orderly P) a₀ past a) {id : MemberId} {epoch last : Nat}
    (hlast : a.chatReplay.lastAccepted id epoch = some last) : epoch ≤ a.epoch := by
  induction run generalizing id epoch last with
  | start =>
      obtain ⟨nickname, sessionId, token, key, wraps, hopening⟩ := hstart.opening
      rw [hopening.actor] at hlast
      have hnone : (ReplayTracker.new.retainEpoch 1).lastAccepted id epoch = some last := hlast
      rw [ReplayTracker.lastAccepted_retainEpoch] at hnone
      split at hnone <;> cases hnone
  | @step past a input run orderly ih =>
      have facts := Run.stepFacts law hstart run orderly
      obtain hold | ⟨rfl, -⟩ := handle_records P a input id epoch last hlast
      · exact Nat.le_trans (ih hold) facts.epoch_le
      · exact facts.epoch_le

end

/-- The orderly environments in which whoever is on `c` applies with its own keys. -/
structure Owning (P : Primitives) (own : MemberIdentity) (c : ConnectionId) (past : Past)
    (a : RoomActor) (input : Input) : Prop extends Orderly P past a input where
  own : ∀ application, input.event = .joinRequested c application → application.Of P own

/-- The same but for the generator, whatever that answers. -/
structure OwningEvents (P : Primitives) (own : MemberIdentity) (c : ConnectionId) (past : Past)
    (a : RoomActor) (input : Input) : Prop extends OrderlyEvents P past a input where
  own : ∀ application, input.event = .joinRequested c application → application.Of P own

/-- Whoever is on `c`, or asked to be in the room from there, uses its own keys. -/
structure Owned (P : Primitives) (own : MemberIdentity) (c : ConnectionId) (a : RoomActor) :
    Prop where
  members : ∀ m ∈ a.members.members, m.connection = c →
    m.ed25519Pubkey = own.ed25519Pubkey P ∧ m.x25519Pubkey = own.x25519Pubkey P
  requests : ∀ q ∈ a.requests.requests, q.connection = c → q.application.Of P own

section
variable {setup : Setup} {a₀ : RoomActor} {own : MemberIdentity}

theorem Run.owned (law : P.Lawful) (hstart : Started P setup a₀ started)
    (hhost : c = setup.hostConnection → own = setup.hostClientIdentity)
    (run : Run P (Owning P own c) a₀ past a) : Owned P own c a := by
  refine run.invariant (fun _ a => Owned P own c a) ?_ ?_
  · obtain ⟨nickname, sessionId, token, key, wraps, hopening⟩ := hstart.opening
    rw [hopening.actor]
    refine ⟨fun m hm hc => ?_, fun q hq => nomatch hq⟩
    rw [List.mem_singleton.mp hm] at hc ⊢
    rw [hhost hc.symm]
    exact ⟨rfl, rfl⟩
  · intro past a input run h owning
    have orderly : Run P (Orderly P) a₀ past a := run.mono fun _ _ _ owning => owning.toOrderly
    have facts := Run.stepFacts law hstart orderly owning.toOrderly
    constructor
    · intro m hm hc
      obtain ⟨n, hn, heq⟩ | ⟨wrap, henters, -⟩ :=
        facts.effect.move.member_cases law facts.effect.step.valid facts.nofault hm
      · have hkey : n.uncolored.ed25519Pubkey = m.uncolored.ed25519Pubkey := by rw [heq]
        have hold := h.members n hn ((Member.connection_congr heq).trans hc)
        rw [Member.x25519Pubkey_congr heq] at hold
        exact ⟨hkey.symm.trans hold.1, hold.2⟩
      · obtain ⟨-, -, hrequest, rfl, -⟩ := henters
        obtain hof := h.requests _ hrequest hc
        exact ⟨hof.ed25519Pubkey, hof.x25519Pubkey⟩
    · intro q hq hc
      obtain hold | hevent := handle_queued facts.valid hq
      · exact h.requests q hold hc
      · rw [hc] at hevent
        exact owning.own _ hevent

end

/-- The room opens envelopes under its current key. -/
theorem chatPlaintext_eq (a : RoomActor) (senderId : MemberId) (messageType : UInt8)
    (envelope : EncryptedEnvelope) :
    a.chatPlaintext P senderId messageType envelope =
      match a.currentKey with
      | none => .error (.chat .noEpochKey)
      | some (epoch, epochKey) =>
        match a.members.byId senderId with
        | none => .error (.chat (.unknownSender envelope.senderId))
        | some sender =>
          match openEnvelope P epochKey sender.ed25519Pubkey 1 a.sessionId epoch envelope.senderId
              envelope.senderSequence messageType envelope.nonce envelope.ciphertext
              envelope.signature with
          | .ok plaintext => .ok plaintext
          | .error .invalidSignature => .error (.chat .invalidSignature)
          | .error (.decrypt _) => .error (.chat .invalidCiphertext) := rfl

end RoomActor

end Veilroom
