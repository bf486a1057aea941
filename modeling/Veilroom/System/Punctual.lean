import Veilroom.Library.Logs
import Veilroom.Room.Refusals
import Veilroom.System.Agreement
import Veilroom.System.Awaited
import Veilroom.System.Seats

/-!
A member that seals with the key it holds is never blamed for its timing.

What an honest member sends reaches the room in order, so that its
acknowledgement of an epoch comes before everything it seals for it
(`Guarded`). Until then the room does not look at its envelopes, and from then
on they are of the epoch the room is in, with numbers the room has not seen.
-/
namespace Veilroom

namespace Seat
variable {P : Primitives} {setup : Setup} {a₀ : RoomActor} {own : MemberIdentity}
variable {c : ConnectionId} {seat : Seat}

/-- An envelope the event brings opens, for the room as it is, as one of `m`. -/
def OpensFor (P : Primitives) (a : RoomActor) (m : Member) (event : RoomEvent) : Prop :=
  ∀ connection messageType envelope, event = .chatReceived connection messageType envelope →
    envelope.epoch = a.epoch ∧ envelope.senderId = m.memberId ∧
      ∃ key plaintext, a.currentKey = some (a.epoch, key) ∧
        openEnvelope P key m.ed25519Pubkey 1 a.sessionId a.epoch m.memberId
          envelope.senderSequence messageType envelope.nonce envelope.ciphertext
          envelope.signature = .ok plaintext

/-- What the room can rely on of a member that sends in order and acknowledges what it installs. -/
structure Punctual (P : Primitives) (a : RoomActor) (m : Member) (session : Option ChatSession)
    (outbox : List RoomEvent) : Prop where
  acks : ∀ epoch, .epochAck m.connection epoch ∈ outbox → epoch ≤ a.epoch
  keyed : (∃ s ∈ session, s.currentEpoch = a.currentKey) ∨
    a.Awaits m.memberId ∧ .epochAck m.connection a.epoch ∉ outbox ∧
      ∀ s ∈ session, ∀ epoch ∈ s.epoch, epoch < a.epoch
  chats : List.Guarded (· = .epochAck m.connection a.epoch) (OpensFor P a m)
    (a.Awaits m.memberId) outbox
  ascending : (outbox.filterMap RoomEvent.sequence?).Pairwise (· < ·)
  numbered : ∀ number ∈ outbox.filterMap RoomEvent.sequence?,
    ∃ s ∈ session, number ≤ s.senderSequence
  fresh : ∀ last, a.chatReplay.lastAccepted m.memberId a.epoch = some last →
    (∀ number ∈ outbox.filterMap RoomEvent.sequence?, last < number) ∧
      ∃ s ∈ session, last ≤ s.senderSequence

section
variable {a a' : RoomActor} {m n : Member} {session : Option ChatSession}
variable {outbox rest : List RoomEvent} {event : RoomEvent} {past : Past}

theorem OpensFor.congr (h : OpensFor P a n event) (heq : n.uncolored = m.uncolored)
    (hsession : a'.sessionId = a.sessionId) (hepoch : a'.epoch = a.epoch)
    (hkey : a'.currentKey = a.currentKey) : OpensFor P a' m event := by
  have hed : n.uncolored.ed25519Pubkey = m.uncolored.ed25519Pubkey := by rw [heq]
  intro connection messageType envelope hevent
  rw [hsession, hepoch, hkey, ← Member.memberId_congr heq,
    ← show n.ed25519Pubkey = m.ed25519Pubkey from hed]
  exact h connection messageType envelope hevent

theorem Punctual.congr (h : Punctual P a n session outbox) (heq : n.uncolored = m.uncolored) :
    Punctual P a m session outbox where
  acks := Member.connection_congr heq ▸ h.acks
  keyed := Member.connection_congr heq ▸ Member.memberId_congr heq ▸ h.keyed
  chats := by
    rw [← Member.connection_congr heq, ← Member.memberId_congr heq]
    exact h.chats.mono id fun _ hopens => hopens.congr heq rfl rfl rfl
  ascending := h.ascending
  numbered := h.numbered
  fresh := Member.memberId_congr heq ▸ h.fresh

/-- The room handles an event: the next one of the member, or one that is not from it. -/
theorem Punctual.handled {input : Input} (h : Punctual P a m session outbox)
    (facts : RoomActor.StepFacts P past a input)
    (hpending : ∀ p, a.pendingEpoch = some p → p.epoch = a.epoch)
    (hkey : ∃ key, a.currentKey = some (a.epoch, key))
    (htracked : ∀ id epoch last, a.chatReplay.lastAccepted id epoch = some last → epoch ≤ a.epoch)
    (hn : n ∈ a.members.members) (heq : n.uncolored = m.uncolored)
    (hm : m ∈ (a.handle P input).1.members.members)
    (hopen : (a.handle P input).1.state ≠ .destroyed)
    (hout : outbox = input.event :: rest ∨
      outbox = rest ∧ input.event.speaker? ≠ some m.connection) :
    Punctual P (a.handle P input).1 m session rest := by
  have hsub : rest.Sublist outbox := by
    obtain rfl | ⟨rfl, -⟩ := hout
    · exact List.sublist_cons_self _ _
    · exact List.Sublist.refl _
  have hnumbers := hsub.filterMap RoomEvent.sequence?
  -- an event that names the member's connection is the first of its outbox
  have hown {connection : ConnectionId}
      (hknown : a.connections.memberId connection = some m.memberId)
      (hspeaks : input.event.speaker? = some connection) :
      connection = m.connection ∧ outbox = input.event :: rest := by
    obtain ⟨k, hk, hc, hid⟩ := facts.valid.entry_member connection _ hknown
    rw [← Member.memberId_congr heq] at hid
    obtain rfl := facts.valid.eq_of_memberId hk hn hid
    rw [← hc, Member.connection_congr heq] at hspeaks ⊢
    exact ⟨rfl, hout.resolve_right fun hother => hother.2 hspeaks⟩
  have hepochs : ∀ s ∈ session, ∀ epoch ∈ s.epoch, epoch ≤ a.epoch := by
    intro s hs epoch hepoch
    obtain ⟨t, ht, hcurrent⟩ | ⟨-, -, hbefore⟩ := h.keyed
    · obtain ⟨key, hkey⟩ := hkey
      cases Option.mem_unique hs ht
      rw [ChatSession.epoch, hcurrent, hkey] at hepoch
      exact Nat.le_of_eq (Option.some.inj hepoch).symm
    · exact Nat.le_of_lt (hbefore s hs epoch hepoch)
  obtain ⟨key, wraps, hbegun⟩ | habides := RoomActor.Move.begun_or_abides
    (a := { a with now := input.now }) hpending facts.nofault facts.effect.move hopen
  · have hepoch : (a.handle P input).1.epoch = a.epoch + 1 := hbegun.epoch
    have hawaits := hbegun.awaits hm
    have hnone : .epochAck m.connection (a.epoch + 1) ∉ rest := fun hmem =>
      Nat.not_succ_le_self _ (h.acks _ (hsub.subset hmem))
    refine ⟨?_, .inr ⟨hawaits, ?_, ?_⟩, ?_, h.ascending.sublist hnumbers,
      fun number hmem => h.numbered number (hnumbers.subset hmem), fun last hlast => ?_⟩
    · intro epoch hmem
      rw [hepoch]
      exact Nat.le_succ_of_le (h.acks epoch (hsub.subset hmem))
    · rw [hepoch]
      exact hnone
    · intro s hs epoch hmem
      rw [hepoch]
      exact Nat.lt_succ_of_le (hepochs s hs epoch hmem)
    · rw [hepoch]
      exact List.guarded_of_early (fun x hx heq => hnone (heq ▸ hx)) hawaits
    · -- the tracker was pruned to an epoch it knows nothing of
      rw [hepoch, hbegun.chatReplay] at hlast
      have hold := ReplayTracker.prunes_retainEpoch _ _ _ _ _ hlast
      exact absurd (htracked _ _ _ hold) (Nat.not_succ_le_self _)
  · have hepoch : (a.handle P input).1.epoch = a.epoch := habides.epoch
    have hcurrent : (a.handle P input).1.currentKey = a.currentKey := habides.currentKey
    have hawaits (hbefore : a.Awaits m.memberId) : (a.handle P input).1.Awaits m.memberId ∨
        input.event = .epochAck m.connection a.epoch ∧ outbox = input.event :: rest := by
      refine (habides.awaits _ hbefore).imp_right ?_
      rintro ⟨connection, hevent, hknown⟩
      obtain ⟨rfl, hfirst⟩ := hown hknown (by rw [hevent]; rfl)
      exact ⟨hevent, hfirst⟩
    refine ⟨?_, ?_, ?_, h.ascending.sublist hnumbers,
      fun number hmem => h.numbered number (hnumbers.subset hmem), fun last hlast => ?_⟩
    · intro epoch hmem
      rw [hepoch]
      exact h.acks epoch (hsub.subset hmem)
    · rw [hepoch, hcurrent]
      refine h.keyed.imp_right ?_
      rintro ⟨hbefore, hnone, hearlier⟩
      refine ⟨(hawaits hbefore).resolve_right ?_, fun hmem => hnone (hsub.subset hmem), hearlier⟩
      rintro ⟨hevent, hfirst⟩
      rw [hfirst, hevent] at hnone
      exact hnone (.head _)
    · rw [hepoch]
      have hgood : ∀ event, OpensFor P a m event → OpensFor P (a.handle P input).1 m event :=
        fun _ hopens => hopens.congr rfl facts.effect.move.sameRoom.sessionId hepoch hcurrent
      obtain hfirst | ⟨hsame, hother⟩ := hout
      · have hchats := h.chats
        rw [hfirst] at hchats
        refine hchats.2.mono (fun hearly => ?_) hgood
        exact (hawaits hearly.1).resolve_right fun hack => hearly.2 hack.1
      · refine (hsame ▸ h.chats).mono (fun hearly => ?_) hgood
        refine (hawaits hearly).resolve_right fun hack => hother ?_
        rw [hack.1]
        rfl
    · rw [hepoch] at hlast
      obtain hold | ⟨-, connection, messageType, envelope, hevent, hknown, rfl⟩ :=
        RoomActor.handle_records P a input _ _ _ hlast
      · obtain ⟨hbelow, hsession⟩ := h.fresh last hold
        exact ⟨fun number hmem => hbelow number (hnumbers.subset hmem), hsession⟩
      · obtain ⟨-, hfirst⟩ := hown hknown (by rw [hevent]; rfl)
        have hhead : outbox.filterMap RoomEvent.sequence? =
            envelope.senderSequence :: rest.filterMap RoomEvent.sequence? := by
          rw [hfirst, hevent]
          rfl
        have hascending := h.ascending
        have hnumbered := h.numbered
        rw [hhead] at hascending hnumbered
        exact ⟨(List.pairwise_cons.mp hascending).1, hnumbered _ (.head _)⟩

/-- A session with the same key, and no smaller number, is as punctual. -/
theorem Punctual.resume {s t : ChatSession} (h : Punctual P a m (some s) outbox)
    (hcurrent : t.currentEpoch = s.currentEpoch) (hnumber : s.senderSequence ≤ t.senderSequence) :
    Punctual P a m (some t) outbox where
  acks := h.acks
  keyed := by
    obtain ⟨_, ⟨⟩, hkey⟩ | ⟨hawaits, hnone, hbefore⟩ := h.keyed
    · exact .inl ⟨t, rfl, hcurrent.trans hkey⟩
    · refine .inr ⟨hawaits, hnone, ?_⟩
      rintro _ ⟨⟩
      rw [ChatSession.epoch, hcurrent]
      exact hbefore s rfl
  chats := h.chats
  ascending := h.ascending
  numbered number hmem := by
    obtain ⟨_, ⟨⟩, hle⟩ := h.numbered number hmem
    exact ⟨t, rfl, Nat.le_trans hle hnumber⟩
  fresh last hlast := by
    obtain ⟨hbelow, _, ⟨⟩, hle⟩ := h.fresh last hlast
    exact ⟨hbelow, t, rfl, Nat.le_trans hle hnumber⟩

/-- The member acknowledges an epoch it installs: the room's, or an earlier one. -/
theorem Punctual.acknowledge {s t : ChatSession} {epoch : Nat} {key : Key}
    (h : Punctual P a m (some s) outbox) (hkey : ∃ key, a.currentKey = some (a.epoch, key))
    (hlater : ∀ now, s.epoch = some now → now < epoch) (hle : epoch ≤ a.epoch)
    (hinstalled : t.currentEpoch = some (epoch, key))
    (hcurrent : epoch = a.epoch → a.currentKey = some (epoch, key))
    (hnumber : t.senderSequence = s.senderSequence) :
    Punctual P a m (some t) (outbox ++ [.epochAck m.connection epoch]) := by
  have hnumbers : (outbox ++ [RoomEvent.epochAck m.connection epoch]).filterMap
      RoomEvent.sequence? = outbox.filterMap RoomEvent.sequence? := by
    rw [List.filterMap_append]
    exact List.append_nil _
  refine ⟨?_, ?_, h.chats.concat (.inr nofun), ?_, ?_, ?_⟩
  · intro epoch' hmem
    obtain hmem | hmem := List.mem_append.mp hmem
    · exact h.acks epoch' hmem
    · cases List.mem_singleton.mp hmem
      exact hle
  · obtain ⟨_, ⟨⟩, hheld⟩ | ⟨hawaits, hnone, -⟩ := h.keyed
    · -- the session was on the room's epoch already
      obtain ⟨key, hkey⟩ := hkey
      have hlt := hlater a.epoch (by rw [ChatSession.epoch, hheld, hkey]; rfl)
      exact absurd hle (Nat.not_le_of_lt hlt)
    by_cases hsame : epoch = a.epoch
    · exact .inl ⟨t, rfl, hinstalled.trans (hcurrent hsame).symm⟩
    · refine .inr ⟨hawaits, ?_, ?_⟩
      · intro hmem
        obtain hmem | hmem := List.mem_append.mp hmem
        · exact hnone hmem
        · cases List.mem_singleton.mp hmem
          exact hsame rfl
      · rintro _ ⟨⟩ now hnow
        rw [ChatSession.epoch, hinstalled] at hnow
        cases hnow
        exact Nat.lt_of_le_of_ne hle hsame
  · rw [hnumbers]
    exact h.ascending
  · rw [hnumbers]
    intro number hmem
    obtain ⟨_, ⟨⟩, hbelow⟩ := h.numbered number hmem
    exact ⟨t, rfl, hnumber ▸ hbelow⟩
  · rw [hnumbers]
    intro last hlast
    obtain ⟨hbelow, _, ⟨⟩, hsession⟩ := h.fresh last hlast
    exact ⟨hbelow, t, rfl, hnumber ▸ hsession⟩

/-- The member consumes the next message of its inbox. -/
theorem Punctual.consumed (law : P.Lawful)
    (h : Punctual P a m seat.session seat.outbox) (hsilent : seat.Silent)
    (hkey : ∃ key, a.currentKey = some (a.epoch, key))
    (hopened : ∀ s ∈ seat.session, OpenedFor P a m.memberId s)
    (hown : m.x25519Pubkey = own.x25519Pubkey P)
    (hwraps : ∀ wrap, .epochWrap wrap ∈ seat.inbox → wrap.epoch ≤ a.epoch ∧
      (wrap.epoch = a.epoch → ∃ key, a.currentKey = some (a.epoch, key) ∧
        WrapOf P a.hostIdentity a.sessionId a.epoch key m wrap)) :
    Punctual P a m (seat.consume P a₀ own m.connection).session
      (seat.consume P a₀ own m.connection).outbox := by
  unfold Seat.consume
  split
  · exact h
  rename_i message inbox hinbox
  dsimp only
  cases hsession : seat.session with
  | none =>
      have hempty := hsilent hsession
      rw [hempty, hsession] at h
      rw [hempty]
      have hfresh : ∀ t ∈ receive P a₀ own none message, t.currentEpoch = none := by
        intro t ht
        cases message <;> cases ht
        rfl
      obtain ⟨_, ⟨⟩, -⟩ | ⟨hawaits, hnone, -⟩ := h.keyed
      refine ⟨h.acks, .inr ⟨hawaits, hnone, fun t ht epoch hepoch => ?_⟩, h.chats, h.ascending,
        nofun, fun last hlast => ?_⟩
      · rw [ChatSession.epoch, hfresh t ht] at hepoch
        cases hepoch
      · obtain ⟨-, _, ⟨⟩, -⟩ := h.fresh last hlast
  | some s =>
      rw [hsession] at h
      have hopened := hopened s hsession
      by_cases hwrap : ∃ wrap, message = .epochWrap wrap
      · obtain ⟨wrap, rfl⟩ := hwrap
        obtain ⟨hle, hof⟩ := hwraps wrap (hinbox ▸ .head _)
        simp only [receive, ChatSession.consume, answers]
        obtain ⟨error, heq⟩ | ⟨key, hlater, heq⟩ :=
          ChatSession.setEpochFromWrap_cases (P := P) (s := s) own wrap
        · rw [heq]
          dsimp only
          rw [List.append_nil]
          exact h
        · rw [heq]
          refine h.acknowledge hkey hlater hle rfl (fun hsame => ?_) rfl
          obtain ⟨current, hcurrent, hof⟩ := hof hsame
          rw [← hopened.roomSessionId] at hof
          have hconsumed : s.consume P own (.epochWrap wrap) = _ :=
            ChatSession.consume_epochWrap law hof hopened.hostX25519Pubkey hopened.memberId hown
              (hsame ▸ hlater)
          rw [ChatSession.consume, heq] at hconsumed
          have hinstalled : some (wrap.epoch, key) = some (a.epoch, current) :=
            congrArg ChatSession.currentEpoch hconsumed
          rw [hinstalled]
          exact hcurrent
      · have hplain : ∀ wrap, message ≠ .epochWrap wrap := fun wrap heq => hwrap ⟨wrap, heq⟩
        have hnone : answers P own m.connection (some s) message = [] := by
          cases message with
          | epochWrap wrap => exact absurd rfl (hplain wrap)
          | _ => rfl
        rw [hnone, List.append_nil]
        exact h.resume ((ChatSession.consume_remains s message).2 hplain)
          (Nat.le_of_eq (ChatSession.senderSequence_consume s message).symm)

/-- The member seals and sends. -/
theorem Punctual.submitted (law : P.Lawful) (h : Punctual P a m seat.session seat.outbox)
    (hkey : ∃ key, a.currentKey = some (a.epoch, key))
    (hopened : ∀ s ∈ seat.session, OpenedFor P a m.memberId s)
    (hown : m.ed25519Pubkey = own.ed25519Pubkey P) (nonce : Option Nonce) (messageType : UInt8)
    (plaintext : Bytes) :
    Punctual P a m (seat.submit P own m.connection nonce messageType plaintext).session
      (seat.submit P own m.connection nonce messageType plaintext).outbox := by
  unfold Seat.submit
  split
  · exact h
  rename_i s hsession
  have hopened := hopened s hsession
  rw [hsession] at h
  obtain ⟨number, hle, hnumbered⟩ :=
    ChatSession.sealMessage_fst P own s nonce messageType plaintext
  split
  · rename_i t envelope heq
    obtain ⟨epoch, key, hcurrent, rfl, rfl, hsender, hsequence, hopens⟩ :=
      ChatSession.sealMessage_opens law heq
    have hnumbers : (seat.outbox ++
        [RoomEvent.chatReceived m.connection messageType envelope]).filterMap RoomEvent.sequence? =
          seat.outbox.filterMap RoomEvent.sequence? ++ [s.senderSequence + 1] := by
      rw [List.filterMap_append, ← hsequence]
      rfl
    have hresumed : Punctual P a m (some (s.numbered (s.senderSequence + 1))) seat.outbox :=
      h.resume rfl (Nat.le_succ _)
    refine ⟨?_, ?_, h.chats.concat ?_, ?_, ?_, ?_⟩
    · intro epoch hmem
      obtain hmem | hmem := List.mem_append.mp hmem
      · exact h.acks epoch hmem
      · cases List.mem_singleton.mp hmem
    · refine hresumed.keyed.imp_right (And.imp_right (And.imp_left fun hnone hmem => ?_))
      obtain hmem | hmem := List.mem_append.mp hmem
      · exact hnone hmem
      · cases List.mem_singleton.mp hmem
    · obtain ⟨_, ⟨⟩, hheld⟩ | ⟨hawaits, hnone, -⟩ := h.keyed
      · refine .inr ?_
        rintro _ _ _ ⟨⟩
        obtain ⟨current, hkey⟩ := hkey
        obtain ⟨hepoch, rfl⟩ :=
          Prod.mk.inj (Option.some.inj (hcurrent.symm.trans (hheld.trans hkey)))
        refine ⟨hepoch, hsender.trans hopened.memberId, key, plaintext, hkey, ?_⟩
        rw [hown, ← hopened.roomSessionId, ← hopened.memberId, ← hepoch]
        exact hopens
      · exact .inl ⟨hawaits, fun event hmem heq => hnone (heq ▸ hmem)⟩
    · rw [hnumbers]
      refine List.pairwise_append.mpr ⟨h.ascending, List.pairwise_singleton _ _, ?_⟩
      intro number hmem next hnext
      obtain ⟨_, ⟨⟩, hbelow⟩ := h.numbered number hmem
      rw [List.mem_singleton.mp hnext]
      exact Nat.lt_succ_of_le hbelow
    · rw [hnumbers]
      intro number hmem
      obtain hmem | hmem := List.mem_append.mp hmem
      · exact hresumed.numbered number hmem
      · rw [List.mem_singleton.mp hmem]
        exact ⟨_, rfl, Nat.le_refl _⟩
    · rw [hnumbers]
      intro last hlast
      obtain ⟨hbelow, hsession⟩ := hresumed.fresh last hlast
      refine ⟨List.forall_mem_append.mpr ⟨hbelow, ?_⟩, hsession⟩
      obtain ⟨-, _, ⟨⟩, hbelow⟩ := h.fresh last hlast
      exact List.forall_mem_singleton.mpr (Nat.lt_succ_of_le hbelow)
  · rename_i t error heq
    rw [heq] at hnumbered
    cases hnumbered
    exact h.resume rfl hle

end

/-- A member that has sent nothing, and installed nothing, is awaited. -/
theorem punctual_of_awaited {a : RoomActor} {m : Member} {session : Option ChatSession}
    (hawaits : a.Awaits m.memberId) (hsession : ∀ s ∈ session, s.epoch = none)
    (hnone : a.chatReplay.lastAccepted m.memberId a.epoch = none) :
    Punctual P a m session [] where
  acks := nofun
  keyed := by
    refine .inr ⟨hawaits, nofun, fun s hs epoch hepoch => ?_⟩
    rw [hsession s hs] at hepoch
    cases hepoch
  chats := trivial
  ascending := .nil
  numbered := nofun
  fresh last hlast := nomatch hnone.symm.trans hlast

end Seat

/-! ### Runs -/

namespace System
variable {P : Primitives} {identity : ConnectionId → MemberIdentity} {honest : ConnectionId → Prop}
variable {allowed : Past → RoomActor → Input → Prop} {setup : Setup} {a₀ : RoomActor}
variable {started : List RoomAction} {past : Past} {sys : System} {c : ConnectionId}

/-- What a step of the room makes of a member that is punctual as long as it is in the room. -/
theorem Run.punctual_step (law : P.Lawful) (hstart : RoomActor.Started P setup a₀ started)
    (run : Run P identity honest (RoomActor.Owning P (identity c) c) setup a₀ started past sys)
    {input : Input} (owning : RoomActor.Owning P (identity c) c past sys.room input)
    (ih : sys.room.state = .destroyed ∨ ∀ m ∈ sys.room.members.members, m.connection = c →
      Seat.Punctual P sys.room m (sys.seats c).session (sys.seats c).outbox)
    {rest : List RoomEvent} (hout : (sys.seats c).outbox = input.event :: rest ∨
      (sys.seats c).outbox = rest ∧ input.event.speaker? ≠ some c) :
    (sys.room.handle P input).1.state = .destroyed ∨
      ∀ m ∈ (sys.room.handle P input).1.members.members, m.connection = c →
        Seat.Punctual P (sys.room.handle P input).1 m (sys.seats c).session rest := by
  have orderly := run.room.mono fun _ _ _ owning => owning.toOrderly
  have facts := RoomActor.Run.stepFacts law hstart orderly owning.toOrderly
  obtain hclosed | ih := ih
  · rw [RoomActor.handle_destroyed hclosed]
    exact .inl hclosed
  by_cases hopen : (sys.room.handle P input).1.state = .destroyed
  · exact .inl hopen
  refine .inr fun m hm hc => ?_
  subst hc
  have htracked : ∀ id epoch last,
      sys.room.chatReplay.lastAccepted id epoch = some last → epoch ≤ sys.room.epoch :=
    fun _ _ _ hlast => RoomActor.Run.tracker_epoch law hstart orderly hlast
  obtain hclosed | hphase := RoomActor.Run.phase law hstart (RoomActor.honest_of_orderly orderly)
  · rw [RoomActor.handle_destroyed hclosed] at hopen
    exact absurd hclosed hopen
  obtain ⟨n, hn, heq⟩ | ⟨wrap, henters, -⟩ :=
    facts.effect.move.member_cases law facts.effect.step.valid facts.nofault hm
  · have hpunctual := (ih n hn (Member.connection_congr heq)).congr heq
    exact hpunctual.handled facts hphase.pending_epoch hphase.currentKey htracked hn heq hm hopen
      hout
  · obtain @⟨b, key, wraps, request, _, -, htabled, hrequest, heq, hmembers, hbegins, hafter, -⟩ :=
      henters
    have hconnection : m.connection = request.connection := by rw [heq]
    obtain ⟨hsession, houtbox⟩ := run.untouched law hstart (fun _ _ _ owning => owning.toOrderly)
      hrequest
    rw [← hconnection] at hsession houtbox
    have hrest : rest = [] := by
      rw [houtbox] at hout
      obtain hout | ⟨hout, -⟩ := hout
      · cases hout
      · exact hout.symm
    have hbegun := RoomActor.begun_of_joined (P := P) htabled hbegins m
    rw [← hafter] at hbegun
    rw [hsession, hrest]
    refine Seat.punctual_of_awaited (hbegun.awaits hm) nofun ?_
    cases hlast : (sys.room.handle P input).1.chatReplay.lastAccepted m.memberId
      (sys.room.handle P input).1.epoch with
    | none => rfl
    | some last =>
        rw [hbegun.epoch, hbegun.chatReplay] at hlast
        have hold := ReplayTracker.prunes_retainEpoch _ _ _ _ _ hlast
        exact absurd (htracked _ _ _ hold) (Nat.not_succ_le_self _)

/-- A member that sends in order and acknowledges what it installs is punctual. -/
theorem Run.punctual (law : P.Lawful) (hstart : RoomActor.Started P setup a₀ started)
    (hhost : identity setup.hostConnection = setup.hostClientIdentity) (hc : honest c)
    (run : Run P identity honest (RoomActor.Owning P (identity c) c) setup a₀ started past sys) :
    sys.room.state = .destroyed ∨ ∀ m ∈ sys.room.members.members, m.connection = c →
      Seat.Punctual P sys.room m (sys.seats c).session (sys.seats c).outbox := by
  have hself : c = setup.hostConnection → identity c = setup.hostClientIdentity := by
    rintro rfl
    exact hhost
  have horderly (past : Past) (a : RoomActor) (input : Input)
      (owning : RoomActor.Owning P (identity c) c past a input) :
      RoomActor.Orderly P past a input := owning.toOrderly
  induction run with
  | start =>
      refine .inr fun m hm hmc => ?_
      obtain ⟨nickname, sessionId, token, key, wraps, hopening⟩ := hstart.opening
      have hnone : ∀ s ∈ Seat.initial P setup a₀ c, s.epoch = none := by
        intro s hs
        unfold Seat.initial at hs
        split at hs <;> cases hs
        rfl
      refine Seat.punctual_of_awaited ?_ hnone ?_
      · rw [hopening.actor] at hm ⊢
        exact ⟨_, rfl, List.mem_map_of_mem hm⟩
      · have hnew : (ReplayTracker.new.retainEpoch 1).lastAccepted m.memberId 1 = none := rfl
        rw [hopening.actor]
        exact hnew
  | @handled past sys input run owning hdishonest ih =>
      refine run.punctual_step law hstart owning ih (.inr ⟨rfl, fun hspeaks => ?_⟩)
      exact hdishonest c hspeaks hc
  | @delivered past sys input c' rest run owning houtbox ih =>
      by_cases hcc : c = c'
      · subst hcc
        have hstep := run.punctual_step law hstart owning ih (.inl houtbox)
        simp only [handle, seats_seat_self, room_seat]
        exact hstep
      · have hspeaks : input.event.speaker? = some c' :=
          run.speaks c' input.event (by rw [houtbox]; exact .head _)
        have hother : input.event.speaker? ≠ some c := by
          rw [hspeaks]
          exact fun heq => hcc (Option.some.inj heq).symm
        have hstep := run.punctual_step law hstart owning ih (.inr ⟨rfl, hother⟩)
        simp only [handle, seats_seat_of_ne hcc, room_seat]
        exact hstep
  | @consumed past sys c' run ih =>
      by_cases hcc : c = c'
      · subst hcc
        rw [room_seat, seats_seat_self]
        obtain hclosed | ih := ih
        · exact .inl hclosed
        have orderly := run.room.mono horderly
        obtain hclosed | hphase :=
          RoomActor.Run.phase law hstart (RoomActor.honest_of_orderly orderly)
        · exact .inl hclosed
        refine .inr fun m hm hmc => ?_
        subst hmc
        have hkeys := (RoomActor.Run.owned law hstart hself run.room).members m hm rfl
        refine (ih m hm rfl).consumed law (run.silent _) hphase.currentKey
          (run.openedFor law hstart horderly hm) hkeys.2 fun wrap hmem => ?_
        have hseparated := RoomActor.Run.separated law hstart orderly
        obtain ⟨consumed, number, hsent, -⟩ := run.follows m.connection
        have hemitted : .epochWrap wrap ∈ sentTo m.connection (RoomActor.emitted started past) :=
          hsent ▸ List.mem_append_right _ hmem
        refine ⟨hseparated.bounded m.connection _ ?_, hphase.wrapOf hseparated hm hemitted⟩
        exact mem_wrapEpochs.mpr ⟨wrap, mem_sentTo.mp hemitted, rfl⟩
      · rw [room_seat, seats_seat_of_ne hcc]
        exact ih
  | @submitted past sys c' nonce messageType plaintext run ih =>
      by_cases hcc : c = c'
      · subst hcc
        rw [room_seat, seats_seat_self]
        obtain hclosed | ih := ih
        · exact .inl hclosed
        obtain hclosed | hphase := RoomActor.Run.phase law hstart
          (RoomActor.honest_of_orderly (run.room.mono horderly))
        · exact .inl hclosed
        refine .inr fun m hm hmc => ?_
        subst hmc
        have hkeys := (RoomActor.Run.owned law hstart hself run.room).members m hm rfl
        exact (ih m hm rfl).submitted law hphase.currentKey (run.openedFor law hstart horderly hm)
          hkeys.1 nonce messageType plaintext
      · rw [room_seat, seats_seat_of_ne hcc]
        exact ih

end System

/-- The next envelope of a punctual member is not refused. -/
theorem Seat.Punctual.unblamed {P : Primitives} {a : RoomActor} {m : Member}
    {session : Option ChatSession} {input : Input} {rest : List RoomEvent}
    {started : List RoomAction} {past : Past} (h : Punctual P a m session (input.event :: rest))
    (hvalid : a.registry.Valid) (hphase : RoomActor.Phase P started past a)
    (hm : m ∈ a.members.members) {messageType : UInt8} {envelope : EncryptedEnvelope}
    (hevent : input.event = .chatReceived m.connection messageType envelope) {error : RoomError}
    (herror : (a.handle P input).2 = .error error) : error.refusesEnvelope = false := by
  rw [RoomActor.handle_chat hevent] at herror
  split at herror
  · cases herror
    rfl
  split at herror
  · exact RoomActor.rejectDuringTransition_unblamed herror
  rename_i hacked
  have hknown : a.connections.memberId m.connection = some m.memberId := hvalid.member_entry m hm
  have hprompt : ¬ a.Awaits m.memberId := by
    rintro ⟨p, hp, hid⟩
    obtain ⟨q, hq⟩ | hsettled := hphase
    · refine hacked ⟨hq.state, ?_⟩
      unfold RoomActor.memberHasAckedPendingEpoch
      rw [hp, hknown]
      simpa using hid
    · cases hsettled.pending.symm.trans hp
  obtain ⟨hepoch, hsender, key, plaintext, hkey, hopens⟩ :=
    h.chats.1.resolve_left hprompt _ _ _ hevent
  have hfresh : a.chatReplay.Fresh m.memberId a.epoch envelope.senderSequence := by
    intro last hlast
    refine (h.fresh last hlast).1 _ (List.mem_filterMap.mpr ⟨input.event, .head _, ?_⟩)
    rw [hevent]
    rfl
  have hopened : (a.clocked input.now).chatPlaintext P m.memberId messageType envelope =
      .ok plaintext := by
    rw [RoomActor.chatPlaintext_eq, show (a.clocked input.now).currentKey = _ from hkey,
      show (a.clocked input.now).members.byId m.memberId = some m from
        hvalid.byId_eq_some.mpr ⟨hm, rfl⟩]
    dsimp only
    rw [hsender, show (a.clocked input.now).sessionId = a.sessionId from rfl, hopens]
  exact RoomActor.onChatReceived_unblamed (a := a.clocked input.now) hvalid hm hepoch hfresh
    hopened herror

namespace System
variable {P : Primitives} {identity : ConnectionId → MemberIdentity} {honest : ConnectionId → Prop}
variable {setup : Setup} {a₀ : RoomActor} {started : List RoomAction} {past : Past} {sys : System}

/-- Whatever the others do, no envelope of an honest member is refused for its epoch, its number,
its key or its signature while the member is in the table. -/
theorem honest_never_refused (law : P.Lawful) (hstart : RoomActor.Started P setup a₀ started)
    (hhost : identity setup.hostConnection = setup.hostClientIdentity) {c : ConnectionId}
    (hc : honest c)
    (run : Run P identity honest (RoomActor.Owning P (identity c) c) setup a₀ started past sys) :
    ∀ entry ∈ past, ∀ messageType envelope,
      entry.input.event = .chatReceived c messageType envelope →
        (∃ m ∈ entry.before.members.members, m.connection = c) →
          ∀ error, entry.output = .error error → error.refusesEnvelope = false := by
  induction run with
  | start => exact fun _ hentry => nomatch hentry
  | @handled past sys input run owning hdishonest ih =>
      refine List.forall_mem_cons.mpr ⟨fun messageType envelope hevent => ?_, ih⟩
      refine absurd hc (hdishonest c ?_)
      rw [show input.event = _ from hevent]
      rfl
  | @delivered past sys input c' rest run owning houtbox ih =>
      refine List.forall_mem_cons.mpr ⟨?_, ih⟩
      rintro messageType envelope hevent ⟨m, hm, rfl⟩ error herror
      have hspeaks : input.event.speaker? = some c' :=
        run.speaks c' input.event (by rw [houtbox]; exact .head _)
      rw [show input.event = _ from hevent] at hspeaks
      cases hspeaks
      have orderly := run.room.mono fun _ _ _ owning => owning.toOrderly
      have hclosed (hclosed : sys.room.state = .destroyed) : error.refusesEnvelope = false := by
        have hfailed : (sys.room.handle P input).2 = .error error := herror
        rw [RoomActor.handle_destroyed hclosed] at hfailed
        cases hfailed
        rfl
      obtain hdestroyed | hpunctual := run.punctual law hstart hhost hc
      · exact hclosed hdestroyed
      obtain hdestroyed | hphase := RoomActor.Run.phase law hstart
        (RoomActor.honest_of_orderly orderly)
      · exact hclosed hdestroyed
      have hnext := hpunctual m hm rfl
      rw [houtbox] at hnext
      exact hnext.unblamed (RoomActor.Run.valid hstart.valid run.room) hphase hm hevent herror
  | consumed _ _ ih | submitted _ _ _ _ _ ih => exact ih

end System

namespace Symbolic

/-- The guest writes, before and after it acknowledges the key a second guest is accepted with. -/
def guestWrites : List Cue :=
  settling ++ neighborJoins ++ [.submit 1 msgChat [104, 105], .deliver 1, .consume 1,
    .submit 1 msgChat [104, 111], .deliver 1, .deliver 1]

theorem honest_never_refused_writing : ∃ past : Past,
    (past.filterMap fun entry => entry.input.event.sequence?) = [2, 1] ∧
      ∀ entry ∈ past, ∀ messageType envelope,
        entry.input.event = .chatReceived 1 messageType envelope →
          (∃ m ∈ entry.before.members.members, m.connection = 1) →
            ∀ error, entry.output = .error error → error.refusesEnvelope = false := by
  have hevents : ∀ event, .event event ∈ guestWrites →
      .event event ∈ settling ++ neighborJoins ++ guestLeaves := by
    intro event hmem
    simp only [guestWrites, List.mem_append] at hmem ⊢
    exact .inl (hmem.resolve_right (by simp))
  have run := cues_run guestWrites hevents (by decide) (by decide)
  have howning (past : Past) (a : RoomActor) (input : Input) :
      RoomActor.Fair primitives people past a input → True →
        RoomActor.Owning primitives (people 1) 1 past a input :=
    fun fair _ => ⟨fair.toOrderly, fair.own 1⟩
  have owning := run.strengthen howning fun _ _ => trivial
  refine ⟨_, ?_, System.honest_never_refused lawful room_started rfl (c := 1) trivial owning⟩
  decide +kernel

/-- The guest is in the room, and the room begins an epoch for a second one without a key. -/
def unkeyedRoom : Past × System :=
  let asked := System.play primitives people room (rng 11) (settling ++ neighborJoins.dropLast)
    ([], System.opened primitives setup room roomStarted)
  System.record primitives broken asked.1 asked.2 (.hostAccepted 1)

/-- The guest writes into it. -/
def unkeyedWrite : Past × System :=
  System.play primitives people room (rng 11) [.submit 1 msgChat [104, 105], .deliver 1] unkeyedRoom

/-- The room refuses the envelope of somebody on `c` who is in its table. -/
def refusedFrom (c : ConnectionId)
    (entry : Machine.Entry RoomActor Input (Except RoomError (List RoomAction))) : Bool :=
  match entry.input.event, entry.output with
  | .chatReceived connection _ _, .error error =>
    connection = c ∧ error.refusesEnvelope ∧ ∃ m ∈ entry.before.members.members, m.connection = c
  | _, _ => false

theorem unkeyedWrite_run : System.Run primitives people (fun _ => True)
    (RoomActor.OwningEvents primitives (people 1) 1) setup room roomStarted unkeyedWrite.1
    unkeyedWrite.2 := by
  have asked := cues_run (settling ++ neighborJoins.dropLast)
    (fun event hmem => List.mem_append_left _ (List.mem_append.mpr
      ((List.mem_append.mp hmem).imp_right List.mem_of_mem_dropLast)))
    (by decide) (by decide)
  have hevents (past : Past) (a : RoomActor) (input : Input) :
      RoomActor.Fair primitives people past a input → True →
        RoomActor.OwningEvents primitives (people 1) 1 past a input :=
    fun fair _ => ⟨⟨fair.released, fair.fresh⟩, fair.own 1⟩
  have asked := asked.strengthen hevents fun _ _ => trivial
  have accepted : System.Run primitives people (fun _ => True)
      (RoomActor.OwningEvents primitives (people 1) 1) setup room roomStarted unkeyedRoom.1
      unkeyedRoom.2 :=
    .handled asked ⟨⟨nofun, nofun⟩, nofun⟩ nofun
  have written := accepted.submitted 1 ((rng 11).nonce 0) msgChat [104, 105]
  unfold unkeyedWrite System.play
  simp only [List.foldl_cons, List.foldl_nil, System.cue]
  split
  · exact written
  · rename_i event rest houtbox
    have hspeaks := written.speaks 1 event (houtbox ▸ .head _)
    refine .delivered written ⟨⟨?_, ?_⟩, ?_⟩ houtbox
    · rintro c application rfl
      cases hspeaks
    · rintro c rfl
      cases hspeaks
    · rintro application rfl
      cases hspeaks

/-- Accepting the second guest began an epoch nobody has the key of: what the first one writes
with the key it holds is refused as of an old epoch. -/
theorem not_honest_never_refused : ¬ ∀ past sys,
    System.Run primitives people (fun _ => True)
      (RoomActor.OwningEvents primitives (people 1) 1) setup room roomStarted past sys →
    ∀ entry ∈ past, ∀ messageType envelope,
      entry.input.event = .chatReceived 1 messageType envelope →
        (∃ m ∈ entry.before.members.members, m.connection = 1) →
          ∀ error, entry.output = .error error → error.refusesEnvelope = false := by
  intro hall
  have hrefused : ∃ entry ∈ unkeyedWrite.1, refusedFrom 1 entry = true := by
    decide +kernel
  obtain ⟨entry, hentry, hrefused⟩ := hrefused
  unfold refusedFrom at hrefused
  split at hrefused
  · rename_i hevent houtput
    obtain ⟨rfl, hrefuses, hmember⟩ := of_decide_eq_true hrefused
    have hspared := hall _ _ unkeyedWrite_run entry hentry _ _ hevent hmember _ houtput
    exact Bool.false_ne_true (hspared.symm.trans hrefuses)
  · cases hrefused

end Symbolic

end Veilroom
