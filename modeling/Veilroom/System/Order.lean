import Veilroom.Library.Logs
import Veilroom.System.Agreement
import Veilroom.System.Introductions

/-!
One order for everything the room relays.

What the room relays is a log. A member is sent the entries that were relayed while it was at the
table, but for its own, in the order of the log and each once; so any two members take what both
take in the same order.
-/
namespace Veilroom

/-- An envelope the room relayed, and to whom. -/
structure Relay where
  origin : ConnectionId
  messageType : UInt8
  envelope : EncryptedEnvelope
  audience : List ConnectionId

namespace Relay

/-- What a member takes. -/
def payload (relay : Relay) : UInt8 × EncryptedEnvelope := (relay.messageType, relay.envelope)

/-- What `c` is sent of it. -/
def reaching (c : ConnectionId) (relay : Relay) : Option (UInt8 × EncryptedEnvelope) :=
  if c ∈ relay.audience then some relay.payload else none

theorem filterMap_reaching_sublist (c : ConnectionId) (log : List Relay) :
    (log.filterMap (reaching c)).Sublist (log.map payload) := by
  induction log with
  | nil => exact .slnil
  | cons relay rest ih =>
      rw [List.map_cons]
      by_cases hc : c ∈ relay.audience
      · have hreaching : reaching c relay = some relay.payload := if_pos hc
        rw [List.filterMap_cons_some hreaching]
        exact ih.cons_cons _
      · have hreaching : reaching c relay = none := if_neg hc
        rw [List.filterMap_cons_none hreaching]
        exact ih.cons _

end Relay

namespace RoomActor
variable {P : Primitives} {rng : Rng} {a a' : RoomActor} {event : RoomEvent}
variable {result : Except RoomError (List RoomAction)}

/-- What a batch relays. -/
def relayIn (actions : List RoomAction) : Option (UInt8 × EncryptedEnvelope) :=
  actions.findSome? fun
    | .sendTo _ message => message.relays?
    | _ => none

/-- What one call relayed: to everyone at the table but the one it came from. -/
def relayOf (entry : Step) : Option Relay :=
  match entry.input.event, relayIn (actionsOf entry.output) with
  | .chatReceived origin _ _, some (messageType, envelope) =>
    some ⟨origin, messageType, envelope,
      (entry.before.members.members.map Member.connection).filter (· ≠ origin)⟩
  | _, _ => none

/-- Everything the room relayed, oldest first. -/
def relayLog (past : Past) : List Relay := past.reverse.filterMap relayOf

@[simp] theorem relayLog_nil : relayLog [] = [] := rfl

@[simp] theorem relayLog_cons (entry : Step) (past : Past) :
    relayLog (entry :: past) = relayLog past ++ (relayOf entry).toList := by
  cases h : relayOf entry <;> simp [relayLog, h]

/-! ### One call -/

theorem relayIn_relay {connection : ConnectionId} {message : Message}
    {relay : UInt8 × EncryptedEnvelope} (hrelays : message.relays? = some relay)
    (hsent : a.relay connection message ≠ []) :
    relayIn (a.relay connection message) = some relay := by
  unfold RoomActor.relay at hsent ⊢
  generalize a.members.members.filter (fun member => member.connection ≠ connection) = others
    at hsent ⊢
  cases others with
  | nil => exact absurd rfl hsent
  | cons m rest => simp [relayIn, hrelays]

theorem relayIn_eq_none (h : ∀ envelope, ¬ Sends result envelope) :
    relayIn (actionsOf result) = none := by
  refine List.findSome?_eq_none_iff.mpr fun action hmem => ?_
  cases action with
  | sendTo connection message =>
      cases hrelays : message.relays? with
      | none => exact hrelays
      | some relay =>
          exact absurd ⟨_, hmem, Message.envelope?_of_relays? hrelays⟩ (h relay.2)
  | closeConnection _ | notifyHost _ => rfl

/-- What one call sends `c` of what it relays. -/
theorem sentTo_relays (hvalid : a.registry.Valid) (hheld : HoldsMembership a) (input : Input)
    (c : ConnectionId) :
    (sentTo c (actionsOf (a.handle P input).2)).filterMap Message.relays? =
      (relayOf ⟨a, input, (a.handle P input).2, (a.handle P input).1⟩).toList.filterMap
        (Relay.reaching c) := by
  have hmove := (handleEventAt_effect P input.rng hvalid input.event input.now).move
  have hheld' : HoldsMembership { a with now := input.now } := hheld
  by_cases hsends : ∃ envelope, Sends (a.handle P input).2 envelope
  · obtain ⟨envelope, hsends⟩ := hsends
    obtain ⟨origin, sender, messageType, plaintext, hevent, hrelays, -, -, hresult⟩ :=
      hmove.relay_inv hheld' hsends
    have hresult : (a.handle P input).2 = .ok (a.relay origin (relayed messageType envelope)) :=
      hresult
    have hpayload : (relayed messageType envelope).relays? = some (messageType, envelope) :=
      relays?_relayed hrelays.relayable
    have hsent : a.relay origin (relayed messageType envelope) ≠ [] := by
      rintro hnil
      rw [hresult, hnil] at hsends
      obtain ⟨_, hmem, -⟩ := hsends
      cases hmem
    rw [hresult, relayOf, hevent]
    dsimp only [actionsOf]
    rw [relayIn_relay hpayload hsent]
    simp only [Option.toList_some, List.filterMap_cons, List.filterMap_nil, Relay.reaching]
    by_cases hc : c ∈ (a.members.members.map Member.connection).filter (· ≠ origin)
    · obtain ⟨hmember, hother⟩ := List.mem_filter.mp hc
      obtain ⟨m, hm, rfl⟩ := List.mem_map.mp hmember
      have hsentTo : sentTo m.connection (a.relay origin (relayed messageType envelope)) =
          [relayed messageType envelope] := by
        apply sentTo_broadcast
        · exact hvalid.connections_nodup.sublist (List.filter_sublist.map _)
        · exact List.mem_filter.mpr ⟨hm, hother⟩
      rw [hsentTo, if_pos hc]
      simp [hpayload, Relay.payload]
    · have hsentTo : sentTo c (a.relay origin (relayed messageType envelope)) = [] := by
        refine sentTo_broadcast_of_not_mem _ fun m hm heq => hc ?_
        obtain ⟨hm, hother⟩ := List.mem_filter.mp hm
        subst heq
        exact List.mem_filter.mpr ⟨List.mem_map_of_mem hm, hother⟩
      rw [hsentTo, if_neg hc]
      rfl
  · have hnone : ∀ envelope, ¬ Sends (a.handle P input).2 envelope :=
      fun envelope hsent => hsends ⟨envelope, hsent⟩
    have hrelay : relayOf ⟨a, input, (a.handle P input).2, (a.handle P input).1⟩ = none := by
      rw [relayOf, relayIn_eq_none hnone]
      cases input.event <;> rfl
    rw [hrelay]
    refine List.filterMap_eq_nil_iff.mpr fun message hmem => ?_
    cases hrelays : message.relays? with
    | none => rfl
    | some relay =>
        exact absurd ⟨_, mem_sentTo.mp hmem, Message.envelope?_of_relays? hrelays⟩ (hnone relay.2)

/-! ### The log -/

section
variable {setup : Setup} {a₀ : RoomActor} {started : List RoomAction} {past : Past}

/-- The start relays nothing. -/
theorem Started.sentTo_relays (hstart : Started P setup a₀ started) (c : ConnectionId) :
    (sentTo c started).filterMap Message.relays? = [] := by
  obtain ⟨nickname, sessionId, token, key, wraps, hopening⟩ := hstart.opening
  refine List.filterMap_eq_nil_iff.mpr fun message hsent => ?_
  rw [hopening.actions, sentTo_cons_notifyHost] at hsent
  have hwrap := isWrap_of_wrapAll hopening.begins.wrapped _ (mem_sentTo.mp hsent)
  cases message <;> cases hwrap
  rfl

/-- A connection is sent the part of the log that reaches it. -/
theorem sentTo_relayLog (hstart : Started P setup a₀ started)
    (run : Run P Unconstrained a₀ past a) (c : ConnectionId) :
    (sentTo c (emitted started past)).filterMap Message.relays? =
      (relayLog past).filterMap (Relay.reaching c) := by
  induction run with
  | start =>
      rw [emitted_nil]
      exact hstart.sentTo_relays c
  | @step past a input run _ ih =>
      have hheld : HoldsMembership a := Run.holdsMembership hstart run
      rw [emitted_cons, sentTo_append, List.filterMap_append, ih, relayLog_cons,
        List.filterMap_append, RoomActor.sentTo_relays (Run.valid hstart.valid run) hheld]

theorem sends_of_relayOf {entry : Step} {relay : Relay} (h : relayOf entry = some relay) :
    Sends entry.output relay.envelope := by
  unfold relayOf at h
  split at h
  · rename_i origin _ _ messageType envelope _ hrelay
    cases h
    obtain ⟨action, hmem, hsome⟩ := List.exists_of_findSome?_eq_some hrelay
    cases action with
    | sendTo connection message => exact ⟨_, hmem, Message.envelope?_of_relays? hsome⟩
    | closeConnection _ | notifyHost _ => cases hsome
  · cases h

/-- The numbers of a sender increase along the log, epoch by epoch. -/
theorem relayLog_increasing (hstart : Started P setup a₀ started)
    (run : Run P Unconstrained a₀ past a) :
    (relayLog past).Pairwise fun older newer =>
      older.envelope.senderId = newer.envelope.senderId →
        older.envelope.epoch = newer.envelope.epoch →
          older.envelope.senderSequence < newer.envelope.senderSequence := by
  have honce := relayedOnce_of_run hstart run
  refine List.Pairwise.filterMap relayOf ?_ (List.pairwise_reverse.mpr honce.increasing)
  intro older newer hincreasing relay hrelay relay' hrelay'
  exact hincreasing _ _ (sends_of_relayOf hrelay') (sends_of_relayOf hrelay)

theorem relayLog_nodup (hstart : Started P setup a₀ started)
    (run : Run P Unconstrained a₀ past a) : ((relayLog past).map Relay.payload).Nodup := by
  refine List.pairwise_map.mpr ((relayLog_increasing hstart run).imp ?_)
  intro older newer hincreasing heq
  have henvelope : older.envelope = newer.envelope := congrArg Prod.snd heq
  have hlt := hincreasing (congrArg _ henvelope) (congrArg _ henvelope)
  rw [henvelope] at hlt
  exact Nat.lt_irrefl _ hlt

end

end RoomActor

/-! ### Members -/

namespace System
variable {P : Primitives} {identity : ConnectionId → MemberIdentity} {honest : ConnectionId → Prop}
variable {allowed : Past → RoomActor → Input → Prop} {setup : Setup} {a₀ : RoomActor}
variable {started : List RoomAction} {past : Past} {sys : System}

/-- What `c` has consumed of what it was sent. -/
def taken (started : List RoomAction) (past : Past) (sys : System) (c : ConnectionId) :
    List Message :=
  let sent := sentTo c (RoomActor.emitted started past)
  sent.take (sent.length - (sys.seats c).inbox.length)

/-- The envelopes `c` has come to, oldest first. -/
def takenRelays (started : List RoomAction) (past : Past) (sys : System) (c : ConnectionId) :
    List (UInt8 × EncryptedEnvelope) :=
  (taken started past sys c).filterMap Message.relays?

theorem Run.taken_spec (run : Run P identity honest allowed setup a₀ started past sys)
    (c : ConnectionId) :
    taken started past sys c ++ (sys.seats c).inbox =
        sentTo c (RoomActor.emitted started past) ∧
      ∃ number, (sys.seats c).session =
        ((taken started past sys c).foldl (Seat.receive P a₀ (identity c))
          (Seat.initial P setup a₀ c)).map (ChatSession.numbered number) := by
  obtain ⟨messages, number, hsent, hsession⟩ := run.follows c
  have htaken : taken started past sys c = messages := by
    unfold taken
    dsimp only
    rw [← hsent, List.length_append, Nat.add_sub_cancel, List.take_left]
  rw [htaken]
  exact ⟨hsent, number, hsession⟩

theorem Run.takenRelays_prefix (hstart : RoomActor.Started P setup a₀ started)
    (run : Run P identity honest allowed setup a₀ started past sys) (c : ConnectionId) :
    takenRelays started past sys c <+: (RoomActor.relayLog past).filterMap (Relay.reaching c) := by
  have hroom : RoomActor.Run P RoomActor.Unconstrained a₀ past sys.room :=
    run.room.mono fun _ _ _ _ => trivial
  rw [← RoomActor.sentTo_relayLog hstart hroom c, ← (run.taken_spec c).1]
  exact (List.prefix_append _ _).filterMap _

/-- Everything the room relays is in one order. Whatever the environment and the members do: within
an epoch the numbers of each sender increase along the log of what was relayed (a dishonest sender
may begin again in the next); what each member came to is, from its beginning and without a gap or
a repetition, the part of the log that was relayed to it while it was at the table, all of it once
nothing waits for it; and any two members come to what both come to in the same order. -/
theorem one_order (hstart : RoomActor.Started P setup a₀ started)
    (run : Run P identity honest allowed setup a₀ started past sys) :
    ((RoomActor.relayLog past).Pairwise fun older newer =>
      older.envelope.senderId = newer.envelope.senderId →
        older.envelope.epoch = newer.envelope.epoch →
          older.envelope.senderSequence < newer.envelope.senderSequence) ∧
    (∀ c,
      takenRelays started past sys c <+: (RoomActor.relayLog past).filterMap (Relay.reaching c) ∧
      ((sys.seats c).inbox = [] →
        takenRelays started past sys c = (RoomActor.relayLog past).filterMap (Relay.reaching c)) ∧
      ∃ number, (sys.seats c).session =
        ((taken started past sys c).foldl (Seat.receive P a₀ (identity c))
          (Seat.initial P setup a₀ c)).map (ChatSession.numbered number)) ∧
    ∀ c d x y, x ∈ takenRelays started past sys c → y ∈ takenRelays started past sys c →
      x ∈ takenRelays started past sys d → y ∈ takenRelays started past sys d →
        (Sublog.Before x y (takenRelays started past sys c) ↔
          Sublog.Before x y (takenRelays started past sys d)) := by
  have hroom : RoomActor.Run P RoomActor.Unconstrained a₀ past sys.room :=
    run.room.mono fun _ _ _ _ => trivial
  have hpart : ∀ c, (takenRelays started past sys c).Sublist
      ((RoomActor.relayLog past).map Relay.payload) := fun c =>
    (run.takenRelays_prefix hstart c).sublist.trans (Relay.filterMap_reaching_sublist c _)
  refine ⟨RoomActor.relayLog_increasing hstart hroom, fun c => ⟨run.takenRelays_prefix hstart c, ?_,
    (run.taken_spec c).2⟩, fun c d x y hx hy hx' hy' => ?_⟩
  · intro hempty
    have hall := (run.taken_spec c).1
    rw [hempty, List.append_nil] at hall
    rw [takenRelays, hall]
    exact RoomActor.sentTo_relayLog hstart hroom c
  · exact Sublog.before_congr (RoomActor.relayLog_nodup hstart hroom) (hpart c) (hpart d)
      hx hy hx' hy'

end System

namespace Symbolic

/-- The first guest and the host write, and each takes what the other wrote. -/
def bothWrite : List Cue :=
  settling ++ [.submit 1 msgChat [104, 105], .submit 0 msgColor [2], .deliver 1, .deliver 0,
    .consume 0, .consume 1]

theorem one_order_bothWrite : ∃ (past : Past) (sys : System),
    (RoomActor.relayLog past).map Relay.audience = [[0], [1]] ∧
      System.takenRelays roomStarted past sys 0 =
        (RoomActor.relayLog past).filterMap (Relay.reaching 0) := by
  have run := cues_run bothWrite ?_ (by decide) (by decide)
  · refine ⟨_, _, ?_, ((System.one_order room_started run).2.1 0).2.1 ?_⟩
    · decide +kernel
    · exact List.length_eq_zero_iff.mp (by decide +kernel)
  · intro event hmem
    simp only [bothWrite, List.mem_append] at hmem ⊢
    exact .inl (.inl (hmem.resolve_right (by simp)))

end Symbolic
end Veilroom
