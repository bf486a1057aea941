import Veilroom.Room.Scripts
import Veilroom.Chat.Delivery

/-!
At-most-once relay by the room, and delivery by its sessions.

The room prunes its tracker when it moves to the next epoch, and checks every
envelope against its own epoch first; nothing is assumed of the events, the
keys or the generator.
-/
namespace Veilroom
namespace RoomActor
variable {P : Primitives} {rng : Rng} {a a' : RoomActor} {event : RoomEvent}
variable {result : Except RoomError (List RoomAction)}

/-- The room sent `envelope` to somebody. -/
def Sends (result : Except RoomError (List RoomAction)) (envelope : EncryptedEnvelope) : Prop :=
  ∃ action ∈ actionsOf result, action.envelope? = some envelope

theorem Begun.not_sends {key : Key} {wraps : List RoomAction}
    (h : Begun P rng a a' result key wraps) (envelope : EncryptedEnvelope) :
    ¬ Sends result envelope := by
  rintro ⟨action, hmem, henvelope⟩
  obtain hwrap | hplain | ⟨_, _, rfl⟩ := h.mem_output hmem
  · rw [RoomAction.envelope?_of_isWrap (h.areWraps action hwrap)] at henvelope
    cases henvelope
  · rw [RoomAction.envelope?_of_isPlain hplain] at henvelope
    cases henvelope
  · cases henvelope

private theorem not_sends_plain {actions : List RoomAction}
    (hplain : ∀ action ∈ actions, action.isPlain = true) (envelope : EncryptedEnvelope) :
    ¬ Sends (.ok actions) envelope := by
  rintro ⟨action, hmem, henvelope⟩
  rw [RoomAction.envelope?_of_isPlain (hplain action hmem)] at henvelope
  cases henvelope

/-- Only a relay sends an envelope, and it sends the one it accepted. -/
theorem Move.relay_inv (hheld : HoldsMembership a) (h : Move P rng a event a' result)
    {envelope : EncryptedEnvelope} (hsends : Sends result envelope) :
    ∃ connection sender messageType plaintext,
      event = .chatReceived connection messageType envelope ∧
      Relays P a connection sender messageType envelope plaintext ∧ Still a a' ∧
      a'.chatReplay = a.chatReplay.record sender a.epoch envelope.senderSequence ∧
      result = .ok (a.relay connection (RoomActor.relayed messageType envelope)) := by
  cases h with
  | refused | failed =>
      obtain ⟨_, hmem, -⟩ := hsends
      cases hmem
  | acked =>
      obtain ⟨_, hmem, -⟩ := hsends
      cases hmem
  | quiet _ _ _ _ hplain => exact absurd hsends (not_sends_plain hplain envelope)
  | closed _ hplain => exact absurd hsends (not_sends_plain hplain envelope)
  | relayed hevent hrelays hstill _ _ hreplay =>
      obtain ⟨action, hmem, henvelope⟩ := hsends
      obtain ⟨m, -, rfl⟩ := List.mem_map.mp hmem
      rw [RoomAction.envelope?, envelope?_relayed] at henvelope
      cases henvelope
      exact ⟨_, _, _, _, hevent, hrelays, hstill, hreplay, rfl⟩
  | policySet actions _ _ _ _ hplain =>
      obtain ⟨action, hmem, henvelope⟩ := hsends
      simp only [actionsOf, announcePolicy, List.mem_append, List.mem_map, List.mem_singleton]
        at hmem
      obtain hmem | ⟨m, -, rfl⟩ | rfl := hmem
      · rw [RoomAction.envelope?_of_isPlain (hplain action hmem)] at henvelope
        cases henvelope
      · cases henvelope
      · cases henvelope
  | activated =>
      obtain ⟨action, hmem, henvelope⟩ := hsends
      obtain hmem | hmem := List.mem_append.mp hmem
      · rw [RoomAction.envelope?_of_isMembership (hheld action hmem)] at henvelope
        cases henvelope
      · split at hmem
        · rw [List.mem_singleton.mp hmem] at henvelope
          cases henvelope
        · cases hmem
  | joined _ htabled _ _ _ hbegins =>
      exact absurd hsends ((begun_of_joined htabled hbegins _).not_sends envelope)
  | @departed _ _ _ gone before after eventType htabled _ _ _ _ _ _ hbegins hplain =>
      exact absurd hsends
        ((begun_of_departed htabled hbegins gone eventType before after hplain).not_sends envelope)

/-- The tracker keeps covering what was relayed, whatever happens. -/
theorem Move.covers (hheld : HoldsMembership a) (h : Move P rng a event a' result)
    {accepted : MemberId → Nat → Nat → Prop}
    (hcovers : a.chatReplay.Covers (some a.epoch) accepted) :
    a'.chatReplay.Covers (some a'.epoch) accepted := by
  have hlater : ∀ now, some a.epoch = some now → now < a.epoch + 1 := by
    rintro _ ⟨⟩
    exact Nat.lt_succ_self _
  obtain hfailed | ⟨key, wraps, hbegun⟩ | hsteady := h.outline hheld
  · rw [hfailed.epoch]
    exact hcovers.advance hlater _
  · rw [hbegun.epoch]
    exact hcovers.advance hlater _
  · rw [hsteady.epoch]
    obtain hsame | ⟨sender, sequence, hfresh, hrecord⟩ := hsteady.replay
    · rwa [hsame]
    · rw [hrecord]
      exact fun s e n hn => hcovers.record hfresh s e n (.inl hn)

section
variable {setup : Setup} {a₀ : RoomActor} {actions : List RoomAction} {past : Past}

/-- The room relays each envelope number at most once, in increasing order. -/
theorem relayedOnce_of_run (hstart : Started P setup a₀ actions)
    (run : Run P Unconstrained a₀ past a) :
    DeliveredOnce (fun entry e => Sends entry.output e) past := by
  have hvalid := hstart.valid
  refine (run.invariant (fun past a =>
    a.chatReplay.Covers (some a.epoch) (DeliveredIn (fun entry e => Sends entry.output e) past) ∧
      DeliveredOnce (fun entry e => Sends entry.output e) past) ⟨?_, .nil⟩ ?_).2
  · rintro _ _ _ ⟨_, hentry, -⟩
    cases hentry
  rintro past a input run ⟨hcovers, honce⟩ -
  have hmove := (handleEventAt_effect P input.rng (Run.valid hvalid run) input.event
    input.now).move
  have hheld : HoldsMembership a := Run.holdsMembership hstart run
  have hheld' : HoldsMembership { a with now := input.now } := hheld
  by_cases hsends : ∃ e, Sends (a.handle P input).2 e
  · obtain ⟨e, hsends⟩ := hsends
    obtain ⟨_, sender, _, _, hevent, hrelays, hstill, hreplay, -⟩ := hmove.relay_inv hheld' hsends
    have hone : ∀ e', Sends (a.handle P input).2 e' → e' = e := by
      intro e' he'
      obtain ⟨_, _, _, _, hevent', -⟩ := hmove.relay_inv hheld' he'
      rw [hevent] at hevent'
      cases hevent'
      rfl
    have hsender := hrelays.senderId
    have hfresh : a.chatReplay.Fresh e.senderId a.epoch e.senderSequence := by
      rw [hsender]
      exact hrelays.fresh
    constructor
    · rw [show (a.handle P input).1.epoch = a.epoch from hstill.epoch,
        show (a.handle P input).1.chatReplay =
          a.chatReplay.record e.senderId a.epoch e.senderSequence by rw [hsender]; exact hreplay]
      exact covers_deliver hcovers hone hrelays.epoch hfresh
    · exact honce.deliver hcovers hone hrelays.epoch hfresh
  · have hnone : ∀ e, ¬ Sends (a.handle P input).2 e := fun e he => hsends ⟨e, he⟩
    exact ⟨covers_idle (hmove.covers hheld' hcovers) hnone, honce.idle hnone⟩

/-- Each envelope number is relayed at most once by the room, and opened at most once by a
session, over whole runs of each and under any inputs. -/
theorem at_most_once (hstart : Started P setup a₀ actions) :
    (∀ past a, Run P Unconstrained a₀ past a →
      DeliveredOnce (fun entry e => Sends entry.output e) past) ∧
    ∀ (s₀ : ChatSession) past s, ChatSession.Run P s₀ past s →
      DeliveredOnce (fun entry e => entry.output = some e) past :=
  ⟨fun _ _ run => relayedOnce_of_run hstart run,
    fun _ _ _ run => ChatSession.deliveredOnce_of_run run⟩

theorem at_most_once_visit :
    (∀ past a, Run Symbolic.primitives Unconstrained Symbolic.room past a →
      DeliveredOnce (fun entry e => Sends entry.output e) past) ∧
    ∀ (s₀ : ChatSession) past s, ChatSession.Run Symbolic.primitives s₀ past s →
      DeliveredOnce (fun entry e => entry.output = some e) past :=
  at_most_once Symbolic.room_started

end

end RoomActor

end Veilroom
