import Veilroom.Chat.Atomic
import Veilroom.Library.Logs
import Veilroom.Room.Epochs
import Veilroom.Room.Faults

/-!
The sequence numbers of the signed room events.

The log of the room is what it has emitted followed by what it holds back until
the epoch activates. Every event enters the log under a number above the log,
and a step only moves events from the second part to the first. Nothing is
assumed of the events or of the generator.
-/
namespace Veilroom
open Broadcasts

def Message.eventNumber (message : Message) : Nat := message.eventSequence.getD 0

/-- The signed room events among actions, with their receivers. -/
def eventsOf (actions : List RoomAction) : List (ConnectionId × Message) :=
  actions.filterMap fun
    | .sendTo connection message =>
      if message.eventSequence.isSome then some (connection, message) else none
    | _ => none

@[simp] theorem eventsOf_nil : eventsOf [] = [] := rfl

@[simp] theorem eventsOf_append (first second : List RoomAction) :
    eventsOf (first ++ second) = eventsOf first ++ eventsOf second := by
  simp [eventsOf]

theorem mem_eventsOf {actions : List RoomAction} {connection : ConnectionId} {message : Message} :
    (connection, message) ∈ eventsOf actions ↔
      .sendTo connection message ∈ actions ∧ message.eventSequence.isSome := by
  induction actions with
  | nil => simp
  | cons action rest ih =>
      have hcons : eventsOf (action :: rest) = eventsOf [action] ++ eventsOf rest :=
        eventsOf_append [action] rest
      rw [hcons, List.mem_append, ih, List.mem_cons, or_and_right]
      refine or_congr_left ?_
      cases action with
      | sendTo c m =>
          by_cases h : m.eventSequence.isSome
          · simp only [eventsOf, List.filterMap_cons, h, if_true, List.filterMap_nil,
              List.mem_singleton, Prod.mk.injEq, RoomAction.sendTo.injEq]
            constructor
            · rintro ⟨rfl, rfl⟩
              exact ⟨⟨rfl, rfl⟩, h⟩
            · exact fun h => h.1
          · simp only [eventsOf, List.filterMap_cons, h, List.filterMap_nil, List.not_mem_nil,
              false_iff, RoomAction.sendTo.injEq, not_and, Bool.false_eq_true, if_false]
            rintro ⟨rfl, rfl⟩
            exact h
      | closeConnection _ | notifyHost _ => simp [eventsOf]

/-- Actions without a signed room event. -/
theorem eventsOf_eq_nil {actions : List RoomAction}
    (h : ∀ connection message, .sendTo connection message ∈ actions →
      message.eventSequence = none) : eventsOf actions = [] := by
  refine List.eq_nil_iff_forall_not_mem.mpr fun ⟨connection, message⟩ hmem => ?_
  obtain ⟨hsend, hsome⟩ := mem_eventsOf.mp hmem
  rw [h connection message hsend] at hsome
  cases hsome

/-- One event to each of some members. -/
theorem eventsOf_broadcast (members : List Member) {message : Message}
    (h : message.eventSequence.isSome) :
    eventsOf (members.map fun m => .sendTo m.connection message) =
      (members.map Member.connection).map fun c => (c, message) := by
  induction members with
  | nil => rfl
  | cons m rest ih =>
      rw [List.map_cons, ← List.singleton_append, eventsOf_append, ih]
      simp [eventsOf, h]

theorem eventSequence_of_isPlain {connection : ConnectionId} {message : Message}
    (h : (RoomAction.sendTo connection message).isPlain = true) : message.eventSequence = none := by
  cases message <;> first | rfl | cases h

theorem eventSequence_of_isWrap {connection : ConnectionId} {message : Message}
    (h : (RoomAction.sendTo connection message).isWrap = true) : message.eventSequence = none := by
  cases message <;> first | rfl | cases h

theorem eventsOf_plain {actions : List RoomAction}
    (h : ∀ action ∈ actions, action.isPlain = true) : eventsOf actions = [] :=
  eventsOf_eq_nil fun _ _ hmem => eventSequence_of_isPlain (h _ hmem)

theorem eventsOf_wraps {actions : List RoomAction}
    (h : ∀ action ∈ actions, action.isWrap = true) : eventsOf actions = [] :=
  eventsOf_eq_nil fun _ _ hmem => eventSequence_of_isWrap (h _ hmem)

namespace RoomActor
variable {P : Primitives} {rng : Rng} {a a' b : RoomActor} {event : RoomEvent}
variable {result : Except RoomError (List RoomAction)} {out : List RoomAction}

/-- What was emitted and what is held back are numbered up to the room sequence. -/
def Ledger (out : List RoomAction) (a : RoomActor) : Prop :=
  Numbered Message.eventNumber a.roomSequence (eventsOf out ++ eventsOf a.pendingMembership)

/-! ### Queueing -/

/-- `a'` is `a` with one event of the next sequence queued for `members`. -/
theorem Ledger.queue (h : Ledger out a) (members : List Member) {message : Message}
    (hnumber : message.eventSequence = some (a.roomSequence + 1))
    (hnodup : (members.map Member.connection).Nodup)
    (hsequence : a'.roomSequence = a.roomSequence + 1)
    (hheld : a'.pendingMembership =
      a.pendingMembership ++ members.map fun m => .sendTo m.connection message) :
    Ledger out a' := by
  have hvalue : message.eventNumber = a.roomSequence + 1 := by
    rw [Message.eventNumber, hnumber]
    rfl
  have hlog := Numbered.broadcast h hvalue (Nat.lt_succ_self a.roomSequence) hnodup
  rw [Ledger, hsequence, hheld, eventsOf_append, eventsOf_broadcast _ (by rw [hnumber]; rfl),
    ← List.append_assoc]
  exact hlog

theorem Ledger.queueMemberGone (h : Ledger out a)
    (hnodup : (a.members.members.map Member.connection).Nodup) (id : MemberId)
    (eventType : UInt8) : Ledger out (a.queueMemberGone P id eventType) := by
  refine h.queue a.members.members ?_ hnodup rfl rfl
  unfold goneMessage
  split <;> rfl

theorem Ledger.queueMembersGone (h : Ledger out a)
    (hnodup : (a.members.members.map Member.connection).Nodup) (gone : List MemberId)
    (eventType : UInt8) : Ledger out (a.queueMembersGone P gone eventType) := by
  induction gone generalizing a with
  | nil => exact h
  | cons id rest ih => exact ih (h.queueMemberGone hnodup id eventType) hnodup

theorem Ledger.queueMemberJoined (h : Ledger out a)
    (hnodup : (a.members.members.map Member.connection).Nodup) (member : Member) :
    Ledger out (a.queueMemberJoined P member) := by
  unfold RoomActor.queueMemberJoined
  dsimp only
  refine Ledger.queue ?_ [member] rfl (List.nodup_singleton _) rfl rfl
  refine h.queue (a.members.members.filter fun other => other.memberId ≠ member.memberId) rfl ?_
    rfl rfl
  exact hnodup.sublist (List.filter_sublist.map _)

/-! ### Runs -/

/-- Only a transition, and a destroyed room, hold events back. -/
def Held (a : RoomActor) : Prop :=
  a.state = .epochTransition ∨ a.state = .destroyed ∨ a.pendingMembership = []

theorem Held.move (h : a.state = .epochTransition ∨ a.pendingMembership = [])
    (hmove : Move P rng a event a' result) (hstays : Stays a.state (a', result)) : Held a' := by
  have hsame (hstate : a'.state = a.state) (hheld : a'.pendingMembership = a.pendingMembership) :
      Held a' := by
    obtain h | h := h
    · exact .inl (hstate.trans h)
    · exact .inr (.inr (hheld.trans h))
  cases hmove with
  | refused | acked => exact hsame rfl rfl
  | failed htabled => exact hsame (hstays _ rfl) htabled.pendingMembership
  | quiet hstill => exact hsame hstill.state hstill.pendingMembership
  | relayed _ _ hstill => exact hsame hstill.state hstill.pendingMembership
  | policySet _ hstate htabled =>
      exact .inr (.inr (htabled.pendingMembership.trans (h.resolve_left hstate)))
  | activated => exact .inr (.inr rfl)
  | joined => exact .inl rfl
  | departed gone _ _ =>
      obtain ⟨_, _, heq, -⟩ := queueMembersGone_eq (P := P) (_ : RoomActor) gone _
      rw [heq]
      exact .inl rfl
  | closed => exact .inr (.inl rfl)

/-- A step without signed events, and without a change of what is held back. -/
theorem Ledger.silent (h : Ledger out a) (hnone : eventsOf (actionsOf result) = [])
    (hsequence : a.roomSequence ≤ a'.roomSequence)
    (hheld : a'.pendingMembership = a.pendingMembership) :
    Ledger (out ++ actionsOf result) a' := by
  rw [Ledger, eventsOf_append, hnone, List.append_nil, hheld]
  exact Numbered.mono h hsequence

/-- The log of a tabled actor whose transition has just begun. -/
theorem Ledger.rotated (h : Ledger out a) (htabled : Tabled a b) (key : Key) :
    Ledger out (b.rotated key) := by
  have hmono := Numbered.mono h (Nat.le_succ a.roomSequence)
  rw [← htabled.roomSequence, ← htabled.pendingMembership] at hmono
  exact hmono

theorem Ledger.move (h : Ledger out a) (hheld : Held a) (hopen : a.state ≠ .destroyed)
    (hvalid : a'.registry.Valid) (hmove : Move P rng a event a' result) :
    Ledger (out ++ actionsOf result) a' := by
  cases hmove with
  | refused => exact h.silent rfl (Nat.le_refl _) rfl
  | failed htabled =>
      refine h.silent rfl ?_ htabled.pendingMembership
      change a.roomSequence ≤ _ + 1
      rw [htabled.roomSequence]
      exact Nat.le_succ _
  | quiet hstill _ hsequence _ hplain =>
      exact h.silent (eventsOf_plain hplain) hsequence hstill.pendingMembership
  | relayed _ _ hstill _ hsequence =>
      refine h.silent (eventsOf_eq_nil fun c message hmem => ?_) (Nat.le_of_eq hsequence.symm)
        hstill.pendingMembership
      obtain ⟨m, -, heq⟩ := List.mem_map.mp hmem
      cases heq
      unfold RoomActor.relayed
      split
      · rfl
      split <;> rfl
  | @policySet b policy actions hstate htabled hpending hmembers hplain =>
      -- the only events that are emitted at once; nothing is held back then
      have hempty : b.pendingMembership = [] :=
        htabled.pendingMembership.trans ((hheld.resolve_left hstate).resolve_left hopen)
      have hnodup : ((b.members.members.filter fun m => !m.isHost).map Member.connection).Nodup :=
        hvalid.connections_nodup.sublist (List.filter_sublist.map _)
      have hlog : Numbered Message.eventNumber b.roomSequence (eventsOf out) := by
        rw [Ledger, ← htabled.pendingMembership, hempty, eventsOf_nil, List.append_nil,
          ← htabled.roomSequence] at h
        exact h
      rw [Ledger, actionsOf, eventsOf_append, eventsOf_append, eventsOf_plain hplain,
        List.nil_append]
      unfold announcePolicy
      dsimp only
      rw [hempty, eventsOf_nil, List.append_nil, eventsOf_append, eventsOf_broadcast _ rfl,
        show eventsOf [.notifyHost (.joinPolicyChanged policy)] = [] from rfl, List.append_nil]
      refine hlog.broadcast ?_ (Nat.lt_succ_self b.roomSequence) hnodup
      rfl
  | acked => exact h.silent rfl (Nat.le_refl _) rfl
  | @activated pending =>
      rw [Ledger, actionsOf, eventsOf_nil, List.append_nil, eventsOf_append]
      split
      · rw [eventsOf_append, show eventsOf [.notifyHost (.timeoutRebroadcast _)] = [] from rfl,
          List.append_nil]
        exact h
      · rw [List.append_nil]
        exact h
  | @joined b key wraps request member hstate htabled _ _ _ hbegins =>
      have hsent : eventsOf (.sendTo member.connection (.joinAccepted ⟨member.memberId⟩) ::
          .notifyHost (.memberJoined member.memberId member.nickname) :: wraps) = [] := by
        change eventsOf wraps = []
        exact eventsOf_wraps (isWrap_of_wrapAll hbegins.wrapped)
      rw [Ledger, actionsOf, eventsOf_append, hsent, List.append_nil]
      exact (h.rotated htabled key).queueMemberJoined hvalid.connections_nodup member
  | @departed b key wraps gone before after eventType htabled _ _ _ _ _ _ hbegins hplain =>
      have hsent : eventsOf (before ++ wraps ++ after) = [] := by
        rw [eventsOf_append, eventsOf_append, eventsOf_wraps (isWrap_of_wrapAll hbegins.wrapped),
          eventsOf_plain fun action hmem => hplain action (List.mem_append_left _ hmem),
          eventsOf_plain fun action hmem => hplain action (List.mem_append_right _ hmem)]
        rfl
      rw [Ledger, actionsOf, eventsOf_append, hsent, List.append_nil]
      refine (h.rotated htabled key).queueMembersGone ?_ gone eventType
      have hnodup := hvalid.connections_nodup
      rw [registry_queueMembersGone] at hnodup
      exact hnodup
  | closed _ hplain => exact h.silent (eventsOf_plain hplain) (Nat.le_refl _) rfl

section
variable {setup : Setup} {a₀ : RoomActor} {started : List RoomAction} {past : Past}

theorem Run.ledger (hstart : Started P setup a₀ started) (run : Run P Unconstrained a₀ past a) :
    Held a ∧ Ledger (emitted started past) a := by
  refine run.invariant (fun past a => Held a ∧ Ledger (emitted started past) a) ?_ ?_
  · obtain ⟨nickname, sessionId, token, key, wraps, hopening⟩ := hstart.opening
    rw [hopening.actor, hopening.actions, emitted_nil]
    refine ⟨.inl rfl, ?_⟩
    have hnone : eventsOf (.notifyHost (.invitationRotated token) :: wraps) = [] := by
      change eventsOf wraps = []
      exact eventsOf_wraps (isWrap_of_wrapAll hopening.begins.wrapped)
    rw [Ledger, hnone]
    exact .nil
  · rintro past a input run ⟨hheld, hledger⟩ -
    rw [emitted_cons]
    by_cases hopen : a.state = .destroyed
    · rw [handle_destroyed hopen]
      exact ⟨.inr (.inl hopen), hledger.silent rfl (Nat.le_refl _) rfl⟩
    have hvalid := Run.valid hstart.valid run
    have heffect := handleEventAt_effect P input.rng hvalid input.event input.now
    have hkept : a.state = .epochTransition ∨ a.pendingMembership = [] :=
      hheld.imp_right fun h => h.resolve_left hopen
    constructor
    · exact Held.move (a := { a with now := input.now }) hkept heffect.move
        (handle_stays hvalid input)
    · exact Ledger.move (a := { a with now := input.now }) hledger hheld hopen
        heffect.step.valid heffect.move

/-- The signed events the room has emitted are in order. -/
structure InSequence (P : Primitives) (emitted : List RoomAction) : Prop where
  /-- To each connection the sequences strictly increase. -/
  increasing : ∀ c, ((sentTo c emitted).filterMap Message.eventSequence).Pairwise (· < ·)
  /-- A sequence names one event. -/
  unique : ∀ c c' message message' n, message ∈ sentTo c emitted → message' ∈ sentTo c' emitted →
    message.eventSequence = some n → message'.eventSequence = some n → message = message'
  /-- A session that last accepted one of the events before refuses none as a replay. -/
  monotonic : ∀ c before message after, sentTo c emitted = before ++ message :: after →
    ∀ s : ChatSession, (∀ last, s.lastRoomSequence = some last →
      ∃ earlier ∈ before, earlier.eventSequence = some last) →
    ∀ sender n, (s.handleMembershipMessage P message).2 ≠ .error (.replayRejected sender n)

/-- The sequences of what one connection is sent, read off the events. -/
theorem sequences_sentTo (c : ConnectionId) (actions : List RoomAction) :
    (sentTo c actions).filterMap Message.eventSequence =
      ((eventsOf actions).filter fun entry => entry.1 = c).map fun entry =>
        entry.2.eventNumber := by
  induction actions with
  | nil => rfl
  | cons action rest ih =>
      have hcons : eventsOf (action :: rest) = eventsOf [action] ++ eventsOf rest :=
        eventsOf_append [action] rest
      rw [hcons, List.filter_append, List.map_append, ← ih]
      cases action with
      | sendTo connection message =>
          rw [sentTo_cons_sendTo]
          cases hsequence : message.eventSequence with
          | none =>
              split
              · simp [eventsOf, hsequence]
              · simp [eventsOf, hsequence]
          | some n =>
              split
              · rename_i hc
                simp [eventsOf, hsequence, hc, Message.eventNumber]
              · rename_i hc
                simp [eventsOf, hsequence, hc]
      | closeConnection _ | notifyHost _ => rfl

theorem increasing_of_numbered {top : Nat} {actions : List RoomAction}
    (h : Numbered Message.eventNumber top (eventsOf actions)) (c : ConnectionId) :
    ((sentTo c actions).filterMap Message.eventSequence).Pairwise (· < ·) := by
  rw [sequences_sentTo]
  refine List.pairwise_map.mpr (List.pairwise_filter.mpr ?_)
  refine (h.increasing c).imp fun hlt holder hnewer => ?_
  exact hlt (of_decide_eq_true holder) (of_decide_eq_true hnewer)

theorem in_sequence (hstart : Started P setup a₀ started) (run : Run P Unconstrained a₀ past a) :
    InSequence P (emitted started past) := by
  obtain ⟨-, hledger⟩ := Run.ledger hstart run
  have hlog : Numbered Message.eventNumber a.roomSequence (eventsOf (emitted started past)) :=
    ⟨(List.pairwise_append.mp hledger.ordered).1,
      fun entry hmem => hledger.bounded entry (List.mem_append_left _ hmem)⟩
  refine ⟨increasing_of_numbered hlog, ?_, ?_⟩
  · intro c c' message message' n hmem hmem' hn hn'
    have hentry : (c, message) ∈ eventsOf (emitted started past) :=
      mem_eventsOf.mpr ⟨mem_sentTo.mp hmem, by rw [hn]; rfl⟩
    have hentry' : (c', message') ∈ eventsOf (emitted started past) :=
      mem_eventsOf.mpr ⟨mem_sentTo.mp hmem', by rw [hn']; rfl⟩
    apply hlog.eq_of_number hentry hentry'
    rw [Message.eventNumber, Message.eventNumber, hn, hn']
  · intro c before message after hsplit s hlast sender n hreplayed
    obtain ⟨sequence, last, hsequence, hheard, hle⟩ := ChatSession.membership_replayed hreplayed
    obtain ⟨earlier, hmem, hearlier⟩ := hlast last hheard
    have hincreasing := increasing_of_numbered hlog c
    rw [hsplit, List.filterMap_append, List.filterMap_cons_some hsequence] at hincreasing
    have hlt := (List.pairwise_append.mp hincreasing).2.2 last
      (List.mem_filterMap.mpr ⟨earlier, hmem, hearlier⟩) sequence (.head _)
    omega

end

theorem in_sequence_visit :
    InSequence Symbolic.primitives (emitted Symbolic.roomStarted Symbolic.visited.1) ∧
      (sentTo 0 (emitted Symbolic.roomStarted Symbolic.visited.1)).filterMap
        Message.eventSequence = [4, 7] ∧
      (sentTo 1 (emitted Symbolic.roomStarted Symbolic.visited.1)).filterMap
        Message.eventSequence = [5] :=
  ⟨in_sequence Symbolic.room_started (unconstrained_script Symbolic.room Symbolic.visit),
    by decide +kernel, by decide +kernel⟩

end RoomActor

end Veilroom
