import Veilroom.System.Agreement
import Veilroom.System.Introductions

/-!
What the room relays is opened by those it reaches.

A session comes to a relayed envelope when it has consumed everything sent to it
before. It opens it over every run in which nobody is left out and everyone an
envelope goes to has been told of its sender. While a transition is under way
the news of a joiner is held back, and envelopes are not.
-/
namespace Veilroom

namespace Seat
variable {P : Primitives} {setup : Setup} {a₀ : RoomActor} {own : MemberIdentity}
variable {c : ConnectionId} {sent messages first second : List Message} {seat : Seat}
variable {session : Option ChatSession}

/-- The session opens the envelope the message brings. -/
def Opens (P : Primitives) (session : Option ChatSession) (message : Message) : Prop :=
  ∀ relay ∈ message.relays?, ∃ s ∈ session, (s.openMessage P relay.1 relay.2).2.isOk = true

instance (P : Primitives) (session : Option ChatSession) (message : Message) :
    Decidable (Opens P session message) :=
  inferInstanceAs (Decidable (∀ _ ∈ _, ∃ _ ∈ _, _))

/-- The session opens every envelope once it has consumed what came before it. -/
def Receptive (P : Primitives) (a₀ : RoomActor) (own : MemberIdentity) :
    Option ChatSession → List Message → Prop
  | _, [] => True
  | session, message :: rest =>
    Opens P session message ∧ Receptive P a₀ own (receive P a₀ own session message) rest

theorem receptive_append :
    Receptive P a₀ own session (first ++ second) ↔ Receptive P a₀ own session first ∧
      Receptive P a₀ own (first.foldl (receive P a₀ own) session) second := by
  induction first generalizing session with
  | nil => simp [Receptive]
  | cons message rest ih =>
      rw [List.cons_append, Receptive, Receptive, ih, List.foldl_cons, and_assoc]

theorem receptive_of_silent (h : ∀ message ∈ messages, message.relays? = none) :
    Receptive P a₀ own session messages := by
  induction messages generalizing session with
  | nil => trivial
  | cons message rest ih =>
      rw [List.forall_mem_cons] at h
      refine ⟨fun relay hrelay => ?_, ih h.2⟩
      rw [h.1] at hrelay
      cases hrelay

theorem Receptive.numbered (h : Receptive P a₀ own session messages) (number : Nat) :
    Receptive P a₀ own (session.map (ChatSession.numbered number)) messages := by
  induction messages generalizing session number with
  | nil => trivial
  | cons message rest ih =>
      obtain ⟨number', hreceive⟩ := receive_numbered P a₀ own session number message
      refine ⟨fun relay hrelay => ?_, ?_⟩
      · obtain ⟨s, hs, hopened⟩ := h.1 relay hrelay
        refine ⟨s.numbered number, Option.mem_map_of_mem _ hs, ?_⟩
        rw [ChatSession.openMessage_numbered]
        exact hopened
      · rw [hreceive]
        exact ih h.2 number'

theorem foldl_receive_numbered (messages : List Message) (session : Option ChatSession)
    (number : Nat) :
    ∃ number', messages.foldl (receive P a₀ own) (session.map (ChatSession.numbered number)) =
      (messages.foldl (receive P a₀ own) session).map (ChatSession.numbered number') := by
  induction messages generalizing session number with
  | nil => exact ⟨number, rfl⟩
  | cons message rest ih =>
      obtain ⟨number', hreceive⟩ := receive_numbered P a₀ own session number message
      rw [List.foldl_cons, hreceive]
      exact ih _ number'

/-- What the session will be once it has consumed its inbox. -/
theorem Follows.foldl_inbox (h : Follows P setup a₀ own c sent seat) :
    ∃ number, seat.inbox.foldl (receive P a₀ own) seat.session =
      (sent.foldl (receive P a₀ own) (initial P setup a₀ c)).map (ChatSession.numbered number) := by
  obtain ⟨consumed, number, hsent, hsession⟩ := h
  rw [hsession, ← hsent, List.foldl_append]
  exact foldl_receive_numbered seat.inbox _ number

theorem Receptive.consume (h : Receptive P a₀ own seat.session seat.inbox) :
    Receptive P a₀ own (seat.consume P a₀ own c).session (seat.consume P a₀ own c).inbox := by
  unfold Seat.consume
  split
  · exact h
  · rename_i message rest hinbox
    rw [hinbox] at h
    exact h.2

theorem Receptive.submit (h : Receptive P a₀ own seat.session seat.inbox) (nonce : Option Nonce)
    (messageType : UInt8) (plaintext : Bytes) :
    Receptive P a₀ own (seat.submit P own c nonce messageType plaintext).session
      (seat.submit P own c nonce messageType plaintext).inbox := by
  unfold Seat.submit
  split
  · exact h
  rename_i s hsession
  obtain ⟨number, -, hsealed⟩ := ChatSession.sealMessage_fst P own s nonce messageType plaintext
  have hnumbered := h.numbered number
  rw [hsession, Option.map_some, ← hsealed] at hnumbered
  split <;> rename_i heq <;> rw [heq] at hnumbered <;> exact hnumbered

end Seat

namespace System
variable {P : Primitives} {identity : ConnectionId → MemberIdentity} {honest : ConnectionId → Prop}
variable {setup : Setup} {a₀ : RoomActor} {started : List RoomAction} {past : Past} {sys : System}

/-- What a session will be once it has consumed its inbox. -/
theorem Run.foldl_inbox {allowed : Past → RoomActor → Input → Prop}
    (run : Run P identity honest allowed setup a₀ started past sys) (c : ConnectionId) :
    ∃ number, (sys.seats c).inbox.foldl (Seat.receive P a₀ (identity c)) (sys.seats c).session =
      (Seat.heard P setup a₀ identity started past c).map (ChatSession.numbered number) :=
  (run.follows c).foldl_inbox

/-- What the room sends when it handles an event is received by everyone who is a member then. -/
theorem Run.receptive_step (law : P.Lawful) (hstart : RoomActor.Started P setup a₀ started)
    (hhost : identity setup.hostConnection = setup.hostClientIdentity)
    (hlimits : setup.limits = Limits.default)
    (hplain : validateNickname P setup.hostNickname setup.limits = .ok setup.hostNickname)
    (run : Run P identity honest (RoomActor.Introducing P identity fun _ => True) setup a₀ started
      past sys) {input : Input}
    (ok : RoomActor.Introducing P identity (fun _ => True) past sys.room input)
    (ih : ∀ m ∈ sys.room.members.members, Seat.Receptive P a₀ (identity m.connection)
      (sys.seats m.connection).session (sys.seats m.connection).inbox) {m : Member}
    (hm : m ∈ (sys.room.handle P input).1.members.members) :
    Seat.Receptive P a₀ (identity m.connection) (sys.seats m.connection).session
      ((sys.seats m.connection).inbox ++
        sentTo m.connection (RoomActor.actionsOf (sys.room.handle P input).2)) := by
  have telling := run.room.mono fun _ _ _ ok => ok.toTelling
  have fairly := telling.mono fun _ _ _ telling => telling.toFair
  have orderly := fairly.mono fun _ _ _ fair => fair.toOrderly
  have facts := RoomActor.Run.stepFacts law hstart orderly ok.toOrderly
  obtain ⟨n, hn, heq⟩ | ⟨wrap, henters, hsent⟩ :=
    facts.effect.move.member_cases law facts.effect.step.valid facts.nofault hm
  · have hc := Member.connection_congr heq
    rw [← hc]
    refine Seat.receptive_append.mpr ⟨ih n hn, ?_⟩
    obtain hsilent | ⟨connection, sender, messageType, envelope, plaintext, hevent, hrelays, hother,
      hresult, hsent⟩ := RoomActor.Move.sent_relays (a := { sys.room with now := input.now })
        facts.valid facts.held facts.effect.move hn
    · exact Seat.receptive_of_silent hsilent
    rw [hsent]
    refine ⟨?_, trivial⟩
    intro relay hrelay
    cases (RoomActor.relays?_relayed hrelays.relayable).symm.trans hrelay
    obtain hclosed | hinformed :=
      RoomActor.Run.informed law hstart hhost hlimits hplain telling
    · rw [RoomActor.handle_destroyed hclosed] at hresult
      cases hresult
    obtain hclosed | hsynced := RoomActor.Run.synced law hstart hhost fairly
    · rw [RoomActor.handle_destroyed hclosed] at hresult
      cases hresult
    obtain hclosed | hphase := RoomActor.Run.phase law hstart (RoomActor.honest_of_orderly orderly)
    · rw [RoomActor.handle_destroyed hclosed] at hresult
      cases hresult
    obtain ⟨s, hs, hattuned, hinformed⟩ := hinformed n hn
    obtain ⟨t, ht, -, hsynced⟩ := hsynced n hn
    cases hs.symm.trans ht
    obtain ⟨number, hinbox⟩ := run.foldl_inbox n.connection
    rw [hinbox, hs]
    refine ⟨s.numbered number, rfl, ?_⟩
    rw [ChatSession.openMessage_numbered]
    have hpasses := hrelays.passes hevent hresult
    have hnew := ok.introduced connection sender messageType envelope plaintext hevent trivial
      hrelays hpasses n hn hother
    have hopened : (s.openMessage P messageType envelope).2 = .ok plaintext := by
      refine hrelays.opens (m := n) facts.valid hphase.currentKey { hattuned with } hsynced ?_
      rintro k hk rfl
      exact hinformed.knows facts.valid (RoomActor.Run.holdsEvents hstart orderly) hk hnew
    rw [hopened]
    rfl
  · refine Seat.receptive_of_silent fun message hmem => ?_
    obtain hmem | hmem := List.mem_append.mp hmem
    · obtain ⟨consumed, number, hemitted, -⟩ := run.follows m.connection
      by_contra hrelays
      have hheard := RoomActor.Run.relay_heard law hstart hhost fairly
        (hemitted ▸ List.mem_append_right consumed hmem) hrelays
      obtain ⟨-, -, hrequest, rfl, -⟩ := henters
      exact hheard (RoomActor.Run.unheard law hstart orderly hrequest)
    · rw [hsent] at hmem
      obtain rfl | hmem := List.mem_cons.mp hmem
      · rfl
      · rw [List.mem_singleton.mp hmem]
        rfl

theorem Run.receptive (law : P.Lawful) (hstart : RoomActor.Started P setup a₀ started)
    (hhost : identity setup.hostConnection = setup.hostClientIdentity)
    (hlimits : setup.limits = Limits.default)
    (hplain : validateNickname P setup.hostNickname setup.limits = .ok setup.hostNickname)
    (run : Run P identity honest (RoomActor.Introducing P identity fun _ => True) setup a₀ started
      past sys) {m : Member} (hm : m ∈ sys.room.members.members) :
    Seat.Receptive P a₀ (identity m.connection) (sys.seats m.connection).session
      (sys.seats m.connection).inbox := by
  induction run generalizing m with
  | start =>
      refine Seat.receptive_of_silent fun message hmem => ?_
      obtain ⟨nickname, sessionId, token, key, wraps, hopening⟩ := hstart.opening
      have hsent : message ∈ sentTo m.connection started := hmem
      rw [hopening.actions, sentTo_cons_notifyHost] at hsent
      have hwrap := RoomActor.isWrap_of_wrapAll hopening.begins.wrapped _ (mem_sentTo.mp hsent)
      cases message <;> cases hwrap
      rfl
  | handled run ok _ ih =>
      exact run.receptive_step law hstart hhost hlimits hplain ok (fun _ => ih) hm
  | @delivered past sys input c rest run ok _ ih =>
      have hstep := run.receptive_step law hstart hhost hlimits hplain ok (fun _ => ih) hm
      by_cases hc : m.connection = c
      · subst hc
        simp only [handle, seats_seat_self, room_seat]
        exact hstep
      · simp only [handle, seats_seat_of_ne hc, room_seat]
        exact hstep
  | @consumed past sys c _ ih =>
      by_cases hc : m.connection = c
      · subst hc
        rw [seats_seat_self]
        exact (ih hm).consume
      · rw [seats_seat_of_ne hc]
        exact ih hm
  | @submitted past sys c nonce messageType plaintext _ ih =>
      by_cases hc : m.connection = c
      · subst hc
        rw [seats_seat_self]
        exact (ih hm).submit nonce messageType plaintext
      · rw [seats_seat_of_ne hc]
        exact ih hm

/-- Every relayed envelope opens when its recipient, if still a member, comes to it. -/
theorem relays_opened (law : P.Lawful) (hstart : RoomActor.Started P setup a₀ started)
    (hhost : identity setup.hostConnection = setup.hostClientIdentity)
    (hlimits : setup.limits = Limits.default)
    (hplain : validateNickname P setup.hostNickname setup.limits = .ok setup.hostNickname)
    (run : Run P identity honest (RoomActor.Introducing P identity fun _ => True) setup a₀ started
      past sys) :
    ∀ m ∈ sys.room.members.members, ∀ message ∈ (sys.seats m.connection).inbox.head?,
      Seat.Opens P (sys.seats m.connection).session message := by
  intro m hm message hnext
  have hreceptive := run.receptive law hstart hhost hlimits hplain hm
  obtain ⟨rest, hinbox⟩ := List.head?_eq_some_iff.mp hnext
  rw [hinbox] at hreceptive
  exact hreceptive.1

end System

namespace Symbolic

/-- The second guest writes before the others have acknowledged it. -/
def neighborWrites : List Cue :=
  settling ++ neighborJoins ++ [.consume 2, .consume 2, .deliver 2, .submit 2 msgChat [104, 105],
    .deliver 2, .consume 0]

/-- The second guest's envelope is relayed to the host, who does not know it. -/
theorem not_relays_opened : ∃ past sys,
    System.Run primitives people (fun _ => True) (RoomActor.Fair primitives people) setup room
      roomStarted past sys ∧
    ∃ m ∈ sys.room.members.members, ∃ message ∈ (sys.seats m.connection).inbox.head?,
      ¬ Seat.Opens primitives (sys.seats m.connection).session message := by
  have run := cues_run neighborWrites ?_ (by decide) (by decide)
  · refine ⟨_, _, run, ?_⟩
    decide +kernel
  · intro event hmem
    simp only [neighborWrites, List.mem_append] at hmem ⊢
    exact .inl (hmem.resolve_right (by simp))

/-- The first guest writes once it has settled. -/
theorem relays_opened_settled : ∃ sys : System,
    (∃ message ∈ (sys.seats 0).inbox.head?, message.relays?.isSome = true) ∧
      ∀ m ∈ sys.room.members.members, ∀ message ∈ (sys.seats m.connection).inbox.head?,
        Seat.Opens primitives (sys.seats m.connection).session message := by
  have run := cues_run (settling ++ [.submit 1 msgChat [104, 105], .deliver 1]) ?_ (by decide)
    (by decide)
  · have hintroducing (past : Past) (a : RoomActor) (input : Input) :
        RoomActor.Fair primitives people past a input →
          (RoomActor.LeavesNobodyOut { a with now := input.now } input.event ∧
            (a.pendingMembership.isEmpty = true ∨ input.event.sequence? = none)) →
          RoomActor.Introducing primitives people (fun _ => True) past a input :=
      fun fair h => ⟨⟨fair, h.1⟩,
        RoomActor.introduced_of_settled (h.2.imp_left List.isEmpty_iff.mp)⟩
    have introducing := run.strengthen hintroducing (by decide +kernel)
    refine ⟨_, ?_, System.relays_opened lawful room_started rfl rfl (by decide +kernel)
      introducing⟩
    decide +kernel
  · intro event hmem
    simp only [List.mem_append] at hmem ⊢
    exact .inl (.inl (hmem.resolve_right (by simp)))

end Symbolic

end Veilroom
