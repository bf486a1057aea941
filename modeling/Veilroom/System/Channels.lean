import Veilroom.System.Turns

/-!
The room and its members, with what is in flight between them.

Each direction of a connection is first in, first out. A member consumes one
message at a time, queues an acknowledgement of every epoch it installs, and
seals with the key it holds when it sends. Members that are not honest, and
everyone who is not a member, may send the room anything at any time.
-/
namespace Veilroom

/-- Who an event that came over a member's connection is from. -/
def RoomEvent.speaker? : RoomEvent → Option ConnectionId
  | .epochAck connection _ | .chatReceived connection _ _ => some connection
  | _ => none

/-- The session with another number for its last envelope. -/
def ChatSession.numbered (number : Nat) (s : ChatSession) : ChatSession :=
  { s with senderSequence := number }

/-- One end of a connection: its session, what it has yet to consume, and what it sent that the
room has yet to handle. -/
structure Seat where
  session : Option ChatSession
  inbox : List Message
  outbox : List RoomEvent

namespace Seat
variable (P : Primitives) (a₀ : RoomActor) (identity : MemberIdentity) (c : ConnectionId)

/-- A session acknowledges every epoch it installs. -/
def answers : Option ChatSession → Message → List RoomEvent
  | some s, .epochWrap wrap =>
    match (s.setEpochFromWrap P identity wrap).2 with
    | .ok epoch => [.epochAck c epoch]
    | .error _ => []
  | _, _ => []

/-- The seat once it has consumed the first message of its inbox. -/
def consume (seat : Seat) : Seat :=
  match seat.inbox with
  | [] => seat
  | message :: rest =>
    { session := receive P a₀ identity seat.session message
      inbox := rest
      outbox := seat.outbox ++ answers P identity c seat.session message }

/-- The seat once it has sealed and sent one envelope. -/
def submit (nonce : Option Nonce) (messageType : UInt8) (plaintext : Bytes) (seat : Seat) : Seat :=
  match seat.session with
  | none => seat
  | some s =>
    match s.sealMessage P nonce identity messageType plaintext with
    | (s, .ok envelope) =>
      { seat with
        session := some s, outbox := seat.outbox ++ [.chatReceived c messageType envelope] }
    | (s, .error _) => { seat with session := some s }

end Seat

/-- The room, and a seat at the other end of every connection. -/
structure System where
  room : RoomActor
  seats : ConnectionId → Seat

namespace System

/-- The system with another seat at the end of `c`. -/
def seat (sys : System) (c : ConnectionId) (seat : Seat) : System :=
  { sys with seats := Function.update sys.seats c seat }

/-- The system when the room has started. -/
def opened (P : Primitives) (setup : Setup) (a₀ : RoomActor) (started : List RoomAction) :
    System where
  room := a₀
  seats c := ⟨Seat.initial P setup a₀ c, sentTo c started, []⟩

/-- The room handles one event; what it sends is in flight. -/
def handle (P : Primitives) (sys : System) (input : Input) : System where
  room := (sys.room.handle P input).1
  seats c := { sys.seats c with
    inbox := (sys.seats c).inbox ++ sentTo c (RoomActor.actionsOf (sys.room.handle P input).2) }

section
variable (P : Primitives) (identity : ConnectionId → MemberIdentity) (honest : ConnectionId → Prop)
variable (allowed : Past → RoomActor → Input → Prop) (setup : Setup) (a₀ : RoomActor)
variable (started : List RoomAction)

/-- The runs of the system: the events the room has handled, and the system they led to. -/
inductive Run : Past → System → Prop
  | start : Run [] (opened P setup a₀ started)
  /-- The environment, or somebody who is not honest. -/
  | handled {past sys input} : Run past sys → allowed past sys.room input →
      (∀ c ∈ input.event.speaker?, ¬ honest c) →
      Run (⟨sys.room, input, (sys.room.handle P input).2, (sys.room.handle P input).1⟩ :: past)
        (sys.handle P input)
  /-- What somebody sent reaches the room. -/
  | delivered {past sys input c rest} : Run past sys → allowed past sys.room input →
      (sys.seats c).outbox = input.event :: rest →
      Run (⟨sys.room, input, (sys.room.handle P input).2, (sys.room.handle P input).1⟩ :: past)
        ((sys.seat c { sys.seats c with outbox := rest }).handle P input)
  | consumed {past sys} (c : ConnectionId) : Run past sys →
      Run past (sys.seat c ((sys.seats c).consume P a₀ (identity c) c))
  | submitted {past sys} (c : ConnectionId) (nonce messageType plaintext) : Run past sys →
      Run past (sys.seat c ((sys.seats c).submit P (identity c) c nonce messageType plaintext))

end

end System

/-! ### Sessions and numbers -/

namespace ChatSession
variable {P : Primitives} {identity : MemberIdentity}

theorem sealMessage_fst (P : Primitives) (identity : MemberIdentity) (s : ChatSession)
    (nonce : Option Nonce) (messageType : UInt8) (plaintext : Bytes) :
    ∃ number, s.senderSequence ≤ number ∧
      (s.sealMessage P nonce identity messageType plaintext).1 = s.numbered number := by
  unfold sealMessage
  split
  · exact ⟨s.senderSequence, Nat.le_refl _, rfl⟩
  · refine ⟨s.senderSequence + 1, Nat.le_succ _, ?_⟩
    dsimp only
    split
    · rfl
    · split <;> rfl

theorem openMessage_numbered (s : ChatSession) (number : Nat) (messageType : UInt8)
    (envelope : EncryptedEnvelope) :
    (s.numbered number).openMessage P messageType envelope =
      ((s.openMessage P messageType envelope).1.numbered number,
        (s.openMessage P messageType envelope).2) := by
  unfold openMessage numbered
  dsimp only [member]
  split
  · rfl
  split
  · rfl
  split
  · rfl
  split
  · rfl
  split <;> rfl

theorem receiveColor_numbered (s : ChatSession) (number : Nat) (envelope : EncryptedEnvelope) :
    (s.numbered number).receiveColor P envelope =
      ((s.receiveColor P envelope).1.numbered number, (s.receiveColor P envelope).2) := by
  unfold receiveColor
  rw [openMessage_numbered]
  generalize s.openMessage P msgColor envelope = result
  obtain ⟨t, error | _ | ⟨index, _ | _⟩⟩ := result
  · rfl
  · rfl
  · dsimp only
    split <;> rfl
  · rfl

theorem verifyRoomEvent_numbered (s : ChatSession) (number sequence epoch : Nat)
    (eventType : UInt8) (body : Bytes) (signature : Signature) :
    (s.numbered number).verifyRoomEvent P sequence epoch eventType body signature =
      ((s.verifyRoomEvent P sequence epoch eventType body signature).1.numbered number,
        (s.verifyRoomEvent P sequence epoch eventType body signature).2) := by
  unfold verifyRoomEvent numbered
  dsimp only [ChatSession.epoch]
  split
  · rfl
  split
  · rfl
  split <;> rfl

theorem installEpoch_numbered (s : ChatSession) (number epoch : Nat) (key : Key) :
    (s.numbered number).installEpoch epoch key = (s.installEpoch epoch key).numbered number := by
  unfold installEpoch
  rw [show (s.numbered number).epoch = s.epoch from rfl]
  split <;> rfl

theorem alike_numbered (s : ChatSession) (number : Nat) : Alike (s.numbered number) s :=
  { Alike.refl s with }

/-- What a session makes of a message does not depend on the number of its last envelope. -/
theorem consume_numbered (s : ChatSession) (number : Nat) (message : Message) :
    (s.numbered number).consume P identity message =
      (s.consume P identity message).numbered number := by
  have halike := alike_numbered s number
  have hmembership (message : Message) (hmessage : message.isMembership = true) :
      (s.numbered number).consume P identity message =
        (s.consume P identity message).numbered number := by
    by_cases hadmits : Admits P s message
    · rw [consume_of_admits hadmits, consume_of_admits (halike.symm.admits hadmits)]
      rfl
    · rw [consume_of_not_admits hmessage hadmits,
        consume_of_not_admits hmessage fun k => hadmits (halike.admits k)]
  cases message with
  | memberJoined _ | memberLeft _ | memberKicked _ | memberSnapshot _ => exact hmembership _ rfl
  | epochWrap wrap =>
      simp only [consume]
      unfold setEpochFromWrap numbered
      dsimp only [epoch]
      split
      · rfl
      split
      · rfl
      split
      · rfl
      · exact installEpoch_numbered s number _ _
  | chatMessage envelope =>
      simp only [consume, receiveChat_fst, openMessage_numbered]
  | colorChange envelope =>
      simp only [consume, consumeColor, receiveColor_numbered]
      generalize s.receiveColor P envelope = result
      obtain ⟨t, error | color⟩ := result
      · rfl
      · simp only [ClientAdmission.applyColor]
        rw [show (t.numbered number).member envelope.senderId = t.member envelope.senderId from rfl]
        cases t.member envelope.senderId <;> rfl
  | timeoutChanged envelope =>
      simp only [consume]
      by_cases hsender : envelope.senderId = 0
      · simp only [receiveTimeoutChanged_fst hsender, openMessage_numbered]
      · rw [receiveTimeoutChanged, if_pos hsender, receiveTimeoutChanged, if_pos hsender]
  | joinPolicyChanged event =>
      simp only [consume, handleMembershipMessage, verifyRoomEvent_numbered]
      generalize s.verifyRoomEvent P event.sequence event.epoch msgJoinPolicy
        (joinPolicyBody event.isOpen) event.signature = result
      obtain ⟨t, error | _⟩ := result <;> rfl
  | _ => rfl

end ChatSession

namespace Seat
variable {P : Primitives} {setup : Setup} {a₀ : RoomActor} {identity : MemberIdentity}
variable {c : ConnectionId} {sent : List Message} {seat : Seat}

/-- The session is what the first of the messages sent to it made of it, and the others are in its
inbox. -/
def Follows (P : Primitives) (setup : Setup) (a₀ : RoomActor) (identity : MemberIdentity)
    (c : ConnectionId) (sent : List Message) (seat : Seat) : Prop :=
  ∃ consumed number, consumed ++ seat.inbox = sent ∧
    seat.session = (consumed.foldl (receive P a₀ identity) (initial P setup a₀ c)).map
      (ChatSession.numbered number)

theorem receive_numbered (P : Primitives) (a₀ : RoomActor) (identity : MemberIdentity)
    (session : Option ChatSession) (number : Nat) (message : Message) :
    ∃ number', receive P a₀ identity (session.map (ChatSession.numbered number)) message =
      (receive P a₀ identity session message).map (ChatSession.numbered number') := by
  cases session with
  | some s => exact ⟨number, congrArg some (ChatSession.consume_numbered s number message)⟩
  | none =>
      refine ⟨0, ?_⟩
      cases message <;> rfl

theorem Follows.start : Follows P setup a₀ identity c sent ⟨initial P setup a₀ c, sent, []⟩ := by
  refine ⟨[], 0, rfl, ?_⟩
  dsimp only [List.foldl_nil, initial]
  split <;> rfl

theorem Follows.send (h : Follows P setup a₀ identity c sent seat) (more : List Message) :
    Follows P setup a₀ identity c (sent ++ more) { seat with inbox := seat.inbox ++ more } := by
  obtain ⟨consumed, number, hsent, hsession⟩ := h
  exact ⟨consumed, number, by rw [← hsent, List.append_assoc], hsession⟩

theorem Follows.consume (h : Follows P setup a₀ identity c sent seat) :
    Follows P setup a₀ identity c sent (seat.consume P a₀ identity c) := by
  obtain ⟨consumed, number, hsent, hsession⟩ := h
  unfold Seat.consume
  split
  · exact ⟨consumed, number, hsent, hsession⟩
  · rename_i message rest hinbox
    obtain ⟨number', hreceive⟩ := receive_numbered P a₀ identity
      (consumed.foldl (receive P a₀ identity) (initial P setup a₀ c)) number message
    refine ⟨consumed ++ [message], number', ?_, ?_⟩
    · rw [← hsent, hinbox, List.append_assoc]
      rfl
    · rw [hsession, hreceive, List.foldl_append]
      rfl

theorem Follows.submit (h : Follows P setup a₀ identity c sent seat) (nonce : Option Nonce)
    (messageType : UInt8) (plaintext : Bytes) :
    Follows P setup a₀ identity c sent
      (seat.submit P identity c nonce messageType plaintext) := by
  obtain ⟨consumed, number, hsent, hsession⟩ := h
  unfold Seat.submit
  split
  · exact ⟨consumed, number, hsent, hsession⟩
  · rename_i s hs
    have hnumbered : ∀ k, some (s.numbered k) =
        (consumed.foldl (receive P a₀ identity) (initial P setup a₀ c)).map
          (ChatSession.numbered k) := by
      intro k
      rw [hs] at hsession
      obtain ⟨t, ht, rfl⟩ := Option.map_eq_some_iff.mp hsession.symm
      rw [ht]
      rfl
    obtain ⟨number', -, hsealed⟩ :=
      ChatSession.sealMessage_fst P identity s nonce messageType plaintext
    have hnow := hnumbered number'
    rw [← hsealed] at hnow
    split <;> rename_i heq <;> rw [heq] at hnow
    · exact ⟨consumed, number', hsent, hnow⟩
    · exact ⟨consumed, number', hsent, hnow⟩

theorem consume_speaks (h : ∀ event ∈ seat.outbox, event.speaker? = some c) :
    ∀ event ∈ (seat.consume P a₀ identity c).outbox, event.speaker? = some c := by
  unfold Seat.consume
  split
  · exact h
  · refine List.forall_mem_append.mpr ⟨h, ?_⟩
    unfold answers
    split
    · split
      · exact List.forall_mem_singleton.mpr rfl
      · exact nofun
    · exact nofun

theorem submit_speaks {nonce : Option Nonce} {messageType : UInt8} {plaintext : Bytes}
    (h : ∀ event ∈ seat.outbox, event.speaker? = some c) :
    ∀ event ∈ (seat.submit P identity c nonce messageType plaintext).outbox,
      event.speaker? = some c := by
  unfold Seat.submit
  split
  · exact h
  split
  · exact List.forall_mem_append.mpr ⟨h, List.forall_mem_singleton.mpr rfl⟩
  · exact h

end Seat

namespace System
variable {P : Primitives} {identity : ConnectionId → MemberIdentity} {honest : ConnectionId → Prop}
variable {allowed : Past → RoomActor → Input → Prop} {setup : Setup} {a₀ : RoomActor}
variable {started : List RoomAction} {past : Past} {sys : System}

@[simp] theorem seats_seat_self (c : ConnectionId) (seat : Seat) :
    (sys.seat c seat).seats c = seat := Function.update_self ..

@[simp] theorem room_seat (c : ConnectionId) (seat : Seat) :
    (sys.seat c seat).room = sys.room := rfl

theorem seats_seat_of_ne {c c' : ConnectionId} (h : c ≠ c') (seat : Seat) :
    (sys.seat c' seat).seats c = sys.seats c := Function.update_of_ne h ..

/-- The room's part of a run of the system is a run of the room. -/
theorem Run.room (run : Run P identity honest allowed setup a₀ started past sys) :
    RoomActor.Run P allowed a₀ past sys.room := by
  induction run with
  | start => exact .start
  | handled _ ok _ ih => exact .step ih ok
  | delivered _ ok _ ih => exact .step ih ok
  | consumed _ _ ih => exact ih
  | submitted _ _ _ _ _ ih => exact ih

/-- Every member consumes what it was sent, in order. -/
theorem Run.follows (run : Run P identity honest allowed setup a₀ started past sys)
    (c : ConnectionId) :
    (sys.seats c).Follows P setup a₀ (identity c) c
      (sentTo c (RoomActor.emitted started past)) := by
  induction run with
  | start =>
      rw [RoomActor.emitted_nil]
      exact .start
  | handled _ _ _ ih =>
      rw [RoomActor.emitted_cons, sentTo_append]
      exact ih.send _
  | @delivered past sys input c' rest _ _ _ ih =>
      rw [RoomActor.emitted_cons, sentTo_append]
      refine Seat.Follows.send ?_ _
      by_cases hc : c = c'
      · subst hc
        rw [seats_seat_self]
        exact ih
      · rw [seats_seat_of_ne hc]
        exact ih
  | @consumed past sys c' _ ih =>
      by_cases hc : c = c'
      · subst hc
        rw [seats_seat_self]
        exact ih.consume
      · rw [seats_seat_of_ne hc]
        exact ih
  | @submitted past sys c' nonce messageType plaintext _ ih =>
      by_cases hc : c = c'
      · subst hc
        rw [seats_seat_self]
        exact ih.submit nonce messageType plaintext
      · rw [seats_seat_of_ne hc]
        exact ih

/-- What waits for the room was sent by the member whose connection it is on. -/
theorem Run.speaks (run : Run P identity honest allowed setup a₀ started past sys)
    (c : ConnectionId) : ∀ event ∈ (sys.seats c).outbox, event.speaker? = some c := by
  induction run with
  | start => exact fun _ hevent => nomatch hevent
  | handled _ _ _ ih => exact ih
  | @delivered past sys input c' rest _ _ houtbox ih =>
      intro event hevent
      by_cases hc : c = c'
      · subst hc
        simp only [handle, seats_seat_self] at hevent
        exact ih event (houtbox ▸ .tail _ hevent)
      · simp only [handle, seats_seat_of_ne hc] at hevent
        exact ih event hevent
  | @consumed past sys c' _ ih =>
      by_cases hc : c = c'
      · subst hc
        rw [seats_seat_self]
        exact Seat.consume_speaks ih
      · rw [seats_seat_of_ne hc]
        exact ih
  | @submitted past sys c' nonce messageType plaintext _ ih =>
      by_cases hc : c = c'
      · subst hc
        rw [seats_seat_self]
        exact Seat.submit_speaks ih
      · rw [seats_seat_of_ne hc]
        exact ih

/-- A member that consumed everything has the session all of it makes. -/
theorem Run.heard (run : Run P identity honest allowed setup a₀ started past sys)
    {c : ConnectionId} (hempty : (sys.seats c).inbox = []) :
    ∃ number, (sys.seats c).session = (Seat.heard P setup a₀ identity started past c).map
      (ChatSession.numbered number) := by
  obtain ⟨consumed, number, hsent, hsession⟩ := run.follows c
  rw [hempty, List.append_nil] at hsent
  rw [hsent] at hsession
  exact ⟨number, hsession⟩

end System

end Veilroom
