import Veilroom.Room.Admissions
import Veilroom.Room.TimeoutRequests

/-!
Who the room task puts out.

An authentic message with a valid payload costs its sender nothing, with one
exception: a timeout request that finds the queues of the host full.
-/
namespace Veilroom
namespace RoomActor
variable (P : Primitives) (rng : Rng) {a : RoomActor}

/-- A payload that is valid for its type. -/
inductive ValidPayload : UInt8 → Bytes → Prop
  | chat {plaintext text} : String.fromUTF8? ⟨plaintext.toArray⟩ = some text →
      validateChatText text .default = .ok () → ValidPayload msgChat plaintext
  | color {index color} : ColorChoice.fromIndex index = some color → ValidPayload msgColor [index]
  | timeoutRequest {plaintext : Bytes} : plaintext.length = 8 →
      1 ≤ BigEndian.decode plaintext → BigEndian.decode plaintext ≤ maxMessageTimeoutSeconds →
      ValidPayload msgTimeoutRequest plaintext

/-- An envelope of the member `m`: fresh, of the current epoch, opening under the current key to
a valid payload. -/
structure Authentic (a : RoomActor) (m : Member) (messageType : UInt8)
    (envelope : EncryptedEnvelope) (plaintext : Bytes) : Prop where
  member : m ∈ a.members.members
  notHost : m.memberId ≠ 0
  senderId : envelope.senderId = m.memberId
  epoch : envelope.epoch = a.epoch
  fresh : a.chatReplay.Fresh m.memberId a.epoch envelope.senderSequence
  opened : a.chatPlaintext P m.memberId messageType envelope = .ok plaintext
  payload : ValidPayload messageType plaintext

/-- A timeout request the room takes up while the two queues are full. -/
def Exhausts (a : RoomActor) (m : Member) (messageType : UInt8) : Prop :=
  messageType = msgTimeoutRequest ∧ (a.chargeRateLimit m.memberId).2.1 = true ∧
    (a.state = .epochTransition → a.memberHasAckedPendingEpoch m.connection = true) ∧
    a.requests.limit ≤ a.requests.requests.length + a.timeoutRequests.length

/-- The member is still in the table and its connection open. -/
structure Retains (m : Member) (b : RoomActor) (actions : List RoomAction) : Prop where
  member : ∃ n ∈ b.members.members, n.uncolored = m.uncolored
  connection : b.connections.memberId m.connection = some m.memberId
  opened : .closeConnection m.connection ∉ actions

/-- `m` stays when tables and connections do and nothing is closed. -/
theorem Retains.of_same {m : Member} {b : RoomActor} {actions : List RoomAction}
    (h : a.registry.Valid) (hm : m ∈ a.members.members)
    (hmembers : b.members.members.map Member.uncolored = a.members.members.map Member.uncolored)
    (hconnections : b.connections = a.connections)
    (hopened : .closeConnection m.connection ∉ actions) : Retains m b actions where
  member := exists_uncolored_of_mem hmembers.symm hm
  connection := by
    rw [hconnections]
    exact h.member_entry m hm
  opened := hopened

theorem not_mem_relay (a : RoomActor) (c connection : ConnectionId) (message : Message) :
    .closeConnection c ∉ a.relay connection message := by
  intro hmem
  obtain ⟨m, -, heq⟩ := List.mem_map.mp hmem
  cases heq

theorem onPlaintext_retains (h : a.registry.Valid) {m : Member} (hm : m ∈ a.members.members)
    {messageType : UInt8} {plaintext : Bytes} (hpayload : ValidPayload messageType plaintext)
    (hne : m.memberId ≠ 0)
    (hroom : ¬ (messageType = msgTimeoutRequest ∧
      a.requests.limit ≤ a.requests.requests.length + a.timeoutRequests.length))
    (envelope : EncryptedEnvelope) :
    ∃ b actions, a.onPlaintext m.connection m.memberId messageType envelope plaintext =
      (b, .ok actions) ∧ Retains m b actions := by
  cases hpayload with
  | @chat plaintext text htext hvalid =>
      refine ⟨a, a.relay m.connection (.chatMessage envelope), ?_,
        .of_same h hm rfl rfl (not_mem_relay _ _ _ _)⟩
      unfold onPlaintext
      rw [if_neg (by decide), if_neg (by decide), if_neg (by decide), htext]
      simp only [hvalid]
  | @color index color hcolor =>
      let b : RoomActor := { a with members := a.members.setColor m.memberId color }
      refine ⟨b, b.relay m.connection (.colorChange envelope), ?_, .of_same h hm
        (a.members.map_uncolored_setColor m.memberId color) rfl (not_mem_relay _ _ _ _)⟩
      unfold onPlaintext
      rw [if_pos rfl]
      simp only [hcolor, b]
  | timeoutRequest hlength hlow hhigh =>
      have hfull : ¬ a.requests.limit ≤ a.requests.requests.length + a.timeoutRequests.length :=
        fun hfull => hroom ⟨rfl, hfull⟩
      unfold onPlaintext onTimeoutRequest
      rw [if_neg (by decide), if_pos rfl, if_neg hne, if_neg (not_not.mpr hlength)]
      dsimp only
      rw [if_neg (not_not.mpr ⟨hlow, hhigh⟩), if_neg hfull]
      exact ⟨_, _, rfl, .of_same h hm rfl rfl (by simp)⟩

/-- A timeout request that finds the queues full is refused with an error. -/
theorem onPlaintext_full {m : Member} {messageType : UInt8} {plaintext : Bytes}
    (hpayload : ValidPayload messageType plaintext) (hne : m.memberId ≠ 0)
    (htype : messageType = msgTimeoutRequest)
    (hfull : a.requests.limit ≤ a.requests.requests.length + a.timeoutRequests.length)
    (envelope : EncryptedEnvelope) :
    a.onPlaintext m.connection m.memberId messageType envelope plaintext =
      (a, .error (.queue (.full a.requests.limit))) := by
  cases hpayload with
  | chat _ _ => cases htype
  | color _ => cases htype
  | timeoutRequest hlength hlow hhigh =>
      unfold onPlaintext onTimeoutRequest
      rw [if_neg (by decide), if_pos rfl, if_neg hne, if_neg (not_not.mpr hlength)]
      dsimp only
      rw [if_neg (not_not.mpr ⟨hlow, hhigh⟩), if_pos hfull]

/-- An authentic envelope passes every check before its payload. -/
theorem onEnvelope_opened {b : RoomActor} {m : Member} {messageType : UInt8}
    {envelope : EncryptedEnvelope} {plaintext : Bytes} (hepoch : envelope.epoch = b.epoch)
    (hfresh : b.chatReplay.Fresh m.memberId b.epoch envelope.senderSequence)
    (hopened : b.chatPlaintext P m.memberId messageType envelope = .ok plaintext) :
    b.onEnvelope P m.connection m.memberId messageType envelope =
      onPlaintext { b with
        chatReplay := (b.chatReplay.accept m.memberId b.epoch envelope.senderSequence).1 }
        m.connection m.memberId messageType envelope plaintext := by
  unfold onEnvelope
  rw [if_neg (not_not.mpr hepoch), if_neg (not_not.mpr hfresh), hopened]

theorem ValidPayload.isChatType {messageType : UInt8} {plaintext : Bytes}
    (h : ValidPayload messageType plaintext) :
    RoomActor.isChatType messageType = true ∧ messageType ≠ msgTimeoutChanged := by
  cases h <;> decide

section
variable {m : Member} {messageType : UInt8} {envelope : EncryptedEnvelope} {plaintext : Bytes}

/-- What the room makes of an authentic message it takes up from a sender that is not abusive. -/
theorem onChatReceived_authentic (h : a.registry.Valid)
    (hauth : Authentic P a m messageType envelope plaintext)
    (hcalm : (a.chargeRateLimit m.memberId).2.2 = false) :
    (∃ b actions, a.onChatReceived P rng m.connection messageType envelope = (b, .ok actions) ∧
      Retains m b actions ∧ ¬ (messageType = msgTimeoutRequest ∧
        (a.chargeRateLimit m.memberId).2.1 = true ∧
        a.requests.limit ≤ a.requests.requests.length + a.timeoutRequests.length)) ∨
    ∃ b, a.onChatReceived P rng m.connection messageType envelope =
        (b, .error (.queue (.full a.requests.limit))) ∧ b.hostConnection = a.hostConnection ∧
      messageType = msgTimeoutRequest ∧ (a.chargeRateLimit m.memberId).2.1 = true ∧
      a.requests.limit ≤ a.requests.requests.length + a.timeoutRequests.length := by
  obtain ⟨htype, hchanged⟩ := hauth.payload.isChatType
  unfold onChatReceived
  rw [if_neg (not_not.mpr htype),
    show a.connections.memberId m.connection = some m.memberId from h.member_entry m hauth.member]
  dsimp only
  rw [if_neg (not_not.mpr hauth.senderId),
    show a.members.byId m.memberId = some m from h.byId_eq_some.mpr ⟨hauth.member, rfl⟩,
    if_neg (by simp), if_neg hchanged]
  by_cases hallowed : (a.chargeRateLimit m.memberId).2.1 = true
  · let b : RoomActor := { (a.chargeRateLimit m.memberId).1 with
      chatReplay := (a.chatReplay.accept m.memberId a.epoch envelope.senderSequence).1 }
    rw [if_pos hallowed, onEnvelope_opened P (b := (a.chargeRateLimit m.memberId).1) hauth.epoch
      hauth.fresh hauth.opened]
    by_cases hfull : messageType = msgTimeoutRequest ∧
        a.requests.limit ≤ a.requests.requests.length + a.timeoutRequests.length
    · exact .inr ⟨b, onPlaintext_full (a := b) hauth.payload hauth.notHost hfull.1 hfull.2 envelope,
        rfl, hfull.1, hallowed, hfull.2⟩
    · obtain ⟨c, actions, heq, hretains⟩ := onPlaintext_retains (a := b) h hauth.member
        hauth.payload hauth.notHost hfull envelope
      exact .inl ⟨c, actions, heq, hretains, fun hexhausts => hfull ⟨hexhausts.1, hexhausts.2.2⟩⟩
  · rw [if_neg hallowed]
    refine .inl ?_
    unfold onRateLimited
    split
    · rename_i hfail
      cases hfail
    · rw [hcalm, if_neg Bool.false_ne_true]
      exact ⟨_, _, rfl, .of_same h hauth.member rfl rfl (by simp),
        fun hexhausts => hallowed hexhausts.2.1⟩

/-- The whole event: the message is taken up, or turned away without a penalty. -/
theorem handleEventAt_authentic (h : a.registry.Valid) (now : Duration)
    (hopen : ¬ (a.state = .closing ∨ a.state = .destroyed))
    (hauth : Authentic P { a with now } m messageType envelope plaintext)
    (hcalm : (a.state = .epochTransition → a.memberHasAckedPendingEpoch m.connection = true) →
      (chargeRateLimit { a with now } m.memberId).2.2 = false) :
    (∃ b actions, a.handleEventAt P rng (.chatReceived m.connection messageType envelope) now =
      (b, .ok actions) ∧ Retains m b actions ∧ ¬ Exhausts { a with now } m messageType) ∨
    ∃ b, a.handleEventAt P rng (.chatReceived m.connection messageType envelope) now =
        (b, .error (.queue (.full a.requests.limit))) ∧ b.hostConnection = a.hostConnection ∧
      Exhausts { a with now } m messageType := by
  have htaken (hacked : a.state = .epochTransition →
      a.memberHasAckedPendingEpoch m.connection = true) :=
    onChatReceived_authentic P rng (a := { a with now }) h hauth (hcalm hacked)
  unfold handleEventAt
  dsimp only
  rw [if_neg hopen]
  split
  · rename_i hstate
    unfold handleInTransition
    dsimp only
    split
    · rename_i hacked
      obtain ⟨b, actions, heq, hretains, hroom⟩ | ⟨b, heq, hhost, htype, hallowed, hfull⟩ :=
        htaken fun _ => hacked
      · exact .inl ⟨b, actions, heq, hretains,
          fun hexhausts => hroom ⟨hexhausts.1, hexhausts.2.1, hexhausts.2.2.2⟩⟩
      · exact .inr ⟨b, heq, hhost, htype, hallowed, fun _ => hacked, hfull⟩
    · rename_i hnotacked
      have hguest : m.connection ≠ a.hostConnection :=
        fun heq => hauth.notHost ((h.connection_eq_host_iff hauth.member).mp heq)
      refine .inl ?_
      unfold rejectDuringTransition
      rw [if_neg hguest]
      split
      · rename_i hfail
        cases hfail
      · exact ⟨_, _, rfl, .of_same (a := { a with now }) h hauth.member rfl rfl (by simp),
          fun hexhausts => hnotacked (hexhausts.2.2.1 hstate)⟩
  · rename_i hstate
    obtain ⟨b, actions, heq, hretains, hroom⟩ | ⟨b, heq, hhost, htype, hallowed, hfull⟩ :=
      htaken fun htransition => absurd htransition hstate
    · exact .inl ⟨b, actions, heq, hretains,
        fun hexhausts => hroom ⟨hexhausts.1, hexhausts.2.1, hexhausts.2.2.2⟩⟩
    · exact .inr ⟨b, heq, hhost, htype, hallowed,
        fun htransition => absurd htransition hstate, hfull⟩

/-- A failure that is not transient closes the connection it came from. -/
theorem not_retains_of_error {input : TaskInput} {b : RoomActor} {error : RoomError}
    (hevent : input.event = .chatReceived m.connection messageType envelope)
    (hresult : a.handle P input.toInput = (b, .error error)) (herror : error.isTransient = false)
    (hguest : m.connection ≠ b.hostConnection) :
    ¬ Retains m (RoomTask.receive P a input).1 (RoomTask.receive P a input).2 := by
  intro hretains
  apply hretains.opened
  unfold RoomTask.receive
  rw [hresult, hevent]
  simp only [herror, RoomTask.offender, Option.filter, decide_eq_true hguest, if_true,
    Bool.false_eq_true, if_false]
  exact .tail _ (.tail _ (.head _))

end

variable {P} in
/-- An authentic message keeps its sender in the room, if and only if the room is open and the
message is no timeout request that finds the queues full. -/
theorem sender_stays_iff {setup : Setup} {a₀ : RoomActor} {started : List RoomAction}
    {rounds : RoomTask.Rounds} (hstart : Started P setup a₀ started)
    (run : RoomTask.Run P a₀ rounds a) (input : TaskInput) {m : Member} {messageType : UInt8}
    {envelope : EncryptedEnvelope} {plaintext : Bytes}
    (hevent : input.event = .chatReceived m.connection messageType envelope)
    (hauth : Authentic P { a with now := input.now } m messageType envelope plaintext)
    (hcalm : (a.state = .epochTransition → a.memberHasAckedPendingEpoch m.connection = true) →
      (chargeRateLimit { a with now := input.now } m.memberId).2.2 = false) :
    Retains m (RoomTask.receive P a input).1 (RoomTask.receive P a input).2 ↔
      ¬ (a.state = .closing ∨ a.state = .destroyed) ∧
        ¬ Exhausts { a with now := input.now } m messageType := by
  have hvalid : a.registry.Valid := Run.valid hstart.valid run.past
  have hguest : m.connection ≠ a.hostConnection :=
    fun heq => hauth.notHost ((hvalid.connection_eq_host_iff hauth.member).mp heq)
  by_cases hclosed : a.state = .closing ∨ a.state = .destroyed
  · refine ⟨fun hretains => ?_, fun hopen => absurd hclosed hopen.1⟩
    have hresult : a.handle P input.toInput =
      ({ a with now := input.now }, .error .roomClosed) := by
      unfold handle handleEventAt
      exact if_pos hclosed
    exact absurd hretains (not_retains_of_error P hevent hresult rfl hguest)
  · obtain ⟨b, actions, heq, hretains, hroom⟩ | ⟨b, heq, hhost, hexhausts⟩ :=
      handleEventAt_authentic P input.rng hvalid input.now hclosed hauth hcalm
    · refine ⟨fun _ => ⟨hclosed, hroom⟩, fun _ => ?_⟩
      have hresult : a.handle P input.toInput = (b, .ok actions) := by
        unfold handle
        rw [hevent, heq]
      unfold RoomTask.receive
      rw [hresult]
      exact hretains
    · refine ⟨fun hretains => ?_, fun hroom => absurd hexhausts hroom.2⟩
      have hresult : a.handle P input.toInput =
          (b, .error (.queue (.full a.requests.limit))) := by
        unfold handle
        rw [hevent, heq]
      exact absurd hretains (not_retains_of_error P hevent hresult rfl (by rwa [hhost]))

end RoomActor

/-! ### The symbolic room -/

namespace Symbolic
open RoomActor

def atTime (now : Duration) (event : RoomEvent) : TaskInput := ⟨⟨event, now, rng 11⟩, now, rng 12⟩

/-- The guest's `n`-th envelope of epoch 2: a request for half a minute. -/
def nthRequest (n : Nat) : EncryptedEnvelope :=
  ⟨2, 1, n, Vector.replicate 24 11,
    encrypt (Vector.replicate 32 11) (List.replicate 7 0 ++ [30]), guest.sign primitives []⟩

/-- The guest joins and asks `n` times, ten seconds apart. -/
def asking (n : Nat) : List TaskInput :=
  ([.epochAck 0 1, .clientConnected 1, .passwordVerified 1, .joinRequested 1 application,
      .hostAccepted 0, .epochAck 1 2, .epochAck 0 2].map (atTime 0)) ++
    (List.range n).map fun i => atTime (Duration.fromSecs (10 * i))
      (.chatReceived 1 msgTimeoutRequest (nthRequest (i + 1)))

def askedTimes (n : Nat) : RoomTask.Rounds × RoomActor :=
  Machine.exec (RoomTask.receive primitives) (asking n) [] room

theorem askedTimes_run (n : Nat) :
    RoomTask.Run primitives room (askedTimes n).1 (askedTimes n).2 :=
  Machine.Run.exec .start fun _ _ _ _ _ _ _ _ => trivial

/-- The guest in the table. -/
def guestMember : Member :=
  ⟨1, 1, "guest", default, false, guest.ed25519Pubkey primitives, guest.x25519Pubkey primitives, 2⟩

/-- The request after the first `n`. -/
def nextRequest (n : Nat) : TaskInput :=
  atTime (Duration.fromSecs (10 * n)) (.chatReceived 1 msgTimeoutRequest (nthRequest (n + 1)))

theorem nextRequest_authentic (n : Nat) (hmember : guestMember ∈ (askedTimes n).2.members.members)
    (hepoch : (askedTimes n).2.epoch = 2)
    (hfresh : (askedTimes n).2.chatReplay.Fresh 1 2 (n + 1))
    (hopened : (askedTimes n).2.chatPlaintext primitives 1 msgTimeoutRequest (nthRequest (n + 1)) =
      .ok (List.replicate 7 0 ++ [30])) :
    Authentic primitives { (askedTimes n).2 with now := (nextRequest n).now } guestMember
      msgTimeoutRequest (nthRequest (n + 1)) (List.replicate 7 0 ++ [30]) where
  member := hmember
  notHost := by decide
  senderId := rfl
  epoch := hepoch.symm
  fresh := by
    rw [hepoch]
    exact hfresh
  opened := hopened
  payload := .timeoutRequest (by decide) (by decide) (by decide)

end Symbolic

namespace RoomActor
open Symbolic

theorem sender_stays_iff_once :
    Retains guestMember (RoomTask.receive primitives (askedTimes 0).2 (nextRequest 0)).1
        (RoomTask.receive primitives (askedTimes 0).2 (nextRequest 0)).2 ↔
      ¬ ((askedTimes 0).2.state = .closing ∨ (askedTimes 0).2.state = .destroyed) ∧
        ¬ Exhausts { (askedTimes 0).2 with now := (nextRequest 0).now } guestMember
          msgTimeoutRequest :=
  sender_stays_iff room_started (askedTimes_run 0) (nextRequest 0) rfl
    (nextRequest_authentic 0 (by decide +kernel) (by decide +kernel) (by decide +kernel)
      (by decide +kernel)) fun _ => by decide +kernel

/-- The ninth request of a guest whose eight others are pending puts it out of the room. -/
theorem ninth_request_removes :
    RoomTask.Run primitives room (askedTimes 8).1 (askedTimes 8).2 ∧
    Authentic primitives { (askedTimes 8).2 with now := (nextRequest 8).now } guestMember
      msgTimeoutRequest (nthRequest 9) (List.replicate 7 0 ++ [30]) ∧
    (chargeRateLimit { (askedTimes 8).2 with now := (nextRequest 8).now } 1).2.2 = false ∧
    (∀ m ∈ (RoomTask.receive primitives (askedTimes 8).2 (nextRequest 8)).1.members.members,
      m.memberId ≠ 1) ∧
    .closeConnection 1 ∈ (RoomTask.receive primitives (askedTimes 8).2 (nextRequest 8)).2 :=
  ⟨askedTimes_run 8, nextRequest_authentic 8 (by decide +kernel) (by decide +kernel)
    (by decide +kernel) (by decide +kernel), by decide +kernel, by decide +kernel,
    by decide +kernel⟩

end RoomActor

end Veilroom
