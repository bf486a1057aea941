import Veilroom.System.Turns
import Veilroom.Room.Scripts

/-!
The sessions of the members over a run of the room.

`Run.sessions` is the induction every agreement between the room and its
members goes through: what holds of the sessions at the start and of one that
enters, and is kept by every turn, holds of the session of every member.
-/
namespace Veilroom

/-- The application carries the keys of `identity`. -/
structure JoinApplication.Of (P : Primitives) (identity : MemberIdentity)
    (application : JoinApplication) : Prop where
  ed25519Pubkey : application.ed25519Pubkey = identity.ed25519Pubkey P
  x25519Pubkey : application.x25519Pubkey = identity.x25519Pubkey P

namespace RoomActor

/-- An orderly environment in which everyone applies with its own keys. -/
structure Fair (P : Primitives) (identity : ConnectionId → MemberIdentity) (past : Past)
    (a : RoomActor) (input : Input) : Prop extends Orderly P past a input where
  own : ∀ connection application, input.event = .joinRequested connection application →
    application.Of P (identity connection)

/-- Everyone in the room, and everyone who asked to be, uses its own keys and a nickname that
every session takes. -/
structure Presented (P : Primitives) (identity : ConnectionId → MemberIdentity) (a : RoomActor) :
    Prop where
  members : ∀ m ∈ a.members.members,
    m.ed25519Pubkey = (identity m.connection).ed25519Pubkey P ∧
      m.x25519Pubkey = (identity m.connection).x25519Pubkey P
  guests : ∀ m ∈ a.members.members, m.memberId ≠ 0 →
    validateNickname P m.nickname Limits.default = .ok m.nickname
  requests : ∀ q ∈ a.requests.requests, q.application.Of P (identity q.connection) ∧
    validateNickname P q.application.nickname Limits.default = .ok q.application.nickname

/-- What the room holds back are membership messages of an epoch and a sequence it has reached. -/
def HoldsEvents (a : RoomActor) : Prop :=
  ∀ c message, .sendTo c message ∈ a.pendingMembership → message.isMembership = true ∧
    (∃ sequence, message.eventSequence = some sequence ∧ sequence ≤ a.roomSequence) ∧
    ∃ epoch, message.eventEpoch = some epoch ∧ epoch ≤ a.epoch

/-- `m` has just entered; `wrap` is the first it is sent. -/
inductive Enters (P : Primitives) (rng : Rng) (a a' : RoomActor) (m : Member) : EpochWrap → Prop
  | mk {b : RoomActor} {key wraps} {request : JoinRequest} {wrap : EpochWrap} :
      a.state ≠ .epochTransition → Tabled a b → request ∈ a.requests.requests →
      m = ⟨a.members.nextId, request.connection, request.application.nickname, default, false,
        request.application.ed25519Pubkey, request.application.x25519Pubkey, a.epoch + 1⟩ →
      b.members.members = a.members.members ++ [m] → Begins P rng b key wraps →
      a' = (b.rotated key).queueMemberJoined P m →
      WrapOf P a.hostIdentity a.sessionId (a.epoch + 1) key m wrap → Enters P rng a a' m wrap

variable {P : Primitives} {rng : Rng} {a a' b : RoomActor} {event : RoomEvent}
variable {result : Except RoomError (List RoomAction)} {s s' : ChatSession} {m : Member}
variable {identity : ConnectionId → MemberIdentity} {started : List RoomAction} {past : Past}

/-! ### What the room holds back -/

theorem HoldsEvents.mono (h : HoldsEvents a) (hepoch : a.epoch ≤ a'.epoch)
    (hsequence : a.roomSequence ≤ a'.roomSequence)
    (hheld : ∀ action ∈ a'.pendingMembership, action ∈ a.pendingMembership) : HoldsEvents a' := by
  intro c message hmem
  obtain ⟨hmessage, ⟨sequence, heq, hle⟩, epoch, heq', hle'⟩ := h c message (hheld _ hmem)
  exact ⟨hmessage, ⟨sequence, heq, Nat.le_trans hle hsequence⟩, epoch, heq',
    Nat.le_trans hle' hepoch⟩

/-- One event of the next sequence and the current epoch is queued for some members. -/
theorem HoldsEvents.queue (h : HoldsEvents a) (members : List Member) {message : Message}
    (hmessage : message.isMembership = true)
    (hnumber : message.eventSequence = some (a.roomSequence + 1))
    (hepoch : message.eventEpoch = some a.epoch) (hsame : a'.epoch = a.epoch)
    (hsequence : a'.roomSequence = a.roomSequence + 1)
    (hheld : a'.pendingMembership =
      a.pendingMembership ++ members.map fun m => .sendTo m.connection message) :
    HoldsEvents a' := by
  intro c sent hmem
  rw [hheld, List.mem_append] at hmem
  rw [hsame, hsequence]
  obtain hmem | hmem := hmem
  · obtain ⟨hkind, ⟨sequence, heq, hle⟩, hrest⟩ := h c sent hmem
    exact ⟨hkind, ⟨sequence, heq, Nat.le_succ_of_le hle⟩, hrest⟩
  · obtain ⟨m, -, heq⟩ := List.mem_map.mp hmem
    cases heq
    exact ⟨hmessage, ⟨_, hnumber, Nat.le_refl _⟩, _, hepoch, Nat.le_refl _⟩

theorem HoldsEvents.queueMemberGone (h : HoldsEvents a) (id : MemberId) (eventType : UInt8) :
    HoldsEvents (a.queueMemberGone P id eventType) := by
  refine h.queue a.members.members ?_ ?_ ?_ rfl rfl rfl
  all_goals
    unfold goneMessage
    split <;> rfl

theorem HoldsEvents.queueMembersGone (h : HoldsEvents a) (gone : List MemberId)
    (eventType : UInt8) : HoldsEvents (a.queueMembersGone P gone eventType) := by
  induction gone generalizing a with
  | nil => exact h
  | cons id rest ih => exact ih (h.queueMemberGone id eventType)

theorem HoldsEvents.queueMemberSnapshot (h : HoldsEvents a) (member : Member) :
    HoldsEvents (a.queueMemberSnapshot P member.connection) :=
  h.queue [member] rfl rfl rfl rfl rfl rfl

theorem HoldsEvents.queueMemberJoined (h : HoldsEvents a) (member : Member) :
    HoldsEvents (a.queueMemberJoined P member) := by
  unfold RoomActor.queueMemberJoined
  refine HoldsEvents.queueMemberSnapshot ?_ member
  exact h.queue (a.members.members.filter fun other => other.memberId ≠ member.memberId)
    rfl rfl rfl rfl rfl rfl

theorem HoldsEvents.rotated (h : HoldsEvents a) (htabled : Tabled a b) (key : Key) :
    HoldsEvents (b.rotated key) := by
  apply h.mono
  · exact Nat.le_succ_of_le (Nat.le_of_eq htabled.epoch.symm)
  · exact Nat.le_succ_of_le (Nat.le_of_eq htabled.roomSequence.symm)
  · intro action haction
    rw [← htabled.pendingMembership]
    exact haction

theorem HoldsEvents.move (h : HoldsEvents a) (hmove : Move P rng a event a' result) :
    HoldsEvents a' := by
  have hkept (hepoch : a'.epoch = a.epoch) (hsequence : a.roomSequence ≤ a'.roomSequence)
      (hheld : a'.pendingMembership = a.pendingMembership) : HoldsEvents a' :=
    h.mono (Nat.le_of_eq hepoch.symm) hsequence fun action hmem => hheld ▸ hmem
  cases hmove with
  | refused | acked | closed => exact hkept rfl (Nat.le_refl _) rfl
  | failed htabled =>
      apply h.mono
      · exact Nat.le_succ_of_le (Nat.le_of_eq htabled.epoch.symm)
      · exact Nat.le_succ_of_le (Nat.le_of_eq htabled.roomSequence.symm)
      · exact fun action haction => htabled.pendingMembership ▸ haction
  | quiet hstill _ hsequence => exact hkept hstill.epoch hsequence hstill.pendingMembership
  | relayed _ _ hstill _ hsequence =>
      exact hkept hstill.epoch (Nat.le_of_eq hsequence.symm) hstill.pendingMembership
  | policySet _ _ htabled =>
      exact hkept htabled.epoch (Nat.le_succ_of_le (Nat.le_of_eq htabled.roomSequence.symm))
        htabled.pendingMembership
  | activated => exact fun _ _ hmem => nomatch hmem
  | joined _ htabled => exact (h.rotated htabled _).queueMemberJoined _
  | departed gone _ _ htabled => exact (h.rotated htabled _).queueMembersGone gone _

/-! ### Keys and nicknames -/

/-- A member after a move was one before, but for its color, or has just entered. -/
theorem Move.member_cases (law : P.Lawful) (hvalid' : a'.registry.Valid)
    (hnofault : NoFault P rng a) (hmove : Move P rng a event a' result)
    (hm : m ∈ a'.members.members) :
    (∃ n ∈ a.members.members, n.uncolored = m.uncolored) ∨
      ∃ wrap, Enters P rng a a' m wrap ∧ sentTo m.connection (actionsOf result) =
        [.joinAccepted ⟨m.memberId⟩, .epochWrap wrap] := by
  by_cases hold : ∃ n ∈ a.members.members, n.uncolored = m.uncolored
  · exact .inl hold
  · have hnew : ∀ n ∈ a.members.members, n.uncolored ≠ m.uncolored :=
      fun n hn heq => hold ⟨n, hn, heq⟩
    obtain ⟨b, key, wraps, request, wrap, hsettled, htabled, hrequest, heq, hmembers, hbegins,
      hafter, hof, hsent⟩ := hmove.newcomer law hvalid' hnofault hm hnew
    exact .inr ⟨wrap, .mk hsettled htabled hrequest heq hmembers hbegins hafter hof, hsent⟩

theorem requests_onJoinRequested {connection : ConnectionId} {application : JoinApplication}
    {q : JoinRequest} (hq : q ∈ (a.onJoinRequested connection application).1.requests.requests) :
    q ∈ a.requests.requests ∨ q.connection = connection ∧ q.application = application := by
  have hpush (hq : q ∈ (a.requests.push connection application).1.requests) :
      q ∈ a.requests.requests ∨ q.connection = connection ∧ q.application = application := by
    unfold JoinRequestQueue.push at hq
    split at hq
    · exact .inl hq
    · obtain hq | hq := List.mem_append.mp hq
      · exact .inl hq
      · rw [List.mem_singleton.mp hq]
        exact .inr ⟨rfl, rfl⟩
  unfold onJoinRequested at hq
  split at hq
  · exact .inl hq
  split at hq
  · exact .inl hq
  split at hq
  · exact .inl hq
  generalize a.requests.push connection application = result at hq hpush
  obtain ⟨requests, error | requestId⟩ := result
  · exact hpush hq
  · dsimp only at hq
    generalize a.connections.attachRequest connection requestId = attached at hq
    obtain ⟨connections, _ | _⟩ := attached
    · exact hpush hq
    · exact hpush hq

/-- A request after an event was queued before, or is the event's own. -/
theorem handle_queued (h : a.registry.Valid) {input : Input} {q : JoinRequest}
    (hq : q ∈ (a.handle P input).1.requests.requests) :
    q ∈ a.requests.requests ∨ input.event = .joinRequested q.connection q.application := by
  have hstep := (handleEventAt_effect P input.rng h input.event input.now).step
  obtain hnew | hold := hstep.queued q hq
  · cases hevent : input.event with
    | joinRequested connection application =>
        unfold handle handleEventAt at hq
        rw [hevent] at hq
        dsimp only at hq
        split at hq
        · exact .inl hq
        split at hq
        · exact .inl hq
        · obtain hold | ⟨rfl, rfl⟩ := requests_onJoinRequested hq
          · exact .inl hold
          · exact .inr rfl
    | _ =>
        rw [hevent] at hnew
        cases hnew
  · exact .inl hold

theorem Presented.step (law : P.Lawful) {input : Input} (h : Presented P identity a)
    (facts : StepFacts P past a input) (fair : Fair P identity past a input) :
    Presented P identity (a.handle P input).1 := by
  have hcases {m : Member} (hm : m ∈ (a.handle P input).1.members.members) :=
    facts.effect.move.member_cases law facts.effect.step.valid facts.nofault hm
  constructor
  · intro m hm
    obtain ⟨n, hn, heq⟩ | ⟨wrap, henters, -⟩ := hcases hm
    · have hold := h.members n hn
      rw [Member.x25519Pubkey_congr heq, Member.connection_congr heq] at hold
      have hkey : n.uncolored.ed25519Pubkey = m.uncolored.ed25519Pubkey := by rw [heq]
      exact ⟨hkey.symm.trans hold.1, hold.2⟩
    · obtain ⟨-, -, hrequest, rfl, -⟩ := henters
      obtain ⟨hof, -⟩ := h.requests _ hrequest
      exact ⟨hof.ed25519Pubkey, hof.x25519Pubkey⟩
  · intro m hm hid
    obtain ⟨n, hn, heq⟩ | ⟨wrap, henters, -⟩ := hcases hm
    · rw [← Member.memberId_congr heq] at hid
      have hnickname : n.uncolored.nickname = m.uncolored.nickname := by rw [heq]
      rw [← show n.nickname = m.nickname from hnickname]
      exact h.guests n hn hid
    · obtain ⟨-, -, hrequest, rfl, -⟩ := henters
      exact (h.requests _ hrequest).2
  · intro q hq
    obtain hold | hevent := handle_queued facts.valid hq
    · exact h.requests q hold
    · exact ⟨fair.own _ _ hevent, (fair.released _ _ hevent).nickname law⟩

/-! ### Before a connection is accepted -/

/-- Whoever is told it was accepted is a member with the id it is told, and an epoch begins. -/
theorem Move.accepted_inv (hnofault : NoFault P rng a) (hheld : HoldsMembership a)
    (hmove : Move P rng a event a' result) {c : ConnectionId} {accepted : JoinAccepted}
    (hsent : .joinAccepted accepted ∈ sentTo c (actionsOf result)) :
    (∃ key wraps, Begun P rng a a' result key wraps) ∧
      ∃ m ∈ a'.members.members, m.connection = c ∧ m.memberId = accepted.memberId := by
  have hmem := mem_sentTo.mp hsent
  have hplain {actions : List RoomAction} (h : ∀ action ∈ actions, action.isPlain = true)
      (hmem : .sendTo c (.joinAccepted accepted) ∈ actions) : False := nomatch h _ hmem
  cases hmove with
  | refused | acked => cases hmem
  | failed htabled hmembers hfail => exact absurd hfail (hnofault _ _ htabled hmembers)
  | quiet _ _ _ _ hall => exact (hplain hall hmem).elim
  | @relayed _ connection sender messageType envelope =>
      obtain ⟨m, -, heq⟩ := List.mem_map.mp hmem
      have hnone := envelope?_relayed messageType envelope
      rw [RoomAction.sendTo.inj heq |>.2] at hnone
      cases hnone
  | policySet _ _ _ _ _ hall =>
      simp only [actionsOf, announcePolicy, List.mem_append, List.mem_map, List.mem_singleton]
        at hmem
      obtain hmem | ⟨m, -, heq⟩ | heq := hmem
      · exact (hplain hall hmem).elim
      · cases heq
      · cases heq
  | activated =>
      obtain hmem | hmem := List.mem_append.mp hmem
      · cases hheld _ hmem
      · split at hmem
        · cases List.mem_singleton.mp hmem
        · cases hmem
  | @joined b key wraps request member _ htabled _ _ hmembers hbegins =>
      refine ⟨⟨_, _, begun_of_joined htabled hbegins _⟩, member, ?_⟩
      have hin : member ∈ b.members.members := by
        rw [hmembers]
        exact List.mem_append_right _ (.head _)
      obtain heq | hmem := List.mem_cons.mp hmem
      · cases heq
        exact ⟨hin, rfl, rfl⟩
      obtain heq | hmem := List.mem_cons.mp hmem
      · cases heq
      · cases isWrap_of_wrapAll hbegins.wrapped _ hmem
  | departed _ _ _ _ _ _ _ _ _ _ hbegins hall =>
      rw [List.forall_mem_append] at hall
      obtain hmem | hmem := List.mem_append.mp hmem
      · obtain hmem | hmem := List.mem_append.mp hmem
        · exact (hplain hall.1 hmem).elim
        · cases isWrap_of_wrapAll hbegins.wrapped _ hmem
      · exact (hplain hall.2 hmem).elim
  | closed _ hall => exact (hplain hall hmem).elim

/-- Whoever is told it was accepted is wrapped the epoch that begins with it. -/
theorem Move.wraps_accepted (law : P.Lawful) (hvalid' : a'.registry.Valid)
    (hnofault : NoFault P rng a) (hheld : HoldsMembership a) (hmove : Move P rng a event a' result)
    {c : ConnectionId} {accepted : JoinAccepted}
    (hsent : .joinAccepted accepted ∈ sentTo c (actionsOf result)) :
    wrapEpochs c (actionsOf result) ≠ [] := by
  obtain ⟨⟨key, wraps, hbegun⟩, m, hm, rfl, -⟩ := hmove.accepted_inv hnofault hheld hsent
  rw [hbegun.wrapEpochs_of_mem law hvalid' hm]
  exact List.cons_ne_nil _ _

theorem foldl_receive_some (a₀ : RoomActor) (own : MemberIdentity) (messages : List Message)
    (s : ChatSession) :
    messages.foldl (Seat.receive P a₀ own) (some s) =
      some (messages.foldl (ChatSession.consume P own) s) := by
  induction messages generalizing s with
  | nil => rfl
  | cons message rest ih => exact ih _

theorem foldl_receive_none (a₀ : RoomActor) (own : MemberIdentity) {messages : List Message}
    (h : ∀ accepted, .joinAccepted accepted ∉ messages) :
    messages.foldl (Seat.receive P a₀ own) none = none := by
  induction messages with
  | nil => rfl
  | cons message rest ih =>
      have hnone : Seat.receive P a₀ own none message = none := by
        cases message with
        | joinAccepted accepted => exact absurd (.head _) (h accepted)
        | _ => rfl
      rw [List.foldl_cons, hnone]
      exact ih fun accepted hmem => h accepted (.tail _ hmem)

/-! ### Runs -/

/-- What a fair run offers at each of its steps, while the room is open. -/
structure Facing (P : Primitives) (identity : ConnectionId → MemberIdentity) (a₀ : RoomActor)
    (started : List RoomAction) (past : Past) (a : RoomActor) (input : Input) : Prop where
  run : Run P (Fair P identity) a₀ past a
  facts : StepFacts P past a input
  fair : Fair P identity past a input
  phase : Phase P started past a
  held : HoldsEvents a
  presented : Presented P identity a

section
variable {setup : Setup} {a₀ : RoomActor}

theorem Started.holdsEvents (hstart : Started P setup a₀ started) : HoldsEvents a₀ := by
  obtain ⟨nickname, sessionId, token, key, wraps, hopening⟩ := hstart.opening
  rw [hopening.actor]
  exact fun _ _ hmem => nomatch hmem

theorem Started.presented (hstart : Started P setup a₀ started)
    (hhost : identity setup.hostConnection = setup.hostClientIdentity) :
    Presented P identity a₀ := by
  obtain ⟨nickname, sessionId, token, key, wraps, hopening⟩ := hstart.opening
  rw [hopening.actor]
  refine ⟨fun m hm => ?_, fun m hm hid => ?_, fun q hq => nomatch hq⟩
  · rw [List.mem_singleton.mp hm]
    exact ⟨congrArg (fun i => i.ed25519Pubkey P) hhost.symm,
      congrArg (fun i => i.x25519Pubkey P) hhost.symm⟩
  · rw [List.mem_singleton.mp hm] at hid
    exact absurd rfl hid

theorem Run.holdsEvents (hstart : Started P setup a₀ started)
    (run : Run P (Orderly P) a₀ past a) : HoldsEvents a := by
  refine run.invariant (fun _ a => HoldsEvents a) hstart.holdsEvents ?_
  intro past a input run hheld _
  have heffect := handleEventAt_effect P input.rng (Run.valid hstart.valid run) input.event
    input.now
  exact HoldsEvents.move (a := { a with now := input.now }) hheld heffect.move

theorem Run.presented (law : P.Lawful) (hstart : Started P setup a₀ started)
    (hhost : identity setup.hostConnection = setup.hostClientIdentity)
    (run : Run P (Fair P identity) a₀ past a) : Presented P identity a := by
  refine run.invariant (fun _ a => Presented P identity a) (hstart.presented hhost) ?_
  intro past a input run hpresented fair
  have orderly : Run P (Orderly P) a₀ past a := run.mono fun _ _ _ fair => fair.toOrderly
  exact hpresented.step law (Run.stepFacts law hstart orderly fair.toOrderly) fair

theorem Run.accepted_wrapped (law : P.Lawful) (hstart : Started P setup a₀ started)
    (run : Run P (Orderly P) a₀ past a) {c : ConnectionId} {accepted : JoinAccepted}
    (hsent : .joinAccepted accepted ∈ sentTo c (emitted started past)) :
    wrapEpochs c (emitted started past) ≠ [] := by
  induction run with
  | start =>
      rw [emitted_nil] at hsent
      obtain ⟨nickname, sessionId, token, key, wraps, hopening⟩ := hstart.opening
      rw [hopening.actions, sentTo_cons_notifyHost] at hsent
      cases isWrap_of_wrapAll hopening.begins.wrapped _ (mem_sentTo.mp hsent)
  | @step past a input run orderly ih =>
      have facts := Run.stepFacts law hstart run orderly
      rw [emitted_cons, sentTo_append, List.mem_append] at hsent
      rw [emitted_cons, wrapEpochs_append]
      obtain hsent | hsent := hsent
      · exact List.append_ne_nil_of_left_ne_nil (ih hsent) _
      · apply List.append_ne_nil_of_right_ne_nil
        exact Move.wraps_accepted (a := { a with now := input.now }) law facts.effect.step.valid
          facts.nofault facts.held facts.effect.move hsent

/-- Nothing listens yet at the connection of a queued request. -/
theorem Run.unheard (law : P.Lawful) (hstart : Started P setup a₀ started)
    (run : Run P (Orderly P) a₀ past a) {q : JoinRequest} (hq : q ∈ a.requests.requests) :
    Seat.heard P setup a₀ identity started past q.connection = none := by
  have hvalid := Run.valid hstart.valid run
  have hunwrapped := (Run.separated law hstart run).unwrapped hvalid hq
  have hnot : q.connection ≠ a₀.hostConnection := by
    intro hc
    obtain ⟨host, hmem, -, hconn⟩ := hvalid.host
    have hnone := hvalid.requestId_of_member hmem
    obtain ⟨-, -, hsame⟩ := Run.sameIdentity hstart.valid run
    rw [hconn, show a.registry.hostConnection = a₀.hostConnection from hsame, ← hc,
      hvalid.request_entry q hq] at hnone
    cases hnone
  rw [Seat.heard, Seat.initial, if_neg hnot]
  apply foldl_receive_none
  intro accepted hsent
  exact Run.accepted_wrapped law hstart run hsent hunwrapped

theorem heard_cons (c : ConnectionId) (entry : Step) :
    Seat.heard P setup a₀ identity started (entry :: past) c =
      (sentTo c (actionsOf entry.output)).foldl (Seat.receive P a₀ (identity c))
        (Seat.heard P setup a₀ identity started past c) := by
  rw [Seat.heard, emitted_cons, sentTo_append, List.foldl_append]
  rfl

/-- What holds of the sessions at the start and of one that enters, and is kept by every turn,
holds of the session of every member while the room is open. -/
theorem Run.sessions (law : P.Lawful) (hstart : Started P setup a₀ started)
    (hhost : identity setup.hostConnection = setup.hostClientIdentity)
    {allowed : Past → RoomActor → Input → Prop}
    (hallowed : ∀ past a input, allowed past a input → Fair P identity past a input)
    (Inv : RoomActor → Member → ChatSession → Prop)
    (clock : ∀ a now m s, Inv a m s → Inv { a with now } m s)
    (start : ∀ m ∈ a₀.members.members,
      ∃ s, Seat.heard P setup a₀ identity started [] m.connection = some s ∧ Inv a₀ m s)
    (turn : ∀ past a input n m s s', Facing P identity a₀ started past a input →
      allowed past a input → n ∈ a.members.members → n.uncolored = m.uncolored →
      m ∈ (a.handle P input).1.members.members → (a.handle P input).1.registry.Valid →
      Inv { a with now := input.now } n s →
      Turn P input.rng (identity m.connection) { a with now := input.now } input.event
        (a.handle P input).1 m s s' → Inv (a.handle P input).1 m s')
    (enter : ∀ past a input m wrap, Facing P identity a₀ started past a input →
      m ∈ (a.handle P input).1.members.members → (a.handle P input).1.registry.Valid →
      a.hostIdentity = a₀.hostIdentity → a.sessionId = a₀.sessionId →
      Enters P input.rng { a with now := input.now } (a.handle P input).1 m wrap →
      Inv (a.handle P input).1 m
        ((ChatSession.new a₀.sessionId (a₀.hostIdentity.ed25519Pubkey P)
          (a₀.hostIdentity.x25519Pubkey P) m.memberId).consume P (identity m.connection)
            (.epochWrap wrap)))
    (run : Run P allowed a₀ past a) :
    a.state = .destroyed ∨ ∀ m ∈ a.members.members,
      ∃ s, Seat.heard P setup a₀ identity started past m.connection = some s ∧ Inv a m s := by
  induction run with
  | start => exact .inr start
  | @step past a input run ok ih =>
      obtain hclosed | ih := ih
      · rw [handle_destroyed hclosed]
        exact .inl hclosed
      by_cases hopen : (a.handle P input).1.state = .destroyed
      · exact .inl hopen
      refine .inr fun m hm => ?_
      have fairly : Run P (Fair P identity) a₀ past a := run.mono hallowed
      have orderly : Run P (Orderly P) a₀ past a := fairly.mono fun _ _ _ fair => fair.toOrderly
      have fair := hallowed past a input ok
      obtain hclosed | hphase := Run.phase law hstart (honest_of_orderly orderly)
      · rw [handle_destroyed hclosed] at hopen
        exact absurd hclosed hopen
      have facts := Run.stepFacts law hstart orderly fair.toOrderly
      have hfacing : Facing P identity a₀ started past a input :=
        ⟨fairly, facts, fair, hphase, Run.holdsEvents hstart orderly,
          Run.presented law hstart hhost fairly⟩
      have hvalid' := facts.effect.step.valid
      rw [heard_cons]
      obtain ⟨n, hn, heq⟩ | ⟨wrap, henters, hsent⟩ :=
        facts.effect.move.member_cases law hvalid' facts.nofault hm
      · obtain ⟨s, hs, hinv⟩ := ih n hn
        rw [← Member.connection_congr heq, hs, foldl_receive_some]
        refine ⟨_, rfl, ?_⟩
        rw [Member.connection_congr heq]
        refine turn past a input n m s _ hfacing ok hn heq hm hvalid' (clock a _ n s hinv) ?_
        have hpending : ∀ p, a.pendingEpoch = some p → p.epoch = a.epoch := by
          intro p hp
          obtain ⟨q, hq⟩ | hsettled := hphase
          · cases hq.pending.symm.trans hp
            exact hq.epoch
          · rw [hsettled.pending] at hp
            cases hp
        exact Move.turn (a := { a with now := input.now }) law facts.valid hvalid' facts.nofault
          hpending facts.effect.move hopen hm hn heq
      · obtain ⟨hidentity, hsession, -⟩ := Run.sameIdentity hstart.valid orderly
        refine ⟨_, ?_, enter past a input m wrap hfacing hm hvalid' hidentity hsession henters⟩
        obtain ⟨-, -, hrequest, rfl, -⟩ := henters
        rw [hsent, Run.unheard law hstart orderly hrequest]
        rfl

end

end RoomActor

end Veilroom
