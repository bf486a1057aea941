import Veilroom.Room.Effects
import Veilroom.Library.Run
import Veilroom.Admission.Host

/-!
Runs of the room actor from `create` and `start`.

A run takes any events at any times. What the environment promises, where a
result needs it, is `Honest` (the generator works and applications come out of
the admission flow) and `FreshConnection` (the transport numbers its
connections).
-/
namespace Veilroom

/-- What the room is created with, and what the generator answers while it starts. -/
structure Setup where
  limits : Limits
  hostConnection : ConnectionId
  hostNickname : String
  hostIdentity : HostIdentity
  hostClientIdentity : MemberIdentity
  timeouts : Timeouts
  sessionId : Option Key
  token : Option Key
  rng : Rng

/-- The host as `create` puts it into the table. -/
def Setup.hostMember (setup : Setup) (P : Primitives) (nickname : String) : Member :=
  ⟨0, setup.hostConnection, nickname, default, true, setup.hostClientIdentity.ed25519Pubkey P,
    setup.hostClientIdentity.x25519Pubkey P, 1⟩

/-- One call of `handle_event_at`, with what the generator answers to it. -/
structure Input where
  event : RoomEvent
  now : Duration
  rng : Rng

abbrev Past := List (Machine.Entry RoomActor Input (Except RoomError (List RoomAction)))

namespace RoomActor
variable (P : Primitives)

def handle (a : RoomActor) (input : Input) : Outcome :=
  a.handleEventAt P input.rng input.event input.now

/-- `create` and `start` returned `Ok`: the actor and the actions of `start`. -/
def Started (setup : Setup) (a : RoomActor) (actions : List RoomAction) : Prop :=
  ∃ created, create P setup.limits setup.hostConnection setup.hostNickname setup.hostIdentity
      setup.hostClientIdentity setup.timeouts setup.sessionId setup.token = .ok created ∧
    created.start P setup.rng = (a, .ok actions)

/-- A run in which the environment may offer what `allowed` lets it. -/
abbrev Run (allowed : Past → RoomActor → Input → Prop) (a₀ : RoomActor) (past : Past)
    (a : RoomActor) : Prop :=
  Machine.Run (handle P) allowed a₀ past a

/-- Any event at any time, whatever the generator answers. -/
def Unconstrained (_ : Past) (_ : RoomActor) (_ : Input) : Prop := True

/-- The generator works, and applications come out of an admission flow of this room. -/
structure Honest (past : Past) (a : RoomActor) (input : Input) : Prop where
  succeeds : input.rng.Succeeds
  released : ∀ connection application, input.event = .joinRequested connection application →
    application.Released P a.hostIdentity a.sessionId

/-- A connection is announced once, and is not the host's own. -/
def FreshConnection (past : Past) (a : RoomActor) (input : Input) : Prop :=
  ∀ connection, input.event = .clientConnected connection →
    connection ≠ a.hostConnection ∧
      ∀ entry ∈ past, entry.input.event ≠ .clientConnected connection

/-- An honest environment whose transport announces each connection once. -/
structure Orderly (past : Past) (a : RoomActor) (input : Input) : Prop extends
    Honest P past a input where
  fresh : FreshConnection past a input

/-- The actions of one entry. -/
def actionsOf : Except RoomError (List RoomAction) → List RoomAction
  | .ok actions => actions
  | .error _ => []

/-- Everything the room emitted, in order: at its start, and since. -/
def emitted (started : List RoomAction) (past : Past) : List RoomAction :=
  started ++ past.reverse.flatMap fun entry => actionsOf entry.output

@[simp] theorem emitted_nil (started : List RoomAction) : emitted started [] = started := by
  simp [emitted]

@[simp] theorem emitted_cons (started : List RoomAction)
    (entry : Machine.Entry RoomActor Input (Except RoomError (List RoomAction))) (past : Past) :
    emitted started (entry :: past) = emitted started past ++ actionsOf entry.output := by
  simp [emitted]

/-! ### The start -/

/-- The created room once `start` has registered the host's connection. -/
def connected (setup : Setup) (nickname : String) (sessionId token : Key) : RoomActor where
  sessionId
  token
  state := .creating
  policy := .opened
  members := ⟨setup.limits.maxActiveMembers, 1, [setup.hostMember P nickname]⟩
  connections := ((Connections.new.register setup.hostConnection).promote setup.hostConnection 0).1
  requests := JoinRequestQueue.new setup.limits
  timeoutRequests := []
  roomTimeout := none
  hostConnection := setup.hostConnection
  hostIdentity := setup.hostIdentity
  timeouts := setup.timeouts
  epoch := 0
  epochKey := none
  pendingEpoch := none
  roomSequence := 0
  chatReplay := ReplayTracker.new
  rateLimits := fun _ => none
  pendingMembership := []
  now := 0

/-- The room as `start` leaves it: the first transition has begun on a room of one. -/
structure Opening (setup : Setup) (a : RoomActor) (actions : List RoomAction)
    (nickname : String) (sessionId token key : Key) (wraps : List RoomAction) : Prop where
  validated : validateNickname P setup.hostNickname setup.limits = .ok nickname
  drawn : setup.sessionId = some sessionId ∧ setup.token = some token
  begins : Begins P setup.rng (connected P setup nickname sessionId token) key wraps
  actor : a = (connected P setup nickname sessionId token).rotated key
  actions : actions = .notifyHost (.invitationRotated token) :: wraps

/-- A room created from its setup starts with the transition of the connected room. -/
theorem start_created (setup : Setup) {created : RoomActor} {nickname : String}
    {sessionId token : Key} (hcreating : created.state = .creating)
    (hcreated : { created with
      connections := ((created.connections.register created.hostConnection).promote
        created.hostConnection 0).1 } = connected P setup nickname sessionId token) :
    created.start P setup.rng =
      match (connected P setup nickname sessionId token).beginEpochTransition P setup.rng with
      | (a, .error error) => (a, .error error)
      | (a, .ok wraps) => (a, .ok (.notifyHost (.invitationRotated a.token) :: wraps)) := by
  rw [← hcreated]
  exact if_neg (by simp [hcreating])

theorem Started.opening {setup : Setup} {a : RoomActor} {actions : List RoomAction}
    (h : Started P setup a actions) :
    ∃ nickname sessionId token key wraps,
      Opening P setup a actions nickname sessionId token key wraps := by
  obtain ⟨created, hcreate, hstart⟩ := h
  unfold create at hcreate
  split at hcreate
  · cases hcreate
  rename_i nickname hnickname
  split at hcreate
  rotate_left
  · cases hcreate
  rename_i sessionId token hsession htoken
  cases hcreate
  rw [start_created P setup rfl rfl] at hstart
  obtain ⟨key, begun, hbegins, heq⟩ | ⟨error, heq⟩ :=
    beginEpochTransition_cases P setup.rng (connected P setup nickname sessionId token)
  · rw [heq] at hstart
    cases hstart
    exact ⟨nickname, sessionId, token, key, begun, hnickname, ⟨hsession, htoken⟩, hbegins, rfl, rfl⟩
  · rw [heq] at hstart
    cases hstart

theorem memberId_connected (setup : Setup) (nickname : String) (sessionId token : Key)
    (c : ConnectionId) :
    (connected P setup nickname sessionId token).connections.memberId c =
      if c = setup.hostConnection then some 0 else none := by
  obtain ⟨entry, hentry⟩ := Connections.get_register_self Connections.new setup.hostConnection
  rw [connected, Connections.memberId_promote hentry, Connections.memberId_register]
  rfl

theorem requestId_connected (setup : Setup) (nickname : String) (sessionId token : Key)
    (c : ConnectionId) :
    (connected P setup nickname sessionId token).connections.requestId c = none := by
  obtain ⟨entry, hentry⟩ := Connections.get_register_self Connections.new setup.hostConnection
  rw [connected, Connections.requestId_promote hentry, Connections.requestId_register]
  simp [Connections.requestId]

theorem registry_connected_valid (setup : Setup) (nickname : String) (sessionId token : Key) :
    (connected P setup nickname sessionId token).registry.Valid where
  apart := List.pairwise_singleton _ _
  host := ⟨_, .head _, rfl, rfl⟩
  isHost_iff m hm := by
    rw [List.mem_singleton.mp hm]
    exact ⟨fun _ => rfl, fun _ => rfl⟩
  within_limit := Nat.le_max_right _ _
  next_pos := Nat.one_pos
  id_lt m hm := by
    rw [List.mem_singleton.mp hm]
    exact Nat.one_pos
  member_entry m hm := by
    rw [List.mem_singleton.mp hm]
    exact (memberId_connected P setup nickname sessionId token _).trans (if_pos rfl)
  entry_member c id hid := by
    have hentry := (memberId_connected P setup nickname sessionId token c).symm.trans hid
    split at hentry
    · rename_i hc
      cases hentry
      exact ⟨_, .head _, hc.symm, rfl⟩
    · cases hentry
  request_entry q hq := nomatch hq
  entry_request c id hid := by
    cases (requestId_connected P setup nickname sessionId token c).symm.trans hid
  request_ids := List.nodup_nil
  request_id_lt id hid := nomatch hid
  locked _ := rfl

section
variable {P} {setup : Setup} {a₀ a : RoomActor} {actions : List RoomAction} {past : Past}
variable {allowed : Past → RoomActor → Input → Prop}

/-- The registry of a started room is valid. -/
theorem Started.valid (h : Started P setup a₀ actions) : a₀.registry.Valid := by
  obtain ⟨nickname, sessionId, token, key, wraps, hopening⟩ := h.opening
  rw [hopening.actor]
  exact registry_connected_valid P setup nickname sessionId token

/-- A connection that is known after a step was known before or was just announced. -/
theorem handle_known {input : Input} (h : a.registry.Valid) {c : ConnectionId}
    {entry : ConnectionEntry} (hget : (a.handle P input).1.connections.get c = some entry) :
    input.event = .clientConnected c ∨ ∃ entry', a.connections.get c = some entry' := by
  have hstep := (handleEventAt_effect P input.rng h input.event input.now).step
  refine (hstep.known c entry hget).imp (fun hnew => ?_) id
  cases hevent : input.event with
  | clientConnected connection =>
      rw [hevent] at hnew
      cases hnew
      rfl
  | _ => rw [hevent] at hnew; cases hnew

/-- The registry stays valid along every run. -/
theorem Run.valid (hstart : a₀.registry.Valid) (run : Run P allowed a₀ past a) :
    a.registry.Valid :=
  run.invariant (fun _ a => a.registry.Valid) hstart fun _ _ input _ h _ =>
    (handleEventAt_effect P input.rng h input.event input.now).step.valid

/-- Every earlier state of a run may become every later one. -/
theorem Run.registryLater (hstart : a₀.registry.Valid) (run : Run P allowed a₀ past a)
    {entry} (h : entry ∈ past) :
    entry.before.registry.Later a.registry ∧ entry.after.registry.Later a.registry :=
  run.later (fun a b => a.registry.Later b.registry) (fun a => .refl a.registry)
    (fun h k => h.trans k)
    (fun _ _ input run _ =>
      (handleEventAt_effect P input.rng (Run.valid hstart run) input.event input.now).step.later) h

end

end RoomActor

end Veilroom
