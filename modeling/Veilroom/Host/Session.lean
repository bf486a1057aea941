import Veilroom.Host.Gate
import Veilroom.Room.Task

/-!
The host supervisor and the room task with the two queues between them
(`host_session_body` over `RoomTask`).

A step is one round of either loop: the supervisor submits events, the task
takes the oldest one, and the supervisor takes the oldest batch of actions. The
bound of the queues is not modelled.
-/
namespace Veilroom

structure HostSession where
  supervisor : Supervisor
  room : RoomActor
  /-- Submitted and not yet taken, oldest first. -/
  events : List RoomEvent
  batches : List (List RoomAction)

namespace HostSession
variable (P : Primitives) (debug : Message → String)

inductive Input
  /-- A round of the supervisor that takes no actions. -/
  | supervisor (input : Supervisor.Input)
  /-- A round of the room task. -/
  | room (now cleanupNow : Duration) (rng cleanupRng : Rng)
  /-- The supervisor takes a batch; the world answers its `i`-th action with `answers i`. -/
  | actions (answers : Nat → Supervisor.ActionInput)

/-- What a step submitted to the room, sent to the peers and emitted. -/
structure Output where
  submitted : List RoomEvent := []
  sent : List (ConnectionId × Message) := []
  emitted : List RoomAction := []

/-- A batch with the world's answers. -/
def answered (answers : Nat → Supervisor.ActionInput) (batch : List RoomAction) :
    List (RoomAction × Supervisor.ActionInput) :=
  batch.zipIdx.map fun (action, i) => (action, answers i)

@[simp] theorem map_answered (answers : Nat → Supervisor.ActionInput) (batch : List RoomAction) :
    (answered answers batch).map Prod.fst = batch := by
  rw [answered, List.map_map]
  exact List.zipIdx_map_fst 0 batch

/-- A round of the supervisor, on the queues that are left. -/
def supervise (s : HostSession) (input : Supervisor.Input) : HostSession × Output :=
  let (supervisor, output) := s.supervisor.step P debug input
  ({ s with supervisor, events := s.events ++ output.events },
    { submitted := output.events, sent := output.sent })

/-- A round of the room task on its next event. -/
def receive (s : HostSession) (input : TaskInput) : HostSession × Output :=
  let (room, batch) := RoomTask.receive P s.room input
  ({ s with room, batches := if batch.isEmpty then s.batches else s.batches ++ [batch] },
    { emitted := batch })

def step (s : HostSession) : Input → HostSession × Output
  | .supervisor input => s.supervise P debug input
  | .room now cleanupNow rng cleanupRng =>
    match s.events with
    | [] => (s, {})
    | event :: events =>
      ({ s with events } : HostSession).receive P ⟨⟨event, now, rng⟩, cleanupNow, cleanupRng⟩
  | .actions answers =>
    match s.batches with
    | [] => (s, {})
    | batch :: batches =>
      ({ s with batches } : HostSession).supervise P debug (.actions (answered answers batch))

abbrev Entry := Machine.Entry HostSession Input Output
abbrev Past := List Entry

/-- Messages only arrive on accepted connections, and actions only come off their queue. -/
def Arrives (s : HostSession) : Input → Prop
  | .supervisor (.actions _) => False
  | .supervisor input => Supervisor.Arrives [] s.supervisor input
  | _ => True

/-- The session as it enters its loop: the room has started, and the supervisor has handled what
the start emitted. -/
structure Started (setup : Setup) (actions : List RoomAction) (before : Supervisor)
    (answers : Nat → Supervisor.ActionInput) (s : HostSession) : Prop where
  room : RoomActor.Started P setup s.room actions
  hostConnection : setup.hostConnection = hostConnectionId
  hostIdentity : before.hostIdentity = setup.hostIdentity
  sessionId : before.sessionId = s.room.sessionId
  starts : before.Starts
  supervisor : s.supervisor = (before.handleHostActions P (answered answers actions)).1
  events : s.events = (before.handleHostActions P (answered answers actions)).2.events
  batches : s.batches = []

/-- A run in which the environment may offer what `allowed` lets it. -/
abbrev Run (allowed : Past → HostSession → Input → Prop) (s₀ : HostSession) (past : Past)
    (s : HostSession) : Prop :=
  Machine.Run (step P debug) (fun past s input => s.Arrives input ∧ allowed past s input) s₀ past s

/-- What one step of the session is: nothing, when its queue is empty, or one round of a loop. -/
inductive Round (s : HostSession) : Input → HostSession → Output → Prop
  | waits {now cleanupNow : Duration} {rng cleanupRng : Rng} : s.events = [] →
      Round s (.room now cleanupNow rng cleanupRng) s {}
  | idles {answers : Nat → Supervisor.ActionInput} : s.batches = [] →
      Round s (.actions answers) s {}
  | supervised (input : Supervisor.Input) : Round s (.supervisor input)
      { s with
        supervisor := (s.supervisor.step P debug input).1
        events := s.events ++ (s.supervisor.step P debug input).2.events }
      { submitted := (s.supervisor.step P debug input).2.events
        sent := (s.supervisor.step P debug input).2.sent }
  | acted (answers : Nat → Supervisor.ActionInput) (batch : List RoomAction)
      {batches : List (List RoomAction)} : s.batches = batch :: batches →
      Round s (.actions answers)
        { s with
          supervisor := (s.supervisor.handleHostActions P (answered answers batch)).1
          events := s.events ++ (s.supervisor.handleHostActions P (answered answers batch)).2.events
          batches }
        { submitted := (s.supervisor.handleHostActions P (answered answers batch)).2.events
          sent := (s.supervisor.handleHostActions P (answered answers batch)).2.sent }
  | received (input : TaskInput) {events : List RoomEvent} : s.events = input.event :: events →
      Round s (.room input.now input.cleanupNow input.rng input.cleanupRng)
        { s with
          room := (RoomTask.receive P s.room input).1
          events
          batches := if (RoomTask.receive P s.room input).2.isEmpty then s.batches
            else s.batches ++ [(RoomTask.receive P s.room input).2] }
        { emitted := (RoomTask.receive P s.room input).2 }

theorem step_round (s : HostSession) (input : Input) :
    Round P debug s input (s.step P debug input).1 (s.step P debug input).2 := by
  cases input with
  | supervisor input => exact .supervised input
  | room now cleanupNow rng cleanupRng =>
      simp only [step]
      split
      · rename_i hevents
        exact .waits hevents
      · rename_i event events hevents
        exact .received ⟨⟨event, now, rng⟩, cleanupNow, cleanupRng⟩ hevents
  | actions answers =>
      simp only [step]
      split
      · rename_i hbatches
        exact .idles hbatches
      · rename_i hbatches
        exact .acted answers _ hbatches

section
variable {P debug} {allowed : Past → HostSession → Input → Prop} {setup : Setup}
variable {actions : List RoomAction} {before : Supervisor}
variable {answers : Nat → Supervisor.ActionInput} {s₀ s : HostSession} {past : Past}

private theorem supervisor_next {supervisor : Supervisor} {rounds : Supervisor.Past}
    (run : Supervisor.Run P debug before rounds supervisor) (input : Supervisor.Input)
    (harrives : Supervisor.Arrives rounds supervisor input) :
    ∃ rounds, Supervisor.Run P debug before rounds (supervisor.step P debug input).1 :=
  ⟨_, .step run harrives⟩

/-- The supervisor of a run is in a run of its own. -/
theorem Run.supervised (hstart : Started P setup actions before answers s₀)
    (run : Run P debug allowed s₀ past s) :
    ∃ rounds, Supervisor.Run P debug before rounds s.supervisor := by
  induction run with
  | start =>
      rw [hstart.supervisor]
      exact supervisor_next .start (.actions (answered answers actions)) trivial
  | @step past s input run hallowed ih =>
      obtain ⟨rounds, hrun⟩ := ih
      obtain ⟨harrives, -⟩ := hallowed
      have hround := step_round P debug s input
      generalize s.step P debug input = result at hround ⊢
      obtain ⟨s', output⟩ := result
      cases hround with
      | waits _ | idles _ | received _ _ => exact ⟨rounds, hrun⟩
      | supervised input =>
          apply supervisor_next hrun input
          cases input with
          | actions batch => cases harrives
          | stream _ | connect _ | inbound _ _ _ | expire _ _ | key _ | tick => exact harrives
      | acted answers batch _ =>
          exact supervisor_next hrun (.actions (answered answers batch)) trivial

/-- The room's registry stays valid. -/
theorem Run.valid (hstart : Started P setup actions before answers s₀)
    (run : Run P debug allowed s₀ past s) : s.room.registry.Valid := by
  induction run with
  | start => exact hstart.room.valid
  | @step past s input run _ ih =>
      have hround := step_round P debug s input
      generalize s.step P debug input = result at hround ⊢
      obtain ⟨s', output⟩ := result
      cases hround with
      | waits _ | idles _ | supervised _ | acted _ _ _ => exact ih
      | received input _ => exact RoomTask.receive_valid ih input

end

end HostSession

end Veilroom
