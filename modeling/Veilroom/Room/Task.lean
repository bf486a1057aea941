import Veilroom.Room.Runs

/-!
The room task (`room/task.rs`): the loop that hands queued events to the actor.

A run of the task is a run of the actor, with the losses the loop itself adds
for connections it punishes. The capacity of the two queues is not modelled.
-/
namespace Veilroom

/-- One event off the queue, with the clock and the generator of the clean-up that may follow. -/
structure TaskInput extends Input where
  cleanupNow : Duration
  cleanupRng : Rng

/-- The loss the loop reports for a connection it closes. -/
def TaskInput.cleanup (input : TaskInput) (connection : ConnectionId) : Input :=
  ⟨.connectionLost connection, input.cleanupNow, input.cleanupRng⟩

/-- One call of the actor. -/
abbrev Call := Machine.Entry RoomActor Input (Except RoomError (List RoomAction))

namespace RoomTask
variable (P : Primitives)

/-- The connection whose fault a failure of the event is. -/
def offender : RoomEvent → Option ConnectionId
  | .joinRequested connection _ => some connection
  | .chatReceived connection _ _ => some connection
  | .memberCommand connection _ => some connection
  | .epochAck connection _ => some connection
  | _ => none

def errorCode : RoomError → ErrorCode
  | .policyLocked => .roomLocked
  | .roomClosed => .roomClosed
  | _ => .protocolViolation

/-- The error sent to the offender; the bare code when its text is not a valid reason. -/
def errorMessage (error : RoomError) : ErrorMessage :=
  match ErrorMessage.new (errorCode error) (some (error.toString P)) with
  | .ok message => message
  | .error _ => ⟨errorCode error, none⟩

/-- One round of `run`: the batch it sends, empty when it sends none. -/
def receive (a : RoomActor) (input : TaskInput) : RoomActor × List RoomAction :=
  match a.handle P input.toInput with
  | (a, .ok actions) => (a, actions)
  | (a, .error error) =>
    if error.isTransient then (a, [])
    else
      match (offender input.event).filter (· ≠ a.hostConnection) with
      | none => (a, [.notifyHost (.error (error.toString P))])
      | some connection =>
        let (a, result) := a.handle P (input.cleanup connection)
        (a, .notifyHost (.error (error.toString P)) ::
          .sendTo connection (.error (errorMessage P error)) ::
          .closeConnection connection :: RoomActor.actionsOf result)

/-- The calls of one round, newest first. -/
def calls (a : RoomActor) (input : TaskInput) : List Call :=
  match a.handle P input.toInput with
  | (b, .ok actions) => [⟨a, input.toInput, .ok actions, b⟩]
  | (b, .error error) =>
    if error.isTransient then [⟨a, input.toInput, .error error, b⟩]
    else
      match (offender input.event).filter (· ≠ b.hostConnection) with
      | none => [⟨a, input.toInput, .error error, b⟩]
      | some connection =>
        [⟨b, input.cleanup connection, (b.handle P (input.cleanup connection)).2,
            (b.handle P (input.cleanup connection)).1⟩,
          ⟨a, input.toInput, .error error, b⟩]

abbrev Rounds := List (Machine.Entry RoomActor TaskInput (List RoomAction))

/-- Any events at any times. -/
abbrev Run (a₀ : RoomActor) (rounds : Rounds) (a : RoomActor) : Prop :=
  Machine.Run (receive P) (fun _ _ _ => True) a₀ rounds a

/-- Every call the rounds made. -/
def past (rounds : Rounds) : Past :=
  rounds.flatMap fun round => calls P round.before round.input

variable {P}

theorem calls_run {a₀ a : RoomActor} {earlier : Past}
    (run : RoomActor.Run P RoomActor.Unconstrained a₀ earlier a) (input : TaskInput) :
    RoomActor.Run P RoomActor.Unconstrained a₀ (calls P a input ++ earlier)
      (receive P a input).1 := by
  have hfirst : RoomActor.Run P RoomActor.Unconstrained a₀
      (⟨a, input.toInput, (a.handle P input.toInput).2, (a.handle P input.toInput).1⟩ :: earlier)
      (a.handle P input.toInput).1 := .step run trivial
  unfold calls receive
  generalize hresult : a.handle P input.toInput = result at hfirst
  obtain ⟨b, error | actions⟩ := result
  · dsimp only at hfirst ⊢
    split
    · exact hfirst
    · split
      · exact hfirst
      · exact .step hfirst trivial
  · exact hfirst

/-- A run of the task is a run of the actor. -/
theorem Run.past {a₀ a : RoomActor} {rounds : Rounds} (run : Run P a₀ rounds a) :
    RoomActor.Run P RoomActor.Unconstrained a₀ (RoomTask.past P rounds) a := by
  induction run with
  | start => exact .start
  | step run _ ih => exact calls_run ih _

/-- The state after a round is that after its event, or after the clean-up that followed it. -/
theorem receive_cases (a : RoomActor) (input : TaskInput) :
    (receive P a input).1 = (a.handle P input.toInput).1 ∨
      ∃ c, offender input.event = some c ∧
        (receive P a input).1 = ((a.handle P input.toInput).1.handle P (input.cleanup c)).1 := by
  unfold receive
  split
  · rename_i hresult
    exact .inl (by rw [hresult])
  · rename_i hresult
    rw [hresult]
    split
    · exact .inl rfl
    split
    · exact .inl rfl
    · rename_i connection hoffender
      obtain ⟨hsome, -⟩ := Option.filter_eq_some_iff.mp hoffender
      exact .inr ⟨connection, hsome, rfl⟩

theorem receive_valid {a : RoomActor} (h : a.registry.Valid) (input : TaskInput) :
    (receive P a input).1.registry.Valid := by
  have hfirst := (a.handleEventAt_effect P input.rng h input.event input.now).step.valid
  obtain heq | ⟨c, -, heq⟩ := receive_cases (P := P) a input
  · rw [heq]
    exact hfirst
  · rw [heq]
    exact (RoomActor.handleEventAt_effect P _ hfirst _ _).step.valid

end RoomTask

end Veilroom
