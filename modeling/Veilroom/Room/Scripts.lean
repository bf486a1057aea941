import Veilroom.Room.Transitions
import Veilroom.Crypto.Symbolic

/-!
Scripted runs.

Whether a fixed list of events is an orderly run is a property of the list
alone. The symbolic room at the end is such a run.
-/
namespace Veilroom
namespace RoomActor
variable {P : Primitives}

/-- The connections a list of inputs announces. -/
def announced (inputs : List Input) : List ConnectionId :=
  inputs.filterMap fun input => match input.event with
    | .clientConnected c => some c
    | _ => none

/-- The run of the room on a list of inputs. -/
def script (P : Primitives) (a : RoomActor) (inputs : List Input) : Past × RoomActor :=
  Machine.exec (handle P) inputs [] a

section
variable {setup : Setup} {a₀ a : RoomActor} {started : List RoomAction} {past : Past}
variable {allowed : Past → RoomActor → Input → Prop}

theorem Run.sameIdentity (hstart : a₀.registry.Valid) (run : Run P allowed a₀ past a) :
    a.hostIdentity = a₀.hostIdentity ∧ a.sessionId = a₀.sessionId ∧
      a.hostConnection = a₀.hostConnection := by
  refine run.invariant (fun _ a => a.hostIdentity = a₀.hostIdentity ∧
    a.sessionId = a₀.sessionId ∧ a.hostConnection = a₀.hostConnection) ⟨rfl, rfl, rfl⟩ ?_
  rintro past a input run ⟨hidentity, hsession, hhost⟩ -
  have hsame := (handleEventAt_effect P input.rng (Run.valid hstart run) input.event
    input.now).move.sameRoom
  exact ⟨hsame.hostIdentity.trans hidentity, hsame.sessionId.trans hsession,
    hsame.hostConnection.trans hhost⟩

theorem unconstrained_script (a₀ : RoomActor) (inputs : List Input) :
    Run P Unconstrained a₀ (script P a₀ inputs).1 (script P a₀ inputs).2 :=
  Machine.Run.exec .start fun _ _ _ _ _ _ _ _ => trivial

/-- An orderly environment but for the generator, whatever that answers. -/
structure OrderlyEvents (P : Primitives) (past : Past) (a : RoomActor) (input : Input) : Prop where
  released : ∀ connection application, input.event = .joinRequested connection application →
    application.Released P a.hostIdentity a.sessionId
  fresh : FreshConnection past a input

/-- What a list of inputs offers a run is orderly when its applications were released for this
room, and it announces no connection twice nor the host's. -/
theorem orderlyEvents_offered (hstart : Started P setup a₀ started) {inputs : List Input}
    (hreleased : ∀ input ∈ inputs, ∀ c application, input.event = .joinRequested c application →
      application.Released P a₀.hostIdentity a₀.sessionId)
    (hannounced : (announced inputs).Nodup) (hhost : a₀.hostConnection ∉ announced inputs)
    {done rest : List Input} {input : Input} (hinputs : inputs = done ++ input :: rest)
    (run : Run P allowed a₀ past a) (hpast : past.map Machine.Entry.input =
      done.reverse ++ ([] : Past).map Machine.Entry.input) : OrderlyEvents P past a input := by
  have hmem : input ∈ inputs := by
    rw [hinputs]
    exact List.mem_append_right _ (.head _)
  obtain ⟨hidentity, hsession, hconn⟩ := Run.sameIdentity hstart.valid run
  refine ⟨fun c application hevent => ?_, fun c hevent => ?_⟩
  · rw [hidentity, hsession]
    exact hreleased input hmem c application hevent
  · have hannounce : ∀ {l : List Input} {i : Input}, i ∈ l → i.event = .clientConnected c →
        c ∈ announced l := fun hi heq => List.mem_filterMap.mpr ⟨_, hi, by rw [heq]⟩
    refine ⟨?_, fun entry hentry heq => ?_⟩
    · rintro rfl
      rw [hconn] at hevent hannounce
      exact hhost (hannounce hmem hevent)
    · have hbefore : entry.input ∈ done := by
        have hin := List.mem_map_of_mem (f := Machine.Entry.input) hentry
        rw [hpast] at hin
        simpa using hin
      rw [hinputs, announced, List.filterMap_append, List.nodup_append] at hannounced
      exact hannounced.2.2 c (hannounce hbefore heq) c (hannounce (.head _) hevent) rfl

theorem orderlyEvents_script (hstart : Started P setup a₀ started) {inputs : List Input}
    (hreleased : ∀ input ∈ inputs, ∀ c application, input.event = .joinRequested c application →
      application.Released P a₀.hostIdentity a₀.sessionId)
    (hannounced : (announced inputs).Nodup) (hhost : a₀.hostConnection ∉ announced inputs) :
    Run P (OrderlyEvents P) a₀ (script P a₀ inputs).1 (script P a₀ inputs).2 :=
  Machine.Run.exec .start fun _ _ _ _ _ hinputs run hpast =>
    orderlyEvents_offered hstart hreleased hannounced hhost hinputs run hpast

/-- A list of inputs runs orderly when the generator answers each of them, its applications were
released for this room, and it announces no connection twice nor the host's. -/
theorem orderly_script (hstart : Started P setup a₀ started) {inputs : List Input}
    (hsucceeds : ∀ input ∈ inputs, input.rng.Succeeds)
    (hreleased : ∀ input ∈ inputs, ∀ c application, input.event = .joinRequested c application →
      application.Released P a₀.hostIdentity a₀.sessionId)
    (hannounced : (announced inputs).Nodup) (hhost : a₀.hostConnection ∉ announced inputs) :
    Run P (Orderly P) a₀ (script P a₀ inputs).1 (script P a₀ inputs).2 := by
  refine Machine.Run.exec .start ?_
  intro done input rest past a hinputs run hpast
  have hevents := orderlyEvents_offered hstart hreleased hannounced hhost hinputs run hpast
  have hmem : input ∈ inputs := by
    rw [hinputs]
    exact List.mem_append_right _ (.head _)
  exact ⟨⟨hsucceeds input hmem, hevents.released⟩, hevents.fresh⟩

theorem orderlyEvents_of_orderly (run : Run P (Orderly P) a₀ past a) :
    Run P (OrderlyEvents P) a₀ past a :=
  run.mono fun _ _ _ orderly => ⟨orderly.released, orderly.fresh⟩

theorem honest_of_orderly (run : Run P (Orderly P) a₀ past a) : Run P (Honest P) a₀ past a :=
  run.mono fun _ _ _ orderly => orderly.toHonest

end

end RoomActor

/-! ### The symbolic room -/

namespace Symbolic
open RoomActor

def setup : Setup where
  limits := .default
  hostConnection := 0
  hostNickname := "host"
  hostIdentity := ⟨Vector.replicate 32 1, Vector.replicate 32 2⟩
  hostClientIdentity := ⟨Vector.replicate 32 3, Vector.replicate 32 4⟩
  timeouts := {}
  sessionId := some (Vector.replicate 32 5)
  token := some (Vector.replicate 32 6)
  rng := rng 7

/-- The room once it has started. -/
def room : RoomActor :=
  (connected primitives setup "host" (Vector.replicate 32 5) (Vector.replicate 32 6)).rotated
    (Vector.replicate 32 7)

/-- What its start emitted: the invitation and the wrap for the host. -/
def roomStarted : List RoomAction :=
  [.notifyHost (.invitationRotated (Vector.replicate 32 6)),
    .sendTo 0 (.epochWrap ⟨1, Vector.replicate 24 7,
      encrypt (shared (Vector.replicate 32 2) (Vector.replicate 32 4))
        (Vector.replicate 32 7).toList⟩)]

/-! A guest joins, acknowledges its epoch, and leaves. -/

def guest : MemberIdentity := ⟨Vector.replicate 32 8, Vector.replicate 32 9⟩

def application : JoinApplication :=
  ⟨"guest", none, guest.ed25519Pubkey primitives, guest.x25519Pubkey primitives,
    guest.sign primitives []⟩

/-- The admission flow of the guest's connection, at its join form. -/
def admission : HostAdmission where
  roomSessionId := Vector.replicate 32 5
  serverNonce := Vector.replicate 16 1
  token := List.replicate 32 6
  verifier := ⟨Vector.replicate 16 2, 1, 1, 1, Vector.replicate 32 10⟩
  hostIdentity := setup.hostIdentity
  onionAddress := "veilroom.onion"
  clientNonce := some (Vector.replicate 16 3)
  challengeNonce := some (Vector.replicate 16 4)
  state := .awaitingJoinForm

theorem application_released :
    application.Released primitives room.hostIdentity room.sessionId :=
  ⟨admission, none, ⟨"guest", none, guest.ed25519Pubkey primitives,
    guest.x25519Pubkey primitives, guest.sign primitives []⟩, .opened, rfl, rfl,
    ⟨"guest", none, _, _, _, rfl⟩, by decide +kernel⟩

def neighbor : MemberIdentity := ⟨Vector.replicate 32 12, Vector.replicate 32 13⟩

def neighborApplication : JoinApplication :=
  ⟨"neighbor", none, neighbor.ed25519Pubkey primitives, neighbor.x25519Pubkey primitives,
    neighbor.sign primitives []⟩

theorem neighborApplication_released :
    neighborApplication.Released primitives room.hostIdentity room.sessionId :=
  ⟨admission, none, ⟨"neighbor", none, neighbor.ed25519Pubkey primitives,
    neighbor.x25519Pubkey primitives, neighbor.sign primitives []⟩, .opened, rfl, rfl,
    ⟨"neighbor", none, _, _, _, rfl⟩, by decide +kernel⟩

/-- A generator that fails. -/
def broken : Rng := ⟨none, none, fun _ => none⟩

def visit : List Input :=
  [.epochAck 0 1, .clientConnected 1, .passwordVerified 1, .joinRequested 1 application,
    .hostAccepted 0, .epochAck 1 2, .epochAck 0 2, .connectionLost 1, .epochAck 0 3].map
    fun event => ⟨event, 0, rng 11⟩

def visited : Past × RoomActor := script primitives room visit

theorem room_started : Started primitives setup room roomStarted := ⟨_, rfl, rfl⟩

theorem visit_orderly : Run primitives (Orderly primitives) room visited.1 visited.2 := by
  refine orderly_script room_started ?_ ?_ (by decide) (by decide)
  · intro input hinput
    obtain ⟨event, -, rfl⟩ := List.mem_map.mp hinput
    exact rng_succeeds 11
  · intro input hinput c application' hevent
    simp only [visit, List.map_cons, List.map_nil, List.mem_cons, List.not_mem_nil, or_false]
      at hinput
    obtain rfl | rfl | rfl | rfl | rfl | rfl | rfl | rfl | rfl := hinput <;> cases hevent
    exact application_released

end Symbolic

end Veilroom
