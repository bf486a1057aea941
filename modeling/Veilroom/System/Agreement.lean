import Veilroom.Room.TimeoutRequests
import Veilroom.System.Plays
import Veilroom.System.Rosters

/-!
The members of a room agree with it on who is in it.

They do over every run in which nobody leaves while the room still owes those
who stay the news of somebody else. A departure that comes then makes the room
sign for another epoch, the news it held back is refused when it is released,
and whoever joined is never made known.
-/
namespace Veilroom

/-- The connection an action sends to. -/
def RoomAction.receiver? : RoomAction → Option ConnectionId
  | .sendTo connection _ => some connection
  | _ => none

namespace System
variable {P : Primitives} {identity : ConnectionId → MemberIdentity} {honest : ConnectionId → Prop}
variable {allowed : Past → RoomActor → Input → Prop} {setup : Setup} {a₀ : RoomActor}
variable {started : List RoomAction} {past : Past} {sys : System}

/-- No transition is pending, and every emitted message has been consumed. -/
def Quiet (sys : System) : Prop :=
  sys.room.AtRest ∧ ∀ c, (sys.seats c).inbox = []

/-- Every member's session has the room's table, but for colors. -/
def Agrees (sys : System) : Prop :=
  ∀ m ∈ sys.room.members.members,
    (sys.seats m.connection).session.map (fun s => s.members.map MemberView.uncolored) =
      some sys.room.roster

instance (sys : System) : Decidable sys.Agrees :=
  have _known (m : Member) : Decidable
      ((sys.seats m.connection).session.map (fun s => s.members.map MemberView.uncolored) =
        some sys.room.roster) := inferInstance
  List.decidableBAll _ _

/-- Only a connection that was sent something has something to consume. -/
theorem Run.consumed_all (run : Run P identity honest allowed setup a₀ started past sys)
    {connections : List ConnectionId}
    (hsent : ∀ c ∈ (RoomActor.emitted started past).filterMap RoomAction.receiver?,
      c ∈ connections)
    (h : ∀ c ∈ connections, (sys.seats c).inbox = []) (c : ConnectionId) :
    (sys.seats c).inbox = [] := by
  by_cases hc : c ∈ connections
  · exact h c hc
  · obtain ⟨consumed, _, heq, -⟩ := run.follows c
    have hnone : sentTo c (RoomActor.emitted started past) = [] := by
      refine List.eq_nil_iff_forall_not_mem.mpr fun message hmessage => hc (hsent c ?_)
      exact List.mem_filterMap.mpr ⟨_, mem_sentTo.mp hmessage, rfl⟩
    rw [hnone, List.append_eq_nil_iff] at heq
    exact heq.2

/-- Membership agreement, over every run that leaves nobody out. -/
theorem members_agree (law : P.Lawful) (hstart : RoomActor.Started P setup a₀ started)
    (hhost : identity setup.hostConnection = setup.hostClientIdentity)
    (hlimits : setup.limits = Limits.default)
    (hplain : validateNickname P setup.hostNickname setup.limits = .ok setup.hostNickname)
    (run : Run P identity honest (RoomActor.Telling P identity) setup a₀ started past sys)
    (hquiet : sys.Quiet) : sys.Agrees := by
  intro m hm
  obtain ⟨hrest, hconsumed⟩ := hquiet
  have hroom := run.room
  obtain hclosed | hinformed := hroom.informed law hstart hhost hlimits hplain
  · exact absurd hclosed hrest.2.1
  obtain ⟨s, hs, -, hinformed⟩ := hinformed m hm
  obtain ⟨number, hsession⟩ := run.heard (hconsumed m.connection)
  have howed : sys.room.pendingMembership = [] := by
    have honest : RoomActor.Run P (RoomActor.Honest P) a₀ past sys.room :=
      hroom.mono fun _ _ _ telling => telling.toHonest
    obtain hclosed | ⟨p, hp⟩ | hsettled := RoomActor.Run.phase law hstart honest
    · exact absurd hclosed hrest.2.1
    · exact absurd hp.state hrest.2.2
    · exact hsettled.held
  rw [hsession, hs]
  exact congrArg some (hinformed.members howed)

end System

instance (a : RoomActor) (event : RoomEvent) : Decidable (a.LeavesNobodyOut event) :=
  inferInstanceAs (Decidable (_ → ∀ _ ∈ _, _ → _))

namespace Symbolic

/-- The host, a guest, and one more. -/
def people (c : ConnectionId) : MemberIdentity :=
  if c = 0 then setup.hostClientIdentity else if c = 1 then guest else neighbor

/-- The room settles with the host and one guest, who both know each other. -/
def settling : List Cue :=
  [.consume 0, .deliver 0, .event (.clientConnected 1), .event (.passwordVerified 1),
    .event (.joinRequested 1 application), .event (.hostAccepted 0), .consume 1, .consume 1,
    .deliver 1, .consume 0, .deliver 0, .consume 0, .consume 1]

/-- A second guest is accepted. -/
def neighborJoins : List Cue :=
  [.event (.clientConnected 2), .event (.passwordVerified 2),
    .event (.joinRequested 2 neighborApplication), .event (.hostAccepted 1)]

/-- The first guest leaves before all have acknowledged the second. -/
def guestLeaves : List Cue :=
  [.event (.connectionLost 1), .consume 0, .deliver 0, .consume 0, .deliver 0, .consume 2,
    .consume 2, .deliver 2, .consume 2, .deliver 2, .consume 0, .consume 0, .consume 1, .consume 1,
    .consume 2, .consume 2]

/-- The scripts announce the two guests, who apply with their own keys. -/
theorem cues_run (cues : List Cue)
    (hcues : ∀ event, .event event ∈ cues →
      .event event ∈ settling ++ neighborJoins ++ guestLeaves)
    (hannounced : (System.announced cues).Nodup) (hhost : 0 ∉ System.announced cues) :
    let played := System.play primitives people room (rng 11) cues
      ([], System.opened primitives setup room roomStarted)
    System.Run primitives people (fun _ => True) (RoomActor.Fair primitives people) setup room
      roomStarted played.1 played.2 := by
  have happlies : ∀ c a, .event (.joinRequested c a) ∈ cues →
      a.Released primitives room.hostIdentity room.sessionId ∧ a.Of primitives (people c) := by
    intro c a hmem
    have hmem := hcues _ hmem
    simp [settling, neighborJoins, guestLeaves] at hmem
    obtain ⟨rfl, rfl⟩ | ⟨rfl, rfl⟩ := hmem
    · exact ⟨application_released, rfl, rfl⟩
    · exact ⟨neighborApplication_released, rfl, rfl⟩
  have hsilent : ∀ event, .event event ∈ cues → event.speaker? = none := by
    intro event hmem
    have hmem := hcues _ hmem
    simp [settling, neighborJoins, guestLeaves] at hmem
    obtain rfl | rfl | rfl | rfl | rfl | rfl | rfl | rfl | rfl := hmem <;> rfl
  exact (System.play_run room_started (rng_succeeds 11) happlies hsilent hannounced hhost).1

/-- Where the scripts end everything has been consumed. -/
theorem quiet_of_consumed {past : Past} {sys : System}
    (run : System.Run primitives people (fun _ => True) (RoomActor.Fair primitives people) setup
      room roomStarted past sys)
    (hrest : sys.room.state = .opened)
    (hsent : ∀ c ∈ (RoomActor.emitted roomStarted past).filterMap RoomAction.receiver?,
      c ∈ [0, 1, 2])
    (hconsumed : ∀ c ∈ [0, 1, 2], (sys.seats c).inbox.length = 0) : sys.Quiet := by
  constructor
  · rw [RoomActor.AtRest, hrest]
    decide
  · intro c
    exact run.consumed_all hsent (fun c hc => List.length_eq_zero_iff.mp (hconsumed c hc)) c

/-- The second guest is in the room, and the host never hears of it. -/
theorem not_members_agree : ∃ past sys,
    System.Run primitives people (fun _ => True) (RoomActor.Fair primitives people) setup room
      roomStarted past sys ∧ sys.Quiet ∧ ¬ sys.Agrees := by
  have run := cues_run (settling ++ neighborJoins ++ guestLeaves) (fun _ h => h)
    (by decide) (by decide)
  refine ⟨_, _, run, quiet_of_consumed run ?_ ?_ ?_, ?_⟩
  · decide +kernel
  · decide +kernel
  · decide +kernel
  · decide +kernel

/-- Once the first guest has settled, the host and the guest know each other. -/
theorem members_agree_settled : ∃ sys : System, sys.room.members.members.length = 2 ∧
    sys.Quiet ∧ sys.Agrees := by
  have run := cues_run settling (fun _ hmem => by simp [hmem]) (by decide) (by decide)
  have hquiet := quiet_of_consumed run (by decide +kernel) (by decide +kernel) (by decide +kernel)
  have htelling (past : Past) (a : RoomActor) (input : Input) :
      RoomActor.Fair primitives people past a input →
        RoomActor.LeavesNobodyOut { a with now := input.now } input.event →
          RoomActor.Telling primitives people past a input :=
    fun fair told => ⟨fair, told⟩
  have telling := run.strengthen htelling (by decide +kernel)
  refine ⟨_, ?_, hquiet,
    System.members_agree lawful room_started rfl rfl (by decide +kernel) telling hquiet⟩
  decide +kernel

end Symbolic

end Veilroom
