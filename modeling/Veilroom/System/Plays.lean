import Veilroom.System.Channels
import Veilroom.System.Sessions

/-!
Scripted runs of the system.

As with the room alone, whether a list of cues is a fair run is a property of
the list.
-/
namespace Veilroom

/-- One step of a script: an event of the environment, the delivery of what a member sent, a
message consumed, or an envelope sent. -/
inductive Cue
  | event (event : RoomEvent)
  | deliver (c : ConnectionId)
  | consume (c : ConnectionId)
  | submit (c : ConnectionId) (messageType : UInt8) (plaintext : Bytes)

namespace System
variable (P : Primitives) (identity : ConnectionId → MemberIdentity) (a₀ : RoomActor) (rng : Rng)

/-- The room handles an event at time zero. -/
def record (past : Past) (sys : System) (event : RoomEvent) : Past × System :=
  let input : Input := ⟨event, 0, rng⟩
  (⟨sys.room, input, (sys.room.handle P input).2, (sys.room.handle P input).1⟩ :: past,
    sys.handle P input)

def cue : Past × System → Cue → Past × System
  | (past, sys), .event event => record P rng past sys event
  | (past, sys), .deliver c =>
    match (sys.seats c).outbox with
    | [] => (past, sys)
    | event :: rest => record P rng past (sys.seat c { sys.seats c with outbox := rest }) event
  | (past, sys), .consume c => (past, sys.seat c ((sys.seats c).consume P a₀ (identity c) c))
  | (past, sys), .submit c messageType plaintext =>
    (past, sys.seat c ((sys.seats c).submit P (identity c) c (rng.nonce 0) messageType plaintext))

def play (cues : List Cue) (state : Past × System) : Past × System :=
  cues.foldl (cue P identity a₀ rng) state

/-- The connections a list of cues announces. -/
def announced (cues : List Cue) : List ConnectionId :=
  cues.filterMap fun cue => match cue with
    | .event (.clientConnected c) => some c
    | _ => none

variable {P identity a₀ rng} {setup : Setup} {started : List RoomAction} {past : Past}
variable {sys : System} {honest : ConnectionId → Prop} {allowed : Past → RoomActor → Input → Prop}

theorem play_append_singleton (cues : List Cue) (next : Cue) (state : Past × System) :
    play P identity a₀ rng (cues ++ [next]) state =
      cue P identity a₀ rng (play P identity a₀ rng cues state) next := by
  rw [play, List.foldl_append]
  rfl

/-- What held of every event a run handled may be asked of it. -/
theorem Run.strengthen {Q : RoomActor → Input → Prop}
    {allowed' : Past → RoomActor → Input → Prop}
    (stronger : ∀ past a input, allowed past a input → Q a input → allowed' past a input)
    (run : Run P identity honest allowed setup a₀ started past sys)
    (h : ∀ entry ∈ past, Q entry.before entry.input) :
    Run P identity honest allowed' setup a₀ started past sys := by
  induction run with
  | start => exact .start
  | handled _ ok hsilent ih =>
      rw [List.forall_mem_cons] at h
      exact .handled (ih h.2) (stronger _ _ _ ok h.1) hsilent
  | delivered _ ok houtbox ih =>
      rw [List.forall_mem_cons] at h
      exact .delivered (ih h.2) (stronger _ _ _ ok h.1) houtbox
  | consumed c _ ih => exact .consumed c (ih h)
  | submitted c nonce messageType plaintext _ ih =>
      exact .submitted c nonce messageType plaintext (ih h)

/-- A list of cues runs fairly when its applicants use their own keys and were released for this
room, and it announces no connection twice nor the host's. -/
theorem play_run (hstart : RoomActor.Started P setup a₀ started) (hrng : rng.Succeeds)
    {cues : List Cue}
    (hreleased : ∀ c application, .event (.joinRequested c application) ∈ cues →
      application.Released P a₀.hostIdentity a₀.sessionId ∧ application.Of P (identity c))
    (hsilent : ∀ event, .event event ∈ cues → event.speaker? = none)
    (hannounced : (announced cues).Nodup) (hhost : a₀.hostConnection ∉ announced cues) :
    Run P identity honest (RoomActor.Fair P identity) setup a₀ started
        (play P identity a₀ rng cues ([], opened P setup a₀ started)).1
        (play P identity a₀ rng cues ([], opened P setup a₀ started)).2 ∧
      ∀ entry ∈ (play P identity a₀ rng cues ([], opened P setup a₀ started)).1,
        ∀ c, entry.input.event = .clientConnected c → c ∈ announced cues := by
  induction cues using List.reverseRecOn with
  | nil => exact ⟨.start, fun _ hentry => nomatch hentry⟩
  | append_singleton cues next ih =>
      have hannounce : announced (cues ++ [next]) = announced cues ++ announced [next] :=
        List.filterMap_append
      rw [hannounce, List.nodup_append] at hannounced
      rw [hannounce, List.mem_append, not_or] at hhost
      obtain ⟨run, hpast⟩ := ih
        (fun c application hmem => hreleased c application (List.mem_append_left _ hmem))
        (fun event hmem => hsilent event (List.mem_append_left _ hmem)) hannounced.1 hhost.1
      rw [play_append_singleton, hannounce]
      generalize play P identity a₀ rng cues ([], opened P setup a₀ started) = state at run hpast
      obtain ⟨past, sys⟩ := state
      have hkept : ∀ entry ∈ past, ∀ c, entry.input.event = .clientConnected c →
          c ∈ announced cues ++ announced [next] :=
        fun entry hentry c hevent => List.mem_append_left _ (hpast entry hentry c hevent)
      cases next with
      | event event =>
          obtain ⟨hidentity, hsession, hconn⟩ := RoomActor.Run.sameIdentity hstart.valid run.room
          have hnew : ∀ c, event = .clientConnected c → c ∈ announced [.event event] := by
            rintro c rfl
            exact .head _
          refine ⟨.handled run ⟨⟨⟨hrng, ?_⟩, ?_⟩, ?_⟩ ?_, List.forall_mem_cons.mpr ⟨?_, hkept⟩⟩
          · rintro c application rfl
            rw [hidentity, hsession]
            exact (hreleased c application (List.mem_append_right _ (.head _))).1
          · intro c hevent
            have hmem := hnew c hevent
            refine ⟨fun heq => hhost.2 ?_, fun entry hentry heq => ?_⟩
            · rwa [← hconn, ← heq]
            · exact hannounced.2.2 c (hpast entry hentry c heq) c hmem rfl
          · rintro c application rfl
            exact (hreleased c application (List.mem_append_right _ (.head _))).2
          · intro c hspeaks
            rw [hsilent event (List.mem_append_right _ (.head _))] at hspeaks
            cases hspeaks
          · exact fun c hevent => List.mem_append_right _ (hnew c hevent)
      | deliver c =>
          dsimp only [cue]
          split
          · exact ⟨run, hkept⟩
          · rename_i event rest houtbox
            have hspeaks := run.speaks c event (houtbox ▸ .head _)
            refine ⟨.delivered run ⟨⟨⟨hrng, ?_⟩, ?_⟩, ?_⟩ houtbox,
              List.forall_mem_cons.mpr ⟨?_, hkept⟩⟩
            · rintro c application rfl
              cases hspeaks
            · rintro c rfl
              cases hspeaks
            · rintro c application rfl
              cases hspeaks
            · rintro c rfl
              cases hspeaks
      | consume c => exact ⟨.consumed c run, hkept⟩
      | submit c messageType plaintext => exact ⟨.submitted c _ messageType plaintext run, hkept⟩

end System

end Veilroom
