import Veilroom.Room.Traffic
import Veilroom.Room.Scripts

/-!
Traffic to departed connections, over whole runs.

A connection that left the registry stays out of it, because the transport
announces each connection once. What still reaches it is what a step lapses in:
membership events queued before it left, and answers to its late chat.
-/
namespace Veilroom
namespace RoomActor
variable {P : Primitives} {a a₀ : RoomActor} {setup : Setup} {started : List RoomAction}
variable {past older : Past} {c : ConnectionId} {input : Input}

/-- `c` left the registry in one of the steps. -/
def Departed (past : Past) (c : ConnectionId) : Prop :=
  ∃ entry ∈ past, entry.before.Knows c ∧ ¬ entry.after.Knows c

/-- What a step does for the connections that leave in it, and for those that left before. -/
structure TakesLeave (older : Past)
    (entry : Machine.Entry RoomActor Input (Except RoomError (List RoomAction))) : Prop where
  closed : isLost entry.input.event = false → ∀ c, entry.before.Knows c → ¬ entry.after.Knows c →
    ClosedLast c (actionsOf entry.output)
  silent : ∀ c, Departed older c → ∀ message, .sendTo c message ∉ actionsOf entry.output

/-- Every step of the run takes leave. -/
def Courteous (past : Past) : Prop :=
  ∀ newer entry older, past = newer ++ entry :: older → TakesLeave older entry

/-- The ways a step fails to take leave, by what is known before it. -/
inductive Lapses (P : Primitives) (older : Past) (a : RoomActor) (input : Input) : Prop
  | stranded : isLost input.event = false →
      Strands P input.rng { a with now := input.now }
        (Expels { a with now := input.now } input.event) → Lapses P older a input
  | released (connection : ConnectionId) : Departed older connection →
      a.Releases input.event connection → Lapses P older a input
  | rebuffed (connection : ConnectionId) : Departed older connection →
      a.Rebuffs input.event connection → Lapses P older a input

/-! ### Departed connections stay unknown -/

/-- Connections the transport has shown to the room. -/
def Shown (past : Past) (a : RoomActor) (c : ConnectionId) : Prop :=
  c = a.hostConnection ∨ ∃ entry ∈ past, entry.input.event = .clientConnected c

theorem Started.shown (hstart : Started P setup a₀ started) (hknown : a₀.Knows c) :
    Shown [] a₀ c := by
  obtain ⟨nickname, sessionId, token, key, wraps, hopening⟩ := hstart.opening
  obtain ⟨entry, hget⟩ := hknown
  rw [hopening.actor] at hget ⊢
  change ((Connections.new.register setup.hostConnection).promote setup.hostConnection 0).1.get c =
    some entry at hget
  by_cases hhost : c = setup.hostConnection
  · exact .inl hhost
  · rw [Connections.promote, Connections.get_update, if_neg hhost, Connections.get_register,
      if_neg hhost] at hget
    cases hget

theorem Run.departed (hstart : Started P setup a₀ started)
    (run : Run P FreshConnection a₀ past a) :
    (∀ c, a.Knows c → Shown past a c) ∧ ∀ c, Departed past c → ¬ a.Knows c ∧ Shown past a c := by
  induction run with
  | start =>
      refine ⟨fun c => hstart.shown, ?_⟩
      rintro c ⟨entry, hentry, -⟩
      cases hentry
  | @step past a input run fresh ih =>
      obtain ⟨hshown, hdeparted⟩ := ih
      have hvalid := Run.valid hstart.valid run
      have hsame :=
        (handleEventAt_effect P input.rng hvalid input.event input.now).step.hostConnection
      have hkeep : ∀ c, Shown past a c → Shown (⟨a, input, (a.handle P input).2,
          (a.handle P input).1⟩ :: past) (a.handle P input).1 c := by
        rintro c (hhost | ⟨entry, hentry, hevent⟩)
        · exact .inl (hhost.trans hsame.symm)
        · exact .inr ⟨entry, .tail _ hentry, hevent⟩
      have hnext : ∀ c, (a.handle P input).1.Knows c → Shown (⟨a, input, (a.handle P input).2,
          (a.handle P input).1⟩ :: past) (a.handle P input).1 c := by
        intro c hknown
        obtain ⟨entry, hget⟩ := hknown
        obtain hevent | hknown := handle_known hvalid hget
        · exact .inr ⟨_, .head _, hevent⟩
        · exact hkeep c (hshown c hknown)
      refine ⟨hnext, ?_⟩
      rintro c ⟨entry, hentry, hbefore, hafter⟩
      cases hentry with
      | head => exact ⟨hafter, hkeep c (hshown c hbefore)⟩
      | tail _ hentry =>
          obtain ⟨hunknown, hseen⟩ := hdeparted c ⟨entry, hentry, hbefore, hafter⟩
          refine ⟨fun ⟨entry, hget⟩ => ?_, hkeep c hseen⟩
          obtain hevent | hknown := handle_known hvalid hget
          · obtain ⟨hhost, hnew⟩ := fresh c hevent
            obtain hsame | ⟨entry, hentry, hevent⟩ := hseen
            · exact hhost hsame
            · exact hnew entry hentry hevent
          · exact hunknown hknown

/-! ### Steps and runs -/

theorem takesLeave_iff (hstart : Started P setup a₀ started)
    (run : Run P FreshConnection a₀ older a) (input : Input) :
    TakesLeave older ⟨a, input, (a.handle P input).2, (a.handle P input).1⟩ ↔
      ¬ Lapses P older a input := by
  have htraffic := handleEventAt_traffic P input.rng (Run.valid hstart.valid run)
    input.event input.now
  constructor
  · intro hleave hlapse
    cases hlapse with
    | stranded hlost hstrands =>
        exact (htraffic.closed_iff hlost).mp (hleave.closed hlost) hstrands
    | released _ hdeparted hreleases =>
        obtain ⟨message, hmem⟩ := hreleases.sends (P := P) input.now
        exact hleave.silent _ hdeparted message hmem
    | rebuffed _ hdeparted hrebuffs =>
        obtain ⟨message, hmem⟩ := hrebuffs.sends (P := P) input.now
        exact hleave.silent _ hdeparted message hmem
  · intro hnot
    refine ⟨fun hlost => ?_, fun c hdeparted message hmem => ?_⟩
    · exact (htraffic.closed_iff hlost).mpr fun hstrands => hnot (.stranded hlost hstrands)
    · obtain hknown | hreleases | hrebuffs := htraffic.sent c message hmem
      · exact ((Run.departed hstart run).2 c hdeparted).1 hknown
      · exact hnot (.released c hdeparted hreleases)
      · exact hnot (.rebuffed c hdeparted hrebuffs)

/-- Every step of a run takes leave of those that depart exactly when none lapses. -/
theorem courteous_iff (hstart : Started P setup a₀ started)
    (run : Run P FreshConnection a₀ past a) :
    Courteous past ↔ ∀ newer entry older, past = newer ++ entry :: older →
      ¬ Lapses P older entry.before entry.input := by
  refine forall_congr' fun newer => forall_congr' fun entry => forall_congr' fun older => ?_
  refine forall_congr' fun hpast => ?_
  subst hpast
  obtain ⟨hbefore, -, hstep, -⟩ := run.split
  obtain ⟨before, input, output, after⟩ := entry
  obtain rfl : after = (before.handle P input).1 := (congrArg Prod.fst hstep).symm
  obtain rfl : output = (before.handle P input).2 := (congrArg Prod.snd hstep).symm
  exact takesLeave_iff hstart hbefore input

end RoomActor

/-! ### The symbolic room -/

namespace Symbolic
open RoomActor

theorem visit_fresh : Run primitives FreshConnection room visited.1 visited.2 :=
  visit_orderly.mono fun _ _ _ orderly => orderly.fresh

/-- The guest is accepted, and its connection is lost before it acknowledges the epoch. -/
def abandon : List Input :=
  [.epochAck 0 1, .clientConnected 1, .passwordVerified 1, .joinRequested 1 application,
    .hostAccepted 0, .connectionLost 1].map fun event => ⟨event, 0, rng 11⟩

/-- The room once the guest has gone. -/
def abandoned : Past × RoomActor := script primitives room abandon

def lastAck : Input := ⟨.epochAck 0 3, 0, rng 11⟩

theorem abandon_orderly : Run primitives (Orderly primitives) room abandoned.1 abandoned.2 := by
  refine orderly_script room_started ?_ ?_ (by decide) (by decide)
  · intro input hinput
    obtain ⟨event, -, rfl⟩ := List.mem_map.mp hinput
    exact rng_succeeds 11
  · intro input hinput c application' hevent
    simp only [abandon, List.map_cons, List.map_nil, List.mem_cons, List.not_mem_nil, or_false]
      at hinput
    obtain rfl | rfl | rfl | rfl | rfl | rfl := hinput <;> cases hevent
    exact application_released

end Symbolic

namespace RoomActor
open Symbolic

theorem courteous_iff_visit :
    (visited.2.connections.get 1).isNone ∧ (Courteous visited.1 ↔
      ∀ newer entry older, visited.1 = newer ++ entry :: older →
        ¬ Lapses primitives older entry.before entry.input) :=
  ⟨by decide +kernel, courteous_iff room_started visit_fresh⟩

/-- The snapshot queued for the guest is sent to its connection after that left. -/
theorem sent_to_departed :
    ∃ entry older a, Run primitives FreshConnection room (entry :: older) a ∧ Departed older 1 ∧
      ∃ message, .sendTo 1 message ∈ actionsOf entry.output := by
  have hrun := abandon_orderly.mono fun _ _ _ orderly => orderly.fresh
  have hfresh : FreshConnection abandoned.1 abandoned.2 lastAck := fun c hevent => nomatch hevent
  refine ⟨_, abandoned.1, _, hrun.step hfresh, ?_, ?_⟩
  · have hleft : ∃ entry ∈ abandoned.1, (entry.before.connections.get 1).isSome = true ∧
        (entry.after.connections.get 1).isNone = true := by decide +kernel
    obtain ⟨entry, hentry, hbefore, hafter⟩ := hleft
    refine ⟨entry, hentry, Option.isSome_iff_exists.mp hbefore, ?_⟩
    rintro ⟨found, hget⟩
    rw [hget] at hafter
    cases hafter
  · have hsent :
        (sentTo 1 (actionsOf (abandoned.2.handle primitives lastAck).2)).isEmpty = false := by
      decide +kernel
    obtain ⟨message, hmessage⟩ := List.exists_mem_of_ne_nil _ (List.isEmpty_eq_false_iff.mp hsent)
    exact ⟨message, mem_sentTo.mp hmessage⟩

end RoomActor

end Veilroom
