import Veilroom.Host.Invitations

/-!
The host supervisor and the room task with the bound of the two queues between
them: where each of them waits for space, and when both do.

A branch of the supervisor does its local work at once and then submits its
events one by one; the room task takes an event and then offers its batch. Each
session is a session without the bound, a little behind.
-/
namespace Veilroom

/-- `room::task::EVENT_QUEUE_CAPACITY`, of both queues. -/
def eventQueueCapacity : Nat := 64

structure BoundedSession where
  session : HostSession
  /-- What the supervisor's branch still has to submit; empty at `select!`. -/
  submitting : List RoomEvent
  /-- The batch the room task holds. -/
  offering : Option (List RoomAction)

namespace BoundedSession
variable (P : Primitives) (debug : Message → String)

inductive Input
  /-- A branch of the supervisor that takes no actions. -/
  | supervisor (input : Supervisor.Input)
  /-- The branch that takes a batch. -/
  | actions (answers : Nat → Supervisor.ActionInput)
  /-- `RoomTask::send` finds space. -/
  | submit
  /-- The room task receives an event. -/
  | room (now cleanupNow : Duration) (rng cleanupRng : Rng)
  /-- Its batch finds space. -/
  | offer

/-- A branch of the supervisor that ends in `next` with these events to submit. -/
def branch (s : BoundedSession) (next : HostSession) (submitting : List RoomEvent) :
    BoundedSession :=
  { s with session := { next with events := s.session.events }, submitting }

def step (s : BoundedSession) : Input → BoundedSession
  | .supervisor input =>
    if s.submitting = [] then
      let (next, output) := s.session.supervise P debug input
      s.branch next output.submitted
    else s
  | .actions answers =>
    match s.submitting, s.session.batches with
    | [], batch :: batches =>
      let (next, output) := ({ s.session with batches } : HostSession).supervise P debug
        (.actions (HostSession.answered answers batch))
      s.branch next output.submitted
    | _, _ => s
  | .submit =>
    match s.submitting with
    | [] => s
    | event :: submitting =>
      if s.session.events.length < eventQueueCapacity then
        { s with session := { s.session with events := s.session.events ++ [event] }, submitting }
      else s
  | .room now cleanupNow rng cleanupRng =>
    match s.offering, s.session.events with
    | none, event :: events =>
      let (room, batch) :=
        RoomTask.receive P s.session.room ⟨⟨event, now, rng⟩, cleanupNow, cleanupRng⟩
      { s with
        session := { s.session with room, events }
        offering := if batch.isEmpty then none else some batch }
    | _, _ => s
  | .offer =>
    match s.offering with
    | none => s
    | some batch =>
      if s.session.batches.length < eventQueueCapacity then
        { s with
          session := { s.session with batches := s.session.batches ++ [batch] }, offering := none }
      else s

/-- The session as it enters its loop, with the events of its start still to be submitted. -/
def start (s : HostSession) : BoundedSession := ⟨{ s with events := [] }, s.events, none⟩

/-! ### The session without the bound -/

/-- What is on its way into a queue is in it. -/
def unbounded (s : BoundedSession) : HostSession :=
  { s.session with
    events := s.session.events ++ s.submitting
    batches := s.session.batches ++ s.offering.toList }

/-! ### Waiting -/

/-- The room task waits for space in the action queue. -/
def RoomWaits (s : BoundedSession) : Prop :=
  s.offering.isSome = true ∧ eventQueueCapacity ≤ s.session.batches.length

/-- The queues are within their bound. -/
structure Within (s : BoundedSession) : Prop where
  events : s.session.events.length ≤ eventQueueCapacity
  batches : s.session.batches.length ≤ eventQueueCapacity

variable {P debug} {s s₀ : BoundedSession}

theorem Within.step (h : s.Within) (input : Input) : (s.step P debug input).Within := by
  have hevents := h.events
  have hbatches := h.batches
  cases input with
  | supervisor input =>
      simp only [BoundedSession.step]
      split
      · exact ⟨hevents, hbatches⟩
      · exact h
  | actions answers =>
      simp only [BoundedSession.step]
      split
      · rename_i heq
        rw [heq, List.length_cons] at hbatches
        exact ⟨hevents, Nat.le_of_succ_le hbatches⟩
      · exact h
  | submit =>
      simp only [BoundedSession.step]
      split
      · exact h
      split
      · rename_i hspace
        exact ⟨by simpa [Nat.succ_le_iff] using hspace, hbatches⟩
      · exact h
  | room now cleanupNow rng cleanupRng =>
      simp only [BoundedSession.step]
      split
      · rename_i heq
        rw [heq, List.length_cons] at hevents
        exact ⟨Nat.le_of_succ_le hevents, hbatches⟩
      · exact h
  | offer =>
      simp only [BoundedSession.step]
      split
      · exact h
      split
      · rename_i hspace
        exact ⟨hevents, by simpa [Nat.succ_le_iff] using hspace⟩
      · exact h

/-! ### What is pending -/

/-- The supervisor goes on with its branch until it has to wait. -/
def submits (P : Primitives) (debug : Message → String) (s : BoundedSession) : Nat → BoundedSession
  | 0 => s
  | n + 1 => submits P debug (s.step P debug .submit) n

/-- A branch that starts while the room task waits has no more events than the event queue takes;
and an event whose batch finds the action queue full leaves no more behind than it takes. -/
def Fits (P : Primitives) (debug : Message → String) (s : BoundedSession) : Input → Prop
  | .supervisor input =>
    s.submitting = [] → s.RoomWaits → s.session.events.length +
      (s.session.supervisor.step P debug input).2.events.length ≤ eventQueueCapacity
  | .room now cleanupNow rng cleanupRng =>
    ∀ event events, s.offering = none → s.session.events = event :: events →
      eventQueueCapacity ≤ s.session.batches.length →
      (RoomTask.receive P s.session.room ⟨⟨event, now, rng⟩, cleanupNow, cleanupRng⟩).2 ≠ [] →
      events.length + s.submitting.length ≤ eventQueueCapacity
  | _ => True

abbrev Entry := Machine.Entry BoundedSession Input Unit
abbrev Past := List Entry

/-- Any schedule of the supervisor and the room task, with messages only on accepted
connections. -/
def Arrives (_ : Past) (s : BoundedSession) (input : Input) : Prop :=
  match input with
  | .supervisor (.actions _) => False
  | .supervisor input => Supervisor.Arrives [] s.session.supervisor input
  | _ => True

abbrev Run (P : Primitives) (debug : Message → String) (s₀ : BoundedSession) (past : Past)
    (s : BoundedSession) : Prop :=
  Machine.Run (fun s input => (s.step P debug input, ())) Arrives s₀ past s

/-- A step is a step of the session without the bound, or none. -/
theorem unbounded_step {input : Input} (harrives : Arrives [] s input) :
    (s.step P debug input).unbounded = s.unbounded ∨
      ∃ round, s.unbounded.Arrives round ∧
        (s.step P debug input).unbounded = (s.unbounded.step P debug round).1 := by
  cases input with
  | supervisor input =>
      simp only [step]
      split
      · rename_i hidle
        refine .inr ⟨.supervisor input, by cases input <;> exact harrives, ?_⟩
        simp [unbounded, branch, HostSession.step, HostSession.supervise, hidle]
      · exact .inl rfl
  | actions answers =>
      simp only [step]
      split
      · rename_i batch batches hidle hbatches
        refine .inr ⟨.actions answers, trivial, ?_⟩
        simp [unbounded, branch, HostSession.step, HostSession.supervise, hidle, hbatches]
      · exact .inl rfl
  | submit =>
      simp only [step]
      split
      · exact .inl rfl
      rename_i event submitting hsubmitting
      split
      · left
        simp [unbounded, hsubmitting]
      · exact .inl rfl
  | room now cleanupNow rng cleanupRng =>
      simp only [step]
      split
      · rename_i event events hoffering hevents
        refine .inr ⟨.room now cleanupNow rng cleanupRng, trivial, ?_⟩
        simp only [unbounded, HostSession.step, HostSession.receive, hoffering, hevents,
          List.cons_append, Option.toList_none, List.append_nil]
        split <;> simp
      · exact .inl rfl
  | offer =>
      simp only [step]
      split
      · exact .inl rfl
      rename_i batch hoffering
      split
      · left
        simp [unbounded, hoffering]
      · exact .inl rfl

/-- Every run with the bound is a run without it. -/
theorem unbounded_of_run {session : HostSession} {past : Past}
    (run : Run P debug (start session) past s) :
    ∃ rounds, HostSession.Run P debug (fun _ _ _ => True) session rounds s.unbounded := by
  induction run with
  | start =>
      have hsession : (start session).unbounded = session := by
        obtain ⟨_, _, _, _⟩ := session
        simp [unbounded, start]
      rw [hsession]
      exact ⟨[], .start⟩
  | step _ harrives ih =>
      obtain ⟨rounds, hrun⟩ := ih
      obtain heq | ⟨round, hround, heq⟩ := unbounded_step (P := P) harrives
      · rw [heq]
        exact ⟨rounds, hrun⟩
      · rw [heq]
        exact ⟨_, .step hrun ⟨hround, trivial⟩⟩

/-- The answer of a room to `/requests`, an error once it is over. -/
private theorem handle_requests (a : RoomActor) (now : Duration) (rng : Rng) :
    a.handle P ⟨.hostCommand .requests, now, rng⟩ = ({ a with now }, .error .roomClosed) ∨
      ∃ notice, a.handle P ⟨.hostCommand .requests, now, rng⟩ =
        ({ a with now }, .ok [.notifyHost notice]) := by
  simp only [RoomActor.handle, RoomActor.handleEventAt]
  split
  · exact .inl rfl
  split
  · exact .inr ⟨_, rfl⟩
  · exact .inr ⟨_, rfl⟩

theorem receive_requests (a : RoomActor) (now cleanupNow : Duration) (rng cleanupRng : Rng) :
    (RoomTask.receive P a ⟨⟨.hostCommand .requests, now, rng⟩, cleanupNow, cleanupRng⟩).2 ≠ [] := by
  obtain heq | ⟨notice, heq⟩ := handle_requests (P := P) a now rng
  · simp [RoomTask.receive, heq, RoomTask.offender, RoomError.isTransient]
  · simp [RoomTask.receive, heq]

/-- The host types `/requests`. -/
def typed : Input := .supervisor (.key (.host .requests))

/-- The command is in the event queue. -/
def asked (s : BoundedSession) : BoundedSession :=
  { s with session :=
    { s.session with events := s.session.events ++ [.hostCommand .requests] } }

theorem typed_step (hidle : s.submitting = []) :
    s.step P debug typed = { s with submitting := [.hostCommand .requests] } := by
  simp [typed, step, branch, HostSession.supervise, Supervisor.step, Supervisor.onKey, hidle]

/-- What a run can reach. -/
def Reaches (P : Primitives) (debug : Message → String) (s₀ s : BoundedSession) : Prop :=
  ∃ past, Run P debug s₀ past s

theorem Reaches.step (h : Reaches P debug s₀ s) (input : Input) (harrives : Arrives [] s input) :
    Reaches P debug s₀ (s.step P debug input) := by
  obtain ⟨past, run⟩ := h
  exact ⟨_, .step run harrives⟩

theorem Reaches.ask (h : Reaches P debug s₀ s) (hidle : s.submitting = [])
    (hspace : s.session.events.length < eventQueueCapacity) : Reaches P debug s₀ s.asked := by
  have htyped : Reaches P debug s₀ (s.step P debug typed) := h.step typed trivial
  rw [typed_step hidle] at htyped
  have hsubmitted := htyped.step .submit trivial
  simp only [BoundedSession.step, if_pos hspace] at hsubmitted
  have hasked : s.asked = { s.asked with submitting := [] } := by
    rw [← hidle]
    rfl
  rw [hasked]
  exact hsubmitted

/-- The room task receives its next event: it holds a batch, or goes on to the event after it. -/
theorem Reaches.receive (h : Reaches P debug s₀ s) (hoffering : s.offering = none)
    {event : RoomEvent} {events : List RoomEvent} (hevents : s.session.events = event :: events) :
    ∃ t, Reaches P debug s₀ t ∧ t.submitting = s.submitting ∧
      t.session.batches = s.session.batches ∧ t.session.events = events ∧
      (t.offering.isSome = true ∨ t.offering = none ∧ event ≠ .hostCommand .requests) := by
  have hnext : Reaches P debug s₀ (s.step P debug (.room 0 0 ⟨none, none, fun _ => none⟩
      ⟨none, none, fun _ => none⟩)) := h.step _ trivial
  simp only [BoundedSession.step, hoffering, hevents] at hnext
  refine ⟨_, hnext, rfl, rfl, rfl, ?_⟩
  dsimp only
  split
  · rename_i hempty
    refine .inr ⟨rfl, ?_⟩
    rintro rfl
    exact receive_requests _ _ _ _ _ (List.isEmpty_iff.mp hempty)
  · exact .inl rfl

/-- The room task comes to hold a batch. -/
theorem Reaches.hold (h : Reaches P debug s₀ s) (hidle : s.submitting = []) :
    ∃ t, Reaches P debug s₀ t ∧ t.submitting = [] ∧ t.offering.isSome = true ∧
      t.session.batches = s.session.batches := by
  generalize hevents : s.session.events = events
  induction events generalizing s with
  | nil =>
      cases hoffering : s.offering with
      | some batch => exact ⟨s, h, hidle, by simp [hoffering], rfl⟩
      | none =>
          have hasked := h.ask hidle (by simp [hevents, eventQueueCapacity])
          obtain ⟨t, ht, hsubmitting, hbatches, -, hheld | ⟨-, hne⟩⟩ :=
            hasked.receive hoffering (show s.asked.session.events = .hostCommand .requests :: [] by
              simp [asked, hevents])
          · exact ⟨t, ht, hsubmitting.trans hidle, hheld, hbatches⟩
          · exact absurd rfl hne
  | cons event events ih =>
      cases hoffering : s.offering with
      | some batch => exact ⟨s, h, hidle, by simp [hoffering], rfl⟩
      | none =>
          obtain ⟨t, ht, hsubmitting, hbatches, hrest, hheld | -⟩ := h.receive hoffering hevents
          · exact ⟨t, ht, hsubmitting.trans hidle, hheld, hbatches⟩
          · rw [← hbatches]
            exact ih ht (hsubmitting.trans hidle) hrest

/-- The action queue fills while the supervisor takes nothing from it. -/
theorem Reaches.fill (h : Reaches P debug s₀ s) (hidle : s.submitting = []) :
    ∃ t, Reaches P debug s₀ t ∧ t.submitting = [] ∧ t.RoomWaits := by
  generalize hspace : eventQueueCapacity - s.session.batches.length = space
  induction space generalizing s with
  | zero =>
      obtain ⟨t, ht, hsubmitting, hheld, hbatches⟩ := h.hold hidle
      exact ⟨t, ht, hsubmitting, hheld, by rw [hbatches]; omega⟩
  | succ space ih =>
      obtain ⟨t, ht, hsubmitting, hheld, hbatches⟩ := h.hold hidle
      obtain ⟨batch, hbatch⟩ := Option.isSome_iff_exists.mp hheld
      have hoffered : Reaches P debug s₀ (t.step P debug .offer) := ht.step .offer trivial
      simp only [BoundedSession.step, hbatch] at hoffered
      rw [if_pos (by rw [hbatches]; omega)] at hoffered
      apply ih hoffered hsubmitting
      simp only [List.length_append, List.length_singleton, hbatches]
      omega

/-- A step more. -/
private theorem Run.next {past : Past} (run : Run P debug s₀ past s) (input : Input)
    (harrives : Arrives past s input) :
    Run P debug s₀ (⟨s, input, (), s.step P debug input⟩ :: past) (s.step P debug input) :=
  .step run harrives

end BoundedSession

end Veilroom
