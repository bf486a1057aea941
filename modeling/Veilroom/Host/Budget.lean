import Veilroom.Host.Trials
import Veilroom.Room.Recipients

/-!
The budget of password guesses, over whole runs: whatever connects, speaks,
closes or times out, a lockout leaves at most the connections that were there
when it began.

The supervisor keeps the budget as long as the room writes only to connections
that asked to join, or closes them; over the session the room does.
-/
namespace Veilroom
open RoomActor (Directed Grants Within)

namespace Supervisor
variable {P : Primitives} {debug : Message → String} {s₀ s : Supervisor} {past older : Past}
variable {id : ConnectionId} {entry : Entry} {limits : Limits}

/-- The reading of the clock that a step takes to the guard. -/
def guardClock : Input → Option Duration
  | .connect input | .inbound _ _ input => some input.now
  | _ => none

/-- The accept loop has one limit, the clock does not go back, and the room is careful whom it
writes to. -/
structure Careful (limits : Limits) (past : Past) (s : Supervisor) (input : Input) : Prop where
  arrives : Arrives past s input
  limits : ∀ l, input = .stream l → l = limits
  clock : ∀ now, guardClock input = some now → ∀ entry ∈ past, ∀ earlier,
    guardClock entry.input = some earlier → earlier ≤ now
  directed : ∀ batch, input = .actions batch → Directed s.Served (batch.map Prod.fst)

abbrev CarefulRun (P : Primitives) (debug : Message → String) (limits : Limits)
    (s₀ : Supervisor) (past : Past) (s : Supervisor) : Prop :=
  Machine.Run (step P debug) (Careful limits) s₀ past s

theorem CarefulRun.run (run : CarefulRun P debug limits s₀ past s) : Run P debug s₀ past s :=
  run.mono fun _ _ _ careful => careful.arrives

/-- The connection whose proof the step tried. -/
def tried (entry : Entry) : Option ConnectionId := judged entry.input entry.output

/-- The step starts a lockout that lasts until `deadline`. -/
def LocksOut (deadline : Duration) (entry : Entry) : Prop :=
  entry.before.passwordGuard.lockouts < entry.after.passwordGuard.lockouts ∧
    entry.after.passwordGuard.lockedUntil = some deadline

/-- No flow is created while the guard is locked, no connection is tried twice, and the trials
between the start of a lockout and its deadline are no more than the accept loop lets wait, all of
connections whose flow was created before. -/
structure WithinBudget (limits : Limits) (past : Past) : Prop where
  created : ∀ entry ∈ past, ∀ id, .clientConnected id ∈ entry.output.events →
    ∃ input, entry.input = .connect input ∧
      entry.before.passwordGuard.remaining input.now = none
  once : (past.filterMap tried).Nodup
  lockout : ∀ newer lock older deadline, past = newer ++ lock :: older →
    LocksOut deadline lock →
    (∀ entry ∈ newer, ∀ now, guardClock entry.input = some now → now < deadline) →
    (newer.filterMap tried).length ≤ limits.maxPreAuthConnections ∧
      ∀ id ∈ newer.filterMap tried, ∃ entry ∈ older,
        .clientConnected id ∈ entry.output.events

/-! ### Invariants -/

theorem vouched_of_run (hstart : s₀.Starts) (hclient : id ≠ hostConnectionId)
    (run : CarefulRun P debug limits s₀ past s) : Vouched id s := by
  induction run with
  | start => exact ⟨by simp [hstart.network, HostNetwork.listen], by simp [hstart.connections]⟩
  | step run careful ih =>
      refine ih.step hclient (gated_of_run hstart hclient (CarefulRun.run run)) ?_
      rintro batch hinput ⟨message, hmem⟩
      exact careful.directed batch hinput id message hmem

theorem preAuth_of_run (hstart : s₀.Starts) (run : CarefulRun P debug limits s₀ past s) :
    s.network.preAuthConnections ≤ limits.maxPreAuthConnections := by
  induction run with
  | start => simp [hstart.network, HostNetwork.listen, HostNetwork.preAuthConnections]
  | step _ careful ih => exact preAuth_of_step ih careful.limits

/-- A flow that was not there is announced when it is created. -/
theorem announced_of_flow (hclient : id ≠ hostConnectionId) {input : Input}
    (hnone : s.connections id = none) {c : HostConnection}
    (hc : (s.step P debug input).1.connections id = some c) :
    .clientConnected id ∈ (s.step P debug input).2.events := by
  have hturn := step_turn P debug hclient s input
  generalize step P debug s input = result at hturn hc ⊢
  obtain ⟨s', output⟩ := result
  dsimp only at hturn hc ⊢
  cases hturn with
  | handles hbefore _ _ _ => cases hnone.symm.trans hbefore
  | fails _ _ hgone _ _ => cases hgone.symm.trans hc
  | opens _ _ _ _ _ hevents => simp [hevents]
  | aside _ hkept _ _ _ =>
      obtain ⟨before, hbefore, -⟩ := hkept c hc
      cases hnone.symm.trans hbefore

/-- A flow was created in some step. -/
theorem opened_of_run (hstart : s₀.Starts) (hclient : id ≠ hostConnectionId)
    (run : Run P debug s₀ past s) {c : HostConnection} (hc : s.connections id = some c) :
    ∃ entry ∈ past, .clientConnected id ∈ entry.output.events := by
  induction run generalizing c with
  | start => simp [hstart.connections] at hc
  | @step past s input run _ ih =>
      cases hbefore : s.connections id with
      | none => exact ⟨_, .head _, announced_of_flow hclient hbefore hc⟩
      | some before =>
          obtain ⟨entry, hentry, hcreated⟩ := ih hbefore
          exact ⟨entry, .tail _ hentry, hcreated⟩

theorem client_of_tried {input : Input} {output : SupervisorOutput}
    (harrives : Arrives past s input) (h : judged input output = some id) :
    id ≠ hostConnectionId := by
  unfold judged at h
  split at h
  · split at h
    · cases h
      exact harrives.1.ne'
    · cases h
  · cases h

theorem tried_of_run (hstart : s₀.Starts) (run : Run P debug s₀ past s) :
    (past.filterMap tried).Nodup ∧
      ∀ id ∈ past.filterMap tried, id ≠ hostConnectionId ∧ Tried id s := by
  induction run with
  | start => exact ⟨List.nodup_nil, nofun⟩
  | @step past s input run arrives ih =>
      obtain ⟨hnodup, htried⟩ := ih
      have hkept : ∀ id ∈ past.filterMap tried, id ≠ hostConnectionId ∧
          Tried id (s.step P debug input).1 := by
        intro id hid
        obtain ⟨hclient, h⟩ := htried id hid
        exact ⟨hclient, (h.turn (step_turn P debug hclient s input)).1⟩
      cases hjudged : tried ⟨s, input, (s.step P debug input).2, (s.step P debug input).1⟩ with
      | none =>
          rw [List.filterMap_cons_none hjudged]
          exact ⟨hnodup, hkept⟩
      | some id =>
          have hclient := client_of_tried arrives hjudged
          have hturn := step_turn P debug hclient s input
          have hfirst : id ∉ past.filterMap tried := by
            intro hid
            exact ((htried id hid).2.turn hturn).2 hjudged
          have hover := (hturn.judged (gated_of_run hstart hclient run) hjudged).2
          rw [List.filterMap_cons_some hjudged]
          exact ⟨List.nodup_cons.mpr ⟨hfirst, hnodup⟩,
            List.forall_mem_cons.mpr ⟨⟨hclient, hover⟩, hkept⟩⟩

/-! ### A lockout -/

/-- What is so from the start of a lockout to its deadline. -/
structure Lockout (start deadline : Duration) (locked : Supervisor) (trials : List ConnectionId)
    (s : Supervisor) : Prop where
  guard : s.passwordGuard.LockedUntil start deadline
  awaiting : ∀ id, id ≠ hostConnectionId → Awaits id s → Awaits id locked
  trials : ∀ id ∈ trials, Awaits id locked

/-- The failure that starts a lockout. -/
theorem LocksOut.start {deadline : Duration} {input : Input}
    (h : LocksOut deadline ⟨s, input, (s.step P debug input).2, (s.step P debug input).1⟩) :
    ∃ c message i, input = .inbound c message i ∧
      Lockout i.now deadline (s.step P debug input).1 [] (s.step P debug input).1 := by
  obtain ⟨hraised, hdeadline⟩ := h
  obtain hsame | ⟨c, message, i, hinput, hguard⟩ := guard_of_step P debug s input
  · dsimp only at hraised
    rw [hsame] at hraised
    exact absurd hraised (lt_irrefl _)
  · refine ⟨c, message, i, hinput, ?_, fun _ _ h => h, nofun⟩
    dsimp only at hraised hdeadline
    rw [hguard] at hraised hdeadline ⊢
    exact PasswordGuard.lockedUntil_of_raised hraised hdeadline

/-- A step before the deadline creates no flow, and tries a connection that was there. -/
theorem Lockout.step {start deadline : Duration} {locked : Supervisor}
    {trials : List ConnectionId} {input : Input} (h : Lockout start deadline locked trials s)
    (hstart : s₀.Starts) (run : CarefulRun P debug limits s₀ past s)
    (careful : Careful limits past s input)
    (hclock : ∀ now, guardClock input = some now → start ≤ now ∧ now < deadline) :
    Lockout start deadline locked
      ((judged input (s.step P debug input).2).toList ++ trials) (s.step P debug input).1 := by
  have hopens (id : ConnectionId) : .clientConnected id ∉ (s.step P debug input).2.events := by
    intro hmem
    obtain ⟨i, rest, rfl, -, -, hremaining, -⟩ := announced_of_step hmem
    have hlocked := h.guard.remaining (hclock i.now rfl).2
    simp [hremaining] at hlocked
  constructor
  · obtain hsame | ⟨c, message, i, rfl, hguard⟩ := guard_of_step P debug s input
    · rw [hsame]
      exact h.guard
    · rw [hguard]
      exact h.guard.recordFailure (hclock i.now rfl).1
  · intro id hclient hawaits
    apply h.awaiting id hclient
    exact hawaits.before (step_turn P debug hclient s input)
      (gated_of_run hstart hclient (CarefulRun.run run)) (hopens id)
  · intro id hid
    obtain hid | hid := List.mem_append.mp hid
    · have hjudged := Option.mem_toList.mp hid
      have hclient := client_of_tried careful.arrives hjudged
      have hturn := step_turn P debug hclient s input
      obtain ⟨⟨c, hc, hstate⟩, -⟩ :=
        hturn.judged (gated_of_run hstart hclient (CarefulRun.run run)) hjudged
      have hlive := (vouched_of_run hstart hclient run).live c hc hstate
      exact h.awaiting id hclient ⟨⟨c, hc, by simp [hstate], by simp [hstate]⟩, hlive⟩
    · exact h.trials id hid

theorem lockout_of_run {newer : Past} {lock : Entry} {deadline : Duration} (hstart : s₀.Starts)
    (run : CarefulRun P debug limits s₀ (newer ++ lock :: older) s)
    (hlocks : LocksOut deadline lock)
    (hbefore : ∀ entry ∈ newer, ∀ now, guardClock entry.input = some now → now < deadline) :
    ∃ c message i, lock.input = .inbound c message i ∧
      Lockout i.now deadline lock.after (newer.filterMap tried) s := by
  induction newer generalizing s with
  | nil =>
      cases run with
      | step _ _ => exact hlocks.start
  | cons entry newer ih =>
      cases run with
      | @step _ s input run careful =>
          rw [List.forall_mem_cons] at hbefore
          obtain ⟨c, message, i, hinput, h⟩ := ih run hbefore.2
          refine ⟨c, message, i, hinput, ?_⟩
          have hnext := h.step hstart run careful fun now hnow => by
            refine ⟨careful.clock now hnow lock (List.mem_append_right _ (.head _)) i.now ?_,
              hbefore.1 now hnow⟩
            rw [hinput]
            rfl
          cases hjudged : judged input (s.step P debug input).2 <;>
            simpa [List.filterMap_cons, tried, hjudged] using hnext

/-- The peers of the connections that await their trial are waiting before admission. -/
theorem awaiting_le {ids : List ConnectionId} (hnodup : ids.Nodup)
    (h : ∀ id ∈ ids, Awaits id s ∧ Vouched id s) :
    ids.length ≤ s.network.preAuthConnections := by
  have hsubset : ids ⊆ (s.network.peers.filter fun peer => !peer.admitted).map
      Peer.connection := by
    intro id hid
    obtain ⟨⟨⟨c, hc, -, hdecided⟩, hlive⟩, hvouched⟩ := h id hid
    obtain ⟨peer, hmem, rfl⟩ := HostNetwork.isLive_iff.mp hlive
    refine List.mem_map_of_mem (List.mem_filter.mpr ⟨hmem, ?_⟩)
    rw [Bool.not_eq_true', Bool.eq_false_iff]
    intro hadmitted
    exact hdecided ((hvouched.admitted peer hmem rfl hadmitted).decided c hc)
  have hlength := (List.subperm_of_subset hnodup hsubset).length_le
  rwa [List.length_map] at hlength

/-- The supervisor keeps the budget over every careful run. -/
theorem withinBudget_of_run (hstart : s₀.Starts) (run : CarefulRun P debug limits s₀ past s) :
    WithinBudget limits past where
  created entry hentry id hcreated := by
    obtain ⟨newer, older, rfl⟩ := List.append_of_mem hentry
    obtain ⟨-, -, hstep, -⟩ := run.split
    have hmem : .clientConnected id ∈ (entry.before.step P debug entry.input).2.events := by
      rw [hstep]
      exact hcreated
    obtain ⟨i, rest, hinput, -, -, hremaining, -⟩ := announced_of_step hmem
    exact ⟨i, hinput, hremaining⟩
  once := (tried_of_run hstart (CarefulRun.run run)).1
  lockout := by
    rintro newer lock older deadline rfl hlocks hbefore
    obtain ⟨c, message, i, hinput, h⟩ := lockout_of_run hstart run hlocks hbefore
    obtain ⟨hnodup, hclients⟩ := tried_of_run hstart (CarefulRun.run run)
    obtain ⟨-, -, hstep, hrun⟩ := run.split
    rw [List.filterMap_append] at hnodup hclients
    have hclient (id : ConnectionId) (hid : id ∈ newer.filterMap tried) :
        id ≠ hostConnectionId := (hclients id (List.mem_append_left _ hid)).1
    constructor
    · refine (awaiting_le hnodup.of_append_left fun id hid => ?_).trans
        (preAuth_of_run hstart hrun)
      exact ⟨h.trials id hid, vouched_of_run hstart (hclient id hid) hrun⟩
    · intro id hid
      obtain ⟨flow, hflow, -⟩ := (h.trials id hid).flow
      obtain ⟨entry, hentry, hcreated⟩ :=
        opened_of_run hstart (hclient id hid) (CarefulRun.run hrun) hflow
      cases hentry with
      | tail _ hentry => exact ⟨entry, hentry, hcreated⟩
      | head =>
          have hmem : .clientConnected id ∈ (lock.before.step P debug lock.input).2.events := by
            rw [hstep]
            exact hcreated
          obtain ⟨_, _, hconnect, -⟩ := announced_of_step hmem
          cases hinput.symm.trans hconnect

end Supervisor

namespace Supervisor
variable {P : Primitives}

/-- Actions for the host alone leave connections and peers as they are. -/
theorem handleHostActions_host (s : Supervisor) {batch : List (RoomAction × ActionInput)}
    (hsend : ∀ c message, .sendTo c message ∈ batch.map Prod.fst → c = hostConnectionId)
    (hclose : ∀ c, .closeConnection c ∉ batch.map Prod.fst) :
    (s.handleHostActions P batch).1.connections = s.connections ∧
      (s.handleHostActions P batch).1.network = s.network := by
  induction batch generalizing s with
  | nil => exact ⟨rfl, rfl⟩
  | cons first rest ih =>
      obtain ⟨action, input⟩ := first
      rw [List.map_cons] at hsend hclose
      obtain ⟨hconnections, hnetwork⟩ := ih (s.onAction P action input).1
        (fun c message hmem => hsend c message (.tail _ hmem))
        fun c hmem => hclose c (.tail _ hmem)
      have hfirst : (s.onAction P action input).1.connections = s.connections ∧
          (s.onAction P action input).1.network = s.network := by
        cases action with
        | sendTo connection message =>
            have hinward := s.onOwnMessage_inward (P := P) message
            rw [onAction, if_pos (hsend connection message (.head _))]
            exact ⟨hinward.1, hinward.2.1⟩
        | closeConnection connection => exact absurd (.head _) (hclose connection)
        | notifyHost notice =>
            have hinward := s.onNotice_inward (P := P) input.nonce notice
            exact ⟨hinward.1, hinward.2.1⟩
      exact ⟨hconnections.trans hfirst.1, hnetwork.trans hfirst.2⟩

end Supervisor

/-! ### The session -/

namespace HostSession
variable {P : Primitives} {debug : Message → String} {s₀ s : HostSession} {past : Past}
variable {setup : Setup} {actions : List RoomAction} {before : Supervisor}
variable {answers : Nat → Supervisor.ActionInput} {limits : Limits}

/-- The step of the supervisor that a step of the session is, if it is one. -/
def supervisorInput (s : HostSession) : Input → Option Supervisor.Input
  | .supervisor input => some input
  | .room .. => none
  | .actions answers => s.batches.head?.map fun batch => .actions (answered answers batch)

/-- The run of the supervisor in a run of the session. -/
def rounds (P : Primitives) (debug : Message → String) (past : Past) : Supervisor.Past :=
  past.filterMap fun entry => (supervisorInput entry.before entry.input).map fun input =>
    ⟨entry.before.supervisor, input, (entry.before.supervisor.step P debug input).2,
      (entry.before.supervisor.step P debug input).1⟩

/-- The accept loop has one limit, and the clock of the supervisor does not go back. -/
structure Paced (limits : Limits) (past : Past) (_ : HostSession) (input : Input) : Prop where
  limits : ∀ l, input = .supervisor (.stream l) → l = limits
  clock : ∀ i now, input = .supervisor i → Supervisor.guardClock i = some now →
    ∀ entry ∈ past, ∀ j earlier, entry.input = .supervisor j →
      Supervisor.guardClock j = some earlier → earlier ≤ now

/-- The room writes, now and later, only to connections that asked to join, or closes them. -/
structure Attentive (s : HostSession) : Prop where
  room : Within s.supervisor.Served s.room
  events : ∀ event ∈ s.events, Grants s.supervisor.Served event
  batches : ∀ batch ∈ s.batches, Directed s.supervisor.Served batch

/-- What the supervisor submits makes the room take up only what asked to join. -/
theorem grants_of_step {supervisor : Supervisor} {earlier : Supervisor.Past}
    {first : Supervisor} (hstart : first.Starts)
    (run : Supervisor.Run P debug first earlier supervisor) (input : Supervisor.Input) :
    ∀ event ∈ (supervisor.step P debug input).2.events,
      Grants (supervisor.step P debug input).1.Served event := by
  have hgrants (id : ConnectionId) (event : RoomEvent) (hforwards : event.forwards id = true)
      (hverified : event ≠ .passwordVerified id)
      (hmem : event ∈ (supervisor.step P debug input).2.events) :
      (supervisor.step P debug input).1.Served id := by
    by_cases hclient : id = hostConnectionId
    · exact .inl hclient
    have hturn := Supervisor.step_turn P debug hclient supervisor input
    have hgated := Supervisor.gated_of_run hstart hclient run
    generalize supervisor.step P debug input = result at hturn hmem ⊢
    obtain ⟨supervisor', output⟩ := result
    dsimp only at hturn hmem ⊢
    have hloud : ¬ Supervisor.Silent id output.events := by
      intro hsilent
      rw [hsilent event hmem] at hforwards
      cases hforwards
    have hids := hturn.ids
    cases hturn with
    | @handles _ _ _ _ c c' hc hc' _ haccepts =>
        obtain ⟨hseen, hreceived, -⟩ := hgated.opened c hc
        have hspent (hdecided : c'.admission.state = .decided) : supervisor'.Served id := by
          refine .inr ⟨hseen.trans_le (Supervisor.nextId_le hids),
            Supervisor.not_waiting hids hseen hreceived, fun c₂ hc₂ => ?_⟩
          cases hc'.symm.trans hc₂
          exact hdecided
        cases haccepts with
        | hello _ _ _ _ _ | token _ _ _ _ | keepalive _ => cases hmem
        | proof _ _ _ _ _ => exact absurd (List.mem_singleton.mp hmem) hverified
        | request _ _ _ _ hafter => exact hspent hafter
        | member hdecided _ hafter _ => exact hspent (hafter ▸ hdecided)
    | fails _ _ _ _ hsilent | aside _ _ _ _ hsilent => exact absurd hsilent hloud
    | opens _ _ _ _ _ hevents =>
        rw [hevents] at hmem
        rw [List.mem_singleton.mp hmem] at hforwards
        cases hforwards
  intro event hmem
  cases event with
  | joinRequested c application =>
      exact hgrants c _ (by simp [RoomEvent.forwards]) (by simp) hmem
  | chatReceived c messageType envelope =>
      exact hgrants c _ (by simp [RoomEvent.forwards]) (by simp) hmem
  | _ => trivial

/-- A step of the supervisor, whatever it leaves of the batches. -/
theorem Attentive.supervised (h : Attentive s) {first : Supervisor} {earlier : Supervisor.Past}
    (hstart : first.Starts) (run : Supervisor.Run P debug first earlier s.supervisor)
    (input : Supervisor.Input) {batches : List (List RoomAction)}
    (hbatches : ∀ batch ∈ batches, batch ∈ s.batches) :
    Attentive { s with
      supervisor := (s.supervisor.step P debug input).1
      events := s.events ++ (s.supervisor.step P debug input).2.events
      batches } := by
  have hserved (c : ConnectionId) (hc : s.supervisor.Served c) :
      (s.supervisor.step P debug input).1.Served c := hc.step P debug input
  refine ⟨h.room.mono hserved, fun event hevent => ?_, fun batch hbatch => ?_⟩
  · obtain hevent | hevent := List.mem_append.mp hevent
    · exact (h.events event hevent).mono hserved
    · exact grants_of_step hstart run input event hevent
  · exact (h.batches batch (hbatches batch hbatch)).mono hserved

/-- A round of the room task. -/
theorem Attentive.received (h : Attentive s) (hvalid : s.room.registry.Valid) (input : TaskInput)
    {events : List RoomEvent} (hevents : s.events = input.event :: events) :
    Attentive { s with
      room := (RoomTask.receive P s.room input).1
      events
      batches := if (RoomTask.receive P s.room input).2.isEmpty then s.batches
        else s.batches ++ [(RoomTask.receive P s.room input).2] } := by
  have hqueued := h.events
  rw [hevents, List.forall_mem_cons] at hqueued
  obtain ⟨hholds, hdirected⟩ := RoomTask.receive_serves (P := P) h.room hvalid hqueued.1
  refine ⟨hholds, hqueued.2, fun batch hbatch => ?_⟩
  dsimp only at hbatch
  split at hbatch
  · exact h.batches batch hbatch
  · obtain hbatch | hbatch := List.mem_append.mp hbatch
    · exact h.batches batch hbatch
    · rw [List.mem_singleton.mp hbatch]
      exact hdirected

/-! ### The start -/

/-- The start of a room writes only to the host. -/
theorem host_of_started {room : RoomActor} (hstart : RoomActor.Started P setup room actions) :
    (∀ c message, .sendTo c message ∈ actions → c = setup.hostConnection) ∧
      ∀ c, .closeConnection c ∉ actions := by
  obtain ⟨nickname, sessionId, token, key, wraps, hopening⟩ := hstart.opening
  rw [hopening.actions]
  constructor
  · intro c message hmem
    obtain hmem | hmem := List.mem_cons.mp hmem
    · cases hmem
    · obtain ⟨m, hm, rfl⟩ := RoomActor.mem_wrapAll hopening.begins.wrapped hmem
      rw [List.mem_singleton.mp hm]
      rfl
  · intro c hmem
    obtain hmem | hmem := List.mem_cons.mp hmem
    · cases hmem
    · exact RoomActor.closeConnection_not_mem_wraps hopening.begins c hmem

theorem starts_of_started (hstart : Started P setup actions before answers s₀) :
    s₀.supervisor.Starts := by
  obtain ⟨hsend, hclose⟩ := host_of_started hstart.room
  rw [hstart.hostConnection] at hsend
  rw [← map_answered answers actions] at hsend hclose
  have hsame := before.handleHostActions_host (P := P) hsend hclose
  rw [hstart.supervisor]
  refine ⟨fun id => ?_, ?_⟩
  · rw [hsame.1]
    exact hstart.starts.connections id
  · rw [hsame.2]
    exact hstart.starts.network

theorem attentive_of_started (hstart : Started P setup actions before answers s₀) :
    Attentive s₀ := by
  refine ⟨?_, ?_, ?_⟩
  · obtain ⟨nickname, sessionId, token, key, wraps, hopening⟩ := hstart.room.opening
    rw [hopening.actor]
    refine ⟨fun m hm => ?_, nofun, nofun⟩
    rw [List.mem_singleton.mp hm]
    exact .inl hstart.hostConnection
  · have run : Supervisor.Run P (fun _ => "") before [] before := .start
    rw [hstart.events, hstart.supervisor]
    exact grants_of_step hstart.starts run (.actions (answered answers actions))
  · rw [hstart.batches]
    exact nofun

/-! ### Runs -/

theorem rounds_cons_none {entry : Entry}
    (h : supervisorInput entry.before entry.input = none) :
    rounds P debug (entry :: past) = rounds P debug past :=
  List.filterMap_cons_none (by rw [h]; rfl)

theorem rounds_cons_some {entry : Entry} {i : Supervisor.Input}
    (h : supervisorInput entry.before entry.input = some i) :
    rounds P debug (entry :: past) = ⟨entry.before.supervisor, i,
      (entry.before.supervisor.step P debug i).2, (entry.before.supervisor.step P debug i).1⟩ ::
      rounds P debug past :=
  List.filterMap_cons_some (by rw [h]; rfl)

/-- A reading the supervisor took came with an input of its own. -/
theorem clock_of_rounds {entry : Supervisor.Entry} {earlier : Duration}
    (h : entry ∈ rounds P debug past)
    (hclock : Supervisor.guardClock entry.input = some earlier) :
    ∃ e ∈ past, e.input = .supervisor entry.input := by
  obtain ⟨e, he, hentry⟩ := List.mem_filterMap.mp h
  obtain ⟨i, hi, rfl⟩ := Option.map_eq_some_iff.mp hentry
  refine ⟨e, he, ?_⟩
  unfold supervisorInput at hi
  split at hi
  · rename_i hinput
    cases hi
    exact hinput
  · cases hi
  · obtain ⟨batch, -, rfl⟩ := Option.map_eq_some_iff.mp hi
    cases hclock

/-- An input of the supervisor's own is careful. -/
theorem Paced.careful {i : Supervisor.Input} (h : Paced limits past s (.supervisor i))
    (harrives : s.Arrives (.supervisor i)) :
    Supervisor.Careful limits (rounds P debug past) s.supervisor i where
  arrives := by
    cases i with
    | inbound _ _ _ => exact harrives
    | _ => trivial
  limits l hl := h.limits l (congrArg _ hl)
  clock now hnow entry hentry earlier hearlier := by
    obtain ⟨e, he, hinput⟩ := clock_of_rounds hentry hearlier
    exact h.clock i now rfl hnow e he entry.input earlier hinput hearlier
  directed batch hbatch := by
    subst hbatch
    cases harrives

/-- So is a batch of an attentive room. -/
theorem Attentive.careful (h : Attentive s) {batch : List RoomAction} (hbatch : batch ∈ s.batches)
    (answers : Nat → Supervisor.ActionInput) :
    Supervisor.Careful limits (rounds P debug past) s.supervisor
      (.actions (answered answers batch)) where
  arrives := trivial
  limits := nofun
  clock := nofun
  directed := by
    rintro _ ⟨⟩
    rw [map_answered]
    exact h.batches batch hbatch

/-- The supervisor of a session is in a careful run. -/
theorem careful_of_run (hstart : Started P setup actions before answers s₀)
    (run : Run P debug (Paced limits) s₀ past s) :
    Supervisor.CarefulRun P debug limits s₀.supervisor (rounds P debug past) s.supervisor ∧
      Attentive s := by
  induction run with
  | start => exact ⟨.start, attentive_of_started hstart⟩
  | @step past s input run hallowed ih =>
      obtain ⟨hrun, hattentive⟩ := ih
      obtain ⟨harrives, hpaced⟩ := hallowed
      have hstarts := starts_of_started hstart
      have hplain := Supervisor.CarefulRun.run hrun
      have hvalid := Run.valid hstart run
      have hround := step_round P debug s input
      generalize s.step P debug input = result at hround ⊢
      obtain ⟨s', output⟩ := result
      cases hround with
      | waits _ => exact ⟨hrun, hattentive⟩
      | idles hbatches =>
          rw [rounds_cons_none (by simpa [supervisorInput] using hbatches)]
          exact ⟨hrun, hattentive⟩
      | received input hevents => exact ⟨hrun, hattentive.received hvalid input hevents⟩
      | supervised i =>
          refine ⟨?_, hattentive.supervised hstarts hplain i fun _ h => h⟩
          exact hrun.step (hpaced.careful harrives)
      | acted answers batch hbatches =>
          have hbatch : batch ∈ s.batches := hbatches ▸ .head _
          rw [rounds_cons_some (i := .actions (answered answers batch))
            (by simp [supervisorInput, hbatches])]
          refine ⟨hrun.step (hattentive.careful hbatch answers), ?_⟩
          apply hattentive.supervised hstarts hplain (.actions (answered answers batch))
          intro later hlater
          rw [hbatches]
          exact .tail _ hlater

/-- The host keeps the budget of password guesses over every run of the session. -/
theorem password_budget (hstart : Started P setup actions before answers s₀)
    (run : Run P debug (Paced limits) s₀ past s) :
    Supervisor.WithinBudget limits (rounds P debug past) := by
  apply Supervisor.withinBudget_of_run (starts_of_started hstart)
  exact (careful_of_run hstart run).1

end HostSession

/-! ### A crowd at the gate -/

namespace Symbolic
open HostSession

/-- A visitor that knows the invitation and offers this proof. -/
def offering (proof : Message) (id : ConnectionId) : List HostSession.Input :=
  (knocks.take 2 ++ [proof]).map fun message => .supervisor (.inbound id (some message) answer)

def arriving : List HostSession.Input := [.supervisor (.stream .default), connectStream]

/-- Six visitors arrive and five guess wrong; then one more arrives, and the sixth is right. -/
def crowd : List HostSession.Input :=
  (List.replicate 6 arriving).flatten ++
    [1, 2, 3, 4, 5].flatMap (offering (.challengeProof ⟨Vector.replicate 32 0⟩)) ++
    (arriving ++ (knocks.drop 2).head?.toList.flatMap fun proof => offering proof 6)

/-- The accept loop has its default limit, and no time passes. -/
def timeless : HostSession.Input → Bool
  | .supervisor (.stream l) => l = .default
  | .supervisor (.connect i) | .supervisor (.inbound _ _ i) => i.now = 0
  | _ => true

/-- A message arrives on an accepted connection, and actions only come off their queue. -/
def onAccepted (s : HostSession) : HostSession.Input → Bool
  | .supervisor (.inbound id _ _) => hostConnectionId < id && id < s.supervisor.network.nextId
  | .supervisor (.actions _) => false
  | _ => true

theorem arrives_of_onAccepted {s : HostSession} {input : HostSession.Input}
    (h : onAccepted s input = true) : s.Arrives input := by
  cases input with
  | supervisor input =>
      cases input with
      | inbound id _ _ => simpa [onAccepted, HostSession.Arrives, Supervisor.Arrives] using h
      | actions _ => cases h
      | _ => trivial
  | _ => trivial

theorem paced_of_timeless {past : HostSession.Past} {s : HostSession} {input : HostSession.Input}
    (hpast : ∀ entry ∈ past, timeless entry.input = true) (h : timeless input = true) :
    Paced .default past s input := by
  have hzero (i : Supervisor.Input) (now : Duration) (hi : timeless (.supervisor i) = true)
      (hnow : Supervisor.guardClock i = some now) : now = 0 := by
    cases i with
    | connect _ | inbound _ _ _ =>
        cases hnow
        simpa [timeless] using hi
    | _ => cases hnow
  constructor
  · rintro l rfl
    simpa [timeless] using h
  · intro i now hinput _ entry hentry j earlier hj hearlier
    rw [hzero j earlier (hj ▸ hpast entry hentry) hearlier]
    exact Nat.zero_le now

theorem crowd_run : HostSession.Run primitives (fun _ => "") (Paced .default) session
    (sessionAfter crowd).1 (sessionAfter crowd).2 := by
  have htimeless : ∀ input ∈ crowd, timeless input = true :=
    List.all_eq_true.mp (by decide +kernel)
  unfold sessionAfter
  refine Machine.Run.exec_of_admits onAccepted .start (fun _ h => absurd h List.not_mem_nil)
    (fun _ h => h) (fun past s input hpast hinput harrives => ?_) (by decide +kernel)
  exact ⟨arrives_of_onAccepted harrives,
    paced_of_timeless (fun entry h => htimeless _ (hpast entry h)) (htimeless input hinput)⟩

end Symbolic

namespace HostSession
open Symbolic

theorem password_budget_crowd :
    (sessionAfter crowd).2.supervisor.passwordGuard.lockouts = 1 ∧
      (rounds primitives (fun _ => "") (sessionAfter crowd).1).filterMap Supervisor.tried =
        [6, 5, 4, 3, 2, 1] ∧
      Supervisor.WithinBudget .default
        (rounds primitives (fun _ => "") (sessionAfter crowd).1) := by
  have h := password_budget session_started crowd_run
  exact ⟨by decide +kernel, by decide +kernel, h⟩

end HostSession
end Veilroom
