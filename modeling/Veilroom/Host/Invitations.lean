import Veilroom.Host.Session
import Veilroom.Room.Invitation
import Veilroom.Room.Scripts

/-!
A rotated invitation over whole runs of the session.

The token lives in the room and, one notice later, in the supervisor. A flow
is outdated once the room has carried out a `/newid` since, or when it was
created with a token that is not the room's.
-/
namespace Veilroom

/-! ### What the supervisor announces -/

/-- None of the events announces a connection. -/
def Unannounced (events : List RoomEvent) : Prop := ∀ id, .clientConnected id ∉ events

theorem unannounced_nil : Unannounced [] := fun _ => List.not_mem_nil

theorem Unannounced.append {first second : List RoomEvent} (h : Unannounced first)
    (h' : Unannounced second) : Unannounced (first ++ second) := by
  intro id hmem
  obtain hmem | hmem := List.mem_append.mp hmem
  · exact h id hmem
  · exact h' id hmem

namespace Supervisor
variable {P : Primitives} {debug : Message → String} {s : Supervisor} {id : ConnectionId}

theorem sendTimeoutChanged_unannounced (nonce : Option Nonce) (interval : Option Nat) :
    Unannounced (s.sendTimeoutChanged P nonce interval).2 := by
  unfold sendTimeoutChanged
  split <;> simp [Unannounced]

theorem onOwnMessage_unannounced (message : Message) :
    Unannounced (s.onOwnMessage P message).2 := by
  unfold onOwnMessage
  repeat' split
  all_goals simp [Unannounced]

theorem onNotice_unannounced (nonce : Option Nonce) (notice : HostNotice) :
    Unannounced (s.onNotice P nonce notice).2 := by
  unfold onNotice
  split
  · exact unannounced_nil
  · exact unannounced_nil
  · exact (sendTimeoutChanged_unannounced _ _).append (by simp [Unannounced, refreshRequests])
  · exact sendTimeoutChanged_unannounced _ _
  all_goals simp [Unannounced, refreshRequests, refreshMembers]

theorem onAction_unannounced (action : RoomAction) (input : ActionInput) :
    Unannounced (s.onAction P action input).2.events := by
  cases action with
  | sendTo connection message =>
      unfold onAction
      dsimp only
      split
      · exact onOwnMessage_unannounced message
      · unfold onSendTo
        repeat' split
        all_goals simp [Unannounced]
  | closeConnection connection => exact unannounced_nil
  | notifyHost notice => exact onNotice_unannounced input.nonce notice

theorem handleHostActions_unannounced (batch : List (RoomAction × ActionInput)) :
    Unannounced (s.handleHostActions P batch).2.events := by
  induction batch generalizing s with
  | nil => exact unannounced_nil
  | cons first rest ih => exact (onAction_unannounced first.1 first.2).append ih

theorem onKey_unannounced (input : KeyInput) : Unannounced (s.onKey P input).2.events := by
  cases input with
  | exit | member _ => simp [onKey, Unannounced]
  | timeout interval nonce => exact sendTimeoutChanged_unannounced nonce interval
  | color color nonce =>
      unfold onKey
      dsimp only
      split <;> simp [Unannounced]
  | host command =>
      unfold onKey
      dsimp only
      split <;> simp [Unannounced, refreshRequests]

theorem unannounced_of_accepts {policy : JoinPolicy} {queue : Except PeerSendError Unit}
    {connection after : HostConnection} {message : Message} {output : SupervisorOutput}
    (h : HostConnection.Accepts P id policy queue connection message after output) :
    Unannounced output.events := by
  cases h with
  | hello _ _ _ _ _ | token _ _ _ _ | keepalive _ => exact unannounced_nil
  | proof _ _ _ _ _ | request _ _ _ _ _ => simp [Unannounced]
  | member _ _ _ hevent =>
      obtain ⟨epoch, rfl⟩ | ⟨messageType, envelope, rfl⟩ := hevent <;> simp [Unannounced]

theorem onInbound_unannounced (c : ConnectionId) (message : Option Message)
    (input : MessageInput) : Unannounced (s.onInbound P debug c message input).2.events := by
  cases message with
  | none => simp [onInbound, Unannounced]
  | some message =>
      simp only [onInbound, handleHostMessage, connections_setConnection, ↓reduceIte]
      cases s.connections c with
      | none => simp [Unannounced]
      | some connection =>
          dsimp only [Option.map_some]
          generalize hresult : HostConnection.handle P { connection with lastSeen := input.now } c
            message _ _ = result
          obtain ⟨after, output, error | done⟩ := result
          · simp [HostConnection.output_of_error hresult, Unannounced]
          · exact unannounced_of_accepts (HostConnection.accepts_of_handle hresult)

/-- A connection is announced when its flow is created, and only then. -/
theorem announced_of_step {input : Input}
    (h : .clientConnected id ∈ (s.step P debug input).2.events) :
    ∃ i rest, input = .connect i ∧ s.network.connects = id :: rest ∧
      (s.step P debug input).1.network.connects = rest ∧
      s.passwordGuard.remaining i.now = none ∧ i.nonce.isSome = true := by
  cases input with
  | stream limits => cases h
  | connect i =>
      simp only [step, onConnect] at h ⊢
      split at h
      · cases h
      rename_i first rest hconnects
      split at h
      · cases h
      rename_i hguard
      split at h
      · cases h
      rename_i flow hflow
      obtain rfl : id = first := by simpa using h
      refine ⟨i, rest, rfl, hconnects, ?_, by simpa using hguard, ?_⟩
      · rw [if_neg hguard]
        rfl
      · unfold HostAdmission.new at hflow
        split at hflow
        · cases hflow
        · rename_i hnonce
          rw [hnonce]
          rfl
  | inbound c message i => exact absurd h (onInbound_unannounced c message i id)
  | actions batch => exact absurd h (handleHostActions_unannounced batch id)
  | expire c now =>
      simp only [step, expire] at h
      repeat' split at h
      all_goals simp at h
  | key i => exact absurd h (onKey_unannounced i id)
  | tick => simp [step] at h

/-- Connection ids are never the host's. -/
theorem ids_of_run {before : Supervisor} {past : Past} (hstart : before.Starts)
    (run : Run P debug before past s) :
    hostConnectionId < s.network.nextId ∧ ∀ c ∈ s.network.connects, hostConnectionId < c := by
  induction run with
  | start =>
      rw [hstart.network]
      exact ⟨Nat.one_pos, nofun⟩
  | @step past s input run _ ih =>
      obtain ⟨hnext, hconnects⟩ := ih
      have hother : hostConnectionId + 1 ≠ hostConnectionId := by decide
      obtain ⟨heq, heq'⟩ | ⟨heq, heq'⟩ | ⟨heq, first, heq'⟩ :=
        (step_turn P debug hother s input).ids
      · rw [heq, heq']
        exact ⟨hnext, hconnects⟩
      · rw [heq, heq']
        refine ⟨Nat.lt_succ_of_lt hnext, fun c hc => ?_⟩
        obtain hc | hc := List.mem_append.mp hc
        · exact hconnects c hc
        · rw [List.mem_singleton.mp hc]
          exact hnext
      · rw [heq'] at hconnects
        rw [heq]
        exact ⟨hnext, fun c hc => hconnects c (.tail _ hc)⟩

/-- Once the action that closes it is handled, the peer is gone. -/
theorem closed_by_actions (hid : id ≠ hostConnectionId) {batch : List (RoomAction × ActionInput)}
    (h : .closeConnection id ∈ batch.map Prod.fst) :
    (s.handleHostActions P batch).1.network.isLive id = false := by
  induction batch generalizing s with
  | nil => cases h
  | cons first rest ih =>
      obtain ⟨action, input⟩ := first
      obtain rfl | h := List.mem_cons.mp h
      · have haside := (handleHostActions_besides (P := P) hid (s.drop id) rest).aside
        rw [Bool.eq_false_iff]
        intro hlive
        simpa using haside.live hlive
      · exact ih h

end Supervisor

namespace HostSession
variable {P : Primitives} {debug : Message → String} {s₀ s : HostSession} {past : Past}
variable {id : ConnectionId}

/-! ### Outdated flows -/

/-- The step creates the flow of the connection. -/
def Opens (id : ConnectionId) (entry : Entry) : Prop :=
  .clientConnected id ∈ entry.output.submitted

/-- The next round of the room task carries out a `/newid`. -/
def Rotates (s : HostSession) (rng : Rng) : Prop :=
  ∃ event, s.events.head? = some event ∧ s.room.Rotates rng event

/-- The step carries out a `/newid`. -/
def Renews (entry : Entry) : Prop :=
  ∃ now cleanupNow rng cleanupRng,
    entry.input = .room now cleanupNow rng cleanupRng ∧ entry.before.Rotates rng

/-- The flow of the connection was created before a `/newid` the room has carried out since, or
with a token that is not the room's. -/
def Outdated (id : ConnectionId) (past : Past) (s : HostSession) : Prop :=
  ∃ newer entry older, past = newer ++ entry :: older ∧ Opens id entry ∧
    ((∃ later ∈ newer, Renews later) ∨ entry.before.supervisor.token ≠ s.room.token.toList)

/-- The connection has been a member's. -/
def Admitted (id : ConnectionId) (past : Past) : Prop :=
  ∃ entry ∈ past, (entry.before.room.connections.memberId id).isSome = true

/-- The connection is closed, or the action that closes it is on its way. -/
def Closed (id : ConnectionId) (s : HostSession) : Prop :=
  s.supervisor.network.isLive id = false ∨ .closeConnection id ∈ s.batches.flatten

/-! ### Timely runs -/

/-- The room knows the flows there are: every live connection the supervisor has received is
registered, and the ones about to be registered belong to flows that ended without a request. -/
structure Known (past : Past) (s : HostSession) : Prop where
  live : ∀ id, s.supervisor.network.isLive id = true → id ∉ s.supervisor.network.connects →
    (s.room.connections.get id).isSome = true ∨ .closeConnection id ∈ s.batches.flatten ∨
      Admitted id past
  queued : ∀ id, .clientConnected id ∈ s.events → s.supervisor.connections id = none ∧
    ∀ application, .joinRequested id application ∉ s.events

/-- A flow is only created while the supervisor holds the room's token, and a `/newid` is only
carried out while the room knows the flows there are. -/
def Timely (past : Past) (s : HostSession) : Input → Prop
  | .supervisor (.connect i) => s.supervisor.network.connects ≠ [] →
      s.supervisor.passwordGuard.remaining i.now = none → i.nonce.isSome = true →
      s.supervisor.token = s.room.token.toList
  | .room _ _ rng _ => s.Rotates rng → Known past s
  | _ => True

/-! ### Expired flows -/

/-- What the session keeps about an outdated flow. -/
structure Expired (id : ConnectionId) (past : Past) (s : HostSession) : Prop where
  requests : ∀ q ∈ s.room.requests.requests, q.connection ≠ id
  /-- If its connection is in admission, or will be, the flow is over. -/
  waiting : (.clientConnected id ∈ s.events ∨
      ∃ entry, s.room.connections.get id = some entry ∧ entry.role = .admission) →
    s.supervisor.connections id = none ∧ ∀ application, .joinRequested id application ∉ s.events
  closed : Admitted id past ∨ s.Closed id

/-- The supervisor has received the connection. -/
structure Received (id : ConnectionId) (s : HostSession) : Prop where
  client : id ≠ hostConnectionId
  seen : id < s.supervisor.network.nextId
  received : id ∉ s.supervisor.network.connects

theorem Admitted.cons (h : Admitted id past) (entry : Entry) : Admitted id (entry :: past) := by
  obtain ⟨earlier, hmem, hmember⟩ := h
  exact ⟨earlier, .tail _ hmem, hmember⟩

theorem Received.next (P : Primitives) (debug : Message → String) (h : Received id s)
    (input : Supervisor.Input) :
    Received id { s with supervisor := (s.supervisor.step P debug input).1 } := by
  have hids := (Supervisor.step_turn P debug h.client s.supervisor input).ids
  exact ⟨h.client, h.seen.trans_le (Supervisor.nextId_le hids),
    Supervisor.not_waiting hids h.seen h.received⟩

/-- A flow that is over stays over, and says nothing more. -/
theorem gone_of_step (P : Primitives) (debug : Message → String)
    {supervisor : Supervisor} (hclient : id ≠ hostConnectionId)
    (hreceived : id ∉ supervisor.network.connects) (hgone : supervisor.connections id = none)
    (input : Supervisor.Input) : (supervisor.step P debug input).1.connections id = none ∧
      ∀ application, .joinRequested id application ∉ (supervisor.step P debug input).2.events := by
  have hturn := Supervisor.step_turn P debug hclient supervisor input
  generalize supervisor.step P debug input = result at hturn ⊢
  obtain ⟨supervisor', output⟩ := result
  have hmute (hsilent : Supervisor.Silent id output.events) (application : JoinApplication) :
      .joinRequested id application ∉ output.events := by
    intro hmem
    simpa [RoomEvent.forwards] using hsilent _ hmem
  cases hturn with
  | handles hsome _ _ _ =>
      rw [hgone] at hsome
      cases hsome
  | fails _ _ hnone _ hsilent => exact ⟨hnone, hmute hsilent⟩
  | opens hconnects _ _ _ _ _ => exact absurd (hconnects ▸ .head _) hreceived
  | aside _ hkept _ _ hsilent =>
      refine ⟨?_, hmute hsilent⟩
      cases hnow : supervisor'.connections id with
      | none => rfl
      | some c' =>
          obtain ⟨c, hc, -⟩ := hkept c' hnow
          rw [hgone] at hc
          cases hc

/-- A closed peer stays closed. -/
theorem dead_of_step (P : Primitives) (debug : Message → String)
    {supervisor : Supervisor} (hclient : id ≠ hostConnectionId)
    (hseen : id < supervisor.network.nextId) (hdead : supervisor.network.isLive id = false)
    (input : Supervisor.Input) : (supervisor.step P debug input).1.network.isLive id = false := by
  have hturn := Supervisor.step_turn P debug hclient supervisor input
  generalize supervisor.step P debug input = result at hturn ⊢
  obtain ⟨supervisor', output⟩ := result
  dsimp only at hturn ⊢
  cases hturn with
  | handles _ _ hnetwork _ =>
      rw [hnetwork]
      exact hdead
  | fails _ _ _ hnetwork _ => simp [hnetwork]
  | opens _ _ hlive _ _ _ =>
      rw [hlive]
      exact hdead
  | aside _ _ hlive _ _ =>
      rw [Bool.eq_false_iff]
      intro hnow
      obtain hnow | ⟨rfl, -⟩ := hlive hnow
      · rw [hdead] at hnow
        cases hnow
      · exact absurd hseen (Nat.lt_irrefl _)

theorem Expired.cons (h : Expired id past s) (entry : Entry) : Expired id (entry :: past) s :=
  ⟨h.requests, h.waiting, h.closed.imp_left fun hadmitted => hadmitted.cons entry⟩

/-- A round of the supervisor, whatever it leaves of the batches, keeps a flow expired. -/
theorem Expired.supervised (P : Primitives) (debug : Message → String) (h : Expired id past s)
    (hreceived : Received id s)
    (input : Supervisor.Input) {batches : List (List RoomAction)} (entry : Entry)
    (hbatches : .closeConnection id ∈ s.batches.flatten →
      (s.supervisor.step P debug input).1.network.isLive id = false ∨
        .closeConnection id ∈ batches.flatten) :
    Expired id (entry :: past)
      { s with
        supervisor := (s.supervisor.step P debug input).1
        events := s.events ++ (s.supervisor.step P debug input).2.events
        batches } where
  requests := h.requests
  waiting hwaits := by
    have hwaited : .clientConnected id ∈ s.events ∨
        ∃ entry, s.room.connections.get id = some entry ∧ entry.role = .admission := by
      refine hwaits.imp_left fun hmem => ?_
      obtain hmem | hmem := List.mem_append.mp hmem
      · exact hmem
      · obtain ⟨i, rest, rfl, hconnects, -⟩ := Supervisor.announced_of_step hmem
        exact absurd (hconnects ▸ .head _) hreceived.received
    obtain ⟨hgone, hmute⟩ := h.waiting hwaited
    obtain ⟨hgone', hmute'⟩ :=
      gone_of_step P debug hreceived.client hreceived.received hgone input
    refine ⟨hgone', fun application hmem => ?_⟩
    obtain hmem | hmem := List.mem_append.mp hmem
    · exact hmute application hmem
    · exact hmute' application hmem
  closed := by
    obtain hadmitted | hdead | hclosing := h.closed
    · exact .inl (hadmitted.cons entry)
    · exact .inr (.inl (dead_of_step P debug hreceived.client hreceived.seen hdead input))
    · exact .inr (hbatches hclosing)

/-- A round of the room task leaves every close that was on its way. -/
private theorem closing_stays {batches : List (List RoomAction)} {batch : List RoomAction}
    {action : RoomAction} (h : action ∈ batches.flatten) :
    action ∈ (if batch.isEmpty then batches else batches ++ [batch]).flatten := by
  split
  · exact h
  · rw [List.flatten_append]
    exact List.mem_append_left _ h

/-- An event that is no `/newid` brings no flow back: neither a request nor an admission. -/
theorem Expired.handled {a : RoomActor} {event : RoomEvent} (rng : Rng) (now : Duration)
    (hvalid : a.registry.Valid) (hrequests : ∀ q ∈ a.requests.requests, q.connection ≠ id)
    (hmute : (∃ entry, a.connections.get id = some entry ∧ entry.role = .admission) →
      ∀ application, event ≠ .joinRequested id application) :
    (∀ q ∈ (a.handleEventAt P rng event now).1.requests.requests, q.connection ≠ id) ∧
      ((∃ entry, (a.handleEventAt P rng event now).1.connections.get id = some entry ∧
          entry.role = .admission) →
        event = .clientConnected id ∨
          ∃ entry, a.connections.get id = some entry ∧ entry.role = .admission) := by
  refine ⟨fun q hq hid => ?_, ?_⟩
  · obtain hold | ⟨application, entry, hevent, hentry, hrole⟩ :=
      RoomActor.request_of_handle hvalid hq
    · exact hrequests q hold hid
    · rw [hid] at hevent hentry
      exact hmute ⟨entry, hentry, hrole⟩ application hevent
  · rintro ⟨entry, hentry, hrole⟩
    have hstep := (RoomActor.handleEventAt_effect P rng hvalid event now).step
    obtain hnew | ⟨entry', hentry', hother⟩ := hstep.admission hvalid hentry hrole
    · refine .inl ?_
      cases event <;> cases hnew
      rfl
    · refine .inr ⟨entry', hentry', ?_⟩
      obtain ⟨key, verified, role⟩ := entry'
      cases role with
      | admission => rfl
      | member memberId => exact absurd rfl (hother memberId)
      | pending requestId =>
          obtain ⟨q, hq, hconnection, -⟩ := hvalid.entry_request id requestId
            (Connections.requestId_eq_some.mpr ⟨_, hentry', rfl⟩)
          exact absurd hconnection (hrequests q hq)

/-- A round of the room task keeps a flow expired. -/
theorem Expired.received (h : Expired id past s) (hvalid : s.room.registry.Valid)
    (input : TaskInput) {events : List RoomEvent} (hevents : s.events = input.event :: events)
    (entry : Entry) :
    Expired id (entry :: past)
      { s with
        room := (RoomTask.receive P s.room input).1
        events
        batches := if (RoomTask.receive P s.room input).2.isEmpty then s.batches
          else s.batches ++ [(RoomTask.receive P s.room input).2] } := by
  have hwaiting := h.waiting
  rw [hevents] at hwaiting
  have hmute : (∃ entry, s.room.connections.get id = some entry ∧ entry.role = .admission) →
      ∀ application, input.event ≠ .joinRequested id application := by
    intro hadmission application hevent
    exact (hwaiting (.inr hadmission)).2 application (hevent ▸ .head _)
  have hfirst := Expired.handled (P := P) input.rng input.now hvalid h.requests hmute
  have hvalid' := (RoomActor.handleEventAt_effect P input.rng hvalid input.event
    input.now).step.valid
  have hround : (∀ q ∈ (RoomTask.receive P s.room input).1.requests.requests, q.connection ≠ id) ∧
      ((∃ entry, (RoomTask.receive P s.room input).1.connections.get id = some entry ∧
          entry.role = .admission) →
        input.event = .clientConnected id ∨
          ∃ entry, s.room.connections.get id = some entry ∧ entry.role = .admission) := by
    obtain heq | ⟨c, -, heq⟩ := RoomTask.receive_cases (P := P) s.room input
    · rw [heq]
      exact hfirst
    · rw [heq]
      have hlost : ∀ application, RoomEvent.connectionLost c ≠ .joinRequested id application :=
        nofun
      have hsecond := Expired.handled (P := P) input.cleanupRng input.cleanupNow hvalid' hfirst.1
        fun _ => hlost
      refine ⟨hsecond.1, fun hadmission => ?_⟩
      obtain hevent | hadmission := hsecond.2 hadmission
      · cases hevent
      · exact hfirst.2 hadmission
  refine ⟨hround.1, fun hwaits => ?_, ?_⟩
  · obtain ⟨hgone, hmute⟩ := hwaiting (by
      obtain hmem | hadmission := hwaits
      · exact .inl (.tail _ hmem)
      · obtain hevent | hadmission := hround.2 hadmission
        · exact .inl (hevent ▸ .head _)
        · exact .inr hadmission)
    exact ⟨hgone, fun application hmem => hmute application (.tail _ hmem)⟩
  · obtain hadmitted | hdead | hclosing := h.closed
    · exact .inl (hadmitted.cons entry)
    · exact .inr (.inl hdead)
    · exact .inr (.inr (closing_stays hclosing))

/-- A `/newid` the room carries out while it knows the flows there are expires all of them. -/
theorem Known.renewed (h : Known past s) (hvalid : s.room.registry.Valid) (input : TaskInput)
    {events : List RoomEvent} (hevents : s.events = input.event :: events)
    (hrotates : s.room.Rotates input.rng input.event) (hreceived : Received id s)
    {entry : Entry} (hentry : entry.before = s) :
    Expired id (entry :: past)
      { s with
        room := (RoomTask.receive P s.room input).1
        events
        batches := if (RoomTask.receive P s.room input).2.isEmpty then s.batches
          else s.batches ++ [(RoomTask.receive P s.room input).2] } := by
  obtain ⟨b, actions, hresult, hrequests, hmembers, hcloses⟩ :=
    RoomActor.handle_rotates (P := P) hvalid hrotates input.now
  have hreceive : RoomTask.receive P s.room input = (b, actions) := by
    simp only [RoomTask.receive, RoomActor.handle, hresult]
  rw [hreceive]
  refine ⟨fun q hq => ?_, fun hwaits => ?_, ?_⟩
  · dsimp only at hq
    rw [hrequests] at hq
    cases hq
  · obtain hmem | ⟨entry', hget, hrole⟩ := hwaits
    · obtain ⟨hgone, hmute⟩ := h.queued id (by rw [hevents]; exact .tail _ hmem)
      refine ⟨hgone, fun application hmem => hmute application ?_⟩
      rw [hevents]
      exact .tail _ hmem
    · obtain ⟨memberId, -, hmember⟩ := hmembers id entry' hget
      obtain ⟨entry'', hget', hrole'⟩ := Connections.memberId_eq_some.mp hmember
      rw [show b.connections.get id = some entry' from hget] at hget'
      cases hget'
      rw [hrole] at hrole'
      cases hrole'
  · by_cases hlive : s.supervisor.network.isLive id = true
    · obtain hknown | hclosing | hadmitted := h.live id hlive hreceived.received
      · obtain ⟨entry', hget⟩ := Option.isSome_iff_exists.mp hknown
        by_cases hmember : ∃ memberId, entry'.role = .member memberId
        · obtain ⟨memberId, hrole⟩ := hmember
          refine .inl ⟨entry, .head _, ?_⟩
          rw [hentry, Connections.memberId_eq_some.mpr ⟨entry', hget, hrole⟩]
          rfl
        · have hclose := hcloses id entry' hget fun memberId hrole => hmember ⟨memberId, hrole⟩
          refine .inr (.inr ?_)
          dsimp only
          rw [if_neg (by simpa using List.ne_nil_of_mem hclose), List.flatten_append]
          apply List.mem_append_right
          simpa using hclose
      · exact .inr (.inr (closing_stays hclosing))
      · exact .inl (hadmitted.cons entry)
    · exact .inr (.inl (Bool.eq_false_iff.mpr hlive))

/-- A flow is only created for a connection the supervisor then has received. -/
theorem received_of_run {allowed : Past → HostSession → Input → Prop} {setup : Setup}
    {actions : List RoomAction} {before : Supervisor} {answers : Nat → Supervisor.ActionInput}
    (hstart : Started P setup actions before answers s₀) (run : Run P debug allowed s₀ past s)
    (h : ∃ entry ∈ past, Opens id entry) : Received id s := by
  induction run with
  | start =>
      obtain ⟨entry, hentry, -⟩ := h
      cases hentry
  | @step past s input run hallowed ih =>
      obtain ⟨rounds, hrun⟩ := Run.supervised hstart run
      have hopens : Opens id ⟨s, input, (s.step P debug input).2, (s.step P debug input).1⟩ ∨
          Received id s := by
        obtain ⟨entry, hentry, hopens⟩ := h
        cases hentry with
        | head => exact .inl hopens
        | tail _ hentry => exact .inr (ih ⟨entry, hentry, hopens⟩)
      have hround := step_round P debug s input
      unfold Opens at hopens
      generalize s.step P debug input = result at hround hopens ⊢
      obtain ⟨s', output⟩ := result
      cases hround with
      | waits _ | idles _ | received _ _ =>
          obtain hopens | hreceived := hopens
          · cases hopens
          · exact ⟨hreceived.client, hreceived.seen, hreceived.received⟩
      | supervised input =>
          obtain hopens | hreceived := hopens
          · obtain ⟨i, rest, rfl, hconnects, hrest, -⟩ := Supervisor.announced_of_step hopens
            have hwaiting := Supervisor.waiting_of_run hstart.starts hrun
            have hid := (Supervisor.ids_of_run hstart.starts hrun).2 id (hconnects ▸ .head _)
            have hclient : id ≠ hostConnectionId := hid.ne'
            have hids := (Supervisor.step_turn P debug hclient s.supervisor (.connect i)).ids
            have hnodup := hwaiting.2
            rw [hconnects, List.nodup_cons] at hnodup
            refine ⟨hclient, ?_, ?_⟩
            · exact (hwaiting.1 id (hconnects ▸ .head _)).trans_le (Supervisor.nextId_le hids)
            · dsimp only
              rw [hrest]
              exact hnodup.1
          · have hnext := hreceived.next P debug input
            exact ⟨hnext.client, hnext.seen, hnext.received⟩
      | acted answers batch _ =>
          obtain hopens | hreceived := hopens
          · exact absurd hopens (Supervisor.handleHostActions_unannounced _ id)
          · have hnext := hreceived.next P debug (.actions (answered answers batch))
            exact ⟨hnext.client, hnext.seen, hnext.received⟩

/-! ### Runs -/

theorem Outdated.opened (h : Outdated id past s) : ∃ entry ∈ past, Opens id entry := by
  obtain ⟨newer, entry, older, rfl, hopens, -⟩ := h
  exact ⟨entry, List.mem_append_right _ (.head _), hopens⟩

/-- A step that carries out no `/newid` can only outdate the flow it creates. -/
theorem Outdated.older {s' : HostSession} {entry : Entry} (h : Outdated id (entry :: past) s')
    (hrenews : ¬ Renews entry) (htoken : s'.room.token = s.room.token) :
    (Opens id entry ∧ entry.before.supervisor.token ≠ s'.room.token.toList) ∨
      Outdated id past s := by
  obtain ⟨newer, opener, older, hpast, hopens, hreason⟩ := h
  cases newer with
  | nil =>
      cases hpast
      obtain ⟨later, hlater, -⟩ | hstale := hreason
      · cases hlater
      · exact .inl ⟨hopens, hstale⟩
  | cons first newer =>
      cases hpast
      refine .inr ⟨newer, opener, older, rfl, hopens, ?_⟩
      obtain ⟨later, hlater, hlaterRenews⟩ | hstale := hreason
      · cases hlater with
        | head => exact absurd hlaterRenews hrenews
        | tail _ hlater => exact .inl ⟨later, hlater, hlaterRenews⟩
      · rw [htoken] at hstale
        exact .inr hstale

theorem expired_of_run {setup : Setup} {actions : List RoomAction} {before : Supervisor}
    {answers : Nat → Supervisor.ActionInput} (hstart : Started P setup actions before answers s₀)
    (run : Run P debug Timely s₀ past s) (h : Outdated id past s) : Expired id past s := by
  induction run with
  | start =>
      obtain ⟨entry, hentry, -⟩ := h.opened
      cases hentry
  | @step past s input run hallowed ih =>
      have hreceived (hopened : ∃ entry ∈ past, Opens id entry) : Received id s :=
        received_of_run hstart run hopened
      have hvalid := Run.valid hstart run
      obtain ⟨-, htimely⟩ := hallowed
      have hround := step_round P debug s input
      generalize hstep : s.step P debug input = result at hround h ⊢
      obtain ⟨s', output⟩ := result
      dsimp only at hround h ⊢
      -- a step that creates no flow with a stale token and carries out no `/newid` outdates nothing
      have hkeeps (hrenews : ¬ Renews ⟨s, input, output, s'⟩)
          (htoken : s'.room.token = s.room.token) (hsilent : ¬ Opens id ⟨s, input, output, s'⟩ ∨
            s.supervisor.token = s.room.token.toList) : Expired id past s ∧ Received id s := by
        obtain ⟨hopens, hstale⟩ | houtdated := h.older hrenews htoken
        · obtain hsilent | hcurrent := hsilent
          · exact absurd hopens hsilent
          · rw [htoken] at hstale
            exact absurd hcurrent hstale
        · exact ⟨ih houtdated, hreceived houtdated.opened⟩
      have hquiet (hinput : ∀ now cleanupNow rng cleanupRng,
          input ≠ .room now cleanupNow rng cleanupRng) :
          ¬ Renews ⟨s, input, output, s'⟩ := by
        rintro ⟨_, _, _, _, heq, -⟩
        exact hinput _ _ _ _ heq
      cases hround with
      | waits hevents =>
          refine (hkeeps ?_ rfl (.inl List.not_mem_nil)).1.cons _
          rintro ⟨_, _, _, _, -, event, hhead, -⟩
          rw [hevents] at hhead
          cases hhead
      | idles hbatches => exact (hkeeps (hquiet nofun) rfl (.inl List.not_mem_nil)).1.cons _
      | supervised input =>
          have hsilent : .clientConnected id ∉ (s.supervisor.step P debug input).2.events ∨
              s.supervisor.token = s.room.token.toList := by
            by_cases hopens : .clientConnected id ∈ (s.supervisor.step P debug input).2.events
            · obtain ⟨i, rest, rfl, hconnects, -, hguard, hnonce⟩ :=
                Supervisor.announced_of_step hopens
              exact .inr (htimely (by simp [hconnects]) hguard hnonce)
            · exact .inl hopens
          obtain ⟨hexpired, hreceived⟩ := hkeeps (hquiet nofun) rfl hsilent
          exact hexpired.supervised P debug hreceived input _ .inr
      | acted answers batch hbatches =>
          have hsilent := Supervisor.handleHostActions_unannounced (P := P) (s := s.supervisor)
            (answered answers batch) id
          obtain ⟨hexpired, hreceived⟩ := hkeeps (hquiet nofun) rfl (.inl hsilent)
          refine hexpired.supervised P debug hreceived (.actions (answered answers batch)) _ ?_
          intro hclosing
          rw [hbatches, List.flatten_cons, List.mem_append] at hclosing
          refine hclosing.imp_left fun hmem => ?_
          apply Supervisor.closed_by_actions hreceived.client
          rw [map_answered]
          exact hmem
      | received input hevents =>
          by_cases hrotates : s.room.Rotates input.rng input.event
          · have hknown := htimely ⟨input.event, by rw [hevents]; rfl, hrotates⟩
            obtain ⟨entry, hentry, hopens⟩ := h.opened
            cases hentry with
            | head => cases hopens
            | tail _ hentry =>
                have hreceived := hreceived ⟨entry, hentry, hopens⟩
                exact hknown.renewed hvalid input hevents hrotates hreceived rfl
          · refine (hkeeps ?_ (RoomActor.token_receive hrotates)
              (.inl List.not_mem_nil)).1.received hvalid input hevents _
            rintro ⟨_, _, _, _, hinput, event, hhead, hevent⟩
            cases hinput
            rw [hevents] at hhead
            cases hhead
            exact hrotates hevent

/-- A script that creates a flow and then carries out a `/newid` outdates the flow. -/
theorem Outdated.of_exec {older : Past} {between last : List Input} {input : Input}
    {now cleanupNow : Duration} {rng cleanupRng : Rng} {t : HostSession}
    (hopens : Opens id ⟨t, input, (t.step P debug input).2, (t.step P debug input).1⟩)
    (hrotates :
      (Machine.exec (step P debug) between [] (t.step P debug input).1).2.Rotates rng) :
    Outdated id (Machine.exec (step P debug)
      (input :: between ++ .room now cleanupNow rng cleanupRng :: last) older t).1 s := by
  have hfirst : Machine.exec (step P debug) (input :: between) older t =
      ((Machine.exec (step P debug) between [] (t.step P debug input).1).1 ++
          ⟨t, input, (t.step P debug input).2, (t.step P debug input).1⟩ :: older,
        (Machine.exec (step P debug) between [] (t.step P debug input).1).2) :=
    Machine.exec_past between _ _
  rw [Machine.exec_append, hfirst, Machine.exec, Machine.exec_past last]
  refine ⟨_, _, _, (List.append_assoc _ (_ :: _) (_ :: _)).symm, hopens, .inl ⟨_,
    List.mem_append_right _ (.head _), ?_⟩⟩
  exact ⟨now, cleanupNow, rng, cleanupRng, rfl, hrotates⟩

/-- A rotated invitation is dead, in every timely run: no flow that was created before a
`/newid` the room has carried out since, or with a token other than the room's, has a pending
request, and each is closed, unless its connection was a member's. -/
theorem rotated_invitation_dead {setup : Setup} {actions : List RoomAction} {before : Supervisor}
    {answers : Nat → Supervisor.ActionInput} (hstart : Started P setup actions before answers s₀)
    (run : Run P debug Timely s₀ past s) (h : Outdated id past s) :
    (∀ q ∈ s.room.requests.requests, q.connection ≠ id) ∧ (Admitted id past ∨ s.Closed id) :=
  have hexpired := expired_of_run hstart run h
  ⟨hexpired.requests, hexpired.closed⟩

end HostSession

/-! ### Invitations of the symbolic room -/

namespace Symbolic
open HostSession

/-- The world answers every action. -/
def answers : Nat → Supervisor.ActionInput := fun _ => ⟨0, some (Vector.replicate 24 0), .ok ()⟩

/-- The session of the symbolic host and its room, as it enters its loop. -/
def session : HostSession where
  supervisor := (host.handleHostActions primitives (answered answers roomStarted)).1
  room := Symbolic.room
  events := (host.handleHostActions primitives (answered answers roomStarted)).2.events
  batches := []

theorem session_started :
    HostSession.Started primitives setup roomStarted host answers session where
  room := room_started
  hostConnection := rfl
  hostIdentity := rfl
  sessionId := rfl
  starts := host_starts
  supervisor := rfl
  events := rfl
  batches := rfl

/-- A round of the room task. -/
def roomRound : HostSession.Input := .room 0 0 (rng 11) (rng 11)

/-- The room opens, and a stream arrives. -/
def opening : List HostSession.Input := [roomRound, .supervisor (.stream .default)]

def typeNewId : HostSession.Input := .supervisor (.key (.host .newId))
def connectStream : HostSession.Input := .supervisor (.connect answer)

/-- The session after a list of inputs. -/
def sessionAfter (inputs : List HostSession.Input) : HostSession.Past × HostSession :=
  Machine.exec (step primitives fun _ => "") inputs [] session

/-- A stream's flow is created while the `/newid` before it waits for the room. -/
def crossing : List HostSession.Input :=
  (opening ++ [typeNewId]) ++ (connectStream :: [] ++ roomRound :: (roomRound ::
    knocks.map (fun message => .supervisor (.inbound 1 (some message) answer)) ++
      [roomRound, roomRound]))

theorem crossing_run : HostSession.Run primitives (fun _ => "") (fun _ _ _ => True) session
    (sessionAfter crossing).1 (sessionAfter crossing).2 := by
  refine .step (.step (.step (.step (.step (.step (.step (.step (.step (.step (.step (.step .start
    ?_) ?_) ?_) ?_) ?_) ?_) ?_) ?_) ?_) ?_) ?_) ?_
  all_goals first | exact ⟨trivial, trivial⟩ | exact ⟨⟨by decide, by decide +kernel⟩, trivial⟩

/-- A stream's flow is known to the room when the host types `/newid`. -/
def rotationAhead : HostSession :=
  (sessionAfter (opening ++ [connectStream, roomRound, typeNewId])).2

def rotating : List HostSession.Input :=
  opening ++ (connectStream :: [roomRound, typeNewId] ++ roomRound :: [])

theorem rotating_run : HostSession.Run primitives (fun _ => "") HostSession.Timely session
    (sessionAfter rotating).1 (sessionAfter rotating).2 := by
  refine .step (.step (.step (.step (.step (.step .start ⟨trivial, ?_⟩) ⟨trivial, trivial⟩)
    ⟨trivial, ?_⟩) ⟨trivial, ?_⟩) ⟨trivial, trivial⟩) ⟨trivial, ?_⟩
  · rintro ⟨event, hhead, rfl, -⟩
    exact absurd hhead (by decide +kernel)
  · intro _ _ _
    decide +kernel
  · rintro ⟨event, hhead, rfl, -⟩
    exact absurd hhead (by decide +kernel)
  · intro _
    have hnetwork : rotationAhead.supervisor.network = ⟨[⟨1, false⟩], 2, []⟩ := by decide +kernel
    have hknown : (rotationAhead.room.connections.get 1).isSome = true := by decide +kernel
    have hevents : rotationAhead.events = [.hostCommand .newId] := by decide +kernel
    constructor
    · intro id hlive _
      have hone : id = 1 := by
        have hlive : HostNetwork.isLive ⟨[⟨1, false⟩], 2, []⟩ id = true := hnetwork ▸ hlive
        simpa [HostNetwork.isLive, eq_comm] using hlive
      exact .inl (hone ▸ hknown)
    · intro id hmem
      have hmem : .clientConnected id ∈ [RoomEvent.hostCommand .newId] := hevents ▸ hmem
      simp at hmem

end Symbolic

namespace HostSession
open Symbolic

theorem rotated_invitation_dead_stream :
    Outdated 1 (sessionAfter rotating).1 (sessionAfter rotating).2 ∧
      ∀ q ∈ (sessionAfter rotating).2.room.requests.requests, q.connection ≠ 1 := by
  have houtdated : Outdated 1 (sessionAfter rotating).1 (sessionAfter rotating).2 := by
    rw [sessionAfter, rotating, Machine.exec_append]
    refine Outdated.of_exec ?_ ⟨.hostCommand .newId, by decide +kernel, by decide +kernel⟩
    exact List.mem_singleton.mpr rfl
  exact ⟨houtdated, (rotated_invitation_dead session_started rotating_run houtdated).1⟩

/-- The token the room has replaced still brings a request before it. -/
theorem outdated_flow_asks : ∃ past s,
    HostSession.Run primitives (fun _ => "") (fun _ _ _ => True) session past s ∧
      Outdated 1 past s ∧ s.room.requests.requests.map JoinRequest.connection = [1] := by
  refine ⟨_, _, crossing_run, ?_, by decide +kernel⟩
  rw [sessionAfter, crossing, Machine.exec_append]
  refine Outdated.of_exec ?_ ⟨.hostCommand .newId, by decide +kernel, by decide +kernel⟩
  exact List.mem_singleton.mpr rfl

end HostSession

end Veilroom
