import Mathlib.Data.Set.Card
import Veilroom.Host.Trials

/-!
The accept loop of the listener (`net/host.rs`), interleaved with the handle of the network: the
budget of connections that are not admitted.

The loop checks the budget under one lock of the peer map and registers the peer under another.
`next_id` is a `u64` that wraps around, as it does in a release build.
-/
namespace Veilroom

/-- `net::INBOUND_QUEUE_CAPACITY`. -/
def inboundQueueCapacity : Nat := 64
/-- `MAX_CONSECUTIVE_ACCEPT_ERRORS`. -/
def maxConsecutiveAcceptErrors : Nat := 64

namespace HostNetwork

/-- `insert` of a new peer into the map. -/
def insert (n : HostNetwork) (connection : ConnectionId) : HostNetwork :=
  { n with peers := (n.close connection).peers ++ [⟨connection, false⟩] }

/-- `HostNetwork::close_all`. -/
def closeAll (n : HostNetwork) : HostNetwork := { n with peers := [] }

end HostNetwork

/-- Where `accept_loop` stands when other tasks can come between. -/
inductive AcceptStage (Stream : Type)
  /-- At `listener.accept()`, or in the pause after an error. -/
  | accepting
  /-- Before the lock under which the budget is checked. -/
  | checking (stream : Stream)
  /-- Before the lock under which the peer is inserted. -/
  | registering (stream : Stream) (id : ConnectionId)
  /-- At `connects.send(id)`. -/
  | announcing (id : ConnectionId)
  | retired
deriving DecidableEq

/-- `accept_loop` and the network it serves. -/
structure AcceptLoop (Stream : Type) where
  network : HostNetwork
  consecutiveErrors : Nat
  stage : AcceptStage Stream
deriving DecidableEq

/-- A step of the loop, or of what else holds the network. -/
inductive AcceptEvent (Stream : Type)
  | accepted (stream : Stream) | acceptFailed | checked | registered
  /-- The send of an id ended, with an error if nobody receives any more. -/
  | announced (received : Bool)
  | aborted
  /-- The supervisor receives an id. -/
  | receive
  | markAdmitted (connection : ConnectionId)
  | close (connection : ConnectionId)
  | closeAll
deriving DecidableEq

namespace AcceptLoop
variable {Stream : Type}

def start : AcceptLoop Stream := ⟨.listen, 0, .accepting⟩

/-- One step, and the stream it registers under an id. A step that is not the loop's turn does
nothing. -/
def step (limits : Limits) (s : AcceptLoop Stream) :
    AcceptEvent Stream → AcceptLoop Stream × Option (Stream × ConnectionId)
  | .accepted stream =>
    match s.stage with
    | .accepting => ({ s with consecutiveErrors := 0, stage := .checking stream }, none)
    | _ => (s, none)
  | .acceptFailed =>
    match s.stage with
    | .accepting =>
      let consecutiveErrors := s.consecutiveErrors + 1
      if consecutiveErrors ≥ maxConsecutiveAcceptErrors then
        ({ s with consecutiveErrors, stage := .retired }, none)
      else ({ s with consecutiveErrors }, none)
    | _ => (s, none)
  | .checked =>
    match s.stage with
    | .checking stream =>
      if s.network.preAuthConnections ≥ limits.maxPreAuthConnections then
        ({ s with stage := .accepting }, none)
      else
        let id := s.network.nextId
        ({ s with
            network := { s.network with nextId := (id + 1) % 2 ^ 64 }
            stage := .registering stream id }, none)
    | _ => (s, none)
  | .registered =>
    match s.stage with
    | .registering stream id =>
      ({ s with network := s.network.insert id, stage := .announcing id }, some (stream, id))
    | _ => (s, none)
  | .announced received =>
    match s.stage with
    | .announcing id =>
      if ¬ received then ({ s with stage := .accepting }, none)
      else if s.network.connects.length < inboundQueueCapacity then
        ({ s with
            network := { s.network with connects := s.network.connects ++ [id] }
            stage := .accepting }, none)
      else (s, none)
    | _ => (s, none)
  | .aborted =>
    match s.stage with
    | .accepting | .announcing _ => ({ s with stage := .retired }, none)
    | _ => (s, none)
  | .receive =>
    ({ s with network := { s.network with connects := s.network.connects.tail } }, none)
  | .markAdmitted connection => ({ s with network := s.network.markAdmitted connection }, none)
  | .close connection => ({ s with network := s.network.close connection }, none)
  | .closeAll => ({ s with network := s.network.closeAll }, none)

abbrev Entry (Stream : Type) :=
  Machine.Entry (AcceptLoop Stream) (AcceptEvent Stream) (Option (Stream × ConnectionId))

/-- A run from `from_listener` on, with the steps in any order. -/
abbrev Run (limits : Limits) : List (Entry Stream) → AcceptLoop Stream → Prop :=
  Machine.Run (step limits) (fun _ _ _ => True) start

/-! ### What a run did -/

/-- The stream that has passed the check and is not in the map yet. -/
def pending (s : AcceptLoop Stream) : Option (Stream × ConnectionId) :=
  match s.stage with
  | .registering stream id => some (stream, id)
  | _ => none

/-- The streams the loop let in, with their ids, the newest possibly still to be inserted. -/
def taken (past : List (Entry Stream)) (s : AcceptLoop Stream) : List (Stream × ConnectionId) :=
  (past.filterMap Machine.Entry.output).reverse ++ s.pending.toList

/-- The stream whose check finds the budget free. -/
def passes (limits : Limits) (s : AcceptLoop Stream) (event : AcceptEvent Stream) :
    Option Stream :=
  match event, s.stage with
  | .checked, .checking stream =>
    if s.network.preAuthConnections < limits.maxPreAuthConnections then some stream else none
  | _, _ => none

/-- The streams whose checks found the budget free. -/
def passed (limits : Limits) (past : List (Entry Stream)) : List Stream :=
  (past.filterMap fun entry => passes limits entry.before entry.input).reverse

/-- A connection that is admitted or closed waits no longer. -/
def Withdraws (id : ConnectionId) (event : AcceptEvent Stream) : Prop :=
  event = .markAdmitted id ∨ event = .close id ∨ event = .closeAll

/-- The history of a live connection that is not admitted: it was inserted, and neither admitted
nor closed since. -/
def Waiting (past : List (Entry Stream)) (id : ConnectionId) : Prop :=
  ∃ newer entry older, past = newer ++ entry :: older ∧
    (∃ stream, entry.output = some (stream, id)) ∧ ∀ later ∈ newer, ¬ Withdraws id later.input

theorem waiting_cons {entry : Entry Stream} {past : List (Entry Stream)} {id : ConnectionId} :
    Waiting (entry :: past) id ↔
      (∃ stream, entry.output = some (stream, id)) ∨
        Waiting past id ∧ ¬ Withdraws id entry.input := by
  constructor
  · rintro ⟨newer, inserted, older, hpast, hinserted, hnewer⟩
    cases newer with
    | nil =>
        cases hpast
        exact .inl hinserted
    | cons later newer =>
        cases hpast
        obtain ⟨hlater, hnewer⟩ := List.forall_mem_cons.mp hnewer
        exact .inr ⟨⟨newer, inserted, older, rfl, hinserted, hnewer⟩, hlater⟩
  · rintro (hinserted | ⟨⟨newer, inserted, older, rfl, hinserted, hnewer⟩, hentry⟩)
    · exact ⟨[], entry, past, rfl, hinserted, by simp⟩
    · exact ⟨entry :: newer, inserted, older, rfl, hinserted,
        List.forall_mem_cons.mpr ⟨hentry, hnewer⟩⟩

/-! ### What a step can do -/

end AcceptLoop

namespace HostNetwork

/-- The live connections that are not admitted. -/
def preAuthIds (n : HostNetwork) : List ConnectionId :=
  (n.peers.filter fun peer => !peer.admitted).map Peer.connection

theorem length_preAuthIds (n : HostNetwork) : n.preAuthIds.length = n.preAuthConnections :=
  List.length_map _

theorem preAuthIds_close (n : HostNetwork) (c : ConnectionId) :
    (n.close c).preAuthIds = n.preAuthIds.filter (· ≠ c) := by
  unfold preAuthIds close
  rw [List.filter_map, List.filter_filter, List.filter_filter]
  congr 2
  funext peer
  simp [Bool.and_comm]

theorem preAuthIds_markAdmitted (n : HostNetwork) (c : ConnectionId) :
    (n.markAdmitted c).preAuthIds = n.preAuthIds.filter (· ≠ c) := by
  unfold preAuthIds markAdmitted
  induction n.peers with
  | nil => rfl
  | cons peer peers ih =>
      rw [List.map_cons]
      by_cases hsame : peer.connection = c
      · cases hadmitted : peer.admitted <;> simp [hsame, hadmitted, ih]
      · cases hadmitted : peer.admitted <;> simp [hsame, hadmitted, ih]

theorem preAuthIds_insert (n : HostNetwork) (c : ConnectionId) :
    (n.insert c).preAuthIds = n.preAuthIds.filter (· ≠ c) ++ [c] := by
  rw [← preAuthIds_close]
  simp [preAuthIds, insert]

end HostNetwork

namespace AcceptLoop
variable {Stream : Type} {limits : Limits} {past : List (Entry Stream)} {s : AcceptLoop Stream}

inductive Turn (limits : Limits) (s : AcceptLoop Stream) :
    AcceptEvent Stream → AcceptLoop Stream × Option (Stream × ConnectionId) → Prop
  | idles {event s'} : s'.network.preAuthIds = s.network.preAuthIds →
      s'.network.nextId = s.network.nextId → s'.pending = s.pending →
      passes limits s event = none → (∀ id, ¬ Withdraws id event) → Turn limits s event (s', none)
  | admits {stream s'} : s.pending = none → passes limits s .checked = some stream →
      s.network.preAuthConnections < limits.maxPreAuthConnections →
      s'.network.preAuthIds = s.network.preAuthIds →
      s'.network.nextId = (s.network.nextId + 1) % 2 ^ 64 →
      s'.pending = some (stream, s.network.nextId) → Turn limits s .checked (s', none)
  | registers {stream id s'} : s.pending = some (stream, id) →
      s'.network.preAuthIds = s.network.preAuthIds.filter (· ≠ id) ++ [id] →
      s'.network.nextId = s.network.nextId → s'.pending = none →
      Turn limits s .registered (s', some (stream, id))
  | withdraws {event s'} {stays : ConnectionId → Bool} :
      s'.network.preAuthIds = s.network.preAuthIds.filter stays →
      (∀ id, stays id = true ↔ ¬ Withdraws id event) →
      s'.network.nextId = s.network.nextId → s'.pending = s.pending →
      passes limits s event = none → Turn limits s event (s', none)

theorem not_withdraws (event : AcceptEvent Stream)
    (h : ∀ c, event ≠ .markAdmitted c ∧ event ≠ .close c) (hall : event ≠ .closeAll)
    (id : ConnectionId) : ¬ Withdraws id event := by
  rintro (rfl | rfl | rfl)
  · exact (h id).1 rfl
  · exact (h id).2 rfl
  · exact hall rfl

theorem step_turn (limits : Limits) (s : AcceptLoop Stream) (event : AcceptEvent Stream) :
    Turn limits s event (step limits s event) := by
  cases event with
  | accepted stream =>
      have hother := not_withdraws (.accepted stream) (by simp) (by simp)
      cases hstage : s.stage <;> simp only [step, hstage] <;>
        exact .idles rfl rfl (by simp [pending, hstage]) rfl hother
  | acceptFailed =>
      have hother := not_withdraws (.acceptFailed : AcceptEvent Stream) (by simp) (by simp)
      cases hstage : s.stage <;> simp only [step, hstage]
      case accepting =>
        split <;> exact .idles rfl rfl (by simp [pending, hstage]) rfl hother
      all_goals exact .idles rfl rfl (by simp [pending, hstage]) rfl hother
  | checked =>
      have hother := not_withdraws (.checked : AcceptEvent Stream) (by simp) (by simp)
      cases hstage : s.stage <;> simp only [step, hstage]
      case checking stream =>
        split
        · rename_i hfull
          exact .idles rfl rfl (by simp [pending, hstage])
            (by simp [passes, hstage, not_lt.mpr hfull]) hother
        · rename_i hfree
          rw [ge_iff_le, not_le] at hfree
          exact .admits (by simp [pending, hstage]) (by simp [passes, hstage, hfree]) hfree rfl rfl
            rfl
      all_goals
        exact .idles rfl rfl (by simp [pending, hstage]) (by simp [passes, hstage]) hother
  | registered =>
      have hother := not_withdraws (.registered : AcceptEvent Stream) (by simp) (by simp)
      cases hstage : s.stage <;> simp only [step, hstage]
      case registering stream id =>
        exact .registers (by simp [pending, hstage]) (s.network.preAuthIds_insert id) rfl rfl
      all_goals exact .idles rfl rfl (by simp [pending, hstage]) rfl hother
  | announced received =>
      have hother := not_withdraws (.announced received : AcceptEvent Stream) (by simp)
        (by simp)
      cases hstage : s.stage <;> simp only [step, hstage]
      case announcing id =>
        split
        · exact .idles rfl rfl (by simp [pending, hstage]) rfl hother
        split
        · exact .idles rfl rfl (by simp [pending, hstage]) rfl hother
        · exact .idles rfl rfl (by simp [pending, hstage]) rfl hother
      all_goals exact .idles rfl rfl (by simp [pending, hstage]) rfl hother
  | aborted =>
      have hother := not_withdraws (.aborted : AcceptEvent Stream) (by simp) (by simp)
      cases hstage : s.stage <;> simp only [step, hstage] <;>
        exact .idles rfl rfl (by simp [pending, hstage]) rfl hother
  | receive =>
      exact .idles rfl rfl rfl rfl
        (not_withdraws (.receive : AcceptEvent Stream) (by simp) (by simp))
  | markAdmitted c =>
      refine .withdraws (s.network.preAuthIds_markAdmitted c) ?_ rfl rfl rfl
      intro id
      simpa [Withdraws] using ne_comm
  | close c =>
      refine .withdraws (s.network.preAuthIds_close c) ?_ rfl rfl rfl
      intro id
      simpa [Withdraws] using ne_comm
  | closeAll =>
      refine .withdraws (List.filter_false _).symm ?_ rfl rfl rfl
      intro id
      simp [Withdraws]

/-! ### The budget -/

/-- What is counted, and what the loop has let in already, fit the budget. -/
theorem budget_of_run (run : Run limits past s) :
    s.network.preAuthConnections + s.pending.toList.length ≤ limits.maxPreAuthConnections := by
  induction run with
  | start => exact Nat.zero_le _
  | @step past s event run _ ih =>
      have hturn := step_turn limits s event
      generalize step limits s event = out at hturn
      rw [← HostNetwork.length_preAuthIds] at ih ⊢
      cases hturn with
      | idles hids _ hpending _ _ =>
          rw [hids, hpending]
          exact ih
      | admits _ _ hfree hids _ hpending =>
          rw [← HostNetwork.length_preAuthIds] at hfree
          rw [hids, hpending]
          exact hfree
      | @registers _ id _ hpending hids _ hpending' =>
          rw [hpending] at ih
          rw [hids, hpending', List.length_append]
          have hle := List.length_filter_le (fun c => decide (c ≠ id)) s.network.preAuthIds
          simp only [Option.toList_some, List.length_singleton, Option.toList_none,
            List.length_nil] at ih ⊢
          omega
      | withdraws hids _ _ hpending _ =>
          rw [hids, hpending]
          exact (Nat.add_le_add_right (List.length_filter_le _ _) _).trans ih

/-- The connections counted are those whose history says that they wait. -/
theorem waiting_of_run (run : Run limits past s) :
    s.network.preAuthIds.Nodup ∧ ∀ id, id ∈ s.network.preAuthIds ↔ Waiting past id := by
  induction run with
  | start =>
      refine ⟨List.nodup_nil, ?_⟩
      intro id
      constructor
      · intro h
        cases h
      · rintro ⟨newer, entry, older, hpast, -⟩
        cases newer <;> cases hpast
  | @step past s event run _ ih =>
      obtain ⟨hnodup, hwaiting⟩ := ih
      have hturn := step_turn limits s event
      simp only [waiting_cons]
      generalize step limits s event = out at hturn
      cases hturn with
      | idles hids _ _ _ hstay =>
          rw [hids]
          refine ⟨hnodup, ?_⟩
          intro id
          simp [hwaiting, hstay]
      | admits _ _ _ hids _ _ =>
          rw [hids]
          refine ⟨hnodup, ?_⟩
          intro id
          simp [hwaiting, Withdraws]
      | @registers stream id _ _ hids _ _ =>
          rw [hids]
          constructor
          · rw [List.nodup_append]
            refine ⟨hnodup.filter _, List.nodup_singleton id, ?_⟩
            intro c hc d hd
            rw [List.mem_singleton] at hd
            subst hd
            simpa using (List.mem_filter.mp hc).2
          · intro c
            by_cases hsame : c = id
            · simp [hsame]
            · simp [hsame, Ne.symm hsame, hwaiting, Withdraws]
      | withdraws hids hstays _ _ _ =>
          rw [hids]
          refine ⟨hnodup.filter _, ?_⟩
          intro id
          simp [hwaiting, hstays]

theorem preAuthConnections_of_run (run : Run limits past s) :
    s.network.preAuthConnections = {id | Waiting past id}.ncard := by
  obtain ⟨hnodup, hwaiting⟩ := waiting_of_run run
  have hset : {id | Waiting past id} = ↑s.network.preAuthIds.toFinset := by
    ext id
    simp [hwaiting]
  rw [hset, Set.ncard_coe_finset, List.toFinset_card_of_nodup hnodup,
    HostNetwork.length_preAuthIds]

/-! ### The streams and their ids -/

theorem taken_cons {entry : Entry Stream} {s' : AcceptLoop Stream} :
    taken (entry :: past) s' =
      (past.filterMap Machine.Entry.output).reverse ++
        (entry.output.toList ++ s'.pending.toList) := by
  unfold taken
  rw [List.filterMap_cons]
  cases entry.output with
  | none => rfl
  | some registered => simp

theorem passed_cons {entry : Entry Stream} :
    passed limits (entry :: past) =
      passed limits past ++ (passes limits entry.before entry.input).toList := by
  unfold passed
  rw [List.filterMap_cons]
  cases passes limits entry.before entry.input with
  | none => simp
  | some stream => simp

/-- A stream is taken when its check finds the budget free, and with the next id. -/
theorem taken_step (limits : Limits) (past : List (Entry Stream)) (s : AcceptLoop Stream)
    (event : AcceptEvent Stream) :
    let out := step limits s event
    (taken (⟨s, event, out.2, out.1⟩ :: past) out.1 = taken past s ∧
        passes limits s event = none ∧ out.1.network.nextId = s.network.nextId) ∨
      ∃ stream, passes limits s event = some stream ∧
        taken (⟨s, event, out.2, out.1⟩ :: past) out.1 =
          taken past s ++ [(stream, s.network.nextId)] ∧
        out.1.network.nextId = (s.network.nextId + 1) % 2 ^ 64 := by
  have hturn := step_turn limits s event
  dsimp only
  generalize step limits s event = out at hturn
  rw [taken_cons]
  unfold taken
  cases hturn with
  | idles _ hnext hpending hpasses _ =>
      refine .inl ⟨?_, hpasses, hnext⟩
      rw [hpending]
      rfl
  | admits hnone hpasses _ _ hnext hpending =>
      refine .inr ⟨_, hpasses, ?_, hnext⟩
      rw [hpending, hnone]
      simp
  | registers hpending _ hnext hpending' =>
      refine .inl ⟨?_, rfl, hnext⟩
      rw [hpending, hpending']
      simp
  | withdraws _ _ hnext hpending hpasses =>
      refine .inl ⟨?_, hpasses, hnext⟩
      rw [hpending]
      rfl

theorem taken_of_run (run : Run limits past s) :
    (taken past s).map Prod.fst = passed limits past ∧
      (taken past s).map Prod.snd =
        (List.range (taken past s).length).map (fun n => (n + 1) % 2 ^ 64) ∧
      s.network.nextId = ((taken past s).length + 1) % 2 ^ 64 := by
  induction run with
  | start => exact ⟨rfl, rfl, rfl⟩
  | @step past s event run _ ih =>
      obtain ⟨hstreams, hids, hnext⟩ := ih
      rw [passed_cons]
      obtain ⟨htaken, hpasses, hsame⟩ | ⟨stream, hpasses, htaken, hsame⟩ :=
        taken_step limits past s event
      · rw [htaken, hsame, hpasses]
        exact ⟨by simpa using hstreams, hids, hnext⟩
      · rw [htaken, hsame, hpasses, List.length_append, List.length_singleton, List.range_succ]
        refine ⟨?_, ?_, ?_⟩
        · simp [hstreams]
        · rw [List.map_append, List.map_append, hids, hnext]
          rfl
        · rw [hnext]
          exact Nat.mod_add_mod _ _ _

/-- The next 2^64 ids are different. -/
theorem ids_nodup {count : Nat} (h : count ≤ 2 ^ 64) :
    ((List.range count).map fun n => (n + 1) % 2 ^ 64).Nodup := by
  refine List.Nodup.map_on ?_ List.nodup_range
  intro m hm n hn heq
  rw [List.mem_range] at hm hn
  omega

/-! ### Without interference -/

/-- When nothing comes between its steps, the loop serves a stream like `accept`. -/
theorem accept_alone (limits : Limits) (n : HostNetwork) (errors : Nat) (stream : Stream)
    (hnext : n.nextId + 1 < 2 ^ 64) (hfresh : n.isLive n.nextId = false)
    (hqueue : n.connects.length < inboundQueueCapacity) :
    (Machine.exec (step limits) [.accepted stream, .checked, .registered, .announced true] []
      ⟨n, errors, .accepting⟩).2 = ⟨n.accept limits, 0, .accepting⟩ := by
  have hpeers : (n.peers.filter fun peer => decide (peer.connection ≠ n.nextId)) = n.peers := by
    rw [List.filter_eq_self]
    intro peer hpeer
    simp only [HostNetwork.isLive, List.any_eq_false, decide_eq_true_eq] at hfresh
    simpa using hfresh peer hpeer
  by_cases hfull : n.preAuthConnections ≥ limits.maxPreAuthConnections
  · simp [Machine.exec, step, HostNetwork.accept, hfull]
  · simp only [Machine.exec, step, HostNetwork.accept, HostNetwork.insert, HostNetwork.close,
      if_neg hfull, Nat.mod_eq_of_lt hnext, hpeers, not_true_eq_false, if_false, if_pos hqueue]

/-! ### The budget over whole runs -/

/-- The loop at `listener.accept()`, with nobody connected. -/
def idle (nextId : ConnectionId) : AcceptLoop Stream := ⟨⟨[], nextId, []⟩, 0, .accepting⟩

theorem Run.next (run : Run limits past s) (event : AcceptEvent Stream) :
    Run limits (⟨s, event, (step limits s event).2, (step limits s event).1⟩ :: past)
      (step limits s event).1 :=
  .step run trivial

/-- A stream that is let in, and closed before anyone hears of it. -/
theorem wasted_stream {nextId : ConnectionId} (run : Run .default past (idle nextId))
    (stream : Stream) :
    ∃ past', Run .default past' (idle ((nextId + 1) % 2 ^ 64) : AcceptLoop Stream) ∧
      (taken past' (idle ((nextId + 1) % 2 ^ 64))).length =
        (taken past (idle nextId)).length + 1 := by
  refine ⟨_, ((((Run.next run (.accepted stream)).next .checked).next .registered).next
    (.announced false)).next .closeAll, ?_⟩
  simp [taken, step, idle, pending, HostNetwork.preAuthConnections, Limits.default]

theorem wasted_streams (count : Nat) :
    ∃ past, Run .default past (idle ((count + 1) % 2 ^ 64) : AcceptLoop Unit) ∧
      (taken past (idle ((count + 1) % 2 ^ 64) : AcceptLoop Unit)).length = count := by
  induction count with
  | zero => exact ⟨[], .start, rfl⟩
  | succ count ih =>
      obtain ⟨past, run, hlength⟩ := ih
      obtain ⟨past', run', hlength'⟩ := wasted_stream run ()
      rw [Nat.mod_add_mod] at run' hlength'
      exact ⟨past', run', by rw [hlength', hlength]⟩

/-- After 2^64 connections the ids begin again. -/
theorem ids_reused :
    ∃ (past : List (Entry Unit)) (s : AcceptLoop Unit), Run .default past s ∧
      ¬ ((taken past s).map Prod.snd).Nodup := by
  obtain ⟨past, run, hlength⟩ := wasted_streams (2 ^ 64 + 1)
  refine ⟨past, _, run, ?_⟩
  rw [(taken_of_run run).2.1, hlength]
  intro hnodup
  have hsame := List.inj_on_of_nodup_map hnodup (x := 0) (List.mem_range.mpr (by omega))
    (y := 2 ^ 64) (List.mem_range.mpr (by omega)) rfl
  omega

/-- Whatever comes between the steps of the loop: the live connections that are not admitted are
within the budget and are those whose own history says so, the streams let in are those that found
the budget free, and the first 2^64 of them have ids of their own. -/
theorem pre_auth_budget (limits : Limits) {past : List (Entry Stream)} {s : AcceptLoop Stream}
    (run : Run limits past s) :
    s.network.preAuthConnections ≤ limits.maxPreAuthConnections ∧
      s.network.preAuthConnections = {id | Waiting past id}.ncard ∧
      (taken past s).map Prod.fst = passed limits past ∧
      ((taken past s).length ≤ 2 ^ 64 → ((taken past s).map Prod.snd).Nodup) := by
  obtain ⟨hstreams, hids, -⟩ := taken_of_run run
  refine ⟨?_, preAuthConnections_of_run run, hstreams, ?_⟩
  · exact (Nat.le_add_right _ _).trans (budget_of_run run)
  · intro hcount
    rw [hids]
    exact ids_nodup hcount

/-- Room for one: the second stream is refused, the third let in after the first was admitted,
which then leaves. -/
def oneAtATime : List (AcceptEvent Nat) :=
  [.accepted 7, .checked, .registered, .announced true, .accepted 8, .checked, .markAdmitted 1,
    .accepted 9, .checked, .close 1, .registered, .announced true]

theorem pre_auth_budget_one :
    (passed { maxPreAuthConnections := 1 } (Machine.exec (step { maxPreAuthConnections := 1 })
        oneAtATime [] start).1 = [7, 9]) ∧
      {id | Waiting (Machine.exec (step { maxPreAuthConnections := 1 }) oneAtATime [] start).1
        id}.ncard = 1 ∧
      ((taken (Machine.exec (step { maxPreAuthConnections := 1 }) oneAtATime [] start).1
        (Machine.exec (step { maxPreAuthConnections := 1 }) oneAtATime [] start).2).map
          Prod.snd).Nodup := by
  have run : Run { maxPreAuthConnections := 1 }
      (Machine.exec (step { maxPreAuthConnections := 1 }) oneAtATime [] start).1
      (Machine.exec (step { maxPreAuthConnections := 1 }) oneAtATime [] start).2 := by
    apply Machine.Run.exec .start
    intros
    trivial
  obtain ⟨-, hwaiting, hpassed, hids⟩ := pre_auth_budget _ run
  refine ⟨?_, ?_, hids (by decide +kernel)⟩
  · rw [← hpassed]
    decide +kernel
  · rw [← hwaiting]
    decide +kernel

end AcceptLoop

end Veilroom
