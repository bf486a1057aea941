import Veilroom.Room.Epochs
import Veilroom.Room.Delivery

/-!
Separation of epoch keys over whole runs.

The invariant ties the wraps a connection was ever sent to the table: they end
at the current epoch for a member, and a connection whose member was removed is
barred, because the transport never announces a connection twice.
-/
namespace Veilroom

/-- The epoch a message wraps a key of. -/
def Message.wrapEpoch? : Message → Option Nat
  | .epochWrap wrap => some wrap.epoch
  | _ => none

/-- The epochs wrapped to a connection, in the order they were emitted. -/
def wrapEpochs (c : ConnectionId) (actions : List RoomAction) : List Nat :=
  (sentTo c actions).filterMap Message.wrapEpoch?

@[simp] theorem wrapEpochs_append (c : ConnectionId) (first second : List RoomAction) :
    wrapEpochs c (first ++ second) = wrapEpochs c first ++ wrapEpochs c second := by
  simp [wrapEpochs]

theorem mem_wrapEpochs {c : ConnectionId} {epoch : Nat} {actions : List RoomAction} :
    epoch ∈ wrapEpochs c actions ↔
      ∃ wrap, .sendTo c (.epochWrap wrap) ∈ actions ∧ wrap.epoch = epoch := by
  rw [wrapEpochs, List.mem_filterMap]
  constructor
  · rintro ⟨message, hmem, hwrap⟩
    cases message <;> cases hwrap
    exact ⟨_, mem_sentTo.mp hmem, rfl⟩
  · rintro ⟨wrap, hmem, rfl⟩
    exact ⟨_, mem_sentTo.mpr hmem, rfl⟩

theorem wrapEpochs_eq_nil {actions : List RoomAction}
    (h : ∀ action ∈ actions, action.isWrap = false) (c : ConnectionId) :
    wrapEpochs c actions = [] := by
  refine List.eq_nil_iff_forall_not_mem.mpr fun epoch hepoch => ?_
  obtain ⟨wrap, hmem, -⟩ := mem_wrapEpochs.mp hepoch
  cases h _ hmem

namespace RoomActor
variable {P : Primitives} {rng : Rng} {a a' : RoomActor} {event : RoomEvent}
variable {result : Except RoomError (List RoomAction)}
variable {started : List RoomAction} {past : Past}

/-! ### The wraps of one step -/

theorem Move.begun_or_steady (hnofault : NoFault P rng a) (hheld : HoldsMembership a)
    (h : Move P rng a event a' result) :
    (∃ key wraps, Begun P rng a a' result key wraps) ∨ Steady a a' result := by
  obtain hfailed | h := h.outline hheld
  · obtain ⟨b, error, htabled, hmembers, hfail, -⟩ := hfailed.fault
    exact absurd hfail (hnofault b error htabled hmembers)
  · exact h

private theorem Begun.wrapEpochs_eq {key : Key} {wraps : List RoomAction}
    (h : Begun P rng a a' result key wraps) (c : ConnectionId) :
    wrapEpochs c (actionsOf result) = wrapEpochs c wraps := by
  obtain ⟨before, after, heq, hkinds⟩ := h.output
  have hnone : ∀ action ∈ before ++ after, action.isWrap = false := by
    intro action haction
    obtain hplain | ⟨_, _, rfl⟩ := hkinds action haction
    · exact RoomAction.isWrap_of_isPlain hplain
    · rfl
  rw [heq, wrapEpochs_append, wrapEpochs_append,
    wrapEpochs_eq_nil (fun action haction => hnone action (List.mem_append_left _ haction)),
    wrapEpochs_eq_nil (fun action haction => hnone action (List.mem_append_right _ haction)),
    List.nil_append, List.append_nil]

/-- A transition wraps its epoch to each member once. -/
theorem Begun.wrapEpochs_of_mem (law : P.Lawful) (hvalid : a'.registry.Valid) {key : Key}
    {wraps : List RoomAction} (h : Begun P rng a a' result key wraps) {m : Member}
    (hm : m ∈ a'.members.members) :
    wrapEpochs m.connection (actionsOf result) = [a.epoch + 1] := by
  obtain ⟨_, hsent, wrap, rfl, hof⟩ := (h.wrapped law).sentTo_of_mem hvalid.connections_nodup hm
  rw [h.wrapEpochs_eq, wrapEpochs, hsent, ← hof.ofEpoch]
  rfl

theorem Begun.wrapEpochs_of_not_mem (law : P.Lawful) {key : Key} {wraps : List RoomAction}
    (h : Begun P rng a a' result key wraps) {c : ConnectionId}
    (hc : ∀ m ∈ a'.members.members, m.connection ≠ c) :
    wrapEpochs c (actionsOf result) = [] := by
  rw [h.wrapEpochs_eq, wrapEpochs, (h.wrapped law).sentTo_eq_nil hc]
  rfl

/-! ### The invariant -/

/-- `c` belonged to a member that was removed, and will never be wrapped to again. -/
structure Barred (started : List RoomAction) (past : Past) (a : RoomActor) (c : ConnectionId) :
    Prop where
  unknown : a.connections.get c = none
  notHost : c ≠ a.hostConnection
  introduced : ∃ entry ∈ past, entry.input.event = .clientConnected c
  older : ∀ epoch ∈ wrapEpochs c (emitted started past), epoch < a.epoch

structure Separated (started : List RoomAction) (past : Past) (a : RoomActor) : Prop where
  introduced : ∀ c entry, a.connections.get c = some entry → c = a.hostConnection ∨
    ∃ entry ∈ past, entry.input.event = .clientConnected c
  bounded : ∀ c, ∀ epoch ∈ wrapEpochs c (emitted started past), epoch ≤ a.epoch
  increasing : ∀ c, (wrapEpochs c (emitted started past)).Pairwise (· < ·)
  first : ∀ m ∈ a.members.members,
    (wrapEpochs m.connection (emitted started past)).head? = some m.joinedEpoch
  owner : ∀ c, wrapEpochs c (emitted started past) ≠ [] →
    (∃ m ∈ a.members.members, m.connection = c) ∨ Barred started past a c

/-- What one step of a run offers to the proofs below. -/
structure StepFacts (P : Primitives) (past : Past) (a : RoomActor) (input : Input) : Prop where
  valid : a.registry.Valid
  held : HoldsMembership a
  nofault : NoFault P input.rng { a with now := input.now }
  effect : Effect P input.rng (introduced input.event) input.event { a with now := input.now }
    (a.handle P input)
  fresh : FreshConnection past a input

theorem StepFacts.begun_or_steady {input : Input} (h : StepFacts P past a input) :
    (∃ key wraps, Begun P input.rng { a with now := input.now } (a.handle P input).1
      (a.handle P input).2 key wraps) ∨
    Steady { a with now := input.now } (a.handle P input).1 (a.handle P input).2 :=
  Move.begun_or_steady h.nofault h.held h.effect.move

theorem StepFacts.epoch_le {input : Input} (h : StepFacts P past a input) :
    a.epoch ≤ (a.handle P input).1.epoch := by
  obtain ⟨key, wraps, hbegun⟩ | hsteady := h.begun_or_steady
  · rw [hbegun.epoch]
    exact Nat.le_succ _
  · exact Nat.le_of_eq hsteady.epoch.symm

/-- A step wraps nothing to a connection, or the epoch it begins, once, to a member. -/
theorem StepFacts.wrapEpochs_cases (law : P.Lawful) {input : Input}
    (h : StepFacts P past a input) (c : ConnectionId) :
    wrapEpochs c (actionsOf (a.handle P input).2) = [] ∨
      ((a.handle P input).1.epoch = a.epoch + 1 ∧
        wrapEpochs c (actionsOf (a.handle P input).2) = [a.epoch + 1] ∧
        ∃ m ∈ (a.handle P input).1.members.members, m.connection = c) := by
  obtain ⟨key, wraps, hbegun⟩ | hsteady := h.begun_or_steady
  · by_cases hmember : ∃ m ∈ (a.handle P input).1.members.members, m.connection = c
    · obtain ⟨m, hm, rfl⟩ := hmember
      exact .inr ⟨hbegun.epoch, hbegun.wrapEpochs_of_mem law h.effect.step.valid hm, m, hm, rfl⟩
    · exact .inl (hbegun.wrapEpochs_of_not_mem law fun m hm hc => hmember ⟨m, hm, hc⟩)
  · exact .inl (wrapEpochs_eq_nil hsteady.noWrap c)

/-- A barred connection stays barred, gets no wrap, and no envelope of its epochs is relayed. -/
theorem Barred.step (law : P.Lawful) {c : ConnectionId} {input : Input}
    (h : Barred started past a c) (facts : StepFacts P past a input) :
    Barred started (⟨a, input, (a.handle P input).2, (a.handle P input).1⟩ :: past)
        (a.handle P input).1 c ∧
      wrapEpochs c (actionsOf (a.handle P input).2) = [] ∧
      ∀ envelope, Sends (a.handle P input).2 envelope →
        ∀ epoch ∈ wrapEpochs c (emitted started past), epoch < envelope.epoch := by
  have hunknown : (a.handle P input).1.connections.get c = none := by
    cases hget : (a.handle P input).1.connections.get c with
    | none => rfl
    | some entry =>
        obtain hevent | ⟨entry', hget'⟩ := handle_known facts.valid hget
        · obtain ⟨entry, hentry, hevent'⟩ := h.introduced
          exact absurd hevent' ((facts.fresh c hevent).2 entry hentry)
        · rw [h.unknown] at hget'
          cases hget'
  have hnomember : ∀ m ∈ (a.handle P input).1.members.members, m.connection ≠ c := by
    rintro m hm rfl
    obtain ⟨entry, hget, -⟩ :=
      Connections.memberId_eq_some.mp (facts.effect.step.valid.member_entry m hm)
    rw [show (a.handle P input).1.registry.connections.get m.connection = none from hunknown]
      at hget
    cases hget
  have hnowrap : wrapEpochs c (actionsOf (a.handle P input).2) = [] := by
    obtain hnone | ⟨-, -, m, hm, hconn⟩ := facts.wrapEpochs_cases law c
    · exact hnone
    · exact absurd hconn (hnomember m hm)
  refine ⟨⟨hunknown, ?_, ?_, ?_⟩, hnowrap, ?_⟩
  · rw [facts.effect.move.sameRoom.hostConnection]
    exact h.notHost
  · obtain ⟨entry, hentry, hevent⟩ := h.introduced
    exact ⟨entry, .tail _ hentry, hevent⟩
  · intro epoch hmem
    rw [emitted_cons, wrapEpochs_append, hnowrap, List.append_nil] at hmem
    exact Nat.lt_of_lt_of_le (h.older epoch hmem) facts.epoch_le
  · intro envelope hsends epoch hmem
    obtain ⟨_, _, _, _, -, hrelays, -⟩ :=
      Move.relay_inv (a := { a with now := input.now }) facts.held facts.effect.move hsends
    rw [hrelays.epoch]
    exact h.older epoch hmem

/-- The connection of a queued request has never been wrapped to. -/
theorem Separated.unwrapped (h : Separated started past a) (hvalid : a.registry.Valid)
    {q : JoinRequest} (hq : q ∈ a.requests.requests) :
    wrapEpochs q.connection (emitted started past) = [] := by
  have hentry := hvalid.request_entry q hq
  by_contra hne
  obtain ⟨m, hm, hconn⟩ | hbarred := h.owner q.connection hne
  · have hnone := hvalid.requestId_of_member hm
    rw [hconn, hentry] at hnone
    cases hnone
  · obtain ⟨entry, hget, -⟩ := Connections.requestId_eq_some.mp hentry
    rw [show a.registry.connections.get q.connection = none from hbarred.unknown] at hget
    cases hget

/-- The connection of a member that an event removed is barred. -/
theorem Separated.barred (h : Separated started past a) {input : Input}
    (facts : StepFacts P past a input) (law : P.Lawful) {m : Member}
    (hm : m ∈ a.members.members)
    (hgone : ∀ m' ∈ (a.handle P input).1.members.members, m'.memberId ≠ m.memberId) :
    Barred started (⟨a, input, (a.handle P input).2, (a.handle P input).1⟩ :: past)
      (a.handle P input).1 m.connection := by
  have hunknown : (a.handle P input).1.connections.get m.connection = none :=
    facts.effect.step.departed m hm hgone
  have hnotHost : m.connection ≠ a.hostConnection := by
    intro hhost
    obtain ⟨host, hhostmem, hzero, -⟩ := facts.effect.step.valid.host
    have hid := (facts.valid.connection_eq_host_iff hm).mp hhost
    exact hgone host hhostmem (hzero.trans hid.symm)
  have hnomember : ∀ m' ∈ (a.handle P input).1.members.members, m'.connection ≠ m.connection := by
    intro m' hm' hconn
    obtain ⟨entry, hget, -⟩ :=
      Connections.memberId_eq_some.mp (facts.effect.step.valid.member_entry m' hm')
    rw [hconn, show (a.handle P input).1.registry.connections.get m.connection = none
      from hunknown] at hget
    cases hget
  refine ⟨hunknown, ?_, ?_, ?_⟩
  · rw [facts.effect.move.sameRoom.hostConnection]
    exact hnotHost
  · obtain ⟨entry, hget, -⟩ := Connections.memberId_eq_some.mp (facts.valid.member_entry m hm)
    obtain hhost | ⟨announced, hmem, hevent⟩ := h.introduced m.connection entry hget
    · exact absurd hhost hnotHost
    · exact ⟨announced, .tail _ hmem, hevent⟩
  · intro epoch hepoch
    obtain ⟨key, wraps, hbegun⟩ | hsteady := facts.begun_or_steady
    · rw [emitted_cons, wrapEpochs_append, hbegun.wrapEpochs_of_not_mem law hnomember,
        List.append_nil] at hepoch
      rw [hbegun.epoch]
      exact Nat.lt_succ_of_le (h.bounded _ epoch hepoch)
    · -- nobody leaves without a transition
      obtain ⟨m', hm', heq⟩ := exists_uncolored_of_mem hsteady.members.symm hm
      exact absurd (Member.memberId_congr heq) (hgone m' hm')

/-- One step of an orderly run keeps the keys separated. -/
theorem Separated.step (law : P.Lawful) (h : Separated started past a) {input : Input}
    (facts : StepFacts P past a input) :
    Separated started (⟨a, input, (a.handle P input).2, (a.handle P input).1⟩ :: past)
      (a.handle P input).1 where
  introduced c entry hget := by
    rw [facts.effect.move.sameRoom.hostConnection]
    obtain hevent | ⟨entry', hget'⟩ := handle_known facts.valid hget
    · exact .inr ⟨_, .head _, hevent⟩
    · refine (h.introduced c entry' hget').imp id ?_
      rintro ⟨announced, hmem, hevent⟩
      exact ⟨announced, .tail _ hmem, hevent⟩
  bounded c epoch hepoch := by
    rw [emitted_cons, wrapEpochs_append, List.mem_append] at hepoch
    obtain hepoch | hepoch := hepoch
    · exact Nat.le_trans (h.bounded c epoch hepoch) facts.epoch_le
    · obtain hnone | ⟨hnext, hone, -⟩ := facts.wrapEpochs_cases law c
      · rw [hnone] at hepoch
        cases hepoch
      · rw [hone, List.mem_singleton] at hepoch
        exact Nat.le_of_eq (hepoch.trans hnext.symm)
  increasing c := by
    rw [emitted_cons, wrapEpochs_append]
    obtain hnone | ⟨-, hone, -⟩ := facts.wrapEpochs_cases law c
    · rw [hnone, List.append_nil]
      exact h.increasing c
    · rw [hone]
      refine List.pairwise_append.mpr ⟨h.increasing c, List.pairwise_singleton _ _, ?_⟩
      intro old hold new hnew
      rw [List.mem_singleton.mp hnew]
      exact Nat.lt_succ_of_le (h.bounded c old hold)
  first m' hm' := by
    rw [emitted_cons, wrapEpochs_append, List.head?_append]
    have hold (m : Member) (hm : m ∈ a.members.members) (heq : m.uncolored = m'.uncolored) :
        (wrapEpochs m'.connection (emitted started past)).head? = some m'.joinedEpoch := by
      rw [← Member.connection_congr heq, ← Member.joinedEpoch_congr heq]
      exact h.first m hm
    obtain ⟨key, wraps, hbegun⟩ | hsteady := facts.begun_or_steady
    · obtain ⟨m, hm, heq⟩ | ⟨q, hq, hconn, -, hjoined⟩ :=
        facts.effect.move.member_inv facts.nofault m' hm'
      · rw [hold m hm heq]
        rfl
      · have hfresh := h.unwrapped facts.valid hq
        rw [← hconn] at hfresh
        rw [hfresh, hbegun.wrapEpochs_of_mem law facts.effect.step.valid hm', hjoined]
        rfl
    · obtain ⟨m, hm, heq⟩ := exists_uncolored_of_mem hsteady.members hm'
      rw [hold m hm heq]
      rfl
  owner c hne := by
    obtain hnone | ⟨-, -, hmember⟩ := facts.wrapEpochs_cases law c
    · rw [emitted_cons, wrapEpochs_append, hnone, List.append_nil] at hne
      obtain ⟨m, hm, rfl⟩ | hbarred := h.owner c hne
      · by_cases hstays : ∃ m' ∈ (a.handle P input).1.members.members, m'.memberId = m.memberId
        · obtain ⟨m', hm', hid⟩ := hstays
          obtain ⟨n, hn, hcolor⟩ := facts.effect.step.later.member m' hm'
            (by rw [hid]; exact facts.valid.id_lt m hm)
          have hnm : n = m := facts.valid.eq_of_memberId hn hm (by rw [← hid, ← hcolor]; rfl)
          refine .inl ⟨m', hm', ?_⟩
          rw [← hcolor, hnm]
          rfl
        · exact .inr (h.barred facts law hm fun m' hm' hid => hstays ⟨m', hm', hid⟩)
      · exact .inr (hbarred.step law facts).1
    · exact .inl hmember

/-! ### Runs -/

section
variable {setup : Setup} {a₀ : RoomActor}

theorem Started.separated (law : P.Lawful) (hstart : Started P setup a₀ started) :
    Separated started [] a₀ := by
  obtain ⟨nickname, sessionId, token, key, wraps, hopening⟩ := hstart.opening
  have hwraps := hopening.begins.wraps law
  have hmembers : a₀.members.members = [setup.hostMember P nickname] := by rw [hopening.actor]; rfl
  have hhost : a₀.hostConnection = setup.hostConnection := by rw [hopening.actor]; rfl
  have hepoch : a₀.epoch = 1 := by rw [hopening.actor]; rfl
  have hself : wrapEpochs setup.hostConnection started = [1] := by
    obtain ⟨_, hsent, wrap, rfl, hof⟩ := hwraps.sentTo_of_mem (List.nodup_singleton _) (.head _)
    rw [hopening.actions, wrapEpochs, sentTo_cons_notifyHost,
      show sentTo setup.hostConnection wraps = _ from hsent]
    exact congrArg (fun epoch => [epoch]) hof.ofEpoch
  have hother : ∀ c, c ≠ setup.hostConnection → wrapEpochs c started = [] := by
    intro c hc
    rw [hopening.actions, wrapEpochs, sentTo_cons_notifyHost, hwraps.sentTo_eq_nil]
    · rfl
    · intro m hm
      rw [List.mem_singleton.mp hm]
      exact hc.symm
  constructor
  case introduced =>
    intro c entry hget
    left
    rw [hhost]
    by_contra hc
    rw [hopening.actor] at hget
    have hnone : (connected P setup nickname sessionId token).connections.get c = none := by
      simp [connected, Connections.promote, Connections.get_update, Connections.get_register, hc]
    cases hnone.symm.trans hget
  all_goals rw [emitted_nil]
  case bounded =>
    intro c epoch hmem
    by_cases hc : c = setup.hostConnection
    · rw [hc, hself, List.mem_singleton] at hmem
      rw [hmem, hepoch]
    · rw [hother c hc] at hmem
      cases hmem
  case increasing =>
    intro c
    by_cases hc : c = setup.hostConnection
    · rw [hc, hself]
      exact List.pairwise_singleton _ _
    · rw [hother c hc]
      exact .nil
  case first =>
    intro m hm
    rw [hmembers, List.mem_singleton] at hm
    rw [hm, show (setup.hostMember P nickname).connection = setup.hostConnection from rfl, hself]
    rfl
  case owner =>
    intro c hne
    by_cases hc : c = setup.hostConnection
    · refine .inl ⟨setup.hostMember P nickname, ?_, hc.symm⟩
      rw [hmembers]
      exact .head _
    · exact absurd (hother c hc) hne

theorem Run.stepFacts (law : P.Lawful) (hstart : Started P setup a₀ started)
    (run : Run P (Orderly P) a₀ past a) {input : Input} (orderly : Orderly P past a input) :
    StepFacts P past a input := by
  have honest : Run P (Honest P) a₀ past a :=
    run.mono fun _ _ _ orderly => orderly.toHonest
  obtain ⟨hvalid, hnofault, heffect⟩ := Run.step_facts law hstart honest orderly.succeeds
  exact ⟨hvalid, Run.holdsMembership hstart run, hnofault, heffect, orderly.fresh⟩

theorem Run.separated (law : P.Lawful) (hstart : Started P setup a₀ started)
    (run : Run P (Orderly P) a₀ past a) : Separated started past a :=
  run.invariant (Separated started) (hstart.separated law) fun _ _ _ run h orderly =>
    h.step law (Run.stepFacts law hstart run orderly)

/-- The actions of a step that ended in `a` wrap only to members of `a`, and for each epoch the
key `keyOf` gives it. -/
def WrapsFor (P : Primitives) (keyOf : Nat → Key) (a : RoomActor) (actions : List RoomAction) :
    Prop :=
  ∀ c wrap, .sendTo c (.epochWrap wrap) ∈ actions → ∃ m ∈ a.members.members, m.connection = c ∧
    WrapOf P a.hostIdentity a.sessionId wrap.epoch (keyOf wrap.epoch) m wrap

/-- A later epoch may be given its key without touching what was wrapped before. -/
theorem WrapsFor.update {keyOf : Nat → Key} {actions : List RoomAction}
    (h : WrapsFor P keyOf a actions) {epoch : Nat} (key : Key)
    (holder : ∀ c wrap, .sendTo c (.epochWrap wrap) ∈ actions → wrap.epoch < epoch) :
    WrapsFor P (Function.update keyOf epoch key) a actions := by
  intro c wrap hmem
  rw [Function.update_of_ne (Nat.ne_of_lt (holder c wrap hmem))]
  exact h c wrap hmem

theorem Begun.wrapsFor (law : P.Lawful) {key : Key} {wraps : List RoomAction}
    (h : Begun P rng a a' result key wraps) (keyOf : Nat → Key) :
    WrapsFor P (Function.update keyOf (a.epoch + 1) key) a' (actionsOf result) := by
  intro c wrap hmem
  obtain hwrap | hplain | ⟨_, _, heq⟩ := h.mem_output hmem
  · obtain ⟨m, hm, _, heq, wrap', rfl, hof⟩ := (h.wrapped law).mem hwrap
    cases heq
    refine ⟨m, hm, rfl, ?_⟩
    rw [h.hostIdentity, h.sessionId, hof.ofEpoch, Function.update_self]
    exact hof
  · cases hplain
  · cases heq

/-- One key for each epoch, over a whole run. -/
theorem Run.keyOf (law : P.Lawful) (hstart : Started P setup a₀ started)
    (run : Run P (Orderly P) a₀ past a) :
    ∃ keyOf : Nat → Key, WrapsFor P keyOf a₀ started ∧
      ∀ entry ∈ past, WrapsFor P keyOf entry.after (actionsOf entry.output) := by
  refine run.invariant (fun past _ => ∃ keyOf : Nat → Key, WrapsFor P keyOf a₀ started ∧
    ∀ entry ∈ past, WrapsFor P keyOf entry.after (actionsOf entry.output)) ?_ ?_
  · obtain ⟨nickname, sessionId, token, key, wraps, hopening⟩ := hstart.opening
    refine ⟨fun _ => key, ?_, fun _ hentry => absurd hentry List.not_mem_nil⟩
    rw [hopening.actor, hopening.actions]
    intro c wrap hmem
    obtain heq | hmem := List.mem_cons.mp hmem
    · cases heq
    obtain ⟨m, hm, _, heq, wrap', rfl, hof⟩ := (hopening.begins.wraps law).mem hmem
    cases heq
    refine ⟨m, hm, rfl, ?_⟩
    rw [hof.ofEpoch]
    exact hof
  · rintro past a input run ⟨keyOf, hstarted, hpast⟩ orderly
    have facts := Run.stepFacts law hstart run orderly
    have hbounded := (Run.separated law hstart run).bounded
    obtain ⟨key, wraps, hbegun⟩ | hsteady := facts.begun_or_steady
    · have holder : ∀ c wrap, .sendTo c (.epochWrap wrap) ∈ emitted started past →
          wrap.epoch < a.epoch + 1 := fun c wrap hmem =>
        Nat.lt_succ_of_le (hbounded c _ (mem_wrapEpochs.mpr ⟨wrap, hmem, rfl⟩))
      refine ⟨Function.update keyOf (a.epoch + 1) key, ?_, ?_⟩
      · exact hstarted.update key fun c wrap hmem =>
          holder c wrap (List.mem_append_left _ hmem)
      · intro entry hentry
        cases hentry with
        | head => exact hbegun.wrapsFor law keyOf
        | tail _ hentry =>
            refine (hpast entry hentry).update key fun c wrap hmem =>
              holder c wrap (List.mem_append_right _ ?_)
            exact List.mem_flatMap.mpr ⟨entry, List.mem_reverse.mpr hentry, hmem⟩
    · refine ⟨keyOf, hstarted, fun entry hentry => ?_⟩
      cases hentry with
      | head =>
          intro c wrap hmem
          cases hsteady.noWrap _ hmem
      | tail _ hentry => exact hpast entry hentry

/-- What a barred connection is spared in the rest of a run. -/
theorem Run.barred (law : P.Lawful) (hstart : Started P setup a₀ started) {base newer : Past}
    {s : RoomActor} {c : ConnectionId} (hs : Run P (Orderly P) a₀ base s)
    (run : Run P (Orderly P) a₀ (newer ++ base) a) (hbarred : Barred started base s c) :
    Barred started (newer ++ base) a c ∧
      wrapEpochs c (emitted started (newer ++ base)) = wrapEpochs c (emitted started base) ∧
      ∀ entry ∈ newer, (∀ wrap, .sendTo c (.epochWrap wrap) ∉ actionsOf entry.output) ∧
        ∀ envelope, Sends entry.output envelope →
          ∀ epoch ∈ wrapEpochs c (emitted started base), epoch < envelope.epoch := by
  induction newer generalizing a with
  | nil =>
      cases hs.unique run
      exact ⟨hbarred, rfl, fun _ hentry => absurd hentry List.not_mem_nil⟩
  | cons entry newer ih =>
      cases run with
      | step run orderly =>
          obtain ⟨hbarred', hsame, hrest⟩ := ih run
          obtain ⟨hnext, hnowrap, hsends⟩ :=
            hbarred'.step law (Run.stepFacts law hstart run orderly)
          refine ⟨hnext, ?_, ?_⟩
          · rw [List.cons_append, emitted_cons, wrapEpochs_append, hsame]
            dsimp only
            rw [hnowrap, List.append_nil]
          · intro entry hentry
            cases hentry with
            | tail _ hentry => exact hrest entry hentry
            | head =>
                refine ⟨fun wrap hmem => ?_, fun envelope henvelope epoch hepoch => ?_⟩
                · have hmem := mem_wrapEpochs.mpr ⟨wrap, hmem, rfl⟩
                  rw [hnowrap] at hmem
                  cases hmem
                · rw [← hsame] at hepoch
                  exact hsends envelope henvelope epoch hepoch

/-- What separates the epoch keys of a run. -/
structure KeysSeparated (P : Primitives) (a₀ : RoomActor) (started : List RoomAction) (past : Past)
    (a : RoomActor) : Prop where
  /-- Wraps go to members of the table, and every epoch has one key. -/
  one_key : ∃ keyOf : Nat → Key, WrapsFor P keyOf a₀ started ∧
    ∀ entry ∈ past, WrapsFor P keyOf entry.after (actionsOf entry.output)
  increasing : ∀ c, (wrapEpochs c (emitted started past)).Pairwise (· < ·)
  /-- A member is never wrapped an epoch older than its join. -/
  first : ∀ m ∈ a.members.members,
    (wrapEpochs m.connection (emitted started past)).head? = some m.joinedEpoch ∧
      ∀ epoch ∈ wrapEpochs m.connection (emitted started past), m.joinedEpoch ≤ epoch
  /-- A removed member gets no wrap, and nothing relayed since is of an epoch it held: no session
  on one of these epochs opens it. -/
  removed : ∀ newer entry older, past = newer ++ entry :: older →
    ∀ m ∈ entry.before.members.members,
    (∀ m' ∈ entry.after.members.members, m'.memberId ≠ m.memberId) → ∀ later ∈ newer,
      (∀ wrap, .sendTo m.connection (.epochWrap wrap) ∉ actionsOf later.output) ∧
      ∀ envelope, Sends later.output envelope →
        ∀ epoch ∈ wrapEpochs m.connection (emitted started past), epoch < envelope.epoch ∧
          ∀ (s : ChatSession) messageType, s.epoch = some epoch →
            (s.openMessage P messageType envelope).2 = .error (.oldEpoch envelope.epoch epoch)

theorem key_separation (law : P.Lawful) (hstart : Started P setup a₀ started)
    (run : Run P (Orderly P) a₀ past a) : KeysSeparated P a₀ started past a := by
  have hseparated := Run.separated law hstart run
  refine ⟨Run.keyOf law hstart run, hseparated.increasing, fun m hm => ⟨hseparated.first m hm, ?_⟩,
    ?_⟩
  · intro epoch hepoch
    have hfirst := hseparated.first m hm
    have hsorted := hseparated.increasing m.connection
    cases hlist : wrapEpochs m.connection (emitted started past) with
    | nil =>
        rw [hlist] at hepoch
        cases hepoch
    | cons first rest =>
        rw [hlist] at hfirst hsorted hepoch
        cases hfirst
        obtain heq | hmem := List.mem_cons.mp hepoch
        · exact Nat.le_of_eq heq.symm
        · exact Nat.le_of_lt ((List.pairwise_cons.mp hsorted).1 epoch hmem)
  · rintro newer entry older rfl m hm hgone later hlater
    obtain ⟨hbefore, horderly, hstep, hafter⟩ := run.split
    have facts := Run.stepFacts law hstart hbefore horderly
    obtain ⟨before, input, output, after⟩ := entry
    obtain rfl : after = (before.handle P input).1 := (congrArg Prod.fst hstep).symm
    obtain rfl : output = (before.handle P input).2 := (congrArg Prod.snd hstep).symm
    have hbarred := (Run.separated law hstart hbefore).barred facts law hm hgone
    obtain ⟨-, hsame, hspared⟩ := Run.barred law hstart hafter run hbarred
    refine ⟨(hspared later hlater).1, fun envelope hsends epoch hepoch => ?_⟩
    rw [hsame] at hepoch
    have hlt := (hspared later hlater).2 envelope hsends epoch hepoch
    refine ⟨hlt, fun s messageType hs => ?_⟩
    obtain ⟨⟨current, key⟩, hcurrent, rfl⟩ := Option.map_eq_some_iff.mp hs
    unfold ChatSession.openMessage
    rw [hcurrent]
    dsimp only
    rw [if_pos (Nat.ne_of_gt hlt)]

theorem key_separation_visit :
    KeysSeparated Symbolic.primitives Symbolic.room Symbolic.roomStarted Symbolic.visited.1
      Symbolic.visited.2 :=
  key_separation Symbolic.lawful Symbolic.room_started Symbolic.visit_orderly

end

end RoomActor

namespace Symbolic
open RoomActor

/-- A guest is accepted while the generator fails, and then a second one while it works. -/
def unkeyed : List Input :=
  [.epochAck 0 1, .clientConnected 1, .passwordVerified 1, .joinRequested 1 application].map
      (fun event => ⟨event, 0, rng 11⟩) ++
    ⟨.hostAccepted 0, 0, broken⟩ ::
      [.clientConnected 2, .passwordVerified 2, .joinRequested 2 neighborApplication,
        .hostAccepted 1].map fun event => ⟨event, 0, rng 11⟩

theorem unkeyed_run : Run primitives (OrderlyEvents primitives) room
    (script primitives room unkeyed).1 (script primitives room unkeyed).2 := by
  refine orderlyEvents_script room_started ?_ (by decide) (by decide)
  intro input hinput c application' hevent
  simp only [unkeyed, List.map_cons, List.map_nil, List.cons_append, List.nil_append, List.mem_cons,
    List.not_mem_nil, or_false] at hinput
  obtain rfl | rfl | rfl | rfl | rfl | rfl | rfl | rfl | rfl := hinput <;> cases hevent
  · exact application_released
  · exact neighborApplication_released

end Symbolic

namespace RoomActor
open Symbolic

/-- The first guest is in the table for epoch 2, which has no key; it is first wrapped epoch 3. -/
theorem not_key_separation : ¬ ∀ past a, Run primitives (OrderlyEvents primitives) room past a →
    KeysSeparated primitives room roomStarted past a := by
  intro hall
  have hfirst := (hall _ _ unkeyed_run).first
  have hlate : ∃ m ∈ (script primitives room unkeyed).2.members.members, m.joinedEpoch = 2 ∧
      (wrapEpochs m.connection (emitted roomStarted (script primitives room unkeyed).1)).head? =
        some 3 := by
    decide +kernel
  obtain ⟨m, hm, hjoined, hwrapped⟩ := hlate
  have hsame := (hfirst m hm).1
  rw [hjoined, hwrapped] at hsame
  cases hsame

end RoomActor

end Veilroom
