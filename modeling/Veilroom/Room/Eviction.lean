import Veilroom.Room.Epochs

/-!
Eviction of the members that withhold an acknowledgement (`on_epoch_timeout`).

`TimeoutOutcome` is what the handler does in a transition, by whether the
deadline has passed and whether the host has acknowledged. The number of
timeouts that fire is bounded by a rank: the number of members, and nothing once
the room is destroyed.
-/
namespace Veilroom
namespace RoomActor
variable {P : Primitives} {rng : Rng} {a a' : RoomActor} {event : RoomEvent}
variable {result : Except RoomError (List RoomAction)}
variable {started : List RoomAction} {past : Past} {p : PendingEpoch}

/-- The two events that check the acknowledgement deadline. -/
def isEpochTimeout : RoomEvent → Bool
  | .epochMaintenance | .timeoutExpired _ .epochAcknowledgement => true
  | _ => false

/-- The deadline of the transition `p` has passed at `now`. -/
def Overdue (a : RoomActor) (p : PendingEpoch) (now : Duration) : Prop :=
  a.timeouts.get .epochAcknowledgement ≤ now - p.startedAt

instance (a : RoomActor) (p : PendingEpoch) (now : Duration) : Decidable (a.Overdue p now) :=
  inferInstanceAs (Decidable (_ ≤ _))

/-- The transition `p` began at its `startedAt`: when the room started, or in the step that
moved the room to its epoch. -/
def BeganAt (past : Past) (p : PendingEpoch) : Prop :=
  (p.epoch = 1 ∧ p.startedAt = 0) ∨ ∃ entry ∈ past, entry.before.epoch < p.epoch ∧
    entry.after.epoch = p.epoch ∧ entry.input.now = p.startedAt

/-- What the timeout leaves when it evicts: the members that acknowledged, in a new transition. -/
structure Evicted (a : RoomActor) (p : PendingEpoch) (now : Duration) (a' : RoomActor)
    (actions : List RoomAction) : Prop where
  members : a'.members.members = a.members.members.filter fun m => m.memberId ∉ p.awaiting
  fewer : a'.members.members.length < a.members.members.length
  forgotten : ∀ m ∈ a.members.members, m.memberId ∈ p.awaiting →
    a'.connections.get m.connection = none
  closed : ∀ c, .closeConnection c ∈ actions ↔
    ∃ m ∈ a.members.members, m.memberId ∈ p.awaiting ∧ m.connection = c
  state : a'.state = .epochTransition
  larger : p.epoch < a'.epoch
  pending : ∃ key, a'.pendingEpoch =
    some ⟨a'.epoch, key, a'.members.members.map Member.memberId, now⟩

/-- What a timeout does while the transition `p` is pending. -/
structure TimeoutOutcome (P : Primitives) (a : RoomActor) (p : PendingEpoch) (input : Input) :
    Prop where
  early : ¬ a.Overdue p input.now → a.handle P input = ({ a with now := input.now }, .ok [])
  closes : a.Overdue p input.now → 0 ∈ p.awaiting → (a.handle P input).1.state = .destroyed ∧
    ∃ actions, (a.handle P input).2 = .ok actions ∧ .notifyHost .roomClosed ∈ actions ∧
      ∀ c ∈ a.connections.ids, .closeConnection c ∈ actions
  evicts : a.Overdue p input.now → 0 ∉ p.awaiting →
    ∃ actions, (a.handle P input).2 = .ok actions ∧
      Evicted a p input.now (a.handle P input).1 actions

/-! ### The handler -/

theorem handle_epochTimeout (hstate : a.state = .epochTransition) {input : Input}
    (hevent : isEpochTimeout input.event = true) :
    a.handle P input = onEpochTimeout P input.rng { a with now := input.now } := by
  unfold handle handleEventAt
  dsimp only
  rw [if_neg (by rw [hstate]; nofun), if_pos hstate]
  unfold isEpochTimeout at hevent
  split at hevent
  · rename_i heq
    rw [heq]
    rfl
  · rename_i heq
    rw [heq]
    rfl
  · cases hevent

/-- In a transition that nothing is pending of, a timeout does nothing. -/
theorem handle_epochTimeout_none (hstate : a.state = .epochTransition)
    (hpending : a.pendingEpoch = none) {input : Input}
    (hevent : isEpochTimeout input.event = true) :
    a.handle P input = ({ a with now := input.now }, .ok []) := by
  rw [handle_epochTimeout hstate hevent, onEpochTimeout]
  dsimp only
  rw [hpending]

/-- The eviction loop closes the connections of the members it finds, and no others. -/
theorem evict_closes (ids : List MemberId) (a : RoomActor) (h : a.registry.Valid)
    (hzero : 0 ∉ ids) (c : ConnectionId) :
    .closeConnection c ∈ (a.evict ids).2.1 ↔
      ∃ m ∈ a.members.members, m.memberId ∈ ids ∧ m.connection = c := by
  induction ids generalizing a with
  | nil => simp [evict]
  | cons id rest ih =>
      rw [List.mem_cons, not_or] at hzero
      cases hfind : a.members.byId id with
      | none =>
          have hnone := List.find?_key_eq_none.mp hfind
          rw [evict, MemberTable.remove, hfind]
          apply (ih a h hzero.2).trans
          constructor
          · rintro ⟨m, hm, hid, hc⟩
            exact ⟨m, hm, .tail _ hid, hc⟩
          · rintro ⟨m, hm, hid, hc⟩
            refine ⟨m, hm, ?_, hc⟩
            exact (List.mem_cons.mp hid).resolve_left (hnone m hm)
      | some m =>
          obtain ⟨hm, rfl⟩ := h.byId_eq_some.mp hfind
          have hstep := h.removeMember hm (Ne.symm hzero.1)
          have hkept : ∀ n, n ∈ (a.without m).members.members ↔
              n ∈ a.members.members ∧ n.memberId ≠ m.memberId := by
            intro n
            have herase : (a.without m).members.members =
                a.members.members.filter fun k => k.memberId ≠ m.memberId :=
              List.eraseP_eq_filter_of_nodup h.ids_nodup m.memberId
            rw [herase, List.mem_filter]
            simp
          have hrest := ih (a.without m) hstep.valid hzero.2
          have heq : (a.evict (m.memberId :: rest)).2.1 =
              .closeConnection m.connection ::
                .notifyHost (.memberLeft m.memberId m.nickname) ::
                  ((a.without m).evict rest).2.1 := by
            rw [evict, MemberTable.remove, hfind]
            rfl
          rw [heq]
          simp only [List.mem_cons, RoomAction.closeConnection.injEq, reduceCtorEq, false_or, hrest]
          constructor
          · rintro (rfl | ⟨n, hn, hid, hc⟩)
            · exact ⟨m, hm, .inl rfl, rfl⟩
            · exact ⟨n, ((hkept n).mp hn).1, .inr hid, hc⟩
          · rintro ⟨n, hn, hid, hc⟩
            by_cases hnm : n.memberId = m.memberId
            · rw [h.eq_of_memberId hn hm hnm] at hc
              exact .inl hc.symm
            · exact .inr ⟨n, (hkept n).mpr ⟨hn, hnm⟩, hid.resolve_left hnm, hc⟩

/-- The wraps of a transition close nothing. -/
theorem closeConnection_not_mem_wraps {b : RoomActor} {key : Key} {wraps : List RoomAction}
    (hbegins : Begins P rng b key wraps) (c : ConnectionId) : .closeConnection c ∉ wraps := by
  intro hmem
  have hwrap := isWrap_of_wrapAll hbegins.wrapped _ hmem
  cases hwrap

theorem mem_ids_closed (c : ConnectionId) (hc : c ∈ a.connections.ids) :
    .closeConnection c ∈ (a.connections.ids.flatMap fun connection =>
      [RoomAction.sendTo connection .shutdown, .closeConnection connection]) ++
        [.notifyHost .roomClosed] := by
  apply List.mem_append_left
  exact List.mem_flatMap.mpr ⟨c, hc, .tail _ (.head _)⟩

/-- An overdue timeout evicts who is awaited and begins another epoch for the others. -/
theorem onEpochTimeout_overdue (P : Primitives) (rng : Rng) (hpending : a.pendingEpoch = some p)
    (hoverdue : a.Overdue p a.now) (hzero : 0 ∉ p.awaiting) :
    a.onEpochTimeout P rng =
      match ({ a with pendingEpoch := none }.evict p.awaiting).1.beginEpochTransition P rng with
      | (b, .error error) => (b, .error error)
      | (b, .ok wraps) =>
        (b.queueMembersGone P ({ a with pendingEpoch := none }.evict p.awaiting).2.2 msgMemberLeft,
          .ok (({ a with pendingEpoch := none }.evict p.awaiting).2.1 ++ wraps)) := by
  unfold onEpochTimeout
  rw [hpending]
  dsimp only
  rw [if_neg (Nat.not_lt.mpr hoverdue), if_neg hzero]
  rfl

/-- The eviction, once the deadline has passed and the host is not late itself. -/
theorem onEpochTimeout_evicts (h : a.registry.Valid) (hnofault : NoFault P rng a)
    (hpending : a.pendingEpoch = some p) (hepoch : p.epoch = a.epoch) (hawaited : p.awaiting ≠ [])
    (hmembers : ∀ id ∈ p.awaiting, ∃ m ∈ a.members.members, m.memberId = id)
    (hoverdue : a.Overdue p a.now) (hzero : 0 ∉ p.awaiting) :
    ∃ actions, (a.onEpochTimeout P rng).2 = .ok actions ∧
      Evicted a p a.now (a.onEpochTimeout P rng).1 actions := by
  let a₁ : RoomActor := { a with pendingEpoch := none }
  have hevict := evict_spec p.awaiting a₁ h hzero
  have hcloses := evict_closes p.awaiting a₁ h hzero
  have hunfold := onEpochTimeout_overdue P rng hpending hoverdue hzero
  generalize a₁.evict p.awaiting = evicted at hevict hcloses hunfold
  obtain ⟨b, closes, gone⟩ := evicted
  dsimp only at hevict hcloses hunfold
  have htabled : Tabled a b := Tabled.trans (b := a₁)
    ⟨⟨rfl, rfl, rfl, rfl, rfl⟩, rfl, rfl, rfl, rfl, rfl, rfl, rfl⟩ hevict.tabled
  have hkept : b.members.members = a.members.members.filter fun m => m.memberId ∉ p.awaiting := by
    rw [hevict.members]
    refine List.filter_congr fun m hm => ?_
    have hiff : m.memberId ∈ gone ↔ m.memberId ∈ p.awaiting :=
      (hevict.gone m.memberId).trans ⟨fun h => h.1, fun h => ⟨h, m, hm, rfl⟩⟩
    simp [hiff]
  obtain ⟨key, wraps, hbegins, heq⟩ | ⟨error, heq⟩ := beginEpochTransition_cases P rng b
  rotate_left
  · refine absurd (congrArg Prod.snd heq) (hnofault b error htabled fun m hm => ?_)
    rw [hkept] at hm
    exact .inl (List.mem_filter.mp hm).1
  rw [heq] at hunfold
  obtain ⟨sequence, held, hqueue, -⟩ :=
    queueMembersGone_eq (P := P) (b.rotated key) gone msgMemberLeft
  refine ⟨closes ++ wraps, by rw [hunfold], ?_⟩
  rw [hunfold]
  dsimp only
  rw [hqueue]
  exact {
    members := hkept
    fewer := by
      change b.members.members.length < _
      rw [hkept]
      obtain ⟨id, hid⟩ := List.exists_mem_of_ne_nil _ hawaited
      obtain ⟨m, hm, rfl⟩ := hmembers id hid
      apply List.length_filter_lt_length_iff_exists.mpr
      exact ⟨m, hm, by simpa using hid⟩
    forgotten := fun m hm hid => hevict.step.departed m hm fun m' hm' hsame => by
      have hm' : m' ∈ b.members.members := hm'
      rw [hkept, List.mem_filter] at hm'
      rw [hsame] at hm'
      simp [hid] at hm'
    closed := fun c => by
      rw [List.mem_append, hcloses c]
      exact or_iff_left (closeConnection_not_mem_wraps hbegins c)
    state := rfl
    larger := by
      have hb := htabled.epoch
      change p.epoch < b.epoch + 1
      omega
    pending := by
      refine ⟨key, ?_⟩
      rw [← htabled.now]
      rfl }

theorem Transitioning.timeoutOutcome (h : Transitioning P started past a p)
    (hvalid : a.registry.Valid) {input : Input} (hevent : isEpochTimeout input.event = true)
    (hnofault : NoFault P input.rng { a with now := input.now }) : TimeoutOutcome P a p input := by
  have hhandle := handle_epochTimeout (P := P) h.state hevent
  constructor
  · intro hearly
    rw [hhandle]
    unfold onEpochTimeout
    rw [show RoomActor.pendingEpoch { a with now := input.now } = some p from h.pending]
    dsimp only
    rw [if_pos (Nat.lt_of_not_le hearly)]
  · intro hoverdue hzero
    rw [hhandle]
    unfold onEpochTimeout
    rw [show RoomActor.pendingEpoch { a with now := input.now } = some p from h.pending]
    dsimp only
    rw [if_neg (Nat.not_lt.mpr hoverdue), if_pos hzero, closeRoom,
      if_neg (by rw [h.state]; nofun)]
    refine ⟨rfl, _, rfl, List.mem_append_right _ (.head _), fun c hc => ?_⟩
    exact mem_ids_closed c hc
  · intro hoverdue hzero
    rw [hhandle]
    obtain ⟨actions, hok, hevicted⟩ := onEpochTimeout_evicts (a := { a with now := input.now })
      hvalid hnofault h.pending h.epoch h.awaited h.awaiting hoverdue hzero
    exact ⟨actions, hok, { hevicted with }⟩

/-! ### Who has acknowledged, and since when -/

/-- A pending transition after a step is the one before it, perhaps with one more member's
acknowledgement, or it has just begun. -/
theorem Move.pending_cases (hnofault : NoFault P rng a) (h : Move P rng a event a' result)
    (hopen : a'.state ≠ .destroyed) {p' : PendingEpoch} (hp' : a'.pendingEpoch = some p') :
    (∃ key wraps, Begun P rng a a' result key wraps) ∨
      (a'.members.members.map Member.uncolored = a.members.members.map Member.uncolored ∧
        ∃ p, a.pendingEpoch = some p ∧ (p' = p ∨ ∃ connection id,
          event = .epochAck connection p.epoch ∧ a.connections.memberId connection = some id ∧
            p' = p.retain id)) := by
  cases h with
  | refused => exact .inr ⟨rfl, p', hp', .inl rfl⟩
  | failed htabled hmembers hfail => exact absurd hfail (hnofault _ _ htabled hmembers)
  | quiet hstill => exact .inr ⟨hstill.members, p', hstill.pendingEpoch ▸ hp', .inl rfl⟩
  | relayed _ _ hstill => exact .inr ⟨hstill.members, p', hstill.pendingEpoch ▸ hp', .inl rfl⟩
  | policySet _ _ _ hpending hmembers =>
      refine .inr ⟨?_, p', hpending.symm.trans hp', .inl rfl⟩
      exact congrArg (fun t : MemberTable => t.members.map Member.uncolored) hmembers
  | @acked pending connection id hevent hpending hmember =>
      cases hp'
      exact .inr ⟨rfl, pending, hpending, .inr ⟨connection, id, hevent, hmember, rfl⟩⟩
  | activated => cases hp'
  | joined _ htabled _ _ _ hbegins => exact .inl ⟨_, _, begun_of_joined htabled hbegins _⟩
  | @departed _ _ _ gone before after eventType htabled _ _ _ _ _ _ hbegins hplain =>
      exact .inl ⟨_, _, begun_of_departed htabled hbegins gone eventType before after hplain⟩
  | closed => exact absurd rfl hopen

/-- Where the pending transition came from, and whose acknowledgements it has counted. -/
def Tracked (past : Past) (a : RoomActor) : Prop :=
  ∀ p, a.pendingEpoch = some p → BeganAt past p ∧ ∀ m ∈ a.members.members,
    m.memberId ∈ p.awaiting ∨ AckedWhilePending past m.connection p.epoch

theorem BeganAt.cons (h : BeganAt past p) (entry : Step) : BeganAt (entry :: past) p :=
  h.imp id fun ⟨began, hmem, hepochs⟩ => ⟨began, .tail _ hmem, hepochs⟩

theorem AckedWhilePending.cons {connection : ConnectionId} {epoch : Nat}
    (h : AckedWhilePending past connection epoch) (entry : Step) :
    AckedWhilePending (entry :: past) connection epoch := by
  obtain ⟨ack, hmem, hack⟩ := h
  exact ⟨ack, .tail _ hmem, hack⟩

theorem Tracked.step {input : Input} (h : Tracked past a) (hvalid : a.registry.Valid)
    (hnofault : NoFault P input.rng { a with now := input.now })
    (hmove : Move P input.rng { a with now := input.now } input.event (a.handle P input).1
      (a.handle P input).2) (hopen : (a.handle P input).1.state ≠ .destroyed) :
    Tracked (⟨a, input, (a.handle P input).2, (a.handle P input).1⟩ :: past)
      (a.handle P input).1 := by
  intro p' hp'
  obtain ⟨key, wraps, hbegun⟩ | ⟨hmembers, p, hp, hcases⟩ := hmove.pending_cases hnofault hopen hp'
  · have hpending := hbegun.pendingEpoch
    rw [hp'] at hpending
    cases hpending
    refine ⟨.inr ⟨_, .head _, Nat.lt_succ_self _, hbegun.epoch, rfl⟩, fun m hm => ?_⟩
    exact .inl (List.mem_map_of_mem hm)
  · obtain ⟨hbegan, hacked⟩ := h p hp
    have hkept : ∀ m' ∈ (a.handle P input).1.members.members, m'.memberId ∈ p.awaiting ∨
        AckedWhilePending past m'.connection p.epoch := by
      intro m' hm'
      obtain ⟨m, hm, heq⟩ := exists_uncolored_of_mem hmembers hm'
      rw [← Member.memberId_congr heq, ← Member.connection_congr heq]
      exact hacked m hm
    obtain rfl | ⟨connection, id, hevent, hmember, rfl⟩ := hcases
    · exact ⟨hbegan.cons _, fun m hm => (hkept m hm).imp_right fun hack => hack.cons _⟩
    · refine ⟨hbegan.cons _, fun m' hm' => ?_⟩
      by_cases hid : m'.memberId = id
      · -- the member whose acknowledgement this is
        obtain ⟨m, hm, heq⟩ := exists_uncolored_of_mem hmembers hm'
        obtain ⟨n, hn, hconn, hnid⟩ := hvalid.entry_member connection id hmember
        have hmn : m = n :=
          hvalid.eq_of_memberId hm hn ((Member.memberId_congr heq).trans (hid.trans hnid.symm))
        refine .inr ⟨_, .head _, ?_, p, hp, rfl⟩
        dsimp only
        rw [hevent, ← Member.connection_congr heq, hmn, hconn]
        rfl
      · refine (hkept m' hm').imp (fun hmem => ?_) fun hack => hack.cons _
        rw [PendingEpoch.retain, List.mem_filter]
        exact ⟨hmem, by simpa using hid⟩

section
variable {setup : Setup} {a₀ : RoomActor}

theorem Run.tracked (law : P.Lawful) (hstart : Started P setup a₀ started)
    (run : Run P (Honest P) a₀ past a) : a.state = .destroyed ∨ Tracked past a := by
  refine run.invariant (fun past a => a.state = .destroyed ∨ Tracked past a) (.inr ?_) ?_
  · obtain ⟨nickname, sessionId, token, key, wraps, hopening⟩ := hstart.opening
    rw [hopening.actor]
    intro p hp
    cases hp
    exact ⟨.inl ⟨rfl, rfl⟩, fun m hm => .inl (List.mem_map_of_mem hm)⟩
  · rintro past a input run (hdestroyed | htracked) honest
    · rw [handle_destroyed hdestroyed]
      exact .inl hdestroyed
    obtain ⟨hvalid, hnofault, heffect⟩ := Run.step_facts law hstart run honest.succeeds
    by_cases hopen : (a.handle P input).1.state = .destroyed
    · exact .inl hopen
    · exact .inr (htracked.step hvalid hnofault heffect.move hopen)

/-! ### How many timeouts can fire -/

/-- The step is a timeout that found its transition overdue. -/
def fires (entry : Step) : Bool :=
  entry.before.state = .epochTransition && isEpochTimeout entry.input.event &&
    entry.before.pendingEpoch.any fun p => entry.before.Overdue p entry.input.now

/-- Somebody is in the table after the step who was not there before. -/
def Admits (entry : Step) : Prop :=
  ∃ m ∈ entry.after.members.members, ∀ n ∈ entry.before.members.members, n.memberId ≠ m.memberId

/-- The members of a room that is still there. -/
def population (a : RoomActor) : Nat :=
  if a.state = .destroyed then 0 else a.members.members.length

theorem population_le_of_not_admits {entry : Step} (hvalid : entry.after.registry.Valid)
    (h : ¬ Admits entry) :
    entry.after.members.members.length ≤ entry.before.members.members.length := by
  have hsubset : entry.after.members.members.map Member.memberId ⊆
      entry.before.members.members.map Member.memberId := by
    intro id hid
    obtain ⟨m, hm, rfl⟩ := List.mem_map.mp hid
    by_contra hnot
    exact h ⟨m, hm, fun n hn heq => hnot (heq ▸ List.mem_map_of_mem hn)⟩
  have hle := (List.subperm_of_subset hvalid.ids_nodup hsubset).length_le
  rw [List.length_map, List.length_map] at hle
  exact hle

/-- A timeout that fires takes somebody out of the room, or closes it. -/
theorem population_pays (law : P.Lawful) (hstart : Started P setup a₀ started)
    (run : Run P (Honest P) a₀ past a) {input : Input} (honest : Honest P past a input)
    (hadmits : ¬ Admits ⟨a, input, (a.handle P input).2, (a.handle P input).1⟩) :
    (a.handle P input).1.population +
      (if fires ⟨a, input, (a.handle P input).2, (a.handle P input).1⟩ then 1 else 0) ≤
        a.population := by
  obtain ⟨hvalid, hnofault, heffect⟩ := Run.step_facts law hstart run honest.succeeds
  obtain hdestroyed | hphase := Run.phase law hstart run
  · rw [handle_destroyed hdestroyed]
    simp [population, fires, hdestroyed]
  have hopen : a.state ≠ .destroyed := by
    obtain ⟨p, h⟩ | h := hphase
    · rw [h.state]
      nofun
    · rw [h.state]
      cases a.policy <;> nofun
  have hhost : 0 < a.members.members.length := by
    obtain ⟨m, hm, -⟩ := hvalid.host
    exact List.length_pos_of_mem hm
  rw [population, population, if_neg hopen]
  split
  · -- the room is destroyed, and there was at least the host
    split <;> omega
  rename_i hafter
  have hle := population_le_of_not_admits heffect.step.valid hadmits
  dsimp only at hle
  split
  · rename_i hfires
    simp only [fires, Bool.and_eq_true, decide_eq_true_eq] at hfires
    obtain ⟨⟨hstate, hevent⟩, hdue⟩ := hfires
    obtain ⟨p, hpending, hoverdue⟩ := (Option.any_eq_true _ _).mp hdue
    obtain ⟨q, h⟩ | h := hphase
    · cases h.pending.symm.trans hpending
      have houtcome := h.timeoutOutcome hvalid hevent hnofault
      by_cases hzero : 0 ∈ p.awaiting
      · exact absurd (houtcome.closes (of_decide_eq_true hoverdue) hzero).1 hafter
      · obtain ⟨_, -, hevicted⟩ := houtcome.evicts (of_decide_eq_true hoverdue) hzero
        exact hevicted.fewer
    · rw [h.pending] at hpending
      cases hpending
  · exact hle

/-- What holds of acknowledgement timeouts at the end of a run. -/
structure TimeoutsEvict (P : Primitives) (a₀ : RoomActor) (past : Past) (a : RoomActor) :
    Prop where
  /-- In a transition, an acknowledgement is what is not awaited, the clock is what the
  transition began with, and a timeout does what `TimeoutOutcome` says. -/
  transition : a.state = .epochTransition → ∃ p, a.pendingEpoch = some p ∧ p.epoch = a.epoch ∧
    BeganAt past p ∧
    (∀ m ∈ a.members.members,
      m.memberId ∉ p.awaiting ↔ AckedWhilePending past m.connection p.epoch) ∧
    ∀ input, input.rng.Succeeds → isEpochTimeout input.event = true → TimeoutOutcome P a p input
  /-- While nobody joins, no more timeouts fire than there are members. -/
  bounded : ∀ newer older b, past = newer ++ older → Run P (Honest P) a₀ older b →
    (∀ entry ∈ newer, ¬ Admits entry) → (newer.filter fires).length ≤ b.members.members.length

theorem ack_timeout_eviction (law : P.Lawful) (hstart : Started P setup a₀ started)
    (run : Run P (Honest P) a₀ past a) : TimeoutsEvict P a₀ past a := by
  constructor
  · intro hstate
    have hopen : a.state ≠ .destroyed := by
      rw [hstate]
      nofun
    obtain ⟨p, h⟩ | h := (Run.phase law hstart run).resolve_left hopen
    · obtain ⟨hbegan, hacked⟩ := (Run.tracked law hstart run).resolve_left hopen p h.pending
      have hcounted := (Run.acksCounted law hstart run).resolve_left hopen
      refine ⟨p, h.pending, h.epoch, hbegan, fun m hm => ⟨?_, ?_⟩, fun input hrng hevent => ?_⟩
      · exact (hacked m hm).resolve_left
      · exact fun hack => (hcounted m.connection p.epoch hack).2 p h.pending rfl m hm rfl
      · obtain ⟨hvalid, hnofault, -⟩ := Run.step_facts law hstart run hrng
        exact h.timeoutOutcome hvalid hevent hnofault
    · rw [h.state] at hstate
      exact absurd hstate (JoinPolicy.roomState_ne_epochTransition _)
  · rintro newer older b rfl first hadmits
    have hcount := Machine.Run.count_le population fires first run
      fun past a input run honest hmem => population_pays law hstart run honest (hadmits _ hmem)
    refine Nat.le_trans (Nat.le_of_add_right_le hcount) ?_
    unfold population
    split
    · exact Nat.zero_le _
    · exact Nat.le_refl _

end

end RoomActor

namespace Symbolic
open RoomActor

/-- The guest joins and never acknowledges; the host does, and two minutes pass. -/
def stall : List Input :=
  [.epochAck 0 1, .clientConnected 1, .passwordVerified 1, .joinRequested 1 application,
    .hostAccepted 0, .epochAck 0 2, .epochMaintenance].map
      (fun event => ⟨event, 0, rng 11⟩) ++
    [⟨.timeoutExpired 1 .epochAcknowledgement, 120000000000, rng 11⟩]

def stalled : Past × RoomActor := script primitives room stall

theorem stall_orderly : Run primitives (Orderly primitives) room stalled.1 stalled.2 := by
  refine orderly_script room_started ?_ ?_ (by decide) (by decide)
  · intro input hinput
    obtain hinput | hinput := List.mem_append.mp hinput
    · obtain ⟨event, -, rfl⟩ := List.mem_map.mp hinput
      exact rng_succeeds 11
    · rw [List.mem_singleton.mp hinput]
      exact rng_succeeds 11
  · intro input hinput c application' hevent
    simp only [stall, List.map_cons, List.map_nil, List.cons_append, List.nil_append, List.mem_cons,
      List.not_mem_nil, or_false] at hinput
    obtain rfl | rfl | rfl | rfl | rfl | rfl | rfl | rfl := hinput <;> cases hevent
    exact application_released

end Symbolic

namespace RoomActor
open Symbolic

theorem ack_timeout_eviction_stalled :
    TimeoutsEvict primitives room stalled.1 stalled.2 ∧
      (stalled.1.filter fires).length = 1 ∧
      stalled.2.members.members.map Member.memberId = [0] ∧ stalled.2.epoch = 3 :=
  ⟨ack_timeout_eviction lawful room_started (honest_of_orderly stall_orderly),
    by decide +kernel, by decide +kernel, by decide +kernel⟩

/-- The guest's time is up while the generator fails: the batch that closes its connection is lost,
no transition begins, and no later timeout does anything. -/
theorem not_ack_timeout_eviction :
    (¬ ∀ past a, Run primitives (Orderly primitives) room past a → a.state = .epochTransition →
      ∃ p, a.pendingEpoch = some p ∧ ∀ input, isEpochTimeout input.event = true →
        TimeoutOutcome primitives a p input) ∧
    ∀ input, isEpochTimeout input.event = true →
      let stuck := (awaited.2.handle primitives (lateGuest broken)).1
      stuck.handle primitives input = ({ stuck with now := input.now }, .ok []) := by
  have hstuck : (awaited.2.handle primitives (lateGuest broken)).1.state = .epochTransition ∧
      (awaited.2.handle primitives (lateGuest broken)).1.pendingEpoch.isNone = true := by
    decide +kernel
  constructor
  · intro hall
    obtain ⟨p, hp, houtcome⟩ := hall _ _ awaited_orderly (by decide +kernel)
    have hdue : ∀ p, awaited.2.pendingEpoch = some p → awaited.2.Overdue p 120000000000 ∧
        0 ∉ p.awaiting := by
      have hchecked : awaited.2.pendingEpoch.all (fun p =>
          awaited.2.Overdue p 120000000000 ∧ 0 ∉ p.awaiting) = true := by
        decide +kernel
      intro p hp
      rw [hp] at hchecked
      exact of_decide_eq_true hchecked
    obtain ⟨hoverdue, hhost⟩ := hdue p hp
    obtain ⟨actions, hok, -⟩ := (houtcome (lateGuest broken) rfl).evicts hoverdue hhost
    have hfailed : (awaited.2.handle primitives (lateGuest broken)).2.isOk = false := by
      decide +kernel
    rw [hok] at hfailed
    cases hfailed
  · intro input hevent
    exact handle_epochTimeout_none hstuck.1 (Option.isNone_iff_eq_none.mp hstuck.2) hevent

end RoomActor

end Veilroom
