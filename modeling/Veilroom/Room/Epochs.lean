import Veilroom.Room.Atomicity

/-!
The epoch state of the room over whole runs.

Outside of `destroyed` the room is in one of two phases, `Transitioning` or
`Settled`, and every step of an honest run takes a phase to a phase. Both carry
which members have acknowledged the current epoch, and where in the past.
-/
namespace Veilroom
namespace RoomActor
variable {P : Primitives} {rng : Rng} {a a' : RoomActor} {event : RoomEvent}
variable {result : Except RoomError (List RoomAction)}
variable {started : List RoomAction} {past : Past}

abbrev Step := Machine.Entry RoomActor Input (Except RoomError (List RoomAction))

/-- `m` acknowledged `epoch` on its own connection, after a wrap of `epoch` was emitted to it. -/
def AcknowledgedSince (started : List RoomAction) (past : Past) (m : Member) (epoch : Nat) :
    Prop :=
  ∃ newer older, past = newer ++ older ∧
    (∃ entry ∈ newer, entry.input.event = .epochAck m.connection epoch) ∧
    ∃ wrap, .sendTo m.connection (.epochWrap wrap) ∈ emitted started older ∧ wrap.epoch = epoch

/-- `key` was wrapped for the current epoch, for every member. -/
def Wrapped (P : Primitives) (started : List RoomAction) (past : Past) (a : RoomActor)
    (key : Key) : Prop :=
  ∀ m ∈ a.members.members, ∃ wrap, .sendTo m.connection (.epochWrap wrap) ∈ emitted started past ∧
    WrapOf P a.hostIdentity a.sessionId a.epoch key m wrap

structure Transitioning (P : Primitives) (started : List RoomAction) (past : Past) (a : RoomActor)
    (p : PendingEpoch) : Prop where
  state : a.state = .epochTransition
  pending : a.pendingEpoch = some p
  epoch : p.epoch = a.epoch
  awaited : p.awaiting ≠ []
  awaiting : ∀ id ∈ p.awaiting, ∃ m ∈ a.members.members, m.memberId = id
  wrapped : Wrapped P started past a p.key
  acked : ∀ m ∈ a.members.members,
    m.memberId ∈ p.awaiting ∨ AcknowledgedSince started past m a.epoch

structure Settled (P : Primitives) (started : List RoomAction) (past : Past) (a : RoomActor) :
    Prop where
  state : a.state = a.policy.roomState
  pending : a.pendingEpoch = none
  held : a.pendingMembership = []
  epochKey : ∃ key, a.epochKey = some key ∧ Wrapped P started past a key
  acked : ∀ m ∈ a.members.members, AcknowledgedSince started past m a.epoch

def Phase (P : Primitives) (started : List RoomAction) (past : Past) (a : RoomActor) : Prop :=
  (∃ p, Transitioning P started past a p) ∨ Settled P started past a

theorem JoinPolicy.roomState_ne_epochTransition (policy : JoinPolicy) :
    policy.roomState ≠ .epochTransition := by
  cases policy <;> nofun

theorem AcknowledgedSince.cons {m : Member} {epoch : Nat}
    (h : AcknowledgedSince started past m epoch) (entry : Step) :
    AcknowledgedSince started (entry :: past) m epoch := by
  obtain ⟨newer, older, rfl, ⟨ack, hack, hevent⟩, hwrap⟩ := h
  exact ⟨entry :: newer, older, rfl, ⟨ack, .tail _ hack, hevent⟩, hwrap⟩

/-- An acknowledgement that arrives now, with the wrap in the past. -/
theorem AcknowledgedSince.now {m : Member} {epoch : Nat} {entry : Step} {wrap : EpochWrap}
    (hwrap : .sendTo m.connection (.epochWrap wrap) ∈ emitted started past)
    (hepoch : wrap.epoch = epoch) (hevent : entry.input.event = .epochAck m.connection epoch) :
    AcknowledgedSince started (entry :: past) m epoch :=
  ⟨[entry], past, rfl, ⟨entry, .head _, hevent⟩, wrap, hwrap, hepoch⟩

/-- Nothing a phase says about a member depends on its color. -/
theorem Wrapped.congr {key : Key} (h : Wrapped P started past a key) (hsame : SameRoom a a')
    (hepoch : a'.epoch = a.epoch)
    (hmembers : a'.members.members.map Member.uncolored = a.members.members.map Member.uncolored)
    (entry : Step) : Wrapped P started (entry :: past) a' key := by
  intro m' hm'
  obtain ⟨m, hm, heq⟩ := exists_uncolored_of_mem hmembers hm'
  obtain ⟨wrap, hwrap, hof⟩ := h m hm
  have hconn : m.connection = m'.connection := Member.connection_congr heq
  refine ⟨wrap, ?_, ?_⟩
  · rw [emitted_cons, ← hconn]
    exact List.mem_append_left _ hwrap
  · rw [hsame.hostIdentity, hsame.sessionId, hepoch]
    have hof : WrapOf P a.hostIdentity a.sessionId a.epoch key m.uncolored wrap := { hof with }
    rw [heq] at hof
    exact { hof with }

private theorem acked_congr {m' : Member}
    (hmembers : a'.members.members.map Member.uncolored = a.members.members.map Member.uncolored)
    (hm' : m' ∈ a'.members.members) {Q : MemberId → Prop}
    (h : ∀ m ∈ a.members.members, Q m.memberId ∨ AcknowledgedSince started past m a.epoch)
    (entry : Step) : Q m'.memberId ∨ AcknowledgedSince started (entry :: past) m' a.epoch := by
  obtain ⟨m, hm, heq⟩ := exists_uncolored_of_mem hmembers hm'
  have hid : m.memberId = m'.memberId := Member.memberId_congr heq
  have hconn : m.connection = m'.connection := Member.connection_congr heq
  rw [← hid]
  refine (h m hm).imp id fun hack => ?_
  have hack := hack.cons entry
  rw [AcknowledgedSince, hconn] at hack
  exact hack

private theorem all_acked_congr (hepoch : a'.epoch = a.epoch)
    (hmembers : a'.members.members.map Member.uncolored = a.members.members.map Member.uncolored)
    (h : ∀ m ∈ a.members.members, AcknowledgedSince started past m a.epoch) (entry : Step) :
    ∀ m' ∈ a'.members.members, AcknowledgedSince started (entry :: past) m' a'.epoch := by
  intro m' hm'
  rw [hepoch]
  exact (acked_congr (Q := fun _ => False) hmembers hm' (fun m hm => .inr (h m hm))
    entry).resolve_left id

theorem Phase.still (h : Phase P started past a) (hstill : Still a a') (entry : Step) :
    Phase P started (entry :: past) a' := by
  obtain ⟨p, h⟩ | h := h
  · refine .inl ⟨p, ?_⟩
    exact {
      state := hstill.state.trans h.state
      pending := hstill.pendingEpoch.trans h.pending
      epoch := h.epoch.trans hstill.epoch.symm
      awaited := h.awaited
      awaiting := fun id hid => by
        obtain ⟨m, hm, rfl⟩ := h.awaiting id hid
        obtain ⟨m', hm', heq⟩ := exists_uncolored_of_mem hstill.members.symm hm
        exact ⟨m', hm', Member.memberId_congr heq⟩
      wrapped := h.wrapped.congr hstill.toSameRoom hstill.epoch hstill.members entry
      acked := fun m' hm' => by
        rw [hstill.epoch]
        exact acked_congr hstill.members hm' h.acked entry }
  · refine .inr ?_
    obtain ⟨key, hkey, hwrapped⟩ := h.epochKey
    exact {
      state := by rw [hstill.state, hstill.policy, h.state]
      pending := hstill.pendingEpoch.trans h.pending
      held := hstill.pendingMembership.trans h.held
      epochKey := ⟨key, hstill.epochKey.trans hkey,
        hwrapped.congr hstill.toSameRoom hstill.epoch hstill.members entry⟩
      acked := all_acked_congr hstill.epoch hstill.members h.acked entry }

/-- A transition begins with everyone awaited. -/
theorem Begun.transitioning (law : P.Lawful) (hvalid : a'.registry.Valid) {key : Key}
    {wraps : List RoomAction} (h : Begun P rng a a' result key wraps) {entry : Step}
    (hentry : entry.output = result) :
    Transitioning P started (entry :: past) a'
      ⟨a.epoch + 1, key, a'.members.members.map Member.memberId, a.now⟩ where
  state := h.state
  pending := h.pendingEpoch
  epoch := h.epoch.symm
  awaited := by
    obtain ⟨m, hm, -⟩ := hvalid.host
    exact List.ne_nil_of_mem (List.mem_map_of_mem hm)
  awaiting id hid := List.mem_map.mp hid
  wrapped m hm := by
    obtain ⟨wrap, hwrap, hof⟩ := h.wrap_of_mem law hm
    refine ⟨wrap, ?_, ?_⟩
    · rw [emitted_cons, hentry]
      exact List.mem_append_right _ hwrap
    · rw [h.hostIdentity, h.sessionId, h.epoch]
      exact hof
  acked m hm := .inl (List.mem_map_of_mem hm)

/-- In a phase, the member an acknowledgement came from has a wrap of the current epoch. -/
private theorem acked_now (hvalid : a.registry.Valid) {p : PendingEpoch}
    (h : Transitioning P started past a p) {connection : ConnectionId} {memberId : MemberId}
    (hmember : a.connections.memberId connection = some memberId) {entry : Step}
    (hevent : entry.input.event = .epochAck connection p.epoch) :
    ∀ m ∈ a.members.members, m.memberId ∈ (p.retain memberId).awaiting ∨
      AcknowledgedSince started (entry :: past) m a.epoch := by
  intro m hm
  obtain hawaited | hack := h.acked m hm
  · by_cases hid : m.memberId = memberId
    · obtain ⟨n, hn, hconn, hnid⟩ := hvalid.entry_member connection memberId hmember
      have hmn : m = n := hvalid.eq_of_memberId hm hn (hid.trans hnid.symm)
      obtain ⟨wrap, hwrap, hof⟩ := h.wrapped m hm
      refine .inr (.now hwrap hof.ofEpoch ?_)
      rw [hevent, h.epoch, hmn, hconn]
    · refine .inl ?_
      rw [PendingEpoch.retain, List.mem_filter]
      exact ⟨hawaited, by simpa using hid⟩
  · exact .inr (hack.cons entry)

/-- Every move of a room that does not fail takes a phase to a phase, or closes the room. -/
theorem Phase.move (law : P.Lawful) (hvalid : a.registry.Valid) (hvalid' : a'.registry.Valid)
    (hnofault : NoFault P rng a) (h : Phase P started past a) (entry : Step)
    (hmove : Move P rng a entry.input.event a' entry.output) :
    a'.state = .destroyed ∨ Phase P started (entry :: past) a' := by
  generalize hevent : entry.input.event = event at hmove
  generalize hresult : entry.output = result at hmove
  cases hmove with
  | refused =>
      refine .inr (h.still ?_ entry)
      exact { Still.refl a with }
  | quiet hstill => exact .inr (h.still hstill entry)
  | relayed _ _ hstill => exact .inr (h.still hstill entry)
  | failed htabled hmembers hfail => exact absurd hfail (hnofault _ _ htabled hmembers)
  | policySet actions hstate htabled hpending hmembers _ =>
      refine .inr (.inr ?_)
      obtain ⟨p, h⟩ | h := h
      · exact absurd h.state hstate
      have hplain := congrArg (fun t : MemberTable => t.members.map Member.uncolored) hmembers
      obtain ⟨key, hkey, hwrapped⟩ := h.epochKey
      exact {
        state := rfl
        pending := hpending.trans h.pending
        held := htabled.pendingMembership.trans h.held
        epochKey := ⟨key, htabled.epochKey.trans hkey,
          hwrapped.congr { htabled.toSameRoom with } htabled.epoch hplain entry⟩
        acked := all_acked_congr htabled.epoch hplain h.acked entry }
  | @acked pending connection memberId hack hpending hmember _ hrest =>
      obtain ⟨p, h⟩ | h := h
      · cases h.pending.symm.trans hpending
        refine .inr (.inl ⟨pending.retain memberId, ?_⟩)
        exact {
          state := h.state
          pending := rfl
          epoch := h.epoch
          awaited := hrest
          awaiting := fun id hid => h.awaiting id (List.mem_filter.mp hid).1
          wrapped := h.wrapped.congr (.refl a) rfl rfl entry
          acked := acked_now hvalid h hmember (hevent.trans hack) }
      · rw [h.pending] at hpending
        cases hpending
  | @activated pending connection memberId hack hpending hmember _ hrest =>
      obtain ⟨p, h⟩ | h := h
      · cases h.pending.symm.trans hpending
        refine .inr (.inr ?_)
        exact {
          state := rfl
          pending := rfl
          held := rfl
          epochKey := ⟨_, rfl, h.wrapped.congr (.refl a) rfl rfl entry⟩
          acked := fun m hm =>
            (acked_now hvalid h hmember (hevent.trans hack) m hm).resolve_left
              (by rw [hrest]; exact List.not_mem_nil) }
      · rw [h.pending] at hpending
        cases hpending
  | joined _ htabled _ _ _ hbegins =>
      exact .inr (.inl ⟨_, (begun_of_joined htabled hbegins _).transitioning law hvalid' hresult⟩)
  | @departed _ _ _ gone before after eventType htabled _ _ _ _ _ _ hbegins hplain =>
      exact .inr (.inl ⟨_, (begun_of_departed htabled hbegins gone eventType before after
        hplain).transitioning law hvalid' hresult⟩)
  | closed => exact .inl rfl

theorem Phase.setNow (h : Phase P started past a) (now : Duration) :
    Phase P started past { a with now } :=
  h.imp (fun ⟨p, h⟩ => ⟨p, { h with }⟩) fun h => { h with }

/-! ### Runs -/

section
variable {setup : Setup} {a₀ : RoomActor}

theorem Started.transitioning (law : P.Lawful) (h : Started P setup a₀ started) :
    ∃ p, Transitioning P started [] a₀ p := by
  obtain ⟨nickname, sessionId, token, key, wraps, hopening⟩ := h.opening
  rw [hopening.actor, hopening.actions]
  refine ⟨⟨1, key, [0], 0⟩, rfl, rfl, rfl, nofun, ?_, fun m hm => ?_, ?_⟩
  · intro id hid
    rw [List.mem_singleton.mp hid]
    exact ⟨_, .head _, rfl⟩
  · obtain ⟨_, hwrap, wrap, rfl, hof⟩ := (hopening.begins.wraps law).of_mem hm
    refine ⟨wrap, ?_, hof⟩
    rw [emitted_nil]
    exact .tail _ hwrap
  · intro m hm
    rw [List.mem_singleton.mp hm]
    exact .inl (.head _)

theorem handle_destroyed (h : a.state = .destroyed) (input : Input) :
    a.handle P input = ({ a with now := input.now }, .error .roomClosed) := by
  unfold handle handleEventAt
  exact if_pos (.inr h)

/-- Every state of an honest run is destroyed or in a phase. -/
theorem Run.phase (law : P.Lawful) (hstart : Started P setup a₀ started)
    (run : Run P (Honest P) a₀ past a) : a.state = .destroyed ∨ Phase P started past a := by
  refine run.invariant (fun past a => a.state = .destroyed ∨ Phase P started past a)
    (.inr (.inl (hstart.transitioning law))) ?_
  rintro past a input run (hdestroyed | hphase) honest
  · rw [handle_destroyed hdestroyed]
    exact .inl hdestroyed
  have hvalid := Run.valid hstart.valid run
  have hkeyed := Run.keyed law (hstart.keyed law) hstart.valid run
  have heffect := handleEventAt_effect P input.rng hvalid input.event input.now
  have hnofault : NoFault P input.rng { a with now := input.now } :=
    Keyed.noFault law honest.succeeds ⟨hkeyed.members, hkeyed.requests⟩
  exact Phase.move law (a := { a with now := input.now }) hvalid heffect.step.valid hnofault
    (hphase.setNow input.now) ⟨a, input, (a.handle P input).2, (a.handle P input).1⟩ heffect.move

end

/-! ### Acknowledgements -/

theorem onEpochAck_idle {connection : ConnectionId} {epoch : Nat}
    (h : ∀ p, a.pendingEpoch = some p → p.epoch = epoch → ∀ id,
      a.connections.memberId connection = some id → id ∉ p.awaiting) :
    a.onEpochAck connection epoch = (a, .ok []) := by
  unfold onEpochAck
  cases hpending : a.pendingEpoch with
  | none => rfl
  | some p =>
      dsimp only
      split
      · rfl
      rename_i hepoch
      rw [not_not] at hepoch
      cases hmember : a.connections.memberId connection with
      | none => rfl
      | some id =>
          have hnot := h p hpending hepoch.symm id hmember
          dsimp only
          rw [if_pos (PendingEpoch.retain_eq_self.mpr hnot), PendingEpoch.retain_of_not_mem hnot,
            ← hpending]

/-- An acknowledgement of the pending epoch takes its member off the list. -/
theorem onEpochAck_acked {connection : ConnectionId} {id : MemberId} {p : PendingEpoch}
    (hpending : a.pendingEpoch = some p) (hmember : a.connections.memberId connection = some id) :
    ∀ p', (a.onEpochAck connection p.epoch).1.pendingEpoch = some p' → id ∉ p'.awaiting := by
  intro p' hp'
  have hretained : id ∉ (p.retain id).awaiting := by simp [PendingEpoch.retain]
  simp only [onEpochAck, hpending, hmember, ne_eq, not_true_eq_false, if_false] at hp'
  split at hp'
  · cases hp'
    exact hretained
  split at hp'
  · cases hp'
  · cases hp'
    exact hretained

theorem onEpochAck_frame (connection : ConnectionId) (epoch : Nat) :
    (a.onEpochAck connection epoch).1.members = a.members ∧
      (a.onEpochAck connection epoch).1.epoch = a.epoch := by
  unfold onEpochAck
  split
  · exact ⟨rfl, rfl⟩
  split
  · exact ⟨rfl, rfl⟩
  split
  · exact ⟨rfl, rfl⟩
  dsimp only
  split
  · exact ⟨rfl, rfl⟩
  split <;> exact ⟨rfl, rfl⟩

theorem Phase.handle_ack (h : Phase P started past a) {input : Input} {connection : ConnectionId}
    {epoch : Nat} (hevent : input.event = .epochAck connection epoch) :
    a.handle P input = onEpochAck { a with now := input.now } connection epoch := by
  unfold handle handleEventAt
  rw [hevent]
  obtain ⟨p, h⟩ | h := h
  · dsimp only
    rw [if_neg (by rw [h.state]; nofun), if_pos h.state]
    rfl
  · dsimp only
    rw [if_neg (by rw [h.state]; cases a.policy <;> nofun),
      if_neg (by rw [h.state]; cases a.policy <;> nofun)]
    rfl

/-- The members on a pending list only go off it, until the next transition begins. -/
theorem Move.pending_inv (hnofault : NoFault P rng a) (h : Move P rng a event a' result)
    (hopen : a'.state ≠ .destroyed) :
    (∃ key wraps, Begun P rng a a' result key wraps) ∨
      (a'.epoch = a.epoch ∧
        a'.members.members.map Member.uncolored = a.members.members.map Member.uncolored ∧
        ∀ p', a'.pendingEpoch = some p' → ∃ p, a.pendingEpoch = some p ∧ p'.epoch = p.epoch ∧
          p'.awaiting ⊆ p.awaiting) := by
  have hsame (p' : PendingEpoch) (hp' : a.pendingEpoch = some p') : ∃ p, a.pendingEpoch = some p ∧
      p'.epoch = p.epoch ∧ p'.awaiting ⊆ p.awaiting := ⟨p', hp', rfl, List.Subset.refl _⟩
  cases h with
  | refused => exact .inr ⟨rfl, rfl, hsame⟩
  | failed htabled hmembers hfail => exact absurd hfail (hnofault _ _ htabled hmembers)
  | quiet hstill =>
      exact .inr ⟨hstill.epoch, hstill.members, fun p' hp' =>
        hsame p' (hstill.pendingEpoch.symm.trans hp')⟩
  | relayed _ _ hstill =>
      exact .inr ⟨hstill.epoch, hstill.members, fun p' hp' =>
        hsame p' (hstill.pendingEpoch.symm.trans hp')⟩
  | policySet _ _ htabled hpending hmembers =>
      refine .inr ⟨htabled.epoch, ?_, fun p' hp' => hsame p' (hpending.symm.trans hp')⟩
      exact congrArg (fun t : MemberTable => t.members.map Member.uncolored) hmembers
  | @acked pending _ _ _ hpending =>
      refine .inr ⟨rfl, rfl, fun p' hp' => ?_⟩
      cases hp'
      exact ⟨pending, hpending, rfl, List.filter_subset_self _⟩
  | activated => exact .inr ⟨rfl, rfl, fun _ hp' => nomatch hp'⟩
  | joined _ htabled _ _ _ hbegins => exact .inl ⟨_, _, begun_of_joined htabled hbegins _⟩
  | @departed _ _ _ gone before after eventType htabled _ _ _ _ _ _ hbegins hplain =>
      exact .inl ⟨_, _, begun_of_departed htabled hbegins gone eventType before after hplain⟩
  | closed => exact absurd rfl hopen

/-- `connection` has acknowledged `epoch` while it was pending. -/
def AckedWhilePending (past : Past) (connection : ConnectionId) (epoch : Nat) : Prop :=
  ∃ entry ∈ past, entry.input.event = .epochAck connection epoch ∧
    ∃ p, entry.before.pendingEpoch = some p ∧ p.epoch = epoch

/-- Who acknowledged the pending epoch is not awaited any more. -/
def AcksCounted (past : Past) (a : RoomActor) : Prop :=
  ∀ connection epoch, AckedWhilePending past connection epoch →
    epoch ≤ a.epoch ∧ ∀ p, a.pendingEpoch = some p → p.epoch = epoch →
      ∀ m ∈ a.members.members, m.connection = connection → m.memberId ∉ p.awaiting

theorem AcksCounted.move (hnofault : NoFault P rng a) (h : AcksCounted past a)
    (hmove : Move P rng a event a' result) (hopen : a'.state ≠ .destroyed) :
    AcksCounted past a' := by
  intro connection epoch hacked
  obtain ⟨hle, hnot⟩ := h connection epoch hacked
  obtain ⟨key, wraps, hbegun⟩ | ⟨hepoch, hmembers, hpending⟩ := hmove.pending_inv hnofault hopen
  · rw [hbegun.epoch, hbegun.pendingEpoch]
    refine ⟨Nat.le_succ_of_le hle, fun p hp heq => ?_⟩
    cases hp
    exact absurd heq (by dsimp only; omega)
  · rw [hepoch]
    refine ⟨hle, fun p' hp' heq m' hm' hconn hmem => ?_⟩
    obtain ⟨p, hp, hpe, hsubset⟩ := hpending p' hp'
    obtain ⟨m, hm, hmm⟩ := exists_uncolored_of_mem hmembers hm'
    refine hnot p hp (hpe.symm.trans heq) m hm ((Member.connection_congr hmm).trans hconn) ?_
    rw [Member.memberId_congr hmm]
    exact hsubset hmem

section
variable {setup : Setup} {a₀ : RoomActor}

/-- What an honest run gives at each of its steps, before the room is destroyed. -/
theorem Run.step_facts (law : P.Lawful) (hstart : Started P setup a₀ started)
    (run : Run P (Honest P) a₀ past a) {input : Input} (hrng : input.rng.Succeeds) :
    a.registry.Valid ∧ NoFault P input.rng { a with now := input.now } ∧
      Effect P input.rng (introduced input.event) input.event { a with now := input.now }
        (a.handle P input) := by
  have hvalid := Run.valid hstart.valid run
  have hkeyed := Run.keyed law (hstart.keyed law) hstart.valid run
  exact ⟨hvalid, Keyed.noFault law hrng ⟨hkeyed.members, hkeyed.requests⟩,
    handleEventAt_effect P input.rng hvalid input.event input.now⟩

theorem Run.acksCounted (law : P.Lawful) (hstart : Started P setup a₀ started)
    (run : Run P (Honest P) a₀ past a) : a.state = .destroyed ∨ AcksCounted past a := by
  refine run.invariant (fun past a => a.state = .destroyed ∨ AcksCounted past a)
    (.inr fun _ _ ⟨_, hentry, _⟩ => nomatch hentry) ?_
  rintro past a input run (hdestroyed | hcounted) honest
  · rw [handle_destroyed hdestroyed]
    exact .inl hdestroyed
  obtain hdestroyed | hphase := Run.phase law hstart run
  · rw [handle_destroyed hdestroyed]
    exact .inl hdestroyed
  by_cases hopen : (a.handle P input).1.state = .destroyed
  · exact .inl hopen
  refine .inr fun connection epoch hacked => ?_
  obtain ⟨hvalid, hnofault, heffect⟩ := Run.step_facts law hstart run honest.succeeds
  have hold : AcksCounted past (a.handle P input).1 :=
    AcksCounted.move (a := { a with now := input.now }) hnofault hcounted heffect.move hopen
  obtain ⟨entry, hentry, hevent, p, hp, hpe⟩ := hacked
  cases hentry with
  | tail _ hentry => exact hold connection epoch ⟨entry, hentry, hevent, p, hp, hpe⟩
  | head =>
      -- the acknowledgement arrived in this very step
      dsimp only at hevent hp
      have hhandle := hphase.handle_ack hevent
      have hframe := onEpochAck_frame (a := { a with now := input.now }) connection epoch
      obtain ⟨q, hq⟩ | hsettled := hphase
      · cases hq.pending.symm.trans hp
        rw [hhandle, hframe.1, hframe.2]
        refine ⟨Nat.le_of_eq (hpe.symm.trans hq.epoch), fun p' hp' _ m hm hconn => ?_⟩
        subst hpe
        refine onEpochAck_acked (a := { a with now := input.now }) hp ?_ p' hp'
        rw [← hconn]
        exact hvalid.member_entry m hm
      · rw [hsettled.pending] at hp
        cases hp

/-- The fields of the epoch state machine agree. -/
structure EpochState (P : Primitives) (started : List RoomAction) (past : Past) (a : RoomActor) :
    Prop where
  transition_iff : a.state = .epochTransition ↔ ∃ p, a.pendingEpoch = some p
  pending : ∀ p, a.pendingEpoch = some p → p.epoch = a.epoch ∧ p.awaiting ≠ [] ∧
    ∀ id ∈ p.awaiting, ∃ m ∈ a.members.members, m.memberId = id
  settled : a.pendingEpoch = none →
    (∃ key, a.epochKey = some key ∧ Wrapped P started past a key) ∧
      a.state = a.policy.roomState ∧ a.pendingMembership = []

theorem Phase.epochState (h : Phase P started past a) : EpochState P started past a := by
  obtain ⟨p, h⟩ | h := h
  · exact {
      transition_iff := ⟨fun _ => ⟨p, h.pending⟩, fun _ => h.state⟩
      pending := fun q hq => by
        cases h.pending.symm.trans hq
        exact ⟨h.epoch, h.awaited, h.awaiting⟩
      settled := fun hnone => by
        rw [h.pending] at hnone
        cases hnone }
  · exact {
      transition_iff := by
        rw [h.state, h.pending]
        exact ⟨fun hstate => absurd hstate (JoinPolicy.roomState_ne_epochTransition _), nofun⟩
      pending := fun q hq => by
        rw [h.pending] at hq
        cases hq
      settled := fun _ => ⟨h.epochKey, h.state, h.held⟩ }

/-- An acknowledgement that can have no effect: of another epoch, of a connection that is no
member's, or of one that has acknowledged the pending epoch before. -/
def Redundant (past : Past) (a : RoomActor) (connection : ConnectionId) (epoch : Nat) : Prop :=
  (∀ p, a.pendingEpoch = some p → p.epoch ≠ epoch) ∨ a.connections.memberId connection = none ∨
    AckedWhilePending past connection epoch

/-- What the epoch state machine guarantees at the end of a run. -/
structure EpochMachine (P : Primitives) (started : List RoomAction) (past : Past) (a : RoomActor) :
    Prop where
  fields : a.state ≠ .destroyed → EpochState P started past a
  /-- An epoch becomes active only when every member has acknowledged it. -/
  activation : ∀ newer entry older, past = newer ++ entry :: older →
    entry.before.state = .epochTransition → entry.after.state ≠ .epochTransition →
    entry.after.state ≠ .destroyed → ∀ m ∈ entry.after.members.members,
      AcknowledgedSince started (entry :: older) m entry.after.epoch
  redundant : ∀ input connection epoch, input.event = .epochAck connection epoch →
    a.state ≠ .destroyed → Redundant past a connection epoch →
    a.handle P input = ({ a with now := input.now }, .ok [])
  destroyed : a.state = .destroyed → ∀ input,
    a.handle P input = ({ a with now := input.now }, .error .roomClosed)

theorem epoch_state_machine (law : P.Lawful) (hstart : Started P setup a₀ started)
    (run : Run P (Honest P) a₀ past a) : EpochMachine P started past a := by
  have hphase := Run.phase law hstart run
  refine ⟨fun hopen => (hphase.resolve_left hopen).epochState, ?_, ?_, handle_destroyed⟩
  · rintro newer entry older rfl - hafter hopen
    obtain ⟨-, -, -, hrun⟩ := run.split
    obtain ⟨p, h⟩ | h := (Run.phase law hstart hrun).resolve_left hopen
    · exact absurd h.state hafter
    · exact h.acked
  · intro input connection epoch hevent hopen hredundant
    have hphase := hphase.resolve_left hopen
    rw [hphase.handle_ack hevent]
    refine onEpochAck_idle fun p hp hpe id hid hmem => ?_
    obtain hother | hnone | hacked := hredundant
    · exact hother p hp hpe
    · rw [show a.connections.memberId connection = some id from hid] at hnone
      cases hnone
    · obtain ⟨-, hnot⟩ := (Run.acksCounted law hstart run).resolve_left hopen
        connection epoch hacked
      obtain ⟨m, hm, hconn, rfl⟩ := (Run.valid hstart.valid run).entry_member connection id hid
      exact hnot p hp hpe m hm hconn hmem

theorem epoch_state_machine_visit :
    EpochMachine Symbolic.primitives Symbolic.roomStarted Symbolic.visited.1
      Symbolic.visited.2 :=
  epoch_state_machine Symbolic.lawful Symbolic.room_started
    (honest_of_orderly Symbolic.visit_orderly)

end

end RoomActor

namespace Symbolic
open RoomActor

/-- The host has acknowledged the epoch a guest is accepted with, and the guest has not. -/
def awaitGuest : List Input :=
  [.epochAck 0 1, .clientConnected 1, .passwordVerified 1, .joinRequested 1 application,
    .hostAccepted 0, .epochAck 0 2].map fun event => ⟨event, 0, rng 11⟩

/-- The guest's time is up. -/
def lateGuest (rng : Rng) : Input := ⟨.timeoutExpired 1 .epochAcknowledgement, 120000000000, rng⟩

def awaited : Past × RoomActor := script primitives room awaitGuest

theorem awaited_orderly : Run primitives (Orderly primitives) room awaited.1 awaited.2 := by
  refine orderly_script room_started ?_ ?_ (by decide) (by decide)
  · intro input hinput
    obtain ⟨event, -, rfl⟩ := List.mem_map.mp hinput
    exact rng_succeeds 11
  · intro input hinput c application' hevent
    simp only [awaitGuest, List.map_cons, List.map_nil, List.mem_cons, List.not_mem_nil, or_false]
      at hinput
    obtain rfl | rfl | rfl | rfl | rfl | rfl := hinput <;> cases hevent
    exact application_released

theorem lateGuest_run (rng : Rng) : Run primitives (OrderlyEvents primitives) room
    (⟨awaited.2, lateGuest rng, (awaited.2.handle primitives (lateGuest rng)).2,
      (awaited.2.handle primitives (lateGuest rng)).1⟩ :: awaited.1)
    (awaited.2.handle primitives (lateGuest rng)).1 :=
  (orderlyEvents_of_orderly awaited_orderly).step ⟨nofun, nofun⟩

end Symbolic

namespace RoomActor
open Symbolic

/-- The guest is evicted while the generator fails: the room is left in a transition to nothing. -/
theorem not_epoch_state_machine :
    ¬ ∀ past a, Run primitives (OrderlyEvents primitives) room past a →
      EpochMachine primitives roomStarted past a := by
  intro hall
  have hstuck : (awaited.2.handle primitives (lateGuest broken)).1.state = .epochTransition ∧
      (awaited.2.handle primitives (lateGuest broken)).1.pendingEpoch.isNone = true := by
    decide +kernel
  have hopen : (awaited.2.handle primitives (lateGuest broken)).1.state ≠ .destroyed := by
    rw [hstuck.1]
    decide
  have hfields := (hall _ _ (lateGuest_run broken)).fields hopen
  obtain ⟨p, hp⟩ := hfields.transition_iff.mp hstuck.1
  have hpending := hstuck.2
  rw [hp] at hpending
  cases hpending

end RoomActor

end Veilroom
