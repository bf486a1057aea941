import Veilroom.Room.Admissions
import Veilroom.Room.Scripts

/-!
What a key rotation loses.

The actor refuses the events of an admission, and every command of the host but
`/requests`, while keys rotate; the task drops these refusals. An applicant gets
into the queue, and a command gets an answer, exactly when none of this fell
into a rotation.
-/
namespace Veilroom
namespace RoomActor
variable (P : Primitives) (rng : Rng) {a : RoomActor} {c : ConnectionId}

/-- The call found the room outside an epoch transition. -/
def Call.Settled (call : Call) : Prop := call.before.state ≠ .epochTransition

/-- The connection was announced by a call that counts. -/
def Announced (counts : Call → Prop) (c : ConnectionId) : Past → Prop :=
  Machine.Followed (fun _ => True) fun call =>
    counts call ∧ call.input.event = .clientConnected c

/-- Then its password was verified. -/
def Verified (counts : Call → Prop) (c : ConnectionId) : Past → Prop :=
  Machine.Followed (Announced counts c) fun call =>
    counts call ∧ call.input.event = .passwordVerified c

/-- Then it asked to join. -/
def Asked (counts : Call → Prop) (c : ConnectionId) : Past → Prop :=
  Machine.Followed (Verified counts c) fun call =>
    counts call ∧ ∃ application, call.input.event = .joinRequested c application

theorem Verified.announced {counts : Call → Prop} {past : Past} (h : Verified counts c past) :
    Announced counts c past :=
  Machine.Followed.before (fun _ _ h => .inl h) h

theorem Asked.verified {counts : Call → Prop} {past : Past} (h : Asked counts c past) :
    Verified counts c past :=
  Machine.Followed.before (fun _ _ h => .inl h) h

/-- The events that end the admission of `c`, with or without a decision. -/
def ends (c : ConnectionId) : RoomEvent → Bool
  | .connectionLost connection => connection = c
  | .timeoutExpired connection _ => connection = c
  | .hostCommand .newId => true
  | .hostCommand .reqOff => true
  | _ => false

/-- Nothing got in the way of the admission of `c`: the policy is open, the queue has room, the
room is not closed, and the event does not end the admission. -/
structure Undisturbed (c : ConnectionId) (call : Call) : Prop where
  opened : call.before.policy = .opened
  room : call.before.requests.requests.length < call.before.requests.limit
  running : call.after.state ≠ .closing ∧ call.after.state ≠ .destroyed
  kept : ends c call.input.event = false

instance (c : ConnectionId) (call : Call) : Decidable (Undisturbed c call) :=
  decidable_of_iff (call.before.policy = .opened ∧
      call.before.requests.requests.length < call.before.requests.limit ∧
      (call.after.state ≠ .closing ∧ call.after.state ≠ .destroyed) ∧
      ends c call.input.event = false)
    ⟨fun ⟨opened, room, running, kept⟩ => ⟨opened, room, running, kept⟩,
      fun ⟨opened, room, running, kept⟩ => ⟨opened, room, running, kept⟩⟩

/-- The request an event decides. -/
def decides : RoomEvent → Option RequestId
  | .hostAccepted requestId => some requestId
  | .hostRejected requestId => some requestId
  | .hostCommand (.accept requestId) => some requestId
  | .hostCommand (.reject requestId) => some requestId
  | _ => none

/-- A request of `c` is in the queue. -/
def Waiting (a : RoomActor) (c : ConnectionId) : Prop :=
  ∃ q ∈ a.requests.requests, q.connection = c

/-- The host decided a request of `c`. -/
def Decided (c : ConnectionId) (past : Past) : Prop :=
  ∃ call ∈ past, ∃ q ∈ call.before.requests.requests, q.connection = c ∧
    decides call.input.event = some q.id ∧ q ∉ call.after.requests.requests

theorem waiting_iff (h : a.registry.Valid) :
    a.Waiting c ↔ ∃ id, a.connections.requestId c = some id := by
  constructor
  · rintro ⟨q, hq, rfl⟩
    exact ⟨q.id, h.request_entry q hq⟩
  · rintro ⟨id, hid⟩
    obtain ⟨q, hq, hconn, -⟩ := h.entry_request c id hid
    exact ⟨q, hq, hconn⟩

theorem not_waiting_of_get_eq_none (h : a.registry.Valid) (hget : a.connections.get c = none) :
    ¬ a.Waiting c := by
  rw [waiting_iff h]
  rintro ⟨id, hid⟩
  obtain ⟨entry, hentry, -⟩ := Connections.requestId_eq_some.mp hid
  rw [hget] at hentry
  cases hentry

theorem not_waiting_of_admission (h : a.registry.Valid) {verified : Bool}
    (hget : a.connections.get c = some ⟨c, verified, .admission⟩) : ¬ a.Waiting c := by
  rw [waiting_iff h]
  rintro ⟨id, hid⟩
  obtain ⟨entry, hentry, hrole⟩ := Connections.requestId_eq_some.mp hid
  rw [hget] at hentry
  cases hentry
  cases hrole

theorem not_decided_cons {past : Past} {call : Call} (hpast : ¬ Decided c past)
    (hcall : ¬ call.before.Waiting c) : ¬ Decided c (call :: past) := by
  rintro ⟨call', hmem, q, hq, hconn, hdecided⟩
  obtain rfl | hmem := List.mem_cons.mp hmem
  · exact hcall ⟨q, hq, hconn⟩
  · exact hpast ⟨call', hmem, q, hq, hconn, hdecided⟩

theorem Decided.cons {past : Past} (h : Decided c past) (call : Call) :
    Decided c (call :: past) := by
  obtain ⟨call', hmem, hcall⟩ := h
  exact ⟨call', .tail _ hmem, hcall⟩

/-! ### One call -/

/-- A room that is not closed by an event was not closed before it. -/
theorem handleEventAt_running {event : RoomEvent} {now : Duration}
    (h : (a.handleEventAt P rng event now).1.state ≠ .closing ∧
      (a.handleEventAt P rng event now).1.state ≠ .destroyed) :
    a.handleEventAt P rng event now =
      if a.state = .epochTransition then ({ a with now } : RoomActor).handleInTransition P rng event
      else ({ a with now } : RoomActor).handleSettled P rng event := by
  by_cases hclosed : a.state = .closing ∨ a.state = .destroyed
  · have hrefused : a.handleEventAt P rng event now = ({ a with now }, .error .roomClosed) := by
      unfold handleEventAt
      exact if_pos hclosed
    rw [hrefused] at h
    exact absurd hclosed (not_or.mpr h)
  · unfold handleEventAt
    exact if_neg hclosed

/-- The events a transition refuses. -/
def refusedInTransition : RoomEvent → Bool
  | .clientConnected _ => true
  | .passwordVerified _ => true
  | .joinRequested _ _ => true
  | .hostAccepted _ => true
  | .hostRejected _ => true
  | .memberLeft _ => true
  | .hostCommand .requests => false
  | .hostCommand _ => true
  | .memberCommand _ _ => true
  | _ => false

theorem handleInTransition_refused {event : RoomEvent} (h : refusedInTransition event = true) :
    a.handleInTransition P rng event = (a, .error .epochTransitionInProgress) := by
  cases event with
  | hostCommand command => cases command <;> first | rfl | cases h
  | clientConnected | passwordVerified | joinRequested | hostAccepted | hostRejected
  | memberLeft | memberCommand => rfl
  | _ => cases h

/-- A join request of an applicant that has not verified its password, or has already asked,
leaves its entry as it was. -/
theorem onJoinRequested_refused {application : JoinApplication}
    (h : ∀ entry, a.connections.get c = some entry →
      entry.passwordVerified = false ∨ entry.role ≠ .admission) :
    (a.onJoinRequested c application).1 = a := by
  unfold onJoinRequested
  split
  · rfl
  · cases hget : a.connections.get c with
    | none => rfl
    | some entry =>
        dsimp only
        rw [if_pos]
        simpa using h entry hget

theorem onJoinRequested_queued {application : JoinApplication} (hpolicy : a.policy = .opened)
    (hroom : a.requests.requests.length < a.requests.limit)
    (hget : a.connections.get c = some ⟨c, true, .admission⟩) :
    (a.onJoinRequested c application).1.Waiting c := by
  unfold onJoinRequested
  rw [if_neg (by rw [hpolicy]; decide), hget]
  dsimp only
  rw [if_neg (by simp), JoinRequestQueue.push, if_neg (Nat.not_le.mpr hroom)]
  dsimp only [JoinRequestQueue.allocateId]
  refine ⟨⟨a.requests.nextId, c, application⟩, ?_, rfl⟩
  split <;> exact List.mem_append_right _ (List.mem_singleton_self _)

/-- An accepted request is out of the queue, whatever becomes of its member. -/
theorem requests_admitMember (connection : ConnectionId) (application : JoinApplication) :
    (a.admitMember P rng connection application).1.requests = a.requests := by
  unfold admitMember
  split
  · rename_i members member _
    dsimp only
    obtain ⟨key, wraps, -, heq⟩ | ⟨error, heq⟩ := beginEpochTransition_cases P rng { a with
      members
      connections := ((a.connections.register connection).promote connection member.memberId).1 }
    · rw [heq]
      rfl
    · rw [heq]
      rfl
  · rfl

/-- The host's decision takes a waiting request out of the queue. -/
theorem handleSettled_decides (h : a.registry.Valid) {event : RoomEvent} {q : JoinRequest}
    (hq : q ∈ a.requests.requests) (hdecides : decides event = some q.id) :
    q ∉ (a.handleSettled P rng event).1.requests.requests := by
  have htaken : q ∉ (a.registry.taken q).requests := fun hmem =>
    (h.mem_taken.mp hmem).2 rfl
  have htimeout : (a.timeoutRequests.find? fun request => request.requestId = q.id) = none := by
    refine List.find?_eq_none.mpr fun t ht heq => ?_
    have hdisjoint := (List.nodup_append.mp h.request_ids).2.2 q.id (List.mem_map_of_mem hq)
      t.requestId (List.mem_map_of_mem ht)
    exact hdisjoint (Eq.symm (by simpa using heq))
  have htake : a.takeRequest q.id = ({ a with requests := a.registry.taken q }, .ok q) := by
    have hfind : (a.requests.requests.find? fun r => r.id = q.id) = some q :=
      (List.find?_eq_some_of_nodup h.joinIds_nodup).mpr ⟨hq, rfl⟩
    simp only [takeRequest, JoinRequestQueue.take, hfind]
    rfl
  have haccept : q ∉ (a.onAccept P rng q.id).1.requests.requests := by
    unfold onAccept
    rw [htimeout, htake]
    dsimp only
    rw [requests_admitMember]
    exact htaken
  have hreject : q ∉ (a.onReject q.id).1.requests.requests := by
    unfold onReject
    rw [htimeout, htake]
    exact htaken
  cases event with
  | hostAccepted id => cases hdecides; exact haccept
  | hostRejected id => cases hdecides; exact hreject
  | hostCommand command =>
      cases command with
      | accept id => cases hdecides; exact haccept
      | reject id => cases hdecides; exact hreject
      | _ => cases hdecides
  | _ => cases hdecides

/-! ### The way into the queue -/

/-- How far the admission of `c` has got. -/
inductive Stage (c : ConnectionId) (past : Past) (a : RoomActor) : Prop
  | unknown : ¬ Announced Call.Settled c past → a.connections.get c = none →
      ¬ Decided c past → Stage c past a
  | announced : Announced Call.Settled c past → ¬ Verified Call.Settled c past →
      a.connections.get c = some ⟨c, false, .admission⟩ → ¬ Decided c past → Stage c past a
  | verified : Verified Call.Settled c past → ¬ Asked Call.Settled c past →
      a.connections.get c = some ⟨c, true, .admission⟩ → ¬ Decided c past → Stage c past a
  | asked : Asked Call.Settled c past → a.Waiting c ∨ Decided c past → Stage c past a

/-- Only who asked on a settled room waits or was decided. -/
theorem Stage.asked_iff {past : Past} (h : a.registry.Valid) (stage : Stage c past a) :
    a.Waiting c ∨ Decided c past ↔ Asked Call.Settled c past := by
  cases stage with
  | unknown hannounced hget hdecided =>
      constructor
      · rintro (hwaiting | hdecided')
        · exact absurd hwaiting (not_waiting_of_get_eq_none h hget)
        · exact absurd hdecided' hdecided
      · exact fun hasked => absurd hasked.verified.announced hannounced
  | announced _ hverified hget hdecided =>
      constructor
      · rintro (hwaiting | hdecided')
        · exact absurd hwaiting (not_waiting_of_admission h hget)
        · exact absurd hdecided' hdecided
      · exact fun hasked => absurd hasked.verified hverified
  | verified _ hasked hget hdecided =>
      constructor
      · rintro (hwaiting | hdecided')
        · exact absurd hwaiting (not_waiting_of_admission h hget)
        · exact absurd hdecided' hdecided
      · exact fun hasked' => absurd hasked' hasked
  | asked hasked hqueued => exact ⟨fun _ => hasked, fun _ => hqueued⟩

section
variable {past : Past} {input : Input}

/-- The call of an input on `a`. -/
abbrev callOf (a : RoomActor) (input : Input) : Call :=
  ⟨a, input, (a.handle P input).2, (a.handle P input).1⟩

/-- An undisturbed call that touches the applicant on `c` is one of these. -/
theorem touches_cases (hcalm : Undisturbed c (callOf P a input)) (h : a.touches c input.event) :
    input.event = .passwordVerified c ∨
      (∃ application, input.event = .joinRequested c application) ∨
      ∃ id, decides input.event = some id ∧ a.connections.requestId c = some id := by
  have hkept : ends c input.event = false := hcalm.kept
  revert h hkept
  generalize input.event = event
  intro h hkept
  cases event with
  | passwordVerified connection => exact .inl (congrArg _ h)
  | joinRequested connection application =>
      exact .inr (.inl ⟨application, by rw [show connection = c from h]⟩)
  | connectionLost connection =>
      exact absurd (show connection = c from h) (of_decide_eq_false hkept)
  | timeoutExpired connection kind =>
      exact absurd (show connection = c from h) (of_decide_eq_false hkept)
  | hostAccepted id => exact .inr (.inr ⟨id, rfl, h⟩)
  | hostRejected id => exact .inr (.inr ⟨id, rfl, h⟩)
  | hostCommand command =>
      cases command with
      | newId => cases hkept
      | reqOff => cases hkept
      | accept id => exact .inr (.inr ⟨id, rfl, h⟩)
      | reject id => exact .inr (.inr ⟨id, rfl, h⟩)
      | kick | reqOn | requests => cases h
  | _ => cases h

/-- What a transition refuses it leaves as it was. -/
theorem connections_refused (hcalm : Undisturbed c (callOf P a input))
    (hstate : a.state = .epochTransition) (hrefused : refusedInTransition input.event = true) :
    (a.handle P input).1.connections = a.connections := by
  rw [handle, handleEventAt_running P input.rng hcalm.running, if_pos hstate,
    handleInTransition_refused P input.rng hrefused]

theorem refused_of_decides {event : RoomEvent} {id : RequestId} (h : decides event = some id) :
    refusedInTransition event = true := by
  cases event with
  | hostCommand command => cases command <;> first | rfl | cases h
  | hostAccepted | hostRejected => rfl
  | _ => cases h

/-- The entry of an applicant that has not asked stays as it is, but for its password. -/
theorem admission_stays (h : a.registry.Valid) (hcalm : Undisturbed c (callOf P a input))
    {verified : Bool} (hget : a.connections.get c = some ⟨c, verified, .admission⟩)
    (hpassword : verified = false →
      ¬ (a.state ≠ .epochTransition ∧ input.event = .passwordVerified c))
    (hjoin : verified = true → ¬ (a.state ≠ .epochTransition ∧
      ∃ application, input.event = .joinRequested c application)) :
    (a.handle P input).1.connections.get c = some ⟨c, verified, .admission⟩ := by
  have hrun := handleEventAt_running P input.rng hcalm.running
  by_cases htouched : a.touches c input.event
  · obtain hevent | ⟨application, hevent⟩ | ⟨id, -, hid⟩ := touches_cases P hcalm htouched
    · by_cases hstate : a.state = .epochTransition
      · rw [connections_refused P hcalm hstate (by rw [hevent]; rfl)]
        exact hget
      · have hverified : verified = true := by
          by_contra hfalse
          exact hpassword (by simpa using hfalse) ⟨hstate, hevent⟩
        rw [handle, hrun, if_neg hstate, hevent]
        refine (Connections.get_update _ _ _ _).trans ?_
        rw [if_pos rfl]
        change (a.connections.get c).map _ = _
        rw [hget, hverified]
        rfl
    · by_cases hstate : a.state = .epochTransition
      · rw [connections_refused P hcalm hstate (by rw [hevent]; rfl)]
        exact hget
      · have hverified : verified = false := by
          by_contra htrue
          exact hjoin (by simpa using htrue) ⟨hstate, application, hevent⟩
        rw [handle, hrun, if_neg hstate, hevent, handleSettled, onJoinRequested_refused]
        · exact hget
        · intro entry hentry
          cases hget.symm.trans hentry
          exact .inl hverified
    · exact absurd ((waiting_iff h).mpr ⟨id, hid⟩) (not_waiting_of_admission h hget)
  · exact handleEventAt_spares P input.rng h input.now htouched _ hget (fun _ => nofun)

/-- One undisturbed call moves the admission at most one stage on. -/
theorem Stage.call (h : a.registry.Valid) (hcalm : Undisturbed c (callOf P a input))
    (stage : Stage c past a) :
    Stage c (callOf P a input :: past) (a.handle P input).1 := by
  have hrun := handleEventAt_running P input.rng hcalm.running
  have hvalid : (a.handle P input).1.registry.Valid :=
    (handleEventAt_effect P input.rng h input.event input.now).step.valid
  cases stage with
  | unknown hannounced hget hdecided =>
      have hdecided' : ¬ Decided c (callOf P a input :: past) :=
        not_decided_cons hdecided (not_waiting_of_get_eq_none h hget)
      by_cases hnow : a.state ≠ .epochTransition ∧ input.event = .clientConnected c
      · obtain ⟨hsettled, hevent⟩ := hnow
        refine .announced (.inr ⟨⟨hsettled, hevent⟩, trivial⟩) ?_ ?_ hdecided'
        · rintro (hverified | ⟨⟨-, hother⟩, -⟩)
          · exact hannounced (Verified.announced hverified)
          · cases hevent.symm.trans hother
        · rw [handle, hrun, if_neg hsettled, hevent]
          refine (Connections.get_register _ _ _).trans ?_
          rw [if_pos rfl]
          change some ((a.connections.get c).getD _) = _
          rw [hget]
          rfl
      · refine .unknown ?_ ?_ hdecided'
        · rintro (hannounced' | ⟨hcall, -⟩)
          · exact hannounced hannounced'
          · exact hnow hcall
        · cases hget' : (a.handle P input).1.connections.get c with
          | none => rfl
          | some entry =>
              have hknown := (handleEventAt_effect P input.rng h input.event input.now).step.known
              obtain hnew | ⟨entry', hentry'⟩ := hknown c entry hget'
              · have hevent : input.event = .clientConnected c := by
                  cases hevent : input.event <;> rw [hevent] at hnew <;> cases hnew
                  rfl
                have hstate : a.state = .epochTransition := by
                  by_contra hsettled
                  exact hnow ⟨hsettled, hevent⟩
                rw [connections_refused P hcalm hstate (by rw [hevent]; rfl), hget] at hget'
                cases hget'
              · cases hget.symm.trans hentry'
  | announced hannounced hverified hget hdecided =>
      have hdecided' : ¬ Decided c (callOf P a input :: past) :=
        not_decided_cons hdecided (not_waiting_of_admission h hget)
      by_cases hnow : a.state ≠ .epochTransition ∧ input.event = .passwordVerified c
      · obtain ⟨hsettled, hevent⟩ := hnow
        refine .verified (.inr ⟨⟨hsettled, hevent⟩, hannounced⟩) ?_ ?_ hdecided'
        · rintro (hasked | ⟨⟨-, application, hother⟩, -⟩)
          · exact hverified (Asked.verified hasked)
          · cases hevent.symm.trans hother
        · rw [handle, hrun, if_neg hsettled, hevent]
          refine (Connections.get_update _ _ _ _).trans ?_
          rw [if_pos rfl]
          change (a.connections.get c).map _ = _
          rw [hget]
          rfl
      · refine .announced (.inl hannounced) ?_ ?_ hdecided'
        · rintro (hverified' | ⟨hcall, -⟩)
          · exact hverified hverified'
          · exact hnow hcall
        · refine admission_stays P h hcalm hget (fun _ => hnow) nofun
  | verified hverified hasked hget hdecided =>
      have hdecided' : ¬ Decided c (callOf P a input :: past) :=
        not_decided_cons hdecided (not_waiting_of_admission h hget)
      by_cases hnow : a.state ≠ .epochTransition ∧
          ∃ application, input.event = .joinRequested c application
      · obtain ⟨hsettled, application, hevent⟩ := hnow
        refine .asked (.inr ⟨⟨hsettled, application, hevent⟩, hverified⟩) (.inl ?_)
        rw [handle, hrun, if_neg hsettled, hevent, handleSettled]
        exact onJoinRequested_queued (a := { a with now := input.now }) hcalm.opened hcalm.room hget
      · refine .verified (.inl hverified) ?_ ?_ hdecided'
        · rintro (hasked' | ⟨hcall, -⟩)
          · exact hasked hasked'
          · exact hnow hcall
        · exact admission_stays P h hcalm hget nofun (fun _ => hnow)
  | asked hasked hqueued =>
      refine .asked (.inl hasked) ?_
      obtain hwaiting | hdecided := hqueued
      · obtain ⟨id, hid⟩ := (waiting_iff h).mp hwaiting
        obtain ⟨entry, hget, hrole⟩ := Connections.requestId_eq_some.mp hid
        by_cases htouched : a.touches c input.event
        · obtain hevent | ⟨application, hevent⟩ | ⟨id', hdecides, hid'⟩ :=
            touches_cases P hcalm htouched
          · refine .inl ((waiting_iff hvalid).mpr ⟨id, ?_⟩)
            by_cases hstate : a.state = .epochTransition
            · rw [connections_refused P hcalm hstate (by rw [hevent]; rfl)]
              exact hid
            · rw [handle, hrun, if_neg hstate, hevent]
              exact (Connections.requestId_markPasswordVerified _ _ _).trans hid
          · refine .inl ((waiting_iff hvalid).mpr ⟨id, ?_⟩)
            by_cases hstate : a.state = .epochTransition
            · rw [connections_refused P hcalm hstate (by rw [hevent]; rfl)]
              exact hid
            · rw [handle, hrun, if_neg hstate, hevent, handleSettled, onJoinRequested_refused]
              · exact hid
              · intro entry' hentry'
                cases hget.symm.trans hentry'
                exact .inr (by rw [hrole]; nofun)
          · obtain ⟨q, hq, hconn, hqid⟩ := h.entry_request c id' hid'
            by_cases hstate : a.state = .epochTransition
            · refine .inl ((waiting_iff hvalid).mpr ⟨id, ?_⟩)
              rw [connections_refused P hcalm hstate (refused_of_decides hdecides)]
              exact hid
            · refine .inr ⟨_, .head _, q, hq, hconn, hdecides.trans (congrArg some hqid.symm), ?_⟩
              change q ∉ (a.handleEventAt P input.rng input.event input.now).1.requests.requests
              rw [hrun, if_neg hstate]
              exact handleSettled_decides P input.rng (a := { a with now := input.now }) h hq
                (hdecides.trans (congrArg some hqid.symm))
        · refine .inl ((waiting_iff hvalid).mpr ⟨id, ?_⟩)
          have hspared := handleEventAt_spares P input.rng h input.now htouched entry hget
            (fun _ => by rw [hrole]; nofun)
          exact Connections.requestId_eq_some.mpr ⟨entry, hspared, hrole⟩
      · exact .inr (hdecided.cons _)

/-- From where `c` is unknown, undisturbed calls lead through the stages. -/
theorem Run.stage {a₀ b : RoomActor} {window earlier : Past} (hstart : a₀.registry.Valid)
    (origin : Run P Unconstrained a₀ earlier b) (hunknown : b.connections.get c = none)
    (run : Run P Unconstrained a₀ (window ++ earlier) a)
    (hcalm : ∀ call ∈ window, Undisturbed c call) : Stage c window a := by
  induction window generalizing a with
  | nil =>
      obtain rfl : a = b := run.unique origin
      refine .unknown id hunknown ?_
      rintro ⟨call, hcall, -⟩
      cases hcall
  | cons call window ih =>
      cases run with
      | step run _ =>
          have hstage := ih run fun call hcall => hcalm call (.tail _ hcall)
          exact hstage.call P (Run.valid hstart run) (hcalm _ (.head _))

end

/-! ### Commands of the host -/

/-- The commands `/kick`, `/newid`, `/reqon`, `/reqoff`, `/accept` and `/reject`. -/
def isMutation : RoomEvent → Bool
  | .hostCommand .requests => false
  | .hostCommand _ => true
  | .hostAccepted _ => true
  | .hostRejected _ => true
  | _ => false

/-- The task has something to send after this result. -/
def Answers : Except RoomError (List RoomAction) → Prop
  | .ok actions => actions ≠ []
  | .error error => error.isTransient = false

section
variable {P rng}

theorem wrapFor_answers {key : Key} {i : Nat} {m : Member} {error : RoomError}
    (h : a.wrapFor P rng key i m = .error error) : error.isTransient = false := by
  unfold wrapFor at h
  repeat' split at h
  all_goals cases h
  all_goals rfl

theorem wrapAll_answers {key : Key} {i : Nat} {members : List Member} {error : RoomError}
    (h : a.wrapAll P rng key i members = .error error) : error.isTransient = false := by
  induction members generalizing i error with
  | nil => cases h
  | cons m rest ih =>
      unfold wrapAll at h
      split at h
      · rename_i hwrap
        cases h
        exact wrapFor_answers hwrap
      split at h
      · rename_i hwraps
        cases h
        exact ih hwraps
      · cases h

theorem beginEpochTransition_answers {b : RoomActor} {error : RoomError}
    (h : a.beginEpochTransition P rng = (b, .error error)) : error.isTransient = false := by
  unfold beginEpochTransition at h
  dsimp only at h
  split at h
  · cases h
    rfl
  · split at h
    · rename_i hwraps
      cases h
      exact wrapAll_answers hwraps
    · cases h

theorem removeMember_answers {b : RoomActor} {id : MemberId} {eventType : UInt8}
    {error : RoomError} (h : a.removeMember P rng id eventType = (b, .error error)) :
    error.isTransient = false := by
  unfold removeMember at h
  split at h
  · cases h
    rfl
  · split at h
    · cases h
    · dsimp only at h
      split at h
      · rename_i hbegin
        cases h
        exact beginEpochTransition_answers hbegin
      · cases h

end

theorem onKick_answers (target : MemberRef) : Answers (a.onKick P rng target).2 := by
  have hresolve : ∀ error, a.resolveMember target = .error error → error.isTransient = false := by
    intro error herror
    unfold resolveMember at herror
    cases target with
    | id id =>
        dsimp only at herror
        cases hfind : a.members.byId id <;> rw [hfind] at herror <;> cases herror
        rfl
    | nickname nickname =>
        dsimp only at herror
        split at herror
        · cases herror
          rfl
        · cases hfind : a.members.byNickname nickname <;> rw [hfind] at herror <;> cases herror
          rfl
  unfold onKick
  split
  · rename_i error herror
    exact hresolve error herror
  · rename_i resolved _
    split
    · rfl
    · rename_i member hmember
      split
      · rfl
      · split
        · rename_i hremove
          exact removeMember_answers hremove
        · rename_i hremove
          -- the member was found above, so the removal finds it too
          unfold removeMember MemberTable.remove at hremove
          rw [hmember] at hremove
          dsimp only at hremove
          split at hremove
          · cases hremove
          · split at hremove <;> cases hremove
        · simp [Answers]

theorem onNewId_answers : Answers (a.onNewId rng).2 := by
  unfold onNewId
  split
  · rfl
  · simp [Answers]

theorem setPolicy_answers (policy : JoinPolicy) : Answers (a.setPolicy P policy).2 := by
  simp [setPolicy, announcePolicy, Answers]

theorem admitMember_answers (connection : ConnectionId) (application : JoinApplication) :
    Answers (a.admitMember P rng connection application).2 := by
  unfold admitMember
  split
  · dsimp only
    split
    · rename_i hbegin
      exact beginEpochTransition_answers hbegin
    · simp [Answers]
  · simp [Answers]

theorem takeRequest_answers {b : RoomActor} {requestId : RequestId} {error : RoomError}
    (h : a.takeRequest requestId = (b, .error error)) : error.isTransient = false := by
  unfold takeRequest at h
  split at h <;> cases h <;> rfl

theorem onAccept_answers (requestId : RequestId) : Answers (a.onAccept P rng requestId).2 := by
  unfold onAccept
  split
  · simp [Answers]
  · split
    · rename_i htake
      exact takeRequest_answers htake
    · exact admitMember_answers P rng _ _

theorem onReject_answers (requestId : RequestId) : Answers (a.onReject requestId).2 := by
  unfold onReject
  split
  · simp [Answers]
  · split
    · rename_i htake
      exact takeRequest_answers htake
    · simp [Answers]

/-- Outside a transition every command of the host has an effect or an error. -/
theorem handleSettled_answers {event : RoomEvent} (h : isMutation event = true) :
    Answers (a.handleSettled P rng event).2 := by
  cases event with
  | hostCommand command =>
      cases command with
      | kick target => exact onKick_answers P rng target
      | newId => exact onNewId_answers rng
      | reqOn => exact setPolicy_answers P .opened
      | reqOff => exact setPolicy_answers P .locked
      | requests => cases h
      | accept requestId => exact onAccept_answers P rng requestId
      | reject requestId => exact onReject_answers requestId
  | hostAccepted requestId => exact onAccept_answers P rng requestId
  | hostRejected requestId => exact onReject_answers requestId
  | _ => cases h

theorem refused_of_isMutation {event : RoomEvent} (h : isMutation event = true) :
    refusedInTransition event = true := by
  cases event with
  | hostCommand command => cases command <;> first | rfl | cases h
  | hostAccepted | hostRejected => rfl
  | _ => cases h

/-- A command of the host gets an answer exactly outside a transition. -/
theorem handleEventAt_answers {event : RoomEvent} (h : isMutation event = true) (now : Duration) :
    Answers (a.handleEventAt P rng event now).2 ↔ a.state ≠ .epochTransition := by
  unfold handleEventAt
  dsimp only
  split
  · rename_i hclosed
    refine ⟨fun _ hstate => ?_, fun _ => rfl⟩
    rw [hstate] at hclosed
    obtain hclosed | hclosed := hclosed <;> cases hclosed
  · split
    · rename_i hstate
      rw [handleInTransition_refused P rng (refused_of_isMutation h)]
      exact ⟨nofun, fun hsettled => absurd hstate hsettled⟩
    · rename_i hsettled
      exact ⟨fun _ => hsettled, fun _ => handleSettled_answers P rng h⟩

end RoomActor

namespace RoomTask
variable {P : Primitives}
open RoomActor

/-- The round of an event without an offender sends a batch exactly when the call has an answer. -/
theorem receive_ne_nil {a : RoomActor} {input : TaskInput} (h : offender input.event = none) :
    (receive P a input).2 ≠ [] ↔ Answers (a.handle P input.toInput).2 := by
  unfold receive
  rw [h]
  generalize a.handle P input.toInput = result
  obtain ⟨b, error | actions⟩ := result
  · cases htransient : error.isTransient <;> simp [Answers, htransient]
  · rfl

theorem offender_of_isMutation {event : RoomEvent} (h : isMutation event = true) :
    offender event = none := by
  cases event <;> first | rfl | cases h

/-- `window` are calls in a row, newest first: from the announcement of the unknown connection `c`
to the call that left the room in `a`. The password was verified and the join requested in it, in
this order, and nothing in it ended the admission. -/
structure Admission (past : Past) (c : ConnectionId) (window : Past) (a : RoomActor) : Prop where
  within : ∃ earlier, window ++ earlier <:+ past
  first : ∃ call, window.getLast? = some call ∧ call.input.event = .clientConnected c ∧
    call.before.connections.get c = none
  last : ∃ call, window.head? = some call ∧ call.after = a
  undisturbed : ∀ call ∈ window, Undisturbed c call
  asked : Asked (fun _ => True) c window

/-- The request of `c` is in the queue, or the host has decided it. -/
def Queued (c : ConnectionId) (window : Past) (a : RoomActor) : Prop :=
  a.Waiting c ∨ Decided c window

/-- An applicant is queued, and a command of the host answered, exactly when no rotation of the
keys got in between. -/
theorem rotation_losses {setup : Setup} {a₀ a : RoomActor} {started : List RoomAction}
    {rounds : Rounds} (hstart : Started P setup a₀ started) (run : Run P a₀ rounds a) :
    (∀ c window b, Admission (past P rounds) c window b →
      (Queued c window b ↔ Asked Call.Settled c window)) ∧
    ∀ round ∈ rounds, isMutation round.input.event = true →
      (round.output ≠ [] ↔ round.before.state ≠ .epochTransition) := by
  constructor
  · rintro c window b ⟨⟨earlier, newer, hpast⟩, ⟨first, hfirst, -, hunknown⟩, ⟨last, hlast, rfl⟩,
      hcalm, -⟩
    have hcalls := run.past
    rw [← hpast] at hcalls
    obtain ⟨middle, hwindow⟩ := List.getLast?_eq_some_iff.mp hfirst
    obtain ⟨rest, hrest⟩ := List.head?_eq_some_iff.mp hlast
    have hmoment : RoomActor.Run P Unconstrained a₀ (window ++ earlier) last.after := by
      rw [hrest] at hcalls ⊢
      exact hcalls.split.2.2.2
    have horigin : RoomActor.Run P Unconstrained a₀ earlier first.before := by
      rw [hwindow, List.append_assoc] at hcalls
      rw [← List.append_assoc] at hcalls
      exact hcalls.split.1
    have hstage := Run.stage P hstart.valid horigin hunknown hmoment hcalm
    exact hstage.asked_iff (Run.valid hstart.valid hmoment)
  · intro round hround hmutation
    obtain ⟨newer, older, rfl⟩ := List.append_of_mem hround
    obtain ⟨-, -, hstep, -⟩ := run.split
    have hbatch := receive_ne_nil (P := P) (a := round.before)
      (offender_of_isMutation hmutation)
    rw [hstep] at hbatch
    exact hbatch.trans (handleEventAt_answers P round.input.rng hmutation round.input.now)

end RoomTask

namespace Symbolic
open RoomActor RoomTask

/-! The keys rotate for a first guest while the host kicks it and a second one arrives. -/

def rotation : List TaskInput :=
  [.epochAck 0 1, .clientConnected 1, .passwordVerified 1, .joinRequested 1 application,
    .hostAccepted 0, .hostCommand (.kick (.id 1)), .clientConnected 2, .epochAck 1 2,
    .epochAck 0 2, .passwordVerified 2, .joinRequested 2 application].map
    fun event => ⟨⟨event, 0, rng 11⟩, 0, rng 12⟩

def rotated : Rounds × RoomActor := Machine.exec (receive primitives) rotation [] room

/-- The calls from the announcement of the second guest to its join request. -/
def lostAdmission : Past := ((past primitives rotated.1).drop 1).take 5

theorem rotated_run : Run primitives room rotated.1 rotated.2 :=
  Machine.Run.exec .start fun _ _ _ _ _ _ _ _ => trivial

end Symbolic

namespace RoomTask
open RoomActor Symbolic

theorem rotation_losses_guest :
    (∀ c window b, Admission (past primitives rotated.1) c window b →
      (Queued c window b ↔ Asked Call.Settled c window)) ∧
    ∀ round ∈ rotated.1, isMutation round.input.event = true →
      (round.output ≠ [] ↔ round.before.state ≠ .epochTransition) :=
  rotation_losses room_started rotated_run

/-- The second guest verified its password and asked to join, and is not in the queue; the kick
was answered with nothing at all. -/
theorem rotation_drops_guest :
    (∃ window b, Admission (past primitives rotated.1) 2 window b ∧ ¬ Queued 2 window b) ∧
      ∃ round ∈ rotated.1, isMutation round.input.event = true ∧ round.output = [] := by
  have hcalm : ∀ call ∈ lostAdmission,
      call.before.requests.requests = [] ∧ Undisturbed 2 call := by decide +kernel
  have hfirst : (lostAdmission.getLast?.any fun call =>
      call.input.event = .clientConnected 2 ∧ call.before.connections.get 2 = none) = true := by
    decide +kernel
  have hlast : (lostAdmission.head?.any fun call => call.after.requests.requests = []) = true := by
    decide +kernel
  have hkick : (rotated.1.any fun round =>
      isMutation round.input.event ∧ round.output = []) = true := by decide +kernel
  obtain ⟨first, hfirst, hevent⟩ := (Option.any_eq_true _ _).mp hfirst
  obtain ⟨last, hlast, hempty⟩ := (Option.any_eq_true _ _).mp hlast
  obtain ⟨round, hround, hdropped⟩ := List.any_eq_true.mp hkick
  refine ⟨⟨lostAdmission, last.after, ⟨?_, ?_, ⟨last, hlast, rfl⟩, fun call hcall =>
    (hcalm call hcall).2, ?_⟩, ?_⟩, round, hround, of_decide_eq_true hdropped⟩
  · refine ⟨((past primitives rotated.1).drop 1).drop 5, ?_⟩
    rw [lostAdmission, List.take_append_drop]
    exact List.drop_suffix _ _
  · exact ⟨first, hfirst, of_decide_eq_true hevent⟩
  · exact .inr ⟨⟨trivial, Symbolic.application, rfl⟩, .inr ⟨⟨trivial, rfl⟩,
      .inl (.inl (.inr ⟨⟨trivial, rfl⟩, trivial⟩))⟩⟩
  · rintro (⟨q, hq, -⟩ | ⟨call, hcall, q, hq, -⟩)
    · rw [of_decide_eq_true hempty] at hq
      cases hq
    · rw [(hcalm call hcall).1] at hq
      cases hq

end RoomTask

end Veilroom
