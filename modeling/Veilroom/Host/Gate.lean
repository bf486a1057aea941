import Veilroom.Crypto.Symbolic
import Veilroom.Host.Turns
import Veilroom.Library.Run

/-!
The host's admission gate over whole runs of the supervisor: what a connection
must have sent before its join request reaches the room, and that its first
failure is the end of it.
-/
namespace Veilroom.Supervisor

abbrev Entry := Machine.Entry Supervisor Input SupervisorOutput
abbrev Past := List Entry

/-- Messages only arrive on connections the listener has accepted. -/
def Arrives (_ : Past) (s : Supervisor) : Input → Prop
  | .inbound id _ _ => hostConnectionId < id ∧ id < s.network.nextId
  | _ => True

abbrev Run (P : Primitives) (debug : Message → String) (s₀ : Supervisor) (past : Past)
    (s : Supervisor) : Prop :=
  Machine.Run (step P debug) Arrives s₀ past s

/-- The supervisor as it enters its loop: it knows no connection yet. -/
structure Starts (s : Supervisor) : Prop where
  connections : ∀ id, s.connections id = none
  network : s.network = .listen

variable {P : Primitives} {debug : Message → String} {s₀ s : Supervisor} {past older : Past}
  {entry : Entry} {id : ConnectionId}

/-! ### What a connection has done -/

/-- The step creates the flow of the connection. -/
def Opens (id : ConnectionId) (flow : HostAdmission) (entry : Entry) : Prop :=
  ∃ input, entry.input = .connect input ∧ .clientConnected id ∈ entry.output.events ∧
    HostAdmission.new entry.before.sessionId entry.before.token entry.before.verifier
      entry.before.hostIdentity entry.before.onionAddress input.nonce = .ok flow

/-- The connection sends a hello of version 1 without feature bits. -/
def Greets (id : ConnectionId) (clientNonce : ShortNonce) (entry : Entry) : Prop :=
  ∃ hello input, entry.input = .inbound id (some (.clientHello hello)) input ∧
    hello.version = 1 ∧ hello.features = 0 ∧ hello.clientNonce = clientNonce

/-- The connection sends the token of its flow and is challenged. -/
def Presents (id : ConnectionId) (flow : HostAdmission) (challengeNonce : ShortNonce)
    (entry : Entry) : Prop :=
  ∃ verify input challenge, entry.input = .inbound id (some (.tokenVerify verify)) input ∧
    verify.token = flow.token ∧ (id, .passwordChallenge challenge) ∈ entry.output.sent ∧
    challenge.challengeNonce = challengeNonce

/-- The connection sends a proof for these nonces. -/
def Proves (P : Primitives) (id : ConnectionId) (flow : HostAdmission)
    (clientNonce challengeNonce : ShortNonce) (entry : Entry) : Prop :=
  ∃ proof input, entry.input = .inbound id (some (.challengeProof proof)) input ∧
    flow.verifier.verifyProof P challengeNonce clientNonce proof.proof = true

def Opened (id : ConnectionId) (flow : HostAdmission) (past : Past) : Prop :=
  ∃ entry ∈ past, Opens id flow entry

def Greeted (id : ConnectionId) (flow : HostAdmission) (clientNonce : ShortNonce) :
    Past → Prop :=
  Machine.Followed (Opened id flow) (Greets id clientNonce)

def Presented (id : ConnectionId) (flow : HostAdmission)
    (clientNonce challengeNonce : ShortNonce) : Past → Prop :=
  Machine.Followed (Greeted id flow clientNonce) (Presents id flow challengeNonce)

/-- The flow was created, greeted, shown its token and given a valid proof, in this order. -/
def Proved (P : Primitives) (id : ConnectionId) (flow : HostAdmission)
    (clientNonce challengeNonce : ShortNonce) : Past → Prop :=
  Machine.Followed (Presented id flow clientNonce challengeNonce)
    (Proves P id flow clientNonce challengeNonce)

/-- The state of a flow tells what its connection has done. -/
inductive Passed (P : Primitives) (id : ConnectionId) (past : Past) : HostAdmission → Prop
  | opened {flow : HostAdmission} : Opened id flow past → flow.state = .awaitingHello →
      Passed P id past flow
  | greeted {flow : HostAdmission} {clientNonce : ShortNonce} :
      Greeted id flow clientNonce past →
      Passed P id past { flow with clientNonce := some clientNonce, state := .awaitingToken }
  | presented {flow : HostAdmission} {clientNonce challengeNonce : ShortNonce} :
      Presented id flow clientNonce challengeNonce past →
      Passed P id past { flow with
        clientNonce := some clientNonce
        challengeNonce := some challengeNonce
        state := .awaitingProof }
  | proved {flow : HostAdmission} {clientNonce challengeNonce : ShortNonce} :
      Proved P id flow clientNonce challengeNonce past →
      Passed P id past { flow with
        clientNonce := some clientNonce
        challengeNonce := some challengeNonce
        state := .awaitingJoinForm }
  | decided {flow : HostAdmission} : flow.state = .decided → Passed P id past flow

theorem Passed.cons {flow : HostAdmission} (h : Passed P id past flow) (entry : Entry) :
    Passed P id (entry :: past) flow := by
  cases h with
  | opened hopened hstate =>
      obtain ⟨opener, hmem, hopens⟩ := hopened
      exact .opened ⟨opener, List.mem_cons_of_mem _ hmem, hopens⟩ hstate
  | greeted h => exact .greeted (.inl h)
  | presented h => exact .presented (.inl h)
  | proved h => exact .proved (.inl h)
  | decided h => exact .decided h

/-- A message that passes the gate takes its flow one stage on. -/
theorem Passed.accepts {c c' : HostConnection} {message : Message} {input : MessageInput}
    {output : SupervisorOutput} {queue : Except PeerSendError Unit}
    (h : Passed P id past c.admission)
    (haccepts : HostConnection.Accepts P id s.policy queue c message c' output)
    (hinput : entry.input = .inbound id (some message) input) (houtput : entry.output = output) :
    Passed P id (entry :: past) c'.admission := by
  obtain ⟨flow, stageSince, lastSeen, admitted⟩ := c
  dsimp only at h
  cases haccepts with
  | hello _ hstate hversion hfeatures hafter =>
      rw [hafter]
      cases h with
      | opened hopened _ =>
          exact .greeted (.inr ⟨⟨_, _, hinput, hversion, hfeatures, rfl⟩, hopened⟩)
      | greeted _ | presented _ | proved _ => cases hstate
      | decided hdecided => simp [hdecided] at hstate
  | @token verify _ challenge _ hstate htoken hafter =>
      rw [hafter]
      cases h with
      | @greeted flow clientNonce hgreeted =>
          have hsent : (id, .passwordChallenge challenge) ∈ entry.output.sent := by
            rw [houtput]
            exact List.mem_singleton_self _
          have hpresented : Presented id flow clientNonce challenge.challengeNonce
              (entry :: past) := .inr ⟨⟨_, _, _, hinput, htoken, hsent, rfl⟩, hgreeted⟩
          have hstage := Passed.presented (P := P) hpresented
          exact hstage
      | opened _ hopened => simp [hopened] at hstate
      | presented _ | proved _ => cases hstate
      | decided hdecided => simp [hdecided] at hstate
  | proof hstate hchallenge hclient hproof hafter =>
      rw [hafter]
      cases h with
      | @presented flow clientNonce challengeNonce hpresented =>
          cases hchallenge
          cases hclient
          have hproved : Proved P id flow _ _ (entry :: past) :=
            .inr ⟨⟨_, _, hinput, hproof⟩, hpresented⟩
          have hstage := Passed.proved hproved
          exact hstage
      | opened _ hopened => simp [hopened] at hstate
      | greeted _ | proved _ => cases hstate
      | decided hdecided => simp [hdecided] at hstate
  | request _ _ _ _ hafter => exact .decided hafter
  | member hstate _ hafter _ => exact .decided (hafter ▸ hstate)
  | keepalive hafter => exact hafter ▸ h.cons entry

/-! ### Invariants of a run -/

theorem state_of_new {roomSessionId : Key} {token : Bytes} {verifier : PasswordVerifier}
    {hostIdentity : HostIdentity} {onionAddress : String} {serverNonce : Option ShortNonce}
    {flow : HostAdmission} (h : HostAdmission.new roomSessionId token verifier hostIdentity
      onionAddress serverNonce = .ok flow) : flow.state = .awaitingHello := by
  unfold HostAdmission.new at h
  split at h
  · cases h
  · cases h
    rfl

theorem Turn.ids {input : Input} {s' : Supervisor} {output : SupervisorOutput}
    (h : Turn P id s input s' output) : s.network.IdsMove s'.network := by
  cases h with
  | handles _ _ hnetwork _ => exact .inl ⟨by rw [hnetwork], by rw [hnetwork]⟩
  | fails _ _ _ hnetwork _ => exact .inl ⟨by rw [hnetwork]; rfl, by rw [hnetwork]; rfl⟩
  | opens hwaiting hnext _ _ _ _ => exact .inr (.inr ⟨hnext, id, hwaiting⟩)
  | aside _ _ _ hids _ => exact hids

theorem nextId_le {n n' : HostNetwork} (h : n.IdsMove n') : n.nextId ≤ n'.nextId := by
  obtain ⟨h, -⟩ | ⟨h, -⟩ | ⟨h, -⟩ := h
  · exact h.ge
  · exact h.ge.trans' (Nat.le_succ _)
  · exact h.ge

/-- An id that was accepted and received does not wait again. -/
theorem not_waiting {n n' : HostNetwork} (h : n.IdsMove n') (hseen : id < n.nextId)
    (hwaiting : id ∉ n.connects) : id ∉ n'.connects := by
  obtain ⟨-, h⟩ | ⟨-, h⟩ | ⟨-, first, h⟩ := h
  · rwa [h]
  · rw [h, List.mem_append, List.mem_singleton]
    rintro (hmem | rfl)
    · exact hwaiting hmem
    · exact absurd hseen (Nat.lt_irrefl _)
  · rw [h] at hwaiting
    exact fun hmem => hwaiting (List.mem_cons_of_mem _ hmem)

/-- The accepted connections the supervisor has not received are distinct. -/
theorem waiting_of_run (hstart : s₀.Starts) (run : Run P debug s₀ past s) :
    (∀ c ∈ s.network.connects, c < s.network.nextId) ∧ s.network.connects.Nodup := by
  refine Machine.Run.invariant (fun _ s => (∀ c ∈ s.network.connects, c < s.network.nextId) ∧
    s.network.connects.Nodup) ?_ ?_ run
  · rw [hstart.network]
    simp [HostNetwork.listen]
  · rintro past s input - ⟨hlt, hnodup⟩ -
    have hother : hostConnectionId + 1 ≠ hostConnectionId := by decide
    have hids := (step_turn P debug hother s input).ids
    obtain ⟨hnext, hconnects⟩ | ⟨hnext, hconnects⟩ | ⟨hnext, first, hconnects⟩ := hids
    · rw [hnext, hconnects]
      exact ⟨hlt, hnodup⟩
    · rw [hnext, hconnects]
      refine ⟨fun c hc => ?_, ?_⟩
      · obtain hc | hc := List.mem_append.mp hc
        · exact Nat.lt_succ_of_lt (hlt c hc)
        · rw [List.mem_singleton.mp hc]
          exact Nat.lt_succ_self _
      · refine hnodup.append (List.nodup_singleton _) fun c hc hnew => ?_
        rw [List.mem_singleton.mp hnew] at hc
        exact absurd (hlt _ hc) (Nat.lt_irrefl _)
    · rw [hconnects] at hlt hnodup
      rw [hnext]
      exact ⟨fun c hc => hlt c (List.mem_cons_of_mem _ hc), (List.nodup_cons.mp hnodup).2⟩

/-- What the supervisor keeps about a connection that is not the host's. -/
structure Gated (P : Primitives) (id : ConnectionId) (past : Past) (s : Supervisor) : Prop where
  live : s.network.isLive id = true → id < s.network.nextId
  opened : ∀ c, s.connections id = some c →
    id < s.network.nextId ∧ id ∉ s.network.connects ∧ Passed P id past c.admission

theorem gated_of_run (hstart : s₀.Starts) (hid : id ≠ hostConnectionId)
    (run : Run P debug s₀ past s) : Gated P id past s := by
  refine Machine.Run.invariant (Gated P id) ⟨?_, ?_⟩ ?_ run
  · simp [hstart.network, HostNetwork.listen, HostNetwork.isLive]
  · simp [hstart.connections]
  · intro past s input hrun h _
    have hwaiting := waiting_of_run hstart hrun
    have hturn := step_turn P debug hid s input
    have hids := hturn.ids
    generalize hstep : step P debug s input = result at hturn hids ⊢
    obtain ⟨s', output⟩ := result
    dsimp only at hturn hids ⊢
    have hle := nextId_le hids
    cases hturn with
    | @handles message input _ _ c c' hc hc' hnetwork haccepts =>
        obtain ⟨hlt, hout, hpassed⟩ := h.opened c hc
        refine ⟨fun _ => hlt.trans_le hle, fun c₂ hc₂ => ⟨hlt.trans_le hle, by rwa [hnetwork], ?_⟩⟩
        obtain rfl : c' = c₂ := Option.some.inj (hc'.symm.trans hc₂)
        exact Passed.accepts (c := { c with lastSeen := input.now }) hpassed haccepts rfl rfl
    | fails _ _ hgone hnetwork _ =>
        refine ⟨fun hlive => ?_, fun c hc => ?_⟩
        · rw [hnetwork, HostNetwork.isLive_close, Bool.and_eq_true] at hlive
          exact (h.live hlive.1).trans_le hle
        · rw [hgone] at hc
          cases hc
    | @opens input _ _ flow hconnects hnext hlive hflow hc hevents =>
        have hmem : id ∈ s.network.connects := hconnects ▸ List.mem_cons_self
        have hlt := hwaiting.1 id hmem
        have hnodup := hwaiting.2
        rw [hconnects, List.nodup_cons] at hnodup
        refine ⟨fun _ => hlt.trans_le hle, fun c₂ hc₂ => ⟨hlt.trans_le hle, hnodup.1, ?_⟩⟩
        cases hc.symm.trans hc₂
        have hopens : Opens id flow ⟨s, .connect input, output, s'⟩ := by
          refine ⟨input, rfl, ?_, hflow⟩
          rw [hevents]
          exact List.mem_singleton_self _
        exact .opened ⟨_, List.mem_cons_self, hopens⟩ (state_of_new hflow)
    | aside _ hkept hlive _ _ =>
        refine ⟨fun hnow => ?_, fun c' hc' => ?_⟩
        · obtain hnow | ⟨rfl, hnext⟩ := hlive hnow
          · exact (h.live hnow).trans_le hle
          · exact hnext ▸ Nat.lt_succ_self _
        · obtain ⟨c, hc, hsame, -⟩ := hkept c' hc'
          obtain ⟨hlt, hout, hpassed⟩ := h.opened c hc
          exact ⟨hlt.trans_le hle, not_waiting hids hlt hout, hsame ▸ hpassed.cons _⟩

/-! ### The first failure -/

/-- A message of the connection failed. -/
def Fails (id : ConnectionId) (entry : Entry) : Prop :=
  ∃ message input, entry.input = .inbound id (some message) input ∧
    entry.output.failed.isSome = true

/-- A closed connection at most waits for a hello nobody can answer: the listener may deliver
its id after its first message already failed. -/
structure Dead (id : ConnectionId) (s : Supervisor) : Prop where
  seen : id < s.network.nextId
  closed : s.network.isLive id = false
  waits : ∀ c, s.connections id = some c → c.admission.state = .awaitingHello

theorem Turn.dead {input : Input} {s' : Supervisor} {output : SupervisorOutput} (h : Dead id s)
    (hturn : Turn P id s input s' output) : Dead id s' ∧ Silent id output.events := by
  have hseen := h.seen.trans_le (nextId_le hturn.ids)
  cases hturn with
  | handles hc hc' hnetwork haccepts =>
      have hstate := h.waits _ hc
      have hclosed (queue : Except PeerSendError Unit) :
          s.network.sendTo id queue = .error .closed := by
        simp only [HostNetwork.sendTo, h.closed, Bool.false_eq_true, ↓reduceIte]
      cases haccepts with
      | hello hqueue _ _ _ _ =>
          rw [hclosed] at hqueue
          cases hqueue
      | token _ hother _ _ | proof hother _ _ _ _ | request hother _ _ _ _
      | member hother _ _ _ => simp [hstate] at hother
      | keepalive hafter =>
          refine ⟨⟨hseen, by rw [hnetwork]; exact h.closed, fun c₂ hc₂ => ?_⟩,
            fun event hevent => by cases hevent⟩
          cases hc'.symm.trans hc₂
          rw [hafter]
          exact hstate
  | fails _ _ hgone hnetwork hsilent =>
      refine ⟨⟨hseen, by simp [hnetwork], fun c hc => ?_⟩, hsilent⟩
      rw [hgone] at hc
      cases hc
  | opens _ _ hlive hflow hc hevents =>
      refine ⟨⟨hseen, by rw [hlive]; exact h.closed, fun c₂ hc₂ => ?_⟩, fun event hevent => ?_⟩
      · cases hc.symm.trans hc₂
        exact state_of_new hflow
      · rw [hevents, List.mem_singleton] at hevent
        rw [hevent]
        rfl
  | aside _ hkept hlive _ hsilent =>
      refine ⟨⟨hseen, ?_, fun c' hc' => ?_⟩, hsilent⟩
      · rw [Bool.eq_false_iff]
        intro hnow
        obtain hnow | ⟨rfl, -⟩ := hlive hnow
        · rw [h.closed] at hnow
          cases hnow
        · exact absurd h.seen (Nat.lt_irrefl _)
      · obtain ⟨c, hc, hsame, -⟩ := hkept c' hc'
        rw [hsame]
        exact h.waits c hc

theorem dead_of_fails (hid : id ≠ hostConnectionId) (run : Run P debug s₀ past s)
    (h : ∃ entry ∈ past, Fails id entry) : Dead id s := by
  refine Machine.Run.invariant
    (fun past s => (∃ entry ∈ past, Fails id entry) → Dead id s) ?_ ?_ run h
  · rintro ⟨entry, hentry, -⟩
    cases hentry
  · rintro past s input - ih hallowed ⟨entry, hentry, hfails⟩
    have hturn := step_turn P debug hid s input
    obtain rfl | hentry := List.mem_cons.mp hentry
    · obtain ⟨message, i, hinput, hfailed⟩ := hfails
      dsimp only at hinput hfailed
      subst hinput
      have hseen := hallowed.2.trans_le (nextId_le hturn.ids)
      generalize step P debug s (.inbound id (some message) i) = result at hturn hfailed hseen ⊢
      obtain ⟨s', output⟩ := result
      dsimp only at hturn hfailed hseen ⊢
      cases hturn with
      | handles _ _ _ haccepts => cases haccepts <;> cases hfailed
      | fails _ _ hgone hnetwork _ =>
          refine ⟨hseen, by simp [hnetwork], fun c hc => ?_⟩
          rw [hgone] at hc
          cases hc
      | aside hother _ _ _ _ => exact absurd rfl (hother message i)
    · exact (hturn.dead (ih ⟨entry, hentry, hfails⟩)).1

/-! ### How often -/

/-- The step evaluates a wrong proof of the connection. -/
def failsProof (id : ConnectionId) (entry : Entry) : Bool :=
  match entry.input with
  | .inbound c (some _) _ =>
    c = id && entry.output.failed = some (.admission .invalidPasswordProof)
  | _ => false

/-- How many wrong proofs of the connection were evaluated. -/
def guesses (id : ConnectionId) (past : Past) : Nat := past.countP (failsProof id)

def isJoinRequested (id : ConnectionId) : RoomEvent → Bool
  | .joinRequested c _ => c = id
  | _ => false

/-- How many join requests of the connection the room was told of. -/
def requests (id : ConnectionId) (past : Past) : Nat :=
  (past.flatMap fun entry => entry.output.events).countP (isJoinRequested id)

theorem fails_of_failsProof (h : failsProof id entry = true) : Fails id entry := by
  unfold failsProof at h
  split at h
  · rename_i c message input hinput
    obtain ⟨rfl, hfailed⟩ : c = id ∧ entry.output.failed = some _ := by simpa using h
    exact ⟨message, input, hinput, by rw [hfailed]; rfl⟩
  · cases h

theorem guesses_le_one (hid : id ≠ hostConnectionId) (run : Run P debug s₀ past s) :
    guesses id past ≤ 1 := by
  induction run with
  | start => simp [guesses]
  | @step past s input run hallowed ih =>
      unfold guesses at ih ⊢
      rw [List.countP_cons]
      split
      · rename_i hproof
        suffices hnone : past.countP (failsProof id) = 0 by omega
        by_contra hsome
        obtain ⟨earlier, hmem, hearlier⟩ := List.countP_pos_iff.mp (Nat.pos_of_ne_zero hsome)
        have hdead := dead_of_fails hid run ⟨earlier, hmem, fails_of_failsProof hearlier⟩
        have hturn := step_turn P debug hid s input
        unfold failsProof at hproof
        split at hproof
        · rename_i c message i hinput
          obtain ⟨rfl, hfailed⟩ : c = id ∧ (step P debug s input).2.failed = some _ := by
            simpa using hproof
          dsimp only at hinput
          subst hinput
          generalize step P debug s (.inbound c (some message) i) = result at hturn hfailed
          obtain ⟨s', output⟩ := result
          dsimp only at hturn hfailed
          cases hturn with
          | handles _ _ _ haccepts => cases haccepts <;> cases hfailed
          | fails herror hguessed _ _ _ =>
              cases herror.symm.trans hfailed
              obtain ⟨connection, hfound, proof, _, _, -, hstate, -⟩ := hguessed rfl
              simp [hdead.waits connection hfound] at hstate
          | aside hother _ _ _ _ => exact absurd rfl (hother message i)
        · cases hproof
      · simpa using ih

private theorem countP_of_silent {events : List RoomEvent} (h : Silent id events) :
    events.countP (isJoinRequested id) = 0 := by
  rw [List.countP_eq_zero]
  intro event hevent hrequest
  have hsilent := h event hevent
  cases event <;> simp_all [isJoinRequested, RoomEvent.forwards]

/-- A connection whose request was released stays decided. -/
structure Spent (id : ConnectionId) (s : Supervisor) : Prop where
  seen : id < s.network.nextId
  received : id ∉ s.network.connects
  decided : ∀ c, s.connections id = some c → c.admission.state = .decided

theorem Spent.turn {input : Input} {s' : Supervisor} {output : SupervisorOutput}
    (h : Spent id s) (hturn : Turn P id s input s' output) :
    Spent id s' ∧ output.events.countP (isJoinRequested id) = 0 := by
  have hseen := h.seen.trans_le (nextId_le hturn.ids)
  have hreceived := not_waiting hturn.ids h.seen h.received
  cases hturn with
  | handles hc hc' hnetwork haccepts =>
      have hstate := h.decided _ hc
      have hkeeps {c' : HostConnection} (hafter : c'.admission.state = .decided)
          (hc' : s'.connections id = some c') : Spent id s' := by
        refine ⟨hseen, hreceived, fun c₂ hc₂ => ?_⟩
        cases hc'.symm.trans hc₂
        exact hafter
      cases haccepts with
      | hello _ hother _ _ _ | token _ hother _ _ | proof hother _ _ _ _
      | request hother _ _ _ _ => simp [hstate] at hother
      | member _ _ hafter hevent =>
          refine ⟨hkeeps (by rw [hafter]; exact hstate) hc', ?_⟩
          obtain ⟨epoch, rfl⟩ | ⟨messageType, envelope, rfl⟩ := hevent <;> rfl
      | keepalive hafter => exact ⟨hkeeps (by rw [hafter]; exact hstate) hc', rfl⟩
  | fails _ _ hgone hnetwork hsilent =>
      refine ⟨⟨hseen, hreceived, fun c hc => ?_⟩, countP_of_silent hsilent⟩
      rw [hgone] at hc
      cases hc
  | opens hconnects _ _ _ _ _ => exact absurd (hconnects ▸ List.mem_cons_self) h.received
  | aside _ hkept _ _ hsilent =>
      refine ⟨⟨hseen, hreceived, fun c' hc' => ?_⟩, countP_of_silent hsilent⟩
      obtain ⟨c, hc, hsame, -⟩ := hkept c' hc'
      rw [hsame]
      exact h.decided c hc

theorem requests_of_run (hstart : s₀.Starts) (hid : id ≠ hostConnectionId)
    (run : Run P debug s₀ past s) :
    requests id past = 0 ∨ requests id past = 1 ∧ Spent id s := by
  induction run with
  | start => exact .inl rfl
  | @step past s input run hallowed ih =>
      have hturn := step_turn P debug hid s input
      have hgated := gated_of_run hstart hid run
      have hcount : requests id (⟨s, input, (step P debug s input).2,
          (step P debug s input).1⟩ :: past) =
          (step P debug s input).2.events.countP (isJoinRequested id) + requests id past := by
        simp [requests]
      rw [hcount]
      obtain ih | ⟨ih, hspent⟩ := ih
      · rw [ih, Nat.add_zero]
        have hids := hturn.ids
        generalize step P debug s input = result at hturn hids ⊢
        obtain ⟨s', output⟩ := result
        dsimp only at hturn hids ⊢
        cases hturn with
        | handles hc hc' hnetwork haccepts =>
            obtain ⟨hseen, hreceived, -⟩ := hgated.opened _ hc
            cases haccepts with
            | hello _ _ _ _ _ | token _ _ _ _ | keepalive _ | proof _ _ _ _ _ => exact .inl rfl
            | request _ _ _ _ hafter =>
                refine .inr ⟨by simp [isJoinRequested], hseen.trans_le (nextId_le hids),
                  not_waiting hids hseen hreceived, fun c₂ hc₂ => ?_⟩
                cases hc'.symm.trans hc₂
                exact hafter
            | member _ _ _ hevent =>
                obtain ⟨epoch, rfl⟩ | ⟨messageType, envelope, rfl⟩ := hevent <;> exact .inl rfl
        | fails _ _ _ _ hsilent | aside _ _ _ _ hsilent => exact .inl (countP_of_silent hsilent)
        | opens _ _ _ _ _ hevents =>
            rw [hevents]
            exact .inl rfl
      · obtain ⟨hspent, hnone⟩ := hspent.turn hturn
        exact .inr ⟨by omega, hspent⟩

/-! ### Soundness of the gate -/

/-- The request verifies under its own key over the transcript of the flow. -/
def SignedFor (P : Primitives) (flow : HostAdmission) (clientNonce : ShortNonce)
    (request : JoinRequestMessage) : Prop :=
  P.ed25519Verify request.ed25519Pubkey (joinRequestTranscript 1 flow.roomSessionId clientNonce
    flow.serverNonce request.nickname
    (P.sha256 (Transcript.utf8 (request.introduction.getD ""))) request.ed25519Pubkey
    request.x25519Pubkey flow.onionAddress (P.sha256 flow.token)) request.signature = true

private theorem turn_of_split {newer : Past} (hid : id ≠ hostConnectionId)
    (run : Run P debug s₀ (newer ++ entry :: older) s) :
    Run P debug s₀ older entry.before ∧
      Turn P id entry.before entry.input entry.after entry.output := by
  obtain ⟨hrun, -, hstep, -⟩ := Machine.Run.split run
  have hturn := step_turn P debug hid entry.before entry.input
  rw [hstep] at hturn
  exact ⟨hrun, hturn⟩

theorem joinRequested_of_run {newer : Past} {application : JoinApplication}
    (hstart : s₀.Starts) (hid : id ≠ hostConnectionId)
    (run : Run P debug s₀ (newer ++ entry :: older) s)
    (h : .joinRequested id application ∈ entry.output.events) :
    ∃ flow clientNonce challengeNonce request input,
      Proved P id flow clientNonce challengeNonce older ∧
      entry.input = .inbound id (some (.joinRequest request)) input ∧
      SignedFor P flow clientNonce request ∧ entry.before.policy = .opened ∧
      application = ⟨request.nickname, request.introduction, request.ed25519Pubkey,
        request.x25519Pubkey, request.signature⟩ := by
  obtain ⟨hrun, hturn⟩ := turn_of_split hid run
  have hgated := gated_of_run hstart hid hrun
  generalize hinput : entry.input = input at hturn
  generalize houtput : entry.output = output at hturn h
  have hloud : ¬ Silent id output.events := by
    intro hsilent
    simpa [RoomEvent.forwards] using hsilent _ h
  cases hturn with
  | handles hc _ _ haccepts =>
      obtain ⟨-, -, hpassed⟩ := hgated.opened _ hc
      cases haccepts with
      | hello _ _ _ _ _ | token _ _ _ _ | keepalive _ => cases h
      | proof _ _ _ _ _ => cases List.mem_singleton.mp h
      | member _ _ _ hevent =>
          obtain ⟨epoch, rfl⟩ | ⟨messageType, envelope, rfl⟩ := hevent <;>
            cases List.mem_singleton.mp h
      | request hstate hclient hsigned hpolicy _ =>
          cases List.mem_singleton.mp h
          generalize hflow : HostConnection.admission _ = flow at hpassed hstate hclient hsigned
          cases hpassed with
          | proved hproved =>
              cases hclient
              exact ⟨_, _, _, _, _, hproved, rfl, hsigned, hpolicy, rfl⟩
          | opened _ hopened => simp [hopened] at hstate
          | greeted _ | presented _ => cases hstate
          | decided hdecided => simp [hdecided] at hstate
  | fails _ _ _ _ hsilent | aside _ _ _ _ hsilent => exact absurd hsilent hloud
  | opens _ _ _ _ _ hevents =>
      rw [hevents] at h
      cases List.mem_singleton.mp h

/-- What an admitted member says is what reaches the room as acknowledgements and envelopes. -/
theorem admitted_of_forwarded {newer : Past} {event : RoomEvent} (hid : id ≠ hostConnectionId)
    (run : Run P debug s₀ (newer ++ entry :: older) s) (h : event ∈ entry.output.events)
    (hevent : (∃ epoch, event = .epochAck id epoch) ∨
      ∃ messageType envelope, event = .chatReceived id messageType envelope) :
    ∃ c, entry.before.connections id = some c ∧ c.admitted = true := by
  obtain ⟨-, hturn⟩ := turn_of_split hid run
  generalize entry.input = input at hturn
  generalize entry.output = output at hturn h
  have hforwards : event.forwards id = true := by
    obtain ⟨epoch, rfl⟩ | ⟨messageType, envelope, rfl⟩ := hevent <;> simp [RoomEvent.forwards]
  have hloud : ¬ Silent id output.events := by
    intro hsilent
    rw [hsilent event h] at hforwards
    cases hforwards
  cases hturn with
  | handles hc _ _ haccepts =>
      cases haccepts with
      | hello _ _ _ _ _ | token _ _ _ _ | keepalive _ => cases h
      | proof _ _ _ _ _ | request _ _ _ _ _ =>
          rw [List.mem_singleton.mp h] at hevent
          obtain ⟨epoch, hevent⟩ | ⟨messageType, envelope, hevent⟩ := hevent <;> cases hevent
      | member _ hadmitted _ _ => exact ⟨_, hc, hadmitted⟩
  | fails _ _ _ _ hsilent | aside _ _ _ _ hsilent => exact absurd hsilent hloud
  | opens _ _ _ _ _ hevents =>
      rw [hevents] at h
      rw [List.mem_singleton.mp h] at hforwards
      cases hforwards

theorem silent_after_failure {newer : Past} (hid : id ≠ hostConnectionId)
    (run : Run P debug s₀ (newer ++ entry :: older) s) (hfails : Fails id entry) :
    ∀ later ∈ newer, Silent id later.output.events := by
  intro later hlater
  obtain ⟨newest, between, rfl⟩ := List.append_of_mem hlater
  rw [List.append_assoc, List.cons_append] at run
  obtain ⟨hrun, hturn⟩ := turn_of_split hid run
  have hdead : Dead id later.before :=
    dead_of_fails hid hrun ⟨entry, List.mem_append_right _ List.mem_cons_self, hfails⟩
  exact (hturn.dead hdead).2

/-- The gate is sound, over every run of the supervisor and for every connection of a client:
its join request reaches the room at most once, and only after a hello, the token, a valid
proof and a signed request of its own, in this order and under an open policy; the room hears
of its acknowledgements and envelopes only while it is admitted; and after its first failure
the room hears nothing it says, so at most one wrong proof of it is ever evaluated. -/
theorem gate_sound (hstart : s₀.Starts) (run : Run P debug s₀ past s)
    (hid : id ≠ hostConnectionId) :
    requests id past ≤ 1 ∧
    (∀ newer entry older application, past = newer ++ entry :: older →
      .joinRequested id application ∈ entry.output.events →
      ∃ flow clientNonce challengeNonce request input,
        Proved P id flow clientNonce challengeNonce older ∧
        entry.input = .inbound id (some (.joinRequest request)) input ∧
        SignedFor P flow clientNonce request ∧ entry.before.policy = .opened ∧
        application = ⟨request.nickname, request.introduction, request.ed25519Pubkey,
          request.x25519Pubkey, request.signature⟩) ∧
    (∀ entry ∈ past, ∀ event ∈ entry.output.events,
      ((∃ epoch, event = .epochAck id epoch) ∨
        ∃ messageType envelope, event = .chatReceived id messageType envelope) →
      ∃ c, entry.before.connections id = some c ∧ c.admitted = true) ∧
    (∀ newer entry older, past = newer ++ entry :: older → Fails id entry →
      ∀ later ∈ newer, Silent id later.output.events) ∧
    guesses id past ≤ 1 := by
  refine ⟨?_, ?_, ?_, ?_, guesses_le_one hid run⟩
  · obtain h | ⟨h, -⟩ := requests_of_run hstart hid run <;> omega
  · rintro newer entry older application rfl h
    exact joinRequested_of_run hstart hid run h
  · intro entry hentry event hevent
    obtain ⟨newer, older, rfl⟩ := List.append_of_mem hentry
    exact admitted_of_forwarded hid run hevent
  · rintro newer entry older rfl
    exact silent_after_failure hid run

end Veilroom.Supervisor

namespace Veilroom

/-! ### A visitor at the gate -/

namespace Symbolic
open Supervisor

/-- A host that has published its invitation. -/
def host : Supervisor where
  sessionId := Vector.replicate 32 5
  hostIdentity := ⟨Vector.replicate 32 1, Vector.replicate 32 2⟩
  hostClientIdentity := ⟨Vector.replicate 32 3, Vector.replicate 32 4⟩
  verifier := ⟨Vector.replicate 16 2, 1, 1, 1, Vector.replicate 32 10⟩
  onionAddress := "veilroom.onion"
  timeouts := {}
  hostChat := .new (Vector.replicate 32 5) (Vector.replicate 32 1) (Vector.replicate 32 2) 0
  token := List.replicate 32 6
  policy := .opened
  connections _ := none
  passwordGuard := .new
  network := .listen

def visitor : MemberIdentity := ⟨Vector.replicate 32 8, Vector.replicate 32 9⟩

/-- What the world answers to every message of the visitor. -/
def answer : MessageInput := ⟨0, some (Vector.replicate 16 4), .ok ()⟩

/-- The messages of a visitor that knows the invitation and the password. -/
def knocks : List Message :=
  [.clientHello ⟨1, Vector.replicate 16 3, 0⟩, .tokenVerify ⟨List.replicate 32 6⟩,
    .challengeProof ⟨computeProof primitives (Transcript.fixed host.verifier.derivedKey)
      (Vector.replicate 16 4) (Vector.replicate 16 3)⟩,
    .joinRequest ⟨"guest", none, visitor.ed25519Pubkey primitives,
      visitor.x25519Pubkey primitives, visitor.sign primitives []⟩]

def knocked : Past × Supervisor :=
  Machine.exec (step primitives fun _ => "") (.stream .default :: .connect answer ::
    knocks.map fun message => .inbound 1 (some message) answer) [] host

theorem host_starts : host.Starts := ⟨fun _ => rfl, rfl⟩

theorem knocked_run :
    Supervisor.Run primitives (fun _ => "") host knocked.1 knocked.2 := by
  refine .step (.step (.step (.step (.step (.step .start trivial) trivial) ?_) ?_) ?_) ?_ <;>
    exact ⟨by decide, by decide +kernel⟩

end Symbolic

namespace Supervisor
open Symbolic

theorem gate_sound_knock :
    requests 1 knocked.1 = 1 ∧ requests 1 knocked.1 ≤ 1 ∧ guesses 1 knocked.1 ≤ 1 := by
  have h := gate_sound host_starts knocked_run (by decide : (1 : ConnectionId) ≠ hostConnectionId)
  exact ⟨by decide +kernel, h.1, h.2.2.2.2⟩

end Supervisor

end Veilroom
