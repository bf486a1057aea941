import Veilroom.Host.Invitations

/-!
Trials of the password, as the supervisor lets a connection have them.

A connection is tried at most once. It is tried while its peer is live, unless
the room wrote to it before it had asked to join; what the room writes to is a
hypothesis here.
-/
namespace Veilroom

/-! ### The password guard -/

namespace PasswordGuard
variable {g : PasswordGuard} {start now deadline : Duration}

theorem nextWindow_mono {g g' : PasswordGuard} (h : g.lockouts ≤ g'.lockouts) :
    g.nextWindow ≤ g'.nextWindow := by
  unfold nextWindow
  apply min_le_min_right
  apply Nat.mul_le_mul_left
  exact Nat.pow_le_pow_right (by decide) (min_le_min_right 31 h)

/-- The guard is locked up to `deadline`, and a lockout that begins at `start` or later does not end
before it. -/
structure LockedUntil (g : PasswordGuard) (start deadline : Duration) : Prop where
  locked : ∃ last, g.lockedUntil = some last ∧ deadline ≤ last
  window : deadline ≤ start + g.nextWindow

/-- A lockout begins when the failure raises the number of lockouts. -/
theorem lockedUntil_of_raised (hraised : g.lockouts < (g.recordFailure now).1.lockouts)
    (hdeadline : (g.recordFailure now).1.lockedUntil = some deadline) :
    (g.recordFailure now).1.LockedUntil now deadline := by
  refine ⟨⟨deadline, hdeadline, le_refl _⟩, ?_⟩
  unfold recordFailure at hraised hdeadline ⊢
  dsimp only at hraised hdeadline ⊢
  split at hraised
  · exact absurd hraised (lt_irrefl _)
  rename_i hthreshold
  rw [if_neg hthreshold] at hdeadline ⊢
  cases hdeadline
  apply Nat.add_le_add_left
  exact nextWindow_mono hraised.le

theorem LockedUntil.recordFailure (h : g.LockedUntil start deadline) (hle : start ≤ now) :
    (g.recordFailure now).1.LockedUntil start deadline := by
  obtain ⟨⟨last, hlast, hdeadline⟩, hwindow⟩ := h
  unfold PasswordGuard.recordFailure
  dsimp only
  split
  · exact ⟨⟨last, hlast, hdeadline⟩, hwindow⟩
  · refine ⟨⟨_, rfl, hwindow.trans ?_⟩, hwindow.trans ?_⟩
    · exact Nat.add_le_add_right hle _
    · apply Nat.add_le_add_left
      exact nextWindow_mono (Nat.le_succ g.lockouts)

theorem LockedUntil.remaining (h : g.LockedUntil start deadline) (hlt : now < deadline) :
    (g.remaining now).isSome = true := by
  obtain ⟨last, hlast, hdeadline⟩ := h.locked
  simp [PasswordGuard.remaining, hlast, hlt.trans_le hdeadline]

end PasswordGuard

/-! ### The listener -/

namespace HostNetwork

theorem preAuthConnections_close_le (n : HostNetwork) (c : ConnectionId) :
    (n.close c).preAuthConnections ≤ n.preAuthConnections :=
  (List.filter_sublist.filter _).length_le

theorem preAuthConnections_markAdmitted_le (n : HostNetwork) (c : ConnectionId) :
    (n.markAdmitted c).preAuthConnections ≤ n.preAuthConnections := by
  unfold preAuthConnections markAdmitted
  rw [List.filter_map, List.length_map]
  apply List.Sublist.length_le
  apply List.monotone_filter_right
  intro peer hpeer
  simp only [Function.comp_apply] at hpeer
  split at hpeer
  · cases hpeer
  · exact hpeer

theorem preAuthConnections_accept (n : HostNetwork) (limits : Limits)
    (h : n.preAuthConnections ≤ limits.maxPreAuthConnections) :
    (n.accept limits).preAuthConnections ≤ limits.maxPreAuthConnections := by
  unfold accept
  split
  · exact h
  · rename_i hroom
    simp only [preAuthConnections, List.filter_append, List.length_append]
    simp only [preAuthConnections, ge_iff_le, Nat.not_le] at hroom
    simpa [Nat.succ_le_iff] using hroom

/-- Closing a connection is about its own peer. -/
theorem mem_peers_close {n : HostNetwork} {c : ConnectionId} {peer : Peer}
    (hne : peer.connection ≠ c) : peer ∈ (n.close c).peers ↔ peer ∈ n.peers := by
  simp [close, hne]

theorem mem_peers_markAdmitted {n : HostNetwork} {c : ConnectionId} {peer : Peer}
    (hne : peer.connection ≠ c) : peer ∈ (n.markAdmitted c).peers ↔ peer ∈ n.peers := by
  simp only [markAdmitted, List.mem_map]
  constructor
  · rintro ⟨found, hfound, rfl⟩
    split at hne
    · rename_i hsame
      exact absurd hsame hne
    · rename_i hother
      rw [if_neg hother]
      exact hfound
  · intro hmem
    exact ⟨peer, hmem, if_neg hne⟩

theorem isLive_iff {n : HostNetwork} {c : ConnectionId} :
    n.isLive c = true ↔ ∃ peer ∈ n.peers, peer.connection = c := by
  simp [isLive]

end HostNetwork

namespace Supervisor
variable {P : Primitives} {debug : Message → String} {s₀ s s' : Supervisor} {past : Past}
variable {id : ConnectionId} {input : Input} {output : SupervisorOutput}

theorem guard_sendTimeoutChanged (s : Supervisor) (nonce : Option Nonce)
    (interval : Option Nat) :
    (s.sendTimeoutChanged P nonce interval).1.passwordGuard = s.passwordGuard := by
  unfold sendTimeoutChanged
  split <;> rfl

theorem guard_onAction (s : Supervisor) (action : RoomAction) (input : ActionInput) :
    (s.onAction P action input).1.passwordGuard = s.passwordGuard := by
  cases action with
  | sendTo connection message =>
      simp only [onAction, onOwnMessage, onSendTo]
      repeat' split
      all_goals rfl
  | closeConnection connection => rfl
  | notifyHost notice =>
      simp only [onAction, onNotice]
      split
      case h_3 | h_4 => exact guard_sendTimeoutChanged s input.nonce _
      all_goals rfl

theorem guard_onKey (s : Supervisor) (input : KeyInput) :
    (s.onKey P input).1.passwordGuard = s.passwordGuard := by
  cases input with
  | exit | member _ => rfl
  | timeout interval nonce => exact guard_sendTimeoutChanged s nonce interval
  | color color nonce =>
      simp only [onKey]
      split <;> rfl
  | host command => cases command <;> rfl

/-- A step leaves the guard alone, or records the failure of a message. -/
theorem guard_of_step (P : Primitives) (debug : Message → String) (s : Supervisor)
    (input : Input) : (s.step P debug input).1.passwordGuard = s.passwordGuard ∨
      ∃ c message i, input = .inbound c message i ∧
        (s.step P debug input).1.passwordGuard = (s.passwordGuard.recordFailure i.now).1 := by
  have hactions (batch : List (RoomAction × ActionInput)) :
      (s.handleHostActions P batch).1.passwordGuard = s.passwordGuard := by
    induction batch generalizing s with
    | nil => rfl
    | cons first rest ih => exact (ih _).trans (guard_onAction s first.1 first.2)
  cases input with
  | stream limits | tick => exact .inl rfl
  | connect i =>
      left
      simp only [step, onConnect]
      repeat' split
      all_goals rfl
  | inbound c message i =>
      cases message with
      | none => exact .inl rfl
      | some message =>
          simp only [step, onInbound, handleHostMessage, connections_setConnection, ↓reduceIte]
          cases s.connections c with
          | none => exact .inl rfl
          | some connection =>
              dsimp only [Option.map_some]
              generalize HostConnection.handle P { connection with lastSeen := i.now } c message
                _ _ = result
              obtain ⟨after, sent, error | done⟩ := result
              · dsimp only
                split
                · exact .inr ⟨c, some message, i, rfl, rfl⟩
                · exact .inl rfl
              · exact .inl rfl
  | actions batch => exact .inl (hactions batch)
  | expire c now =>
      left
      simp only [step, expire]
      repeat' split
      all_goals rfl
  | key i =>
      left
      exact guard_onKey s i

/-! ### The connections before admission -/

theorem expire_cases (s : Supervisor) (c : ConnectionId) (now : Duration) :
    (s.expire c now).1 = s ∨ (s.expire c now).1 = s.drop c := by
  unfold expire
  split
  · exact .inl rfl
  split <;> (dsimp only; split)
  · exact .inr rfl
  · exact .inl rfl
  · exact .inr rfl
  · exact .inl rfl

theorem preAuth_onAction_le (s : Supervisor) (action : RoomAction) (input : ActionInput) :
    (s.onAction P action input).1.network.preAuthConnections ≤ s.network.preAuthConnections := by
  cases action with
  | sendTo connection message =>
      unfold onAction
      dsimp only
      split
      · rw [(s.onOwnMessage_inward message).2.1]
      unfold onSendTo
      split
      · exact s.network.preAuthConnections_close_le connection
      split
      · exact s.network.preAuthConnections_markAdmitted_le connection
      · exact le_refl _
  | closeConnection connection => exact s.network.preAuthConnections_close_le connection
  | notifyHost notice => exact (congrArg _ (s.onNotice_inward input.nonce notice).2.1).le

theorem preAuth_handleHostActions_le (s : Supervisor) (batch : List (RoomAction × ActionInput)) :
    (s.handleHostActions P batch).1.network.preAuthConnections ≤
      s.network.preAuthConnections := by
  induction batch generalizing s with
  | nil => exact le_refl _
  | cons first rest ih => exact (ih _).trans (preAuth_onAction_le s first.1 first.2)

/-- The accept loop keeps its limit, and nothing else raises the number of these connections. -/
theorem preAuth_of_step {limits : Limits}
    (h : s.network.preAuthConnections ≤ limits.maxPreAuthConnections)
    (hlimits : ∀ l, input = .stream l → l = limits) :
    (s.step P debug input).1.network.preAuthConnections ≤ limits.maxPreAuthConnections := by
  cases input with
  | stream l =>
      rw [hlimits l rfl]
      exact s.network.preAuthConnections_accept limits h
  | connect i =>
      simp only [step, onConnect]
      split
      · exact h
      split
      · exact (HostNetwork.preAuthConnections_close_le _ _).trans h
      split
      · exact (HostNetwork.preAuthConnections_close_le _ _).trans h
      · exact h
  | inbound c message i =>
      cases message with
      | none => exact (HostNetwork.preAuthConnections_close_le _ _).trans h
      | some message =>
          obtain ⟨_, -, -, -, hnetwork, -⟩ | ⟨_, _, _, -, -, -, hnetwork, -⟩ :=
            onInbound_message P debug s c message i
          · exact (congrArg _ hnetwork).le.trans
              ((HostNetwork.preAuthConnections_close_le _ _).trans h)
          · exact (congrArg _ hnetwork).le.trans h
  | actions batch => exact (preAuth_handleHostActions_le s batch).trans h
  | expire c now =>
      simp only [step]
      obtain heq | heq := expire_cases s c now <;> rw [heq]
      · exact h
      · exact (HostNetwork.preAuthConnections_close_le _ _).trans h
  | key i => exact (congrArg _ (s.onKey_inward i).2.1).le.trans h
  | tick => exact h

/-! ### Steps that are not about a connection -/

/-- The connection and its peer are what they were. -/
structure Untouched (id : ConnectionId) (s s' : Supervisor) : Prop where
  connection : s'.connections id = s.connections id
  peer : ∀ peer : Peer, peer.connection = id →
    (peer ∈ s'.network.peers ↔ peer ∈ s.network.peers)

namespace Untouched

theorem refl (s : Supervisor) : Untouched id s s := ⟨rfl, fun _ _ => Iff.rfl⟩

theorem trans {s₁ s₂ s₃ : Supervisor} (h : Untouched id s₁ s₂) (k : Untouched id s₂ s₃) :
    Untouched id s₁ s₃ :=
  ⟨k.connection.trans h.connection, fun peer hpeer => (k.peer peer hpeer).trans (h.peer peer hpeer)⟩

theorem inward {events : List RoomEvent} (h : Inward s s' events) : Untouched id s s' :=
  ⟨by rw [h.1], fun _ _ => by rw [h.2.1]⟩

theorem closed {c : ConnectionId} (hne : id ≠ c)
    (hconnection : s'.connections id = s.connections id)
    (hpeers : s'.network.peers = (s.network.close c).peers) : Untouched id s s' := by
  refine ⟨hconnection, fun peer hpeer => ?_⟩
  rw [hpeers]
  exact HostNetwork.mem_peers_close (hpeer ▸ hne)

theorem drop {c : ConnectionId} (hne : id ≠ c) (s : Supervisor) : Untouched id s (s.drop c) :=
  .closed hne (by simp [hne]) rfl

theorem live (h : Untouched id s s') (hlive : s.network.isLive id = true) :
    s'.network.isLive id = true := by
  obtain ⟨peer, hmem, hpeer⟩ := HostNetwork.isLive_iff.mp hlive
  exact HostNetwork.isLive_iff.mpr ⟨peer, (h.peer peer hpeer).mpr hmem, hpeer⟩

end Untouched

theorem onAction_untouched (s : Supervisor) {action : RoomAction} (input : ActionInput)
    (hsend : ∀ message, action ≠ .sendTo id message) (hclose : action ≠ .closeConnection id) :
    Untouched id s (s.onAction P action input).1 := by
  cases action with
  | sendTo connection message =>
      have hne : id ≠ connection := fun h => hsend message (h ▸ rfl)
      unfold onAction
      dsimp only
      split
      · exact .inward (s.onOwnMessage_inward message)
      unfold onSendTo
      split
      · exact .closed hne rfl rfl
      split
      · refine ⟨by simp [hne], fun peer hpeer => ?_⟩
        exact HostNetwork.mem_peers_markAdmitted (hpeer ▸ hne)
      · exact .refl s
  | closeConnection connection => exact .drop (fun h => hclose (congrArg _ h.symm)) s
  | notifyHost notice => exact .inward (s.onNotice_inward input.nonce notice)

theorem handleHostActions_untouched (s : Supervisor) {batch : List (RoomAction × ActionInput)}
    (hsend : ∀ message, .sendTo id message ∉ batch.map Prod.fst)
    (hclose : .closeConnection id ∉ batch.map Prod.fst) :
    Untouched id s (s.handleHostActions P batch).1 := by
  induction batch generalizing s with
  | nil => exact .refl s
  | cons first rest ih =>
      simp only [List.map_cons, List.mem_cons, not_or] at hsend hclose
      have hfirst : Untouched id s (s.onAction P first.1 first.2).1 :=
        onAction_untouched s first.2 (fun message h => (hsend message).1 h.symm)
          fun h => hclose.1 h.symm
      exact hfirst.trans (ih _ (fun message => (hsend message).2) hclose.2)

/-- Once the action that closes it is handled, the connection is forgotten. -/
theorem forgotten_by_actions (hclient : id ≠ hostConnectionId)
    {batch : List (RoomAction × ActionInput)} (h : .closeConnection id ∈ batch.map Prod.fst) :
    (s.handleHostActions P batch).1.connections id = none := by
  induction batch generalizing s with
  | nil => cases h
  | cons first rest ih =>
      obtain ⟨action, input⟩ := first
      obtain rfl | h := List.mem_cons.mp h
      · have haside := (handleHostActions_besides (P := P) hclient (s.drop id) rest).aside
        rw [Option.eq_none_iff_forall_ne_some]
        intro c hc
        obtain ⟨before, hbefore, -⟩ := haside.connection c hc
        simp at hbefore
      · exact ih h

/-! ### Trials -/

/-- The connection whose proof the step tried: `verify_proof` refused or accepted it. -/
def judged (input : Input) (output : SupervisorOutput) : Option ConnectionId :=
  match input with
  | .inbound id (some _) _ =>
    if output.failed = some (.admission .invalidPasswordProof) ∨
        .passwordVerified id ∈ output.events then some id else none
  | _ => none

/-- The connection has had its trial. -/
structure Tried (id : ConnectionId) (s : Supervisor) : Prop where
  seen : id < s.network.nextId
  received : id ∉ s.network.connects
  finished : ∀ c, s.connections id = some c →
    c.admission.state = .awaitingJoinForm ∨ c.admission.state = .decided

/-- A trial is of a connection that waits for its proof, and there is no other after it. -/
theorem Turn.judged (hturn : Turn P id s input s' output) (hgated : Gated P id past s)
    (h : Supervisor.judged input output = some id) :
    (∃ c, s.connections id = some c ∧ c.admission.state = .awaitingProof) ∧ Tried id s' := by
  have hids := hturn.ids
  have htried (c : HostConnection) (hc : s.connections id = some c)
      (hover : ∀ c', s'.connections id = some c' →
        c'.admission.state = .awaitingJoinForm ∨ c'.admission.state = .decided) :
      Tried id s' := by
    obtain ⟨hseen, hreceived, -⟩ := hgated.opened c hc
    exact ⟨hseen.trans_le (nextId_le hids), not_waiting hids hseen hreceived, hover⟩
  cases hturn with
  | handles hc hc' _ haccepts =>
      cases haccepts with
      | proof hstate _ _ _ hafter =>
          refine ⟨⟨_, hc, hstate⟩, htried _ hc fun c₂ hc₂ => .inl ?_⟩
          cases hc'.symm.trans hc₂
          rw [hafter]
      | hello _ _ _ _ _ | token _ _ _ _ | keepalive _ | request _ _ _ _ _ =>
          simp [Supervisor.judged] at h
      | member _ _ _ hevent =>
          obtain ⟨epoch, rfl⟩ | ⟨messageType, envelope, rfl⟩ := hevent <;>
            simp [Supervisor.judged] at h
  | @fails message i _ _ error hfailed hguessed hgone _ hsilent =>
      have hwrong : error = .admission .invalidPasswordProof := by
        by_contra hother
        have hverified : .passwordVerified id ∈ output.events := by
          simpa [Supervisor.judged, hfailed, hother] using h
        simpa [RoomEvent.forwards] using hsilent _ hverified
      obtain ⟨c, hc, _, _, _, _, hstate, _⟩ := hguessed hwrong
      exact ⟨⟨c, hc, hstate⟩, htried c hc (by simp [hgone])⟩
  | opens _ _ _ _ _ _ => simp [Supervisor.judged] at h
  | aside hother _ _ _ hsilent =>
      unfold Supervisor.judged at h
      split at h
      · rename_i c message i
        split at h
        · cases h
          exact absurd rfl (hother message i)
        · cases h
      · cases h

/-- A connection that has had its trial has no other. -/
theorem Tried.turn (h : Tried id s) (hturn : Turn P id s input s' output) :
    Tried id s' ∧ judged input output ≠ some id := by
  have hids := hturn.ids
  have hseen := h.seen.trans_le (nextId_le hids)
  have hreceived := not_waiting hids h.seen h.received
  cases hturn with
  | @handles message i _ _ c c' hc hc' _ haccepts =>
      have hover := h.finished c hc
      have hkept (hafter : c'.admission.state = .awaitingJoinForm ∨
          c'.admission.state = .decided) : Tried id s' := by
        refine ⟨hseen, hreceived, fun c₂ hc₂ => ?_⟩
        cases hc'.symm.trans hc₂
        exact hafter
      cases haccepts with
      | hello _ hstate _ _ _ | token _ hstate _ _ | proof hstate _ _ _ _ =>
          dsimp only at hstate
          simp [hstate] at hover
      | request _ _ _ _ hafter => exact ⟨hkept (.inr hafter), by simp [judged]⟩
      | member hdecided _ hafter hevent =>
          refine ⟨hkept (.inr (hafter ▸ hdecided)), ?_⟩
          obtain ⟨epoch, rfl⟩ | ⟨messageType, envelope, rfl⟩ := hevent <;> simp [judged]
      | keepalive hafter => exact ⟨hkept (by rw [hafter]; exact hover), by simp [judged]⟩
  | @fails message i _ _ error hfailed hguessed hgone _ hsilent =>
      refine ⟨⟨hseen, hreceived, by simp [hgone]⟩, fun hjudged => ?_⟩
      have hwrong : error = .admission .invalidPasswordProof := by
        by_contra hother
        have hverified : .passwordVerified id ∈ output.events := by
          simpa [judged, hfailed, hother] using hjudged
        simpa [RoomEvent.forwards] using hsilent _ hverified
      obtain ⟨c, hc, _, _, _, _, hstate, _⟩ := hguessed hwrong
      have hover := h.finished c hc
      simp [hstate] at hover
  | opens hconnects _ _ _ _ _ => exact absurd (hconnects ▸ .head _) h.received
  | aside hother hkept _ _ _ =>
      refine ⟨⟨hseen, hreceived, fun c' hc' => ?_⟩, fun hjudged => ?_⟩
      · obtain ⟨c, hc, hsame, -⟩ := hkept c' hc'
        rw [hsame]
        exact h.finished c hc
      · unfold judged at hjudged
        split at hjudged
        · rename_i c message i
          split at hjudged
          · cases hjudged
            exact absurd rfl (hother message i)
          · cases hjudged
        · cases hjudged

/-- The connection has not had its trial, and its peer is there to have it. -/
structure Awaits (id : ConnectionId) (s : Supervisor) : Prop where
  flow : ∃ c, s.connections id = some c ∧ c.admission.state ≠ .awaitingJoinForm ∧
    c.admission.state ≠ .decided
  live : s.network.isLive id = true

/-- A connection that awaits its trial after a step did so before, unless the step created its
flow. -/
theorem Awaits.before (h : Awaits id s') (hturn : Turn P id s input s' output)
    (hgated : Gated P id past s) (hopens : .clientConnected id ∉ output.events) : Awaits id s := by
  obtain ⟨⟨c₂, hc₂, hform, hdecided⟩, hlive⟩ := h
  cases hturn with
  | @handles message i _ _ c c' hc hc' hnetwork haccepts =>
      rw [hnetwork] at hlive
      refine ⟨⟨c, hc, ?_⟩, hlive⟩
      cases hc'.symm.trans hc₂
      cases haccepts with
      | hello _ hstate _ _ _ | token _ hstate _ _ =>
          dsimp only at hstate
          simp [hstate]
      | proof _ _ _ _ hafter => simp [hafter] at hform
      | request _ _ _ _ hafter => exact absurd hafter hdecided
      | member _ _ hafter _ | keepalive hafter =>
          rw [hafter] at hform hdecided
          exact ⟨hform, hdecided⟩
  | fails _ _ hgone _ _ => simp [hgone] at hc₂
  | opens _ _ _ _ _ hevents => simp [hevents] at hopens
  | aside _ hkept hpeer _ _ =>
      obtain ⟨c, hc, hsame, -⟩ := hkept c₂ hc₂
      rw [hsame] at hform hdecided
      refine ⟨⟨c, hc, hform, hdecided⟩, ?_⟩
      obtain hlive | ⟨hnew, -⟩ := hpeer hlive
      · exact hlive
      · exact absurd (hnew ▸ (hgated.opened c hc).1) (lt_irrefl _)

/-! ### Whom the room may write to -/

/-- The connection is the host's own, or has asked to join. -/
def Served (s : Supervisor) (c : ConnectionId) : Prop := c = hostConnectionId ∨ Spent c s

theorem Served.step (h : Served s id) (P : Primitives) (debug : Message → String)
    (input : Input) : Served (s.step P debug input).1 id := by
  obtain h | h := h
  · exact .inl h
  · by_cases hclient : id = hostConnectionId
    · exact .inl hclient
    · exact .inr (h.turn (step_turn P debug hclient s input)).1

/-- Peers are only admitted once they have asked to join, and a connection that waits for its
proof is live. -/
structure Vouched (id : ConnectionId) (s : Supervisor) : Prop where
  admitted : ∀ peer ∈ s.network.peers, peer.connection = id → peer.admitted = true → Spent id s
  live : ∀ c, s.connections id = some c → c.admission.state = .awaitingProof →
    s.network.isLive id = true

/-- A connection that has asked to join waits for no proof. -/
theorem Spent.vouched (h : Spent id s) : Vouched id s where
  admitted _ _ _ _ := h
  live c hc hstate := by simp [h.decided c hc] at hstate

theorem Vouched.untouched (h : Vouched id s) (hspent : Spent id s → Spent id s')
    (hsame : Untouched id s s') : Vouched id s' where
  admitted peer hmem hpeer hadmitted :=
    hspent (h.admitted peer ((hsame.peer peer hpeer).mp hmem) hpeer hadmitted)
  live c hc hstate := hsame.live (h.live c (hsame.connection ▸ hc) hstate)

/-- A connection without a flow waits for nothing; its peers were there. -/
theorem Vouched.flowless (h : Vouched id s) (hspent : Spent id s → Spent id s')
    (hnone : ∀ c, s'.connections id = some c → c.admission.state ≠ .awaitingProof)
    (hpeers : ∀ peer ∈ s'.network.peers, peer.connection = id → peer ∈ s.network.peers) :
    Vouched id s' where
  admitted peer hmem hpeer hadmitted :=
    hspent (h.admitted peer (hpeers peer hmem hpeer) hpeer hadmitted)
  live c hc hstate := absurd hstate (hnone c hc)

theorem mem_peers_of_close {n : HostNetwork} {c : ConnectionId} {peer : Peer}
    (h : peer ∈ (n.close c).peers) : peer ∈ n.peers :=
  List.mem_of_mem_filter h

/-- The connection's own messages. -/
private theorem Vouched.message (h : Vouched id s) (hspent : Spent id s → Spent id s')
    {message : Message} {i : MessageInput}
    (hturn : Turn P id s (.inbound id (some message) i) s' output) : Vouched id s' := by
  cases hturn with
  | handles hc hc' hnetwork haccepts =>
      refine ⟨fun peer hmem hpeer hadmitted => ?_, fun c₂ hc₂ hstate => ?_⟩
      · rw [hnetwork] at hmem
        exact hspent (h.admitted peer hmem hpeer hadmitted)
      cases hc'.symm.trans hc₂
      rw [hnetwork]
      cases haccepts with
      | hello _ _ _ _ hafter | proof _ _ _ _ hafter => simp [hafter] at hstate
      | request _ _ _ _ hafter => simp [hafter] at hstate
      | token hqueue _ _ _ =>
          by_contra hdead
          simp [HostNetwork.sendTo, hdead] at hqueue
      | member hdecided _ hafter _ =>
          rw [hafter] at hstate
          cases hdecided.symm.trans hstate
      | keepalive hafter => exact h.live _ hc (by simpa [hafter] using hstate)
  | fails _ _ hgone hnetwork _ =>
      refine h.flowless hspent (by simp [hgone]) fun peer hmem _ => ?_
      rw [hnetwork] at hmem
      exact mem_peers_of_close hmem
  | aside hother _ _ _ _ => exact absurd rfl (hother message i)

/-- A step vouches for the connection, if the room writes to it only once it has asked to join, or
closes it. -/
theorem Vouched.step (h : Vouched id s) (hclient : id ≠ hostConnectionId)
    (hgated : Gated P id past s)
    (hserved : ∀ batch, input = .actions batch → (∃ message, .sendTo id message ∈
      batch.map Prod.fst) → Served s id ∨ .closeConnection id ∈ batch.map Prod.fst) :
    Vouched id (s.step P debug input).1 := by
  have hturn := step_turn P debug hclient s input
  have hspent : Spent id s → Spent id (s.step P debug input).1 := fun h => (h.turn hturn).1
  cases input with
  | stream limits =>
      refine ⟨fun peer hmem hpeer hadmitted => ?_, fun c hc hstate => ?_⟩
      · simp only [Supervisor.step, HostNetwork.accept] at hmem
        split at hmem
        · exact hspent (h.admitted peer hmem hpeer hadmitted)
        · obtain hmem | hmem := List.mem_append.mp hmem
          · exact hspent (h.admitted peer hmem hpeer hadmitted)
          · rw [List.mem_singleton.mp hmem] at hadmitted
            cases hadmitted
      · obtain ⟨peer, hmem, hpeer⟩ := HostNetwork.isLive_iff.mp (h.live c hc hstate)
        refine HostNetwork.isLive_iff.mpr ⟨peer, ?_, hpeer⟩
        simp only [Supervisor.step, HostNetwork.accept]
        split
        · exact hmem
        · exact List.mem_append_left _ hmem
  | connect i =>
      cases hwaiting : s.network.connects with
      | nil =>
          apply h.untouched hspent
          simp only [Supervisor.step, onConnect, hwaiting]
          exact .refl s
      | cons first rest =>
          by_cases hfirst : id = first
          · subst hfirst
            have hnone : s.connections id = none := by
              rw [Option.eq_none_iff_forall_ne_some]
              intro c hc
              exact (hgated.opened c hc).2.1 (hwaiting ▸ .head _)
            apply h.flowless hspent
            · intro c hc
              simp only [Supervisor.step, onConnect, hwaiting] at hc
              repeat' split at hc
              · simp [hnone] at hc
              · simp [hnone] at hc
              · rename_i flow hflow
                simp only [connections_setConnection, ↓reduceIte, Option.some.injEq] at hc
                rw [← hc, state_of_new hflow]
                simp
            · intro peer hmem _
              simp only [Supervisor.step, onConnect, hwaiting] at hmem
              repeat' split at hmem
              · exact mem_peers_of_close hmem
              · exact mem_peers_of_close hmem
              · exact hmem
          · apply h.untouched hspent
            simp only [Supervisor.step, onConnect, hwaiting]
            repeat' split
            · exact .closed hfirst rfl rfl
            · exact .closed hfirst rfl rfl
            · exact ⟨by simp [hfirst], fun _ _ => Iff.rfl⟩
  | inbound c message i =>
      by_cases hsame : id = c
      · subst hsame
        cases message with
        | some message => exact h.message hspent hturn
        | none =>
            apply h.flowless hspent
            · simp [Supervisor.step, onInbound]
            · exact fun peer hmem _ => mem_peers_of_close hmem
      · apply h.untouched hspent
        cases message with
        | none => exact .drop hsame s
        | some message =>
            obtain ⟨_, -, -, -, hnetwork, hconnections⟩ |
              ⟨_, _, _, -, -, -, hnetwork, hconnections⟩ :=
              onInbound_message P debug s c message i
            · exact .closed hsame ((hconnections id).trans (if_neg hsame)) (congrArg _ hnetwork)
            · refine ⟨(hconnections id).trans (if_neg hsame), fun _ _ => ?_⟩
              exact iff_of_eq (congrArg _ (congrArg _ hnetwork))
  | actions batch =>
      by_cases hclose : .closeConnection id ∈ batch.map Prod.fst
      · have hnone : (s.handleHostActions P batch).1.connections id = none :=
          forgotten_by_actions hclient hclose
        refine ⟨fun peer hmem hpeer => ?_, fun c hc => ?_⟩
        · have hlive := HostNetwork.isLive_iff.mpr ⟨peer, hmem, hpeer⟩
          simp [Supervisor.step, closed_by_actions hclient hclose] at hlive
        · rw [Supervisor.step, hnone] at hc
          cases hc
      · by_cases hsend : ∃ message, .sendTo id message ∈ batch.map Prod.fst
        · obtain hserved | hclosed := hserved batch rfl hsend
          · exact (hspent (hserved.resolve_left hclient)).vouched
          · exact absurd hclosed hclose
        · apply h.untouched hspent
          exact handleHostActions_untouched s (not_exists.mp hsend) hclose
  | expire c now =>
      simp only [Supervisor.step] at hspent ⊢
      obtain heq | heq := expire_cases s c now <;> rw [heq] at hspent ⊢
      · exact h
      by_cases hsame : id = c
      · subst hsame
        exact h.flowless hspent (by simp) fun peer hmem _ => mem_peers_of_close hmem
      · exact h.untouched hspent (.drop hsame s)
  | key i => exact h.untouched hspent (.inward (s.onKey_inward i))
  | tick => exact h

end Supervisor
end Veilroom
