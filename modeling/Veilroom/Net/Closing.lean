import Veilroom.Net.Conn
import Veilroom.Protocol.Canonical

/-!
What a closed connection has written: the messages its handle accepted, unless
some of them were still queued or being written when its task stopped.
-/
namespace Veilroom
namespace PeerConn
variable {M : Minicbor} {P : Primitives} {limits : Limits} {c c' : PeerConn}

/-- Every accepted message is in the stream, in order, once the task is over and no write of it
failed. -/
def Delivered (c : PeerConn) : Prop :=
  c.task = .ended → c.failed = false → c.written = c.accepted

/-! ### One step -/

/-- What a step does with the accepted messages. -/
inductive Move (c c' : PeerConn) : Prop
  | accepts (message : Message) : c.dropped = false → c.task ≠ .ended → c'.task ≠ .ended →
      c'.accepted = c.accepted ++ [message] → c'.written = c.written →
      c'.pending = c.pending ++ [message] → c'.failed = c.failed → Move c c'
  | keeps : (c'.task = .ended ↔ c.task = .ended) → c'.accepted = c.accepted →
      c'.written = c.written → c'.pending = c.pending → c'.failed = c.failed → Move c c'
  | writes (message : Message) : c.task ≠ .ended → c'.task ≠ .ended → c'.accepted = c.accepted →
      c'.written = c.written ++ [message] → c.pending = message :: c'.pending →
      c'.failed = c.failed → Move c c'
  | fails : c'.failed = true → Move c c'
  | stops : c.task ≠ .ended → c'.task = .ended → c'.accepted = c.accepted →
      c'.written = c.written → c'.failed = c.failed → Move c c'

theorem Move.refl (c : PeerConn) : Move c c := .keeps Iff.rfl rfl rfl rfl rfl

theorem forward_spec (frames : List Frame) :
    forward M P limits frames ≠ .ended ∧ ∀ sent, forward M P limits frames ≠ .writing sent := by
  unfold forward
  split
  · exact ⟨nofun, nofun⟩
  · split <;> exact ⟨nofun, nofun⟩

theorem send_move (message : Message) : Move c (c.send message).1 := by
  unfold send
  split
  · exact .refl c
  rename_i hopen
  rw [not_or, Bool.not_eq_true] at hopen
  split
  · exact .refl c
  · exact .accepts message hopen.1 hopen.2 hopen.2 rfl rfl (List.append_assoc ..).symm rfl

/-- A task that writes nothing for the handle goes on without writing for it. -/
theorem Move.goes {task : ConnTask} {decoder : FrameDecoder} {inbound : List (Option Message)}
    (hlive : c.task ≠ .ended) (hlive' : task ≠ .ended) (hidle : c.inFlight = [])
    (hidle' : inFlight { c with task, decoder, inbound } = []) :
    Move c { c with task, decoder, inbound } := by
  refine .keeps ⟨fun h => absurd h hlive', fun h => absurd h hlive⟩ rfl rfl ?_ rfl
  rw [pending, pending, hidle, hidle']

theorem inFlight_forward (frames : List Frame) (decoder : FrameDecoder)
    (inbound : List (Option Message)) :
    inFlight { c with task := forward M P limits frames, decoder, inbound } = [] := by
  unfold inFlight
  dsimp only
  split
  · rename_i sent htask
    exact absurd htask ((forward_spec frames).2 sent)
  · rfl

theorem step_move (c : PeerConn) (input : ConnInput) : Move c (c.step M P limits input).1 := by
  cases input with
  | send message => exact send_move message
  | drop => exact .keeps Iff.rfl rfl rfl rfl rfl
  | cancel =>
      simp only [step]
      split
      · by_cases hended : c.task = .ended
        · refine .keeps (by simp [hended]) rfl rfl ?_ rfl
          simp [pending, inFlight, hended]
        · exact .stops hended rfl rfl rfl rfl
      · exact .refl c
  | tick =>
      simp only [step]
      split
      · rename_i htask
        exact .goes (by simp [htask]) nofun (by simp [inFlight, htask]) rfl
      · exact .refl c
  | receive =>
      simp only [step]
      split
      · rename_i message outbound htask houtbound
        refine .keeps (by simp [htask]) rfl rfl ?_ rfl
        simp [pending, inFlight, htask, houtbound]
      · rename_i htask houtbound
        split
        · exact .goes (by simp [htask]) nofun (by simp [inFlight, htask]) rfl
        · exact .refl c
      · exact .refl c
  | read chunk =>
      simp only [step]
      split
      · rename_i htask
        have hlive : c.task ≠ .ended := by simp [htask]
        have hidle : c.inFlight = [] := by simp [inFlight, htask]
        split
        · exact .refl c
        split
        · rename_i decoder frames _
          exact .goes hlive (forward_spec frames).1 hidle (inFlight_forward frames decoder _)
        · exact .goes hlive nofun hidle rfl
        · exact .goes hlive nofun hidle rfl
      · exact .refl c
  | wrote done =>
      simp only [step]
      split
      · rename_i sent htask
        split
        · obtain ⟨message, queued⟩ := sent
          cases queued with
          | false =>
              refine .keeps (by simp [htask]) rfl ?_ ?_ rfl
              · simp [written]
              · simp [pending, inFlight, htask]
          | true =>
              refine .writes message (by simp [htask]) nofun rfl ?_ ?_ rfl
              · simp [written]
              · simp [pending, inFlight, htask]
        · exact .fails rfl
      · rename_i report htask
        split
        · refine .keeps (by simp [htask]) rfl ?_ ?_ rfl
          · simp [written]
          · simp [pending, inFlight, htask]
        · exact .goes (by simp [htask]) nofun (by simp [inFlight, htask]) rfl
      · exact .refl c
  | forwarded taken =>
      simp only [step]
      split
      · rename_i message frames htask
        split
        · exact .goes (by simp [htask]) (forward_spec frames).1 (by simp [inFlight, htask])
            (inFlight_forward frames _ _)
        · exact .stops (by simp [htask]) rfl rfl rfl rfl
      · rename_i report htask
        split
        · exact .goes (by simp [htask]) nofun (by simp [inFlight, htask]) rfl
        · exact .stops (by simp [htask]) rfl rfl rfl rfl
      · rename_i htask
        exact .stops (by simp [htask]) rfl rfl rfl rfl
      · exact .refl c

/-! ### Whole runs -/

/-- The step that ended the task. -/
def Stops (entry : Entry) : Prop := entry.before.task ≠ .ended ∧ entry.after.task = .ended

instance (entry : Entry) : Decidable (Stops entry) := inferInstanceAs (Decidable (_ ∧ _))

/-- What is accepted is written or pending, as long as no write failed and the task is there. -/
structure Accounts (past : Past) (c : PeerConn) : Prop where
  live : c.failed = false → c.task ≠ .ended →
    c.accepted = c.written ++ c.pending ∧ ∀ entry ∈ past, ¬ Stops entry
  stopped : c.failed = false → c.task = .ended →
    (c.written = c.accepted ↔ ∀ entry ∈ past, Stops entry → entry.before.pending = [])

theorem Accounts.step {past : Past} (h : Accounts past c) (input : ConnInput) :
    Accounts (⟨c, input, (c.step M P limits input).2, (c.step M P limits input).1⟩ :: past)
      (c.step M P limits input).1 := by
  have hmove : Move c (c.step M P limits input).1 := step_move c input
  generalize c.step M P limits input = next at hmove ⊢
  obtain ⟨c', answer⟩ := next
  have hpast {stopped : Prop} (hfirst : Stops ⟨c, input, answer, c'⟩ ↔ stopped) :
      (∀ entry ∈ (⟨c, input, answer, c'⟩ :: past : Past), Stops entry → entry.before.pending = []) ↔
        (stopped → c.pending = []) ∧ ∀ entry ∈ past, Stops entry → entry.before.pending = [] := by
    rw [List.forall_mem_cons, hfirst]
  have hgoes (hlive' : c'.task ≠ .ended) (hpast : ∀ entry ∈ past, ¬ Stops entry) :
      ∀ entry ∈ (⟨c, input, answer, c'⟩ :: past : Past), ¬ Stops entry :=
    List.forall_mem_cons.mpr ⟨fun hstops => hlive' hstops.2, hpast⟩
  dsimp only at hmove ⊢
  cases hmove with
  | accepts message _ hlive hlive' haccepted hwritten hpending hfailed =>
      refine ⟨fun hok _ => ?_, fun _ hended => absurd hended hlive'⟩
      obtain ⟨hsum, hnone⟩ := h.live (hfailed ▸ hok) hlive
      refine ⟨?_, hgoes hlive' hnone⟩
      rw [haccepted, hwritten, hpending, hsum, List.append_assoc]
  | keeps hended haccepted hwritten hpending hfailed =>
      refine ⟨fun hok hlive' => ?_, fun hok hended' => ?_⟩
      · obtain ⟨hsum, hnone⟩ := h.live (hfailed ▸ hok) fun hlive => hlive' (hended.mpr hlive)
        refine ⟨?_, hgoes hlive' hnone⟩
        rw [haccepted, hwritten, hpending, hsum]
      · have hstopped := h.stopped (hfailed ▸ hok) (hended.mp hended')
        have hfirst : Stops ⟨c, input, answer, c'⟩ ↔ False :=
          iff_false_intro fun hstops => hstops.1 (hended.mp hended')
        rw [hpast hfirst, haccepted, hwritten, hstopped]
        simp
  | writes message hlive hlive' haccepted hwritten hpending hfailed =>
      refine ⟨fun hok _ => ?_, fun _ hended => absurd hended hlive'⟩
      obtain ⟨hsum, hnone⟩ := h.live (hfailed ▸ hok) hlive
      refine ⟨?_, hgoes hlive' hnone⟩
      rw [haccepted, hwritten, hsum, hpending]
      simp
  | fails hfailed =>
      exact ⟨fun hok => by simp [hfailed] at hok, fun hok => by simp [hfailed] at hok⟩
  | stops hlive hended haccepted hwritten hfailed =>
      refine ⟨fun _ hlive' => absurd hended hlive', fun hok _ => ?_⟩
      obtain ⟨hsum, hnone⟩ := h.live (hfailed ▸ hok) hlive
      have hfirst : Stops ⟨c, input, answer, c'⟩ ↔ True := iff_true_intro ⟨hlive, hended⟩
      rw [hpast hfirst, hwritten, haccepted, hsum]
      simp only [true_implies, List.self_eq_append_right]
      exact ⟨fun hnil => ⟨hnil, fun entry hentry hstops => absurd hstops (hnone entry hentry)⟩,
        fun hnil => hnil.1⟩

theorem accounts_of_run {past : Past} (run : Run M P limits (spawn limits) past c) :
    Accounts past c := by
  apply Machine.Run.invariant Accounts ?_ ?_ run
  · refine ⟨fun _ _ => ⟨rfl, by simp⟩, ?_⟩
    intro _ hended
    cases hended
  · intro past c input _ h _
    exact h.step input

/-! ### After the handle is dropped -/

/-- The connection after these steps. -/
def after (M : Minicbor) (P : Primitives) (limits : Limits) (c : PeerConn)
    (inputs : List ConnInput) : PeerConn :=
  inputs.foldl (fun c input => (c.step M P limits input).1) c

/-- Nothing can be accepted any more, and all that was is written unless a write failed. -/
structure Drained (c : PeerConn) : Prop where
  dropped : c.dropped = true
  written : c.failed = false → c.written = c.accepted ∧ (c.task ≠ .ended → c.pending = [])

theorem dropped_step (h : c.dropped = true) (input : ConnInput) :
    (c.step M P limits input).1.dropped = true := by
  cases input with
  | send message => simp [step, send, h]
  | drop => rfl
  | cancel => simp [step, h]
  | _ =>
      simp only [step]
      repeat' split
      all_goals exact h

theorem Drained.step (h : c.Drained) (input : ConnInput) :
    (c.step M P limits input).1.Drained := by
  refine ⟨dropped_step h.dropped input, ?_⟩
  have hmove : Move c (c.step M P limits input).1 := step_move c input
  generalize (c.step M P limits input).1 = c' at hmove ⊢
  intro hok
  cases hmove with
  | accepts _ hopen => simp [h.dropped] at hopen
  | keeps hended haccepted hwritten hpending hfailed =>
      rw [haccepted, hwritten, hpending, ne_eq, hended]
      exact h.written (hfailed ▸ hok)
  | writes message hlive _ _ _ hpending hfailed =>
      rw [(h.written (hfailed ▸ hok)).2 hlive] at hpending
      cases hpending
  | fails hfailed => simp [hfailed] at hok
  | stops _ hended haccepted hwritten hfailed =>
      rw [haccepted, hwritten]
      exact ⟨(h.written (hfailed ▸ hok)).1, fun hlive => absurd hended hlive⟩

theorem Drained.after (h : c.Drained) (inputs : List ConnInput) :
    (c.after M P limits inputs).Drained := by
  unfold PeerConn.after
  induction inputs generalizing c with
  | nil => exact h
  | cons input inputs ih => exact ih (h.step input)

/-- What was accepted is written for certain exactly when nothing of it is pending at the close. -/
theorem close_delivers_iff (hsum : c.accepted = c.written ++ c.pending)
    (hfailed : c.failed = false) :
    (∀ inputs, (({ c with dropped := true } : PeerConn).after M P limits inputs).Delivered) ↔
      c.pending = [] := by
  constructor
  · intro h
    -- the runtime may cancel the task before it runs again
    have hcancelled : c.written = c.accepted := h [.cancel] rfl hfailed
    rwa [hsum, List.self_eq_append_right] at hcancelled
  · intro hpending inputs hended hok
    have hdrained : Drained { c with dropped := true } := by
      refine ⟨rfl, fun _ => ⟨?_, fun _ => hpending⟩⟩
      change c.written = c.accepted
      rw [hsum, hpending, List.append_nil]
    exact ((hdrained.after inputs).written hok).1

/-- A message that is queued immediately before the close can be lost. -/
theorem send_then_close_loses {message : Message} {past : Past}
    (run : Run M P limits (spawn limits) past c) (hfailed : c.failed = false)
    (hsend : c.send message = (c', .ok ())) :
    ∃ inputs, ¬ (({ c' with dropped := true } : PeerConn).after M P limits inputs).Delivered := by
  have hmove := send_move (c := c) message
  have hrun : Run M P limits (spawn limits) (⟨c, .send message, .ok (), c'⟩ :: past) c' := by
    have hnext : Run M P limits (spawn limits) (⟨c, .send message,
        (c.step M P limits (.send message)).2, (c.step M P limits (.send message)).1⟩ :: past)
        (c.step M P limits (.send message)).1 := .step run trivial
    simp only [step, hsend] at hnext
    exact hnext
  unfold send at hsend
  split at hsend
  · cases hsend
  rename_i hopen
  split at hsend
  · cases hsend
  cases hsend
  rw [not_or] at hopen
  obtain ⟨hsum, -⟩ := (accounts_of_run hrun).live hfailed hopen.2
  rw [← not_forall, close_delivers_iff hsum hfailed]
  simp [pending]

/-- What the handle accepted is written exactly when nothing of it is pending at the step that
ends the task; and nothing that is accepted can be lost after the close exactly when nothing is
pending there. -/
theorem delivered_iff {past : Past} (run : Run M P limits (spawn limits) past c) :
    (c.Delivered ↔
      (c.failed = false → ∀ entry ∈ past, Stops entry → entry.before.pending = [])) ∧
    (c.task ≠ .ended → c.failed = false →
      ((∀ inputs, (({ c with dropped := true } : PeerConn).after M P limits inputs).Delivered) ↔
        c.pending = [])) := by
  have haccounts := accounts_of_run run
  constructor
  · constructor
    · intro h hok
      by_cases hended : c.task = .ended
      · exact (haccounts.stopped hok hended).mp (h hended hok)
      · exact fun entry hentry hstops => absurd hstops ((haccounts.live hok hended).2 entry hentry)
    · exact fun h hended hok => (haccounts.stopped hok hended).mpr (h hok)
  · intro hlive hok
    exact close_delivers_iff (haccounts.live hok hlive).1 hok

end PeerConn

/-! ### Connections of the symbolic room -/

namespace Symbolic
open PeerConn

def connection (inputs : List ConnInput) : Past × PeerConn :=
  Machine.exec (step .rfc8949 primitives .default) inputs [] (spawn .default)

theorem connection_run (inputs : List ConnInput) :
    Run .rfc8949 primitives .default (spawn .default) (connection inputs).1 (connection inputs).2 :=
  Machine.Run.exec .start fun _ _ _ _ _ _ _ _ => trivial

/-- The task writes the shutdown before the close. -/
def dismissed : List ConnInput := [.send .shutdown, .receive, .wrote true, .drop, .cancel]

/-- The task does not run between the shutdown and the close. -/
def cutOff : List ConnInput := [.send .shutdown, .drop, .cancel]

end Symbolic

open Symbolic in
theorem PeerConn.delivered_iff_dismissed :
    (connection dismissed).2.Delivered ∧ (connection dismissed).2.written = [.shutdown] := by
  have hdelivered := (delivered_iff (connection_run dismissed)).1.mpr
  exact ⟨hdelivered fun _ => by decide +kernel, by decide +kernel⟩

open Symbolic in
theorem PeerConn.shutdown_cut_off :
    (connection cutOff).2.accepted = [.shutdown] ∧ (connection cutOff).2.stream = [] ∧
      ¬ (connection cutOff).2.Delivered := by
  refine ⟨by decide +kernel, by decide +kernel, fun h => ?_⟩
  have hwritten := h (by decide +kernel) (by decide +kernel)
  exact absurd hwritten (by decide +kernel)

end Veilroom
