import Veilroom.Join.Session

/-!
What becomes of a submitted join form: the participant's session sends it once,
or keeps the user waiting for nothing.
-/
namespace Veilroom

/-- The application of this form can be signed: its nickname and its introduction are valid. -/
def Joinable (P : Primitives) (form : JoinForm) : Prop :=
  (∃ nickname, validateNickname P form.1 .default = .ok nickname) ∧
    ∀ text, form.2 = some text → validateIntro text .default = .ok ()

/-! ### The admission flow -/

namespace ClientAdmission
variable {P : Primitives} {derive : Argon2} {c c' : ClientAdmission}

/-- The later flow is at the same step of the admission and knows the same host. -/
structure SameStage (c c' : ClientAdmission) : Prop where
  state : c'.state = c.state
  hostHello : c'.hostHello = c.hostHello
  serverNonce : c'.serverNonce = c.serverNonce

/-- What the client needs of its host to sign an application. -/
def Pins (c : ClientAdmission) : Prop :=
  ∃ info serverNonce, c.hostHello = some info ∧ c.serverNonce = some serverNonce

/-- Every call but a host message and a join request leaves the admission where it is. -/
theorem Turn.sameStage {input : Input} {output : Output} (h : Turn P c input c' output)
    (hhost : ∀ message, input ≠ .hostMessage message)
    (hrequest : ∀ nickname introduction, input ≠ .joinRequest nickname introduction) :
    c.SameStage c' ∧ Plain output.sent := by
  cases h with
  | pins _ _ | proves _ _ _ _ | admits _ => exact absurd rfl (hhost _)
  | applies _ => exact absurd rfl (hrequest _ _)
  | chats _ _ hplain _ => exact ⟨⟨rfl, rfl, rfl⟩, hplain⟩
  | idles hsent _ =>
      rw [hsent]
      exact ⟨⟨rfl, rfl, rfl⟩, plain_nil⟩

/-- A host message that the flow takes. -/
theorem onHostMessage_ok {message : Message} {replies : List Message}
    (h : c.onHostMessage P derive message = (c', .ok replies)) :
    (c.state = .awaitingHostHello ∧ ∃ hello token, c' = c.pin hello ∧
        replies = [.tokenVerify token]) ∨
      (c.state = .awaitingChallenge ∧ c' = { c with password := [], state := .awaitingJoinForm } ∧
        ∃ proof, replies = [.challengeProof proof]) ∨
      (c.state = .awaitingDecision ∧ (∃ memberId, c' = c.admittedAs memberId) ∧ replies = []) := by
  unfold onHostMessage at h
  split at h
  · rename_i hello hstate
    obtain ⟨error, heq⟩ | ⟨-, heq⟩ := handleHostHello_cases (P := P) (c := c) hello
    · rw [heq] at h
      cases h
    · rw [heq] at h
      cases h
      exact .inl ⟨hstate, hello, _, rfl, rfl⟩
  · rename_i challenge hstate
    obtain ⟨error, heq⟩ | ⟨proof, -, -, -, heq⟩ :=
      handleChallenge_cases (P := P) (c := c) derive challenge
    · rw [heq] at h
      cases h
    · rw [heq] at h
      cases h
      exact .inr (.inl ⟨hstate, rfl, proof, rfl⟩)
  · rename_i accepted hstate
    cases h
    exact .inr (.inr ⟨hstate, ⟨_, rfl⟩, rfl⟩)
  all_goals cases h

/-- A form that cannot be signed, or cannot be signed yet, changes nothing. -/
theorem joinRequest_refused {form : JoinForm}
    (h : c.state ≠ .awaitingJoinForm ∨ ¬ Joinable P form) :
    ∃ error, c.joinRequest P form.1 form.2 = (c, .error error) := by
  unfold joinRequest
  split
  · exact ⟨_, rfl⟩
  rename_i hstate
  rw [not_not] at hstate
  have hform : ¬ Joinable P form := h.resolve_left fun hne => hne hstate
  split
  · split
    · exact ⟨_, rfl⟩
    rename_i nickname hnickname
    dsimp only
    split
    · exact ⟨_, rfl⟩
    · rename_i hnew
      refine absurd ⟨⟨_, hnickname⟩, ?_⟩ hform
      intro text htext
      unfold JoinRequestMessage.new at hnew
      rw [htext] at hnew
      split at hnew
      · cases hnew
      dsimp only at hnew
      split at hnew
      · cases hnew
      · assumption
  · exact ⟨_, rfl⟩

end ClientAdmission

/-! ### The stages of a session -/

namespace JoinSession
variable {P : Primitives} {derive : Argon2} {s : JoinSession}

/-- How many applications were queued for the host. -/
def requests (s : JoinSession) : Nat := s.sent.countP Message.isRequest

def proofs (s : JoinSession) : Nat := s.sent.countP Message.isProof

/-- What the screen shows, how far the admission is and what is kept of the form. -/
inductive Stage (P : Primitives) :
    Screen → ClientState → Option JoinForm → List JoinForm → Prop
  | filling {form state} : state ≠ .awaitingDecision → state ≠ .admitted →
      Stage P (.joinForm form) state none []
  | early {form state} : state = .awaitingHostHello ∨ state = .awaitingChallenge →
      Stage P .joinPending state (some form) [form]
  | stuck {form kept} : ¬ Joinable P form → Stage P .joinPending .awaitingJoinForm kept [form]
  | requested {form} : Joinable P form → Stage P .joinPending .awaitingDecision none [form]
  | joined {own form} : Joinable P form → Stage P (.room own) .admitted none [form]

structure Follows (P : Primitives) (s : JoinSession) : Prop where
  stage : Stage P s.screen s.admission.state s.pendingForm s.submitted
  pins : s.admission.state ≠ .awaitingHostHello → s.admission.Pins
  proofs : s.proofs =
    if s.admission.state = .awaitingHostHello ∨ s.admission.state = .awaitingChallenge then 0 else 1
  requests : s.requests =
    if s.admission.state = .awaitingDecision ∨ s.admission.state = .admitted then 1 else 0

/-- The session has ended, or it follows the stages. -/
def Steady (P : Primitives) (s : JoinSession) : Prop := s.ended = none → s.Follows P

theorem steady_finish (outcome : SessionEnd) : (s.finish outcome).Steady P := nofun

theorem steady_fail (reason : String) : (s.fail reason).Steady P := nofun

theorem send_cases (s : JoinSession) (message : Message) :
    s.send message = s.fail "the connection failed" ∨
      ∃ queue, s.send message = { s with queue, sent := s.sent ++ [message] } := by
  unfold send
  split
  · exact .inl rfl
  · exact .inr ⟨_, rfl⟩

/-- Nothing of the admission moves. -/
theorem Follows.idle {admission : ClientAdmission} (h : s.Follows P)
    (hsame : s.admission.SameStage admission) : Follows P { s with admission } := by
  have hpins := h.pins
  obtain ⟨hstate, hhello, hnonce⟩ := hsame
  refine ⟨?_, ?_, ?_, ?_⟩
  · simpa only [hstate] using h.stage
  · simpa only [ClientAdmission.Pins, hstate, hhello, hnonce] using hpins
  · simpa only [JoinSession.proofs, hstate] using h.proofs
  · simpa only [JoinSession.requests, hstate] using h.requests

/-- A message that is neither the proof nor the application is sent. -/
theorem Follows.send {message : Message} (h : s.Follows P) (hproof : message.isProof = false)
    (hrequest : message.isRequest = false) : (s.send message).Steady P := by
  intro hlive
  obtain heq | ⟨queue, heq⟩ := s.send_cases message
  · rw [heq] at hlive
    cases hlive
  · rw [heq]
    refine ⟨h.stage, h.pins, ?_, ?_⟩
    · simpa [JoinSession.proofs, hproof] using h.proofs
    · simpa [JoinSession.requests, hrequest] using h.requests

/-! ### The form -/

/-- The password is proved and nothing was asked for yet. -/
structure Proved (s : JoinSession) : Prop where
  state : s.admission.state = .awaitingJoinForm
  pins : s.admission.Pins
  proofs : s.proofs = 1
  requests : s.requests = 0

theorem Follows.proved (h : s.Follows P) (hstate : s.admission.state = .awaitingJoinForm) :
    s.Proved := by
  have hproofs := h.proofs
  have hrequests := h.requests
  simp only [hstate, reduceCtorEq, or_self, if_false] at hproofs hrequests
  exact ⟨hstate, h.pins (by simp [hstate]), hproofs, hrequests⟩

/-- A session that holds a form it can sign sends it. -/
theorem Proved.signs (lawP : P.Lawful) (h : s.Proved) {form : JoinForm} (hform : Joinable P form)
    (hscreen : s.screen = .joinPending) (hkept : s.pendingForm = none)
    (hsubmitted : s.submitted = [form]) :
    ∃ admission request, s.admission.joinRequest P form.1 form.2 =
        (admission, .ok (.joinRequest request)) ∧
      ({ s with admission }.send (.joinRequest request)).Steady P := by
  obtain ⟨hstate, ⟨info, serverNonce, hinfo, hnonce⟩, hproofs, hrequests⟩ := h
  obtain ⟨⟨nickname, hnickname⟩, hintroduction⟩ := hform
  refine ⟨_, _, joinRequest_eq lawP hstate hinfo hnonce hnickname hintroduction, ?_⟩
  intro hlive
  obtain heq | ⟨queue, heq⟩ := send_cases _ _
  · rw [heq] at hlive
    cases hlive
  · rw [heq]
    refine ⟨?_, fun _ => ⟨info, serverNonce, hinfo, hnonce⟩, ?_, ?_⟩
    · simpa only [hscreen, hkept, hsubmitted] using .requested
        ⟨⟨nickname, hnickname⟩, hintroduction⟩
    · simpa [JoinSession.proofs, Message.isProof] using hproofs
    · simpa [JoinSession.requests, Message.isRequest] using hrequests

theorem onFormSubmitted_steady (lawP : P.Lawful) (h : s.Follows P) {shown : JoinFormModel}
    (hscreen : s.screen = .joinForm shown) (now : Duration) (form : JoinForm) :
    (s.onFormSubmitted P now form).Steady P := by
  have hstage := h.stage
  rw [hscreen] at hstage
  generalize hkept : s.pendingForm = kept at hstage
  generalize hsubmitted : s.submitted = submitted at hstage
  cases hstage with
  | filling hdecision hadmitted =>
  by_cases hsigned : s.admission.state = .awaitingJoinForm ∧ Joinable P form
  · have hproved := h.proved hsigned.1
    have hfilled : Proved { s with
        screen := .joinPending
        ownNickname := some form.1
        stageSince := now
        submitted := s.submitted ++ [form] } := ⟨hproved.1, hproved.2, hproved.3, hproved.4⟩
    obtain ⟨admission, request, heq, hsteady⟩ := hfilled.signs lawP hsigned.2 rfl hkept
      (by simp [hsubmitted])
    simp only [onFormSubmitted]
    rw [heq]
    exact hsteady
  · rw [not_and_or] at hsigned
    obtain ⟨error, heq⟩ := ClientAdmission.joinRequest_refused hsigned
    simp only [onFormSubmitted, heq]
    refine fun _ => ⟨?_, h.pins, h.proofs, h.requests⟩
    simp only [hsubmitted, List.nil_append]
    cases hstate : s.admission.state with
    | awaitingHostHello => exact .early (.inl rfl)
    | awaitingChallenge => exact .early (.inr rfl)
    | awaitingJoinForm => exact .stuck (hsigned.resolve_left (not_not.mpr hstate))
    | awaitingDecision => exact absurd hstate hdecision
    | admitted => exact absurd hstate hadmitted

theorem onKey_steady (lawP : P.Lawful) (h : s.Follows P) (now : Duration) (key : KeyCode) :
    (s.onKey P now key).Steady P := by
  have hstage := h.stage
  unfold onKey
  split
  · rename_i form hscreen
    rw [hscreen] at hstage
    split
    · refine fun _ => ⟨?_, h.pins, h.proofs, h.requests⟩
      generalize s.pendingForm = kept at hstage ⊢
      generalize s.submitted = submitted at hstage ⊢
      cases hstage with
      | filling hdecision hadmitted => exact .filling hdecision hadmitted
    · exact steady_finish _
    · exact onFormSubmitted_steady lawP h hscreen now _
  all_goals exact fun _ => h

theorem onPaste_steady (h : s.Follows P) (text : String) : (s.onPaste text).Steady P := by
  have hstage := h.stage
  unfold onPaste
  split
  · rename_i form hscreen
    rw [hscreen] at hstage
    refine fun _ => ⟨?_, h.pins, h.proofs, h.requests⟩
    generalize s.pendingForm = kept at hstage ⊢
    generalize s.submitted = submitted at hstage ⊢
    cases hstage with
    | filling hdecision hadmitted => exact .filling hdecision hadmitted
  all_goals exact fun _ => h

/-! ### The replies of the admission -/

/-- The form that waited for the password proof is sent with it. -/
theorem sendPendingForm_steady (lawP : P.Lawful) (h : s.Proved)
    (hstage : Stage P s.screen .awaitingChallenge s.pendingForm s.submitted) :
    (s.sendPendingForm P).Steady P := by
  have hproofs := h.proofs
  have hrequests := h.requests
  generalize hscreen : s.screen = screen at hstage
  generalize hkept : s.pendingForm = kept at hstage
  generalize hsubmitted : s.submitted = submitted at hstage
  cases hstage with
  | filling hdecision hadmitted =>
      simp only [sendPendingForm, hkept]
      refine fun _ => ⟨?_, fun _ => h.pins, ?_, ?_⟩
      · rw [hscreen, hkept, hsubmitted, h.state]
        exact .filling nofun nofun
      · simpa [h.state] using hproofs
      · simpa [h.state] using hrequests
  | @early form _ _ =>
      simp only [sendPendingForm, hkept]
      by_cases hform : Joinable P form
      · have hemptied : Proved { s with pendingForm := none } := ⟨h.1, h.2, h.3, h.4⟩
        obtain ⟨admission, request, heq, hsteady⟩ :=
          hemptied.signs lawP hform hscreen rfl hsubmitted
        rw [heq]
        exact hsteady
      · obtain ⟨error, heq⟩ :=
          ClientAdmission.joinRequest_refused (c := s.admission) (.inr hform)
        rw [heq]
        refine fun _ => ⟨?_, fun _ => h.pins, ?_, ?_⟩
        · simp only [hscreen, hsubmitted, h.state]
          exact .stuck hform
        · simpa [JoinSession.proofs, h.state] using hproofs
        · simpa [JoinSession.requests, h.state] using hrequests

theorem Stage.challenged {screen : Screen} {kept : Option JoinForm} {submitted : List JoinForm}
    (h : Stage P screen .awaitingHostHello kept submitted) :
    Stage P screen .awaitingChallenge kept submitted := by
  cases h with
  | filling _ _ => exact .filling nofun nofun
  | early _ => exact .early (.inr rfl)

theorem sendReplies_singleton (s : JoinSession) (reply : Message) :
    s.sendReplies P [reply] =
      if reply.isProof = true ∧ (s.send reply).ended = none then (s.send reply).sendPendingForm P
      else s.send reply := by
  simp only [sendReplies, ite_self]
  cases hended : (s.send reply).ended <;> cases reply.isProof <;> simp

/-- The admission's step to a host message, before the client waits for the decision. -/
theorem sendReplies_steady (lawP : P.Lawful) (h : s.Follows P) {message : Message}
    {admission : ClientAdmission} {replies : List Message}
    (htaken : s.admission.onHostMessage P derive message = (admission, .ok replies))
    (hwaiting : s.admission.state ≠ .awaitingDecision) :
    ({ s with admission }.sendReplies P replies).Steady P := by
  have hstage := h.stage
  have hproofs := h.proofs
  have hrequests := h.requests
  obtain ⟨hstate, hello, token, rfl, rfl⟩ | ⟨hstate, rfl, proof, rfl⟩ | ⟨hstate, -⟩ :=
    ClientAdmission.onHostMessage_ok htaken
  · rw [hstate] at hstage
    simp only [hstate, reduceCtorEq, or_self, or_false, if_true, if_false] at hproofs hrequests
    have hpinned : Follows P { s with admission := s.admission.pin hello } := by
      refine ⟨hstage.challenged, fun _ => ⟨_, _, rfl, rfl⟩, ?_, ?_⟩
      · simpa [JoinSession.proofs, ClientAdmission.pin] using hproofs
      · simpa [JoinSession.requests, ClientAdmission.pin] using hrequests
    rw [sendReplies_singleton, if_neg (by simp [Message.isProof])]
    exact hpinned.send rfl rfl
  · rw [hstate] at hstage
    simp only [hstate, reduceCtorEq, or_self, or_true, if_true, if_false] at hproofs hrequests
    rw [sendReplies_singleton]
    obtain heq | ⟨queue, heq⟩ := send_cases _ _
    · rw [heq, if_neg (by simp [fail, finish])]
      exact steady_fail _
    · rw [heq]
      split
      · apply sendPendingForm_steady lawP
        · refine ⟨rfl, h.pins (by simp [hstate]), ?_, ?_⟩
          · simpa [JoinSession.proofs, Message.isProof] using hproofs
          · simpa [JoinSession.requests, Message.isRequest] using hrequests
        · exact hstage
      · rename_i hnot
        intro hlive
        exact absurd ⟨rfl, hlive⟩ hnot
  · exact absurd hstate hwaiting

theorem handleHostMessage_steady (lawP : P.Lawful) (h : s.Follows P) (hlive : s.ended = none)
    (message : Message) : (s.handleHostMessage P derive message).Steady P := by
  unfold handleHostMessage
  split
  · rename_i admission replies htaken
    dsimp only
    by_cases hdecision : s.admission.state = .awaitingDecision
    · obtain ⟨hstate, -⟩ | ⟨hstate, -⟩ | ⟨-, ⟨memberId, rfl⟩, rfl⟩ :=
        ClientAdmission.onHostMessage_ok htaken
      · cases hstate.symm.trans hdecision
      · cases hstate.symm.trans hdecision
      have hstage := h.stage
      have hproofs := h.proofs
      have hrequests := h.requests
      rw [hdecision] at hstage
      simp only [hdecision, reduceCtorEq, or_self, true_or, if_true, if_false]
        at hproofs hrequests
      simp only [sendReplies, hlive, Option.isSome_none, Bool.false_eq_true, if_false]
      rw [if_pos (by simp [ClientAdmission.isAdmitted, ClientAdmission.admittedAs])]
      refine fun _ => ⟨?_, fun _ => h.pins (by simp [hdecision]), ?_, ?_⟩
      · generalize s.screen = screen at hstage
        generalize s.pendingForm = kept at hstage ⊢
        generalize s.submitted = submitted at hstage ⊢
        cases hstage with
        | filling hno _ => exact absurd rfl hno
        | early hno => simp at hno
        | requested hform => exact .joined hform
      · simpa [JoinSession.proofs, ClientAdmission.admittedAs] using hproofs
      · simpa [JoinSession.requests, ClientAdmission.admittedAs] using hrequests
    · have hsteady := sendReplies_steady lawP h htaken hdecision
      generalize sendReplies P { s with admission } replies = s' at hsteady
      split
      · exact hsteady
      rename_i hended
      rw [Bool.not_eq_true, Option.isSome_eq_false_iff, Option.isNone_iff_eq_none] at hended
      split
      · rename_i hadmitted
        obtain ⟨hstage, hpins, hproofs, hrequests⟩ := hsteady hended
        refine fun _ => ⟨?_, hpins, hproofs, hrequests⟩
        simp only [ClientAdmission.isAdmitted, decide_eq_true_eq] at hadmitted
        rw [hadmitted] at hstage
        simp only [hadmitted]
        generalize s'.screen = screen at hstage
        generalize s'.pendingForm = kept at hstage ⊢
        generalize s'.submitted = submitted at hstage ⊢
        cases hstage with
        | filling _ hno => exact absurd rfl hno
        | early hno => simp at hno
        | joined hform => exact .joined hform
      · exact hsteady
  · exact steady_fail _
  · exact steady_fail _

/-! ### Every branch of the loop -/

/-- A call of the chat session leaves the admission where it is. -/
theorem Follows.call (h : s.Follows P) (derive : Argon2) (input : ClientAdmission.Input)
    (hhost : ∀ message, input ≠ .hostMessage message)
    (hrequest : ∀ nickname introduction, input ≠ .joinRequest nickname introduction) :
    Follows P { s with admission := (s.admission.step P derive input).1 } ∧
      Plain (s.admission.step P derive input).2.sent := by
  obtain ⟨hsame, hplain⟩ := (ClientAdmission.step_turn derive input).sameStage hhost hrequest
  exact ⟨h.idle hsame, hplain⟩

/-- The answer of such a call is sent. -/
theorem Follows.answer {ε : Type} (h : s.Follows P) (derive : Argon2)
    (input : ClientAdmission.Input) (hhost : ∀ message, input ≠ .hostMessage message)
    (hrequest : ∀ nickname introduction, input ≠ .joinRequest nickname introduction)
    (result : ClientAdmission × Except ε Message)
    (hresult : s.admission.step P derive input = result.map id ClientAdmission.answered) :
    Follows P { s with admission := result.1 } ∧ ∀ message, result.2 = .ok message →
      ({ s with admission := result.1 }.send message).Steady P := by
  obtain ⟨hfollows, hplain⟩ := h.call derive input hhost hrequest
  rw [hresult] at hfollows hplain
  refine ⟨hfollows, fun message hok => ?_⟩
  simp only [Prod.map, hok, ClientAdmission.answered] at hplain
  obtain ⟨-, hproof, hrequest⟩ := hplain message (.head _)
  exact Follows.send hfollows hproof hrequest

theorem Follows.membership (h : s.Follows P) (message : Message) :
    Steady P { s with admission := (s.admission.onMembershipMessage P message).1 } :=
  fun _ => (h.call (fun _ _ _ _ _ => none) (.membership message) nofun nofun).1

theorem handleJoinMessage_steady (lawP : P.Lawful) (h : s.Follows P) (hlive : s.ended = none)
    (message : Message) : (s.handleJoinMessage P derive message).Steady P := by
  cases message with
  | keepalive => exact fun _ => h
  | shutdown => exact steady_finish _
  | error error =>
      simp only [handleJoinMessage]
      split
      · exact fun _ => h
      · exact steady_fail _
  | epochWrap wrap =>
      obtain ⟨-, hok⟩ := h.answer derive (.epochWrap wrap) nofun nofun
        (s.admission.onEpochWrap P wrap) rfl
      simp only [handleJoinMessage]
      split
      · rename_i admission ack heq
        rw [heq] at hok
        exact hok ack rfl
      · exact steady_fail _
  | chatMessage envelope =>
      exact fun _ => (h.call derive (.memberMessage 0x40 envelope) nofun nofun).1
  | colorChange envelope =>
      exact fun _ => (h.call derive (.memberMessage 0x41 envelope) nofun nofun).1
  | timeoutChanged envelope =>
      exact fun _ => (h.call derive (.timeoutChanged envelope) nofun nofun).1
  | memberJoined _ | memberLeft _ | memberKicked _ | joinPolicyChanged _ | memberSnapshot _ =>
      exact h.membership _
  | _ => exact handleHostMessage_steady lawP h hlive _

theorem onInbound_steady (lawP : P.Lawful) (h : s.Follows P) (hlive : s.ended = none)
    (now : Duration) (message : Option Message) : (s.onInbound P derive now message).Steady P := by
  cases message with
  | none => exact steady_fail _
  | some message =>
      have hseen : Follows P { s with lastSeen := now } := ⟨h.1, h.2, h.3, h.4⟩
      have hsteady : (handleJoinMessage P derive { s with lastSeen := now } message).Steady P :=
        handleJoinMessage_steady lawP hseen hlive message
      simp only [onInbound]
      generalize handleJoinMessage P derive { s with lastSeen := now } message = s' at hsteady
      split
      · exact hsteady
      split
      · exact fun hended => ⟨(hsteady hended).1, (hsteady hended).2, (hsteady hended).3,
          (hsteady hended).4⟩
      · exact hsteady

theorem onTick_steady (h : s.Follows P) (timeouts : Timeouts) (now : Duration) (tor : TorStatus) :
    (s.onTick timeouts now tor).Steady P := by
  cases tor with
  | exited | unknown _ => exact steady_fail _
  | running =>
      have hlate (late : Prop) [Decidable late] :
          Steady P (if late then s.fail "the room connection timed out" else s) := by
        split
        · exact steady_fail _
        · exact fun _ => h
      exact hlate _

/-- The message of a line typed into the room view. -/
theorem sendChatMessage_steady {result : ClientAdmission × Except ChatError Message}
    (h : Follows P { s with admission := result.1 } ∧ ∀ message, result.2 = .ok message →
      ({ s with admission := result.1 }.send message).Steady P) :
    (s.sendChatMessage result).Steady P := by
  obtain ⟨admission, error | message⟩ := result
  · exact fun _ => h.1
  · exact h.2 message rfl

theorem onRoomAction_steady (h : s.Follows P) (nonce : Option Nonce) (action : RoomUiAction) :
    (s.onRoomAction P nonce action).Steady P := by
  let derive : Argon2 := fun _ _ _ _ _ => none
  cases action with
  | chat text =>
      exact sendChatMessage_steady (h.answer derive (.sendChat nonce text) nofun nofun _ rfl)
  | timeoutRequest seconds =>
      exact sendChatMessage_steady
        (h.answer derive (.sendTimeoutRequest nonce seconds) nofun nofun _ rfl)
  | color color =>
      obtain ⟨hfollows, hok⟩ := h.answer derive (.sendColor nonce color) nofun nofun
        (s.admission.sendColor P nonce color) rfl
      simp only [onRoomAction]
      split
      · rename_i admission message heq
        rw [heq] at hok
        have hsteady := hok message rfl
        dsimp only at hsteady
        generalize send { s with admission } message = s' at hsteady
        split
        · exact hsteady
        · exact fun hended => ((hsteady hended).call derive (.setOwnColor color) nofun nofun).1
      · rename_i admission error heq
        rw [heq] at hfollows
        exact fun _ => hfollows
  | leave | exit => exact steady_finish _
  | view => exact fun _ => h

theorem step_steady (lawP : P.Lawful) (h : s.Steady P) (input : JoinInput) :
    (s.step P derive input).Steady P := by
  unfold step
  split
  · exact h
  rename_i hended
  rw [Bool.not_eq_true, Option.isSome_eq_false_iff, Option.isNone_iff_eq_none] at hended
  have hfollows := h hended
  cases input with
  | tick now tor => exact onTick_steady hfollows {} now tor
  | key now key => exact onKey_steady lawP hfollows now key
  | paste text => exact onPaste_steady hfollows text
  | roomAction nonce action =>
      dsimp only
      split
      · exact onRoomAction_steady hfollows nonce action
      all_goals exact h
  | inbound now message => exact onInbound_steady lawP hfollows hended now message
  | queue queue => exact fun _ => ⟨hfollows.1, hfollows.2, hfollows.3, hfollows.4⟩
  | quitKey | keysClosed | drawFailed => exact steady_finish _

/-! ### Whole sessions -/

theorem start_steady {admission : ClientAdmission} {invitation : Invitation} {password : Bytes}
    {identity : Option MemberIdentity} {clientNonce : Option ShortNonce}
    (hstart : ClientAdmission.new invitation password identity clientNonce = .ok admission)
    (now : Duration) (queue : Outbound) : (start admission now queue).Steady P := by
  unfold ClientAdmission.new at hstart
  split at hstart
  · cases hstart
    unfold start
    dsimp only
    split
    · exact steady_fail _
    · exact fun _ => ⟨.filling nofun nofun, fun h => absurd rfl h, rfl, rfl⟩
  · cases hstart

theorem run_steady (lawP : P.Lawful) (h : s.Steady P) (inputs : List JoinInput) :
    (s.run P derive inputs).Steady P := by
  unfold run
  induction inputs generalizing s with
  | nil => exact h
  | cons input inputs ih => exact ih (step_steady lawP h input)

/-- A submitted form is owed one application once the password is proved, unless the session has
ended or the form is open again; and nobody waits for a decision that was not asked for. -/
structure Kept (s : JoinSession) : Prop where
  answered : 0 < s.proofs → s.submitted ≠ [] →
    s.requests = 1 ∨ s.ended.isSome = true ∨ ∃ form, s.screen = .joinForm form
  waits : s.ended = none →
    s.screen = .joinPending ∧ 0 < s.proofs ∨ s.admission.state = .awaitingDecision →
    s.requests = 1

theorem Follows.kept_iff (h : s.Follows P) (hlive : s.ended = none) :
    s.Kept ↔ (0 < s.proofs → ∀ form ∈ s.submitted, Joinable P form) := by
  obtain ⟨hstage, -, hproofs, hrequests⟩ := h
  constructor
  · intro hkept hproved form hform
    have hanswered := hkept.answered hproved (List.ne_nil_of_mem hform)
    generalize hscreen : s.screen = screen at hstage hanswered
    generalize hstate : s.admission.state = state at hstage hproofs hrequests
    generalize s.pendingForm = kept at hstage
    generalize s.submitted = submitted at hstage hform
    cases hstage with
    | filling _ _ => cases hform
    | early hearly =>
        rw [if_pos hearly] at hproofs
        omega
    | stuck _ =>
        -- neither sent, nor ended, nor reopened
        simp [hrequests, hlive] at hanswered
    | requested hjoinable | joined hjoinable =>
        rw [List.mem_singleton.mp hform]
        exact hjoinable
  · intro hjoinable
    generalize hscreen : s.screen = screen at hstage
    generalize hstate : s.admission.state = state at hstage hproofs hrequests
    generalize s.pendingForm = kept at hstage
    generalize hsubmitted : s.submitted = submitted at hstage hjoinable
    cases hstage with
    | @filling form _ hdecision _ =>
        refine ⟨fun _ _ => .inr (.inr ⟨form, hscreen⟩), ?_⟩
        rintro - (⟨hpending, -⟩ | hwaits)
        · cases hscreen.symm.trans hpending
        · exact absurd (hstate.symm.trans hwaits) hdecision
    | early hearly =>
        rw [if_pos hearly] at hproofs
        refine ⟨fun hproved => by omega, ?_⟩
        rintro - (⟨-, hproved⟩ | hwaits)
        · omega
        · rw [← hstate, hwaits] at hearly
          simp at hearly
    | @stuck form _ hrefused =>
        simp only [reduceCtorEq, or_self, if_false] at hproofs
        exact absurd (hjoinable (by omega) form (.head _)) hrefused
    | requested _ | joined _ =>
        simp only [or_true, true_or, if_true] at hrequests
        exact ⟨fun _ _ => .inl hrequests, fun _ _ => hrequests⟩

/-- A session keeps what it owes a submitted form exactly when the form can be signed. -/
theorem form_answered_iff (lawP : P.Lawful) {admission : ClientAdmission} {invitation : Invitation}
    {password : Bytes} {identity : Option MemberIdentity} {clientNonce : Option ShortNonce}
    (hstart : ClientAdmission.new invitation password identity clientNonce = .ok admission)
    (now : Duration) (queue : Outbound) (inputs : List JoinInput)
    (hs : (start admission now queue).run P derive inputs = s) :
    s.Kept ↔ (s.ended = none → 0 < s.proofs → ∀ form ∈ s.submitted, Joinable P form) := by
  have hsteady : s.Steady P := by
    rw [← hs]
    exact run_steady lawP (start_steady hstart now queue) inputs
  cases hended : s.ended with
  | none => simpa only [true_implies] using (hsteady hended).kept_iff hended
  | some outcome =>
      refine ⟨fun _ h => (by cases h), fun _ => ⟨fun _ _ => ?_, fun h => ?_⟩⟩
      · simp [hended]
      · rw [hended] at h
        cases h

end JoinSession

/-! ### Forms of the symbolic room -/

namespace Symbolic

/-- A nickname is typed and the form is submitted without an introduction. -/
def filled (nickname : String) : List JoinInput :=
  nickname.toList.map (fun ch => .key 1 (.char ch)) ++ [.key 1 .enter, .key 1 .enter]

/-- The host's hello and its challenge arrive. -/
def greeted : List JoinInput :=
  [.inbound 2 (some (.hostHello hello)),
    .inbound 3 (some (.passwordChallenge ⟨argon2MCost, argon2TCost, argon2PCost,
      Vector.replicate 16 2, Vector.replicate 16 4⟩))]

def applying (inputs : List JoinInput) : JoinSession :=
  (JoinSession.start joiner 0 ⟨64, false⟩).run primitives argon2 inputs

end Symbolic

open Symbolic in
theorem JoinSession.form_answered_guest :
    (applying (filled "guest" ++ greeted)).Kept ∧
      (applying (filled "guest" ++ greeted)).requests = 1 := by
  have hrun : (start joiner 0 ⟨64, false⟩).run primitives argon2 (filled "guest" ++ greeted) =
      applying (filled "guest" ++ greeted) := rfl
  have hiff := form_answered_iff lawful
    (rfl : ClientAdmission.new invitation [1] (some joiner.identity) (some joiner.clientNonce) =
      .ok joiner) 0 ⟨64, false⟩ _ hrun
  have hsubmitted : (applying (filled "guest" ++ greeted)).submitted = [("guest", none)] := by
    decide +kernel
  refine ⟨hiff.mpr ?_, by decide +kernel⟩
  intro _ _ form hform
  have hguest : form = ("guest", none) := List.mem_singleton.mp (hsubmitted ▸ hform)
  rw [hguest]
  exact ⟨⟨"guest", by decide +kernel⟩, nofun⟩

open Symbolic in
/-- A blank nickname is submitted, refused and neither sent nor reported. -/
theorem JoinSession.blank_form_unanswered :
    (applying (filled " " ++ greeted)).submitted = [(" ", none)] ∧
      ¬ (applying (filled " " ++ greeted)).Kept := by
  have hsubmitted : (applying (filled " " ++ greeted)).submitted = [(" ", none)] := by
    decide +kernel
  refine ⟨hsubmitted, fun hkept => ?_⟩
  have hrequests := hkept.waits (by decide +kernel) (.inl (by decide +kernel))
  exact absurd hrequests (by decide +kernel)

end Veilroom
