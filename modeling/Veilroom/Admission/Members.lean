import Veilroom.Admission.Trust

/-!
The participant's member table: the ways a call can rewrite it, the distinct
identities all of them keep, and the one way past the room's member cap.
-/
namespace Veilroom

/-- What a color change leaves alone. -/
def MemberView.uncolored (view : MemberView) : MemberId × String × Bool × Key :=
  (view.memberId, view.nickname, view.isHost, view.ed25519Pubkey)

/-- The member a `MEMBER_JOINED` announces. -/
def MemberJoined.toView (event : MemberJoined) : MemberView :=
  ⟨event.memberId, event.nickname, default, false, event.ed25519Pubkey⟩

/-- Two members share their id, their nickname or their key. -/
def MemberView.Clashes (a b : MemberView) : Prop :=
  a.memberId = b.memberId ∨ a.nickname = b.nickname ∨ a.ed25519Pubkey = b.ed25519Pubkey

/-- Distinct ids, nicknames and keys, and a host exactly at id 0. -/
structure WellFormedTable (members : List MemberView) : Prop where
  ids : (members.map MemberView.memberId).Nodup
  nicknames : (members.map MemberView.nickname).Nodup
  keys : (members.map MemberView.ed25519Pubkey).Nodup
  host : ∀ view ∈ members, view.isHost = true ↔ view.memberId = 0

namespace WellFormedTable
variable {members : List MemberView}

theorem nil : WellFormedTable [] := ⟨.nil, .nil, .nil, nofun⟩

theorem of_pairwise (h : members.Pairwise fun a b => ¬ a.Clashes b)
    (host : ∀ view ∈ members, view.isHost = true ↔ view.memberId = 0) :
    WellFormedTable members where
  ids := List.pairwise_map.mpr (h.imp fun hab heq => hab (.inl heq))
  nicknames := List.pairwise_map.mpr (h.imp fun hab heq => hab (.inr (.inl heq)))
  keys := List.pairwise_map.mpr (h.imp fun hab heq => hab (.inr (.inr heq)))
  host := host

theorem sublist {fewer : List MemberView} (h : WellFormedTable members)
    (hsub : fewer.Sublist members) : WellFormedTable fewer where
  ids := h.ids.sublist (hsub.map _)
  nicknames := h.nicknames.sublist (hsub.map _)
  keys := h.keys.sublist (hsub.map _)
  host view hview := h.host view (hsub.subset hview)

private theorem nodup_snoc {α : Type} {f : MemberView → α} {view : MemberView}
    (h : (members.map f).Nodup) (hview : ∀ v ∈ members, f v ≠ f view) :
    ((members ++ [view]).map f).Nodup := by
  simp only [List.map_append, List.map_cons, List.map_nil]
  apply h.append (List.nodup_singleton _)
  intro x hx hx'
  obtain ⟨v, hv, rfl⟩ := List.mem_map.mp hx
  exact hview v hv (List.mem_singleton.mp hx')

theorem snoc {view : MemberView} (h : WellFormedTable members)
    (hview : ∀ v ∈ members, ¬ v.Clashes view)
    (host : view.isHost = true ↔ view.memberId = 0) : WellFormedTable (members ++ [view]) where
  ids := nodup_snoc h.ids fun v hv heq => hview v hv (.inl heq)
  nicknames := nodup_snoc h.nicknames fun v hv heq => hview v hv (.inr (.inl heq))
  keys := nodup_snoc h.keys fun v hv heq => hview v hv (.inr (.inr heq))
  host v hv := by
    obtain hv | hv := List.mem_append.mp hv
    · exact h.host v hv
    · rw [List.mem_singleton.mp hv]
      exact host

/-- A table is as well formed as what color changes leave of it. -/
theorem of_uncolored {recolored : List MemberView} (h : WellFormedTable members)
    (heq : recolored.map MemberView.uncolored = members.map MemberView.uncolored) :
    WellFormedTable recolored := by
  have hmap : ∀ {α : Type} (f : MemberId × String × Bool × Key → α),
      recolored.map (fun v => f v.uncolored) = members.map fun v => f v.uncolored := by
    intro α f
    simpa only [List.map_map, Function.comp_def] using congrArg (List.map f) heq
  refine ⟨?_, ?_, ?_, ?_⟩
  · exact (hmap fun u => u.1) ▸ h.ids
  · exact (hmap fun u => u.2.1) ▸ h.nicknames
  · exact (hmap fun u => u.2.2.2) ▸ h.keys
  · intro view hview
    have hmem : view.uncolored ∈ members.map MemberView.uncolored :=
      heq ▸ List.mem_map_of_mem hview
    obtain ⟨v, hv, hsame⟩ := List.mem_map.mp hmem
    have hhost := h.host v hv
    simp only [MemberView.uncolored, Prod.mk.injEq] at hsame
    rwa [hsame.1, hsame.2.2.1] at hhost

/-- Every id in the table resolves to its own entry. -/
theorem find (h : WellFormedTable members) {view : MemberView} (hview : view ∈ members) :
    members.find? (fun v => v.memberId = view.memberId) = some view :=
  (List.find?_eq_some_of_nodup h.ids).mpr ⟨hview, rfl⟩

end WellFormedTable

namespace ChatSession
variable {P : Primitives} {s : ChatSession}

/-! ### Calls that leave the table alone -/

theorem openMessage_members (messageType : UInt8) (envelope : EncryptedEnvelope) :
    (s.openMessage P messageType envelope).1.members = s.members := by
  obtain ⟨error, heq⟩ | ⟨key, plaintext, sender, -, -, -, -, heq⟩ :=
    openMessage_cases (P := P) (s := s) messageType envelope
  · rw [heq]
  · rw [heq]

theorem setEpochFromWrap_members (identity : MemberIdentity) (wrap : EpochWrap) :
    (s.setEpochFromWrap P identity wrap).1.members = s.members := by
  unfold setEpochFromWrap installEpoch
  repeat' split
  all_goals rfl

theorem sealMessage_members (nonce : Option Nonce) (identity : MemberIdentity)
    (messageType : UInt8) (plaintext : Bytes) :
    (s.sealMessage P nonce identity messageType plaintext).1.members = s.members := by
  unfold sealMessage
  dsimp only
  repeat' split
  all_goals rfl

theorem receiveTimeoutChanged_members (envelope : EncryptedEnvelope) :
    (s.receiveTimeoutChanged P envelope).1.members = s.members := by
  by_cases hsender : envelope.senderId = 0
  · rw [receiveTimeoutChanged_fst hsender]
    exact openMessage_members _ _
  · rw [receiveTimeoutChanged, if_pos hsender]

/-! ### Signed room events -/

/-- What `verify_room_event` asks of an event. -/
structure Accepts (P : Primitives) (s : ChatSession) (sequence epoch : Nat) (eventType : UInt8)
    (body : Bytes) (signature : Signature) : Prop where
  signed : P.ed25519Verify s.hostEd25519Pubkey
    (roomEventTranscript 1 s.roomSessionId sequence epoch eventType body) signature = true
  epoch : ∀ current, s.epoch = some current → epoch = current
  sequence : ∀ last, s.lastRoomSequence = some last → last < sequence

theorem verifyRoomEvent_accepts {sequence epoch : Nat} {eventType : UInt8} {body : Bytes}
    {signature : Signature} (h : Accepts P s sequence epoch eventType body signature) :
    s.verifyRoomEvent P sequence epoch eventType body signature =
      ({ s with lastRoomSequence := some sequence }, .ok ()) := by
  have hepoch : s.epoch.filter (fun current => epoch ≠ current) = none := by
    rw [Option.filter_eq_none_iff]
    intro current hcurrent
    simpa using h.epoch current hcurrent
  have hlast : s.lastRoomSequence.any (fun last => sequence ≤ last) = false := by
    rw [Bool.eq_false_iff, ne_eq, Option.any_eq_true]
    rintro ⟨last, hlast, hle⟩
    have hlt := h.sequence last hlast
    have hle' : sequence ≤ last := by simpa using hle
    omega
  simp only [verifyRoomEvent, h.signed, hepoch, hlast, not_true, if_false, Bool.false_eq_true]

theorem verifyRoomEvent_refuses {sequence epoch : Nat} {eventType : UInt8} {body : Bytes}
    {signature : Signature} (h : ¬ Accepts P s sequence epoch eventType body signature) :
    ∃ error, s.verifyRoomEvent P sequence epoch eventType body signature = (s, .error error) := by
  unfold verifyRoomEvent
  dsimp only
  split
  · exact ⟨_, rfl⟩
  rename_i hsigned
  split
  · exact ⟨_, rfl⟩
  rename_i hepoch
  split
  · exact ⟨_, rfl⟩
  rename_i hlast
  refine absurd ⟨by simpa using hsigned, ?_, ?_⟩ h
  · intro current hcurrent
    rw [Option.filter_eq_none_iff] at hepoch
    simpa using hepoch current hcurrent
  · intro last hsome
    rw [hsome] at hlast
    simpa using hlast

theorem verifyRoomEvent_members {s' : ChatSession} {result : Except ChatError Unit}
    {sequence epoch : Nat} {eventType : UInt8} {body : Bytes} {signature : Signature}
    (h : s.verifyRoomEvent P sequence epoch eventType body signature = (s', result)) :
    s'.members = s.members := by
  by_cases haccepts : Accepts P s sequence epoch eventType body signature
  · rw [verifyRoomEvent_accepts haccepts] at h
    cases h
    rfl
  · obtain ⟨error, heq⟩ := verifyRoomEvent_refuses haccepts
    rw [heq] at h
    cases h
    rfl

/-- What `handle_member_joined` asks of an event: a valid nickname, an identity no entry of the
table shares, and a room event the session accepts. -/
structure Joins (P : Primitives) (s : ChatSession) (event : MemberJoined) : Prop where
  nickname : ∃ nickname, validateNickname P event.nickname Limits.default = .ok nickname
  memberId : event.memberId ≠ 0
  fresh : ∀ view ∈ s.members, ¬ view.Clashes event.toView
  accepts : Accepts P s event.sequence event.epoch msgMemberJoined
    (memberJoinedBody event.memberId event.nickname event.ed25519Pubkey) event.signature

theorem installMemberView_of_fresh {view : MemberView} {members : List MemberView}
    (h : ∀ v ∈ members, v.memberId ≠ view.memberId) :
    installMemberView view members = members ++ [view] := by
  induction members with
  | nil => rfl
  | cons existing rest ih =>
      rw [installMemberView, if_neg (h existing (.head _)), ih fun v hv => h v (.tail _ hv)]
      rfl

/-- The check of `handle_member_joined` against the table. -/
private theorem duplicate_iff {event : MemberJoined} :
    (decide (event.memberId = 0) || s.members.any fun member =>
        decide (member.memberId = event.memberId) || decide (member.nickname = event.nickname) ||
          decide (member.ed25519Pubkey = event.ed25519Pubkey)) = true ↔
      ¬ (event.memberId ≠ 0 ∧ ∀ view ∈ s.members, ¬ view.Clashes event.toView) := by
  simp only [Bool.or_eq_true, decide_eq_true_eq, List.any_eq_true, MemberView.Clashes,
    MemberJoined.toView, or_assoc]
  constructor
  · rintro (h | ⟨view, hview, h⟩) ⟨hid, hfresh⟩
    · exact hid h
    · exact hfresh view hview h
  · intro h
    by_cases hid : event.memberId = 0
    · exact .inl hid
    · refine .inr (by_contra fun hnone => h ⟨hid, fun view hview hclash => ?_⟩)
      exact hnone ⟨view, hview, hclash⟩

theorem handleMemberJoined_joins {event : MemberJoined} (h : Joins P s event) :
    (s.handleMemberJoined P event).1.members = s.members ++ [event.toView] := by
  obtain ⟨nickname, hnickname⟩ := h.nickname
  have hfresh : ∀ v ∈ s.members, v.memberId ≠ event.toView.memberId :=
    fun v hv heq => h.fresh v hv (.inl heq)
  have hcheck := (not_congr duplicate_iff).mpr (not_not.mpr (And.intro h.memberId h.fresh))
  simp only [handleMemberJoined, hnickname, if_neg hcheck, verifyRoomEvent_accepts h.accepts]
  exact installMemberView_of_fresh hfresh

theorem handleMemberJoined_refuses {event : MemberJoined} (h : ¬ Joins P s event) :
    (s.handleMemberJoined P event).1 = s := by
  unfold handleMemberJoined
  split
  · rfl
  rename_i nickname hnickname
  split
  · rfl
  rename_i hcheck
  have hfresh := not_not.mp (mt duplicate_iff.mpr hcheck)
  obtain ⟨error, heq⟩ := verifyRoomEvent_refuses
    fun haccepts => h ⟨⟨nickname, hnickname⟩, hfresh.1, hfresh.2, haccepts⟩
  simp only [heq]

/-! ### Snapshots -/

private theorem validateSnapshotEntries_distinct {prior members : List SnapshotMember}
    (h : validateSnapshotEntries P prior members = .ok ()) :
    (∀ p ∈ prior, ∀ m ∈ members, ¬ p.toView.Clashes m.toView) ∧
      members.Pairwise fun a b => ¬ a.toView.Clashes b.toView := by
  induction members generalizing prior with
  | nil => exact ⟨fun _ _ => nofun, .nil⟩
  | cons member rest ih =>
      unfold validateSnapshotEntries at h
      split at h
      · cases h
      split at h
      · cases h
      split at h
      · cases h
      rename_i hseen
      have hmember : ∀ p ∈ prior, ¬ p.toView.Clashes member.toView := by
        intro p hp hclash
        apply hseen
        rw [List.any_eq_true]
        exact ⟨p, hp, by simpa [MemberView.Clashes, SnapshotMember.toView, or_assoc] using hclash⟩
      obtain ⟨hprior, hrest⟩ := ih h
      constructor
      · intro p hp m hm
        cases hm with
        | head => exact hmember p hp
        | tail _ hm => exact hprior p (List.mem_append_left _ hp) m hm
      · refine .cons (fun m hm => ?_) hrest
        exact hprior member (List.mem_append_right _ (.head _)) m hm

/-- What passed `validate_snapshot` is a well-formed table within the cap. -/
theorem validateSnapshot_wellFormed {members : List SnapshotMember} {ownId : MemberId}
    (h : validateSnapshot P members ownId = .ok ()) :
    WellFormedTable (members.map SnapshotMember.toView) ∧
      members.length ≤ Limits.default.maxActiveMembers := by
  unfold validateSnapshot at h
  split at h
  · cases h
  split at h
  · cases h
  rename_i hcap
  split at h
  · cases h
  rename_i hhost
  refine ⟨.of_pairwise ?_ fun view hview => ?_, by omega⟩
  · exact List.pairwise_map.mpr (validateSnapshotEntries_distinct h).2
  · obtain ⟨member, hmember, rfl⟩ := List.mem_map.mp hview
    rw [Bool.or_eq_true, not_or] at hhost
    have hflag := hhost.2
    rw [List.any_eq_true] at hflag
    have hflag : ¬ member.isHost ≠ decide (member.memberId = 0) :=
      fun hne => hflag ⟨member, hmember, by simpa using hne⟩
    rw [not_not] at hflag
    simp [SnapshotMember.toView, hflag]

end ChatSession

namespace ClientAdmission
variable {P : Primitives} {derive : Argon2} {c : ClientAdmission}

/-- The member table of the flow, empty before there is a session. -/
def table (c : ClientAdmission) : List MemberView := (c.chat.map ChatSession.members).getD []

/-- What a call can make of the member table. -/
inductive Rewrites (P : Primitives) (c : ClientAdmission) : Input → List MemberView → Prop
  | keeps {input} : Rewrites P c input c.table
  | empties {input} : Rewrites P c input []
  | joins {session event} : c.chat = some session → ChatSession.Joins P session event →
      Rewrites P c (.membership (.memberJoined event)) (c.table ++ [event.toView])
  | leaves {input} (memberId : MemberId) :
      Rewrites P c input (c.table.filter fun view => view.memberId ≠ memberId)
  | restarts {input ownId} {members : List SnapshotMember} :
      validateSnapshot P members ownId = .ok () →
      Rewrites P c input (members.map SnapshotMember.toView)
  | recolors {input members} :
      members.map MemberView.uncolored = c.table.map MemberView.uncolored →
      Rewrites P c input members

theorem Rewrites.wellFormed {input : Input} {members : List MemberView}
    (h : Rewrites P c input members) (hc : WellFormedTable c.table) : WellFormedTable members := by
  cases h with
  | keeps => exact hc
  | empties => exact .nil
  | joins hchat hjoins =>
      have htable : c.table = _ :=
        congrArg (fun chat => (chat.map ChatSession.members).getD []) hchat
      refine hc.snoc (htable ▸ hjoins.fresh) ?_
      simpa [MemberJoined.toView] using hjoins.memberId
  | leaves memberId => exact hc.sublist List.filter_sublist
  | restarts hvalid => exact (ChatSession.validateSnapshot_wellFormed hvalid).1
  | recolors heq => exact hc.of_uncolored heq

private theorem map_uncolored_installMemberView {view found : MemberView}
    {members : List MemberView} (heq : view.uncolored = found.uncolored)
    (hfound : members.find? (fun v => v.memberId = view.memberId) = some found) :
    (ChatSession.installMemberView view members).map MemberView.uncolored =
      members.map MemberView.uncolored := by
  induction members with
  | nil => cases hfound
  | cons existing rest ih =>
      rw [ChatSession.installMemberView]
      by_cases hid : existing.memberId = view.memberId
      · rw [List.find?_cons_of_pos (by simpa using hid), Option.some.injEq] at hfound
        rw [if_pos hid, List.map_cons, List.map_cons, heq, hfound]
      · rw [List.find?_cons_of_neg (by simpa using hid)] at hfound
        simp [hid, ih hfound]

theorem applyColor_uncolored (session : ChatSession) (memberId : MemberId) (color : ColorChoice) :
    (applyColor session memberId color).members.map MemberView.uncolored =
      session.members.map MemberView.uncolored := by
  unfold applyColor
  split
  · rfl
  rename_i member hmember
  have hid : member.memberId = memberId := by simpa using List.find?_some hmember
  subst hid
  have hkept : ({ member with color } : MemberView).uncolored = member.uncolored := rfl
  exact map_uncolored_installMemberView hkept hmember

/-- A call of the session rewrites the table as it rewrites the session's. -/
private theorem withChat_rewrites {α : Type} {input : Input} (out : Except ChatError α → Output)
    {call : ChatSession → ChatSession × Except ChatError α}
    (hcall : ∀ session, c.chat = some session → Rewrites P c input (call session).1.members) :
    Rewrites P c input ((c.withChat call).map id out).1.table := by
  unfold withChat
  split
  · exact .keeps
  · rename_i session hsession
    exact hcall session hsession

private theorem rewrites_of_members {input : Input} {session : ChatSession}
    {members : List MemberView} (hchat : c.chat = some session) (h : members = session.members) :
    Rewrites P c input members := by
  have htable : members = c.table := by rw [h, table, hchat]; rfl
  exact htable ▸ .keeps

theorem membership_rewrites {session : ChatSession} (hchat : c.chat = some session)
    (message : Message) :
    Rewrites P c (.membership message) (session.handleMembershipMessage P message).1.members := by
  have htable : session.members = c.table := by rw [table, hchat]; rfl
  cases message with
  | memberJoined event =>
      by_cases hjoins : ChatSession.Joins P session event
      · have hafter := ChatSession.handleMemberJoined_joins hjoins
        rw [htable] at hafter
        exact hafter ▸ .joins hchat hjoins
      · exact rewrites_of_members hchat
          (congrArg _ (ChatSession.handleMemberJoined_refuses hjoins))
  | memberLeft event | memberKicked event =>
      simp only [ChatSession.handleMembershipMessage, ChatSession.handleMemberGone]
      split
      · rename_i heq
        have hframe := ChatSession.verifyRoomEvent_members (P := P) heq
        exact rewrites_of_members hchat hframe
      · rename_i heq
        have hframe := ChatSession.verifyRoomEvent_members (P := P) heq
        rw [ChatSession.removeMember, hframe, htable]
        exact .leaves event.memberId
  | joinPolicyChanged event =>
      simp only [ChatSession.handleMembershipMessage]
      split
      all_goals
        rename_i heq
        have hframe := ChatSession.verifyRoomEvent_members (P := P) heq
        exact rewrites_of_members hchat hframe
  | memberSnapshot event =>
      simp only [ChatSession.handleMembershipMessage, ChatSession.handleMemberSnapshot]
      split
      · exact rewrites_of_members hchat rfl
      rename_i hvalid
      split
      · rename_i heq
        exact rewrites_of_members hchat (ChatSession.verifyRoomEvent_members heq)
      · exact .restarts hvalid
  | _ => exact rewrites_of_members hchat rfl

private theorem rewrites_of_chat {input : Input} {c' : ClientAdmission} (h : c'.chat = c.chat) :
    Rewrites P c input c'.table := by
  have htable : c'.table = c.table := by rw [table, table, h]
  exact htable ▸ .keeps

private theorem hostMessage_rewrites (message : Message) :
    Rewrites P c (.hostMessage message) (c.step P derive (.hostMessage message)).1.table := by
  simp only [step, onHostMessage]
  cases hstate : c.state <;> cases message <;> dsimp only <;> try exact .keeps
  case awaitingHostHello.hostHello hello =>
      obtain ⟨error, heq⟩ | ⟨-, heq⟩ := handleHostHello_cases (P := P) (c := c) hello
      all_goals
        rw [heq]
        exact rewrites_of_chat rfl
  case awaitingChallenge.passwordChallenge challenge =>
      obtain ⟨error, heq⟩ | ⟨proof, -, -, -, heq⟩ :=
        handleChallenge_cases (P := P) (c := c) derive challenge
      all_goals
        rw [heq]
        exact rewrites_of_chat rfl
  case awaitingDecision.joinAccepted accepted =>
      cases hhello : c.hostHello with
      | none => exact rewrites_of_chat (by rw [admittedAs, hhello])
      | some info =>
          have htable : (c.admittedAs accepted.memberId).table = [] := by
            rw [table, admittedAs, hhello]
            rfl
          rw [htable]
          exact .empties

private theorem joinRequest_rewrites (nickname : String) (introduction : Option String) :
    Rewrites P c (.joinRequest nickname introduction)
      (c.step P derive (.joinRequest nickname introduction)).1.table := by
  apply rewrites_of_chat
  simp only [step, joinRequest, Prod.map]
  repeat' split
  all_goals rfl

/-- A chat message keeps the table, a color change recolors it. -/
private theorem memberMessage_rewrites (messageType : UInt8) (envelope : EncryptedEnvelope) :
    Rewrites P c (.memberMessage messageType envelope)
      (c.step P derive (.memberMessage messageType envelope)).1.table := by
  simp only [step, onMemberMessage]
  apply withChat_rewrites heard
  intro session hsession
  have htable : c.table = session.members := by rw [table, hsession]; rfl
  by_cases hchat : messageType = msgChat
  · have hkept : (session.receiveChat P envelope).1.members = session.members := by
      rw [ChatSession.receiveChat_fst]
      exact ChatSession.openMessage_members _ _
    simp only [hchat, if_true]
    generalize session.receiveChat P envelope = result at hkept
    obtain ⟨session', error | text⟩ := result <;> exact rewrites_of_members hsession hkept
  simp only [hchat, if_false]
  by_cases hcolor : messageType = msgColor
  · have hkept : (session.receiveColor P envelope).1.members = session.members := by
      rw [ChatSession.receiveColor_fst]
      exact ChatSession.openMessage_members _ _
    simp only [hcolor, if_true]
    generalize session.receiveColor P envelope = result at hkept
    obtain ⟨session', error | color⟩ := result
    · exact rewrites_of_members hsession hkept
    · apply Rewrites.recolors
      rw [htable, ← hkept]
      exact applyColor_uncolored session' envelope.senderId color
  · simp only [hcolor, if_false]
    exact rewrites_of_members hsession rfl

/-- Every call rewrites the member table in one of these ways. -/
theorem step_rewrites (input : Input) :
    Rewrites P c input (c.step P derive input).1.table := by
  cases input with
  | hostMessage message => exact hostMessage_rewrites message
  | epochWrap wrap =>
      have hwrap : Rewrites P c (.epochWrap wrap) ((c.withChat fun session =>
          session.setEpochFromWrap P c.identity wrap).map id heard).1.table := by
        apply withChat_rewrites heard
        intro session hsession
        exact rewrites_of_members hsession (ChatSession.setEpochFromWrap_members _ _)
      simp only [step, onEpochWrap]
      split <;> simp_all
  | memberMessage messageType envelope => exact memberMessage_rewrites messageType envelope
  | membership message =>
      have heq : c.onMembershipMessage P message =
          c.withChat fun session => session.handleMembershipMessage P message := by
        cases message <;> rfl
      rw [step, heq]
      exact withChat_rewrites heard fun session hsession => membership_rewrites hsession message
  | timeoutChanged envelope =>
      apply withChat_rewrites heard
      intro session hsession
      exact rewrites_of_members hsession (ChatSession.receiveTimeoutChanged_members envelope)
  | joinRequest nickname introduction => exact joinRequest_rewrites nickname introduction
  | sendChat nonce text =>
      apply withChat_rewrites answered
      intro session hsession
      apply rewrites_of_members hsession
      dsimp only [ChatSession.sendChat]
      split
      · rfl
      · exact ChatSession.sealMessage_members _ _ _ _
  | sendColor nonce color =>
      apply withChat_rewrites answered
      intro session hsession
      exact rewrites_of_members hsession (ChatSession.sealMessage_members _ _ _ _)
  | sendTimeoutRequest nonce seconds =>
      apply withChat_rewrites answered
      intro session hsession
      apply rewrites_of_members hsession
      dsimp only [ChatSession.sendTimeoutRequest]
      split
      · rfl
      · exact ChatSession.sealMessage_members _ _ _ _
  | setOwnColor color =>
      simp only [step, setOwnColor]
      split
      · rename_i own session hown hsession
        apply Rewrites.recolors
        have htable : c.table = session.members := by rw [table, hsession]; rfl
        rw [htable]
        exact applyColor_uncolored session own color
      · exact .keeps

/-! ### Whole runs -/

/-- The member table of a flow that started without members stays well formed, whatever is
received, and every id in it resolves to its own entry. -/
theorem members_well_formed {c₀ : ClientAdmission} {past : Past} (run : Run P derive c₀ past c)
    (hstart : c₀.table = []) :
    WellFormedTable c.table ∧
      ∀ view ∈ c.table, c.table.find? (fun v => v.memberId = view.memberId) = some view := by
  have hwell : WellFormedTable c.table := by
    apply run.invariant fun _ c => WellFormedTable c.table
    · rw [hstart]
      exact .nil
    · intro past c input _ hc _
      exact (step_rewrites input).wellFormed hc
  exact ⟨hwell, fun view hview => hwell.find hview⟩

/-- A `MEMBER_JOINED` the session accepts although its table is full. -/
def Overfills (P : Primitives) (c : ClientAdmission) (input : Input) : Prop :=
  ∃ session event, input = .membership (.memberJoined event) ∧ c.chat = some session ∧
    ChatSession.Joins P session event ∧
      Limits.default.maxActiveMembers ≤ session.members.length

theorem Rewrites.capped {input : Input} {members : List MemberView} (h : Rewrites P c input members)
    (hc : c.table.length ≤ Limits.default.maxActiveMembers) (hfree : ¬ Overfills P c input) :
    members.length ≤ Limits.default.maxActiveMembers := by
  cases h with
  | keeps => exact hc
  | empties => exact Nat.zero_le _
  | @joins session event hchat hjoins =>
      have htable : c.table = session.members := by rw [table, hchat]; rfl
      have hroom : ¬ Limits.default.maxActiveMembers ≤ session.members.length :=
        fun hfull => hfree ⟨session, event, rfl, hchat, hjoins, hfull⟩
      rw [htable, List.length_append, List.length_singleton]
      omega
  | leaves memberId => exact (List.length_filter_le _ _).trans hc
  | restarts hvalid =>
      rw [List.length_map]
      exact (ChatSession.validateSnapshot_wellFormed hvalid).2
  | recolors heq =>
      have hlength := congrArg List.length heq
      rw [List.length_map, List.length_map] at hlength
      omega

theorem Overfills.exceeds {input : Input} (h : Overfills P c input) :
    Limits.default.maxActiveMembers < (c.step P derive input).1.table.length := by
  obtain ⟨session, event, rfl, hchat, hjoins, hfull⟩ := h
  have hafter := ChatSession.handleMemberJoined_joins hjoins
  have htable : (c.step P derive (.membership (.memberJoined event))).1.table =
      session.members ++ [event.toView] := by
    rw [← hafter]
    simp [step, onMembershipMessage, withChat, hchat, table]
  rw [htable, List.length_append, List.length_singleton]
  omega

/-- The table stays within the cap exactly when no member joins a full one. -/
theorem members_capped_iff {c₀ : ClientAdmission} {past : Past} (run : Run P derive c₀ past c)
    (hstart : c₀.table = []) :
    (∀ entry ∈ past, entry.after.table.length ≤ Limits.default.maxActiveMembers) ↔
      ∀ entry ∈ past, ¬ Overfills P entry.before entry.input := by
  constructor
  · intro hcapped entry hentry hover
    obtain ⟨newer, older, rfl⟩ := List.append_of_mem hentry
    obtain ⟨-, -, hstep, -⟩ := run.split
    have hexceeds : Limits.default.maxActiveMembers <
        (entry.before.step P derive entry.input).1.table.length := hover.exceeds
    rw [hstep] at hexceeds
    exact absurd (hcapped entry hentry) (Nat.not_le.mpr hexceeds)
  · intro hfree
    suffices hall : c.table.length ≤ Limits.default.maxActiveMembers ∧
        ∀ entry ∈ past, entry.after.table.length ≤ Limits.default.maxActiveMembers from hall.2
    induction run with
    | start =>
        simp [hstart]
    | @step past c input run _ ih =>
        obtain ⟨hc, hpast⟩ := ih fun entry hentry => hfree entry (.tail _ hentry)
        have hallowed : ¬ Overfills P c input :=
          hfree ⟨c, input, (c.step P derive input).2, (c.step P derive input).1⟩ (.head _)
        have hrewrites : Rewrites P c input (c.step P derive input).1.table := step_rewrites input
        have hnext := hrewrites.capped hc hallowed
        refine ⟨hnext, fun entry hentry => ?_⟩
        cases hentry with
        | head => exact hnext
        | tail _ hentry => exact hpast entry hentry

end ClientAdmission

namespace Symbolic
open ClientAdmission

/-- An admitted member that has heard of no one yet. -/
def seated : ClientAdmission :=
  { joiner with
    memberId := some 1
    chat := some (.new (Vector.replicate 32 5) (Vector.replicate 32 1) (Vector.replicate 32 2) 1)
    state := .admitted }

/-- The key and the nickname of member `n`. -/
def memberKey (n : Nat) : Key := pad 32 [n.toUInt8]
def memberName (n : Nat) : String := String.ofList [Char.ofNat (97 + n)]

/-- A snapshot of a full room, and the announcement of one more member. -/
def flooded : Past × ClientAdmission :=
  Machine.exec (step primitives argon2)
    [.membership (.memberSnapshot ⟨1, 1, (List.range 16).map fun n =>
        ⟨n, memberName n, 0, n == 0, memberKey n⟩, sign (Vector.replicate 32 1)⟩),
      .membership (.memberJoined ⟨2, 1, 16, memberName 16, memberKey 16,
        sign (Vector.replicate 32 1)⟩)] [] seated

theorem run_flooded : Run primitives argon2 seated flooded.1 flooded.2 :=
  Machine.Run.exec .start fun _ _ _ _ _ _ _ _ => trivial

end Symbolic

namespace ClientAdmission
open Symbolic

private theorem flooded_length : flooded.2.table.length = 17 := by decide +kernel

theorem members_well_formed_flooded :
    (WellFormedTable flooded.2.table ∧ ∀ view ∈ flooded.2.table,
      flooded.2.table.find? (fun v => v.memberId = view.memberId) = some view) ∧
      flooded.2.table.length = 17 :=
  ⟨members_well_formed run_flooded rfl, flooded_length⟩

theorem members_capped_iff_flooded :
    (∀ entry ∈ flooded.1, entry.after.table.length ≤ Limits.default.maxActiveMembers) ↔
      ∀ entry ∈ flooded.1, ¬ Overfills primitives entry.before entry.input :=
  members_capped_iff run_flooded rfl

/-- A signed join is accepted into a full table. -/
theorem members_exceed_cap :
    ¬ ∀ past c, Run primitives argon2 seated past c →
      c.table.length ≤ Limits.default.maxActiveMembers := by
  intro hcapped
  have hle := hcapped _ _ run_flooded
  rw [flooded_length] at hle
  exact absurd hle (by decide)

end ClientAdmission

end Veilroom
