import Veilroom.Room.Departures

/-!
Every event is a move, and keeps the registry valid.

The lemmas of the remaining handlers, and of `handle_event_at` itself.
-/
namespace Veilroom
namespace RoomActor
variable (P : Primitives) (rng : Rng) {a : RoomActor} {event : RoomEvent}

/-- What an event brings to the room from outside. -/
def introduced : RoomEvent → Option Registry.Arrival
  | .clientConnected connection => some (.connection connection)
  | .joinRequested _ application => some (.application application)
  | _ => none

theorem Effect.weaken {outcome : Outcome} (h : Effect P rng none event a outcome)
    (new : Option Registry.Arrival) : Effect P rng new event a outcome where
  step := { h.step with
    known := fun c entry hget => (h.step.known c entry hget).elim (fun hnew => nomatch hnew) .inr
    queued := fun q hq => (h.step.queued q hq).elim (fun hnew => nomatch hnew) .inr }
  move := h.move

/-! ### Join requests and host commands -/

private theorem opened_of_allows {policy : JoinPolicy} (h : policy.allowsJoinRequests = true) :
    policy = .opened := by
  cases policy
  · rfl
  · cases h

theorem onJoinRequested_effect (h : a.registry.Valid) (connection : ConnectionId)
    (application : JoinApplication) :
    Effect P rng (some (.application application)) event a
      (a.onJoinRequested connection application) := by
  unfold onJoinRequested
  split
  · exact .weaken P rng (.refused h _) _
  rename_i hpolicy
  rw [not_not] at hpolicy
  cases hget : a.connections.get connection with
  | none => exact .weaken P rng (.refused h _) _
  | some entry =>
      dsimp only
      split
      · exact .weaken P rng (.refused h _) _
      rename_i hentry
      rw [not_or, not_not, not_not] at hentry
      by_cases hfull : a.requests.limit ≤ a.requests.requests.length
      · rw [show a.requests.push connection application = (a.requests, .error (.full _)) from
          if_pos hfull]
        exact .weaken P rng (.refused h _) _
      · rw [show a.requests.push connection application =
          ({ a.requests with
              nextId := a.requests.nextId + 1
              requests := a.requests.requests ++ [⟨a.requests.nextId, connection, application⟩] },
            .ok a.requests.nextId) from if_neg hfull]
        have hattach : (a.connections.attachRequest connection a.requests.nextId).2 = some () := by
          rw [Connections.attachRequest, Connections.update, hget]
        generalize hresult : a.connections.attachRequest connection a.requests.nextId = result
          at hattach
        obtain ⟨connections, found⟩ := result
        subst hattach
        dsimp only
        rw [hresult]
        have hstep := h.enqueue hget hentry.2 (opened_of_allows hpolicy) application
        rw [show (a.registry.connections.attachRequest connection a.registry.requests.nextId).1 =
          connections from congrArg Prod.fst hresult] at hstep
        refine ⟨hstep, .quiet ⟨⟨rfl, rfl, rfl, rfl, rfl⟩, rfl, rfl, rfl, rfl, rfl, rfl, rfl⟩ rfl
          (Nat.le_succ _) (.refl a) ?_⟩
        intro action haction
        rw [List.mem_singleton.mp haction]
        rfl

theorem takeRequest_cases (h : a.registry.Valid) (requestId : RequestId) :
    (∃ error, a.takeRequest requestId = (a, .error error)) ∨
      ∃ q ∈ a.requests.requests, q.id = requestId ∧
        a.takeRequest requestId = ({ a with requests := a.registry.taken q }, .ok q) := by
  unfold takeRequest JoinRequestQueue.take
  cases hfind : a.requests.requests.find? fun r => r.id = requestId with
  | none => exact .inl ⟨_, rfl⟩
  | some q =>
      obtain ⟨hq, rfl⟩ := (List.find?_eq_some_of_nodup h.joinIds_nodup).mp hfind
      exact .inr ⟨q, hq, rfl, rfl⟩

theorem rejectedMessage_isPlain (c : ConnectionId) (reason : Option String) :
    (RoomAction.sendTo c (rejectedMessage reason)).isPlain = true := by
  unfold rejectedMessage
  dsimp only
  split
  · rfl
  · split <;> rfl

theorem admitMember_effect (h : a.registry.Valid) (hsettled : a.state ≠ .epochTransition)
    {q : JoinRequest} (hq : q ∈ a.requests.requests) :
    Effect P rng none event a
      (admitMember P rng { a with requests := a.registry.taken q } q.connection q.application) := by
  unfold admitMember
  dsimp only
  generalize hadd : a.members.add q.connection q.application.nickname
    q.application.ed25519Pubkey q.application.x25519Pubkey (a.epoch + 1) = result
  obtain ⟨members, error | member⟩ := result
  · obtain rfl := Registry.add_eq_error hadd
    refine ⟨h.dropRequest hq, ?_⟩
    refine .quiet ⟨⟨rfl, rfl, rfl, rfl, rfl⟩, rfl, rfl, rfl, rfl, rfl, rfl, rfl⟩ rfl
      (Nat.le_refl _) (.refl a) ?_
    intro action haction
    obtain haction | haction := List.mem_append.mp haction
    · simp only [List.mem_cons, List.not_mem_nil, or_false] at haction
      obtain rfl | rfl | rfl := haction
      · exact rejectedMessage_isPlain _ _
      · rfl
      · rfl
    · split at haction
      · rw [List.mem_singleton.mp haction]
        rfl
      · cases haction
  · have hstep := h.admitMember hq hadd
    obtain ⟨hmember, htable, -, -⟩ := Registry.add_eq_ok hadd
    dsimp only
    let b : RoomActor := { a with
      requests := a.registry.taken q
      members
      connections :=
        ((a.connections.register q.connection).promote q.connection member.memberId).1 }
    have hb : b.members.members = a.members.members ++ [member] :=
      congrArg MemberTable.members htable
    have htabled : Tabled a b := ⟨⟨rfl, rfl, rfl, rfl, rfl⟩, rfl, rfl, rfl, rfl, rfl, rfl, rfl⟩
    have hcases := beginEpochTransition_cases P rng b
    obtain ⟨key, wraps, hbegins, heq⟩ | ⟨error, heq⟩ := hcases
    · rw [heq]
      refine ⟨hstep, ?_⟩
      have hmove : Move P rng a event _ _ :=
        .joined hsettled htabled hq hmember hb hbegins
      rw [hmember] at hmove ⊢
      exact hmove
    · rw [heq]
      refine ⟨hstep, .failed htabled ?_ (by rw [heq])⟩
      intro m hm
      rw [hb] at hm
      obtain hm | hm := List.mem_append.mp hm
      · exact .inl hm
      · refine .inr ⟨q, hq, ?_⟩
        rw [List.mem_singleton.mp hm, hmember]

/-- Answering a room-timeout request takes it out of its queue. -/
private theorem takeTimeout_effect (h : a.registry.Valid) (requestId : RequestId)
    {action : RoomAction} (hplain : action.isPlain = true) :
    Effect P rng none event a
      ({ a with timeoutRequests := a.timeoutRequests.eraseP (fun r => r.requestId = requestId) },
        .ok [action]) := by
  refine ⟨h.dropTimeoutRequests List.eraseP_sublist, ?_⟩
  refine .quiet ⟨⟨rfl, rfl, rfl, rfl, rfl⟩, rfl, rfl, rfl, rfl, rfl, rfl, rfl⟩ rfl
    (Nat.le_refl _) (.refl a) ?_
  intro action' haction
  rwa [List.mem_singleton.mp haction]

theorem onAccept_effect (h : a.registry.Valid) (hsettled : a.state ≠ .epochTransition)
    (requestId : RequestId) : Effect P rng none event a (a.onAccept P rng requestId) := by
  unfold onAccept
  split
  · exact takeTimeout_effect P rng h requestId rfl
  · obtain ⟨error, heq⟩ | ⟨q, hq, -, heq⟩ := takeRequest_cases h requestId
    · rw [heq]
      exact .refused h error
    · rw [heq]
      exact admitMember_effect P rng h hsettled hq

theorem onReject_effect (h : a.registry.Valid) (requestId : RequestId) :
    Effect P rng none event a (a.onReject requestId) := by
  unfold onReject
  split
  · exact takeTimeout_effect P rng h requestId rfl
  · obtain ⟨error, heq⟩ | ⟨q, hq, -, heq⟩ := takeRequest_cases h requestId
    · rw [heq]
      exact .refused h error
    · rw [heq]
      refine ⟨h.dropRequest hq, ?_⟩
      refine .quiet ⟨⟨rfl, rfl, rfl, rfl, rfl⟩, rfl, rfl, rfl, rfl, rfl, rfl, rfl⟩ rfl
        (Nat.le_refl _) (.refl a) ?_
      intro action haction
      simp only [List.mem_cons, List.not_mem_nil, or_false] at haction
      obtain rfl | rfl := haction
      · exact rejectedMessage_isPlain _ _
      · rfl

/-- After the admission flows are dropped only members are known. -/
theorem get_dropAdmissions (h : a.registry.Valid) (c : ConnectionId) :
    a.dropAdmissions.1.connections.get c =
      if (a.connections.memberId c).isSome then a.connections.get c else none := by
  unfold dropAdmissions JoinRequestQueue.drain
  dsimp only
  generalize hdrained : (a.requests.requests.map JoinRequest.connection).foldl
    Connections.remove a.connections = drained
  have hget : drained.get c = if c ∈ a.requests.requests.map JoinRequest.connection then none
      else a.connections.get c := by
    rw [← hdrained, Connections.get_foldl_remove]
  rw [Connections.get_foldl_remove]
  cases hmember : a.connections.memberId c with
  | some id =>
      -- a member's connection carries no request, and stays
      obtain ⟨entry, hentry, hrole⟩ := Connections.memberId_eq_some.mp hmember
      have hnot : c ∉ a.requests.requests.map JoinRequest.connection := by
        intro hmem
        obtain ⟨q, hq, rfl⟩ := List.mem_map.mp hmem
        obtain ⟨entry', hentry', hrole'⟩ :=
          Connections.requestId_eq_some.mp (h.request_entry q hq)
        rw [show a.connections.get q.connection = some entry' from hentry'] at hentry
        cases hentry
        rw [hrole] at hrole'
        cases hrole'
      rw [if_neg hnot] at hget
      rw [if_neg, hget]
      · rfl
      · rintro hmem
        obtain ⟨entry', hentry', hrole'⟩ := Connections.mem_nonMemberIds.mp hmem
        rw [hget, hentry] at hentry'
        cases hentry'
        exact hrole' id hrole
  | none =>
      split
      · rfl
      rename_i hmem
      cases hcurrent : drained.get c with
      | none => rfl
      | some entry =>
          refine absurd (Connections.mem_nonMemberIds.mpr ⟨entry, hcurrent, fun id hid => ?_⟩) hmem
          rw [hget] at hcurrent
          split at hcurrent
          · cases hcurrent
          · rw [Connections.memberId_eq_some.mpr ⟨entry, hcurrent, hid⟩] at hmember
            cases hmember

theorem dropAdmissions_spec (h : a.registry.Valid) :
    Registry.Step none a.registry a.dropAdmissions.1.registry ∧
      ∀ action ∈ a.dropAdmissions.2, action.isPlain = true := by
  refine ⟨h.dropAdmissions (get_dropAdmissions h), ?_⟩
  intro action haction
  simp only [dropAdmissions, List.mem_append, List.mem_flatMap, List.mem_map, List.mem_cons,
    List.not_mem_nil, or_false] at haction
  obtain ⟨q, -, rfl | rfl⟩ | ⟨c, -, rfl⟩ := haction <;> rfl

theorem onNewId_effect (h : a.registry.Valid) : Effect P rng none event a (a.onNewId rng) := by
  unfold onNewId
  cases htoken : rng.token with
  | none => exact .refused h _
  | some token =>
      let a₁ : RoomActor := { a with token, roomSequence := a.roomSequence + 1 }
      have ⟨hstep, hplain⟩ := dropAdmissions_spec (a := a₁) h
      refine ⟨hstep, ?_⟩
      refine .quiet ⟨⟨rfl, rfl, rfl, rfl, rfl⟩, rfl, rfl, rfl, rfl, rfl, rfl, rfl⟩ rfl
        (Nat.le_succ _) (.refl a) ?_
      intro action haction
      obtain haction | haction := List.mem_append.mp haction
      · exact hplain action haction
      · rw [List.mem_singleton.mp haction]
        rfl

theorem setPolicy_effect (h : a.registry.Valid) (hsettled : a.state ≠ .epochTransition)
    (policy : JoinPolicy) : Effect P rng none event a (a.setPolicy P policy) := by
  unfold setPolicy
  by_cases hlocked : policy = .locked
  · rw [if_pos hlocked]
    have ⟨hstep, hplain⟩ := dropAdmissions_spec h
    refine ⟨hstep.trans h (hstep.valid.setPolicy policy fun _ => rfl), ?_⟩
    exact .policySet a.dropAdmissions.2 hsettled
      ⟨⟨rfl, rfl, rfl, rfl, rfl⟩, rfl, rfl, rfl, rfl, rfl, rfl, rfl⟩ rfl rfl hplain
  · rw [if_neg hlocked]
    refine ⟨h.setPolicy policy fun hpolicy => absurd hpolicy hlocked, ?_⟩
    exact .policySet [] hsettled (.refl a) rfl rfl (by simp)

theorem requests_effect (h : a.registry.Valid) :
    Effect P rng none event a (a.onHostCommand P rng .requests) :=
  .answered h (by simp [requestsSnapshot, RoomAction.isPlain])

theorem onHostCommand_effect (h : a.registry.Valid) (hsettled : a.state ≠ .epochTransition)
    (command : HostCommand) : Effect P rng none event a (a.onHostCommand P rng command) := by
  cases command with
  | kick target => exact onKick_effect P rng h hsettled target
  | newId => exact onNewId_effect P rng h
  | reqOn => exact setPolicy_effect P rng h hsettled .opened
  | reqOff => exact setPolicy_effect P rng h hsettled .locked
  | requests => exact requests_effect P rng h
  | accept requestId => exact onAccept_effect P rng h hsettled requestId
  | reject requestId => exact onReject_effect P rng h requestId

/-! ### Members -/

theorem setColor_effect (h : a.registry.Valid) (id : MemberId) (color : ColorChoice) :
    Effect P rng none event a ({ a with members := a.members.setColor id color }, .ok []) := by
  refine ⟨h.setColor id color, ?_⟩
  refine .quiet ⟨⟨rfl, rfl, rfl, rfl, rfl⟩, rfl, rfl, rfl, rfl, rfl, rfl, ?_⟩ rfl (Nat.le_refl _)
    (.refl a) (by simp)
  exact a.members.map_uncolored_setColor id color

theorem onMemberCommand_effect (h : a.registry.Valid) (hsettled : a.state ≠ .epochTransition)
    (connection : ConnectionId) (command : MemberCommand) :
    Effect P rng none event a (a.onMemberCommand P rng connection command) := by
  cases command with
  | leave => exact onLeave_effect P rng h hsettled connection
  | color color =>
      unfold onMemberCommand onColor
      dsimp only
      split
      · exact setColor_effect P rng h _ color
      · split
        · exact setColor_effect P rng h 0 color
        · exact .refused h _
  | list => exact .answered h (by simp [RoomAction.isPlain])
  | whois target =>
      unfold onMemberCommand
      dsimp only
      split
      · exact .refused h _
      · exact .answered h (by simp [RoomAction.isPlain])

/-! ### Chat relay -/

/-- A refusal after the sender's bucket was charged or its sequence recorded. -/
theorem Effect.refusedWith (h : a.registry.Valid) {rateLimits : MemberId → Option RateLimiter}
    {chatReplay : ReplayTracker} (hreplay : ReplayGrows a chatReplay) (error : RoomError) :
    Effect P rng none event a ({ a with rateLimits, chatReplay }, .error error) :=
  ⟨{ h.same with }, .refused rateLimits hreplay⟩

/-- Answers after the sender's bucket was charged. -/
theorem Effect.answeredWith (h : a.registry.Valid) {rateLimits : MemberId → Option RateLimiter}
    {actions : List RoomAction} (hplain : ∀ action ∈ actions, action.isPlain = true) :
    Effect P rng none event a ({ a with rateLimits }, .ok actions) :=
  ⟨{ h.same with }, .quiet { Still.refl a with } rfl (Nat.le_refl _) (.refl a) hplain⟩

theorem onRateLimited_effect (h : a.registry.Valid)
    {rateLimits : MemberId → Option RateLimiter} {connection : ConnectionId} {id : MemberId}
    (abusive : Bool)
    (hdeparting : a.state = .epochTransition → abusive = true → id ≠ 0 → a.departing event = [id]) :
    Effect P rng none event a
      (onRateLimited P rng { a with rateLimits } connection id abusive) := by
  unfold onRateLimited
  split
  · exact .refusedWith P rng h (.refl a) _
  rename_i message _
  have hactions : ∀ action ∈ [.sendTo connection (.error message),
      .notifyHost (.error "member exceeded the message rate limit")],
      RoomAction.isPlain action = true := by
    intro action haction
    simp only [List.mem_cons, List.not_mem_nil, or_false] at haction
    obtain rfl | rfl := haction <;> rfl
  dsimp only
  split
  · rename_i habusive
    have hcases := removeMember_cases P rng (a := { a with rateLimits }) h id msgMemberKicked
    obtain ⟨-, heq⟩ | ⟨-, heq⟩ | ⟨m, hm, rfl, hne, hcases⟩ := hcases
    · rw [heq]
      exact .refusedWith P rng h (.refl a) _
    · rw [heq]
      exact .answeredWith P rng h hactions
    · have htabled : Tabled a { a with rateLimits } := { Tabled.refl a with }
      obtain ⟨error, hfail, heq⟩ | ⟨key, wraps, hbegins, heq⟩ := hcases
      · rw [heq]
        exact .removalFailed h htabled { h.same with } rfl hm hne hfail
      · rw [heq]
        refine .removed h htabled { h.same with } rfl hm hne _ _ hbegins (.inr rfl) ?_
          (fun hstate => hdeparting hstate habusive hne)
        intro action haction
        obtain haction | haction := List.mem_append.mp haction
        · exact hactions action haction
        · simp only [List.mem_cons, List.not_mem_nil, or_false] at haction
          obtain rfl | rfl := haction <;> rfl
  · exact .answeredWith P rng h hactions

/-- A relay goes to the same connections whatever the colors. -/
theorem relay_congr {a b : RoomActor}
    (h : b.members.members.map Member.uncolored = a.members.members.map Member.uncolored)
    (connection : ConnectionId) (message : Message) :
    b.relay connection message = a.relay connection message := by
  have hrelay : ∀ a : RoomActor, a.relay connection message =
      ((a.members.members.map Member.uncolored).filter fun m => m.connection ≠ connection).map
        fun m => .sendTo m.connection message := by
    intro a
    rw [List.filter_map, List.map_map]
    rfl
  rw [hrelay, hrelay, h]

/-- What `on_chat_received` does once the envelope opened: `a₂` is `a` with the sender charged
and its sequence recorded. -/
theorem onPlaintext_effect (h : a.registry.Valid) {connection : ConnectionId} {id : MemberId}
    {messageType : UInt8} {envelope : EncryptedEnvelope} {plaintext : Bytes}
    (hevent : event = .chatReceived connection messageType envelope)
    (hknown : a.connections.memberId connection = some id) (hsender : envelope.senderId = id)
    (hacked : a.state = .epochTransition → a.memberHasAckedPendingEpoch connection = true)
    (htype : isChatType messageType = true) (hepoch : envelope.epoch = a.epoch)
    (hfresh : a.chatReplay.Fresh id a.epoch envelope.senderSequence)
    (hopened : a.chatPlaintext P id messageType envelope = .ok plaintext)
    {rateLimits : MemberId → Option RateLimiter} :
    Effect P rng none event a
      (onPlaintext
        { a with
          rateLimits, chatReplay := a.chatReplay.record id a.epoch envelope.senderSequence }
        connection id messageType envelope plaintext) := by
  have hreplay : ReplayGrows a (a.chatReplay.record id a.epoch envelope.senderSequence) :=
    .inr ⟨id, envelope.senderSequence, hfresh, rfl⟩
  have hrelays (hrelayable : messageType = msgChat ∨ messageType = msgColor ∨
      messageType = msgTimeoutChanged) (hsetting : messageType = msgTimeoutChanged →
        id = 0 ∧ ∃ setting, timeoutSetting plaintext = .ok setting) :
      Relays P a connection id messageType envelope plaintext :=
    ⟨hknown, hsender, hepoch, hfresh, hopened, hacked, hrelayable, hsetting⟩
  unfold onPlaintext
  split
  · rename_i hcolor
    subst hcolor
    split
    · rename_i index
      split
      · exact .refusedWith P rng h hreplay _
      · rename_i color _
        refine ⟨{ h.setColor id color with }, ?_⟩
        dsimp only
        rw [relay_congr (a := a) (a.members.map_uncolored_setColor id color)]
        refine .relayed hevent (hrelays (.inr (.inl rfl)) (fun hmsg => by cases hmsg))
          ?_ rfl rfl rfl
        exact ⟨⟨rfl, rfl, rfl, rfl, rfl⟩, rfl, rfl, rfl, rfl, rfl, rfl,
          a.members.map_uncolored_setColor id color⟩
    · exact .refusedWith P rng h hreplay _
  rename_i hcolor
  split
  · unfold onTimeoutRequest
    split
    · exact .refusedWith P rng h hreplay _
    split
    · exact .refusedWith P rng h hreplay _
    dsimp only
    split
    · exact .refusedWith P rng h hreplay _
    split
    · exact .refusedWith P rng h hreplay _
    · refine ⟨{ h.addTimeoutRequest (t := ⟨a.requests.nextId, connection, id,
        ((a.members.byId id).map Member.nickname).getD "", BigEndian.decode plaintext⟩) rfl with },
        ?_⟩
      refine .quiet ⟨⟨rfl, rfl, rfl, rfl, rfl⟩, rfl, rfl, rfl, rfl, rfl, rfl, rfl⟩ rfl
        (Nat.le_refl _) hreplay ?_
      intro action haction
      rw [List.mem_singleton.mp haction]
      rfl
  rename_i hrequest
  split
  · rename_i hchanged
    subst hchanged
    split
    · exact .refusedWith P rng h hreplay _
    rename_i hhost
    rw [not_not] at hhost
    split
    · exact .refusedWith P rng h hreplay _
    · rename_i setting hsetting
      refine ⟨{ h.same with }, .relayed hevent
        (hrelays (.inr (.inr rfl)) fun _ => ⟨hhost, setting, hsetting⟩) ?_ ?_ rfl rfl⟩
      · exact ⟨⟨rfl, rfl, rfl, rfl, rfl⟩, rfl, rfl, rfl, rfl, rfl, rfl, rfl⟩
      · rw [settingAfter, if_pos rfl, hsetting]
        rfl
  rename_i hchanged
  have hchat : messageType = msgChat := by
    simpa [isChatType, hcolor, hrequest, hchanged] using htype
  subst hchat
  split
  · exact .refusedWith P rng h hreplay _
  split
  · exact .refusedWith P rng h hreplay _
  · refine ⟨{ h.same with }, .relayed hevent
      (hrelays (.inl rfl) (fun hmsg => absurd hmsg hchanged)) ?_ ?_ rfl rfl⟩
    · exact ⟨⟨rfl, rfl, rfl, rfl, rfl⟩, rfl, rfl, rfl, rfl, rfl, rfl, rfl⟩
    · rfl

theorem onEnvelope_effect (h : a.registry.Valid) {connection : ConnectionId} {id : MemberId}
    {messageType : UInt8} {envelope : EncryptedEnvelope}
    (hevent : event = .chatReceived connection messageType envelope)
    (hknown : a.connections.memberId connection = some id) (hsender : envelope.senderId = id)
    (hacked : a.state = .epochTransition → a.memberHasAckedPendingEpoch connection = true)
    (htype : isChatType messageType = true) (rateLimits : MemberId → Option RateLimiter) :
    Effect P rng none event a
      (onEnvelope P { a with rateLimits } connection id messageType envelope) := by
  unfold onEnvelope
  split
  · exact .refusedWith P rng h (.refl a) _
  rename_i hepoch
  rw [not_not] at hepoch
  split
  · exact .refusedWith P rng h (.refl a) _
  rename_i hfresh
  rw [not_not] at hfresh
  rw [show chatPlaintext P { a with rateLimits } id messageType envelope =
    a.chatPlaintext P id messageType envelope from rfl]
  split
  · exact .refusedWith P rng h (.refl a) _
  rename_i plaintext hopened
  dsimp only
  rw [show a.chatReplay.accept id a.epoch envelope.senderSequence = _ from
    ReplayTracker.accept_of_fresh hfresh]
  exact onPlaintext_effect P rng h hevent hknown hsender hacked htype hepoch hfresh hopened

theorem onChatReceived_effect (h : a.registry.Valid) {connection : ConnectionId}
    {messageType : UInt8} {envelope : EncryptedEnvelope}
    (hevent : event = .chatReceived connection messageType envelope)
    (hacked : a.state = .epochTransition → a.memberHasAckedPendingEpoch connection = true) :
    Effect P rng none event a (a.onChatReceived P rng connection messageType envelope) := by
  unfold onChatReceived
  split
  · exact .refused h _
  rename_i htype
  rw [not_not] at htype
  cases hknown : a.connections.memberId connection with
  | none => exact .refused h _
  | some id =>
      dsimp only
      split
      · exact .refused h _
      rename_i hsender
      rw [not_not] at hsender
      split
      · exact .refused h _
      split
      · exact onEnvelope_effect P rng h hevent hknown hsender hacked
          htype a.rateLimits
      rename_i hchanged
      unfold chargeRateLimit
      dsimp only
      split
      · exact onEnvelope_effect P rng h hevent hknown hsender hacked htype _
      · refine onRateLimited_effect P rng h _ fun hstate habusive hne => ?_
        subst hevent
        rw [departing, hknown]
        exact if_pos ⟨hacked hstate, htype, hsender, hne, hchanged, habusive⟩

theorem rejectDuringTransition_effect (h : a.registry.Valid) (connection : ConnectionId) :
    Effect P rng none event a (a.rejectDuringTransition connection) := by
  unfold rejectDuringTransition
  split
  · exact .answered h (by simp [RoomAction.isPlain])
  · split
    · exact .refused h _
    · exact .answered h (by simp [RoomAction.isPlain])

/-! ### The event handler -/

theorem handleInTransition_effect (h : a.registry.Valid) (hopen : a.state ≠ .destroyed) :
    Effect P rng none event a (a.handleInTransition P rng event) := by
  unfold handleInTransition
  split
  · exact onEpochAck_effect P rng h rfl
  · exact onConnectionLost_effect P rng h _ fun _ => rfl
  · rename_i connection kind
    split
    · rename_i hkind
      exact onEpochTimeout_effect P rng h hopen (if_pos hkind)
    · rename_i hkind
      exact onConnectionLost_effect P rng h connection fun _ => if_neg hkind
  · exact onEpochTimeout_effect P rng h hopen rfl
  · exact closeRoom_effect P rng h
  · exact closeRoom_effect P rng h
  · exact requests_effect P rng h
  · split
    · rename_i hacked
      exact onChatReceived_effect P rng h rfl fun _ => hacked
    · exact rejectDuringTransition_effect P rng h _
  · exact .refused h _

theorem handleSettled_effect (h : a.registry.Valid) (hsettled : a.state ≠ .epochTransition) :
    Effect P rng (introduced event) event a (a.handleSettled P rng event) := by
  have hlost {connection : ConnectionId} : a.state = .epochTransition →
      a.departing event = departing.lost a connection := fun hstate => absurd hstate hsettled
  cases event with
  | clientConnected connection =>
      refine ⟨h.register connection, ?_⟩
      exact .quiet ⟨⟨rfl, rfl, rfl, rfl, rfl⟩, rfl, rfl, rfl, rfl, rfl, rfl, rfl⟩ rfl
        (Nat.le_refl _) (.refl a) (by simp)
  | passwordVerified connection =>
      refine .weaken P rng ⟨h.markPasswordVerified connection, ?_⟩ _
      exact .quiet ⟨⟨rfl, rfl, rfl, rfl, rfl⟩, rfl, rfl, rfl, rfl, rfl, rfl, rfl⟩ rfl
        (Nat.le_refl _) (.refl a) (by simp)
  | joinRequested connection application =>
      exact onJoinRequested_effect P rng h connection application
  | epochAck connection epoch => exact .weaken P rng (onEpochAck_effect P rng h rfl) _
  | hostCommand command => exact .weaken P rng (onHostCommand_effect P rng h hsettled command) _
  | memberCommand connection command =>
      exact .weaken P rng (onMemberCommand_effect P rng h hsettled connection command) _
  | hostAccepted requestId => exact .weaken P rng (onAccept_effect P rng h hsettled requestId) _
  | hostRejected requestId => exact .weaken P rng (onReject_effect P rng h requestId) _
  | connectionLost connection =>
      exact .weaken P rng (onConnectionLost_effect P rng h connection hlost) _
  | timeoutExpired connection kind =>
      exact .weaken P rng (onConnectionLost_effect P rng h connection hlost) _
  | epochMaintenance => exact .weaken P rng (.answered h (by simp)) _
  | memberLeft member => exact .weaken P rng (onMemberLeft_effect P rng h hsettled member) _
  | chatReceived connection messageType envelope =>
      exact .weaken P rng (onChatReceived_effect P rng h rfl fun hstate => absurd hstate hsettled) _
  | torStopped | closeRequested => exact .weaken P rng (closeRoom_effect P rng h) _

theorem handleEventAt_effect (h : a.registry.Valid) (event : RoomEvent) (now : Duration) :
    Effect P rng (introduced event) event { a with now } (a.handleEventAt P rng event now) := by
  unfold handleEventAt
  dsimp only
  split
  · exact .weaken P rng (.refused (a := { a with now }) h _) _
  rename_i hopen
  rw [not_or] at hopen
  split
  · exact .weaken P rng (handleInTransition_effect P rng (a := { a with now }) h hopen.2) _
  · rename_i hsettled
    exact handleSettled_effect P rng (a := { a with now }) h hsettled

end RoomActor

end Veilroom
