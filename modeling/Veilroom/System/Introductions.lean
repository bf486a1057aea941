import Veilroom.Room.Abuse
import Veilroom.Room.Delivery
import Veilroom.System.Awaited
import Veilroom.System.Rosters
import Veilroom.System.Synced

/-!
What the room relays, and to whom it makes sense.

An envelope opens for whoever holds the room's key and knows the sender. Every
member holds the key, and an informed one knows everyone it is not still owed
the news of. So a relayed envelope is lost exactly on those the room has not yet
told who sent it.
-/
namespace Veilroom

namespace Message

/-- The entries a message brings to a member table. -/
def views : Message → List MemberView
  | .memberJoined event => [event.toView]
  | .memberSnapshot event => event.members.map SnapshotMember.toView
  | _ => []

/-- The members a message introduces. -/
def introduces (message : Message) : List MemberId := message.views.map MemberView.memberId

/-- The relayed envelope of a message, with the type it opens under. -/
def relays? : Message → Option (UInt8 × EncryptedEnvelope)
  | .chatMessage envelope => some (msgChat, envelope)
  | .colorChange envelope => some (msgColor, envelope)
  | .timeoutChanged envelope => some (msgTimeoutChanged, envelope)
  | _ => none

theorem envelope?_of_relays? {message : Message} {messageType : UInt8}
    {envelope : EncryptedEnvelope} (h : message.relays? = some (messageType, envelope)) :
    message.envelope? = some envelope := by
  cases message <;> cases h <;> rfl

end Message

namespace ChatSession
variable {P : Primitives} {own : MemberIdentity} {s t : ChatSession} {id : MemberId}

/-- What introduces nobody by an id leaves the entries of that id alone, or drops them. -/
theorem filter_consume_unintroduced {message : Message} (hmessage : message.isMembership = true)
    (hnew : id ∉ message.introduces) (s : ChatSession) :
    (s.consume P own message).members.filter (fun view => view.memberId = id) =
        s.members.filter (fun view => view.memberId = id) ∨
      (s.consume P own message).members.filter (fun view => view.memberId = id) = [] := by
  by_cases hadmits : Admits P s message
  · rw [consume_of_admits hadmits]
    have hgone (gone : MemberId) (members : List MemberView) :
        (members.filter fun view => view.memberId ≠ gone).filter (fun view => view.memberId = id) =
            members.filter (fun view => view.memberId = id) ∨
          (members.filter fun view => view.memberId ≠ gone).filter
            (fun view => view.memberId = id) = [] := by
      rw [List.filter_filter]
      by_cases hid : id = gone
      · refine .inr (List.filter_eq_nil_iff.mpr fun view _ => ?_)
        simp [hid]
      · refine .inl (List.filter_congr fun view _ => ?_)
        by_cases hview : view.memberId = id
        · simp [hview, hid]
        · simp [hview]
    cases message with
    | memberJoined event =>
        have hview : event.toView.memberId ≠ id := fun heq => hnew (heq ▸ .head _)
        exact .inl (by simp [heed, Message.rewrite, hview])
    | memberLeft event => exact hgone event.memberId s.members
    | memberKicked event => exact hgone event.memberId s.members
    | memberSnapshot event =>
        refine .inr (List.filter_eq_nil_iff.mpr fun view hview => ?_)
        have hother : view.memberId ≠ id := fun heq => hnew (heq ▸ List.mem_map_of_mem hview)
        simpa using hother
    | _ => cases hmessage
  · rw [consume_of_not_admits hmessage hadmits]
    exact .inl rfl

theorem filter_foldl_unintroduced {messages : List Message}
    (h : ∀ message ∈ messages, message.isMembership = true ∧ id ∉ message.introduces)
    (s : ChatSession) :
    (messages.foldl (ChatSession.consume P own) s).members.filter
          (fun view => view.memberId = id) = s.members.filter (fun view => view.memberId = id) ∨
      (messages.foldl (ChatSession.consume P own) s).members.filter
        (fun view => view.memberId = id) = [] := by
  induction messages generalizing s with
  | nil => exact .inl rfl
  | cons message rest ih =>
      rw [List.forall_mem_cons] at h
      obtain heq | heq := ih h.2 (s.consume P own message)
      · rw [List.foldl_cons, heq]
        exact filter_consume_unintroduced h.1.1 h.1.2 s
      · exact .inr heq

end ChatSession

namespace RoomActor
variable {P : Primitives} {rng : Rng} {own : MemberIdentity} {a a' : RoomActor}
variable {event : RoomEvent} {result : Except RoomError (List RoomAction)} {s : ChatSession}
variable {k m n : Member} {connection : ConnectionId} {sender : MemberId} {messageType : UInt8}
variable {envelope : EncryptedEnvelope} {plaintext : Bytes}
variable {identity : ConnectionId → MemberIdentity} {started : List RoomAction} {past : Past}

/-- An informed session has one entry for a member it is owed no news of. -/
theorem Informed.entry (h : Informed P own a m s) (hvalid : a.registry.Valid)
    (hheld : HoldsEvents a) (hk : k ∈ a.members.members)
    (hnew : ∀ message ∈ a.owed m.connection, k.memberId ∉ message.introduces) :
    ∃ view, s.members.filter (fun view => view.memberId = k.memberId) = [view] ∧
      view.uncolored = k.toView.uncolored := by
  have hkinds : ∀ message ∈ a.owed m.connection,
      message.isMembership = true ∧ k.memberId ∉ message.introduces :=
    fun message hmem => ⟨(hheld _ message (mem_sentTo.mp hmem)).1, hnew message hmem⟩
  have hself : a.members.members.filter (fun n => n.memberId = k.memberId) = [k] := by
    apply List.eq_singleton_of_nodup
    · exact hvalid.ids_nodup.of_map.filter _
    · exact List.mem_filter.mpr ⟨hk, by simp⟩
    · intro n hn
      obtain ⟨hn, hid⟩ := List.mem_filter.mp hn
      exact hvalid.eq_of_memberId hn hk (by simpa using hid)
  have hfold : (((a.owed m.connection).foldl (ChatSession.consume P own) s).members.filter
      (fun view => view.memberId = k.memberId)).map MemberView.uncolored =
        [k.toView.uncolored] := by
    have hentries : a.roster.filter (fun entry => entry.1 = k.memberId) = [k.toView.uncolored] := by
      rw [RoomActor.roster, List.filter_map]
      exact congrArg (List.map fun m : Member => m.toView.uncolored) hself
    rw [← hentries, ← h.roster, List.filter_map]
    rfl
  have hcases : ((a.owed m.connection).foldl (ChatSession.consume P own) s).members.filter
      (fun view => view.memberId = k.memberId) = _ ∨ _ :=
    ChatSession.filter_foldl_unintroduced hkinds s
  obtain heq | heq := hcases
  · rw [heq] at hfold
    exact List.map_eq_singleton_iff.mp hfold
  · rw [heq] at hfold
    cases hfold

/-- An informed session knows every member it is owed no news of. -/
theorem Informed.knows (h : Informed P own a m s) (hvalid : a.registry.Valid)
    (hheld : HoldsEvents a) (hk : k ∈ a.members.members)
    (hnew : ∀ message ∈ a.owed m.connection, k.memberId ∉ message.introduces) :
    ∃ view, s.member k.memberId = some view ∧ view.uncolored = k.toView.uncolored := by
  obtain ⟨view, hfilter, heq⟩ := h.entry hvalid hheld hk hnew
  refine ⟨view, ?_, heq⟩
  rw [ChatSession.member, ← List.head?_filter, hfilter]
  rfl

/-- What the room relays opens, for whoever knows the sender and holds the room's key. -/
theorem Relays.opens (h : Relays P a connection sender messageType envelope plaintext)
    (hvalid : a.registry.Valid) (hkey : ∃ key, a.currentKey = some (a.epoch, key))
    (hattuned : Attuned P a m s) (hsynced : Synced a s)
    (hknown : ∀ k ∈ a.members.members, k.memberId = sender →
      ∃ view, s.member k.memberId = some view ∧ view.uncolored = k.toView.uncolored) :
    (s.openMessage P messageType envelope).2 = .ok plaintext := by
  obtain ⟨key, hkey⟩ := hkey
  have hopened := h.opened
  rw [chatPlaintext_eq, hkey] at hopened
  dsimp only at hopened
  split at hopened
  · cases hopened
  rename_i k hbyId
  obtain ⟨hk, hid⟩ := hvalid.byId_eq_some.mp hbyId
  obtain ⟨view, hview, heq⟩ := hknown k hk hid
  have hkeys : view.ed25519Pubkey = k.ed25519Pubkey := congrArg (fun entry => entry.2.2.2) heq
  have hfresh : s.replay.Fresh sender a.epoch envelope.senderSequence :=
    ReplayTracker.Trails.fresh hsynced h.fresh
  rw [hid] at hview
  unfold ChatSession.openMessage
  rw [hattuned.currentEpoch, hkey]
  dsimp only
  rw [if_neg (by simp [h.epoch]), h.senderId, hview]
  dsimp only
  rw [if_neg (by simpa using hfresh), hkeys, hattuned.roomSessionId, ← h.senderId]
  split at hopened
  · rename_i hopens
    rw [hopens]
    cases hopened
    rfl
  · cases hopened
  · cases hopened

/-! ### What the room takes -/

/-- The payload is one the room takes for a message of its type. -/
def takesPayload (messageType : UInt8) (plaintext : Bytes) : Bool :=
  if messageType = msgColor then
    match plaintext with
    | [index] => (ColorChoice.fromIndex index).isSome
    | _ => false
  else if messageType = msgTimeoutChanged then (timeoutSetting plaintext).toOption.isSome
  else
    match String.fromUTF8? ⟨plaintext.toArray⟩ with
    | none => false
    | some text => (validateChatText text Limits.default).toOption.isSome

/-- The rate limit and the payload let an envelope of `sender` through. -/
structure Passes (a : RoomActor) (sender : MemberId) (messageType : UInt8) (plaintext : Bytes) :
    Prop where
  allowed : messageType ≠ msgTimeoutChanged → (a.chargeRateLimit sender).2.1 = true
  payload : takesPayload messageType plaintext = true

/-- Whoever gets an envelope of one of these types is owed no introduction of its sender. -/
def Introduced (P : Primitives) (kinds : UInt8 → Prop) (a : RoomActor) (event : RoomEvent) : Prop :=
  ∀ connection sender messageType envelope plaintext,
    event = .chatReceived connection messageType envelope → kinds messageType →
      Relays P a connection sender messageType envelope plaintext →
        a.Passes sender messageType plaintext →
          ∀ m ∈ a.members.members, m.connection ≠ connection →
            ∀ message ∈ a.owed m.connection, sender ∉ message.introduces

theorem onPlaintext_takes {actions : List RoomAction}
    (hkind : messageType = msgChat ∨ messageType = msgColor ∨ messageType = msgTimeoutChanged)
    (h : (a.onPlaintext connection sender messageType envelope plaintext).2 = .ok actions) :
    takesPayload messageType plaintext = true := by
  have hrequest : ¬ messageType = msgTimeoutRequest := by
    obtain rfl | rfl | rfl := hkind <;> decide
  unfold onPlaintext at h
  unfold takesPayload
  rw [if_neg hrequest] at h
  split
  · rename_i hcolor
    rw [if_pos hcolor] at h
    repeat' split at h
    all_goals simp_all
  rename_i hcolor
  rw [if_neg hcolor] at h
  split
  · rename_i htimeout
    rw [if_pos htimeout] at h
    repeat' split at h
    all_goals simp_all [Except.toOption]
  rename_i htimeout
  rw [if_neg htimeout] at h
  repeat' split at h
  all_goals simp_all [Except.toOption]

theorem onRateLimited_ne_relay {abusive : Bool} {b : RoomActor} {message : Message} :
    (a.onRateLimited P rng connection sender abusive).2 ≠ .ok (b.relay connection message) := by
  have hnotice {actions : List RoomAction}
      (hmem : .notifyHost (.error "member exceeded the message rate limit") ∈ actions) :
      (.ok actions : Except RoomError (List RoomAction)) ≠ .ok (b.relay connection message) := by
    intro h
    rw [Except.ok.inj h] at hmem
    obtain ⟨_, -, heq⟩ := List.mem_map.mp hmem
    cases heq
  unfold onRateLimited
  split
  · exact nofun
  dsimp only
  split
  · split
    · exact nofun
    · exact hnotice (by simp)
    · exact hnotice (by simp)
  · exact hnotice (by simp)

/-- What the room relays has passed. -/
theorem Relays.passes {input : Input}
    (hevent : input.event = .chatReceived connection messageType envelope)
    (h : Relays P (a.clocked input.now) connection sender messageType envelope plaintext)
    (hresult : (a.handle P input).2 = .ok ((a.clocked input.now).relay connection
      (relayed messageType envelope))) :
        (a.clocked input.now).Passes sender messageType plaintext := by
  rw [handle_chat hevent] at hresult
  split at hresult
  · cases hresult
  split at hresult
  · rename_i hrefused
    have hacked := h.acked hrefused.1
    rw [show memberHasAckedPendingEpoch (a.clocked input.now) connection = _ from hrefused.2]
      at hacked
    cases hacked
  have hpayload {b : RoomActor}
      (hopened : b.chatPlaintext P sender messageType envelope = .ok plaintext)
      {actions : List RoomAction}
      (hresult : (b.onEnvelope P connection sender messageType envelope).2 = .ok actions) :
      takesPayload messageType plaintext = true := by
    unfold onEnvelope at hresult
    split at hresult
    · cases hresult
    split at hresult
    · cases hresult
    rw [hopened] at hresult
    exact onPlaintext_takes h.relayable hresult
  unfold onChatReceived at hresult
  split at hresult
  · cases hresult
  rw [h.known] at hresult
  dsimp only at hresult
  split at hresult
  · cases hresult
  split at hresult
  · cases hresult
  split at hresult
  · rename_i htimeout
    exact ⟨fun hne => absurd htimeout hne, hpayload h.opened hresult⟩
  split at hresult
  · rename_i hallowed
    exact ⟨fun _ => hallowed,
      hpayload (b := ((a.clocked input.now).chargeRateLimit sender).1) h.opened hresult⟩
  · exact absurd hresult onRateLimited_ne_relay

theorem relays?_relayed {messageType : UInt8} {envelope : EncryptedEnvelope}
    (h : messageType = msgChat ∨ messageType = msgColor ∨ messageType = msgTimeoutChanged) :
    (relayed messageType envelope).relays? = some (messageType, envelope) := by
  obtain rfl | rfl | rfl := h <;> rfl

/-- A move sends a member no envelope, or the one it relays. -/
theorem Move.sent_relays (hvalid : a.registry.Valid) (hheld : HoldsMembership a)
    (hmove : Move P rng a event a' result) (hn : n ∈ a.members.members) :
    (∀ message ∈ sentTo n.connection (actionsOf result), message.relays? = none) ∨
      ∃ connection sender messageType envelope plaintext,
        event = .chatReceived connection messageType envelope ∧
        Relays P a connection sender messageType envelope plaintext ∧ n.connection ≠ connection ∧
        result = .ok (a.relay connection (RoomActor.relayed messageType envelope)) ∧
        sentTo n.connection (actionsOf result) = [RoomActor.relayed messageType envelope] := by
  by_cases hsends : ∃ envelope, Sends result envelope
  · obtain ⟨envelope, hsends⟩ := hsends
    obtain ⟨connection, sender, messageType, plaintext, hevent, hrelays, -, -, rfl⟩ :=
      hmove.relay_inv hheld hsends
    by_cases hc : n.connection = connection
    · refine .inl fun message hmem => ?_
      obtain ⟨k, hk, heq⟩ := List.mem_map.mp (mem_sentTo.mp hmem)
      have hother := (List.mem_filter.mp hk).2
      rw [(RoomAction.sendTo.inj heq).1, hc] at hother
      simp at hother
    · refine .inr ⟨connection, sender, messageType, envelope, plaintext, hevent,
        hrelays, hc, rfl, ?_⟩
      apply sentTo_broadcast
      · exact hvalid.connections_nodup.sublist (List.filter_sublist.map _)
      · exact List.mem_filter.mpr ⟨hn, by simpa using hc⟩
  · refine .inl fun message hmem => ?_
    cases hrelays : message.relays? with
    | none => rfl
    | some relay =>
        refine absurd ⟨relay.2, _, mem_sentTo.mp hmem, ?_⟩ hsends
        exact Message.envelope?_of_relays? hrelays

section
variable {setup : Setup} {a₀ : RoomActor}

/-- Whoever was ever sent an envelope has a session. -/
theorem Run.relay_heard (law : P.Lawful) (hstart : Started P setup a₀ started)
    (hhost : identity setup.hostConnection = setup.hostClientIdentity)
    (run : Run P (Fair P identity) a₀ past a) {c : ConnectionId} {message : Message}
    (hsent : message ∈ sentTo c (emitted started past)) (hrelays : message.relays? ≠ none) :
    Seat.heard P setup a₀ identity started past c ≠ none := by
  induction run with
  | start =>
      rw [emitted_nil] at hsent
      obtain ⟨nickname, sessionId, token, key, wraps, hopening⟩ := hstart.opening
      rw [hopening.actions, sentTo_cons_notifyHost] at hsent
      have hwrap := isWrap_of_wrapAll hopening.begins.wrapped _ (mem_sentTo.mp hsent)
      cases message <;> cases hwrap
      exact absurd rfl hrelays
  | @step past a input run fair ih =>
      have orderly : Run P (Orderly P) a₀ past a := run.mono fun _ _ _ fair => fair.toOrderly
      have facts := Run.stepFacts law hstart orderly fair.toOrderly
      have hkept (hheard : Seat.heard P setup a₀ identity started past c ≠ none) :
          Seat.heard P setup a₀ identity started
            (⟨a, input, (a.handle P input).2, (a.handle P input).1⟩ :: past) c ≠ none := by
        obtain ⟨s, hs⟩ := Option.ne_none_iff_exists'.mp hheard
        rw [heard_cons, hs, foldl_receive_some]
        exact Option.some_ne_none _
      rw [emitted_cons, sentTo_append, List.mem_append] at hsent
      obtain hsent | hsent := hsent
      · exact hkept (ih hsent)
      · have hmem := mem_sentTo.mp hsent
        obtain ⟨⟨messageType, envelope⟩, hrelay⟩ := Option.ne_none_iff_exists'.mp hrelays
        obtain ⟨connection, sender, _, _, -, -, -, -, hresult⟩ :=
          Move.relay_inv (a := { a with now := input.now }) facts.held facts.effect.move
            ⟨_, hmem, Message.envelope?_of_relays? hrelay⟩
        obtain hclosed | hsessions := Run.attuned law hstart hhost run
        · rw [handle_destroyed hclosed] at hresult
          cases hresult
        · dsimp only at hmem
          rw [show (a.handle P input).2 = _ from hresult] at hmem
          obtain ⟨n, hn, heq⟩ := List.mem_map.mp hmem
          obtain ⟨s, hs, -⟩ := hsessions n (List.mem_filter.mp hn).1
          cases heq
          exact hkept (by rw [hs]; exact Option.some_ne_none _)

end

/-- A telling environment in which nobody is sent an envelope of one of these types before the
news of its sender. -/
structure Introducing (P : Primitives) (identity : ConnectionId → MemberIdentity)
    (kinds : UInt8 → Prop) (past : Past) (a : RoomActor) (input : Input) : Prop
    extends Telling P identity past a input where
  introduced : (a.clocked input.now).Introduced P kinds input.event

theorem introduced_of_settled {kinds : UInt8 → Prop}
    (h : a.pendingMembership = [] ∨ event.sequence? = none) :
    a.Introduced P kinds event := by
  rintro connection sender messageType envelope plaintext rfl - - - m - - message hmessage
  rw [owed_nil (h.resolve_right nofun)] at hmessage
  cases hmessage

end RoomActor

end Veilroom
