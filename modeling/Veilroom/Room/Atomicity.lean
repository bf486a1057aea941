import Veilroom.Room.Scripts

/-!
Error atomicity of the room actor.

A transition fails only if the generator, the AEAD or a member's channel key
does. In an honest run every member and every queued request has a derivable
channel key (`Keyed`), so no transition fails and an error leaves no trace but
in the clock, a rate-limit bucket and the replay tracker.
-/
namespace Veilroom
namespace RoomActor
variable {P : Primitives} {rng : Rng} {a a' b : RoomActor} {event : RoomEvent}
variable {result : Except RoomError (List RoomAction)}

/-! ### Channel keys -/

/-- Whether the host has a channel key for the owner of `pubkey`, under any member id. -/
def Derivable (P : Primitives) (a : RoomActor) (pubkey : Key) : Prop :=
  ∀ memberId, ∃ key, a.hostIdentity.tryWrapKeyFor P pubkey a.sessionId memberId = .ok key

/-- Every member and every queued application has a channel key. -/
structure Keyed (P : Primitives) (a : RoomActor) : Prop where
  members : ∀ m ∈ a.members.members, Derivable P a m.x25519Pubkey
  requests : ∀ q ∈ a.requests.requests, Derivable P a q.application.x25519Pubkey

theorem derivable_of_one {pubkey : Key} {memberId : MemberId} {key : MemberWrapKey}
    (h : a.hostIdentity.tryWrapKeyFor P pubkey a.sessionId memberId = .ok key) :
    Derivable P a pubkey := fun id =>
  (tryWrapKeyFor_isOk_iff P a.hostIdentity pubkey a.sessionId id).mpr
    ((tryWrapKeyFor_isOk_iff P a.hostIdentity pubkey a.sessionId memberId).mp ⟨key, h⟩)

theorem Derivable.congr (h : SameRoom a b) {pubkey : Key} (k : Derivable P a pubkey) :
    Derivable P b pubkey := by
  rw [Derivable, h.hostIdentity, h.sessionId]
  exact k

/-! ### Transitions that cannot fail -/

theorem wrapFor_succeeds (law : P.Lawful) (hrng : rng.Succeeds) (a : RoomActor) (key : Key)
    (i : Nat) {m : Member} (hkey : Derivable P a m.x25519Pubkey) :
    ∃ action, a.wrapFor P rng key i m = .ok action := by
  obtain ⟨wrapKey, hwrapKey⟩ := hkey m.memberId
  obtain ⟨nonce, hnonce⟩ := hrng.nonce i
  obtain ⟨ciphertext, hciphertext⟩ := law.encrypt_succeeds wrapKey.bytes nonce
    (epochAad a.epoch a.sessionId) key.toList (by simp)
  have hlength := law.encrypt_length _ _ _ _ _ hciphertext
  unfold wrapFor
  simp only [hwrapKey, hnonce, wrapEpochKey, hciphertext, EpochWrap.new]
  rw [if_neg (by simp [hlength, epochWrapCiphertextLen, epochKeyLen])]
  exact ⟨_, rfl⟩

theorem wrapAll_succeeds (law : P.Lawful) (hrng : rng.Succeeds) (a : RoomActor) (key : Key)
    (members : List Member) (hkeys : ∀ m ∈ members, Derivable P a m.x25519Pubkey) (i : Nat) :
    ∃ wraps, a.wrapAll P rng key i members = .ok wraps := by
  induction members generalizing i with
  | nil => exact ⟨[], rfl⟩
  | cons m rest ih =>
      obtain ⟨wrap, hwrap⟩ := wrapFor_succeeds law hrng a key i (hkeys m (.head _))
      obtain ⟨wraps, hwraps⟩ := ih (fun n hn => hkeys n (.tail _ hn)) (i + 1)
      exact ⟨wrap :: wraps, by simp only [wrapAll, hwrap, hwraps]⟩

theorem beginEpochTransition_succeeds (law : P.Lawful) (hrng : rng.Succeeds)
    (hkeys : ∀ m ∈ b.members.members, Derivable P b m.x25519Pubkey) :
    ∃ wraps, (b.beginEpochTransition P rng).2 = .ok wraps := by
  obtain ⟨key, hkey⟩ := hrng.epochKey
  obtain ⟨wraps, hwraps⟩ := wrapAll_succeeds law hrng b.advanceEpoch key
    b.members.members hkeys 0
  refine ⟨wraps, ?_⟩
  unfold beginEpochTransition
  rw [hkey]
  dsimp only
  rw [show b.advanceEpoch.members.members = b.members.members from rfl, hwraps]

/-- The members a transition of a keyed room may have to wrap for are keyed. -/
theorem Keyed.tabled (h : Keyed P a) (htabled : Tabled a b)
    (hmembers : ∀ m ∈ b.members.members, m ∈ a.members.members ∨
      ∃ q ∈ a.requests.requests, m.x25519Pubkey = q.application.x25519Pubkey) :
    ∀ m ∈ b.members.members, Derivable P b m.x25519Pubkey := by
  intro m hm
  obtain hm | ⟨q, hq, heq⟩ := hmembers m hm
  · exact (h.members m hm).congr htabled.toSameRoom
  · rw [heq]
    exact (h.requests q hq).congr htabled.toSameRoom

/-- No transition that a move of `a` may attempt fails. -/
def NoFault (P : Primitives) (rng : Rng) (a : RoomActor) : Prop :=
  ∀ b error, Tabled a b →
    (∀ m ∈ b.members.members, m ∈ a.members.members ∨
      ∃ q ∈ a.requests.requests, m.x25519Pubkey = q.application.x25519Pubkey) →
    (b.beginEpochTransition P rng).2 ≠ .error error

/-- No transition fails in a keyed room while the generator works. -/
theorem Keyed.noFault (law : P.Lawful) (hrng : rng.Succeeds) (h : Keyed P a) :
    NoFault P rng a := by
  intro b error htabled hmembers
  obtain ⟨wraps, hwraps⟩ := beginEpochTransition_succeeds law hrng (h.tabled htabled hmembers)
  rw [hwraps]
  nofun

/-! ### Steps and runs -/

/-- A member after a move was one before, but for its color, or its request was just accepted
and its first epoch is the one that begins. -/
theorem Move.member_inv (h : Move P rng a event a' result) (hnofault : NoFault P rng a) :
    ∀ m' ∈ a'.members.members, (∃ m ∈ a.members.members, m.uncolored = m'.uncolored) ∨
      ∃ q ∈ a.requests.requests, m'.connection = q.connection ∧
        m'.x25519Pubkey = q.application.x25519Pubkey ∧ m'.joinedEpoch = a.epoch + 1 := by
  intro m' hm'
  have hsame (hm' : m' ∈ a.members.members) :
      ∃ m ∈ a.members.members, m.uncolored = m'.uncolored := ⟨m', hm', rfl⟩
  cases h with
  | refused | acked | activated | closed => exact .inl (hsame hm')
  | failed htabled hmembers hfail => exact absurd hfail (hnofault _ _ htabled hmembers)
  | quiet still => exact .inl (exists_uncolored_of_mem still.members hm')
  | relayed _ _ still => exact .inl (exists_uncolored_of_mem still.members hm')
  | policySet _ _ _ _ hmembers =>
      refine .inl (hsame ?_)
      rw [← hmembers]
      exact hm'
  | @joined b _ _ _ _ _ _ hrequest hmember hmembers =>
      have hm' : m' ∈ b.members.members := hm'
      rw [hmembers] at hm'
      obtain hm' | hm' := List.mem_append.mp hm'
      · exact .inl (hsame hm')
      · refine .inr ⟨_, hrequest, ?_⟩
        rw [List.mem_singleton.mp hm', hmember]
        exact ⟨rfl, rfl, rfl⟩
  | departed gone _ _ _ _ _ _ _ hmembers =>
      rw [members_queueMembersGone, members_rotated, hmembers] at hm'
      exact .inl (hsame (List.mem_filter.mp hm').1)

/-- A step of an honest environment keeps the room keyed. -/
theorem Keyed.step (law : P.Lawful) (h : Keyed P a) (hvalid : a.registry.Valid) {past : Past}
    {input : Input} (honest : Honest P past a input) : Keyed P (a.handle P input).1 := by
  have heffect := handleEventAt_effect P input.rng hvalid input.event input.now
  have hsame : SameRoom { a with now := input.now } (a.handle P input).1 := heffect.move.sameRoom
  have hderivable {pubkey : Key} (hkey : Derivable P a pubkey) :
      Derivable P (a.handle P input).1 pubkey :=
    Derivable.congr (a := { a with now := input.now }) hsame hkey
  constructor
  · intro m' hm'
    have hnofault := Keyed.noFault law honest.succeeds (a := { a with now := input.now })
      ⟨h.members, h.requests⟩
    obtain ⟨m, hm, heq⟩ | ⟨q, hq, -, hx, -⟩ := heffect.move.member_inv hnofault m' hm'
    · rw [← Member.x25519Pubkey_congr heq]
      exact hderivable (h.members m hm)
    · rw [hx]
      exact hderivable (h.requests q hq)
  · intro q hq
    obtain hnew | hold := heffect.step.queued q hq
    · have hevent : ∃ connection, input.event = .joinRequested connection q.application := by
        cases hinput : input.event with
        | joinRequested connection application =>
            rw [hinput] at hnew
            cases hnew
            exact ⟨connection, rfl⟩
        | _ => rw [hinput] at hnew; cases hnew
      obtain ⟨connection, hevent⟩ := hevent
      exact hderivable (honest.released connection q.application hevent).tryWrapKeyFor
    · exact hderivable (h.requests q hold)

section
variable {setup : Setup} {a₀ : RoomActor} {actions : List RoomAction} {past : Past}

/-- The host's own channel key was derived when the room started. -/
theorem Started.keyed (law : P.Lawful) (h : Started P setup a₀ actions) : Keyed P a₀ := by
  obtain ⟨nickname, sessionId, token, key, wraps, hopening⟩ := h.opening
  rw [hopening.actor]
  refine ⟨fun m hm => ?_, fun q hq => nomatch hq⟩
  obtain ⟨_, -, wrap, -, hwrap⟩ := (hopening.begins.wraps law).of_mem hm
  obtain ⟨wrapKey, hwrapKey, -⟩ := hwrap.opens
  exact derivable_of_one hwrapKey

/-- An honest run stays keyed. -/
theorem Run.keyed (law : P.Lawful) (hkeyed : Keyed P a₀) (hvalid : a₀.registry.Valid)
    (run : Run P (Honest P) a₀ past a) : Keyed P a :=
  run.invariant (fun _ a => Keyed P a) hkeyed fun _ _ _ run h honest =>
    h.step law (Run.valid hvalid run) honest

/-- What an error may leave behind: the clock, a rate-limit bucket and the replay tracker. -/
def Unchanged (a a' : RoomActor) : Prop :=
  ∃ now rateLimits chatReplay, a' = { a with now, rateLimits, chatReplay }

/-- An error of a keyed room leaves no trace. -/
theorem Keyed.unchanged (law : P.Lawful) (hrng : rng.Succeeds) (h : Keyed P a)
    (hvalid : a.registry.Valid) {now : Duration} {error : RoomError}
    (herror : (a.handleEventAt P rng event now).2 = .error error) :
    Unchanged a (a.handleEventAt P rng event now).1 := by
  have hmove := (handleEventAt_effect P rng hvalid event now).move
  generalize a.handleEventAt P rng event now = outcome at hmove herror
  obtain ⟨a', result⟩ := outcome
  dsimp only at hmove herror ⊢
  cases hmove with
  | refused rateLimits => exact ⟨now, rateLimits, _, rfl⟩
  | failed tabled hmembers hfailed =>
      have hkeyed : Keyed P { a with now } := ⟨h.members, h.requests⟩
      exact absurd hfailed (hkeyed.noFault law hrng _ _ tabled hmembers)
  | quiet | relayed | policySet | acked | activated | joined | departed | closed => cases herror

/-- A refused event changes nothing, every queued application has a channel key under every id,
and no transition fails once a member was removed or a request admitted. -/
structure ErrorAtomic (P : Primitives) (a : RoomActor) : Prop where
  unchanged : ∀ (input : Input) (error : RoomError), input.rng.Succeeds →
    (a.handle P input).2 = .error error → Unchanged a (a.handle P input).1
  derivable : ∀ q ∈ a.requests.requests, Derivable P a q.application.x25519Pubkey
  begins : ∀ (rng : Rng) (b : RoomActor), rng.Succeeds → Tabled a b →
    (∀ m ∈ b.members.members, m ∈ a.members.members ∨
      ∃ q ∈ a.requests.requests, m.x25519Pubkey = q.application.x25519Pubkey) →
    ∃ wraps, (b.beginEpochTransition P rng).2 = .ok wraps

theorem error_atomicity (law : P.Lawful) (hstart : Started P setup a₀ actions)
    (run : Run P (Honest P) a₀ past a) : ErrorAtomic P a := by
  have hkeyed := Run.keyed law (hstart.keyed law) hstart.valid run
  have hvalid := Run.valid hstart.valid run
  refine ⟨fun input error hrng herror => ?_, hkeyed.requests, fun rng b hrng htabled hmembers => ?_⟩
  · exact hkeyed.unchanged law hrng hvalid herror
  · exact beginEpochTransition_succeeds law hrng (hkeyed.tabled htabled hmembers)

theorem error_atomicity_visit : ErrorAtomic Symbolic.primitives Symbolic.visited.2 :=
  error_atomicity Symbolic.lawful Symbolic.room_started (honest_of_orderly Symbolic.visit_orderly)

end

end RoomActor

end Veilroom
