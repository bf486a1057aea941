import Veilroom.Validation
import Veilroom.Crypto.Symbolic
import Veilroom.Library.KeyedList

/-!
The tables the room actor owns: active members (`room/member.rs`), known
connections (`room/connections.rs`) and pending join requests
(`admission/queue.rs`).

The hash map of connections is an association list without repeated keys; no
result depends on its iteration order.
-/
namespace Veilroom

/-! ### Members -/

structure Member where
  memberId : MemberId
  connection : ConnectionId
  nickname : String
  color : ColorChoice
  isHost : Bool
  ed25519Pubkey : Key
  x25519Pubkey : Key
  joinedEpoch : Nat
deriving DecidableEq

structure MemberInfo where
  memberId : MemberId
  nickname : String
  color : ColorChoice
  isHost : Bool
deriving DecidableEq

/-- `member.color = color`. -/
def Member.withColor (color : ColorChoice) (m : Member) : Member := { m with color := color }

/-- A member but for its color. -/
def Member.uncolored (m : Member) : Member := m.withColor default

/-- Members that agree but for their color. -/
theorem Member.memberId_congr {m n : Member} (h : m.uncolored = n.uncolored) :
    m.memberId = n.memberId :=
  show m.uncolored.memberId = n.uncolored.memberId by rw [h]

theorem Member.connection_congr {m n : Member} (h : m.uncolored = n.uncolored) :
    m.connection = n.connection :=
  show m.uncolored.connection = n.uncolored.connection by rw [h]

theorem Member.x25519Pubkey_congr {m n : Member} (h : m.uncolored = n.uncolored) :
    m.x25519Pubkey = n.x25519Pubkey :=
  show m.uncolored.x25519Pubkey = n.uncolored.x25519Pubkey by rw [h]

theorem Member.joinedEpoch_congr {m n : Member} (h : m.uncolored = n.uncolored) :
    m.joinedEpoch = n.joinedEpoch :=
  show m.uncolored.joinedEpoch = n.uncolored.joinedEpoch by rw [h]

/-- `MemberInfo::from`. -/
def Member.info (m : Member) : MemberInfo := ⟨m.memberId, m.nickname, m.color, m.isHost⟩

inductive MemberError
  | full (max : Nat)
  | nicknameTaken (nickname : String)
  | connectionTaken (connection : ConnectionId)
  | identityTaken
  | unknownId (id : MemberId)
deriving DecidableEq, Repr

def MemberError.toString : MemberError → String
  | .full max => s!"the room is full (maximum {max} members)"
  | .nicknameTaken nickname => "nickname `" ++ nickname ++ "` is already in use"
  | .connectionTaken connection => s!"connection {connection} is already active"
  | .identityTaken => "the ephemeral member identity is already active"
  | .unknownId id => s!"no member with id {id}"

structure MemberTable where
  limit : Nat
  nextId : Nat
  members : List Member
deriving DecidableEq

namespace MemberTable

/-- `MemberTable::new`. -/
def new (limits : Limits) : MemberTable := ⟨limits.maxActiveMembers, 1, []⟩

def isFull (t : MemberTable) : Bool := t.limit ≤ t.members.length

/-- `MemberTable::add_host`. -/
def addHost (t : MemberTable) (connection : ConnectionId) (nickname : String)
    (ed25519Pubkey x25519Pubkey : Key) : MemberTable :=
  { t with members := t.members ++
      [⟨0, connection, nickname, default, true, ed25519Pubkey, x25519Pubkey, 1⟩] }

/-- `MemberTable::by_id`. -/
def byId (t : MemberTable) (id : MemberId) : Option Member :=
  t.members.find? fun m => m.memberId = id

/-- `MemberTable::by_nickname`. -/
def byNickname (t : MemberTable) (nickname : String) : Option Member :=
  t.members.find? fun m => m.nickname = nickname

/-- `MemberTable::by_connection`. -/
def byConnection (t : MemberTable) (connection : ConnectionId) : Option Member :=
  t.members.find? fun m => m.connection = connection

def nicknameTaken (t : MemberTable) (nickname : String) : Bool :=
  t.members.any fun m => m.nickname = nickname

/-- `MemberTable::add`. -/
def add (t : MemberTable) (connection : ConnectionId) (nickname : String)
    (ed25519Pubkey x25519Pubkey : Key) (epoch : Nat) : MemberTable × Except MemberError Member :=
  if t.isFull then (t, .error (.full t.limit))
  else if t.nicknameTaken nickname then (t, .error (.nicknameTaken nickname))
  else if (t.byConnection connection).isSome then (t, .error (.connectionTaken connection))
  else if t.members.any fun m => m.ed25519Pubkey = ed25519Pubkey || m.x25519Pubkey = x25519Pubkey
  then (t, .error .identityTaken)
  else
    let member : Member :=
      ⟨t.nextId, connection, nickname, default, false, ed25519Pubkey, x25519Pubkey, epoch⟩
    ({ t with nextId := t.nextId + 1, members := t.members ++ [member] }, .ok member)

/-- `MemberTable::remove`: the first member with the id, and the table without it. -/
def remove (t : MemberTable) (id : MemberId) : MemberTable × Option Member :=
  match t.byId id with
  | none => (t, none)
  | some m => ({ t with members := t.members.eraseP fun m => m.memberId = id }, some m)

/-- `by_id_mut(id).color = color`. -/
def setColor (t : MemberTable) (id : MemberId) (color : ColorChoice) : MemberTable :=
  { t with members := t.members.modifyFirst (fun m => m.memberId = id) (Member.withColor color) }

/-- A color change touches nothing but colors. -/
theorem map_uncolored_setColor (t : MemberTable) (id : MemberId) (color : ColorChoice) :
    (t.setColor id color).members.map Member.uncolored = t.members.map Member.uncolored :=
  List.map_modifyFirst _ (Member.withColor color) _ (fun _ => rfl) _

theorem mem_setColor {t : MemberTable} {id : MemberId} {color : ColorChoice} {m : Member}
    (h : m ∈ (t.setColor id color).members) : ∃ n ∈ t.members, m = n.withColor m.color := by
  obtain h | ⟨n, hn, rfl⟩ := List.mem_modifyFirst h
  · exact ⟨m, h, rfl⟩
  · exact ⟨n, hn, rfl⟩

theorem nicknameTaken_of_add {t t' : MemberTable} {connection : ConnectionId} {nickname : String}
    {ed x : Key} {epoch : Nat} {member : Member}
    (h : t.add connection nickname ed x epoch = (t', .ok member)) :
    t'.nicknameTaken nickname = true := by
  unfold add at h
  repeat' split at h
  all_goals cases h
  simp [nicknameTaken]

/-- A nickname in the table is refused to everyone else, unless the table is full anyway. -/
theorem add_of_nicknameTaken {t : MemberTable} {nickname : String}
    (h : t.nicknameTaken nickname = true) (connection : ConnectionId) (ed x : Key) (epoch : Nat) :
    t.add connection nickname ed x epoch = (t, .error (.full t.limit)) ∨
      t.add connection nickname ed x epoch = (t, .error (.nicknameTaken nickname)) := by
  by_cases hfull : t.isFull = true
  · exact .inl (by simp only [add, hfull, if_true])
  · exact .inr (by simp [add, hfull, h])

/-- What `validate_nickname` returns is in normal form: it passes again, under any limits only
as itself, and two inputs with the same normal form collide in the table. -/
theorem nickname_normal_form {P : Primitives} {limits : Limits} {input nickname : String}
    (hnfc : ∀ text, P.nfc (P.nfc text) = P.nfc text) (hpieces : NfcPiecewise P)
    (h : validateNickname P input limits = .ok nickname) :
    validateNickname P nickname limits = .ok nickname ∧ NicknameForm limits nickname ∧
      (∀ limits' again, validateNickname P nickname limits' = .ok again → again = nickname) ∧
      ∀ other, validateNickname P other limits = .ok nickname →
        ∀ (t t' : MemberTable) connection ed x epoch member,
          t.add connection nickname ed x epoch = (t', .ok member) →
            ∀ connection' ed' x' epoch',
              t'.add connection' nickname ed' x' epoch' = (t', .error (.full t'.limit)) ∨
              t'.add connection' nickname ed' x' epoch' =
                (t', .error (.nicknameTaken nickname)) := by
  have hform := validateNickname_iff.mp h
  have hfixed := hform.nfc_eq hnfc hpieces
  have hagain := hform.again hfixed
  refine ⟨validateNickname_iff.mpr hagain, hform.form, ?_, ?_⟩
  · intro limits' again hother
    have hcollapsed := (validateNickname_iff.mp hother).collapsed
    rw [← hagain.collapsed] at hcollapsed
    exact String.toList_inj.mp hcollapsed
  · intro other _ t t' connection ed x epoch member hadd connection' ed' x' epoch'
    exact add_of_nicknameTaken (nicknameTaken_of_add hadd) connection' ed' x' epoch'

/-- Two spellings of one nickname. -/
theorem nickname_normal_form_guest :
    validateNickname Symbolic.primitives "guest one" .default = .ok "guest one" ∧
      NicknameForm .default "guest one" ∧
      (∀ limits' again,
        validateNickname Symbolic.primitives "guest one" limits' = .ok again →
          again = "guest one") ∧
      ∀ (t t' : MemberTable) connection ed x epoch member,
        t.add connection "guest one" ed x epoch = (t', .ok member) →
          ∀ connection' ed' x' epoch',
            t'.add connection' "guest one" ed' x' epoch' = (t', .error (.full t'.limit)) ∨
            t'.add connection' "guest one" ed' x' epoch' =
              (t', .error (.nicknameTaken "guest one")) := by
  have hnfc : ∀ text, Symbolic.primitives.nfc (Symbolic.primitives.nfc text) =
      Symbolic.primitives.nfc text := fun _ => rfl
  have hpieces : NfcPiecewise Symbolic.primitives := fun text => (List.map_id _).symm
  have hfirst : validateNickname Symbolic.primitives " guest  one" .default = .ok "guest one" := by
    decide +kernel
  have hsecond : validateNickname Symbolic.primitives "guest one " .default = .ok "guest one" := by
    decide +kernel
  obtain ⟨hagain, hform, hany, hcollide⟩ := nickname_normal_form hnfc hpieces hfirst
  exact ⟨hagain, hform, hany, hcollide "guest one " hsecond⟩

end MemberTable

/-- Tables that agree but for colors hold the same members but for colors. -/
theorem exists_uncolored_of_mem {l k : List Member}
    (h : l.map Member.uncolored = k.map Member.uncolored) {m : Member} (hm : m ∈ l) :
    ∃ n ∈ k, n.uncolored = m.uncolored := by
  rw [← List.mem_map, ← h]
  exact List.mem_map_of_mem hm

/-! ### Connections -/

inductive ConnectionRole
  | admission
  | pending (requestId : RequestId)
  | member (memberId : MemberId)
deriving DecidableEq, Repr

structure ConnectionEntry where
  id : ConnectionId
  passwordVerified : Bool
  role : ConnectionRole
deriving DecidableEq, Repr

structure Connections where
  entries : AList fun _ : ConnectionId => ConnectionEntry

namespace Connections

def new : Connections := ⟨∅⟩

/-- `Connections::get`. -/
def get (cs : Connections) (id : ConnectionId) : Option ConnectionEntry := cs.entries.lookup id

/-- `Connections::register`. -/
def register (cs : Connections) (id : ConnectionId) : Connections :=
  match cs.get id with
  | some _ => cs
  | none => ⟨cs.entries.insert id ⟨id, false, .admission⟩⟩

/-- Writes through `entries.get_mut(&id)?`. -/
def update (cs : Connections) (id : ConnectionId) (f : ConnectionEntry → ConnectionEntry) :
    Connections × Option Unit :=
  match cs.get id with
  | none => (cs, none)
  | some entry => (⟨cs.entries.insert id (f entry)⟩, some ())

/-- `Connections::mark_password_verified`. -/
def markPasswordVerified (cs : Connections) (id : ConnectionId) : Connections × Option Unit :=
  cs.update id fun entry => { entry with passwordVerified := true }

/-- `Connections::attach_request`. -/
def attachRequest (cs : Connections) (id : ConnectionId) (requestId : RequestId) :
    Connections × Option Unit :=
  cs.update id fun entry => { entry with role := .pending requestId }

/-- `Connections::promote`. -/
def promote (cs : Connections) (id : ConnectionId) (memberId : MemberId) :
    Connections × Option Unit :=
  cs.update id fun entry => { entry with role := .member memberId }

/-- `Connections::request_id`. -/
def requestId (cs : Connections) (id : ConnectionId) : Option RequestId :=
  match cs.get id with
  | some ⟨_, _, .pending requestId⟩ => some requestId
  | _ => none

/-- `Connections::member_id`. -/
def memberId (cs : Connections) (id : ConnectionId) : Option MemberId :=
  match cs.get id with
  | some ⟨_, _, .member memberId⟩ => some memberId
  | _ => none

/-- `Connections::remove`. -/
def remove (cs : Connections) (id : ConnectionId) : Connections := ⟨cs.entries.erase id⟩

/-- `Connections::ids`. -/
def ids (cs : Connections) : List ConnectionId := cs.entries.keys

/-- `Connections::non_member_ids`. -/
def nonMemberIds (cs : Connections) : List ConnectionId :=
  (cs.entries.entries.filter fun entry =>
    match entry.2.role with
    | .member _ => false
    | _ => true).map Sigma.fst

@[simp] theorem get_new (id : ConnectionId) : new.get id = none := rfl

theorem get_register (cs : Connections) (id c : ConnectionId) :
    (cs.register id).get c =
      if c = id then some ((cs.get id).getD ⟨id, false, .admission⟩) else cs.get c := by
  unfold register
  cases hget : cs.get id with
  | some entry =>
      by_cases h : c = id
      · simp [h, hget]
      · simp [h]
  | none =>
      by_cases h : c = id
      · subst h
        simp [get]
      · simp [get, h]

theorem get_update (cs : Connections) (id c : ConnectionId)
    (f : ConnectionEntry → ConnectionEntry) :
    (cs.update id f).1.get c = if c = id then (cs.get id).map f else cs.get c := by
  unfold update
  cases hget : cs.get id with
  | none =>
      by_cases h : c = id
      · simp [h, hget]
      · simp [h]
  | some entry =>
      by_cases h : c = id
      · subst h
        simp [get]
      · simp [get, h]

@[simp] theorem get_remove (cs : Connections) (id c : ConnectionId) :
    (cs.remove id).get c = if c = id then none else cs.get c := by
  by_cases h : c = id
  · subst h
    simp [get, remove]
  · simp [get, remove, h]

theorem mem_ids {cs : Connections} {c : ConnectionId} :
    c ∈ cs.ids ↔ ∃ entry, cs.get c = some entry := by
  rw [ids, ← AList.mem_keys, ← AList.lookup_isSome, Option.isSome_iff_exists]
  rfl

theorem mem_nonMemberIds {cs : Connections} {c : ConnectionId} :
    c ∈ cs.nonMemberIds ↔ ∃ entry, cs.get c = some entry ∧ ∀ id, entry.role ≠ .member id := by
  simp only [nonMemberIds, List.mem_map, List.mem_filter]
  constructor
  · rintro ⟨⟨key, entry⟩, ⟨hmem, hrole⟩, rfl⟩
    refine ⟨entry, ?_, ?_⟩
    · exact AList.mem_lookup_iff.mpr hmem
    · intro id hid
      simp [hid] at hrole
  · rintro ⟨entry, hget, hrole⟩
    refine ⟨⟨c, entry⟩, ⟨AList.mem_lookup_iff.mp hget, ?_⟩, rfl⟩
    cases hentry : entry.role with
    | member id => exact absurd hentry (hrole id)
    | admission | pending _ => rfl

theorem memberId_eq_some {cs : Connections} {c : ConnectionId} {id : MemberId} :
    cs.memberId c = some id ↔ ∃ entry, cs.get c = some entry ∧ entry.role = .member id := by
  unfold memberId
  split
  · rename_i hget
    simp [hget]
  · rename_i hother
    constructor
    · intro h; cases h
    · rintro ⟨⟨key, verified, role⟩, hget, hrole⟩
      exact absurd hget (by simpa [show role = .member id from hrole] using hother key verified id)

theorem requestId_eq_some {cs : Connections} {c : ConnectionId} {id : RequestId} :
    cs.requestId c = some id ↔ ∃ entry, cs.get c = some entry ∧ entry.role = .pending id := by
  unfold requestId
  split
  · rename_i hget
    simp [hget]
  · rename_i hother
    constructor
    · intro h; cases h
    · rintro ⟨⟨key, verified, role⟩, hget, hrole⟩
      exact absurd hget (by simpa [show role = .pending id from hrole] using hother key verified id)

theorem memberId_eq_bind (cs : Connections) (c : ConnectionId) :
    cs.memberId c = (cs.get c).bind fun entry =>
      match entry.role with
      | .member id => some id
      | _ => none := by
  unfold memberId
  cases hget : cs.get c with
  | none => rfl
  | some entry =>
      obtain ⟨key, verified, role⟩ := entry
      cases role <;> rfl

theorem requestId_eq_bind (cs : Connections) (c : ConnectionId) :
    cs.requestId c = (cs.get c).bind fun entry =>
      match entry.role with
      | .pending id => some id
      | _ => none := by
  unfold requestId
  cases hget : cs.get c with
  | none => rfl
  | some entry =>
      obtain ⟨key, verified, role⟩ := entry
      cases role <;> rfl

/-! The member and the request of each connection after each operation. -/

@[simp] theorem memberId_register (cs : Connections) (id c : ConnectionId) :
    (cs.register id).memberId c = cs.memberId c := by
  simp only [memberId_eq_bind, get_register]
  by_cases h : c = id
  · subst h
    cases hget : cs.get c <;> simp
  · simp [h]

@[simp] theorem requestId_register (cs : Connections) (id c : ConnectionId) :
    (cs.register id).requestId c = cs.requestId c := by
  simp only [requestId_eq_bind, get_register]
  by_cases h : c = id
  · subst h
    cases hget : cs.get c <;> simp
  · simp [h]

@[simp] theorem memberId_markPasswordVerified (cs : Connections) (id c : ConnectionId) :
    (cs.markPasswordVerified id).1.memberId c = cs.memberId c := by
  simp only [memberId_eq_bind, markPasswordVerified, get_update]
  by_cases h : c = id
  · subst h
    cases hget : cs.get c <;> simp
  · simp [h]

@[simp] theorem requestId_markPasswordVerified (cs : Connections) (id c : ConnectionId) :
    (cs.markPasswordVerified id).1.requestId c = cs.requestId c := by
  simp only [requestId_eq_bind, markPasswordVerified, get_update]
  by_cases h : c = id
  · subst h
    cases hget : cs.get c <;> simp
  · simp [h]

@[simp] theorem memberId_remove (cs : Connections) (id c : ConnectionId) :
    (cs.remove id).memberId c = if c = id then none else cs.memberId c := by
  simp only [memberId_eq_bind, get_remove]
  by_cases h : c = id <;> simp [h]

@[simp] theorem requestId_remove (cs : Connections) (id c : ConnectionId) :
    (cs.remove id).requestId c = if c = id then none else cs.requestId c := by
  simp only [requestId_eq_bind, get_remove]
  by_cases h : c = id <;> simp [h]

theorem memberId_attachRequest {cs : Connections} {id : ConnectionId} {entry : ConnectionEntry}
    (hget : cs.get id = some entry) (requestId : RequestId) (c : ConnectionId) :
    (cs.attachRequest id requestId).1.memberId c =
      if c = id then none else cs.memberId c := by
  simp only [memberId_eq_bind, attachRequest, get_update, hget]
  by_cases h : c = id <;> simp [h]

theorem requestId_attachRequest {cs : Connections} {id : ConnectionId} {entry : ConnectionEntry}
    (hget : cs.get id = some entry) (request : RequestId) (c : ConnectionId) :
    (cs.attachRequest id request).1.requestId c =
      if c = id then some request else cs.requestId c := by
  simp only [requestId_eq_bind, attachRequest, get_update, hget]
  by_cases h : c = id <;> simp [h]

theorem memberId_promote {cs : Connections} {id : ConnectionId} {entry : ConnectionEntry}
    (hget : cs.get id = some entry) (memberId' : MemberId) (c : ConnectionId) :
    (cs.promote id memberId').1.memberId c = if c = id then some memberId' else cs.memberId c := by
  simp only [memberId_eq_bind, promote, get_update, hget]
  by_cases h : c = id <;> simp [h]

theorem requestId_promote {cs : Connections} {id : ConnectionId} {entry : ConnectionEntry}
    (hget : cs.get id = some entry) (memberId : MemberId) (c : ConnectionId) :
    (cs.promote id memberId).1.requestId c = if c = id then none else cs.requestId c := by
  simp only [requestId_eq_bind, promote, get_update, hget]
  by_cases h : c = id <;> simp [h]

theorem get_register_self (cs : Connections) (id : ConnectionId) :
    ∃ entry, (cs.register id).get id = some entry := by
  simp [get_register]

/-- Removing connections one after another removes exactly these. -/
theorem get_foldl_remove (removed : List ConnectionId) (cs : Connections) (c : ConnectionId) :
    (removed.foldl remove cs).get c = if c ∈ removed then none else cs.get c := by
  induction removed generalizing cs with
  | nil => simp
  | cons id rest ih =>
      rw [List.foldl_cons, ih, get_remove]
      by_cases hrest : c ∈ rest
      · simp [hrest]
      · by_cases h : c = id <;> simp [h, hrest]

end Connections

/-! ### Join requests -/

structure JoinApplication where
  nickname : String
  introduction : Option String
  ed25519Pubkey : Key
  x25519Pubkey : Key
  signature : Signature
deriving DecidableEq

structure JoinRequest where
  id : RequestId
  connection : ConnectionId
  application : JoinApplication
deriving DecidableEq

inductive QueueError
  | full (max : Nat)
  | unknown (id : RequestId)
deriving DecidableEq, Repr

def QueueError.toString : QueueError → String
  | .full max => s!"the join-request queue is full (maximum {max})"
  | .unknown id => s!"no pending join request with id {id}"

structure JoinRequestQueue where
  limit : Nat
  nextId : Nat
  requests : List JoinRequest
deriving DecidableEq

namespace JoinRequestQueue

/-- `JoinRequestQueue::new`. -/
def new (limits : Limits) : JoinRequestQueue := ⟨limits.maxPendingRequests, 0, []⟩

/-- `JoinRequestQueue::allocate_id`. -/
def allocateId (q : JoinRequestQueue) : JoinRequestQueue × RequestId :=
  ({ q with nextId := q.nextId + 1 }, q.nextId)

/-- `JoinRequestQueue::push`. -/
def push (q : JoinRequestQueue) (connection : ConnectionId) (application : JoinApplication) :
    JoinRequestQueue × Except QueueError RequestId :=
  if q.limit ≤ q.requests.length then (q, .error (.full q.limit))
  else
    let (q, id) := q.allocateId
    ({ q with requests := q.requests ++ [⟨id, connection, application⟩] }, .ok id)

/-- `JoinRequestQueue::take`. -/
def take (q : JoinRequestQueue) (id : RequestId) :
    JoinRequestQueue × Except QueueError JoinRequest :=
  match q.requests.find? fun r => r.id = id with
  | none => (q, .error (.unknown id))
  | some r => ({ q with requests := q.requests.eraseP fun r => r.id = id }, .ok r)

/-- `JoinRequestQueue::drain`. -/
def drain (q : JoinRequestQueue) : JoinRequestQueue × List JoinRequest :=
  ({ q with requests := [] }, q.requests)

end JoinRequestQueue

end Veilroom
