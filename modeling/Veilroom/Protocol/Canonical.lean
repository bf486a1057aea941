import Veilroom.Protocol.Preferred
import Veilroom.Protocol.RoundTrip
import Veilroom.Protocol.Stream

/-!
Decode, encode, decode: whatever the strict decoder accepts has one canonical
encoding, which the same build accepts as the same message.

First what each schema decoder guarantees about the message it returns, then
how long its encoding can be. Only a snapshot can come near the frame limit,
and its encoding is not longer than what was decoded.
-/
namespace Veilroom
variable {M : Minicbor}

private theorem bind_eq_ok {α β : Type} {x : Except ProtocolError α}
    {f : α → Except ProtocolError β} {b : β} :
    (x >>= f) = .ok b ↔ ∃ a, x = .ok a ∧ f a = .ok b := by
  cases x <;> simp [bind, Except.bind]

theorem required_eq_ok {α : Type} {field : Nat} {o : Option α} {value : α} :
    required field o = .ok value ↔ o = some value := by
  cases o <;> simp [required]

/-- Every value a field holds is good. -/
def Holds {α : Type} (good : α → Prop) (field : Option α) : Prop :=
  ∀ value, field = some value → good value

@[simp] theorem holds_none {α : Type} {good : α → Prop} : Holds good none := nofun

@[simp] theorem holds_some {α : Type} {good : α → Prop} {value : α} :
    Holds good (some value) ↔ good value := by
  simp [Holds]

abbrev IsU64 (n : Nat) : Prop := n < 2 ^ 64

/-- The text is within the decoder's limit. -/
abbrev ShortText (text : String) : Prop :=
  text.utf8ByteSize ≤ Limits.default.maxCborTextBytes

/-- The size of nothing in particular. -/
def noSize {α : Type} (_ : α) : Nat := 0

/-! ### What the schema decoders guarantee -/

section
variable (law : M.Preferred)
include law

theorem readSignature_yields (field : Nat) :
    Yields .default 0 (readSignature M field) (fun _ => True) fun v => (M.bytes v.toList).length :=
  Yields.fixedBytes law field _

theorem readPubkey_yields (field : Nat) :
    Yields .default 0 (readPubkey M field) (fun _ => True) fun v => (M.bytes v.toList).length :=
  Yields.fixedBytes law field _

theorem readNonce_yields (field : Nat) :
    Yields .default 0 (readNonce M field) (fun _ => True) fun v => (M.bytes v.toList).length :=
  Yields.fixedBytes law field _

theorem handshakeBytes_yields (n field : Nat) :
    Yields .default 0 (handshakeBytes M n field) (fun _ => True)
      fun v => (M.bytes v.toList).length :=
  Yields.fixedBytes law field _

omit law in
/-- A field stored where no size is kept. -/
private theorem stores {α σ : Type} {slack : Nat} {read : Decode α} {f : α → σ}
    {good : α → Prop} {good' : σ → Prop} {size : α → Nat}
    (h : Yields .default 0 read good size) (hf : ∀ value, good value → good' (f value)) :
    Yields .default slack (StrictDecoder.store f read) good' noSize := by
  apply h.store
  intro value hvalue
  exact ⟨hf value hvalue, Nat.zero_le _⟩

theorem TokenVerify.yields :
    Yields .default 0 (strictDecode M) (fun m => TokenVerify.new m.token = .ok m) noSize := by
  apply Yields.schema law (fun _ => True) noSize trivial rfl
  · intro acc key _ _
    split
    · exact stores (Yields.bytes law) fun _ _ => trivial
    · exact Yields.unknownField
  · intro fields m _ h
    obtain ⟨token, -, hm⟩ := bind_eq_ok.mp h
    exact ⟨TokenVerify.new_again hm, Nat.zero_le _⟩

theorem JoinRequestMessage.yields (P : Primitives) :
    Yields .default 0 (strictDecode M P) (fun m => ∃ nickname introduction ed25519Pubkey
      x25519Pubkey signature, JoinRequestMessage.new P nickname introduction ed25519Pubkey
        x25519Pubkey signature = .ok m) noSize := by
  apply Yields.schema law (fun _ => True) noSize trivial rfl
  · intro acc key _ _
    split
    · exact stores (Yields.str law) fun _ _ => trivial
    · exact stores (Yields.str law) fun _ _ => trivial
    · exact stores (handshakeBytes_yields law 32 3) fun _ _ => trivial
    · exact stores (handshakeBytes_yields law 32 4) fun _ _ => trivial
    · exact stores (handshakeBytes_yields law 64 5) fun _ _ => trivial
    · exact Yields.unknownField
  · intro fields m _ h
    obtain ⟨nickname, -, h⟩ := bind_eq_ok.mp h
    obtain ⟨ed25519Pubkey, -, h⟩ := bind_eq_ok.mp h
    obtain ⟨x25519Pubkey, -, h⟩ := bind_eq_ok.mp h
    obtain ⟨signature, -, h⟩ := bind_eq_ok.mp h
    exact ⟨⟨_, _, _, _, _, h⟩, Nat.zero_le _⟩

theorem JoinAccepted.yields :
    Yields .default 0 (strictDecode M) (fun m => IsU64 m.memberId) noSize := by
  apply Yields.schema law (Holds IsU64) noSize holds_none rfl
  · intro acc key _ _
    split
    · exact stores (Yields.u64 law) fun v hv => holds_some.mpr hv
    · exact Yields.unknownField
  · intro fields m hfields h
    obtain ⟨memberId, hid, hm⟩ := bind_eq_ok.mp h
    cases hm
    exact ⟨hfields _ (required_eq_ok.mp hid), Nat.zero_le _⟩

theorem JoinRejected.yields :
    Yields .default 0 (strictDecode M) (fun m => JoinRejected.new m.reason = .ok m) noSize := by
  apply Yields.schema law (fun _ => True) noSize trivial rfl
  · intro acc key _ _
    split
    · exact stores (Yields.str law) fun _ _ => trivial
    · exact Yields.unknownField
  · intro fields m _ h
    exact ⟨JoinRejected.new_again h, Nat.zero_le _⟩

/-! ### Membership messages -/

structure MemberJoined.Fields.InRange (f : MemberJoined.Fields) : Prop where
  sequence : Holds IsU64 f.sequence
  epoch : Holds IsU64 f.epoch
  memberId : Holds IsU64 f.memberId
  nickname : Holds ShortText f.nickname

theorem MemberJoined.yields :
    Yields .default 0 (strictDecode M) (fun m => IsU64 m.sequence ∧ IsU64 m.epoch ∧
      IsU64 m.memberId ∧ ShortText m.nickname) noSize := by
  apply Yields.schema law Fields.InRange noSize
    ⟨holds_none, holds_none, holds_none, holds_none⟩ rfl
  · intro acc key hacc _
    split
    · exact stores (Yields.u64 law) fun v hv => { hacc with sequence := holds_some.mpr hv }
    · exact stores (Yields.u64 law) fun v hv => { hacc with epoch := holds_some.mpr hv }
    · exact stores (Yields.u64 law) fun v hv => { hacc with memberId := holds_some.mpr hv }
    · exact stores (Yields.str law) fun v hv => { hacc with nickname := holds_some.mpr hv }
    · exact stores (readPubkey_yields law 5) fun v _ => { hacc with }
    · exact stores (readSignature_yields law 6) fun v _ => { hacc with }
    · exact Yields.unknownField
  · intro fields m hfields h
    obtain ⟨sequence, hsequence, h⟩ := bind_eq_ok.mp h
    obtain ⟨epoch, hepoch, h⟩ := bind_eq_ok.mp h
    obtain ⟨memberId, hid, h⟩ := bind_eq_ok.mp h
    obtain ⟨nickname, hnickname, h⟩ := bind_eq_ok.mp h
    obtain ⟨pubkey, -, h⟩ := bind_eq_ok.mp h
    obtain ⟨signature, -, h⟩ := bind_eq_ok.mp h
    cases h
    exact ⟨⟨hfields.sequence _ (required_eq_ok.mp hsequence),
      hfields.epoch _ (required_eq_ok.mp hepoch), hfields.memberId _ (required_eq_ok.mp hid),
      hfields.nickname _ (required_eq_ok.mp hnickname)⟩, Nat.zero_le _⟩

structure MemberGone.Fields.InRange (f : MemberGone.Fields) : Prop where
  sequence : Holds IsU64 f.sequence
  epoch : Holds IsU64 f.epoch
  memberId : Holds IsU64 f.memberId

theorem MemberGone.yields :
    Yields .default 0 (strictDecode M) (fun m => IsU64 m.sequence ∧ IsU64 m.epoch ∧
      IsU64 m.memberId) noSize := by
  apply Yields.schema law Fields.InRange noSize ⟨holds_none, holds_none, holds_none⟩ rfl
  · intro acc key hacc _
    split
    · exact stores (Yields.u64 law) fun v hv => { hacc with sequence := holds_some.mpr hv }
    · exact stores (Yields.u64 law) fun v hv => { hacc with epoch := holds_some.mpr hv }
    · exact stores (Yields.u64 law) fun v hv => { hacc with memberId := holds_some.mpr hv }
    · exact stores (readSignature_yields law 4) fun v _ => { hacc with }
    · exact Yields.unknownField
  · intro fields m hfields h
    obtain ⟨sequence, hsequence, h⟩ := bind_eq_ok.mp h
    obtain ⟨epoch, hepoch, h⟩ := bind_eq_ok.mp h
    obtain ⟨memberId, hid, h⟩ := bind_eq_ok.mp h
    obtain ⟨signature, -, h⟩ := bind_eq_ok.mp h
    cases h
    exact ⟨⟨hfields.sequence _ (required_eq_ok.mp hsequence),
      hfields.epoch _ (required_eq_ok.mp hepoch), hfields.memberId _ (required_eq_ok.mp hid)⟩,
      Nat.zero_le _⟩

structure JoinPolicyChanged.Fields.InRange (f : JoinPolicyChanged.Fields) : Prop where
  sequence : Holds IsU64 f.sequence
  epoch : Holds IsU64 f.epoch

theorem JoinPolicyChanged.yields :
    Yields .default 0 (strictDecode M) (fun m => IsU64 m.sequence ∧ IsU64 m.epoch) noSize := by
  apply Yields.schema law Fields.InRange noSize ⟨holds_none, holds_none⟩ rfl
  · intro acc key hacc _
    split
    · exact stores (Yields.u64 law) fun v hv => { hacc with sequence := holds_some.mpr hv }
    · exact stores (Yields.u64 law) fun v hv => { hacc with epoch := holds_some.mpr hv }
    · exact stores (Yields.bool law) fun v _ => { hacc with }
    · exact stores (readSignature_yields law 4) fun v _ => { hacc with }
    · exact Yields.unknownField
  · intro fields m hfields h
    obtain ⟨sequence, hsequence, h⟩ := bind_eq_ok.mp h
    obtain ⟨epoch, hepoch, h⟩ := bind_eq_ok.mp h
    obtain ⟨isOpen, -, h⟩ := bind_eq_ok.mp h
    obtain ⟨signature, -, h⟩ := bind_eq_ok.mp h
    cases h
    exact ⟨⟨hfields.sequence _ (required_eq_ok.mp hsequence),
      hfields.epoch _ (required_eq_ok.mp hepoch)⟩, Nat.zero_le _⟩

/-! ### Snapshots, with their size -/

omit law in
/-- What a field takes in the encoding: its key and its value. -/
def entrySize (M : Minicbor) {α : Type} (key : Nat) (encode : α → Bytes) : Option α → Nat
  | none => 0
  | some value => (M.uint key).length + (encode value).length

structure SnapshotMember.Fields.InRange (f : SnapshotMember.Fields) : Prop where
  memberId : Holds IsU64 f.memberId
  nickname : Holds ShortText f.nickname

def SnapshotMember.Fields.size (M : Minicbor) (f : SnapshotMember.Fields) : Nat :=
  entrySize M 1 M.uint f.memberId + entrySize M 2 M.str f.nickname +
    entrySize M 3 (fun color : UInt8 => M.uint color.toNat) f.color +
    entrySize M 4 M.bool f.isHost + entrySize M 5 (fun v : Key => M.bytes v.toList) f.pubkey

omit law in
/-- A field stored where its size is kept. -/
private theorem storesSized {α σ : Type} {slack : Nat} {read : Decode α} {f : α → σ}
    {good : α → Prop} {good' : σ → Prop} {size : α → Nat} {size' : σ → Nat}
    (h : Yields .default 0 read good size)
    (hf : ∀ value, good value → good' (f value))
    (hsize : ∀ value, size' (f value) ≤ slack + size value) :
    Yields .default slack (StrictDecoder.store f read) good' size' := by
  apply h.store
  intro value hvalue
  exact ⟨hf value hvalue, hsize value⟩

theorem SnapshotMember.yields :
    Yields .default 0 (strictDecode M) (fun m => IsU64 m.memberId ∧ ShortText m.nickname)
      fun m => (m.encode M).length := by
  apply Yields.schema law Fields.InRange (Fields.size M) ⟨holds_none, holds_none⟩ rfl
  · intro acc key hacc _
    split
    · refine storesSized (Yields.u64 law)
        (fun v hv => { hacc with memberId := holds_some.mpr hv }) fun v => ?_
      simp only [Fields.size, entrySize]
      omega
    · refine storesSized (Yields.str law)
        (fun v hv => { hacc with nickname := holds_some.mpr hv }) fun v => ?_
      simp only [Fields.size, entrySize]
      omega
    · refine storesSized (Yields.u8 law) (fun v _ => { hacc with }) fun v => ?_
      simp only [Fields.size, entrySize]
      omega
    · refine storesSized (Yields.bool law) (fun v _ => { hacc with }) fun v => ?_
      simp only [Fields.size, entrySize]
      omega
    · refine storesSized (readPubkey_yields law 5) (fun v _ => { hacc with }) fun v => ?_
      simp only [Fields.size, entrySize]
      omega
    · exact Yields.unknownField
  · intro fields m hfields h
    obtain ⟨memberId, hid, h⟩ := bind_eq_ok.mp h
    obtain ⟨nickname, hnickname, h⟩ := bind_eq_ok.mp h
    obtain ⟨color, hcolor, h⟩ := bind_eq_ok.mp h
    obtain ⟨isHost, hhost, h⟩ := bind_eq_ok.mp h
    obtain ⟨pubkey, hpubkey, h⟩ := bind_eq_ok.mp h
    cases h
    rw [required_eq_ok] at hid hnickname hcolor hhost hpubkey
    refine ⟨⟨hfields.memberId _ hid, hfields.nickname _ hnickname⟩, ?_⟩
    simp only [encode, encodeEntries, Fields.size, hid, hnickname, hcolor, hhost, hpubkey,
      entrySize, List.flatMap_cons, List.flatMap_nil, List.length_append, List.length_nil,
      law.length_map 5 (by decide)]
    omega

structure MemberSnapshot.Fields.InRange (f : MemberSnapshot.Fields) : Prop where
  sequence : Holds IsU64 f.sequence
  epoch : Holds IsU64 f.epoch
  members : Holds (fun members => members.length ≤ Limits.default.maxCborArrayEntries ∧
    ∀ member ∈ members, IsU64 member.memberId ∧ ShortText member.nickname) f.members

def MemberSnapshot.encodeMembers (M : Minicbor) (members : List SnapshotMember) : Bytes :=
  M.array members.length ++ members.flatMap (SnapshotMember.encode M)

def MemberSnapshot.Fields.size (M : Minicbor) (f : MemberSnapshot.Fields) : Nat :=
  entrySize M 1 M.uint f.sequence + entrySize M 2 M.uint f.epoch +
    entrySize M 3 (encodeMembers M) f.members +
    entrySize M 4 (fun v : Signature => M.bytes v.toList) f.signature

theorem MemberSnapshot.readMembers_yields :
    Yields .default 0 (readMembers M) (fun members =>
      members.length ≤ Limits.default.maxCborArrayEntries ∧
        ∀ member ∈ members, IsU64 member.memberId ∧ ShortText member.nickname)
      fun members => (encodeMembers M members).length := by
  apply (Yields.arrayEntries law (SnapshotMember.yields law)).mono
  intro members hmembers
  refine ⟨hmembers, ?_⟩
  rw [encodeMembers, List.length_append, List.length_flatMap]
  omega

theorem MemberSnapshot.yields :
    Yields .default 0 (strictDecode M) (fun m => IsU64 m.sequence ∧ IsU64 m.epoch ∧
      m.members.length ≤ Limits.default.maxCborArrayEntries ∧
      ∀ member ∈ m.members, IsU64 member.memberId ∧ ShortText member.nickname)
      fun m => (m.encode M).length := by
  apply Yields.schema law Fields.InRange (Fields.size M)
    ⟨holds_none, holds_none, holds_none⟩ rfl
  · intro acc key hacc _
    split
    · refine storesSized (Yields.u64 law)
        (fun v hv => { hacc with sequence := holds_some.mpr hv }) fun v => ?_
      simp only [Fields.size, entrySize]
      omega
    · refine storesSized (Yields.u64 law)
        (fun v hv => { hacc with epoch := holds_some.mpr hv }) fun v => ?_
      simp only [Fields.size, entrySize]
      omega
    · refine storesSized (readMembers_yields law)
        (fun v hv => { hacc with members := holds_some.mpr hv }) fun v => ?_
      simp only [Fields.size, entrySize]
      omega
    · refine storesSized (readSignature_yields law 4) (fun v _ => { hacc with }) fun v => ?_
      simp only [Fields.size, entrySize]
      omega
    · exact Yields.unknownField
  · intro fields m hfields h
    obtain ⟨sequence, hsequence, h⟩ := bind_eq_ok.mp h
    obtain ⟨epoch, hepoch, h⟩ := bind_eq_ok.mp h
    obtain ⟨members, hmembers, h⟩ := bind_eq_ok.mp h
    obtain ⟨signature, hsignature, h⟩ := bind_eq_ok.mp h
    cases h
    rw [required_eq_ok] at hsequence hepoch hmembers hsignature
    refine ⟨⟨hfields.sequence _ hsequence, hfields.epoch _ hepoch,
      hfields.members _ hmembers⟩, ?_⟩
    simp only [encode, encodeEntries, Fields.size, hsequence, hepoch, hmembers,
      hsignature, entrySize, encodeMembers, List.flatMap_cons, List.flatMap_nil,
      List.length_append, List.length_nil, law.length_map 4 (by decide)]
    omega

/-! ### Epoch, chat and control messages -/

theorem EpochWrap.yields :
    Yields .default 0 (strictDecode M) (fun m => IsU64 m.epoch ∧
      EpochWrap.new m.epoch m.nonce m.ciphertext = .ok m) noSize := by
  apply Yields.schema law (fun f => Holds IsU64 f.epoch) noSize holds_none rfl
  · intro acc key hacc _
    split
    · exact stores (Yields.u64 law) fun v hv => holds_some.mpr hv
    · exact stores (readNonce_yields law 2) fun _ _ => hacc
    · exact stores (Yields.bytes law) fun _ _ => hacc
    · exact Yields.unknownField
  · intro fields m hfields h
    obtain ⟨epoch, hepoch, h⟩ := bind_eq_ok.mp h
    obtain ⟨nonce, -, h⟩ := bind_eq_ok.mp h
    obtain ⟨ciphertext, -, h⟩ := bind_eq_ok.mp h
    have hnew := h
    unfold EpochWrap.new at h
    split at h
    · cases h
    · cases h
      exact ⟨⟨hfields _ (required_eq_ok.mp hepoch), hnew⟩, Nat.zero_le _⟩

theorem EpochAck.yields :
    Yields .default 0 (strictDecode M) (fun m => IsU64 m.epoch) noSize := by
  apply Yields.schema law (Holds IsU64) noSize holds_none rfl
  · intro acc key _ _
    split
    · exact stores (Yields.u64 law) fun v hv => holds_some.mpr hv
    · exact Yields.unknownField
  · intro fields m hfields h
    obtain ⟨epoch, hepoch, hm⟩ := bind_eq_ok.mp h
    cases hm
    exact ⟨hfields _ (required_eq_ok.mp hepoch), Nat.zero_le _⟩

structure EncryptedEnvelope.Fields.InRange (f : EncryptedEnvelope.Fields) : Prop where
  epoch : Holds IsU64 f.epoch
  senderId : Holds IsU64 f.senderId
  senderSequence : Holds IsU64 f.senderSequence
  ciphertext : Holds (fun content => content.length ≤ Limits.default.maxCborBytesLen) f.ciphertext

theorem EncryptedEnvelope.yields :
    Yields .default 0 (strictDecode M) (fun m => m.Built ∧
      m.ciphertext.length ≤ Limits.default.maxCborBytesLen) noSize := by
  apply Yields.schema law Fields.InRange noSize
    ⟨holds_none, holds_none, holds_none, holds_none⟩ rfl
  · intro acc key hacc _
    split
    · exact stores (Yields.u64 law) fun v hv => { hacc with epoch := holds_some.mpr hv }
    · exact stores (Yields.u64 law) fun v hv => { hacc with senderId := holds_some.mpr hv }
    · exact stores (Yields.u64 law) fun v hv => { hacc with senderSequence := holds_some.mpr hv }
    · exact stores (readNonce_yields law 4) fun v _ => { hacc with }
    · exact stores (Yields.bytes law) fun v hv => { hacc with ciphertext := holds_some.mpr hv }
    · exact stores (readSignature_yields law 6) fun v _ => { hacc with }
    · exact Yields.unknownField
  · intro fields m hfields h
    obtain ⟨epoch, hepoch, h⟩ := bind_eq_ok.mp h
    obtain ⟨senderId, hsender, h⟩ := bind_eq_ok.mp h
    obtain ⟨senderSequence, hsequence, h⟩ := bind_eq_ok.mp h
    obtain ⟨nonce, -, h⟩ := bind_eq_ok.mp h
    obtain ⟨ciphertext, hciphertext, h⟩ := bind_eq_ok.mp h
    obtain ⟨signature, -, h⟩ := bind_eq_ok.mp h
    rw [required_eq_ok] at hepoch hsender hsequence hciphertext
    have hnew := h
    unfold EncryptedEnvelope.new at h
    split at h
    · cases h
      exact ⟨⟨⟨hfields.epoch _ hepoch, hfields.senderId _ hsender,
        hfields.senderSequence _ hsequence, hnew⟩, hfields.ciphertext _ hciphertext⟩,
        Nat.zero_le _⟩
    · cases h

theorem ErrorMessage.yields :
    Yields .default 0 (strictDecode M)
      (fun m => Holds (fun reason => validateReason reason = .ok ()) m.reason) noSize := by
  apply Yields.schema law
    (fun f => Holds (fun reason => validateReason reason = .ok ()) f.reason) noSize
    holds_none rfl
  · intro acc key hacc _
    split
    · apply (Yields.u8 law).convert
      intro raw f _ hf
      cases hcode : ErrorCode.fromU8 raw with
      | none =>
          rw [hcode] at hf
          cases hf
      | some code =>
          rw [hcode] at hf
          cases hf
          exact ⟨hacc, Nat.zero_le _⟩
    · apply (Yields.str law).convert
      intro text f _ hf
      obtain ⟨checked, hvalid, hf⟩ := bind_eq_ok.mp hf
      cases hf
      exact ⟨holds_some.mpr hvalid, Nat.zero_le _⟩
    · exact Yields.unknownField
  · intro fields m hfields h
    obtain ⟨code, -, hm⟩ := bind_eq_ok.mp h
    cases hm
    exact ⟨hfields, Nat.zero_le _⟩

end

/-! ### How long an encoding is -/

section
variable (law : M.Preferred)
include law

/-- A map of a few fields: its head, and for each field its key and a value within its bound. -/
private theorem length_fields_le {fields : List (Nat × Bytes)} {bounds : List Nat}
    (h : List.Forall₂ (fun field bound => field.2.length ≤ bound) fields bounds)
    (hfew : bounds.length < 24) (hshort : 1 + 9 * bounds.length + bounds.sum ≤ 8192) :
    (M.map fields.length ++ encodeEntries M fields).length ≤ 8192 := by
  have hentries : (encodeEntries M fields).length ≤ 9 * fields.length + bounds.sum := by
    clear hfew hshort
    induction h with
    | nil => simp [encodeEntries]
    | @cons field bound fields bounds hvalue _ ih =>
        have hkey := law.length_uint field.1
        simp only [encodeEntries, List.flatMap_cons, List.length_append, List.length_cons,
          List.sum_cons] at ih ⊢
        omega
  rw [List.length_append, law.length_map _ (h.length_eq ▸ hfew), h.length_eq] at *
  omega

private theorem length_fixed_le {n : Nat} (v : Vector UInt8 n) :
    (M.bytes v.toList).length ≤ n + 9 := by
  simpa using law.length_bytes v.toList

private theorem length_bytes_le {content : Bytes} {n : Nat} (h : content.length ≤ n) :
    (M.bytes content).length ≤ n + 9 :=
  (law.length_bytes content).trans (Nat.add_le_add_right h 9)

private theorem length_str_le {text : String} {n : Nat} (h : text.utf8ByteSize ≤ n) :
    (M.str text).length ≤ n + 9 :=
  (law.length_str text).trans (Nat.add_le_add_right h 9)

theorem EncryptedEnvelope.length_encode_le {m : EncryptedEnvelope}
    (hciphertext : m.ciphertext.length ≤ 4096) : (m.encode M).length ≤ 8192 :=
  length_fields_le law (.cons (law.length_uint _) (.cons (law.length_uint _)
    (.cons (law.length_uint _) (.cons (length_fixed_le law _)
      (.cons (length_bytes_le law hciphertext) (.cons (length_fixed_le law _) .nil))))))
    (by decide) (by decide)

theorem ErrorMessage.length_encode_le {m : ErrorMessage}
    (h : Holds (fun reason => validateReason reason = .ok ()) m.reason) :
    (m.encode M).length ≤ 8192 := by
  unfold encode
  split
  · rename_i reason hreason
    have hsize := utf8ByteSize_of_validateReason (h reason hreason)
    exact length_fields_le law (.cons (law.length_uint _) (.cons (length_str_le law hsize) .nil))
      (by decide) (by decide)
  · exact length_fields_le law (.cons (law.length_uint _) .nil) (by decide) (by decide)

theorem encodeEmpty_length_le : (encodeEmpty M).length ≤ 8192 :=
  length_fields_le law .nil (by decide) (by decide)

end

/-! ### Decoded messages -/

namespace Message

/-- A message the decoder can return: one from its constructor, within the decoder's limits. The
decoder lets an empty reason of an error through, which the constructor turns into none. -/
inductive Decoded (P : Primitives) : Message → Prop
  | built {m} (h : m.Built P) (hfits : m.Fits) : Decoded P m
  | error {m : ErrorMessage}
      (h : Holds (fun reason => validateReason reason = .ok ()) m.reason) : Decoded P (.error m)

theorem Decoded.reads {P : Primitives} (law : M.Lawful) (lawP : P.Lawful) {m : Message}
    (h : m.Decoded P) :
    Reads .default 0 (decodeBody M P m.messageType) (m.encodeBody M) m := by
  cases h with
  | built h hfits => exact decodeBody_reads law lawP h hfits
  | error h => exact (ErrorMessage.reads law h).store _

private theorem store_eq_ok {α σ : Type} {f : α → σ} {read : Decode α} {d d' : StrictDecoder}
    {value : σ} (h : StrictDecoder.store f read d = .ok (value, d')) :
    ∃ x, read d = .ok (x, d') ∧ value = f x := by
  obtain ⟨⟨x, after⟩, hread, hx⟩ := bind_eq_ok.mp h
  cases hx
  exact ⟨x, hread, rfl⟩

private theorem fits_of_envelope {message : Message} {m : EncryptedEnvelope}
    (henvelope : message.envelope? = some m)
    (h : m.ciphertext.length ≤ Limits.default.maxCborBytesLen) : message.Fits := by
  intro envelope hfound
  cases henvelope.symm.trans hfound
  exact h

section
variable {P : Primitives} {d d' : StrictDecoder} {m : Message} {type : MessageType}

/-- A message whose decoder guarantees nothing, because its constructor asks for nothing. -/
private theorem decoded_of_any {α : Type} {f : α → Message} {read : Decode α}
    (h : StrictDecoder.store f read d = .ok (m, d'))
    (hf : ∀ value, (f value).messageType = type ∧ (f value).Decoded P) :
    m.messageType = type ∧ m.Decoded P := by
  obtain ⟨value, -, rfl⟩ := store_eq_ok h
  exact hf value

private theorem decoded_of_yields {α : Type} {f : α → Message} {read : Decode α}
    {good : α → Prop} {size : α → Nat} (hread : Yields .default 0 read good size)
    (hlimits : d.limits = .default) (h : StrictDecoder.store f read d = .ok (m, d'))
    (hf : ∀ value, good value → (f value).messageType = type ∧ (f value).Decoded P) :
    m.messageType = type ∧ m.Decoded P := by
  obtain ⟨value, hvalue, rfl⟩ := store_eq_ok h
  exact hf value (hread _ _ _ hlimits hvalue).2.1

theorem decodeBody_decoded (law : M.Preferred) (hlimits : d.limits = .default)
    (h : decodeBody M P type d = .ok (m, d')) : m.messageType = type ∧ m.Decoded P := by
  have henvelope {f : EncryptedEnvelope → Message} (henvelope : ∀ e, (f e).envelope? = some e)
      (htype : ∀ e, (f e).messageType = type) (hbuilt : ∀ e, e.Built → (f e).Built P)
      (h : StrictDecoder.store f (EncryptedEnvelope.strictDecode M) d = .ok (m, d')) :
      m.messageType = type ∧ m.Decoded P :=
    decoded_of_yields (EncryptedEnvelope.yields law) hlimits h fun e he =>
      ⟨htype e, .built (hbuilt e he.1) (fits_of_envelope (henvelope e) he.2)⟩
  cases type with
  | keepalive =>
      exact decoded_of_any (f := fun _ : Unit => keepalive) h fun _ =>
        ⟨rfl, .built .keepalive nofun⟩
  | error =>
      exact decoded_of_yields (ErrorMessage.yields law) hlimits h fun _ hm => ⟨rfl, .error hm⟩
  | shutdown =>
      exact decoded_of_any (f := fun _ : Unit => shutdown) h fun _ => ⟨rfl, .built .shutdown nofun⟩
  | hostHello => exact decoded_of_any h fun _ => ⟨rfl, .built .hostHello nofun⟩
  | clientHello => exact decoded_of_any h fun _ => ⟨rfl, .built .clientHello nofun⟩
  | tokenVerify =>
      exact decoded_of_yields (TokenVerify.yields law) hlimits h fun _ hnew =>
        ⟨rfl, .built (.tokenVerify hnew) nofun⟩
  | passwordChallenge => exact decoded_of_any h fun _ => ⟨rfl, .built .passwordChallenge nofun⟩
  | challengeProof => exact decoded_of_any h fun _ => ⟨rfl, .built .challengeProof nofun⟩
  | joinRequest =>
      apply decoded_of_yields (JoinRequestMessage.yields law P) hlimits h
      rintro message ⟨_, _, _, _, _, hnew⟩
      exact ⟨rfl, .built (.joinRequest hnew) nofun⟩
  | joinAccepted =>
      exact decoded_of_yields (JoinAccepted.yields law) hlimits h fun _ hid =>
        ⟨rfl, .built (.joinAccepted hid) nofun⟩
  | joinRejected =>
      exact decoded_of_yields (JoinRejected.yields law) hlimits h fun _ hnew =>
        ⟨rfl, .built (.joinRejected hnew) nofun⟩
  | epochWrap =>
      exact decoded_of_yields (EpochWrap.yields law) hlimits h fun _ hm =>
        ⟨rfl, .built (.epochWrap hm.1 hm.2) nofun⟩
  | epochAck =>
      exact decoded_of_yields (EpochAck.yields law) hlimits h fun _ hepoch =>
        ⟨rfl, .built (.epochAck hepoch) nofun⟩
  | memberJoined =>
      exact decoded_of_yields (MemberJoined.yields law) hlimits h fun _ hm =>
        ⟨rfl, .built (.memberJoined hm.1 hm.2.1 hm.2.2.1 hm.2.2.2) nofun⟩
  | memberLeft =>
      exact decoded_of_yields (MemberGone.yields law) hlimits h fun _ hm =>
        ⟨rfl, .built (.memberLeft hm.1 hm.2.1 hm.2.2) nofun⟩
  | memberKicked =>
      exact decoded_of_yields (MemberGone.yields law) hlimits h fun _ hm =>
        ⟨rfl, .built (.memberKicked hm.1 hm.2.1 hm.2.2) nofun⟩
  | joinPolicyChanged =>
      exact decoded_of_yields (JoinPolicyChanged.yields law) hlimits h fun _ hm =>
        ⟨rfl, .built (.joinPolicyChanged hm.1 hm.2) nofun⟩
  | memberSnapshot =>
      exact decoded_of_yields (MemberSnapshot.yields law) hlimits h fun _ hm =>
        ⟨rfl, .built (.memberSnapshot hm.1 hm.2.1 hm.2.2.1 hm.2.2.2) nofun⟩
  | chatMessage => exact henvelope (fun _ => rfl) (fun _ => rfl) (fun _ => .chatMessage) h
  | colorChange => exact henvelope (fun _ => rfl) (fun _ => rfl) (fun _ => .colorChange) h
  | timeoutRequest => exact henvelope (fun _ => rfl) (fun _ => rfl) (fun _ => .timeoutRequest) h
  | timeoutChanged => exact henvelope (fun _ => rfl) (fun _ => rfl) (fun _ => .timeoutChanged) h

end

/-! ### The canonical encoding -/

section
variable {P : Primitives} {m : Message} {frame : Frame}

/-- Only a snapshot can be long. -/
theorem Decoded.length_encodeBody_le (law : M.Preferred) (h : m.Decoded P)
    (hsnapshot : m.messageType ≠ .memberSnapshot) : (m.encodeBody M).length ≤ 8192 := by
  have hfixed {n : Nat} (v : Vector UInt8 n) := length_fixed_le law v
  have huint := law.length_uint
  cases h with
  | error h => exact ErrorMessage.length_encode_le law h
  | built hbuilt hfits =>
      have henvelope (e : EncryptedEnvelope) (he : m.envelope? = some e) :
          (e.encode M).length ≤ 8192 := EncryptedEnvelope.length_encode_le law (hfits e he)
      cases hbuilt with
      | keepalive | shutdown => exact encodeEmpty_length_le law
      | error h =>
          apply ErrorMessage.length_encode_le law
          exact ErrorMessage.reason_of_new (ErrorMessage.new_again h)
      | hostHello =>
          exact length_fields_le law (.cons (huint _) (.cons (hfixed _) (.cons (hfixed _)
            (.cons (hfixed _) (.cons (hfixed _) (.cons (hfixed _) .nil)))))) (by decide) (by decide)
      | clientHello =>
          exact length_fields_le law (.cons (huint _) (.cons (hfixed _) (.cons (huint _) .nil)))
            (by decide) (by decide)
      | tokenVerify h =>
          have hbytes := length_bytes_le law (TokenVerify.length_of_new h)
          exact length_fields_le law (.cons hbytes .nil) (by decide) (by decide)
      | passwordChallenge =>
          exact length_fields_le law (.cons (huint _) (.cons (huint _) (.cons (huint _)
            (.cons (hfixed _) (.cons (hfixed _) .nil))))) (by decide) (by decide)
      | challengeProof =>
          exact length_fields_le law (.cons (hfixed _) .nil) (by decide) (by decide)
      | @joinRequest _ _ _ _ _ request h =>
          obtain ⟨hnickname, hintroduction⟩ := JoinRequestMessage.fields_of_new h
          have hname := length_str_le law (utf8ByteSize_of_validateNickname hnickname)
          change (request.encode M).length ≤ 8192
          unfold JoinRequestMessage.encode
          split
          · rename_i text htext
            have hintro := length_str_le law
              (utf8ByteSize_of_validateIntro (hintroduction text htext))
            exact length_fields_le law (.cons hname (.cons hintro (.cons (hfixed _)
              (.cons (hfixed _) (.cons (hfixed _) .nil))))) (by decide) (by decide)
          · exact length_fields_le law (.cons hname (.cons (hfixed _) (.cons (hfixed _)
              (.cons (hfixed _) .nil)))) (by decide) (by decide)
      | joinAccepted _ => exact length_fields_le law (.cons (huint _) .nil) (by decide) (by decide)
      | @joinRejected _ rejected h =>
          have hreason := JoinRejected.reason_of_new (JoinRejected.new_again h)
          change (rejected.encode M).length ≤ 8192
          unfold JoinRejected.encode
          split
          · rename_i reason hsome
            have htext := length_str_le law (hreason reason hsome)
            exact length_fields_le law (.cons htext .nil) (by decide) (by decide)
          · exact encodeEmpty_length_le law
      | epochWrap _ h =>
          have hbytes := length_bytes_le law (Nat.le_of_eq (EpochWrap.length_of_new h))
          exact length_fields_le law (.cons (huint _) (.cons (hfixed _) (.cons hbytes .nil)))
            (by decide) (by decide)
      | epochAck _ => exact length_fields_le law (.cons (huint _) .nil) (by decide) (by decide)
      | memberJoined _ _ _ hnickname =>
          have hname := length_str_le law hnickname
          exact length_fields_le law (.cons (huint _) (.cons (huint _) (.cons (huint _)
            (.cons hname (.cons (hfixed _) (.cons (hfixed _) .nil)))))) (by decide) (by decide)
      | memberLeft _ _ _ | memberKicked _ _ _ =>
          exact length_fields_le law (.cons (huint _) (.cons (huint _) (.cons (huint _)
            (.cons (hfixed _) .nil)))) (by decide) (by decide)
      | joinPolicyChanged _ _ =>
          exact length_fields_le law (.cons (huint _) (.cons (huint _)
            (.cons (law.length_bool _) (.cons (hfixed _) .nil)))) (by decide) (by decide)
      | memberSnapshot _ _ _ _ => exact absurd rfl hsnapshot
      | chatMessage _ | colorChange _ | timeoutRequest _ | timeoutChanged _ =>
          exact henvelope _ rfl

theorem decodeBody_of_decode {limits : Limits} (h : decode M P frame limits = .ok m) :
    ∃ d, decodeBody M P frame.messageType (StrictDecoder.new frame.payload limits) =
      .ok (m, d) := by
  obtain ⟨⟨value, d⟩, hread, h⟩ := bind_eq_ok.mp h
  obtain ⟨-, -, h⟩ := bind_eq_ok.mp h
  cases h
  exact ⟨d, hread⟩

theorem Decoded.decode_encodeBody (law : M.Lawful) (lawP : P.Lawful) (h : m.Decoded P) :
    decode M P ⟨m.messageType, m.encodeBody M⟩ .default = .ok m := by
  have hread := h.reads law lawP []
  rw [List.append_nil] at hread
  simp only [decode, decodeMessageBody, StrictDecoder.new, hread, bind, Except.bind]
  rfl

/-- The body of a decoded message is decoded as the same message, whatever frame it came in. -/
theorem decode_again (law : M.Preferred) (lawP : P.Lawful)
    (h : decode M P frame .default = .ok m) :
    decode M P ⟨m.messageType, m.encodeBody M⟩ .default = .ok m := by
  obtain ⟨d, hbody⟩ := decodeBody_of_decode h
  exact (decodeBody_decoded law rfl hbody).2.decode_encodeBody law.toLawful lawP

/-- A message decoded from a frame within the limit fits into one. -/
theorem encode_of_decode (law : M.Preferred) (h : decode M P frame .default = .ok m)
    (hframe : frame.payload.length + minFrameBodyLen ≤ Limits.default.maxFrameSize) :
    ∃ bytes, m.encode M .default = .ok bytes := by
  obtain ⟨d, hbody⟩ := decodeBody_of_decode h
  obtain ⟨htype, hdecoded⟩ := decodeBody_decoded law rfl hbody
  have hlength : (m.encodeBody M).length + minFrameBodyLen ≤ Limits.default.maxFrameSize := by
    by_cases hsnapshot : m.messageType = .memberSnapshot
    · rw [← htype, hsnapshot] at hbody
      obtain ⟨message, hread, rfl⟩ := store_eq_ok hbody
      have hsize := (MemberSnapshot.yields law _ _ _ rfl hread).2.2
      have hbody : (memberSnapshot message).encodeBody M = message.encode M := rfl
      rw [hbody]
      simp only [StrictDecoder.new] at hsize
      omega
    · have hshort := hdecoded.length_encodeBody_le law hsnapshot
      simp only [minFrameBodyLen, Limits.default]
      omega
  unfold encode encodeFrame
  dsimp only
  rw [if_neg (Nat.not_lt.mpr hlength)]
  exact ⟨_, rfl⟩

theorem length_of_feedAll {chunks : List Bytes} {d : FrameDecoder} {frames : List Frame}
    (h : (FrameDecoder.new .default).feedAll chunks = .ok (d, frames)) (hframe : frame ∈ frames) :
    frame.payload.length + minFrameBodyLen ≤ Limits.default.maxFrameSize := by
  obtain ⟨codes, hcodes, -⟩ := (FrameDecoder.codes_of_feedAll (by decide) h).1
  clear h
  induction hcodes with
  | nil => cases hframe
  | cons hencode _ ih =>
      obtain rfl | hframe := List.mem_cons.mp hframe
      · have hmax := (Frame.encode_eq_ok.mp hencode).1
        rwa [Frame.length_body] at hmax
      · exact ih hframe

end

/-- Whatever frame the decoder accepts, in any encoding it tolerates, the message it returns has
one canonical body that decodes to the same message; and when the frame came off a stream, that
body fits into a frame which arrives as the same message. -/
theorem decode_encode_decode (law : M.Preferred) {P : Primitives} (lawP : P.Lawful)
    (frame : Frame) (m : Message) (h : decode M P frame .default = .ok m) :
    decode M P ⟨m.messageType, m.encodeBody M⟩ .default = .ok m ∧
    ∀ (chunks : List Bytes) (d : FrameDecoder) (frames : List Frame),
      (FrameDecoder.new .default).feedAll chunks = .ok (d, frames) → frame ∈ frames →
      ∃ bytes, m.encode M .default = .ok bytes ∧ m.RoundTrips M P bytes := by
  have hagain := decode_again law lawP h
  refine ⟨hagain, fun chunks d frames hfed hframe => ?_⟩
  obtain ⟨bytes, hencode⟩ := encode_of_decode law h (length_of_feedAll hfed hframe)
  exact ⟨bytes, hencode, (roundTrips_iff_decode hencode).mpr hagain⟩

/-- An acceptance whose key and member id take a byte more than they need. -/
theorem decode_encode_decode_wide :
    ∃ bytes, (joinAccepted ⟨5⟩).encode .rfc8949 .default = .ok bytes ∧
      (joinAccepted ⟨5⟩).RoundTrips .rfc8949 Symbolic.primitives bytes := by
  have hfeed : ∃ d, (FrameDecoder.new .default).feedAll
      [[0, 0, 0, 9, 1, 0x07, 0, 0, 0xa1, 0x18, 0x01, 0x18, 0x05]] =
        .ok (d, [⟨.joinAccepted, [0xa1, 0x18, 0x01, 0x18, 0x05]⟩]) ∧ d.finish = .ok () :=
    FrameDecoder.feedAll_encoded (.cons rfl .nil) (by simp [Frame.body]) rfl
  obtain ⟨d, hfed, -⟩ := hfeed
  exact (decode_encode_decode Minicbor.rfc8949_preferred Symbolic.lawful
    ⟨.joinAccepted, [0xa1, 0x18, 0x01, 0x18, 0x05]⟩ (joinAccepted ⟨5⟩) (by rfl)).2 _ d _ hfed
      (List.mem_singleton_self _)

/-- Five members whose nicknames have four thousand characters each. -/
def crowded : MemberSnapshot :=
  ⟨1, 1, List.replicate 5 ⟨1, Symbolic.letters 4000, 0, false, Vector.replicate 32 0⟩,
    Vector.replicate 64 0⟩

theorem crowded_decoded : (memberSnapshot crowded).Decoded Symbolic.primitives := by
  refine .built (.memberSnapshot (by decide) (by decide) (by decide) ?_) nofun
  intro member hmember
  obtain rfl := List.eq_of_mem_replicate hmember
  dsimp only
  rw [Symbolic.size_letters]
  decide

theorem crowded_long : 20000 ≤ ((memberSnapshot crowded).encodeBody .rfc8949).length := by
  have hname : (Symbolic.letters 4000).toByteArray.data.toList.length = 4000 := by
    rw [Array.length_toList]
    exact Symbolic.size_letters 4000
  simp only [encodeBody, MemberSnapshot.encode, SnapshotMember.encode, crowded, encodeEntries,
    Minicbor.rfc8949, Cbor.text, List.flatMap_cons, List.flatMap_nil, List.length_append,
    List.replicate_succ, List.replicate_zero, hname]
  omega

theorem decode_memberSnapshot {P : Primitives} (law : M.Lawful) (lawP : P.Lawful)
    {message : MemberSnapshot} (h : (memberSnapshot message).Decoded P) :
    decode M P ⟨.memberSnapshot, (memberSnapshot message).encodeBody M⟩ .default =
      .ok (memberSnapshot message) :=
  h.decode_encodeBody law lawP

theorem not_encoded_of_long {m : Message}
    (h : Limits.default.maxFrameSize < (m.encodeBody M).length) :
    ¬ ∃ bytes, m.encode M .default = .ok bytes := by
  rintro ⟨bytes, hencode⟩
  unfold encode encodeFrame at hencode
  dsimp only at hencode
  rw [if_pos (Nat.lt_add_right _ h)] at hencode
  cases hencode

/-- The frame of a snapshot longer than the frame limit is decoded, and the snapshot is not
encoded. -/
theorem decode_not_encoded :
    decode .rfc8949 Symbolic.primitives
        ⟨.memberSnapshot, (memberSnapshot crowded).encodeBody .rfc8949⟩ .default =
      .ok (memberSnapshot crowded) ∧
    ¬ ∃ bytes, (memberSnapshot crowded).encode .rfc8949 .default = .ok bytes := by
  have hlimit : Limits.default.maxFrameSize < 20000 := by decide
  exact ⟨decode_memberSnapshot Minicbor.rfc8949_lawful Symbolic.lawful crowded_decoded,
    not_encoded_of_long (Nat.lt_of_lt_of_le hlimit crowded_long)⟩

end Message

end Veilroom
