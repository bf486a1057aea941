import Veilroom.Protocol.Codec
import Veilroom.Chat.Session
import Veilroom.Crypto.Symbolic

/-!
Encode, frame, decode: a message that was sent is the message that arrives.

One lemma for each message type, then the statement about frames. An envelope
is the exception: its constructor allows more ciphertext than the strict
decoder reads.
-/
namespace Veilroom
variable {M : Minicbor} (law : M.Lawful)

/-! ### What the constructors check -/

theorem JoinRequestMessage.fields_of_new {P : Primitives} {nickname : String}
    {introduction : Option String} {ed25519Pubkey x25519Pubkey : Key} {signature : Signature}
    {m : JoinRequestMessage}
    (h : JoinRequestMessage.new P nickname introduction ed25519Pubkey x25519Pubkey signature =
      .ok m) :
    validateNickname P nickname .default = .ok m.nickname ∧
      ∀ text, m.introduction = some text → validateIntro text .default = .ok () := by
  unfold JoinRequestMessage.new at h
  split at h
  · cases h
  rename_i normalized hnickname
  split at h
  · injection h with h
    rw [← h]
    exact ⟨hnickname, nofun⟩
  split at h
  · cases h
  rename_i hintro
  injection h with h
  rw [← h]
  refine ⟨hnickname, ?_⟩
  rintro text ⟨⟩
  exact hintro

/-- The decoder's own call of the constructor changes nothing. -/
theorem JoinRequestMessage.new_again {P : Primitives} (lawP : P.Lawful) {nickname : String}
    {introduction : Option String} {ed25519Pubkey x25519Pubkey : Key} {signature : Signature}
    {m : JoinRequestMessage}
    (h : JoinRequestMessage.new P nickname introduction ed25519Pubkey x25519Pubkey signature =
      .ok m) :
    JoinRequestMessage.new P m.nickname m.introduction m.ed25519Pubkey m.x25519Pubkey
      m.signature = .ok m := by
  obtain ⟨hnickname, hintroduction⟩ := fields_of_new h
  simp only [JoinRequestMessage.new, validateNickname_idempotent lawP hnickname]
  split
  · rename_i hnone
    rw [← hnone]
  · rename_i text hsome
    simp only [hintroduction text hsome]
    rw [← hsome]

theorem TokenVerify.new_again {token : Bytes} {m : TokenVerify}
    (h : TokenVerify.new token = .ok m) : TokenVerify.new m.token = .ok m := by
  have hchecked := h
  unfold TokenVerify.new at h
  split at h
  · injection h with h
    rw [← h] at hchecked ⊢
    exact hchecked
  · cases h

theorem TokenVerify.length_of_new {token : Bytes} {m : TokenVerify}
    (h : TokenVerify.new token = .ok m) : m.token.length ≤ 32 := by
  unfold TokenVerify.new at h
  split at h
  · rename_i hlength
    cases h
    exact hlength.2
  · cases h

theorem JoinRejected.new_again {reason : Option String} {m : JoinRejected}
    (h : JoinRejected.new reason = .ok m) : JoinRejected.new m.reason = .ok m := by
  have hchecked := h
  unfold JoinRejected.new at h
  split at h
  · cases h
    rfl
  split at h
  · cases h
    rfl
  split at h
  · cases h
  split at h
  · cases h
  · injection h with h
    rw [← h] at hchecked ⊢
    exact hchecked

theorem JoinRejected.reason_of_new {m : JoinRejected} (h : JoinRejected.new m.reason = .ok m)
    (reason : String) (hreason : m.reason = some reason) :
    reason.utf8ByteSize ≤ maxRejectReasonBytes := by
  rw [hreason, JoinRejected.new] at h
  split at h
  · rename_i hempty
    rw [String.isEmpty_iff] at hempty
    simp [hempty]
  split at h
  · cases h
  · rename_i hlength
    exact Nat.not_lt.mp hlength

theorem EpochWrap.length_of_new {epoch : Nat} {nonce : Nonce} {ciphertext : Bytes} {m : EpochWrap}
    (h : EpochWrap.new epoch nonce ciphertext = .ok m) :
    m.ciphertext.length = epochWrapCiphertextLen := by
  unfold EpochWrap.new at h
  split at h
  · cases h
  · rename_i hlength
    cases h
    exact not_not.mp hlength

theorem ErrorMessage.new_again {code : ErrorCode} {reason : Option String} {m : ErrorMessage}
    (h : ErrorMessage.new code reason = .ok m) : ErrorMessage.new m.code m.reason = .ok m := by
  have hchecked := h
  unfold ErrorMessage.new at h
  split at h
  · cases h
    rfl
  split at h
  · cases h
    rfl
  split at h
  · cases h
  · injection h with h
    rw [← h] at hchecked ⊢
    exact hchecked

theorem utf8ByteSize_of_validateReason {reason : String} (h : validateReason reason = .ok ()) :
    reason.utf8ByteSize ≤ maxErrorReasonBytes := by
  unfold validateReason at h
  split at h
  · cases h
  · rename_i hsize
    exact Nat.not_lt.mp hsize

theorem ErrorMessage.reason_of_new {m : ErrorMessage} (h : ErrorMessage.new m.code m.reason = .ok m)
    (reason : String) (hreason : m.reason = some reason) : validateReason reason = .ok () := by
  rw [hreason, ErrorMessage.new] at h
  split at h
  · injection h with h
    rw [← h] at hreason
    cases hreason
  split at h
  · cases h
  · assumption

/-- An envelope from its constructor. A `u64` is a natural number with its bound. -/
structure EncryptedEnvelope.Built (m : EncryptedEnvelope) : Prop where
  epoch : m.epoch < 2 ^ 64
  senderId : m.senderId < 2 ^ 64
  senderSequence : m.senderSequence < 2 ^ 64
  checked : EncryptedEnvelope.new m.epoch m.senderId m.senderSequence m.nonce m.ciphertext
    m.signature = .ok m

theorem EncryptedEnvelope.Built.length_le {m : EncryptedEnvelope} (h : m.Built) :
    m.ciphertext.length ≤ chatMaxCiphertextLen := by
  have hchecked := h.checked
  unfold EncryptedEnvelope.new at hchecked
  split at hchecked
  · rename_i hlength
    exact hlength.2
  · cases hchecked

section
include law

theorem readSignature_reads {depth : Nat} (v : Signature) (field : Nat) :
    Reads .default depth (readSignature M field) (M.bytes v.toList) v :=
  Reads.fixedBytes law v field _ (by decide) (by decide)

theorem readPubkey_reads {depth : Nat} (v : Key) (field : Nat) :
    Reads .default depth (readPubkey M field) (M.bytes v.toList) v :=
  Reads.fixedBytes law v field _ (by decide) (by decide)

theorem readNonce_reads {depth : Nat} (v : Nonce) (field : Nat) :
    Reads .default depth (readNonce M field) (M.bytes v.toList) v :=
  Reads.fixedBytes law v field _ (by decide) (by decide)

theorem handshakeKey_reads {depth : Nat} (v : Key) (field : Nat) :
    Reads .default depth (handshakeBytes M 32 field) (M.bytes v.toList) v :=
  Reads.fixedBytes law v field _ (by decide) (by decide)

theorem handshakeNonce_reads {depth : Nat} (v : ShortNonce) (field : Nat) :
    Reads .default depth (handshakeBytes M 16 field) (M.bytes v.toList) v :=
  Reads.fixedBytes law v field _ (by decide) (by decide)

theorem handshakeSignature_reads {depth : Nat} (v : Signature) (field : Nat) :
    Reads .default depth (handshakeBytes M 64 field) (M.bytes v.toList) v :=
  Reads.fixedBytes law v field _ (by decide) (by decide)

theorem bytes_reads {depth : Nat} {content : Bytes} (h : content.length ≤ 4096) :
    Reads .default depth (StrictDecoder.bytes M) (M.bytes content) content :=
  Reads.bytes law h (by omega)

theorem str_reads {depth : Nat} {text : String} (h : text.utf8ByteSize ≤ 4096) :
    Reads .default depth (StrictDecoder.str M) (M.str text) text :=
  Reads.str law h (by omega)

/-! ### Handshake messages -/

theorem ClientHello.reads (m : ClientHello) :
    Reads .default 0 (strictDecode M) (m.encode M) m := by
  apply Reads.schema law [1, 2, 3] rfl (by decide)
  · apply ReadsEntries.cons (Reads.store _ (Reads.u8 law m.version))
    apply ReadsEntries.cons (Reads.store _ (handshakeNonce_reads law m.clientNonce 2))
    apply ReadsEntries.cons (Reads.store _ (Reads.u32 law m.features))
    exact .nil
  · rfl

theorem HostHello.reads (m : HostHello) :
    Reads .default 0 (strictDecode M) (m.encode M) m := by
  apply Reads.schema law [1, 2, 3, 4, 5, 6] rfl (by decide)
  · apply ReadsEntries.cons (Reads.store _ (Reads.u8 law m.version))
    apply ReadsEntries.cons (Reads.store _ (handshakeKey_reads law m.roomSessionId 2))
    apply ReadsEntries.cons (Reads.store _ (handshakeKey_reads law m.hostEd25519Pubkey 3))
    apply ReadsEntries.cons (Reads.store _ (handshakeKey_reads law m.hostX25519Pubkey 4))
    apply ReadsEntries.cons (Reads.store _ (handshakeNonce_reads law m.serverNonce 5))
    apply ReadsEntries.cons (Reads.store _ (handshakeSignature_reads law m.hostSignature 6))
    exact .nil
  · rfl

theorem TokenVerify.reads {m : TokenVerify} (h : TokenVerify.new m.token = .ok m) :
    Reads .default 0 (strictDecode M) (m.encode M) m := by
  have hlength := TokenVerify.length_of_new h
  apply Reads.schema law [1] rfl (by decide)
  · apply ReadsEntries.cons (Reads.store _ (bytes_reads law (by omega)))
    exact .nil
  · exact h

theorem PasswordChallenge.reads (m : PasswordChallenge) :
    Reads .default 0 (strictDecode M) (m.encode M) m := by
  apply Reads.schema law [1, 2, 3, 4, 5] rfl (by decide)
  · apply ReadsEntries.cons (Reads.store _ (Reads.u32 law m.mCost))
    apply ReadsEntries.cons (Reads.store _ (Reads.u32 law m.tCost))
    apply ReadsEntries.cons (Reads.store _ (Reads.u8 law m.pCost))
    apply ReadsEntries.cons (Reads.store _ (handshakeNonce_reads law m.salt 4))
    apply ReadsEntries.cons (Reads.store _ (handshakeNonce_reads law m.challengeNonce 5))
    exact .nil
  · rfl

theorem ChallengeProof.reads (m : ChallengeProof) :
    Reads .default 0 (strictDecode M) (m.encode M) m := by
  apply Reads.schema law [1] rfl (by decide)
  · apply ReadsEntries.cons (Reads.store _ (handshakeKey_reads law m.proof 1))
    exact .nil
  · rfl

theorem JoinRequestMessage.reads {P : Primitives} (lawP : P.Lawful) {nickname : String}
    {introduction : Option String} {ed25519Pubkey x25519Pubkey : Key} {signature : Signature}
    {m : JoinRequestMessage}
    (h : JoinRequestMessage.new P nickname introduction ed25519Pubkey x25519Pubkey signature =
      .ok m) :
    Reads .default 0 (strictDecode M P) (m.encode M) m := by
  obtain ⟨hnickname, hintroductions⟩ := fields_of_new h
  have hagain := new_again lawP h
  have hsize : m.nickname.utf8ByteSize ≤ 4 * 32 := utf8ByteSize_of_validateNickname hnickname
  unfold encode
  split
  · rename_i introduction hintroduction
    have hintro : introduction.utf8ByteSize ≤ 4 * 160 :=
      utf8ByteSize_of_validateIntro (hintroductions introduction hintroduction)
    apply Reads.schema law [1, 2, 3, 4, 5] rfl (by decide)
    · apply ReadsEntries.cons (Reads.store _ (str_reads law (by omega)))
      apply ReadsEntries.cons (Reads.store _ (str_reads law (by omega)))
      apply ReadsEntries.cons (Reads.store _ (handshakeKey_reads law m.ed25519Pubkey 3))
      apply ReadsEntries.cons (Reads.store _ (handshakeKey_reads law m.x25519Pubkey 4))
      apply ReadsEntries.cons (Reads.store _ (handshakeSignature_reads law m.signature 5))
      exact .nil
    · rw [hintroduction] at hagain
      exact hagain
  · rename_i hintroduction
    apply Reads.schema law [1, 3, 4, 5] rfl (by decide)
    · apply ReadsEntries.cons (Reads.store _ (str_reads law (by omega)))
      apply ReadsEntries.cons (Reads.store _ (handshakeKey_reads law m.ed25519Pubkey 3))
      apply ReadsEntries.cons (Reads.store _ (handshakeKey_reads law m.x25519Pubkey 4))
      apply ReadsEntries.cons (Reads.store _ (handshakeSignature_reads law m.signature 5))
      exact .nil
    · rw [hintroduction] at hagain
      exact hagain

theorem JoinAccepted.reads {m : JoinAccepted} (h : m.memberId < 2 ^ 64) :
    Reads .default 0 (strictDecode M) (m.encode M) m := by
  apply Reads.schema law [1] rfl (by decide)
  · apply ReadsEntries.cons (Reads.store _ (Reads.u64 law h))
    exact .nil
  · rfl

theorem JoinRejected.reads {m : JoinRejected} (h : JoinRejected.new m.reason = .ok m) :
    Reads .default 0 (strictDecode M) (m.encode M) m := by
  unfold encode
  split
  · rename_i reason hreason
    have hsize := reason_of_new h reason hreason
    rw [maxRejectReasonBytes] at hsize
    apply Reads.schema law [1] rfl (by decide)
    · apply ReadsEntries.cons (Reads.store _ (str_reads law (by omega)))
      exact .nil
    · rw [hreason] at h
      exact h
  · rename_i hreason
    apply Reads.schema law [] rfl (by decide)
    · exact .nil
    · rw [hreason] at h
      exact h

/-! ### Membership messages -/

theorem SnapshotMember.reads {depth : Nat} {m : SnapshotMember} (hdepth : depth < 8)
    (hid : m.memberId < 2 ^ 64) (hnickname : m.nickname.utf8ByteSize ≤ 4096) :
    Reads .default depth (strictDecode M) (m.encode M) m := by
  apply Reads.schema law [1, 2, 3, 4, 5] rfl
    ⟨by decide, by decide, by decide, by decide, hdepth⟩
  · apply ReadsEntries.cons (Reads.store _ (Reads.u64 law hid))
    apply ReadsEntries.cons (Reads.store _ (str_reads law hnickname))
    apply ReadsEntries.cons (Reads.store _ (Reads.u8 law m.color))
    apply ReadsEntries.cons (Reads.store _ (Reads.bool law m.isHost))
    apply ReadsEntries.cons (Reads.store _ (readPubkey_reads law m.ed25519Pubkey 5))
    exact .nil
  · rfl

theorem MemberJoined.reads {m : MemberJoined} (hsequence : m.sequence < 2 ^ 64)
    (hepoch : m.epoch < 2 ^ 64) (hid : m.memberId < 2 ^ 64)
    (hnickname : m.nickname.utf8ByteSize ≤ 4096) :
    Reads .default 0 (strictDecode M) (m.encode M) m := by
  apply Reads.schema law [1, 2, 3, 4, 5, 6] rfl (by decide)
  · apply ReadsEntries.cons (Reads.store _ (Reads.u64 law hsequence))
    apply ReadsEntries.cons (Reads.store _ (Reads.u64 law hepoch))
    apply ReadsEntries.cons (Reads.store _ (Reads.u64 law hid))
    apply ReadsEntries.cons (Reads.store _ (str_reads law hnickname))
    apply ReadsEntries.cons (Reads.store _ (readPubkey_reads law m.ed25519Pubkey 5))
    apply ReadsEntries.cons (Reads.store _ (readSignature_reads law m.signature 6))
    exact .nil
  · rfl

theorem MemberGone.reads {m : MemberGone} (hsequence : m.sequence < 2 ^ 64)
    (hepoch : m.epoch < 2 ^ 64) (hid : m.memberId < 2 ^ 64) :
    Reads .default 0 (strictDecode M) (m.encode M) m := by
  apply Reads.schema law [1, 2, 3, 4] rfl (by decide)
  · apply ReadsEntries.cons (Reads.store _ (Reads.u64 law hsequence))
    apply ReadsEntries.cons (Reads.store _ (Reads.u64 law hepoch))
    apply ReadsEntries.cons (Reads.store _ (Reads.u64 law hid))
    apply ReadsEntries.cons (Reads.store _ (readSignature_reads law m.signature 4))
    exact .nil
  · rfl

theorem JoinPolicyChanged.reads {m : JoinPolicyChanged} (hsequence : m.sequence < 2 ^ 64)
    (hepoch : m.epoch < 2 ^ 64) :
    Reads .default 0 (strictDecode M) (m.encode M) m := by
  apply Reads.schema law [1, 2, 3, 4] rfl (by decide)
  · apply ReadsEntries.cons (Reads.store _ (Reads.u64 law hsequence))
    apply ReadsEntries.cons (Reads.store _ (Reads.u64 law hepoch))
    apply ReadsEntries.cons (Reads.store _ (Reads.bool law m.isOpen))
    apply ReadsEntries.cons (Reads.store _ (readSignature_reads law m.signature 4))
    exact .nil
  · rfl

theorem MemberSnapshot.reads {m : MemberSnapshot} (hsequence : m.sequence < 2 ^ 64)
    (hepoch : m.epoch < 2 ^ 64) (hcount : m.members.length ≤ 256)
    (hmembers : ∀ member ∈ m.members,
      member.memberId < 2 ^ 64 ∧ member.nickname.utf8ByteSize ≤ 4096) :
    Reads .default 0 (strictDecode M) (m.encode M) m := by
  -- the members are maps in an array in a map
  have hread : Reads .default 1 (readMembers M)
      (M.array m.members.length ++ m.members.flatMap (SnapshotMember.encode M)) m.members :=
    Reads.arrayEntries law
      (fun member hmember => SnapshotMember.reads law (by omega) (hmembers member hmember).1
        (hmembers member hmember).2) hcount (by omega) (by decide)
  apply Reads.schema law [1, 2, 3, 4] rfl (by decide)
  · apply ReadsEntries.cons (Reads.store _ (Reads.u64 law hsequence))
    apply ReadsEntries.cons (Reads.store _ (Reads.u64 law hepoch))
    apply ReadsEntries.cons (Reads.store _ hread)
    apply ReadsEntries.cons (Reads.store _ (readSignature_reads law m.signature 4))
    exact .nil
  · rfl

/-! ### Epoch and chat messages -/

theorem EpochWrap.reads {m : EpochWrap} (hepoch : m.epoch < 2 ^ 64)
    (h : EpochWrap.new m.epoch m.nonce m.ciphertext = .ok m) :
    Reads .default 0 (strictDecode M) (m.encode M) m := by
  have hlength : m.ciphertext.length = 48 := length_of_new h
  apply Reads.schema law [1, 2, 3] rfl (by decide)
  · apply ReadsEntries.cons (Reads.store _ (Reads.u64 law hepoch))
    apply ReadsEntries.cons (Reads.store _ (readNonce_reads law m.nonce 2))
    apply ReadsEntries.cons (Reads.store _ (bytes_reads law (by omega)))
    exact .nil
  · exact h

theorem EpochAck.reads {m : EpochAck} (h : m.epoch < 2 ^ 64) :
    Reads .default 0 (strictDecode M) (m.encode M) m := by
  apply Reads.schema law [1] rfl (by decide)
  · apply ReadsEntries.cons (Reads.store _ (Reads.u64 law h))
    exact .nil
  · rfl

theorem EncryptedEnvelope.reads {m : EncryptedEnvelope} (h : m.Built)
    (hlength : m.ciphertext.length ≤ 4096) :
    Reads .default 0 (strictDecode M) (m.encode M) m := by
  apply Reads.schema law [1, 2, 3, 4, 5, 6] rfl (by decide)
  · apply ReadsEntries.cons (Reads.store _ (Reads.u64 law h.epoch))
    apply ReadsEntries.cons (Reads.store _ (Reads.u64 law h.senderId))
    apply ReadsEntries.cons (Reads.store _ (Reads.u64 law h.senderSequence))
    apply ReadsEntries.cons (Reads.store _ (readNonce_reads law m.nonce 4))
    apply ReadsEntries.cons (Reads.store _ (bytes_reads law hlength))
    apply ReadsEntries.cons (Reads.store _ (readSignature_reads law m.signature 6))
    exact .nil
  · exact h.checked

/-- The largest ciphertexts the constructor lets through are over the decoder's limit. -/
theorem EncryptedEnvelope.fails {m : EncryptedEnvelope} (h : m.Built)
    (hlength : 4096 < m.ciphertext.length) :
    Fails .default 0 (strictDecode M) (m.encode M)
      (.cbor (.bytesTooLong m.ciphertext.length 4096)) := by
  change Fails .default 0 _ (M.map [1, 2, 3, 4, 5, 6].length ++ encodeEntries M
    ([(1, M.uint m.epoch), (2, M.uint m.senderId), (3, M.uint m.senderSequence),
      (4, M.bytes m.nonce.toList)] ++ (5, M.bytes m.ciphertext) ::
      [(6, M.bytes m.signature.toList)])) _
  apply Fails.schema law [1, 2, 3, 4, 5, 6]
  · rfl
  · decide
  · apply ReadsEntries.cons (Reads.store _ (Reads.u64 law h.epoch))
    apply ReadsEntries.cons (Reads.store _ (Reads.u64 law h.senderId))
    apply ReadsEntries.cons (Reads.store _ (Reads.u64 law h.senderSequence))
    apply ReadsEntries.cons (Reads.store _ (readNonce_reads law m.nonce 4))
    exact .nil
  · exact Fails.store _ (Fails.bytes law hlength (Nat.lt_of_le_of_lt h.length_le (by decide)))

/-! ### Control messages -/

theorem ErrorMessage.reads {m : ErrorMessage}
    (h : ∀ reason, m.reason = some reason → validateReason reason = .ok ()) :
    Reads .default 0 (strictDecode M) (m.encode M) m := by
  have hcode : Reads .default 1 (StrictDecoder.u8 M) (M.uint m.code.asU8.toNat) m.code.asU8 :=
    Reads.u8 law _
  unfold encode
  split
  · rename_i reason hreason
    have hvalid := h reason hreason
    have hsize := utf8ByteSize_of_validateReason hvalid
    rw [maxErrorReasonBytes] at hsize
    apply Reads.schema law [1, 2] rfl (by decide)
    · apply ReadsEntries.cons (hcode.convert (by rw [ErrorCode.fromU8_asU8]; rfl))
      apply ReadsEntries.cons ((str_reads law (by omega)).convert (by rw [hvalid]; rfl))
      exact .nil
    · rw [← hreason]
      rfl
  · rename_i hreason
    apply Reads.schema law [1] rfl (by decide)
    · apply ReadsEntries.cons (hcode.convert (by rw [ErrorCode.fromU8_asU8]; rfl))
      exact .nil
    · rw [← hreason]
      rfl

theorem decodeEmpty_reads : Reads .default 0 (decodeEmpty M) (encodeEmpty M) () := by
  apply Reads.mapEntries law [] rfl (by decide)
  exact .nil

end

/-! ### Messages -/

namespace Message

/-- A message built through its constructors. -/
inductive Built (P : Primitives) : Message → Prop
  | keepalive : Built P .keepalive
  | error {code reason m} (h : ErrorMessage.new code reason = .ok m) : Built P (.error m)
  | shutdown : Built P .shutdown
  | hostHello {m} : Built P (.hostHello m)
  | clientHello {m} : Built P (.clientHello m)
  | tokenVerify {token m} (h : TokenVerify.new token = .ok m) : Built P (.tokenVerify m)
  | passwordChallenge {m} : Built P (.passwordChallenge m)
  | challengeProof {m} : Built P (.challengeProof m)
  | joinRequest {nickname introduction ed25519Pubkey x25519Pubkey signature m}
      (h : JoinRequestMessage.new P nickname introduction ed25519Pubkey x25519Pubkey signature =
        .ok m) : Built P (.joinRequest m)
  | joinAccepted {m : JoinAccepted} (hid : m.memberId < 2 ^ 64) : Built P (.joinAccepted m)
  | joinRejected {reason m} (h : JoinRejected.new reason = .ok m) : Built P (.joinRejected m)
  | epochWrap {m : EpochWrap} (hepoch : m.epoch < 2 ^ 64)
      (h : EpochWrap.new m.epoch m.nonce m.ciphertext = .ok m) : Built P (.epochWrap m)
  | epochAck {m : EpochAck} (hepoch : m.epoch < 2 ^ 64) : Built P (.epochAck m)
  | memberJoined {m : MemberJoined} (hsequence : m.sequence < 2 ^ 64) (hepoch : m.epoch < 2 ^ 64)
      (hid : m.memberId < 2 ^ 64)
      (hnickname : m.nickname.utf8ByteSize ≤ Limits.default.maxCborTextBytes) :
      Built P (.memberJoined m)
  | memberLeft {m : MemberGone} (hsequence : m.sequence < 2 ^ 64) (hepoch : m.epoch < 2 ^ 64)
      (hid : m.memberId < 2 ^ 64) : Built P (.memberLeft m)
  | memberKicked {m : MemberGone} (hsequence : m.sequence < 2 ^ 64) (hepoch : m.epoch < 2 ^ 64)
      (hid : m.memberId < 2 ^ 64) : Built P (.memberKicked m)
  | joinPolicyChanged {m : JoinPolicyChanged} (hsequence : m.sequence < 2 ^ 64)
      (hepoch : m.epoch < 2 ^ 64) : Built P (.joinPolicyChanged m)
  | memberSnapshot {m : MemberSnapshot} (hsequence : m.sequence < 2 ^ 64)
      (hepoch : m.epoch < 2 ^ 64) (hcount : m.members.length ≤ 256)
      (hmembers : ∀ member ∈ m.members, member.memberId < 2 ^ 64 ∧
        member.nickname.utf8ByteSize ≤ Limits.default.maxCborTextBytes) :
      Built P (.memberSnapshot m)
  | chatMessage {m : EncryptedEnvelope} (h : m.Built) : Built P (.chatMessage m)
  | colorChange {m : EncryptedEnvelope} (h : m.Built) : Built P (.colorChange m)
  | timeoutRequest {m : EncryptedEnvelope} (h : m.Built) : Built P (.timeoutRequest m)
  | timeoutChanged {m : EncryptedEnvelope} (h : m.Built) : Built P (.timeoutChanged m)

/-- A fresh decoder finds one frame in `bytes`, and in it this message. -/
def RoundTrips (M : Minicbor) (P : Primitives) (message : Message) (bytes : Bytes) : Prop :=
  ∃ frame, (FrameDecoder.new .default).feed bytes = .ok (FrameDecoder.new .default, [frame]) ∧
    decode M P frame .default = .ok message

/-- The ciphertext of a message, if it has one, is within the decoder's limit. -/
def Fits (message : Message) : Prop :=
  ∀ envelope, message.envelope? = some envelope →
    envelope.ciphertext.length ≤ Limits.default.maxCborBytesLen

variable {P : Primitives} (lawP : P.Lawful) {message : Message} {bytes : Bytes}

section
include law lawP

theorem decodeBody_reads (hbuilt : message.Built P) (hfits : message.Fits) :
    Reads .default 0 (decodeBody M P message.messageType) (message.encodeBody M) message := by
  cases hbuilt with
  | keepalive => exact (decodeEmpty_reads law).store fun _ => keepalive
  | error h =>
      exact (ErrorMessage.reads law (ErrorMessage.reason_of_new (ErrorMessage.new_again h))).store _
  | shutdown => exact (decodeEmpty_reads law).store fun _ => shutdown
  | hostHello => exact (HostHello.reads law _).store _
  | clientHello => exact (ClientHello.reads law _).store _
  | tokenVerify h => exact (TokenVerify.reads law (TokenVerify.new_again h)).store _
  | passwordChallenge => exact (PasswordChallenge.reads law _).store _
  | challengeProof => exact (ChallengeProof.reads law _).store _
  | joinRequest h => exact (JoinRequestMessage.reads law lawP h).store _
  | joinAccepted hid => exact (JoinAccepted.reads law hid).store _
  | joinRejected h => exact (JoinRejected.reads law (JoinRejected.new_again h)).store _
  | epochWrap hepoch h => exact (EpochWrap.reads law hepoch h).store _
  | epochAck hepoch => exact (EpochAck.reads law hepoch).store _
  | memberJoined hsequence hepoch hid hnickname =>
      exact (MemberJoined.reads law hsequence hepoch hid hnickname).store _
  | memberLeft hsequence hepoch hid => exact (MemberGone.reads law hsequence hepoch hid).store _
  | memberKicked hsequence hepoch hid => exact (MemberGone.reads law hsequence hepoch hid).store _
  | joinPolicyChanged hsequence hepoch =>
      exact (JoinPolicyChanged.reads law hsequence hepoch).store _
  | memberSnapshot hsequence hepoch hcount hmembers =>
      exact (MemberSnapshot.reads law hsequence hepoch hcount hmembers).store _
  | chatMessage h => exact (EncryptedEnvelope.reads law h (hfits _ rfl)).store _
  | colorChange h => exact (EncryptedEnvelope.reads law h (hfits _ rfl)).store _
  | timeoutRequest h => exact (EncryptedEnvelope.reads law h (hfits _ rfl)).store _
  | timeoutChanged h => exact (EncryptedEnvelope.reads law h (hfits _ rfl)).store _

omit lawP in
theorem decodeBody_fails {envelope : EncryptedEnvelope} (hbuilt : message.Built P)
    (henvelope : message.envelope? = some envelope)
    (hlength : Limits.default.maxCborBytesLen < envelope.ciphertext.length) :
    Fails .default 0 (decodeBody M P message.messageType) (message.encodeBody M)
      (.cbor (.bytesTooLong envelope.ciphertext.length Limits.default.maxCborBytesLen)) := by
  cases hbuilt with
  | chatMessage h =>
      cases henvelope
      exact (EncryptedEnvelope.fails law h hlength).store _
  | colorChange h =>
      cases henvelope
      exact (EncryptedEnvelope.fails law h hlength).store _
  | timeoutRequest h =>
      cases henvelope
      exact (EncryptedEnvelope.fails law h hlength).store _
  | timeoutChanged h =>
      cases henvelope
      exact (EncryptedEnvelope.fails law h hlength).store _
  | _ => cases henvelope

omit law lawP in
/-- An encoded message is one frame on the wire. -/
theorem feed_encode (h : message.encode M .default = .ok bytes) :
    (FrameDecoder.new .default).feed bytes =
      .ok (FrameDecoder.new .default, [⟨message.messageType, message.encodeBody M⟩]) := by
  unfold encode at h
  split at h
  · rename_i framed hframe
    cases h
    exact FrameDecoder.feed_encodeFrame (by decide) hframe
  · cases h

omit law lawP in
theorem roundTrips_iff_decode (h : message.encode M .default = .ok bytes) :
    message.RoundTrips M P bytes ↔
      decode M P ⟨message.messageType, message.encodeBody M⟩ .default = .ok message := by
  unfold RoundTrips
  rw [feed_encode h]
  constructor
  · rintro ⟨frame, hframe, hdecode⟩
    cases hframe
    exact hdecode
  · intro hdecode
    exact ⟨_, rfl, hdecode⟩

theorem roundTrips_of_fits (hbuilt : message.Built P)
    (h : message.encode M .default = .ok bytes) (hfits : message.Fits) :
    message.RoundTrips M P bytes := by
  rw [roundTrips_iff_decode h]
  have hread := decodeBody_reads law lawP hbuilt hfits []
  rw [List.append_nil] at hread
  simp only [decode, decodeMessageBody, StrictDecoder.new, hread, bind, Except.bind]
  rfl

omit lawP in
theorem decode_envelope_fails {envelope : EncryptedEnvelope} (hbuilt : message.Built P)
    (henvelope : message.envelope? = some envelope)
    (hlength : Limits.default.maxCborBytesLen < envelope.ciphertext.length) :
    decode M P ⟨message.messageType, message.encodeBody M⟩ .default =
      .error (.cbor (.bytesTooLong envelope.ciphertext.length
        Limits.default.maxCborBytesLen)) := by
  have hfails := decodeBody_fails law hbuilt henvelope hlength []
  rw [List.append_nil] at hfails
  simp only [decode, decodeMessageBody, StrictDecoder.new, hfails, bind, Except.bind]

/-- A message arrives exactly when its ciphertext fits. -/
theorem roundTrips_iff_fits (hbuilt : message.Built P)
    (h : message.encode M .default = .ok bytes) :
    message.RoundTrips M P bytes ↔ message.Fits := by
  refine ⟨fun hround envelope henvelope => ?_, roundTrips_of_fits law lawP hbuilt h⟩
  by_contra hlength
  rw [roundTrips_iff_decode h,
    decode_envelope_fails law hbuilt henvelope (Nat.not_le.mp hlength)] at hround
  cases hround

end

end Message

/-- RFC 8949 adds few bytes to an envelope, so the frame limit never stops one. -/
theorem EncryptedEnvelope.Built.encodes {m : EncryptedEnvelope} (h : m.Built) :
    ∃ bytes, (Message.chatMessage m).encode .rfc8949 .default = .ok bytes := by
  have hlength := h.length_le
  rw [chatMaxCiphertextLen, xchachaTagLen] at hlength
  have hsize : (m.encode .rfc8949).length + minFrameBodyLen ≤ Limits.default.maxFrameSize := by
    have hepoch := Cbor.length_head_le 0 m.epoch
    have hsender := Cbor.length_head_le 0 m.senderId
    have hsequence := Cbor.length_head_le 0 m.senderSequence
    have hbytes := Cbor.length_head_le 2 m.ciphertext.length
    have hmax : Limits.default.maxFrameSize = 16384 := rfl
    simp only [EncryptedEnvelope.encode, encodeEntries, Minicbor.rfc8949, Cbor.uint,
      Cbor.byteString, Cbor.map, List.flatMap_cons, List.flatMap_nil, List.length_append,
      List.length_nil, Vector.length_toList, minFrameBodyLen, hmax]
    -- the heads of the map, its six keys, the nonce and the signature are one or two bytes
    have hheads : (Cbor.head 5 6).length + (Cbor.head 0 1).length + (Cbor.head 0 2).length +
        (Cbor.head 0 3).length + (Cbor.head 0 4).length + (Cbor.head 0 5).length +
        (Cbor.head 0 6).length + (Cbor.head 2 24).length + (Cbor.head 2 64).length = 11 := by
      decide
    omega
  unfold Message.encode Message.encodeBody encodeFrame
  dsimp only
  rw [if_neg (Nat.not_lt.mpr hsize)]
  exact ⟨_, rfl⟩

/-! ### Sealed messages -/

namespace ChatSession
open Transcript
variable {P : Primitives} (lawP : P.Lawful)

/-- The session's counters are `u64`s, also after one more message. -/
structure InRange (s : ChatSession) : Prop where
  epoch : ∀ epoch, s.epoch = some epoch → epoch < 2 ^ 64
  memberId : s.memberId < 2 ^ 64
  senderSequence : s.senderSequence + 1 < 2 ^ 64

private theorem length_utf8 (text : String) : (utf8 text).length = text.utf8ByteSize := by
  rw [utf8, Array.length_toList]
  rfl

section
include lawP

theorem built_of_sealMessage {s : ChatSession} {nonce : Option Nonce} {identity : MemberIdentity}
    {messageType : UInt8} {plaintext : Bytes} {envelope : EncryptedEnvelope} (hrange : s.InRange)
    (h : (s.sealMessage P nonce identity messageType plaintext).2 = .ok envelope) :
    envelope.Built ∧ envelope.ciphertext.length = plaintext.length + xchachaTagLen := by
  unfold sealMessage at h
  split at h
  · cases h
  rename_i epoch epochKey hcurrent
  dsimp only at h
  split at h
  · cases h
  rename_i sealedEnvelope hseal
  split at h
  · cases h
  rename_i checked hnew
  cases h
  have hepoch : epoch < 2 ^ 64 := hrange.epoch epoch (by simp [ChatSession.epoch, hcurrent])
  have hlength := length_of_sealEnvelope lawP hseal
  have hfields := hnew
  unfold EncryptedEnvelope.new at hfields
  split at hfields
  · cases hfields
    exact ⟨⟨hepoch, hrange.memberId, hrange.senderSequence, hnew⟩, hlength⟩
  · cases hfields

theorem sendChat_succeeds {s : ChatSession} {epoch : Nat} {epochKey : Key} {text : String}
    (hepoch : s.currentEpoch = some (epoch, epochKey))
    (htext : validateChatText text .default = .ok ()) (hnonempty : 0 < text.utf8ByteSize)
    (nonce : Nonce) (identity : MemberIdentity) :
    ∃ message, (s.sendChat P (some nonce) identity text).2 = .ok message := by
  have hsize : text.utf8ByteSize ≤ 4096 := by
    unfold validateChatText at htext
    split at htext
    · cases htext
    split at htext
    · cases htext
    · rename_i hsize
      exact Nat.not_lt.mp hsize
  obtain ⟨ciphertext, hencrypt⟩ := lawP.encrypt_succeeds epochKey nonce
    (chatAad 1 s.roomSessionId epoch s.memberId (s.senderSequence + 1) msgChat) (utf8 text)
    (by rw [length_utf8]; omega)
  have hlength := lawP.encrypt_length _ _ _ _ _ hencrypt
  rw [length_utf8, xchachaTagLen] at hlength
  have hrange : chatMinCiphertextLen ≤ ciphertext.length ∧
      ciphertext.length ≤ chatMaxCiphertextLen := by
    simp only [chatMinCiphertextLen, chatMaxCiphertextLen, xchachaTagLen]
    omega
  simp only [sendChat, htext, sealMessage, hepoch, sealEnvelope, hencrypt, EncryptedEnvelope.new,
    if_pos hrange]
  exact ⟨_, rfl⟩

theorem envelope_of_sendChat {s : ChatSession} {nonce : Option Nonce} {identity : MemberIdentity}
    {text : String} {message : Message} (hrange : s.InRange)
    (h : (s.sendChat P nonce identity text).2 = .ok message) :
    ∃ envelope, message = .chatMessage envelope ∧ envelope.Built ∧
      envelope.ciphertext.length = text.utf8ByteSize + xchachaTagLen := by
  unfold sendChat at h
  split at h
  · cases h
  dsimp only at h
  cases hseal : (s.sealMessage P nonce identity msgChat (utf8 text)).2 with
  | error error => rw [hseal] at h; cases h
  | ok envelope =>
      rw [hseal] at h
      cases h
      obtain ⟨hbuilt, hlength⟩ := built_of_sealMessage lawP hrange hseal
      exact ⟨envelope, rfl, hbuilt, by rw [hlength, length_utf8]⟩

end

end ChatSession

/-- A message built through its constructors and encoded arrives if and only if its ciphertext is
within the decoder's limit of 4096 bytes; for a chat message, if and only if its text leaves 16 of
them for the authentication tag. -/
theorem Message.round_trip_iff (law : M.Lawful) {P : Primitives} (lawP : P.Lawful) :
    (∀ (message : Message) (bytes : Bytes), message.Built P →
      message.encode M .default = .ok bytes → (message.RoundTrips M P bytes ↔ message.Fits)) ∧
    ∀ (s : ChatSession) (nonce : Option Nonce) (identity : MemberIdentity) (text : String)
      (message : Message) (bytes : Bytes), s.InRange →
      (s.sendChat P nonce identity text).2 = .ok message →
      message.encode M .default = .ok bytes →
      (message.RoundTrips M P bytes ↔
        text.utf8ByteSize + xchachaTagLen ≤ Limits.default.maxCborBytesLen) := by
  refine ⟨fun message bytes => Message.roundTrips_iff_fits law lawP, ?_⟩
  intro s nonce identity text message bytes hrange hsend hencode
  obtain ⟨envelope, rfl, hbuilt, hlength⟩ := ChatSession.envelope_of_sendChat lawP hrange hsend
  rw [Message.roundTrips_iff_fits law lawP (.chatMessage hbuilt) hencode, ← hlength]
  constructor
  · exact fun hfits => hfits envelope rfl
  · rintro hfits found ⟨⟩
    exact hfits

/-! ### The symbolic chat -/

namespace Symbolic

/-- A participant of the symbolic room who holds the key of epoch 1. -/
def participant : ChatSession :=
  (ChatSession.new (Vector.replicate 32 5) (Vector.replicate 32 1) (Vector.replicate 32 2)
    1).installEpoch 1 (Vector.replicate 32 7)

def identity : MemberIdentity := ⟨Vector.replicate 32 8, Vector.replicate 32 9⟩

theorem participant_inRange : participant.InRange where
  epoch := by
    rintro epoch ⟨⟩
    decide
  memberId := by decide
  senderSequence := by decide

def nonce : Option Nonce := some (Vector.replicate 24 6)

/-- What the participant sends for `text`. -/
def chat (text : String) : Message :=
  ((participant.sendChat primitives nonce identity text).2.toOption).getD .keepalive

/-- The bytes of an encoded message. -/
def wire (message : Message) : Bytes :=
  ((message.encode .rfc8949 .default).toOption).getD []

theorem wire_encode {envelope : EncryptedEnvelope} (h : envelope.Built) :
    (Message.chatMessage envelope).encode .rfc8949 .default =
      .ok (wire (.chatMessage envelope)) := by
  obtain ⟨bytes, hbytes⟩ := h.encodes
  rw [wire, hbytes]
  rfl

/-- A text of `n` letters. -/
def letters (n : Nat) : String := String.ofList (List.replicate n 'a')

theorem size_letters (n : Nat) : (letters n).utf8ByteSize = n := by
  induction n with
  | zero => rfl
  | succ n ih =>
      have hch : (String.ofList ['a']).utf8ByteSize = 1 := rfl
      have hsplit : letters (n + 1) = String.ofList ['a'] ++ letters n := by
        rw [letters, letters, ← String.ofList_append, List.singleton_append, List.replicate_succ]
      rw [hsplit, String.utf8ByteSize_append, hch, ih, Nat.add_comm]

theorem letters_valid {n : Nat} (h : n ≤ Limits.default.maxChatTextBytes) :
    validateChatText (letters n) .default = .ok () := by
  have hcontrol : containsControlChar (letters n).toList = false := by
    rw [letters, String.toList_ofList, containsControlChar, List.any_eq_false]
    intro ch hch
    rw [List.eq_of_mem_replicate hch]
    decide
  rw [validateChatText, hcontrol, size_letters, if_neg Bool.false_ne_true,
    if_neg (Nat.not_lt.mpr h)]

theorem letters_sent {n : Nat} (hpos : 0 < n) (h : n ≤ Limits.default.maxChatTextBytes) :
    (participant.sendChat primitives nonce identity (letters n)).2 = .ok (chat (letters n)) := by
  obtain ⟨message, hsend⟩ := ChatSession.sendChat_succeeds (s := participant) lawful rfl
    (letters_valid h) (by rwa [size_letters]) (Vector.replicate 24 6) identity
  rw [chat, nonce, hsend]
  rfl

end Symbolic

theorem Message.full_chat_text_lost :
    (Symbolic.letters 4096).utf8ByteSize = Limits.default.maxChatTextBytes ∧
    (Symbolic.participant.sendChat Symbolic.primitives Symbolic.nonce Symbolic.identity
      (Symbolic.letters 4096)).2 = .ok (Symbolic.chat (Symbolic.letters 4096)) ∧
    (Symbolic.chat (Symbolic.letters 4096)).Built Symbolic.primitives ∧
    (Symbolic.chat (Symbolic.letters 4096)).encode .rfc8949 .default =
      .ok (Symbolic.wire (Symbolic.chat (Symbolic.letters 4096))) ∧
    ¬ (Symbolic.chat (Symbolic.letters 4096)).RoundTrips .rfc8949 Symbolic.primitives
      (Symbolic.wire (Symbolic.chat (Symbolic.letters 4096))) := by
  have hsend := Symbolic.letters_sent (n := 4096) (by decide) (by decide)
  obtain ⟨envelope, hchat, hbuilt, hlength⟩ :=
    ChatSession.envelope_of_sendChat Symbolic.lawful Symbolic.participant_inRange hsend
  rw [Symbolic.size_letters] at hlength
  have hencode := Symbolic.wire_encode hbuilt
  refine ⟨Symbolic.size_letters 4096, hsend, ?_⟩
  rw [hchat]
  refine ⟨.chatMessage hbuilt, hencode, ?_⟩
  rw [Message.roundTrips_iff_fits Minicbor.rfc8949_lawful Symbolic.lawful (.chatMessage hbuilt)
    hencode]
  intro hfits
  have hfit := hfits envelope rfl
  rw [hlength] at hfit
  exact absurd hfit (by decide)

theorem Message.round_trip_iff_hello :
    (Symbolic.chat "hello").RoundTrips .rfc8949 Symbolic.primitives
      (Symbolic.wire (Symbolic.chat "hello")) :=
  ((Message.round_trip_iff Minicbor.rfc8949_lawful Symbolic.lawful).2 Symbolic.participant
    Symbolic.nonce Symbolic.identity "hello" _ _ Symbolic.participant_inRange
    (by decide +kernel) (by decide +kernel)).mpr (by decide)

end Veilroom
