import Veilroom.Basic
import Veilroom.Library.Codes

/-!
Third-party cryptography, randomness and the identities built on them
(`crypto/mod.rs`, `crypto/transcript.rs`, `crypto/identity.rs`).

The dalek, HKDF, AEAD, SHA-2 and Unicode crates are one parameter of the model.
What the room relies on about them is `Primitives.Lawful`; no secrecy or
unforgeability is assumed anywhere.
-/
namespace Veilroom

/-- The third-party functions the room calls. Secret keys are their seed bytes. -/
structure Primitives where
  sha256 : Bytes → Key
  ed25519Public : Key → Key
  ed25519Sign : Key → Bytes → Signature
  /-- `VerifyingKey::from_bytes` and `verify` together. -/
  ed25519Verify : Key → Bytes → Signature → Bool
  x25519Public : Key → Key
  /-- `StaticSecret::diffie_hellman`: own secret, other public key. -/
  diffieHellman : Key → Key → Key
  /-- `SharedSecret::was_contributory`. -/
  wasContributory : Key → Bool
  /-- HKDF-SHA-256 with salt, input key material and info, expanded to 32 bytes. -/
  hkdfSha256 : Bytes → Bytes → Bytes → Key
  /-- HMAC-SHA-256: key, message. -/
  hmacSha256 : Bytes → Bytes → Key
  /-- XChaCha20-Poly1305: key, nonce, additional data, plaintext. -/
  aeadEncrypt : Key → Nonce → Bytes → Bytes → Option Bytes
  /-- XChaCha20-Poly1305: key, nonce, additional data, ciphertext. -/
  aeadDecrypt : Key → Nonce → Bytes → Bytes → Option Bytes
  /-- `UnicodeNormalization::nfc`. -/
  nfc : List Char → List Char
  /-- Rust's `Debug` form of a string. -/
  debugStr : String → String
  /-- The texts of `getrandom::Error` and `aead::Error`. -/
  randomnessText : String
  aeadText : String

/-- The documented behaviour of the third-party functions that the room relies on. The AEAD
refuses only plaintexts far longer than anything the room seals (2 ^ 38 bytes). -/
structure Primitives.Lawful (P : Primitives) : Prop where
  verify_sign : ∀ secret message,
    P.ed25519Verify (P.ed25519Public secret) message (P.ed25519Sign secret message) = true
  dh_comm : ∀ a b, P.diffieHellman a (P.x25519Public b) = P.diffieHellman b (P.x25519Public a)
  encrypt_succeeds : ∀ key nonce aad plaintext, plaintext.length < 2 ^ 38 →
    ∃ ciphertext, P.aeadEncrypt key nonce aad plaintext = some ciphertext
  encrypt_length : ∀ key nonce aad plaintext ciphertext,
    P.aeadEncrypt key nonce aad plaintext = some ciphertext →
      ciphertext.length = plaintext.length + xchachaTagLen
  decrypt_encrypt : ∀ key nonce aad plaintext ciphertext,
    P.aeadEncrypt key nonce aad plaintext = some ciphertext →
      P.aeadDecrypt key nonce aad ciphertext = some plaintext
  nfc_nil : P.nfc [] = []
  nfc_nfc : ∀ text, P.nfc (P.nfc text) = P.nfc text
  /-- A plain space is a boundary of the normalization on both of its sides. -/
  nfc_space : ∀ before rest, P.nfc (before ++ ' ' :: rest) = P.nfc before ++ ' ' :: P.nfc rest
  nfc_space_free : ∀ text, ' ' ∉ text → ' ' ∉ P.nfc text

/-- What `getrandom` returns to the calls one event makes, by purpose: the invitation token,
the epoch key, and the nonces in the order they are drawn. -/
structure Rng where
  token : Option Key
  epochKey : Option Key
  nonce : Nat → Option Nonce

/-- No call to the operating system's generator fails. -/
structure Rng.Succeeds (rng : Rng) : Prop where
  token : ∃ token, rng.token = some token
  epochKey : ∃ key, rng.epochKey = some key
  nonce : ∀ i, ∃ nonce, rng.nonce i = some nonce

inductive CryptoError
  | randomness | argon2 | invalidHmacKey | aead | hkdf | invalidEpochKeyLength
  | nonContributoryX25519
deriving DecidableEq, Repr

/-! ### Transcripts -/

namespace Transcript

def roomEventLabel : String := "VEILROOM-ROOM-EVENT-V1"
def chatMessageLabel : String := "VEILROOM-CHAT-MESSAGE-V1"
def joinRequestLabel : String := "VEILROOM-JOIN-REQUEST-V1"
def hostHelloLabel : String := "VEILROOM-HOST-HELLO-V1"
def epochWrapLabel : String := "VEILROOM-EPOCH-WRAP-V1"
def memberWrapKeyLabel : String := "VEILROOM-MEMBER-WRAP-KEY-V1"

/-- `str::as_bytes`. -/
def utf8 (text : String) : Bytes := text.toByteArray.data.toList

/-! The fields `TranscriptBuilder` appends. -/

def u8 (value : UInt8) : Bytes := [value]
def u16 (value : Nat) : Bytes := BigEndian.encode 2 value
def u32 (value : Nat) : Bytes := BigEndian.encode 4 value
def u64 (value : Nat) : Bytes := BigEndian.encode 8 value
def bytes (value : Bytes) : Bytes := u32 value.length ++ value
def label (text : String) : Bytes := bytes (utf8 text)
def fixed {n : Nat} (value : Vector UInt8 n) : Bytes := value.toList

end Transcript
open Transcript

/-- `room_event_transcript`. -/
def roomEventTranscript (version : UInt8) (roomSessionId : Key) (sequence epoch : Nat)
    (eventType : UInt8) (body : Bytes) : Bytes :=
  label roomEventLabel ++ u8 version ++ fixed roomSessionId ++ u64 sequence ++ u64 epoch ++
    u8 eventType ++ bytes body

/-- `member_joined_body`. -/
def memberJoinedBody (memberId : Nat) (nickname : String) (ed25519Pubkey : Key) : Bytes :=
  u64 memberId ++ bytes (utf8 nickname) ++ fixed ed25519Pubkey

/-- `member_gone_body`. -/
def memberGoneBody (memberId : Nat) : Bytes := u64 memberId

/-- `join_policy_body`. -/
def joinPolicyBody (isOpen : Bool) : Bytes := [if isOpen then 1 else 0]

/-- `SnapshotBodyMember`. -/
structure SnapshotBodyMember where
  memberId : Nat
  nickname : String
  colorIndex : UInt8
  isHost : Bool
  ed25519Pubkey : Key

/-- `member_snapshot_body`. -/
def memberSnapshotBody (members : List SnapshotBodyMember) : Bytes :=
  u64 members.length ++ members.flatMap fun member =>
    u64 member.memberId ++ bytes (utf8 member.nickname) ++ u8 member.colorIndex ++
      u8 (if member.isHost then 1 else 0) ++ fixed member.ed25519Pubkey

/-- `host_hello_transcript`. -/
def hostHelloTranscript (version : UInt8) (onionAddress : String) (virtualPort : Nat)
    (roomSessionId hostEd25519Pubkey hostX25519Pubkey : Key) (clientNonce serverNonce : ShortNonce)
    (tokenHash : Key) (offeredVersion : UInt8) (clientFeatures : Nat) : Bytes :=
  label hostHelloLabel ++ u8 version ++ bytes (utf8 onionAddress) ++ u16 virtualPort ++
    fixed roomSessionId ++ fixed hostEd25519Pubkey ++ fixed hostX25519Pubkey ++
    fixed clientNonce ++ fixed serverNonce ++ fixed tokenHash ++ u8 offeredVersion ++
    u32 clientFeatures

/-- `join_request_transcript`. -/
def joinRequestTranscript (version : UInt8) (roomSessionId : Key)
    (clientNonce serverNonce : ShortNonce) (nickname : String)
    (introductionHash participantEd25519Pubkey participantX25519Pubkey : Key)
    (onionAddress : String) (tokenHash : Key) : Bytes :=
  label joinRequestLabel ++ u8 version ++ fixed roomSessionId ++ fixed clientNonce ++
    fixed serverNonce ++ bytes (utf8 nickname) ++ fixed introductionHash ++
    fixed participantEd25519Pubkey ++ fixed participantX25519Pubkey ++
    bytes (utf8 onionAddress) ++ fixed tokenHash

/-! ### Identities and epoch keys -/

/-- `MemberWrapKey`, the key of one member's channel. -/
structure MemberWrapKey where
  bytes : Key
deriving DecidableEq

/-- `MemberWrapKey::derive_checked`. -/
def MemberWrapKey.deriveChecked (P : Primitives) (shared roomSessionId : Key) (memberId : Nat) :
    Except CryptoError MemberWrapKey :=
  if P.wasContributory shared then
    .ok ⟨P.hkdfSha256 (fixed roomSessionId) (fixed shared)
      (utf8 memberWrapKeyLabel ++ u64 memberId)⟩
  else .error .nonContributoryX25519

structure HostIdentity where
  ed25519 : Key
  x25519 : Key
deriving DecidableEq

namespace HostIdentity
variable (P : Primitives)

def ed25519Pubkey (identity : HostIdentity) : Key := P.ed25519Public identity.ed25519
def x25519Pubkey (identity : HostIdentity) : Key := P.x25519Public identity.x25519
def sign (identity : HostIdentity) (message : Bytes) : Signature :=
  P.ed25519Sign identity.ed25519 message

/-- `HostIdentity::try_wrap_key_for`. -/
def tryWrapKeyFor (identity : HostIdentity) (memberX25519Pubkey roomSessionId : Key)
    (memberId : Nat) : Except CryptoError MemberWrapKey :=
  MemberWrapKey.deriveChecked P (P.diffieHellman identity.x25519 memberX25519Pubkey)
    roomSessionId memberId

end HostIdentity

structure MemberIdentity where
  ed25519 : Key
  x25519 : Key
deriving DecidableEq

namespace MemberIdentity
variable (P : Primitives)

def ed25519Pubkey (identity : MemberIdentity) : Key := P.ed25519Public identity.ed25519
def x25519Pubkey (identity : MemberIdentity) : Key := P.x25519Public identity.x25519
def sign (identity : MemberIdentity) (message : Bytes) : Signature :=
  P.ed25519Sign identity.ed25519 message

/-- `MemberIdentity::try_wrap_key_for`. -/
def tryWrapKeyFor (identity : MemberIdentity) (hostX25519Pubkey roomSessionId : Key)
    (memberId : Nat) : Except CryptoError MemberWrapKey :=
  MemberWrapKey.deriveChecked P (P.diffieHellman identity.x25519 hostX25519Pubkey)
    roomSessionId memberId

end MemberIdentity

/-- `EpochEnvelope`. -/
structure EpochEnvelope where
  nonce : Nonce
  ciphertext : Bytes
deriving DecidableEq

/-- `epoch_aad`. -/
def epochAad (epoch : Nat) (roomSessionId : Key) : Bytes :=
  utf8 epochWrapLabel ++ fixed roomSessionId ++ u64 epoch

/-- `wrap_epoch_key`; `nonce` is what `random_bytes` returned. -/
def wrapEpochKey (P : Primitives) (nonce : Option Nonce) (wrapKey : MemberWrapKey)
    (epochKey : Key) (epoch : Nat) (roomSessionId : Key) : Except CryptoError EpochEnvelope :=
  match nonce with
  | none => .error .randomness
  | some nonce =>
    match P.aeadEncrypt wrapKey.bytes nonce (epochAad epoch roomSessionId) epochKey.toList with
    | none => .error .aead
    | some ciphertext => .ok ⟨nonce, ciphertext⟩

/-- `<[u8; n]>::try_from`. -/
def toArray? (n : Nat) (bytes : Bytes) : Option (Vector UInt8 n) :=
  if h : bytes.length = n then some ⟨bytes.toArray, by simpa using h⟩ else none

/-- `unwrap_epoch_key`. -/
def unwrapEpochKey (P : Primitives) (wrapKey : MemberWrapKey) (epoch : Nat) (roomSessionId : Key)
    (nonce : Nonce) (ciphertext : Bytes) : Except CryptoError Key :=
  match P.aeadDecrypt wrapKey.bytes nonce (epochAad epoch roomSessionId) ciphertext with
  | none => .error .aead
  | some plaintext =>
    match toArray? epochKeyLen plaintext with
    | none => .error .invalidEpochKeyLength
    | some bytes => .ok bytes

@[simp] theorem toArray?_toList {n : Nat} (v : Vector UInt8 n) : toArray? n v.toList = some v := by
  obtain ⟨array, hsize⟩ := v
  simp [toArray?, Vector.toList, hsize]

theorem toArray?_eq_some {n : Nat} {bytes : Bytes} {v : Vector UInt8 n} :
    toArray? n bytes = some v ↔ bytes = v.toList := by
  constructor
  · intro h
    unfold toArray? at h
    split at h
    · cases h; simp
    · cases h
  · rintro rfl; simp

/-- The host's channel key for a member is the member's channel key for the host. -/
theorem tryWrapKeyFor_agree {P : Primitives} (law : P.Lawful) (host : HostIdentity)
    (member : MemberIdentity) (roomSessionId : Key) (memberId : Nat) :
    host.tryWrapKeyFor P (member.x25519Pubkey P) roomSessionId memberId =
      member.tryWrapKeyFor P (host.x25519Pubkey P) roomSessionId memberId := by
  simp only [HostIdentity.tryWrapKeyFor, MemberIdentity.tryWrapKeyFor, MemberIdentity.x25519Pubkey,
    HostIdentity.x25519Pubkey, law.dh_comm]

/-- Whether a channel key can be derived does not depend on the member id. -/
theorem tryWrapKeyFor_isOk_iff (P : Primitives) (host : HostIdentity) (pubkey roomSessionId : Key)
    (memberId : Nat) :
    (∃ key, host.tryWrapKeyFor P pubkey roomSessionId memberId = .ok key) ↔
      P.wasContributory (P.diffieHellman host.x25519 pubkey) = true := by
  unfold HostIdentity.tryWrapKeyFor MemberWrapKey.deriveChecked
  split <;> simp_all

theorem unwrapEpochKey_wrapEpochKey {P : Primitives} (law : P.Lawful) {nonce : Option Nonce}
    {wrapKey : MemberWrapKey} {epochKey : Key} {epoch : Nat} {roomSessionId : Key}
    {envelope : EpochEnvelope}
    (h : wrapEpochKey P nonce wrapKey epochKey epoch roomSessionId = .ok envelope) :
    unwrapEpochKey P wrapKey epoch roomSessionId envelope.nonce envelope.ciphertext =
      .ok epochKey := by
  unfold wrapEpochKey at h
  split at h
  · cases h
  · split at h
    · cases h
    · rename_i hencrypt
      cases h
      simp [unwrapEpochKey, law.decrypt_encrypt _ _ _ _ _ hencrypt, epochKeyLen]

end Veilroom
