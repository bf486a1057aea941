import Veilroom.Crypto.Identity

/-!
Sealing and opening of chat envelopes (`crypto/chat.rs`).
-/
namespace Veilroom
open Transcript

def chatAadLabel : String := "VEILROOM-CHAT-AAD-V1"

/-- `SealedEnvelope`. -/
structure SealedEnvelope where
  nonce : Nonce
  ciphertext : Bytes
  signature : Signature
deriving DecidableEq

inductive ChatOpenError
  | invalidSignature
  | decrypt (error : CryptoError)
deriving DecidableEq

/-- `chat_aad`. -/
def chatAad (version : UInt8) (roomSessionId : Key) (epoch senderId senderSequence : Nat)
    (messageType : UInt8) : Bytes :=
  utf8 chatAadLabel ++ [version] ++ fixed roomSessionId ++ u64 epoch ++ u64 senderId ++
    u64 senderSequence ++ [messageType]

/-- `chat_transcript`. -/
def chatTranscript (version : UInt8) (roomSessionId : Key) (epoch senderId senderSequence : Nat)
    (messageType : UInt8) (nonce : Nonce) (ciphertext : Bytes) : Bytes :=
  label chatMessageLabel ++ u8 version ++ fixed roomSessionId ++ u64 epoch ++ u64 senderId ++
    u64 senderSequence ++ u8 messageType ++ fixed nonce ++ bytes ciphertext

/-- `seal_envelope`; `nonce` is what `random_bytes` returned. -/
def sealEnvelope (P : Primitives) (nonce : Option Nonce) (epochKey : Key)
    (identity : MemberIdentity) (version : UInt8) (roomSessionId : Key)
    (epoch senderId senderSequence : Nat) (messageType : UInt8) (plaintext : Bytes) :
    Except CryptoError SealedEnvelope :=
  match nonce with
  | none => .error .randomness
  | some nonce =>
    let aad := chatAad version roomSessionId epoch senderId senderSequence messageType
    match P.aeadEncrypt epochKey nonce aad plaintext with
    | none => .error .aead
    | some ciphertext =>
      let transcript := chatTranscript version roomSessionId epoch senderId senderSequence
        messageType nonce ciphertext
      .ok ⟨nonce, ciphertext, identity.sign P transcript⟩

/-- `open_envelope`. -/
def openEnvelope (P : Primitives) (epochKey senderEd25519Pubkey : Key) (version : UInt8)
    (roomSessionId : Key) (epoch senderId senderSequence : Nat) (messageType : UInt8)
    (nonce : Nonce) (ciphertext : Bytes) (signature : Signature) : Except ChatOpenError Bytes :=
  let transcript := chatTranscript version roomSessionId epoch senderId senderSequence
    messageType nonce ciphertext
  if P.ed25519Verify senderEd25519Pubkey transcript signature then
    let aad := chatAad version roomSessionId epoch senderId senderSequence messageType
    match P.aeadDecrypt epochKey nonce aad ciphertext with
    | none => .error (.decrypt .aead)
    | some plaintext => .ok plaintext
  else .error .invalidSignature

/-- What one identity seals, everyone who holds the epoch key and its public key opens. -/
theorem openEnvelope_sealEnvelope {P : Primitives} (law : P.Lawful) {nonce : Option Nonce}
    {epochKey : Key} {identity : MemberIdentity} {version : UInt8} {roomSessionId : Key}
    {epoch senderId senderSequence : Nat} {messageType : UInt8} {plaintext : Bytes}
    {envelope : SealedEnvelope}
    (h : sealEnvelope P nonce epochKey identity version roomSessionId epoch senderId
      senderSequence messageType plaintext = .ok envelope) :
    openEnvelope P epochKey (identity.ed25519Pubkey P) version roomSessionId epoch senderId
      senderSequence messageType envelope.nonce envelope.ciphertext envelope.signature =
      .ok plaintext := by
  unfold sealEnvelope at h
  split at h
  · cases h
  · dsimp only at h
    split at h
    · cases h
    · rename_i hencrypt
      cases h
      simp [openEnvelope, MemberIdentity.ed25519Pubkey, MemberIdentity.sign, law.verify_sign,
        law.decrypt_encrypt _ _ _ _ _ hencrypt]

/-- The ciphertext of a sealed envelope is its plaintext and the authentication tag. -/
theorem length_of_sealEnvelope {P : Primitives} (law : P.Lawful) {nonce : Option Nonce}
    {epochKey : Key} {identity : MemberIdentity} {version : UInt8} {roomSessionId : Key}
    {epoch senderId senderSequence : Nat} {messageType : UInt8} {plaintext : Bytes}
    {envelope : SealedEnvelope}
    (h : sealEnvelope P nonce epochKey identity version roomSessionId epoch senderId
      senderSequence messageType plaintext = .ok envelope) :
    envelope.ciphertext.length = plaintext.length + xchachaTagLen := by
  unfold sealEnvelope at h
  split at h
  · cases h
  · dsimp only at h
    split at h
    · cases h
    · rename_i hencrypt
      cases h
      exact law.encrypt_length _ _ _ _ _ hencrypt

end Veilroom
