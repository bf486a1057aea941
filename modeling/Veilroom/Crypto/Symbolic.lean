import Veilroom.Crypto.Identity

/-!
A symbolic instance of the primitives.

Public keys are secret keys, a ciphertext is its plaintext tagged with the key,
and a signature names its signer. It satisfies every law the room relies on, so
the laws are consistent and the results below can be evaluated.
-/
namespace Veilroom
namespace Symbolic

/-- The first `n` bytes, padded with zeros. -/
def pad (n : Nat) (bytes : Bytes) : Vector UInt8 n :=
  ⟨((List.range n).map fun i => bytes.getD i 0).toArray, by simp⟩

def publicKey (secret : Key) : Key := secret

def sign (secret : Key) : Signature := pad 64 (secret.toList ++ secret.toList)

/-- The shared secret: a commutative combination of both keys. -/
def shared (own other : Key) : Key :=
  pad 32 (List.zipWith (· + ·) own.toList (publicKey other).toList)

def tag (key : Key) : Bytes := key.toList.take xchachaTagLen

def encrypt (key : Key) (plaintext : Bytes) : Bytes := plaintext ++ tag key

def decrypt (key : Key) (ciphertext : Bytes) : Option Bytes :=
  let plaintext := ciphertext.take (ciphertext.length - xchachaTagLen)
  if ciphertext = encrypt key plaintext then some plaintext else none

def primitives : Primitives where
  sha256 := pad 32
  ed25519Public := publicKey
  ed25519Sign secret _ := sign secret
  ed25519Verify key _ signature := signature = sign key
  x25519Public := publicKey
  diffieHellman := shared
  wasContributory key := key ≠ Vector.replicate 32 0
  hkdfSha256 _ material _ := pad 32 material
  hmacSha256 key message := pad 32 (key ++ message)
  aeadEncrypt key _ _ plaintext := some (encrypt key plaintext)
  aeadDecrypt key _ _ ciphertext := decrypt key ciphertext
  nfc text := text
  debugStr text := text
  randomnessText := "getrandom failed"
  aeadText := "aead::Error"

@[simp] theorem length_tag (key : Key) : (tag key).length = xchachaTagLen := by
  simp [tag, xchachaTagLen]

theorem decrypt_encrypt (key : Key) (plaintext : Bytes) :
    decrypt key (encrypt key plaintext) = some plaintext := by
  have htake : (encrypt key plaintext).take ((encrypt key plaintext).length - xchachaTagLen) =
      plaintext := by
    simp [encrypt]
  simp only [decrypt, htake, if_true]

theorem shared_comm (a b : Key) : shared a b = shared b a := by
  simp only [shared, publicKey]
  rw [List.zipWith_comm_of_comm]
  exact fun x y => UInt8.add_comm x y

theorem lawful : primitives.Lawful where
  verify_sign _ _ := by simp [primitives, publicKey]
  dh_comm a b := shared_comm a b
  encrypt_succeeds key _ _ plaintext _ := ⟨encrypt key plaintext, rfl⟩
  encrypt_length key _ _ plaintext ciphertext h := by
    cases h
    simp [encrypt]
  decrypt_encrypt key _ _ plaintext ciphertext h := by
    cases h
    exact decrypt_encrypt key plaintext
  nfc_nil := rfl
  nfc_nfc _ := rfl
  nfc_space _ _ := rfl
  nfc_space_free _ h := h

/-- A generator that answers every call with bytes `fill`. -/
def rng (fill : UInt8) : Rng where
  token := some (Vector.replicate 32 fill)
  epochKey := some (Vector.replicate 32 fill)
  nonce _ := some (Vector.replicate 24 fill)

theorem rng_succeeds (fill : UInt8) : (rng fill).Succeeds :=
  ⟨⟨_, rfl⟩, ⟨_, rfl⟩, fun _ => ⟨_, rfl⟩⟩

end Symbolic

end Veilroom
