import Mathlib.Data.List.AList

/-!
Ids, constants, limits and timeouts of the room (`event.rs`, `constants.rs`,
`limits.rs`, `state.rs`, `command.rs`).

Every `u64` counter is a `Nat`: no run reaches 2 ^ 64 increments. Where the
width matters (the codec and the transcripts) it is written out. A `Duration`
is its number of nanoseconds.
-/
namespace Veilroom

abbrev Bytes := List UInt8
/-- `[u8; 32]`: public keys, secret seeds, epoch keys, session ids, digests. -/
abbrev Key := Vector UInt8 32
/-- `[u8; 64]`: Ed25519 signatures. -/
abbrev Signature := Vector UInt8 64
/-- `[u8; XCHACHA_NONCE_LEN]`. -/
abbrev Nonce := Vector UInt8 24
/-- `[u8; NONCE_LEN]`: connection nonces and the password salt. -/
abbrev ShortNonce := Vector UInt8 16

abbrev ConnectionId := Nat
abbrev MemberId := Nat
abbrev RequestId := Nat
abbrev Duration := Nat

def protocolMajorVersion : UInt8 := 1
def xchachaNonceLen : Nat := 24
def xchachaTagLen : Nat := 16
def epochKeyLen : Nat := 32
def epochWrapCiphertextLen : Nat := epochKeyLen + xchachaTagLen
def chatMinCiphertextLen : Nat := 1 + xchachaTagLen
def chatMaxCiphertextLen : Nat := 4096 + xchachaTagLen
/-- `command::MAX_MESSAGE_TIMEOUT_SECONDS`. -/
def maxMessageTimeoutSeconds : Nat := 3600

def Duration.fromSecs (seconds : Nat) : Duration := seconds * 1000000000

/-- `Limits`, with its private fields readable. -/
structure Limits where
  maxActiveMembers : Nat := 16
  maxPendingRequests : Nat := 8
  maxPreAuthConnections : Nat := 16
  maxFrameSize : Nat := 16 * 1024
  maxChatTextBytes : Nat := 4096
  maxNicknameScalars : Nat := 32
  maxIntroScalars : Nat := 160
  maxCborNestingDepth : Nat := 8
  maxCborMapEntries : Nat := 64
  maxCborArrayEntries : Nat := 256
  maxCborTextBytes : Nat := 4096
  maxCborBytesLen : Nat := 4096
deriving DecidableEq, Repr

/-- `Limits::default()`. -/
def Limits.default : Limits := {}

inductive TimeoutKind
  | protocolHandshake | tokenValidation | passwordVerification | joinFormSubmission
  | hostDecision | epochAcknowledgement | keepalive | gracefulShutdown
deriving DecidableEq, Repr

structure Timeouts where
  protocolHandshake : Duration := Duration.fromSecs 30
  tokenValidation : Duration := Duration.fromSecs 30
  passwordVerification : Duration := Duration.fromSecs 60
  joinFormSubmission : Duration := Duration.fromSecs 120
  hostDecision : Duration := Duration.fromSecs 300
  epochAcknowledgement : Duration := Duration.fromSecs 30
  keepaliveInterval : Duration := Duration.fromSecs 30
  gracefulShutdown : Duration := Duration.fromSecs 10
deriving DecidableEq, Repr

/-- `Timeouts::get`. -/
def Timeouts.get (t : Timeouts) : TimeoutKind → Duration
  | .protocolHandshake => t.protocolHandshake
  | .tokenValidation => t.tokenValidation
  | .passwordVerification => t.passwordVerification
  | .joinFormSubmission => t.joinFormSubmission
  | .hostDecision => t.hostDecision
  | .epochAcknowledgement => t.epochAcknowledgement
  | .keepalive => t.keepaliveInterval
  | .gracefulShutdown => t.gracefulShutdown

inductive RoomState
  | creating | opened | locked | epochTransition | inviteRotating | closing | destroyed
deriving DecidableEq, Repr

inductive JoinPolicy
  | opened | locked
deriving DecidableEq, Repr

/-- `JoinPolicy::allows_join_requests`. -/
def JoinPolicy.allowsJoinRequests : JoinPolicy → Bool
  | .opened => true
  | .locked => false

/-- The state an activated room is in under its policy. -/
def JoinPolicy.roomState : JoinPolicy → RoomState
  | .opened => .opened
  | .locked => .locked

inductive ColorChoice
  | red | green | yellow | blue | magenta | cyan | white
deriving DecidableEq, Repr

/-- `ColorChoice::default`. -/
instance : Inhabited ColorChoice := ⟨.white⟩

def ColorChoice.asIndex : ColorChoice → UInt8
  | .red => 0 | .green => 1 | .yellow => 2 | .blue => 3 | .magenta => 4 | .cyan => 5 | .white => 6

def ColorChoice.fromIndex (index : UInt8) : Option ColorChoice :=
  match index.toNat with
  | 0 => some .red | 1 => some .green | 2 => some .yellow | 3 => some .blue
  | 4 => some .magenta | 5 => some .cyan | 6 => some .white
  | _ => none

@[simp] theorem ColorChoice.fromIndex_asIndex (c : ColorChoice) : fromIndex c.asIndex = some c := by
  cases c <;> rfl

end Veilroom
