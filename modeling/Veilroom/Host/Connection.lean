import Veilroom.Admission.Host

/-!
What the host keeps about its connections: the states that filter their
messages (`state.rs`, `protocol/ids.rs`), the live peers of the listener
(`net/host.rs`) and the guard against password guessing (`admission/guard.rs`).
-/
namespace Veilroom

/-- `room::actor::HOST_CONNECTION`. -/
def hostConnectionId : ConnectionId := 0
/-- `app::VIRTUAL_PORT`. -/
def virtualPort : Nat := 80

/-! ### Connection states -/

inductive MessageClass
  | handshake | authentication | join | membership | chat | epoch | control
deriving DecidableEq, Repr

/-- `MessageType::class`. -/
def MessageType.messageClass : MessageType → MessageClass
  | .hostHello | .clientHello => .handshake
  | .tokenVerify | .passwordChallenge | .challengeProof => .authentication
  | .joinRequest | .joinAccepted | .joinRejected => .join
  | .memberJoined | .memberLeft | .memberKicked | .joinPolicyChanged | .memberSnapshot =>
    .membership
  | .chatMessage | .colorChange | .timeoutRequest | .timeoutChanged => .chat
  | .epochWrap | .epochAck => .epoch
  | .keepalive | .error | .shutdown => .control

inductive ConnectionState
  | disconnected | torConnecting | protocolHandshake | preAuth | passwordVerified | joinPending
  | active | closing
deriving DecidableEq, Repr

/-- `ConnectionState::accepts`. -/
def ConnectionState.accepts : ConnectionState → MessageClass → Bool
  | .protocolHandshake, .handshake | .protocolHandshake, .control
  | .preAuth, .authentication | .preAuth, .control
  | .passwordVerified, .join | .passwordVerified, .control
  | .joinPending, .control
  | .active, .membership | .active, .chat | .active, .epoch | .active, .control
  | .closing, .control => true
  | _, _ => false

/-! ### The listener -/

inductive PeerSendError
  | queueFull | closed
deriving DecidableEq, Repr

structure Peer where
  connection : ConnectionId
  admitted : Bool
deriving DecidableEq, Repr

/-- `HostNetwork` with its accept loop. `connects` are the accepted connections the supervisor
has not received yet. -/
structure HostNetwork where
  peers : List Peer
  nextId : ConnectionId
  connects : List ConnectionId
deriving DecidableEq

namespace HostNetwork

/-- `HostNetwork::listen`. -/
def listen : HostNetwork := ⟨[], 1, []⟩

/-- `pre_auth_count`. -/
def preAuthConnections (n : HostNetwork) : Nat := (n.peers.filter fun peer => !peer.admitted).length

/-- One stream of `accept_loop`. -/
def accept (n : HostNetwork) (limits : Limits) : HostNetwork :=
  if n.preAuthConnections ≥ limits.maxPreAuthConnections then n
  else ⟨n.peers ++ [⟨n.nextId, false⟩], n.nextId + 1, n.connects ++ [n.nextId]⟩

def isLive (n : HostNetwork) (connection : ConnectionId) : Bool :=
  n.peers.any fun peer => peer.connection = connection

/-- `HostNetwork::send_to`; `queue` is what the peer's bounded queue answers. -/
def sendTo (n : HostNetwork) (connection : ConnectionId) (queue : Except PeerSendError Unit) :
    Except PeerSendError Unit :=
  if n.isLive connection then queue else .error .closed

/-- `HostNetwork::mark_admitted`. -/
def markAdmitted (n : HostNetwork) (connection : ConnectionId) : HostNetwork :=
  { n with peers := n.peers.map fun peer =>
      if peer.connection = connection then { peer with admitted := true } else peer }

/-- `HostNetwork::close`. -/
def close (n : HostNetwork) (connection : ConnectionId) : HostNetwork :=
  { n with peers := n.peers.filter fun peer => peer.connection ≠ connection }

@[simp] theorem nextId_markAdmitted (n : HostNetwork) (c : ConnectionId) :
    (n.markAdmitted c).nextId = n.nextId := rfl

@[simp] theorem connects_markAdmitted (n : HostNetwork) (c : ConnectionId) :
    (n.markAdmitted c).connects = n.connects := rfl

@[simp] theorem nextId_close (n : HostNetwork) (c : ConnectionId) :
    (n.close c).nextId = n.nextId := rfl

@[simp] theorem connects_close (n : HostNetwork) (c : ConnectionId) :
    (n.close c).connects = n.connects := rfl

@[simp] theorem isLive_markAdmitted (n : HostNetwork) (c id : ConnectionId) :
    (n.markAdmitted c).isLive id = n.isLive id := by
  unfold isLive markAdmitted
  rw [List.any_map]
  congr 1
  funext peer
  simp only [Function.comp_apply]
  split <;> rfl

@[simp] theorem isLive_close (n : HostNetwork) (c id : ConnectionId) :
    (n.close c).isLive id = (n.isLive id && decide (id ≠ c)) := by
  unfold isLive close
  rw [Bool.eq_iff_iff]
  simp only [List.any_filter, List.any_eq_true, Bool.and_eq_true, decide_eq_true_eq]
  constructor
  · rintro ⟨peer, hmem, hne, rfl⟩
    exact ⟨⟨peer, hmem, rfl⟩, hne⟩
  · rintro ⟨⟨peer, hmem, rfl⟩, hne⟩
    exact ⟨peer, hmem, hne, rfl⟩

end HostNetwork

/-! ### The password guard -/

def passwordFailureThreshold : Nat := 5
def passwordLockoutBase : Duration := Duration.fromSecs 30
def passwordLockoutMax : Duration := Duration.fromSecs (15 * 60)

structure PasswordGuard where
  failures : Nat
  lockouts : Nat
  lockedUntil : Option Duration
deriving DecidableEq

namespace PasswordGuard

def new : PasswordGuard := ⟨0, 0, none⟩

/-- `PasswordGuard::next_window`. -/
def nextWindow (g : PasswordGuard) : Duration :=
  min (passwordLockoutBase * 2 ^ min g.lockouts 31) passwordLockoutMax

/-- `PasswordGuard::record_failure`, with the window it starts. -/
def recordFailure (g : PasswordGuard) (now : Duration) : PasswordGuard × Option Duration :=
  let g := { g with failures := g.failures + 1 }
  if g.failures % passwordFailureThreshold ≠ 0 then (g, none)
  else
    ({ g with lockouts := g.lockouts + 1, lockedUntil := some (now + g.nextWindow) },
      some g.nextWindow)

/-- `PasswordGuard::remaining`. -/
def remaining (g : PasswordGuard) (now : Duration) : Option Duration :=
  (g.lockedUntil.filter fun deadline => now < deadline).map fun deadline => deadline - now

end PasswordGuard

end Veilroom
