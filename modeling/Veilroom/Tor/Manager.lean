import Veilroom.Tor.Dialogue
import Veilroom.Uri.Language

/-!
The manager of the Tor process (`tor/manager.rs`): what it says to Tor from the start of the process
to its shutdown, and what it takes from the replies.

The process, the file system and the clock are what the environment answers.
-/
namespace Veilroom
namespace Tor

/-- `TorError`, as far as the manager ends with it once the process is there. -/
inductive TorError
  | control (error : CommandError)
  | cookie (message : String)
  | bootstrapTimeout
  | commandFailed (command : Bytes) (reply : Reply)
  | invalidServiceId
  | invalidOnionAddress (address : Bytes)
  | invalidVirtualPort | noControlConnection | torExited | io
deriving DecidableEq

structure OnionService where
  onionAddress : Bytes
  virtualPort : Nat
deriving DecidableEq

/-! ### The control cookie -/

/-- `platform::hex`. -/
def hex (bytes : Bytes) : Bytes :=
  bytes.flatMap fun (byte : UInt8) =>
    [(utf8 "0123456789abcdef").getD (byte >>> 4).toNat 0,
      (utf8 "0123456789abcdef").getD (byte &&& 0x0f).toNat 0]

structure Metadata where
  uid : Nat
  mode : Nat
deriving DecidableEq

/-- What an attempt to read the cookie finds. -/
inductive CookieRead
  /-- No file, and whether the deadline has passed. -/
  | missing (late : Bool)
  | failed
  /-- A file, and its metadata if they can be read. -/
  | file (cookie : Bytes) (metadata : Option Metadata)
deriving DecidableEq

/-- `read_cookie_hex`; nothing while it waits for the file. -/
def readCookieHex (effectiveUid : Option Nat) : List CookieRead → Option (Except TorError Bytes)
  | [] => none
  | .missing late :: reads =>
    if late then some (.error (.cookie "cookie did not appear in time"))
    else readCookieHex effectiveUid reads
  | .failed :: _ => some (.error .io)
  | .file cookie metadata :: _ =>
    if cookie.length ≠ 32 then some (.error (.cookie "cookie has an unexpected length"))
    else
      match metadata, effectiveUid with
      | none, _ => some (.error .io)
      | some _, none => some (.error (.cookie "effective uid unavailable"))
      | some metadata, some uid =>
        if metadata.uid ≠ uid then some (.error (.cookie "cookie is owned by another user"))
        else if metadata.mode &&& 0o077 ≠ 0 then
          some (.error (.cookie "cookie permissions are broader than 0600"))
        else some (.ok (hex cookie))

/-! ### What replies say -/

def isAsciiWhitespace (byte : UInt8) : Bool :=
  byte = 9 ∨ byte = 10 ∨ byte = 12 ∨ byte = 13 ∨ byte = 32

/-- `str::split_ascii_whitespace`. -/
def splitAsciiWhitespace (line : Bytes) : List Bytes :=
  (line.splitOnP isAsciiWhitespace).filter (· ≠ [])

/-- `str::parse::<u8>`, which takes a leading plus sign. -/
def parseU8 (value : Bytes) : Option Nat :=
  let digits := (Split.stripPrefix [43] value).getD value
  if digits = [] ∨ ¬ digits.all isAsciiDigit then none
  else
    let number := digits.foldl (fun number digit => number * 10 + (digit.toNat - 48)) 0
    if number < 256 then some number else none

/-- `bootstrap_progress`. -/
def bootstrapProgress (reply : Reply) : Option Nat :=
  (((reply.lines.flatMap splitAsciiWhitespace).findSome?
    (Split.stripPrefix (utf8 "PROGRESS="))).bind parseU8).filter (· ≤ 100)

/-- A text of ASCII bytes. -/
def asciiText (bytes : Bytes) : List Char := bytes.map fun byte => Char.ofNat byte.toNat

/-- `is_valid_onion_address`. -/
def isValidOnionAddress (C : Uri.Codecs) (address : Bytes) : Bool :=
  match Split.stripSuffix (utf8 ".onion") address with
  | none => false
  | some body =>
    if body.length ≠ 56 then false
    else body.all (· ∈ Uri.bytes Uri.onionV3Alphabet) && Uri.isValidOnionV3Body C (asciiText body)

section
variable {C : Uri.Codecs}

theorem bytes_asciiText {body : Bytes} (h : body.all (· ∈ Uri.bytes Uri.onionV3Alphabet) = true) :
    Uri.bytes (asciiText body) = body := by
  have hbyte : ∀ byte ∈ Uri.bytes Uri.onionV3Alphabet,
      String.utf8EncodeChar (Char.ofNat byte.toNat) = [byte] := by decide +kernel
  induction body with
  | nil => rfl
  | cons byte body ih =>
      rw [List.all_cons, Bool.and_eq_true, decide_eq_true_eq] at h
      have hrest := ih h.2
      rw [Uri.bytes, asciiText] at hrest ⊢
      rw [List.map_cons, List.flatMap_cons, hbyte byte h.1, hrest]
      rfl

/-- The manager takes the addresses that an invitation may have. -/
theorem isValidOnionAddress_iff {address : Bytes} :
    isValidOnionAddress C address = true ↔
      ∃ text, Uri.bytes text = address ∧ Uri.validateOnionAddress C text = .ok () := by
  have hsuffix : utf8 ".onion" = Uri.bytes Uri.onionV3Suffix := rfl
  rw [isValidOnionAddress, hsuffix]
  constructor
  · intro h
    split at h
    · cases h
    rename_i body hbody
    split at h
    · cases h
    rename_i hlength
    rw [Bool.and_eq_true] at h
    have hbytes := bytes_asciiText h.1
    refine ⟨asciiText body ++ Uri.onionV3Suffix, ?_, ?_⟩
    · rw [Split.stripSuffix_eq_some.mp hbody, Uri.bytes, List.flatMap_append]
      exact congrArg (· ++ _) hbytes
    · have hlength : (Uri.bytes (asciiText body)).length = 56 := by
        rw [hbytes]
        exact not_not.mp hlength
      obtain ⟨key, hkey⟩ := (Uri.isValidOnionV3Body_iff hlength).mp h.2
      exact Uri.validateOnionAddress_eq_ok.mpr ⟨_, key, rfl, hkey⟩
  · rintro ⟨text, rfl, hvalid⟩
    obtain ⟨body, key, rfl, hkey⟩ := Uri.validateOnionAddress_eq_ok.mp hvalid
    have hstrip : Split.stripSuffix (Uri.bytes Uri.onionV3Suffix)
        (Uri.bytes (body ++ Uri.onionV3Suffix)) = some (Uri.onionBody C key) := by
      rw [Split.stripSuffix_eq_some, ← hkey, Uri.bytes, List.flatMap_append]
      rfl
    have hlength : (Uri.onionBody C key).length = 56 := Uri.length_onionBody C key
    have halphabet := Uri.base32Encode_alphabet (key.toList ++
      (C.sha3 (Uri.bytes ".onion checksum".toList ++ key.toList ++ [3])).toList.take 2 ++ [3])
    have hbytes : Uri.bytes (asciiText (Uri.onionBody C key)) = Uri.onionBody C key :=
      bytes_asciiText halphabet
    rw [hstrip]
    dsimp only
    rw [if_neg (not_not.mpr hlength), Bool.and_eq_true]
    refine ⟨halphabet, (Uri.isValidOnionV3Body_iff ?_).mpr ⟨key, hbytes⟩⟩
    rw [hbytes, hlength]

end

/-- The reply of `ADD_ONION`, as `add_onion` reads it. -/
def serviceOf (C : Uri.Codecs) (virtualPort : Nat) (command : Bytes) (reply : Reply) :
    Except TorError OnionService :=
  if ¬ reply.isOk then .error (.commandFailed command reply)
  else
    match reply.lines.findSome? (Split.stripPrefix (utf8 "ServiceID=")) with
    | none => .error .invalidServiceId
    | some serviceId =>
      if serviceId.length ≠ 56 then .error .invalidServiceId
      else
        let onionAddress := serviceId ++ utf8 ".onion"
        if ¬ isValidOnionAddress C onionAddress then .error (.invalidOnionAddress onionAddress)
        else .ok ⟨onionAddress, virtualPort⟩

/-! ### The manager -/

/-- `TorManager`, and the exchanges there were on its connection. -/
structure TorManager where
  chatSocket : Bytes
  control : Option ControlClient := none
  onion : Option OnionService := none
  issued : List Exchange := []
deriving DecidableEq

/-- What comes on the socket while a command waits, and how it ends otherwise. -/
structure Response where
  arrives : List Bytes
  ending : Ending
deriving DecidableEq

def getinfo : Bytes := utf8 "GETINFO status/bootstrap-phase"

def authenticateCommand (cookieHex : Bytes) : Bytes := utf8 "AUTHENTICATE " ++ cookieHex

def addOnionCommand (chatSocket : Bytes) (virtualPort : Nat) : Bytes :=
  utf8 "ADD_ONION NEW:ED25519-V3 Flags=DiscardPK Port=" ++
    Utf8.encode (Nat.toDigits 10 virtualPort) ++ utf8 ",unix:" ++ chatSocket

def delOnionCommand (onion : OnionService) : Bytes :=
  utf8 "DEL_ONION " ++
    (Split.stripSuffix (utf8 ".onion") onion.onionAddress).getD onion.onionAddress

def signalShutdown : Bytes := utf8 "SIGNAL SHUTDOWN"

namespace TorManager

/-- `self.control.as_mut().ok_or(NoControlConnection)?.command(command).await?`. -/
def command (m : TorManager) (command : Bytes) (r : Response) :
    TorManager × Except TorError Reply :=
  match m.control with
  | none => (m, .error .noControlConnection)
  | some c =>
    let (c, result) :=
      ({ c with unread := c.unread ++ r.arrives } : ControlClient).command command r.ending
    ({ m with
        control := some c
        issued := m.issued ++ [⟨command, r.arrives, some r.ending⟩] },
      result.mapError .control)

/-- `authenticate` of the client, with the cookie. -/
def authenticate (m : TorManager) (cookieHex : Bytes) (r : Response) :
    TorManager × Except TorError Unit :=
  match m.command (authenticateCommand cookieHex) r with
  | (m, .error error) => (m, .error error)
  | (m, .ok reply) => (m, (authenticated reply).mapError .control)

/-- What one turn of the loop of `wait_for_bootstrap` meets: whether the process has exited, how
its command goes, and whether the deadline has passed after that. -/
structure Poll where
  exited : Except TorError Bool
  arrives : List Bytes
  ending : Option Ending
  late : Bool
deriving DecidableEq

/-- `wait_for_bootstrap`, with the progress it reports; no result while it polls. -/
def waitForBootstrap (m : TorManager) :
    List Poll → TorManager × List Nat × Option (Except TorError Unit)
  | [] => (m, [], none)
  | poll :: polls =>
    match poll.exited with
    | .error error => (m, [], some (.error error))
    | .ok true => (m, [], some (.error .torExited))
    | .ok false =>
      match m.control with
      | none => (m, [], some (.error .noControlConnection))
      | some c =>
        let e : Exchange := ⟨getinfo, poll.arrives, poll.ending⟩
        let m := { m with control := some (c.exchange e).1, issued := m.issued ++ [e] }
        match (c.exchange e).2 with
        | none => (m, [], some (.error .bootstrapTimeout))
        | some (.error error) => (m, [], some (.error (.control error)))
        | some (.ok reply) =>
          let observed := bootstrapProgress reply
          if observed = some 100 then (m, observed.toList, some (.ok ()))
          else if poll.late then (m, observed.toList, some (.error .bootstrapTimeout))
          else
            let (m, reported, result) := m.waitForBootstrap polls
            (m, observed.toList ++ reported, result)

/-- What starting Tor meets. -/
structure Startup where
  /-- The process is spawned and its control socket connected to. -/
  connected : Except TorError Unit
  effectiveUid : Option Nat
  cookie : List CookieRead
  authentication : Response
  polls : List Poll

/-- `start_with_progress`. -/
def start (m : TorManager) (s : Startup) :
    TorManager × List Nat × Option (Except TorError Unit) :=
  match s.connected with
  | .error error => (m, [], some (.error error))
  | .ok () =>
    let m := { m with control := some {} }
    match readCookieHex s.effectiveUid s.cookie with
    | none => (m, [], none)
    | some (.error error) => (m, [], some (.error error))
    | some (.ok cookieHex) =>
      match m.authenticate cookieHex s.authentication with
      | (m, .error error) => (m, [], some (.error error))
      | (m, .ok ()) => m.waitForBootstrap s.polls

/-- `add_onion`. -/
def addOnion (C : Uri.Codecs) (m : TorManager) (virtualPort : Nat) (r : Response) :
    TorManager × Except TorError OnionService :=
  if virtualPort = 0 then (m, .error .invalidVirtualPort)
  else
    let command := addOnionCommand m.chatSocket virtualPort
    match m.command command r with
    | (m, .error error) => (m, .error error)
    | (m, .ok reply) =>
      match serviceOf C virtualPort command reply with
      | .error error => (m, .error error)
      | .ok service => ({ m with onion := some service }, .ok service)

/-- What `shutdown` says to Tor, whatever that replies. -/
def goodbye (m : TorManager) (deletion signal : Response) : TorManager :=
  let m := match m.control, m.onion with
    | some _, some onion => (m.command (delOnionCommand onion) deletion).1
    | _, _ => m
  match m.control with
  | some _ => (m.command signalShutdown signal).1
  | none => m

/-- `shutdown`. -/
def shutdown (m : TorManager) (deletion signal : Response) : TorManager :=
  { m.goodbye deletion signal with control := none, onion := none }

end TorManager

/-! ### Sessions -/

/-- `VIRTUAL_PORT`. -/
def virtualPort : Nat := 80

/-- What a session of the program meets at its Tor. -/
structure Circumstances where
  startup : TorManager.Startup
  onion : Response
  deletion : Response
  signal : Response

/-- What a session made of Tor. -/
structure TorSession where
  /-- The manager before its shutdown. -/
  manager : TorManager
  /-- The progress shown. -/
  reported : List Nat
  /-- How the start ended, if it did. -/
  started : Option (Except TorError Unit)
  /-- The onion service, if one was asked for. -/
  onion : Option (Except TorError OnionService)
  /-- The manager when everything is said, with its connection. -/
  parting : TorManager
  /-- The manager at the end. -/
  closed : TorManager

/-- `run_host_session` and `run_join_session`, as far as Tor is concerned: only a host asks for an
onion service, and Tor is shut down however the session ends. -/
def torSession (C : Uri.Codecs) (hosting : Bool) (chatSocket : Bytes) (s : Circumstances) :
    TorSession :=
  match TorManager.start { chatSocket } s.startup with
  | (m, reported, none) => ⟨m, reported, none, none, m, m⟩
  | (m, reported, some (.error error)) =>
    ⟨m, reported, some (.error error), none, m.goodbye s.deletion s.signal,
      m.shutdown s.deletion s.signal⟩
  | (m, reported, some (.ok ())) =>
    if hosting then
      let (m, onion) := m.addOnion C virtualPort s.onion
      ⟨m, reported, some (.ok ()), some onion, m.goodbye s.deletion s.signal,
        m.shutdown s.deletion s.signal⟩
    else
      ⟨m, reported, some (.ok ()), none, m.goodbye s.deletion s.signal,
        m.shutdown s.deletion s.signal⟩

end Tor
end Veilroom
