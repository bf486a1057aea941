import Veilroom.Library.Codes
import Veilroom.Library.Exact
import Veilroom.Protocol.Stream
import Veilroom.Uri.Language

/-!
The SOCKS5 client (`net/socks.rs`): its handshake with the proxy and the tunnel behind it.

`read_exact` waits for its bytes and takes no others off the socket, so what the proxy sends counts
as one stream. Writes succeed.
-/
namespace Veilroom
namespace Socks

/-- The errors of `handshake`, with what their texts show. -/
inductive HandshakeError
  | addressTooLong
  | methodRejected (greeting : Bytes)
  | malformedReply (header : Bytes)
  | refused (code : UInt8)
  | unknownAddressType (other : UInt8)
deriving DecidableEq

abbrev Handshake := Exact.Script UInt8 HandshakeError Unit

/-- Version 5 and one method, no authentication. -/
def greeting : Bytes := [0x05, 0x01, 0x00]

/-- The request to connect to a named host. -/
def request (onionAddress : Bytes) (port : UInt16) : Bytes :=
  [0x05, 0x01, 0x00, 0x03, UInt8.ofNat onionAddress.length] ++ onionAddress ++
    BigEndian.encode 2 port.toNat

/-- The last read of `handshake`. -/
def readTail (tail : Nat) : Handshake :=
  if 0 < tail then .read tail fun _ => .done () else .done ()

/-- `handshake` behind the header of the reply. -/
def readReply (header : Bytes) : Handshake :=
  if header.getD 0 0 ≠ 0x05 then .fail (.malformedReply header)
  else if header.getD 1 0 ≠ 0x00 then .fail (.refused (header.getD 1 0))
  else if header.getD 3 0 = 0x01 then readTail (4 + 2)
  else if header.getD 3 0 = 0x03 then .read 1 fun len => readTail ((len.getD 0 0).toNat + 2)
  else if header.getD 3 0 = 0x04 then readTail (16 + 2)
  else .fail (.unknownAddressType (header.getD 3 0))

/-- `handshake`. -/
def handshake (onionAddress : Bytes) (port : UInt16) : Handshake :=
  if 255 < onionAddress.length then .fail .addressTooLong
  else
    .write greeting <| .read 2 fun answer =>
      if answer ≠ [0x05, 0x00] then .fail (.methodRejected answer)
      else .write (request onionAddress port) <| .read 4 readReply

/-- What ends a handshake that waits. -/
inductive Ending
  | closed | failed | timedOut
deriving DecidableEq

inductive ConnectError
  | handshake (error : HandshakeError)
  | unexpectedEof | io | timedOut
deriving DecidableEq

def Ending.error : Ending → ConnectError
  | .closed => .unexpectedEof
  | .failed => .io
  | .timedOut => .timedOut

/-- `connect_via_socks`, with what comes from the proxy once its socket is open: the tunnel is the
rest of it. The timeout is one for all, the connection to the socket too. -/
def connectViaSocks (onionAddress : Bytes) (port : UInt16) (stream : Option Bytes)
    (ending : Ending) : Except ConnectError Bytes :=
  match stream with
  | none => .error (if ending = .timedOut then .timedOut else .io)
  | some stream =>
    match (handshake onionAddress port).run stream with
    | ⟨_, tunnel, some (.ok ())⟩ => .ok tunnel
    | ⟨_, _, some (.error error)⟩ => .error (.handshake error)
    | ⟨_, _, none⟩ => .error ending.error

/-! ### The proxy -/

/-- The address a proxy says it is bound to. -/
inductive Bound
  | ipv4 (address : Vector UInt8 4)
  | domain (name : Bytes) (short : name.length < 256)
  | ipv6 (address : Vector UInt8 16)

def Bound.bytes : Bound → Bytes
  | .ipv4 address => 0x01 :: address.toList
  | .domain name _ => 0x03 :: UInt8.ofNat name.length :: name
  | .ipv6 address => 0x04 :: address.toList

/-- The reply of a proxy that has connected. -/
def granted (reserved : UInt8) (bound : Bound) (port : Vector UInt8 2) : Bytes :=
  [0x05, 0x00, reserved] ++ bound.bytes ++ port.toList

/-- What a proxy sends to a client it serves, before the tunnel. -/
def service (reserved : UInt8) (bound : Bound) (port : Vector UInt8 2) : Bytes :=
  [0x05, 0x00] ++ granted reserved bound port

/-- What a proxy does not understand. -/
inductive Misunderstood
  | version | method | command | addressType
deriving DecidableEq

/-- A SOCKS5 proxy that asks for no authentication and connects to a named host. It comes to the
host and the port it was asked for. -/
def proxy (reserved : UInt8) (bound : Bound) (port : Vector UInt8 2) :
    Exact.Script UInt8 Misunderstood (Bytes × Nat) :=
  .read 2 fun offer =>
    if offer.getD 0 0 ≠ 0x05 then .fail .version
    else .read (offer.getD 1 0).toNat fun methods =>
      if 0x00 ∉ methods then .fail .method
      else .write [0x05, 0x00] <| .read 5 fun header =>
        if header.getD 0 0 ≠ 0x05 then .fail .version
        else if header.getD 1 0 ≠ 0x01 then .fail .command
        else if header.getD 3 0 ≠ 0x03 then .fail .addressType
        else .read (header.getD 4 0).toNat fun host => .read 2 fun target =>
          .write (granted reserved bound port) <| .done (host, BigEndian.decode target)

variable {onionAddress : Bytes} {port : UInt16}

/-! ### What the client reads -/

theorem toNat_length {name : Bytes} (h : name.length < 256) :
    (UInt8.ofNat name.length).toNat = name.length :=
  UInt8.toNat_ofNat_of_lt' h

theorem run_readTail {tail : Nat} {front back : Bytes} (h : front.length = tail + 1) :
    (readTail (tail + 1)).run (front ++ back) = ⟨[], back, some (.ok ())⟩ := by
  rw [readTail, if_pos (Nat.succ_pos tail), Exact.Script.run_read h]
  rfl

/-- The reply of a proxy that has connected is read whole, and nothing behind it. -/
theorem run_granted (reserved : UInt8) (bound : Bound) (bind : Vector UInt8 2) (tunnel : Bytes) :
    (Exact.Script.read 4 readReply : Handshake).run (granted reserved bound bind ++ tunnel) =
      ⟨[], tunnel, some (.ok ())⟩ := by
  have hheader (type : UInt8) : [0x05, 0x00, reserved, type].length = 4 := rfl
  cases bound with
  | ipv4 address =>
      have hsplit : granted reserved (.ipv4 address) bind ++ tunnel =
          [0x05, 0x00, reserved, 0x01] ++ ((address.toList ++ bind.toList) ++ tunnel) := by
        simp [granted, Bound.bytes]
      rw [hsplit, Exact.Script.run_read (hheader 0x01)]
      exact run_readTail (by simp)
  | domain name short =>
      have hsplit : granted reserved (.domain name short) bind ++ tunnel =
          [0x05, 0x00, reserved, 0x03] ++ ([UInt8.ofNat name.length] ++
            ((name ++ bind.toList) ++ tunnel)) := by
        simp [granted, Bound.bytes]
      have hlen : [UInt8.ofNat name.length].length = 1 := rfl
      rw [hsplit, Exact.Script.run_read (hheader 0x03)]
      change (Exact.Script.read 1 fun len => readTail ((len.getD 0 0).toNat + 2)).run _ = _
      rw [Exact.Script.run_read hlen]
      exact run_readTail (by simp [toNat_length short])
  | ipv6 address =>
      have hsplit : granted reserved (.ipv6 address) bind ++ tunnel =
          [0x05, 0x00, reserved, 0x04] ++ ((address.toList ++ bind.toList) ++ tunnel) := by
        simp [granted, Bound.bytes]
      rw [hsplit, Exact.Script.run_read (hheader 0x04)]
      exact run_readTail (by simp)

theorem run_service (port : UInt16) (hlength : onionAddress.length ≤ 255)
    (reserved : UInt8) (bound : Bound) (bind : Vector UInt8 2) (tunnel : Bytes) :
    (handshake onionAddress port).run (service reserved bound bind ++ tunnel) =
      ⟨greeting ++ request onionAddress port, tunnel, some (.ok ())⟩ := by
  have hanswer : ([0x05, 0x00] : Bytes).length = 2 := rfl
  rw [handshake, if_neg (by omega), service, List.append_assoc, Exact.Script.run_write,
    Exact.Script.run_read hanswer, if_neg (not_not.mpr rfl), Exact.Script.run_write, run_granted,
    List.append_nil]

theorem readTail_granted {tail : Nat} {input : Bytes}
    (h : ((readTail (tail + 1)).run input).result = some (.ok ())) :
    ∃ front back, input = front ++ back ∧ front.length = tail + 1 := by
  rw [readTail, if_pos (Nat.succ_pos tail)] at h
  obtain hwaits | ⟨front, back, hinput, hfront, -⟩ := Exact.Script.run_read_cases (tail + 1) _ input
  · rw [hwaits] at h
    cases h
  · exact ⟨front, back, hinput, hfront⟩

/-- A header is four bytes. -/
theorem header_eq {header : Bytes} (h : header.length = 4) :
    header = [header.getD 0 0, header.getD 1 0, header.getD 2 0, header.getD 3 0] := by
  match header, h with
  | [_, _, _, _], _ => rfl

/-- The address and the port behind a header. -/
theorem vectors_of_length {front : Bytes} {size : Nat} (h : front.length = size + 2) :
    ∃ (address : Vector UInt8 size) (bind : Vector UInt8 2),
      front = address.toList ++ bind.toList := by
  refine ⟨⟨(front.take size).toArray, ?_⟩, ⟨(front.drop size).toArray, ?_⟩, ?_⟩
  · rw [List.size_toArray, List.length_take_of_le (by omega)]
  · rw [List.size_toArray, List.length_drop]
    omega
  · exact (List.take_append_drop size front).symm

/-- The client goes on for the reply of a proxy that has connected, and for no other. -/
theorem readReply_granted {input : Bytes}
    (h : ((Exact.Script.read 4 readReply : Handshake).run input).result = some (.ok ())) :
    ∃ reserved bound bind tunnel, input = granted reserved bound bind ++ tunnel := by
  obtain hwaits | ⟨header, rest, rfl, hlength, hrun⟩ :=
    Exact.Script.run_read_cases 4 readReply input
  · rw [hwaits] at h
    cases h
  rw [hrun, readReply] at h
  have hheader := header_eq hlength
  by_cases hversion : header.getD 0 0 = 0x05
  swap
  · rw [if_pos hversion] at h
    cases h
  by_cases hcode : header.getD 1 0 = 0x00
  swap
  · rw [if_neg (not_not.mpr hversion), if_pos hcode] at h
    cases h
  rw [if_neg (not_not.mpr hversion), if_neg (not_not.mpr hcode)] at h
  rw [hversion, hcode] at hheader
  split at h
  · rename_i htype
    obtain ⟨front, tunnel, rfl, hfront⟩ := readTail_granted h
    obtain ⟨address, bind, rfl⟩ := vectors_of_length hfront
    rw [htype] at hheader
    exact ⟨header.getD 2 0, .ipv4 address, bind, tunnel, by
      rw [hheader]; simp [granted, Bound.bytes]⟩
  split at h
  · rename_i htype
    obtain hwaits | ⟨len, rest, rfl, hlen, hrun⟩ := Exact.Script.run_read_cases 1 _ rest
    · rw [hwaits] at h
      cases h
    obtain ⟨size, rfl⟩ := List.length_eq_one_iff.mp hlen
    rw [hrun] at h
    obtain ⟨front, tunnel, rfl, hfront⟩ := readTail_granted h
    obtain ⟨name, bind, rfl⟩ := vectors_of_length hfront
    rw [htype] at hheader
    have hshort : name.toList.length < 256 := by
      rw [Vector.length_toList]
      exact size.toNat_lt
    exact ⟨header.getD 2 0, .domain name.toList hshort, bind, tunnel, by
      rw [hheader]; simp [granted, Bound.bytes]⟩
  split at h
  · rename_i htype
    obtain ⟨front, tunnel, rfl, hfront⟩ := readTail_granted h
    obtain ⟨address, bind, rfl⟩ := vectors_of_length hfront
    rw [htype] at hheader
    exact ⟨header.getD 2 0, .ipv6 address, bind, tunnel, by
      rw [hheader]; simp [granted, Bound.bytes]⟩
  · cases h

/-- A handshake succeeds on what a proxy sends to a client it serves, and on nothing else. -/
theorem handshake_granted {stream : Bytes}
    (h : ((handshake onionAddress port).run stream).result = some (.ok ())) :
    ∃ reserved bound bind tunnel, stream = service reserved bound bind ++ tunnel := by
  rw [handshake] at h
  split at h
  · cases h
  rw [Exact.Script.run_write] at h
  obtain hwaits | ⟨answer, rest, rfl, -, hrun⟩ :=
    Exact.Script.run_read_cases 2 _ stream
  · rw [hwaits] at h
    cases h
  rw [hrun] at h
  split at h
  · cases h
  rename_i hanswer
  rw [Exact.Script.run_write] at h
  obtain ⟨reserved, bound, bind, tunnel, rfl⟩ := readReply_granted h
  rw [not_not] at hanswer
  exact ⟨reserved, bound, bind, tunnel, by rw [hanswer, service, List.append_assoc]⟩

/-! ### What the client writes -/

theorem written_readTail (tail : Nat) (input : Bytes) :
    ((readTail tail).run input).written = [] := by
  rw [readTail]
  split
  · rw [Exact.Script.run]
    split <;> rfl
  · rfl

theorem written_readReply (header input : Bytes) :
    ((readReply header).run input).written = [] := by
  rw [readReply]
  split
  · rfl
  split
  · rfl
  split
  · exact written_readTail _ input
  split
  · rw [Exact.Script.run]
    split
    · exact written_readTail _ _
    · rfl
  split
  · exact written_readTail _ input
  · rfl

theorem written_reply (input : Bytes) :
    ((Exact.Script.read 4 readReply : Handshake).run input).written = [] := by
  rw [Exact.Script.run]
  split
  · exact written_readReply _ _
  · rfl

/-- The request goes to a proxy that asks for no authentication. -/
theorem written_handshake (hlength : onionAddress.length ≤ 255) (stream : Bytes) :
    ((handshake onionAddress port).run stream).written =
      if [0x05, 0x00] <+: stream then greeting ++ request onionAddress port else greeting := by
  rw [handshake, if_neg (by omega), Exact.Script.run_write]
  by_cases hprefix : [0x05, 0x00] <+: stream
  · rw [if_pos hprefix]
    obtain ⟨rest, rfl⟩ := hprefix
    have hanswer : ([0x05, 0x00] : Bytes).length = 2 := rfl
    rw [Exact.Script.run_read hanswer, if_neg (not_not.mpr rfl), Exact.Script.run_write,
      written_reply, List.append_nil]
  · rw [if_neg hprefix]
    obtain hwaits | ⟨answer, rest, rfl, -, hrun⟩ :=
      Exact.Script.run_read_cases 2 _ stream
    · rw [hwaits, List.append_nil]
    · rw [hrun, if_pos, Exact.Script.run, List.append_nil]
      intro hsame
      exact hprefix (hsame ▸ List.prefix_append _ _)

/-! ### The client and the proxy -/

theorem run_proxy (port : UInt16) (hlength : onionAddress.length ≤ 255)
    (reserved : UInt8) (bound : Bound) (bind : Vector UInt8 2) (sent : Bytes) :
    (proxy reserved bound bind).run (greeting ++ request onionAddress port ++ sent) =
      ⟨service reserved bound bind, sent, some (.ok (onionAddress, port.toNat))⟩ := by
  have hsplit : greeting ++ request onionAddress port ++ sent =
      [0x05, 0x01] ++ ([0x00] ++ ([0x05, 0x01, 0x00, 0x03, UInt8.ofNat onionAddress.length] ++
        (onionAddress ++ (BigEndian.encode 2 port.toNat ++ sent)))) := by
    simp [greeting, request]
  have hoffer : ([0x05, 0x01] : Bytes).length = 2 := rfl
  have hmethods : ([0x00] : Bytes).length = (([0x05, 0x01] : Bytes).getD 1 0).toNat := rfl
  have hheader : [0x05, 0x01, 0x00, 0x03, UInt8.ofNat onionAddress.length].length = 5 := rfl
  have hhost : onionAddress.length =
      (([0x05, 0x01, 0x00, 0x03, UInt8.ofNat onionAddress.length] : Bytes).getD 4 0).toNat :=
    (toNat_length (by omega)).symm
  have hport : BigEndian.decode (BigEndian.encode 2 port.toNat) = port.toNat :=
    BigEndian.decode_encode 2 _ port.toNat_lt
  rw [hsplit, proxy, Exact.Script.run_read hoffer, if_neg (by simp),
    Exact.Script.run_read hmethods, if_neg (by simp), Exact.Script.run_write,
    Exact.Script.run_read hheader, if_neg (by simp), if_neg (by simp), if_neg (by simp),
    Exact.Script.run_read hhost,
    Exact.Script.run_read (BigEndian.length_encode 2 _), Exact.Script.run_write, hport,
    Exact.Script.run, List.append_nil]
  rfl

theorem written_proxy_greeting (reserved : UInt8) (bound : Bound) (bind : Vector UInt8 2) :
    ((proxy reserved bound bind).run greeting).written = [0x05, 0x00] :=
  rfl

/-- A talk that has come to rest is over, and the proxy knows where to connect to. -/
theorem quiet_talk (hlength : onionAddress.length ≤ 255) {reserved : UInt8} {bound : Bound}
    {bind : Vector UInt8 2} {s : Exact.Heard UInt8}
    (htalk : Exact.Talk (handshake onionAddress port) (proxy reserved bound bind) s)
    (hquiet : s.Quiet (handshake onionAddress port) (proxy reserved bound bind)) :
    s = ⟨service reserved bound bind, greeting ++ request onionAddress port⟩ := by
  obtain ⟨hclient, hserver⟩ := hquiet
  rw [written_handshake hlength] at hserver
  split at hserver
  · have hrun := run_proxy port hlength reserved bound bind []
    rw [List.append_nil, ← hserver] at hrun
    rw [hrun] at hclient
    cases s
    exact congrArg₂ Exact.Heard.mk hclient hserver
  · rename_i hanswer
    rw [hserver, written_proxy_greeting] at hclient
    exact absurd (hclient ▸ List.prefix_rfl) hanswer

/-! ### The address of an invitation -/

theorem onionAddress_of_parseQuery {C : Uri.Codecs} {host query : List Char} {inv : Uri.Invitation}
    (h : Uri.parseQuery C host port query = .ok inv) : inv.onionAddress = host := by
  unfold Uri.parseQuery at h
  split at h
  · cases h
  split at h
  · cases h
  split at h
  · cases h
  split at h
  · cases h
  split at h
  · cases h
  · cases h
    rfl

theorem validate_of_parseAuthority {C : Uri.Codecs} {authority query : List Char}
    {inv : Uri.Invitation} (h : Uri.parseAuthority C authority query = .ok inv) :
    Uri.validateOnionAddress C inv.onionAddress = .ok () := by
  unfold Uri.parseAuthority at h
  split at h
  · cases h
  split at h
  · cases h
  split at h
  · cases h
  rename_i hvalid
  split at h
  · cases h
  rw [onionAddress_of_parseQuery h, hvalid]

/-- The address of an invitation is short enough for the request. -/
theorem length_onionAddress {C : Uri.Codecs} {input : List Char} {inv : Uri.Invitation}
    (h : Uri.parseInvitation C input = .ok inv) : (Uri.bytes inv.onionAddress).length ≤ 255 := by
  have hvalid : Uri.validateOnionAddress C inv.onionAddress = .ok () := by
    unfold Uri.parseInvitation at h
    split at h
    · cases h
    split at h
    · cases h
    split at h
    · cases h
    split at h
    · cases h
    split at h
    · exact validate_of_parseAuthority h
    · exact validate_of_parseAuthority h
  obtain ⟨body, key, haddress, hbody⟩ := Uri.validateOnionAddress_eq_ok.mp hvalid
  have hsuffix : (Uri.bytes Uri.onionV3Suffix).length = 6 := rfl
  rw [haddress, Uri.bytes, List.flatMap_append, List.length_append]
  change (Uri.bytes body).length + (Uri.bytes Uri.onionV3Suffix).length ≤ 255
  rw [hbody, Uri.length_onionBody, hsuffix]
  decide

/-! ### The tunnel -/

theorem connectViaSocks_eq_ok (hlength : onionAddress.length ≤ 255) {stream : Option Bytes}
    {ending : Ending} {tunnel : Bytes} :
    connectViaSocks onionAddress port stream ending = .ok tunnel ↔
      ∃ reserved bound bind, stream = some (service reserved bound bind ++ tunnel) := by
  constructor
  · intro h
    unfold connectViaSocks at h
    split at h
    · cases h
    rename_i stream
    split at h
    · rename_i written rest hrun
      cases h
      have hresult : ((handshake onionAddress port).run stream).result = some (.ok ()) := by
        rw [hrun]
      obtain ⟨reserved, bound, bind, tunnel, rfl⟩ := handshake_granted hresult
      rw [run_service port hlength] at hrun
      cases hrun
      exact ⟨reserved, bound, bind, rfl⟩
    · cases h
    · cases h
  · rintro ⟨reserved, bound, bind, rfl⟩
    unfold connectViaSocks
    dsimp only
    rw [run_service port hlength]

/-- A reply that is not whole is waited for. -/
theorem service_waits (hlength : onionAddress.length ≤ 255) {reserved : UInt8} {bound : Bound}
    {bind : Vector UInt8 2} {front back : Bytes}
    (hcut : front ++ back = service reserved bound bind) (hback : back ≠ []) :
    ((handshake onionAddress port).run front).result = none := by
  cases hresult : ((handshake onionAddress port).run front).result with
  | none => rfl
  | some result =>
      have hrun := run_service port hlength reserved bound bind []
      rw [List.append_nil, ← hcut, Exact.Script.run_append _ _ _ hresult] at hrun
      have hrest := congrArg Exact.Trace.rest hrun
      exact absurd (List.append_eq_nil_iff.mp hrest).2 hback

/-- The way into a room, through the proxy: it is asked for what the invitation names, and what
frames come behind its reply are read as they were sent. -/
theorem socks_tunnel (C : Uri.Codecs) {input : List Char} {inv : Uri.Invitation}
    (h : Uri.parseInvitation C input = .ok inv) :
    let host := Uri.bytes inv.onionAddress
    let client := handshake host inv.port
    (∀ stream ending tunnel, connectViaSocks host inv.port stream ending = .ok tunnel ↔
      ∃ reserved bound bind, stream = some (service reserved bound bind ++ tunnel)) ∧
    (∀ stream, (client.run stream).written =
      if [0x05, 0x00] <+: stream then greeting ++ request host inv.port else greeting) ∧
    ∀ reserved bound bind,
      (∀ s, Exact.Talk client (proxy reserved bound bind) s →
        s.client <+: service reserved bound bind ∧ s.server <+: greeting ++ request host inv.port ∧
        (s.Quiet client (proxy reserved bound bind) →
          (client.run s.client).result = some (.ok ()) ∧
          ((proxy reserved bound bind).run s.server).result =
            some (.ok (host, inv.port.toNat)))) ∧
      (∀ front back, front ++ back = service reserved bound bind → back ≠ [] →
        (client.run front).result = none) ∧
      ∀ (limits : Limits) frames codes,
        List.Forall₂ (fun frame code => Frame.encode frame limits = .ok code) frames codes →
        (∀ frame ∈ frames, frame.body.length < 2 ^ 32) → ∀ ending, ∃ tunnel,
          connectViaSocks host inv.port (some (service reserved bound bind ++ codes.flatten))
            ending = .ok tunnel ∧
          ∀ chunks : List Bytes, chunks.flatten = tunnel →
            ∃ d, (FrameDecoder.new limits).feedAll chunks = .ok (d, frames) ∧
              d.finish = .ok () := by
  have hlength := length_onionAddress h
  refine ⟨fun stream ending tunnel => connectViaSocks_eq_ok hlength, written_handshake hlength,
    fun reserved bound bind => ⟨fun s htalk => ?_, fun front back hcut hback =>
      service_waits hlength hcut hback, fun limits frames codes hcodes hwidth ending => ?_⟩⟩
  · have hclient := run_service inv.port hlength reserved bound bind []
    have hserver := run_proxy inv.port hlength reserved bound bind []
    rw [List.append_nil] at hclient hserver
    obtain ⟨hanswer, hsaid⟩ := htalk.heard_prefix (by rw [hclient]) (by rw [hserver])
    refine ⟨hanswer, hsaid, fun hquiet => ?_⟩
    rw [quiet_talk hlength htalk hquiet, hclient, hserver]
    exact ⟨rfl, rfl⟩
  · refine ⟨codes.flatten, (connectViaSocks_eq_ok hlength).mpr ⟨reserved, bound, bind, rfl⟩, ?_⟩
    intro chunks hchunks
    exact FrameDecoder.feedAll_encoded hcodes hwidth hchunks

/-- The proxy connects to the host of the invitation, and its reply is read. -/
theorem socks_tunnel_zero :
    connectViaSocks (Uri.bytes Uri.zeroInvitation.onionAddress) 443
      (some (service 0 (.ipv4 ⟨#[127, 0, 0, 1], rfl⟩) ⟨#[0, 80], rfl⟩ ++ [0, 0, 0])) .closed =
        .ok [0, 0, 0] := by
  have hparse : Uri.parseInvitation Uri.codecs (Uri.zeroInvitation.toUriString Uri.codecs) =
      .ok Uri.zeroInvitation := by
    decide +kernel
  exact ((socks_tunnel Uri.codecs hparse).1 _ .closed [0, 0, 0]).mpr
    ⟨0, .ipv4 ⟨#[127, 0, 0, 1], rfl⟩, ⟨#[0, 80], rfl⟩, rfl⟩

end Socks
end Veilroom
