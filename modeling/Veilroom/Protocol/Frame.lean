import Veilroom.Protocol.Messages

/-!
The length-prefixed frame codec (`protocol/frame.rs`).
-/
namespace Veilroom

def frameHeaderLen : Nat := 8
def lengthFieldLen : Nat := 4
def minFrameBodyLen : Nat := 4

structure Frame where
  messageType : MessageType
  payload : Bytes
deriving DecidableEq

/-- `encode_frame`. -/
def encodeFrame (messageType : MessageType) (payload : Bytes) (limits : Limits) :
    Except FrameError Bytes :=
  let bodyLen := payload.length + minFrameBodyLen
  if bodyLen > limits.maxFrameSize then .error (.payloadTooLarge bodyLen limits.maxFrameSize)
  else
    .ok (BigEndian.encode 4 bodyLen ++ [protocolMajorVersion, messageType.asU8] ++
      BigEndian.encode 2 0 ++ payload)

structure FrameDecoder where
  buf : Bytes
  maxFrameSize : Nat
deriving DecidableEq

namespace FrameDecoder

/-- `FrameDecoder::new`. -/
def new (limits : Limits) : FrameDecoder := ⟨[], limits.maxFrameSize⟩

/-- The loop of `feed`: what stays in the buffer, and the frames found. -/
def readFrames (maxFrameSize : Nat) (buf : Bytes) (frames : List Frame) :
    Except FrameError (Bytes × List Frame) :=
  if _hheader : buf.length < frameHeaderLen then .ok (buf, frames)
  else
    let declared := BigEndian.decode (buf.take lengthFieldLen)
    if declared > maxFrameSize then .error (.frameTooLarge declared maxFrameSize)
    else if declared < minFrameBodyLen then .error (.frameTooShort minFrameBodyLen)
    else
      let total := lengthFieldLen + declared
      if buf.length < total then .ok (buf, frames)
      else
        match (buf.take total).drop lengthFieldLen with
        | version :: id :: high :: low :: payload =>
          if version ≠ protocolMajorVersion then .error (.unsupportedVersion version)
          else
            match MessageType.fromU8 id with
            | none => .error (.unknownMessageType id)
            | some messageType =>
              if BigEndian.decode [high, low] ≠ 0 then
                .error (.nonZeroFlags (BigEndian.decode [high, low]))
              else readFrames maxFrameSize (buf.drop total) (frames ++ [⟨messageType, payload⟩])
        -- a declared body has at least four bytes
        | _ => .ok (buf, frames)
termination_by buf.length
decreasing_by
  simp only [frameHeaderLen] at _hheader
  simp only [List.length_drop, lengthFieldLen]
  omega

/-- `FrameDecoder::feed`. An error is terminal, so it leaves no decoder behind. -/
def feed (d : FrameDecoder) (data : Bytes) : Except FrameError (FrameDecoder × List Frame) :=
  match readFrames d.maxFrameSize (d.buf ++ data) [] with
  | .error error => .error error
  | .ok (buf, frames) => .ok ({ d with buf }, frames)

/-- `FrameDecoder::finish`. -/
def finish (d : FrameDecoder) : Except FrameError Unit :=
  if d.buf.isEmpty then .ok () else .error .unexpectedEof

/-- A fresh decoder finds in an encoded frame that frame and nothing else. -/
theorem feed_encodeFrame {messageType : MessageType} {payload bytes : Bytes} {limits : Limits}
    (hsize : limits.maxFrameSize < 2 ^ 32)
    (h : encodeFrame messageType payload limits = .ok bytes) :
    (new limits).feed bytes = .ok (new limits, [⟨messageType, payload⟩]) := by
  unfold encodeFrame at h
  dsimp only at h
  split at h
  · cases h
  rename_i hlimit
  cases h
  rw [minFrameBodyLen, Nat.not_lt] at hlimit
  have hlength : (BigEndian.encode 4 (payload.length + 4)).length = 4 :=
    BigEndian.length_encode 4 _
  have hdeclared : BigEndian.decode (BigEndian.encode 4 (payload.length + 4)) =
      payload.length + 4 := BigEndian.decode_encode 4 _ (by omega)
  generalize hprefix : BigEndian.encode 4 (payload.length + 4) = length at hlength hdeclared
  have hbuf : length ++ [protocolMajorVersion, messageType.asU8] ++ BigEndian.encode 2 0 ++
      payload = length ++ protocolMajorVersion :: messageType.asU8 :: 0 :: 0 :: payload := by
    simp [BigEndian.encode]
  have hbody : (length ++ protocolMajorVersion :: messageType.asU8 :: 0 :: 0 :: payload).length =
      4 + (payload.length + 4) := by
    simp [hlength]
  have hread : readFrames limits.maxFrameSize
      (length ++ protocolMajorVersion :: messageType.asU8 :: 0 :: 0 :: payload) [] =
        .ok ([], [⟨messageType, payload⟩]) := by
    rw [readFrames, dif_neg (by simp only [frameHeaderLen]; omega)]
    simp only [lengthFieldLen, List.take_left' hlength, hdeclared]
    rw [if_neg (Nat.not_lt.mpr hlimit), if_neg (by simp [minFrameBodyLen]),
      if_neg (Nat.not_lt.mpr hbody.ge), List.take_of_length_le hbody.le, List.drop_left' hlength]
    dsimp only
    rw [if_neg (by simp), MessageType.fromU8_asU8]
    dsimp only
    rw [if_neg (by decide), List.drop_of_length_le hbody.le, readFrames]
    rfl
  unfold feed
  rw [show minFrameBodyLen = 4 from rfl, hprefix, hbuf]
  simp only [new, List.nil_append, hread]

end FrameDecoder

end Veilroom
