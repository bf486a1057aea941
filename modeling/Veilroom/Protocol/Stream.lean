import Veilroom.Library.Incremental
import Veilroom.Protocol.Frame

/-!
The frame codec over a byte stream: the loop of `FrameDecoder::feed` is an incremental
reader, so cutting the stream changes nothing, and what it reads is what `encode_frame`
wrote.
-/
namespace Veilroom

/-- `Frame::encode`. -/
def Frame.encode (frame : Frame) (limits : Limits) : Except FrameError Bytes :=
  encodeFrame frame.messageType frame.payload limits

/-- What the length of a frame counts: version, type, flags and payload. -/
def Frame.body (frame : Frame) : Bytes :=
  protocolMajorVersion :: frame.messageType.asU8 :: 0 :: 0 :: frame.payload

def Frame.wire (frame : Frame) : Bytes := BigEndian.encode 4 frame.body.length ++ frame.body

theorem Frame.length_body (frame : Frame) :
    frame.body.length = frame.payload.length + minFrameBodyLen := rfl

theorem Frame.length_wire (frame : Frame) : frame.wire.length = 4 + frame.body.length := by
  simp [wire]

theorem Frame.encode_eq_ok {frame : Frame} {limits : Limits} {bytes : Bytes} :
    frame.encode limits = .ok bytes ↔
      frame.body.length ≤ limits.maxFrameSize ∧ bytes = frame.wire := by
  have hflags : BigEndian.encode 2 0 = [0, 0] := rfl
  unfold encode encodeFrame
  dsimp only
  rw [← frame.length_body, hflags]
  split
  · simp_all
  · constructor
    · intro h
      cases h
      simp_all [wire, body]
    · rintro ⟨-, rfl⟩
      simp [wire, body]

namespace FrameDecoder

/-- The length a header declares. -/
def declaredLen (buf : Bytes) : Nat := BigEndian.decode (buf.take lengthFieldLen)

/-- What `feed` makes of a complete body. -/
def readBody : Bytes → Except FrameError (Option Frame)
  | version :: id :: high :: low :: payload =>
    if version ≠ protocolMajorVersion then .error (.unsupportedVersion version)
    else
      match MessageType.fromU8 id with
      | none => .error (.unknownMessageType id)
      | some messageType =>
        if BigEndian.decode [high, low] ≠ 0 then
          .error (.nonZeroFlags (BigEndian.decode [high, low]))
        else .ok (some ⟨messageType, payload⟩)
  | _ => .ok none

/-- One turn of the loop of `feed`: the first frame of the buffer and what follows it. -/
def nextFrame (maxFrameSize : Nat) (buf : Bytes) : Except FrameError (Option (Frame × Bytes)) :=
  if buf.length < frameHeaderLen then .ok none
  else if declaredLen buf > maxFrameSize then
    .error (.frameTooLarge (declaredLen buf) maxFrameSize)
  else if declaredLen buf < minFrameBodyLen then .error (.frameTooShort minFrameBodyLen)
  else if buf.length < lengthFieldLen + declaredLen buf then .ok none
  else
    match readBody ((buf.take (lengthFieldLen + declaredLen buf)).drop lengthFieldLen) with
    | .error error => .error error
    | .ok none => .ok none
    | .ok (some frame) => .ok (some (frame, buf.drop (lengthFieldLen + declaredLen buf)))

theorem readBody_eq_some {bytes : Bytes} {frame : Frame} :
    readBody bytes = .ok (some frame) ↔ bytes = frame.body := by
  constructor
  · intro h
    unfold readBody at h
    split at h
    · rename_i version id high low payload
      split at h
      · cases h
      rename_i hversion
      split at h
      · cases h
      rename_i messageType htype
      split at h
      · cases h
      rename_i hflags
      cases h
      have hzero := BigEndian.encode_decode [high, low]
      rw [not_not.mp hflags] at hzero
      obtain ⟨rfl, rfl⟩ : 0 = high ∧ 0 = low := by simpa [BigEndian.encode] using hzero
      rw [not_not.mp hversion, ← MessageType.asU8_of_fromU8 htype, Frame.body]
    · cases h
  · rintro rfl
    simp [readBody, Frame.body, BigEndian.decode]

variable {maxFrameSize : Nat} {buf rest : Bytes} {frame : Frame}

/-- A frame at the front of the buffer is read whatever follows it. -/
theorem nextFrame_wire (hmax : frame.body.length ≤ maxFrameSize)
    (hwidth : frame.body.length < 2 ^ 32) (rest : Bytes) :
    nextFrame maxFrameSize (frame.wire ++ rest) = .ok (some (frame, rest)) := by
  have hprefix : (BigEndian.encode 4 frame.body.length).length = 4 := BigEndian.length_encode 4 _
  have hdeclared : declaredLen (frame.wire ++ rest) = frame.body.length := by
    rw [declaredLen, lengthFieldLen, Frame.wire, List.append_assoc, List.take_left' hprefix,
      BigEndian.decode_encode 4 _ hwidth]
  have hmin := frame.length_body
  have hsize : (frame.wire ++ rest).length = 4 + frame.body.length + rest.length := by
    rw [List.length_append, frame.length_wire]
  have hbody : ((frame.wire ++ rest).take (4 + frame.body.length)).drop 4 = frame.body := by
    rw [List.take_left' frame.length_wire, Frame.wire, List.drop_left' hprefix]
  simp only [minFrameBodyLen] at hmin
  unfold nextFrame
  rw [hdeclared, hsize, lengthFieldLen, hbody, readBody_eq_some.mpr rfl,
    List.drop_left' frame.length_wire, if_neg (by simp only [frameHeaderLen]; omega),
    if_neg (by omega), if_neg (by simp only [minFrameBodyLen]; omega), if_neg (by omega)]

/-- Only a well-formed frame is read off the buffer. -/
theorem nextFrame_eq_some (h : nextFrame maxFrameSize buf = .ok (some (frame, rest))) :
    frame.body.length ≤ maxFrameSize ∧ frame.body.length < 2 ^ 32 ∧ buf = frame.wire ++ rest := by
  unfold nextFrame at h
  split at h
  · cases h
  split at h
  · cases h
  split at h
  · cases h
  split at h
  · cases h
  rename_i hheader hmax hmin hwhole
  split at h
  · cases h
  · cases h
  rename_i frame' hread
  cases h
  simp only [frameHeaderLen, lengthFieldLen, minFrameBodyLen, Nat.not_lt] at *
  have hbody := readBody_eq_some.mp hread
  have htake : (buf.take 4).length = 4 := by
    rw [List.length_take]
    omega
  have hlength : frame.body.length = declaredLen buf := by
    rw [← hbody, List.length_drop, List.length_take]
    omega
  have hprefix : BigEndian.encode 4 (declaredLen buf) = buf.take 4 := by
    have hcode := BigEndian.encode_decode (buf.take 4)
    rwa [htake] at hcode
  have hbound : declaredLen buf < 256 ^ 4 := by
    have hlt := BigEndian.decode_lt (buf.take 4)
    rwa [htake] at hlt
  refine ⟨by omega, by omega, ?_⟩
  have hfront : buf.take 4 = (buf.take (4 + declaredLen buf)).take 4 := by
    rw [List.take_take, Nat.min_eq_left (by omega)]
  rw [Frame.wire, hlength, hprefix, ← hbody, hfront, List.take_append_drop,
    List.take_append_drop]

/-- An error is found at the same place whatever follows. -/
theorem nextFrame_error {error : FrameError} (more : Bytes)
    (h : nextFrame maxFrameSize buf = .error error) :
    nextFrame maxFrameSize (buf ++ more) = .error error := by
  have hheader : ¬ buf.length < frameHeaderLen := by
    intro hshort
    simp [nextFrame, hshort] at h
  have hlong : frameHeaderLen ≤ (buf ++ more).length := by
    rw [List.length_append]
    omega
  have hdeclared : declaredLen (buf ++ more) = declaredLen buf := by
    simp only [frameHeaderLen] at hheader
    rw [declaredLen, lengthFieldLen, List.take_append_of_le_length (by omega)]
    rfl
  unfold nextFrame at h ⊢
  rw [if_neg hheader] at h
  rw [if_neg (Nat.not_lt.mpr hlong), hdeclared]
  split at h
  · rename_i hmax
    rw [if_pos hmax, h]
  rename_i hmax
  rw [if_neg hmax]
  split at h
  · rename_i hmin
    rw [if_pos hmin, h]
  rename_i hmin
  rw [if_neg hmin]
  split at h
  · cases h
  rename_i hwhole
  rw [Nat.not_lt] at hwhole
  have hbody : (buf ++ more).take (lengthFieldLen + declaredLen buf) =
      buf.take (lengthFieldLen + declaredLen buf) := List.take_append_of_le_length hwhole
  rw [if_neg (by rw [List.length_append]; omega), hbody]
  split at h
  · cases h
    rfl
  · cases h
  · cases h

/-- The loop of `feed` as an incremental reader. -/
def reader (maxFrameSize : Nat) : Incremental FrameError Frame UInt8 where
  next := nextFrame maxFrameSize
  next_shrinks h := by
    obtain ⟨-, -, rfl⟩ := nextFrame_eq_some h
    rw [List.length_append, Frame.length_wire]
    omega
  next_append more h := by
    obtain ⟨hmax, hwidth, rfl⟩ := nextFrame_eq_some h
    rw [List.append_assoc]
    exact nextFrame_wire hmax hwidth _
  next_error more h := nextFrame_error more h

/-- One turn of the loop reads one frame. -/
theorem readFrames_turn (maxFrameSize : Nat) (buf : Bytes) (frames : List Frame) :
    readFrames maxFrameSize buf frames = match nextFrame maxFrameSize buf with
      | .error error => .error error
      | .ok none => .ok (buf, frames)
      | .ok (some (frame, rest)) => readFrames maxFrameSize rest (frames ++ [frame]) := by
  rw [readFrames, nextFrame]
  dsimp only
  rw [show BigEndian.decode (buf.take lengthFieldLen) = declaredLen buf from rfl]
  generalize declaredLen buf = declared
  by_cases hheader : buf.length < frameHeaderLen
  · simp only [dif_pos hheader, if_pos hheader]
  by_cases hmax : declared > maxFrameSize
  · simp only [dif_neg hheader, if_neg hheader, if_pos hmax]
  by_cases hmin : declared < minFrameBodyLen
  · simp only [dif_neg hheader, if_neg hheader, if_neg hmax, if_pos hmin]
  by_cases hwhole : buf.length < lengthFieldLen + declared
  · simp only [dif_neg hheader, if_neg hheader, if_neg hmax, if_neg hmin, if_pos hwhole]
  simp only [dif_neg hheader, if_neg hheader, if_neg hmax, if_neg hmin, if_neg hwhole]
  generalize (buf.take (lengthFieldLen + declared)).drop lengthFieldLen = bytes
  obtain _ | ⟨version, _ | ⟨id, _ | ⟨high, _ | ⟨low, payload⟩⟩⟩⟩ := bytes
  · rfl
  · rfl
  · rfl
  · rfl
  simp only [readBody]
  by_cases hversion : version ≠ protocolMajorVersion
  · simp only [if_pos hversion]
  simp only [if_neg hversion]
  cases MessageType.fromU8 id with
  | none => rfl
  | some messageType =>
      by_cases hflags : BigEndian.decode [high, low] ≠ 0
      · simp only [if_pos hflags]
      · simp only [if_neg hflags]

/-- The loop of `feed` is the reader, after the frames found so far. -/
theorem readFrames_eq_drain (maxFrameSize : Nat) (buf : Bytes) (frames : List Frame) :
    readFrames maxFrameSize buf frames = match (reader maxFrameSize).drain buf with
      | .error error => .error error
      | .ok (left, found) => .ok (left, frames ++ found) := by
  induction hsize : buf.length using Nat.strongRecOn generalizing buf frames with
  | ind size ih =>
      rw [readFrames_turn]
      cases hnext : nextFrame maxFrameSize buf with
      | error error => rw [Incremental.drain_error (r := reader maxFrameSize) hnext]
      | ok found =>
          cases found with
          | none => simp [Incremental.drain_none (r := reader maxFrameSize) hnext]
          | some found =>
              obtain ⟨frame, rest⟩ := found
              have hshrinks := (reader maxFrameSize).next_shrinks hnext
              rw [Incremental.drain_some (r := reader maxFrameSize) hnext]
              dsimp only
              rw [ih _ (hsize ▸ hshrinks) rest _ rfl]
              cases (reader maxFrameSize).drain rest with
              | error error => rfl
              | ok drained => simp

/-! ### Chunks -/

/-- `feed` on one chunk after the other, up to the first error. -/
def feedAll (d : FrameDecoder) : List Bytes → Except FrameError (FrameDecoder × List Frame)
  | [] => .ok (d, [])
  | chunk :: chunks =>
    match d.feed chunk with
    | .error error => .error error
    | .ok (d, frames) =>
      match feedAll d chunks with
      | .error error => .error error
      | .ok (d, frames') => .ok (d, frames ++ frames')

theorem feedAll_eq_feeds (d : FrameDecoder) (chunks : List Bytes) :
    d.feedAll chunks = match (reader d.maxFrameSize).feeds d.buf chunks with
      | .error error => .error error
      | .ok (buf, frames) => .ok ({ d with buf }, frames) := by
  induction chunks generalizing d with
  | nil => rfl
  | cons chunk chunks ih =>
      unfold feedAll feed Incremental.feeds
      rw [readFrames_eq_drain]
      cases (reader d.maxFrameSize).drain (d.buf ++ chunk) with
      | error error => rfl
      | ok drained =>
          obtain ⟨buf, frames⟩ := drained
          simp only [ih, List.nil_append]
          cases (reader d.maxFrameSize).feeds buf chunks <;> rfl

theorem next_nil (maxFrameSize : Nat) : (reader maxFrameSize).next [] = .ok none := by
  simp [reader, nextFrame, frameHeaderLen]

/-- A fresh decoder fed in chunks drains the whole stream. -/
theorem feedAll_new (limits : Limits) (chunks : List Bytes) :
    (new limits).feedAll chunks =
      match (reader limits.maxFrameSize).drain chunks.flatten with
      | .error error => .error error
      | .ok (buf, frames) => .ok (⟨buf, limits.maxFrameSize⟩, frames) := by
  have hnil := Incremental.drain_none (next_nil limits.maxFrameSize)
  have hfeeds := Incremental.feeds_eq_drain chunks hnil
  rw [List.nil_append] at hfeeds
  rw [feedAll_eq_feeds, new, hfeeds]

theorem length_of_readBody {bytes : Bytes} (h : readBody bytes = .ok none) :
    bytes.length < minFrameBodyLen := by
  unfold readBody at h
  split at h
  · split at h
    · cases h
    split at h
    · cases h
    split at h <;> cases h
  · rename_i hshort
    by_contra hlong
    obtain _ | ⟨version, _ | ⟨id, _ | ⟨high, _ | ⟨low, payload⟩⟩⟩⟩ := bytes
    · simp [minFrameBodyLen] at hlong
    · simp [minFrameBodyLen] at hlong
    · simp [minFrameBodyLen] at hlong
    · simp [minFrameBodyLen] at hlong
    · exact hshort version id high low payload rfl

/-- A buffer without a complete frame is smaller than the largest frame. -/
theorem length_of_incomplete (hmin : minFrameBodyLen ≤ maxFrameSize)
    (h : nextFrame maxFrameSize buf = .ok none) : buf.length < lengthFieldLen + maxFrameSize := by
  simp only [lengthFieldLen, minFrameBodyLen] at *
  unfold nextFrame at h
  split at h
  · rename_i hheader
    rw [frameHeaderLen] at hheader
    omega
  split at h
  · cases h
  split at h
  · cases h
  split at h
  · rename_i hmax hdeclared hwhole
    rw [lengthFieldLen] at hwhole
    omega
  rename_i hmax hdeclared hwhole
  split at h
  · cases h
  · rename_i hread
    have hbody := length_of_readBody hread
    rw [List.length_drop, List.length_take] at hbody
    rw [lengthFieldLen, minFrameBodyLen] at *
    omega
  · cases h

/-! ### The codec over a stream -/

theorem feedAll_encoded {limits : Limits} {frames : List Frame} {codes chunks : List Bytes}
    (h : List.Forall₂ (fun frame code => frame.encode limits = .ok code) frames codes)
    (hwidth : ∀ frame ∈ frames, frame.body.length < 2 ^ 32)
    (hchunks : chunks.flatten = codes.flatten) :
    ∃ d, (new limits).feedAll chunks = .ok (d, frames) ∧ d.finish = .ok () := by
  have hcodes : List.Forall₂ (fun frame code => frame.body.length ≤ limits.maxFrameSize ∧
      frame.body.length < 2 ^ 32 ∧ code = Frame.wire frame) frames codes := by
    clear hchunks
    induction h with
    | nil => exact .nil
    | cons hencode _ ih =>
        obtain ⟨hmax, hcode⟩ := Frame.encode_eq_ok.mp hencode
        refine .cons ⟨hmax, hwidth _ List.mem_cons_self, hcode⟩ ?_
        exact ih fun frame hframe => hwidth frame (List.mem_cons_of_mem _ hframe)
  have hdrain := Incremental.drain_flatten (next_nil limits.maxFrameSize) (r := reader _)
    (fun {frame code} rest hcode => by
      obtain ⟨hmax, hlt, rfl⟩ := hcode
      exact nextFrame_wire hmax hlt rest) hcodes
  refine ⟨⟨[], limits.maxFrameSize⟩, ?_, rfl⟩
  rw [feedAll_new, hchunks, hdrain]

theorem codes_of_feedAll {limits : Limits} {chunks : List Bytes} {d : FrameDecoder}
    {frames : List Frame} (hmin : minFrameBodyLen ≤ limits.maxFrameSize)
    (h : (new limits).feedAll chunks = .ok (d, frames)) :
    (∃ codes, List.Forall₂ (fun frame code => frame.encode limits = .ok code) frames codes ∧
      chunks.flatten = codes.flatten ++ d.buf) ∧
    d.buf.length < lengthFieldLen + limits.maxFrameSize := by
  rw [feedAll_new] at h
  split at h
  · cases h
  rename_i hdrain
  cases h
  refine ⟨?_, length_of_incomplete hmin (Incremental.next_left hdrain)⟩
  apply Incremental.drain_codes _ hdrain
  intro input frame rest hnext
  obtain ⟨hmax, -, rfl⟩ := nextFrame_eq_some hnext
  exact ⟨frame.wire, Frame.encode_eq_ok.mpr ⟨hmax, rfl⟩, rfl⟩

/-- The frame codec over a stream: how the stream is cut changes nothing; what was encoded is
decoded; what is decoded is what was sent, re-encoded; and the buffer stays bounded. The length
field has 32 bits, so a longer body than it can say is the one thing that is not decoded. -/
theorem stream_codec (limits : Limits) (hmin : minFrameBodyLen ≤ limits.maxFrameSize) :
    (∀ chunks chunks' : List Bytes, chunks.flatten = chunks'.flatten →
      (new limits).feedAll chunks = (new limits).feedAll chunks') ∧
    (∀ (frames : List Frame) (codes chunks : List Bytes),
      List.Forall₂ (fun frame code => frame.encode limits = .ok code) frames codes →
      (∀ frame ∈ frames, frame.body.length < 2 ^ 32) → chunks.flatten = codes.flatten →
      ∃ d, (new limits).feedAll chunks = .ok (d, frames) ∧ d.finish = .ok ()) ∧
    (∀ (chunks : List Bytes) (d : FrameDecoder) (frames : List Frame),
      (new limits).feedAll chunks = .ok (d, frames) →
      (∃ codes, List.Forall₂ (fun frame code => frame.encode limits = .ok code) frames codes ∧
        chunks.flatten = codes.flatten ++ d.buf) ∧
      d.buf.length < lengthFieldLen + limits.maxFrameSize) := by
  refine ⟨fun chunks chunks' hcut => ?_, fun _ _ _ => feedAll_encoded,
    fun _ _ _ => codes_of_feedAll hmin⟩
  rw [feedAll_new, feedAll_new, hcut]

/-- A keepalive in three chunks. -/
theorem stream_codec_keepalive :
    ∃ d, (new .default).feedAll [[0, 0, 0], [4, 1, 0x80, 0], [0]] =
        .ok (d, [⟨.keepalive, []⟩]) ∧ d.finish = .ok () := by
  apply (stream_codec .default (by decide)).2.1 _ [[0, 0, 0, 4, 1, 0x80, 0, 0]]
  · exact .cons rfl .nil
  · simp [Frame.body]
  · rfl

private theorem encode_overlong {limits : Limits} {type : MessageType} {payload : Bytes}
    (hmax : 2 ^ 32 + minFrameBodyLen ≤ limits.maxFrameSize) (hlength : payload.length = 2 ^ 32) :
    (Frame.mk type payload).encode limits = .ok (Frame.mk type payload).wire := by
  apply Frame.encode_eq_ok.mpr
  refine ⟨?_, rfl⟩
  rw [Frame.length_body, hlength]
  exact hmax

/-- A body whose length only differs from that of an empty payload above the 32 bits of the
length field is cut off after its header. -/
theorem feedAll_overlong {limits : Limits} {type : MessageType} {payload : Bytes}
    (hmin : minFrameBodyLen ≤ limits.maxFrameSize) (hlength : payload.length = 2 ^ 32)
    (hzero : payload.take 4 = [0, 0, 0, 0]) :
    (new limits).feedAll [(Frame.mk type payload).wire] =
      .error (.frameTooShort minFrameBodyLen) := by
  have hbody : (Frame.mk type payload).body = (Frame.mk type []).body ++ payload := rfl
  have hempty : (Frame.mk type []).body.length = minFrameBodyLen := rfl
  have hlow : BigEndian.encode 4 (Frame.mk type payload).body.length =
      BigEndian.encode 4 (Frame.mk type []).body.length := by
    rw [hempty, Frame.length_body, hlength]
    decide
  have hfirst : (reader limits.maxFrameSize).next ((Frame.mk type payload).wire) =
      .ok (some (⟨type, []⟩, payload)) := by
    rw [Frame.wire, hlow, hbody, ← List.append_assoc]
    apply nextFrame_wire
    · exact hmin
    · rw [hempty]
      decide
  have hsecond : (reader limits.maxFrameSize).next payload =
      .error (.frameTooShort minFrameBodyLen) := by
    have hdeclared : declaredLen payload = 0 := by
      rw [declaredLen, lengthFieldLen, hzero]
      rfl
    change nextFrame limits.maxFrameSize payload = _
    rw [nextFrame, hlength, hdeclared, if_neg (by decide), if_neg (Nat.not_lt.mpr (Nat.zero_le _)),
      if_pos (by decide)]
  rw [feedAll_new, List.flatten_singleton, Incremental.drain_some hfirst,
    Incremental.drain_error hsecond]

/-- Under a limit above 2 ^ 32 such a frame is encoded, and then not decoded. -/
theorem overlong_frame_misread :
    (Frame.mk .keepalive (List.replicate (2 ^ 32) 0)).encode { maxFrameSize := 2 ^ 33 } =
        .ok (Frame.mk .keepalive (List.replicate (2 ^ 32) 0)).wire ∧
    (new { maxFrameSize := 2 ^ 33 }).feedAll
        [(Frame.mk .keepalive (List.replicate (2 ^ 32) 0)).wire] =
      .error (.frameTooShort minFrameBodyLen) := by
  have hzero : (List.replicate (2 ^ 32) (0 : UInt8)).take 4 = [0, 0, 0, 0] := by
    rw [List.take_replicate, Nat.min_eq_left (by decide)]
    rfl
  constructor
  · exact encode_overlong (by decide) List.length_replicate
  · exact feedAll_overlong (by decide) List.length_replicate hzero

end FrameDecoder

end Veilroom
