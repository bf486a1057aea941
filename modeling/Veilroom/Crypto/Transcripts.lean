import Veilroom.Chat.Session
import Veilroom.Library.Codes

/-!
Separation of what is signed and of what is bound into a ciphertext: every
transcript, membership body and additional data determines the fields it was
built from.
-/
namespace Veilroom
open Transcript

/-! ### The fields of a transcript -/

namespace Transcript

theorem u8_delimited : Delimited (fun _ => True) u8 := by
  apply Delimited.of_length 1
  · intro a _
    rfl
  · intro a b _ _ h
    simpa [u8] using h

private theorem bigEndian_delimited (width : Nat) :
    Delimited (fun n => n < 256 ^ width) (BigEndian.encode width) := by
  apply Delimited.of_length width
  · intro a _
    exact BigEndian.length_encode width a
  · intro a b ha hb h
    rw [← BigEndian.decode_encode width a ha, h, BigEndian.decode_encode width b hb]

theorem u16_delimited : Delimited (fun n => n < 2 ^ 16) u16 := bigEndian_delimited 2
theorem u32_delimited : Delimited (fun n => n < 2 ^ 32) u32 := bigEndian_delimited 4
theorem u64_delimited : Delimited (fun n => n < 2 ^ 64) u64 := bigEndian_delimited 8

theorem fixed_delimited (n : Nat) : Delimited (fun _ => True) (fixed (n := n)) := by
  apply Delimited.of_length n
  · intro a _
    simp [fixed]
  · intro a b _ _ h
    exact Vector.toList_inj.mp h

theorem bytes_delimited : Delimited (fun value => value.length < 2 ^ 32) bytes :=
  u32_delimited.prefixed

theorem utf8_injective : Function.Injective utf8 := by
  intro a b h
  apply String.toByteArray_inj.mp
  exact ByteArray.ext (Array.toList_inj.mp h)

theorem text_delimited :
    Delimited (fun text => (utf8 text).length < 2 ^ 32) (fun text => bytes (utf8 text)) :=
  bytes_delimited.comap utf8_injective

theorem label_delimited : Delimited (fun text => (utf8 text).length < 2 ^ 32) label :=
  text_delimited

end Transcript

/-! ### Signatures -/

structure HostHelloTranscriptInput where
  version : UInt8
  onionAddress : String
  virtualPort : Nat
  roomSessionId : Key
  hostEd25519Pubkey : Key
  hostX25519Pubkey : Key
  clientNonce : ShortNonce
  serverNonce : ShortNonce
  tokenHash : Key
  offeredVersion : UInt8
  clientFeatures : Nat

namespace HostHelloTranscriptInput

def transcript (input : HostHelloTranscriptInput) : Bytes :=
  hostHelloTranscript input.version input.onionAddress input.virtualPort input.roomSessionId
    input.hostEd25519Pubkey input.hostX25519Pubkey input.clientNonce input.serverNonce
    input.tokenHash input.offeredVersion input.clientFeatures

/-- The integers have their width and the text is shorter than 2 ^ 32 bytes. -/
structure InRange (input : HostHelloTranscriptInput) : Prop where
  onionAddress : (utf8 input.onionAddress).length < 2 ^ 32
  virtualPort : input.virtualPort < 2 ^ 16
  clientFeatures : input.clientFeatures < 2 ^ 32

theorem transcript_injective {a b : HostHelloTranscriptInput} (ha : a.InRange) (hb : b.InRange)
    (h : a.transcript = b.transcript) : a = b := by
  simp only [transcript, hostHelloTranscript, List.append_assoc, List.append_cancel_left_eq] at h
  obtain ⟨hversion, h⟩ := u8_delimited trivial trivial h
  obtain ⟨honion, h⟩ := text_delimited ha.onionAddress hb.onionAddress h
  obtain ⟨hport, h⟩ := u16_delimited ha.virtualPort hb.virtualPort h
  obtain ⟨hsession, h⟩ := fixed_delimited _ trivial trivial h
  obtain ⟨hed, h⟩ := fixed_delimited _ trivial trivial h
  obtain ⟨hx, h⟩ := fixed_delimited _ trivial trivial h
  obtain ⟨hclient, h⟩ := fixed_delimited _ trivial trivial h
  obtain ⟨hserver, h⟩ := fixed_delimited _ trivial trivial h
  obtain ⟨htoken, h⟩ := fixed_delimited _ trivial trivial h
  obtain ⟨hoffered, h⟩ := u8_delimited trivial trivial h
  have hfeatures := u32_delimited.injective ha.clientFeatures hb.clientFeatures h
  cases a
  cases b
  simp_all only

end HostHelloTranscriptInput

structure JoinRequestTranscriptInput where
  version : UInt8
  roomSessionId : Key
  clientNonce : ShortNonce
  serverNonce : ShortNonce
  nickname : String
  introductionHash : Key
  participantEd25519Pubkey : Key
  participantX25519Pubkey : Key
  onionAddress : String
  tokenHash : Key

namespace JoinRequestTranscriptInput

def transcript (input : JoinRequestTranscriptInput) : Bytes :=
  joinRequestTranscript input.version input.roomSessionId input.clientNonce input.serverNonce
    input.nickname input.introductionHash input.participantEd25519Pubkey
    input.participantX25519Pubkey input.onionAddress input.tokenHash

structure InRange (input : JoinRequestTranscriptInput) : Prop where
  nickname : (utf8 input.nickname).length < 2 ^ 32
  onionAddress : (utf8 input.onionAddress).length < 2 ^ 32

theorem transcript_injective {a b : JoinRequestTranscriptInput} (ha : a.InRange)
    (hb : b.InRange) (h : a.transcript = b.transcript) : a = b := by
  simp only [transcript, joinRequestTranscript, List.append_assoc,
    List.append_cancel_left_eq] at h
  obtain ⟨hversion, h⟩ := u8_delimited trivial trivial h
  obtain ⟨hsession, h⟩ := fixed_delimited _ trivial trivial h
  obtain ⟨hclient, h⟩ := fixed_delimited _ trivial trivial h
  obtain ⟨hserver, h⟩ := fixed_delimited _ trivial trivial h
  obtain ⟨hnickname, h⟩ := text_delimited ha.nickname hb.nickname h
  obtain ⟨hintroduction, h⟩ := fixed_delimited _ trivial trivial h
  obtain ⟨hed, h⟩ := fixed_delimited _ trivial trivial h
  obtain ⟨hx, h⟩ := fixed_delimited _ trivial trivial h
  obtain ⟨honion, h⟩ := text_delimited ha.onionAddress hb.onionAddress h
  have htoken := (fixed_delimited _).injective trivial trivial h
  cases a
  cases b
  simp_all only

end JoinRequestTranscriptInput

/-- The arguments of `room_event_transcript`. -/
structure RoomEventTranscriptInput where
  version : UInt8
  roomSessionId : Key
  sequence : Nat
  epoch : Nat
  eventType : UInt8
  body : Bytes

namespace RoomEventTranscriptInput

def transcript (input : RoomEventTranscriptInput) : Bytes :=
  roomEventTranscript input.version input.roomSessionId input.sequence input.epoch
    input.eventType input.body

structure InRange (input : RoomEventTranscriptInput) : Prop where
  sequence : input.sequence < 2 ^ 64
  epoch : input.epoch < 2 ^ 64
  body : input.body.length < 2 ^ 32

theorem transcript_injective {a b : RoomEventTranscriptInput} (ha : a.InRange) (hb : b.InRange)
    (h : a.transcript = b.transcript) : a = b := by
  simp only [transcript, roomEventTranscript, List.append_assoc,
    List.append_cancel_left_eq] at h
  obtain ⟨hversion, h⟩ := u8_delimited trivial trivial h
  obtain ⟨hsession, h⟩ := fixed_delimited _ trivial trivial h
  obtain ⟨hsequence, h⟩ := u64_delimited ha.sequence hb.sequence h
  obtain ⟨hepoch, h⟩ := u64_delimited ha.epoch hb.epoch h
  obtain ⟨htype, h⟩ := u8_delimited trivial trivial h
  have hbody := bytes_delimited.injective ha.body hb.body h
  cases a
  cases b
  simp_all only

end RoomEventTranscriptInput

/-- The arguments of `chat_transcript`. -/
structure ChatTranscriptInput where
  version : UInt8
  roomSessionId : Key
  epoch : Nat
  senderId : Nat
  senderSequence : Nat
  messageType : UInt8
  nonce : Nonce
  ciphertext : Bytes

namespace ChatTranscriptInput

def transcript (input : ChatTranscriptInput) : Bytes :=
  chatTranscript input.version input.roomSessionId input.epoch input.senderId
    input.senderSequence input.messageType input.nonce input.ciphertext

structure InRange (input : ChatTranscriptInput) : Prop where
  epoch : input.epoch < 2 ^ 64
  senderId : input.senderId < 2 ^ 64
  senderSequence : input.senderSequence < 2 ^ 64
  ciphertext : input.ciphertext.length < 2 ^ 32

theorem transcript_injective {a b : ChatTranscriptInput} (ha : a.InRange) (hb : b.InRange)
    (h : a.transcript = b.transcript) : a = b := by
  simp only [transcript, chatTranscript, List.append_assoc, List.append_cancel_left_eq] at h
  obtain ⟨hversion, h⟩ := u8_delimited trivial trivial h
  obtain ⟨hsession, h⟩ := fixed_delimited _ trivial trivial h
  obtain ⟨hepoch, h⟩ := u64_delimited ha.epoch hb.epoch h
  obtain ⟨hsender, h⟩ := u64_delimited ha.senderId hb.senderId h
  obtain ⟨hsequence, h⟩ := u64_delimited ha.senderSequence hb.senderSequence h
  obtain ⟨htype, h⟩ := u8_delimited trivial trivial h
  obtain ⟨hnonce, h⟩ := fixed_delimited _ trivial trivial h
  have hciphertext := bytes_delimited.injective ha.ciphertext hb.ciphertext h
  cases a
  cases b
  simp_all only

end ChatTranscriptInput

/-- One call of a transcript builder: everything the room ever signs. -/
inductive SignedInput
  | hostHello (input : HostHelloTranscriptInput)
  | joinRequest (input : JoinRequestTranscriptInput)
  | roomEvent (input : RoomEventTranscriptInput)
  | chat (input : ChatTranscriptInput)

namespace SignedInput

def transcript : SignedInput → Bytes
  | .hostHello input => input.transcript
  | .joinRequest input => input.transcript
  | .roomEvent input => input.transcript
  | .chat input => input.transcript

def InRange : SignedInput → Prop
  | .hostHello input => input.InRange
  | .joinRequest input => input.InRange
  | .roomEvent input => input.InRange
  | .chat input => input.InRange

def label : SignedInput → String
  | .hostHello _ => hostHelloLabel
  | .joinRequest _ => joinRequestLabel
  | .roomEvent _ => roomEventLabel
  | .chat _ => chatMessageLabel

theorem label_short (a : SignedInput) : (utf8 a.label).length < 2 ^ 32 := by
  cases a <;> simp only [label] <;> decide

theorem transcript_labelled (a : SignedInput) :
    ∃ fields, a.transcript = Transcript.label a.label ++ fields := by
  cases a <;>
    simp only [transcript, HostHelloTranscriptInput.transcript, hostHelloTranscript,
      JoinRequestTranscriptInput.transcript, joinRequestTranscript,
      RoomEventTranscriptInput.transcript, roomEventTranscript, ChatTranscriptInput.transcript,
      chatTranscript, label, List.append_assoc] <;>
    exact ⟨_, rfl⟩

/-- The domain label comes first, so equal transcripts have equal labels. -/
theorem label_eq {a b : SignedInput} (h : a.transcript = b.transcript) : a.label = b.label := by
  obtain ⟨fields, ha⟩ := a.transcript_labelled
  obtain ⟨fields', hb⟩ := b.transcript_labelled
  rw [ha, hb] at h
  exact (label_delimited a.label_short b.label_short h).1

theorem transcript_injective {a b : SignedInput} (ha : a.InRange) (hb : b.InRange)
    (h : a.transcript = b.transcript) : a = b := by
  have hlabel := label_eq h
  cases a <;> cases b <;>
    try simp [label, hostHelloLabel, joinRequestLabel, roomEventLabel, chatMessageLabel] at hlabel
  case hostHello.hostHello a b =>
    rw [HostHelloTranscriptInput.transcript_injective ha hb h]
  case joinRequest.joinRequest a b =>
    rw [JoinRequestTranscriptInput.transcript_injective ha hb h]
  case roomEvent.roomEvent a b =>
    rw [RoomEventTranscriptInput.transcript_injective ha hb h]
  case chat.chat a b =>
    rw [ChatTranscriptInput.transcript_injective ha hb h]

end SignedInput

/-! ### Membership events -/

/-- What a signed room event says, by its event type. -/
inductive SignedEvent
  | memberJoined (memberId : MemberId) (nickname : String) (ed25519Pubkey : Key)
  | memberLeft (memberId : MemberId)
  | memberKicked (memberId : MemberId)
  | joinPolicy (isOpen : Bool)
  | memberSnapshot (members : List SnapshotBodyMember)

def SnapshotBodyMember.InRange (member : SnapshotBodyMember) : Prop :=
  member.memberId < 2 ^ 64 ∧ (utf8 member.nickname).length < 2 ^ 32

theorem joinPolicyBody_injective : Function.Injective joinPolicyBody := by
  intro a b h
  cases a <;> cases b <;> simp_all [joinPolicyBody]

theorem memberJoinedBody_injective {id id' : Nat} {nickname nickname' : String} {key key' : Key}
    (hid : id < 2 ^ 64) (hid' : id' < 2 ^ 64) (hnickname : (utf8 nickname).length < 2 ^ 32)
    (hnickname' : (utf8 nickname').length < 2 ^ 32)
    (h : memberJoinedBody id nickname key = memberJoinedBody id' nickname' key') :
    id = id' ∧ nickname = nickname' ∧ key = key' := by
  simp only [memberJoinedBody, List.append_assoc] at h
  obtain ⟨hids, h⟩ := u64_delimited hid hid' h
  obtain ⟨hnicknames, h⟩ := text_delimited hnickname hnickname' h
  exact ⟨hids, hnicknames, (fixed_delimited _).injective trivial trivial h⟩

theorem snapshotBodyMember_delimited :
    Delimited SnapshotBodyMember.InRange fun member =>
      u64 member.memberId ++ bytes (utf8 member.nickname) ++ u8 member.colorIndex ++
        u8 (if member.isHost then 1 else 0) ++ fixed member.ed25519Pubkey := by
  intro a b rest rest' ha hb h
  simp only [List.append_assoc] at h
  obtain ⟨hid, h⟩ := u64_delimited ha.1 hb.1 h
  obtain ⟨hnickname, h⟩ := text_delimited ha.2 hb.2 h
  obtain ⟨hcolor, h⟩ := u8_delimited trivial trivial h
  obtain ⟨hhost, h⟩ := u8_delimited trivial trivial h
  obtain ⟨hkey, hrest⟩ := fixed_delimited _ trivial trivial h
  have hhost' : a.isHost = b.isHost := by
    apply joinPolicyBody_injective
    simpa only [joinPolicyBody, List.cons.injEq, and_true] using hhost
  cases a
  cases b
  simp_all only [and_self]

/-- A snapshot has no end marker: its entries are read up to the end of the body. -/
theorem memberSnapshotBody_injective {members members' : List SnapshotBodyMember}
    (h : ∀ member ∈ members, member.InRange) (h' : ∀ member ∈ members', member.InRange)
    (heq : memberSnapshotBody members = memberSnapshotBody members') : members = members' := by
  unfold memberSnapshotBody at heq
  obtain ⟨-, hentries⟩ := List.append_inj heq (by simp [u64])
  apply snapshotBodyMember_delimited.flatMap_injective _ h h' hentries
  intro member _
  simp [u8]

namespace SignedEvent

def eventType : SignedEvent → UInt8
  | .memberJoined .. => msgMemberJoined
  | .memberLeft _ => msgMemberLeft
  | .memberKicked _ => msgMemberKicked
  | .joinPolicy _ => msgJoinPolicy
  | .memberSnapshot _ => msgMemberSnapshot

def body : SignedEvent → Bytes
  | .memberJoined memberId nickname ed25519Pubkey =>
    memberJoinedBody memberId nickname ed25519Pubkey
  | .memberLeft memberId => memberGoneBody memberId
  | .memberKicked memberId => memberGoneBody memberId
  | .joinPolicy isOpen => joinPolicyBody isOpen
  | .memberSnapshot members => memberSnapshotBody members

def InRange : SignedEvent → Prop
  | .memberJoined memberId nickname _ =>
    memberId < 2 ^ 64 ∧ (utf8 nickname).length < 2 ^ 32
  | .memberLeft memberId => memberId < 2 ^ 64
  | .memberKicked memberId => memberId < 2 ^ 64
  | .joinPolicy _ => True
  | .memberSnapshot members => ∀ member ∈ members, member.InRange

theorem body_injective {a b : SignedEvent} (ha : a.InRange) (hb : b.InRange)
    (htype : a.eventType = b.eventType) (h : a.body = b.body) : a = b := by
  cases a <;> cases b <;>
    try simp [eventType, msgMemberJoined, msgMemberLeft, msgMemberKicked, msgJoinPolicy,
      msgMemberSnapshot] at htype
  case memberJoined.memberJoined =>
    obtain ⟨rfl, rfl, rfl⟩ := memberJoinedBody_injective ha.1 hb.1 ha.2 hb.2 h
    rfl
  case memberLeft.memberLeft =>
    rw [u64_delimited.injective ha hb h]
  case memberKicked.memberKicked =>
    rw [u64_delimited.injective ha hb h]
  case joinPolicy.joinPolicy =>
    rw [joinPolicyBody_injective h]
  case memberSnapshot.memberSnapshot =>
    rw [memberSnapshotBody_injective ha hb h]

end SignedEvent

/-! ### Additional data -/

/-- One call of `chat_aad` or `epoch_aad`: everything bound into a ciphertext. -/
inductive BoundInput
  | chat (version : UInt8) (roomSessionId : Key) (epoch senderId senderSequence : Nat)
      (messageType : UInt8)
  | epochWrap (epoch : Nat) (roomSessionId : Key)

namespace BoundInput

def aad : BoundInput → Bytes
  | .chat version roomSessionId epoch senderId senderSequence messageType =>
    chatAad version roomSessionId epoch senderId senderSequence messageType
  | .epochWrap epoch roomSessionId => epochAad epoch roomSessionId

def InRange : BoundInput → Prop
  | .chat _ _ epoch senderId senderSequence _ =>
    epoch < 2 ^ 64 ∧ senderId < 2 ^ 64 ∧ senderSequence < 2 ^ 64
  | .epochWrap epoch _ => epoch < 2 ^ 64

/-- The labels carry no length here, but each kind has a length of its own. -/
theorem length_aad (a : BoundInput) :
    a.aad.length = match a with
      | .chat .. => 78
      | .epochWrap .. => 62 := by
  have hchat : (utf8 chatAadLabel).length = 20 := by decide
  have hepoch : (utf8 epochWrapLabel).length = 22 := by decide
  cases a <;> simp [aad, chatAad, epochAad, u64, fixed, hchat, hepoch]

theorem aad_injective {a b : BoundInput} (ha : a.InRange) (hb : b.InRange)
    (h : a.aad = b.aad) : a = b := by
  have hlength := congrArg List.length h
  rw [length_aad, length_aad] at hlength
  cases a <;> cases b <;> try simp at hlength
  case chat.chat =>
    simp only [aad, chatAad, List.append_assoc, List.append_cancel_left_eq] at h
    obtain ⟨hversion, h⟩ := u8_delimited trivial trivial h
    obtain ⟨hsession, h⟩ := fixed_delimited _ trivial trivial h
    obtain ⟨hepoch, h⟩ := u64_delimited ha.1 hb.1 h
    obtain ⟨hsender, h⟩ := u64_delimited ha.2.1 hb.2.1 h
    obtain ⟨hsequence, h⟩ := u64_delimited ha.2.2 hb.2.2 h
    have htype := u8_delimited.injective trivial trivial h
    simp_all only
  case epochWrap.epochWrap =>
    simp only [aad, epochAad, List.append_assoc, List.append_cancel_left_eq] at h
    obtain ⟨hsession, h⟩ := fixed_delimited _ trivial trivial h
    have hepoch := u64_delimited.injective ha hb h
    simp_all only

end BoundInput

/-- No two meanings share a signature input or additional data: the transcripts determine
the call they come from, a signed room event determines what happened, and the additional
data of chat messages and epoch keys determine theirs. -/
theorem transcripts_separate :
    (∀ a b : SignedInput, a.InRange → b.InRange → a.transcript = b.transcript → a = b) ∧
    (∀ a b : SignedEvent, a.InRange → b.InRange → a.eventType = b.eventType →
      a.body = b.body → a = b) ∧
    (∀ a b : BoundInput, a.InRange → b.InRange → a.aad = b.aad → a = b) :=
  ⟨fun _ _ => SignedInput.transcript_injective, fun _ _ => SignedEvent.body_injective,
    fun _ _ => BoundInput.aad_injective⟩

/-- The host's word that member 3 left is not its word that member 3 was kicked, and a chat
message's additional data never serves an epoch key. -/
theorem transcripts_separate_gone :
    (SignedInput.roomEvent ⟨1, Vector.replicate 32 0, 5, 2, msgMemberLeft,
      memberGoneBody 3⟩).transcript ≠
      (SignedInput.roomEvent ⟨1, Vector.replicate 32 0, 5, 2, msgMemberKicked,
        memberGoneBody 3⟩).transcript ∧
    (SignedEvent.memberLeft 3).body ≠ (SignedEvent.memberLeft 4).body ∧
    (BoundInput.chat 1 (Vector.replicate 32 0) 2 0 0 0x30).aad ≠
      (BoundInput.epochWrap 2 (Vector.replicate 32 0)).aad := by
  obtain ⟨hsigned, hevents, hbound⟩ := transcripts_separate
  have hgone (eventType : UInt8) : (SignedInput.roomEvent
      ⟨1, Vector.replicate 32 0, 5, 2, eventType, memberGoneBody 3⟩).InRange :=
    .mk (by decide : 5 < 2 ^ 64) (by decide : 2 < 2 ^ 64) (by decide : 8 < 2 ^ 32)
  have hchat : (BoundInput.chat 1 (Vector.replicate 32 0) 2 0 0 0x30).InRange :=
    ⟨by decide, by decide, by decide⟩
  have hwrap : (BoundInput.epochWrap 2 (Vector.replicate 32 0)).InRange :=
    (by decide : 2 < 2 ^ 64)
  refine ⟨fun h => ?_, fun h => ?_, fun h => ?_⟩
  · have heq := hsigned _ _ (hgone _) (hgone _) h
    simp [msgMemberLeft, msgMemberKicked] at heq
  · have heq := hevents (.memberLeft 3) (.memberLeft 4) (by decide : 3 < 2 ^ 64)
      (by decide : 4 < 2 ^ 64) rfl h
    simp at heq
  · have heq := hbound _ _ hchat hwrap h
    simp at heq

end Veilroom
