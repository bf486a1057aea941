import Veilroom.Protocol.Messages
import Veilroom.Library.Cbor

/-!
The strict CBOR decoder (`protocol/strict.rs`) over a CBOR library.

The library (`minicbor`) is a parameter: an encoder for each kind of item and a
reader that takes one item off the input. `Minicbor.Lawful` is what its
documentation promises, and `Minicbor.rfc8949` an instance that keeps it.
-/
namespace Veilroom

/-- What the code uses of `minicbor`'s `Encoder` and `Decoder`. -/
structure Minicbor where
  /-- `Encoder::u8`, `u32` and `u64`, which write one encoding for one number. -/
  uint : Nat → Bytes
  bytes : Bytes → Bytes
  str : String → Bytes
  bool : Bool → Bytes
  map : Nat → Bytes
  array : Nat → Bytes
  readU8 : Bytes → Option (UInt8 × Bytes)
  readU32 : Bytes → Option (UInt32 × Bytes)
  readU64 : Bytes → Option (Nat × Bytes)
  readBytes : Bytes → Option (Bytes × Bytes)
  readStr : Bytes → Option (String × Bytes)
  readBool : Bytes → Option (Bool × Bytes)
  /-- `Decoder::map`: `none` inside for an indefinite length. -/
  readMap : Bytes → Option (Option Nat × Bytes)
  readArray : Bytes → Option (Option Nat × Bytes)

/-- Each item is read back as it was written, whatever follows it. -/
structure Minicbor.Lawful (M : Minicbor) : Prop where
  readU8_uint : ∀ (n : UInt8) rest, M.readU8 (M.uint n.toNat ++ rest) = some (n, rest)
  readU32_uint : ∀ (n : UInt32) rest, M.readU32 (M.uint n.toNat ++ rest) = some (n, rest)
  readU64_uint : ∀ n rest, n < 2 ^ 64 → M.readU64 (M.uint n ++ rest) = some (n, rest)
  readBytes_bytes : ∀ content rest, content.length < 2 ^ 64 →
    M.readBytes (M.bytes content ++ rest) = some (content, rest)
  readStr_str : ∀ text rest, text.utf8ByteSize < 2 ^ 64 →
    M.readStr (M.str text ++ rest) = some (text, rest)
  readBool_bool : ∀ value rest, M.readBool (M.bool value ++ rest) = some (value, rest)
  readMap_map : ∀ count rest, count < 2 ^ 64 →
    M.readMap (M.map count ++ rest) = some (some count, rest)
  readArray_array : ∀ count rest, count < 2 ^ 64 →
    M.readArray (M.array count ++ rest) = some (some count, rest)

/-- The data items of RFC 8949. -/
def Minicbor.rfc8949 : Minicbor where
  uint := Cbor.uint
  bytes := Cbor.byteString
  str := Cbor.text
  bool := Cbor.bool
  map := Cbor.map
  array := Cbor.array
  readU8 input := (Cbor.readUint (2 ^ 8) input).map fun (n, rest) => (UInt8.ofNat n, rest)
  readU32 input := (Cbor.readUint (2 ^ 32) input).map fun (n, rest) => (UInt32.ofNat n, rest)
  readU64 := Cbor.readUint (2 ^ 64)
  readBytes := Cbor.readString 2
  readStr := Cbor.readText
  readBool := Cbor.readBool
  readMap := Cbor.readContainer 5
  readArray := Cbor.readContainer 4

theorem Minicbor.rfc8949_lawful : rfc8949.Lawful where
  readU8_uint n rest := by
    have hbound : n.toNat < 2 ^ 8 := n.toNat_lt
    simp only [rfc8949]
    rw [Cbor.readUint_uint hbound (by omega)]
    simp
  readU32_uint n rest := by
    have hbound : n.toNat < 2 ^ 32 := n.toNat_lt
    simp only [rfc8949]
    rw [Cbor.readUint_uint hbound (by omega)]
    simp
  readU64_uint n rest h := Cbor.readUint_uint h (Nat.le_refl _) rest
  readBytes_bytes content rest h := Cbor.readString_append (by omega) h rest
  readStr_str text rest h := Cbor.readText_text h rest
  readBool_bool := Cbor.readBool_bool
  readMap_map count rest h := Cbor.readContainer_head (by omega) h rest
  readArray_array count rest h := Cbor.readContainer_head (by omega) h rest

/-- `StrictDecoder`: what is left of the input, and how many containers are open. -/
structure StrictDecoder where
  input : Bytes
  depth : Nat
  limits : Limits

/-- A schema decoder; a failure ends the decoding. -/
abbrev Decode (α : Type) := StrictDecoder → Except ProtocolError (α × StrictDecoder)

namespace StrictDecoder
variable (M : Minicbor) {α σ : Type}

/-- `StrictDecoder::new`. -/
def new (input : Bytes) (limits : Limits) : StrictDecoder := ⟨input, 0, limits⟩

/-- One item of the underlying decoder. -/
def item (read : Bytes → Option (α × Bytes)) : Decode α := fun d =>
  match read d.input with
  | none => .error (.cbor .cbor)
  | some (value, rest) => .ok (value, { d with input := rest })

/-- The value of a decoder, changed. -/
def store (f : α → σ) (read : Decode α) : Decode σ := fun d => do
  let (value, d) ← read d
  return (f value, d)

/-- The value of a decoder, checked and converted. -/
def convert (f : α → Except ProtocolError σ) (read : Decode α) : Decode σ := fun d => do
  let (value, d) ← read d
  let value ← f value
  return (value, d)

def u8 : Decode UInt8 := item M.readU8
def u32 : Decode UInt32 := item M.readU32
def u64 : Decode Nat := item M.readU64
def bool : Decode Bool := item M.readBool

/-- `StrictDecoder::str`. -/
def str : Decode String := fun d => do
  let (text, d) ← item M.readStr d
  if text.utf8ByteSize > d.limits.maxCborTextBytes then
    .error (.cbor (.textTooLong text.utf8ByteSize d.limits.maxCborTextBytes))
  else .ok (text, d)

/-- `StrictDecoder::bytes`. -/
def bytes : Decode Bytes := fun d => do
  let (bytes, d) ← item M.readBytes d
  if bytes.length > d.limits.maxCborBytesLen then
    .error (.cbor (.bytesTooLong bytes.length d.limits.maxCborBytesLen))
  else .ok (bytes, d)

/-- `enter_container`; `tooLarge` is the error of the container's kind. -/
def enterContainer (declared limit : Nat) (tooLarge : StrictError) (d : StrictDecoder) :
    Except ProtocolError StrictDecoder :=
  if d.depth ≥ d.limits.maxCborNestingDepth then
    .error (.cbor (.nestingTooDeep d.limits.maxCborNestingDepth))
  else if declared > limit then .error (.cbor tooLarge)
  else .ok { d with depth := d.depth + 1 }

/-- `read_map_entries`; `acc` is what the closure has captured. -/
def readMapEntries (entries : σ → Nat → Decode σ) : Nat → List Nat → σ → Decode σ
  | 0, _, acc, d => .ok (acc, d)
  | declared + 1, seen, acc, d => do
    let (key, d) ← u64 M d
    if key ∈ seen then .error (.cbor (.duplicateMapKey key))
    else
      let (acc, d) ← entries acc key d
      readMapEntries entries declared (seen ++ [key]) acc d

/-- `StrictDecoder::map_entries`. -/
def mapEntries (entries : σ → Nat → Decode σ) (init : σ) : Decode σ := fun d => do
  let (declared, d) ← item M.readMap d
  match declared with
  | none => .error (.cbor .indefiniteNotAllowed)
  | some declared =>
    let limit := d.limits.maxCborMapEntries
    let d ← d.enterContainer declared limit (.mapTooLarge declared limit)
    let (acc, d) ← readMapEntries M entries declared [] init d
    return (acc, { d with depth := d.depth - 1 })

/-- A schema decoder: the entries of a map, and what it makes of the fields it found. -/
def schema (entries : σ → Nat → Decode σ) (init : σ) (build : σ → Except ProtocolError α) :
    Decode α := fun d => do
  let (fields, d) ← mapEntries M entries init d
  let value ← build fields
  return (value, d)

/-- `read_array_entries`. -/
def readArrayEntries (elements : σ → Decode σ) : Nat → σ → Decode σ
  | 0, acc, d => .ok (acc, d)
  | declared + 1, acc, d => do
    let (acc, d) ← elements acc d
    readArrayEntries elements declared acc d

/-- `StrictDecoder::array_entries`. -/
def arrayEntries (elements : σ → Decode σ) (init : σ) : Decode σ := fun d => do
  let (declared, d) ← item M.readArray d
  match declared with
  | none => .error (.cbor .indefiniteNotAllowed)
  | some declared =>
    let limit := d.limits.maxCborArrayEntries
    let d ← d.enterContainer declared limit (.arrayTooLarge declared limit)
    let (acc, d) ← readArrayEntries elements declared init d
    return (acc, { d with depth := d.depth - 1 })

/-- `StrictDecoder::finish`. -/
def finish (d : StrictDecoder) : Except ProtocolError Unit :=
  if d.input.isEmpty then .ok () else .error (.cbor .trailingData)

end StrictDecoder

/-- `field.ok_or(ProtocolError::MissingField { field })`. -/
def required {α : Type} (field : Nat) : Option α → Except ProtocolError α
  | some value => .ok value
  | none => .error (.missingField field)

/-- A byte field converted with `try_into`; `detail` describes a wrong length. -/
def fixedBytes (M : Minicbor) (n field : Nat) (detail : Nat → String) : Decode (Vector UInt8 n) :=
  StrictDecoder.convert
    (fun bytes => (toArray? n bytes).elim (.error (.invalidField field (detail bytes.length))) .ok)
    (StrictDecoder.bytes M)

/-- `_ => Err(ProtocolError::UnknownField { field })`. -/
def unknownField {σ : Type} (field : Nat) : Decode σ := fun _ => .error (.unknownField field)

/-! ### Reading what was written -/

/-- `read` takes `encoded` off any input, and `value` is what it makes of it. -/
def Reads {α : Type} (limits : Limits) (depth : Nat) (read : Decode α) (encoded : Bytes)
    (value : α) : Prop :=
  ∀ rest, read ⟨encoded ++ rest, depth, limits⟩ = .ok (value, ⟨rest, depth, limits⟩)

/-- `read` fails on any input that starts with `encoded`. -/
def Fails {α : Type} (limits : Limits) (depth : Nat) (read : Decode α) (encoded : Bytes)
    (error : ProtocolError) : Prop :=
  ∀ rest, read ⟨encoded ++ rest, depth, limits⟩ = .error error

/-- A map's entries: each key and what follows it. -/
def encodeEntries (M : Minicbor) (fields : List (Nat × Bytes)) : Bytes :=
  fields.flatMap fun field => M.uint field.1 ++ field.2

/-- Reading `fields` in order takes a closure's captured `acc` to `acc'`. -/
inductive ReadsEntries {σ : Type} (limits : Limits) (depth : Nat) (entries : σ → Nat → Decode σ) :
    σ → List (Nat × Bytes) → σ → Prop
  | nil {acc} : ReadsEntries limits depth entries acc [] acc
  | cons {acc acc' acc'' key encoded fields} : Reads limits depth (entries acc key) encoded acc' →
      ReadsEntries limits depth entries acc' fields acc'' →
      ReadsEntries limits depth entries acc ((key, encoded) :: fields) acc''

/-- A map with these keys is within the limits, and repeats none of them. -/
abbrev WellKeyed (limits : Limits) (depth : Nat) (keys : List Nat) : Prop :=
  keys.Nodup ∧ (∀ key ∈ keys, key < 2 ^ 64) ∧ keys.length < 2 ^ 64 ∧
    keys.length ≤ limits.maxCborMapEntries ∧ depth < limits.maxCborNestingDepth

section
open StrictDecoder
variable {M : Minicbor} (law : M.Lawful) {α σ : Type} {limits : Limits} {depth : Nat}
include law

theorem Reads.u8 (n : UInt8) : Reads limits depth (u8 M) (M.uint n.toNat) n := by
  intro rest
  simp only [StrictDecoder.u8, item, law.readU8_uint]

theorem Reads.u32 (n : UInt32) : Reads limits depth (u32 M) (M.uint n.toNat) n := by
  intro rest
  simp only [StrictDecoder.u32, item, law.readU32_uint]

theorem Reads.u64 {n : Nat} (h : n < 2 ^ 64) : Reads limits depth (u64 M) (M.uint n) n := by
  intro rest
  simp only [StrictDecoder.u64, item, law.readU64_uint n rest h]

theorem Reads.bool (value : Bool) : Reads limits depth (bool M) (M.bool value) value := by
  intro rest
  simp only [StrictDecoder.bool, item, law.readBool_bool]

theorem Reads.str {text : String} (h : text.utf8ByteSize ≤ limits.maxCborTextBytes)
    (hsize : text.utf8ByteSize < 2 ^ 64) : Reads limits depth (str M) (M.str text) text := by
  intro rest
  simp only [StrictDecoder.str, item, law.readStr_str text rest hsize, bind, Except.bind]
  exact if_neg (Nat.not_lt.mpr h)

theorem Reads.bytes {content : Bytes} (h : content.length ≤ limits.maxCborBytesLen)
    (hsize : content.length < 2 ^ 64) :
    Reads limits depth (bytes M) (M.bytes content) content := by
  intro rest
  simp only [StrictDecoder.bytes, item, law.readBytes_bytes content rest hsize, bind, Except.bind]
  exact if_neg (Nat.not_lt.mpr h)

/-- A byte string over the limit is written but never read. -/
theorem Fails.bytes {content : Bytes} (h : limits.maxCborBytesLen < content.length)
    (hsize : content.length < 2 ^ 64) : Fails limits depth (bytes M) (M.bytes content)
      (.cbor (.bytesTooLong content.length limits.maxCborBytesLen)) := by
  intro rest
  simp only [StrictDecoder.bytes, item, law.readBytes_bytes content rest hsize, bind, Except.bind]
  exact if_pos h

omit law in
theorem Reads.convert {read : Decode α} {encoded : Bytes} {value : α} {result : σ}
    {f : α → Except ProtocolError σ} (h : Reads limits depth read encoded value)
    (hf : f value = .ok result) : Reads limits depth (convert f read) encoded result := by
  intro rest
  simp only [StrictDecoder.convert, h rest, hf, bind, Except.bind, pure, Except.pure]

theorem Reads.fixedBytes {n : Nat} (v : Vector UInt8 n) (field : Nat) (detail : Nat → String)
    (h : n ≤ limits.maxCborBytesLen) (hsize : n < 2 ^ 64) :
    Reads limits depth (fixedBytes M n field detail) (M.bytes v.toList) v :=
  (Reads.bytes law (by simpa using h) (by simpa using hsize)).convert (by simp)

omit law in
theorem Reads.store {read : Decode α} {encoded : Bytes} {value : α} (f : α → σ)
    (h : Reads limits depth read encoded value) :
    Reads limits depth (store f read) encoded (f value) := by
  intro rest
  simp only [StrictDecoder.store, h rest, bind, Except.bind, pure, Except.pure]

omit law in
theorem Fails.store {read : Decode α} {encoded : Bytes} {error : ProtocolError} (f : α → σ)
    (h : Fails limits depth read encoded error) :
    Fails limits depth (store f read) encoded error := by
  intro rest
  simp only [StrictDecoder.store, h rest, bind, Except.bind]

private theorem readMapEntries_reads {entries : σ → Nat → Decode σ} {acc acc' : σ}
    {fields : List (Nat × Bytes)} (h : ReadsEntries limits depth entries acc fields acc')
    (seen : List Nat) (hkeys : (seen ++ fields.map Prod.fst).Nodup)
    (hbound : ∀ key ∈ fields.map Prod.fst, key < 2 ^ 64) (count : Nat) (rest : Bytes) :
    readMapEntries M entries (fields.length + count) seen acc
      ⟨encodeEntries M fields ++ rest, depth, limits⟩ =
      readMapEntries M entries count (seen ++ fields.map Prod.fst) acc' ⟨rest, depth, limits⟩ := by
  induction h generalizing seen with
  | nil => simp [encodeEntries]
  | @cons acc acc' acc'' key encoded fields hread _ ih =>
      have hkey : Reads limits depth (StrictDecoder.u64 M) (M.uint key) key :=
        Reads.u64 law (hbound key (.head _))
      have hfresh : key ∉ seen := by
        intro hmem
        exact (List.nodup_append.mp hkeys).2.2 key hmem key (.head _) rfl
      have hinput : encodeEntries M ((key, encoded) :: fields) ++ rest =
          M.uint key ++ (encoded ++ (encodeEntries M fields ++ rest)) := by
        simp [encodeEntries]
      rw [hinput, List.length_cons, Nat.add_right_comm, readMapEntries]
      simp only [hkey (encoded ++ (encodeEntries M fields ++ rest)), bind, Except.bind,
        if_neg hfresh, hread (encodeEntries M fields ++ rest)]
      rw [ih (seen ++ [key]) (by simpa using hkeys) fun k hk => hbound k (.tail _ hk)]
      simp

theorem Reads.mapEntries {entries : σ → Nat → Decode σ} {acc acc' : σ}
    {fields : List (Nat × Bytes)} (keys : List Nat) (hkeys : fields.map Prod.fst = keys)
    (hwell : WellKeyed limits depth keys)
    (h : ReadsEntries limits (depth + 1) entries acc fields acc') :
    Reads limits depth (mapEntries M entries acc) (M.map keys.length ++ encodeEntries M fields)
      acc' := by
  intro rest
  subst hkeys
  obtain ⟨hnodup, hbound, hsize, hcount, hdepth⟩ := hwell
  have hentries := readMapEntries_reads law h [] hnodup hbound 0 rest
  rw [Nat.add_zero, ← List.length_map (f := Prod.fst)] at hentries
  simp only [StrictDecoder.mapEntries, item, List.append_assoc,
    law.readMap_map _ (encodeEntries M fields ++ rest) hsize, bind, Except.bind, enterContainer]
  rw [if_neg (Nat.not_le.mpr hdepth), if_neg (Nat.not_lt.mpr hcount)]
  simp only [hentries]
  rfl

/-- A message whose entries and whose fields are in order is read back. -/
theorem Reads.schema {entries : σ → Nat → Decode σ} {init found : σ}
    {build : σ → Except ProtocolError α} {value : α} {fields : List (Nat × Bytes)}
    (keys : List Nat) (hkeys : fields.map Prod.fst = keys) (hwell : WellKeyed limits depth keys)
    (h : ReadsEntries limits (depth + 1) entries init fields found)
    (hbuild : build found = .ok value) :
    Reads limits depth (schema M entries init build)
      (M.map keys.length ++ encodeEntries M fields) value := by
  intro rest
  simp only [StrictDecoder.schema, Reads.mapEntries law keys hkeys hwell h rest, hbuild, bind,
    Except.bind, pure, Except.pure]

/-- One entry that cannot be read fails the message. -/
theorem Fails.schema {entries : σ → Nat → Decode σ} {init found : σ} {key : Nat}
    {build : σ → Except ProtocolError α} {encoded : Bytes} {error : ProtocolError}
    {before after : List (Nat × Bytes)} (keys : List Nat)
    (hkeys : (before ++ (key, encoded) :: after).map Prod.fst = keys)
    (hwell : WellKeyed limits depth keys)
    (h : ReadsEntries limits (depth + 1) entries init before found)
    (hfails : Fails limits (depth + 1) (entries found key) encoded error) :
    Fails limits depth (schema M entries init build)
      (M.map keys.length ++ encodeEntries M (before ++ (key, encoded) :: after)) error := by
  intro rest
  subst hkeys
  obtain ⟨hnodup, hbound, hsize, hcount, hdepth⟩ := hwell
  have hmem : ∀ k ∈ before.map Prod.fst,
      k ∈ (before ++ (key, encoded) :: after).map Prod.fst := by
    intro k hk
    rw [List.map_append]
    exact List.mem_append_left _ hk
  have hbefore := readMapEntries_reads law h [] (by
      rw [List.map_append] at hnodup
      simpa using hnodup.of_append_left) (fun k hk => hbound k (hmem k hk)) (after.length + 1)
    (M.uint key ++ (encoded ++ (encodeEntries M after ++ rest)))
  have hkey : Reads limits (depth + 1) (StrictDecoder.u64 M) (M.uint key) key :=
    Reads.u64 law (hbound key (by simp))
  have hfresh : key ∉ before.map Prod.fst := by
    intro hkey
    rw [List.map_append] at hnodup
    exact (List.nodup_append.mp hnodup).2.2 key hkey key (.head _) rfl
  have hinput : encodeEntries M (before ++ (key, encoded) :: after) ++ rest =
      encodeEntries M before ++ (M.uint key ++ (encoded ++ (encodeEntries M after ++ rest))) := by
    simp [encodeEntries]
  have hlength : ((before ++ (key, encoded) :: after).map Prod.fst).length =
      before.length + (after.length + 1) := by simp
  simp only [StrictDecoder.schema, StrictDecoder.mapEntries, item, List.append_assoc,
    law.readMap_map _ (encodeEntries M (before ++ (key, encoded) :: after) ++ rest) hsize, bind,
    Except.bind, enterContainer]
  rw [if_neg (Nat.not_le.mpr hdepth), if_neg (Nat.not_lt.mpr hcount)]
  simp only
  rw [hinput, hlength, hbefore, readMapEntries]
  simp only [hkey (encoded ++ (encodeEntries M after ++ rest)), bind, Except.bind,
    List.nil_append, if_neg hfresh, hfails (encodeEntries M after ++ rest)]

/-- The elements of an array, each read back and appended. -/
theorem Reads.arrayEntries {element : Decode α} {values : List α} {encode : α → Bytes}
    (h : ∀ value ∈ values, Reads limits (depth + 1) element (encode value) value)
    (hcount : values.length ≤ limits.maxCborArrayEntries) (hsize : values.length < 2 ^ 64)
    (hdepth : depth < limits.maxCborNestingDepth) :
    Reads limits depth (StrictDecoder.arrayEntries M
        (fun acc => StrictDecoder.store (fun value => acc ++ [value]) element) [])
      (M.array values.length ++ values.flatMap encode) values := by
  intro rest
  have helements : ∀ (values acc : List α),
      (∀ value ∈ values, Reads limits (depth + 1) element (encode value) value) →
      readArrayEntries (fun acc => StrictDecoder.store (fun value => acc ++ [value]) element)
        values.length acc ⟨values.flatMap encode ++ rest, depth + 1, limits⟩ =
      .ok (acc ++ values, ⟨rest, depth + 1, limits⟩) := by
    intro values
    induction values with
    | nil => intro acc _; simp [readArrayEntries]
    | cons value values ih =>
        intro acc hvalues
        have hvalue := (hvalues value (.head _)).store (fun value => acc ++ [value])
          (values.flatMap encode ++ rest)
        rw [List.length_cons, readArrayEntries, List.flatMap_cons, List.append_assoc]
        simp only [hvalue, bind, Except.bind]
        rw [ih _ fun v hv => hvalues v (.tail _ hv)]
        simp
  simp only [StrictDecoder.arrayEntries, item, List.append_assoc,
    law.readArray_array values.length (values.flatMap encode ++ rest) hsize, bind, Except.bind,
    enterContainer]
  rw [if_neg (Nat.not_le.mpr hdepth), if_neg (Nat.not_lt.mpr hcount)]
  simp only [helements values [] h]
  rfl

end

end Veilroom
