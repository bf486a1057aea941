import Veilroom.Protocol.Strict

/-!
What a strict decoder takes off its input.

The encoder writes every item in its preferred form, so whatever a decoder
accepts is at least as long as what would be written for the value it returns.
-/
namespace Veilroom

/-- `minicbor` writes preferred encodings: no input of an item is shorter than what the encoder
writes for it, and a head takes at most nine bytes. -/
structure Minicbor.Preferred (M : Minicbor) : Prop extends M.Lawful where
  readU8_length : ∀ input n rest, M.readU8 input = some (n, rest) →
    (M.uint n.toNat).length + rest.length ≤ input.length
  readU32_length : ∀ input n rest, M.readU32 input = some (n, rest) →
    (M.uint n.toNat).length + rest.length ≤ input.length
  readU64_length : ∀ input n rest, M.readU64 input = some (n, rest) →
    n < 2 ^ 64 ∧ (M.uint n).length + rest.length ≤ input.length
  readBytes_length : ∀ input content rest, M.readBytes input = some (content, rest) →
    (M.bytes content).length + rest.length ≤ input.length
  readStr_length : ∀ input text rest, M.readStr input = some (text, rest) →
    (M.str text).length + rest.length ≤ input.length
  readBool_length : ∀ input value rest, M.readBool input = some (value, rest) →
    (M.bool value).length + rest.length ≤ input.length
  readMap_length : ∀ input count rest, M.readMap input = some (count, rest) →
    rest.length < input.length
  readArray_length : ∀ input count rest, M.readArray input = some (some count, rest) →
    (M.array count).length + rest.length ≤ input.length
  length_uint : ∀ n, (M.uint n).length ≤ 9
  length_bytes : ∀ content, (M.bytes content).length ≤ content.length + 9
  length_str : ∀ text, (M.str text).length ≤ text.utf8ByteSize + 9
  length_bool : ∀ value, (M.bool value).length ≤ 1
  length_map : ∀ count, count < 24 → (M.map count).length = 1

theorem Minicbor.rfc8949_preferred : rfc8949.Preferred where
  toLawful := rfc8949_lawful
  readU8_length input n rest h := by
    obtain ⟨⟨m, rest'⟩, hread, heq⟩ := Option.map_eq_some_iff.mp h
    cases heq
    obtain ⟨hbound, hlength⟩ := Cbor.readUint_length hread
    rwa [UInt8.toNat_ofNat_of_lt' hbound]
  readU32_length input n rest h := by
    obtain ⟨⟨m, rest'⟩, hread, heq⟩ := Option.map_eq_some_iff.mp h
    cases heq
    obtain ⟨hbound, hlength⟩ := Cbor.readUint_length hread
    rwa [UInt32.toNat_ofNat_of_lt' hbound]
  readU64_length _ _ _ h := Cbor.readUint_length h
  readBytes_length _ _ _ h := Cbor.readString_length h
  readStr_length _ _ _ h := Cbor.readText_length h
  readBool_length _ _ _ h := Cbor.readBool_length h
  readMap_length _ _ _ h := (Cbor.readContainer_length h).1
  readArray_length _ _ _ h := (Cbor.readContainer_length h).2 _ rfl
  length_uint _ := Cbor.length_head_le _ _
  length_bytes content := by
    have hhead := Cbor.length_head_le 2 content.length
    simp only [rfc8949, Cbor.byteString, List.length_append]
    omega
  length_str text := by
    have hhead := Cbor.length_head_le 3 text.utf8ByteSize
    have hlength : text.toByteArray.data.toList.length = text.utf8ByteSize := by
      rw [Array.length_toList]
      rfl
    simp only [rfc8949, Cbor.text, List.length_append, hlength]
    omega
  length_bool _ := Nat.le_refl 1
  length_map _ h := Cbor.length_head_small h

/-- Whatever `read` returns under these limits is good, and the bytes it took, with `slack` more,
are at least its size. -/
def Yields {α : Type} (limits : Limits) (slack : Nat) (read : Decode α) (good : α → Prop)
    (size : α → Nat) : Prop :=
  ∀ d value d', d.limits = limits → read d = .ok (value, d') →
    d'.limits = limits ∧ good value ∧ size value + d'.input.length ≤ slack + d.input.length

namespace Yields
open StrictDecoder
variable {M : Minicbor} {α σ : Type} {limits : Limits} {slack slack' : Nat}

theorem mono {read : Decode α} {good good' : α → Prop} {size size' : α → Nat}
    (h : Yields limits slack read good size)
    (hmono : ∀ value, good value → good' value ∧ size' value + slack ≤ slack' + size value) :
    Yields limits slack' read good' size' := by
  intro d value d' hlimits hread
  obtain ⟨hafter, hgood, hsize⟩ := h d value d' hlimits hread
  obtain ⟨hgood', hsize'⟩ := hmono value hgood
  exact ⟨hafter, hgood', by omega⟩

theorem item {read : Bytes → Option (α × Bytes)} (good : α → Prop) (size : α → Nat)
    (h : ∀ input value rest, read input = some (value, rest) →
      good value ∧ size value + rest.length ≤ input.length) :
    Yields limits 0 (item read) good size := by
  intro d value d' hlimits hread
  unfold StrictDecoder.item at hread
  split at hread
  · cases hread
  · rename_i hitem
    cases hread
    obtain ⟨hgood, hsize⟩ := h _ _ _ hitem
    exact ⟨hlimits, hgood, by simpa using hsize⟩

theorem convert {read : Decode α} {f : α → Except ProtocolError σ} {good : α → Prop}
    {good' : σ → Prop} {size : α → Nat} {size' : σ → Nat}
    (h : Yields limits slack read good size)
    (hf : ∀ value result, good value → f value = .ok result →
      good' result ∧ size' result + slack ≤ slack' + size value) :
    Yields limits slack' (convert f read) good' size' := by
  intro d result d' hlimits hread
  simp only [StrictDecoder.convert, bind, Except.bind] at hread
  split at hread
  · cases hread
  rename_i taken htaken
  split at hread
  · cases hread
  rename_i hresult
  cases hread
  obtain ⟨hafter, hgood, hsize⟩ := h d taken.1 taken.2 hlimits htaken
  obtain ⟨hgood', hsize'⟩ := hf _ _ hgood hresult
  exact ⟨hafter, hgood', by omega⟩

theorem store {read : Decode α} (f : α → σ) {good : α → Prop} {good' : σ → Prop}
    {size : α → Nat} {size' : σ → Nat} (h : Yields limits slack read good size)
    (hf : ∀ value, good value → good' (f value) ∧ size' (f value) + slack ≤ slack' + size value) :
    Yields limits slack' (store f read) good' size' := by
  intro d result d' hlimits hread
  simp only [StrictDecoder.store, bind, Except.bind] at hread
  split at hread
  · cases hread
  rename_i taken htaken
  cases hread
  obtain ⟨hafter, hgood, hsize⟩ := h d taken.1 taken.2 hlimits htaken
  obtain ⟨hgood', hsize'⟩ := hf _ hgood
  exact ⟨hafter, hgood', by omega⟩

theorem unknownField {field : Nat} {good : σ → Prop} {size : σ → Nat} :
    Yields limits slack (unknownField field) good size := by
  intro d value d' _ hread
  cases hread

section
variable (law : M.Preferred)
include law

theorem u8 : Yields limits 0 (u8 M) (fun _ => True) fun n => (M.uint n.toNat).length :=
  item _ _ fun input n rest h => ⟨trivial, law.readU8_length input n rest h⟩

theorem u32 : Yields limits 0 (u32 M) (fun _ => True) fun n => (M.uint n.toNat).length :=
  item _ _ fun input n rest h => ⟨trivial, law.readU32_length input n rest h⟩

theorem u64 : Yields limits 0 (u64 M) (· < 2 ^ 64) fun n => (M.uint n).length :=
  item _ _ fun input n rest h => law.readU64_length input n rest h

theorem bool : Yields limits 0 (bool M) (fun _ => True) fun value => (M.bool value).length :=
  item _ _ fun input value rest h => ⟨trivial, law.readBool_length input value rest h⟩

theorem str : Yields limits 0 (str M) (fun text => text.utf8ByteSize ≤ limits.maxCborTextBytes)
    fun text => (M.str text).length := by
  intro d text d' hlimits hread
  simp only [StrictDecoder.str, bind, Except.bind] at hread
  split at hread
  · cases hread
  rename_i taken htaken
  obtain ⟨hafter, -, hsize⟩ := item (fun _ => True) (fun text => (M.str text).length)
    (fun input text rest h => ⟨trivial, law.readStr_length input text rest h⟩)
    d taken.1 taken.2 hlimits htaken
  split at hread
  · cases hread
  · rename_i hlength
    cases hread
    rw [hafter, Nat.not_lt] at hlength
    exact ⟨hafter, hlength, hsize⟩

theorem bytes : Yields limits 0 (bytes M) (fun content => content.length ≤ limits.maxCborBytesLen)
    fun content => (M.bytes content).length := by
  intro d content d' hlimits hread
  simp only [StrictDecoder.bytes, bind, Except.bind] at hread
  split at hread
  · cases hread
  rename_i taken htaken
  obtain ⟨hafter, -, hsize⟩ := item (fun _ => True) (fun content => (M.bytes content).length)
    (fun input content rest h => ⟨trivial, law.readBytes_length input content rest h⟩)
    d taken.1 taken.2 hlimits htaken
  split at hread
  · cases hread
  · rename_i hlength
    cases hread
    rw [hafter, Nat.not_lt] at hlength
    exact ⟨hafter, hlength, hsize⟩

theorem fixedBytes {n : Nat} (field : Nat) (detail : Nat → String) :
    Yields limits 0 (fixedBytes M n field detail) (fun _ => True)
      fun v => (M.bytes v.toList).length := by
  apply (bytes law).convert
  intro content v _ hv
  cases htoArray : toArray? n content with
  | none =>
      rw [htoArray] at hv
      cases hv
  | some found =>
      rw [htoArray] at hv
      cases hv
      rw [toArray?_eq_some.mp htoArray]
      exact ⟨trivial, Nat.le_of_eq (Nat.add_comm _ _)⟩

private theorem readMapEntries {entries : σ → Nat → Decode σ} {good : σ → Prop} {size : σ → Nat}
    (hentries : ∀ acc key, good acc → key < 2 ^ 64 →
      Yields limits (size acc + (M.uint key).length) (entries acc key) good size)
    (count : Nat) (seen : List Nat) (acc : σ) (hacc : good acc) :
    Yields limits (size acc) (readMapEntries M entries count seen acc) good size := by
  induction count generalizing seen acc with
  | zero =>
      intro d acc' d' hlimits hread
      cases hread
      exact ⟨hlimits, hacc, Nat.le_refl _⟩
  | succ count ih =>
      intro d acc' d' hlimits hread
      simp only [StrictDecoder.readMapEntries, bind, Except.bind] at hread
      split at hread
      · cases hread
      rename_i key hkey
      obtain ⟨hafterKey, hbound, hkeySize⟩ := u64 law d key.1 key.2 hlimits hkey
      dsimp only at hkeySize
      split at hread
      · cases hread
      split at hread
      · cases hread
      rename_i taken htaken
      obtain ⟨hafter, hgood, hsize⟩ := hentries acc key.1 hacc hbound key.2 taken.1 taken.2
        hafterKey htaken
      obtain ⟨hend, hgood', hsize'⟩ := ih _ taken.1 hgood taken.2 acc' d' hafter hread
      exact ⟨hend, hgood', by omega⟩

theorem mapEntries {entries : σ → Nat → Decode σ} {init : σ} {good : σ → Prop} {size : σ → Nat}
    (hinit : good init)
    (hentries : ∀ acc key, good acc → key < 2 ^ 64 →
      Yields limits (size acc + (M.uint key).length) (entries acc key) good size) :
    Yields limits (size init) (mapEntries M entries init) good fun acc => size acc + 1 := by
  intro d acc d' hlimits hread
  simp only [StrictDecoder.mapEntries, bind, Except.bind] at hread
  split at hread
  · cases hread
  rename_i head hhead
  have hhead_length : ∀ input count rest, M.readMap input = some (count, rest) →
      True ∧ 1 + rest.length ≤ input.length := by
    intro input count rest h
    have hshorter := law.readMap_length input count rest h
    exact ⟨trivial, by omega⟩
  obtain ⟨hafterHead, -, hheadSize⟩ := item (fun _ => True) (fun _ => 1) hhead_length
    d head.1 head.2 hlimits hhead
  dsimp only at hheadSize
  split at hread
  · cases hread
  split at hread
  · cases hread
  rename_i entered henter
  have hentered : entered.limits = limits ∧ entered.input = head.2.input := by
    unfold enterContainer at henter
    split at henter
    · cases henter
    split at henter
    · cases henter
    · cases henter
      exact ⟨hafterHead, rfl⟩
  split at hread
  · cases hread
  rename_i taken htaken
  cases hread
  obtain ⟨hafter, hgood, hsize⟩ := readMapEntries law hentries _ [] init hinit entered taken.1
    taken.2 hentered.1 htaken
  rw [hentered.2] at hsize
  exact ⟨hafter, hgood, by dsimp only; omega⟩

theorem schema {entries : σ → Nat → Decode σ} {init : σ} {build : σ → Except ProtocolError α}
    (good : σ → Prop) {good' : α → Prop} (size : σ → Nat) {size' : α → Nat}
    (hinit : good init) (hzero : size init = 0)
    (hentries : ∀ acc key, good acc → key < 2 ^ 64 →
      Yields limits (size acc + (M.uint key).length) (entries acc key) good size)
    (hbuild : ∀ fields value, good fields → build fields = .ok value →
      good' value ∧ size' value ≤ size fields + 1) :
    Yields limits 0 (schema M entries init build) good' size' := by
  intro d value d' hlimits hread
  simp only [StrictDecoder.schema, bind, Except.bind] at hread
  split at hread
  · cases hread
  rename_i fields hfields
  split at hread
  · cases hread
  rename_i hvalue
  cases hread
  obtain ⟨hafter, hgood, hsize⟩ := mapEntries law hinit hentries d fields.1 fields.2 hlimits hfields
  obtain ⟨hgood', hsize'⟩ := hbuild _ _ hgood hvalue
  dsimp only at hsize
  exact ⟨hafter, hgood', by omega⟩

omit law in
private theorem readArrayEntries {element : Decode α} {good : α → Prop} {size : α → Nat}
    (helement : Yields limits 0 element good size) (count : Nat) (acc : List α) :
    Yields limits 0
      (readArrayEntries (fun acc => StrictDecoder.store (fun v => acc ++ [v]) element) count acc)
      (fun values => ∃ read, values = acc ++ read ∧ read.length = count ∧ ∀ v ∈ read, good v)
      fun values => ((values.drop acc.length).map size).sum := by
  induction count generalizing acc with
  | zero =>
      intro d values d' hlimits hread
      cases hread
      exact ⟨hlimits, ⟨[], by simp⟩, by simp⟩
  | succ count ih =>
      intro d values d' hlimits hread
      simp only [StrictDecoder.readArrayEntries, StrictDecoder.store, bind, Except.bind] at hread
      split at hread
      · cases hread
      rename_i stored hstored
      split at hstored
      · cases hstored
      rename_i taken htaken
      cases hstored
      obtain ⟨hafter, hgood, hsize⟩ := helement d taken.1 taken.2 hlimits htaken
      obtain ⟨hend, ⟨read, rfl, hlength, hread'⟩, hsize'⟩ := ih _ taken.2 values d' hafter hread
      refine ⟨hend, ⟨taken.1 :: read, by simp, by simp [hlength], ?_⟩, ?_⟩
      · intro v hv
        obtain rfl | hv := List.mem_cons.mp hv
        · exact hgood
        · exact hread' v hv
      · dsimp only at hsize' ⊢
        rw [List.drop_left' rfl] at hsize'
        rw [List.append_assoc, List.drop_left' rfl]
        simp only [List.singleton_append, List.map_cons, List.sum_cons]
        omega

theorem arrayEntries {element : Decode α} {good : α → Prop} {size : α → Nat}
    (helement : Yields limits 0 element good size) :
    Yields limits 0
      (arrayEntries M (fun acc => StrictDecoder.store (fun v => acc ++ [v]) element) [])
      (fun values => values.length ≤ limits.maxCborArrayEntries ∧ ∀ v ∈ values, good v)
      fun values => (M.array values.length).length + (values.map size).sum := by
  intro d values d' hlimits hread
  simp only [StrictDecoder.arrayEntries, bind, Except.bind] at hread
  split at hread
  · cases hread
  rename_i head hhead
  split at hread
  · cases hread
  rename_i count hcount
  have hheadSize : head.2.limits = limits ∧
      (M.array count).length + head.2.input.length ≤ d.input.length := by
    unfold StrictDecoder.item at hhead
    split at hhead
    · cases hhead
    · rename_i hitem
      cases hhead
      cases hcount
      exact ⟨hlimits, law.readArray_length _ _ _ hitem⟩
  split at hread
  · cases hread
  rename_i entered henter
  have hentered : entered.limits = limits ∧ entered.input = head.2.input ∧
      count ≤ limits.maxCborArrayEntries := by
    unfold enterContainer at henter
    split at henter
    · cases henter
    split at henter
    · cases henter
    · rename_i hlimit
      cases henter
      rw [hheadSize.1] at hlimit
      exact ⟨hheadSize.1, rfl, Nat.not_lt.mp hlimit⟩
  split at hread
  · cases hread
  rename_i taken htaken
  cases hread
  obtain ⟨hafter, ⟨read, hvalues, hlength, hgood⟩, hsize⟩ := readArrayEntries helement count []
    entered taken.1 taken.2 hentered.1 htaken
  rw [List.nil_append] at hvalues
  rw [hentered.2.1] at hsize
  dsimp only at hsize
  rw [hvalues, List.length_nil, List.drop_zero] at hsize
  refine ⟨hafter, ?_, ?_⟩
  · rw [hvalues]
    exact ⟨hlength ▸ hentered.2.2, hgood⟩
  · rw [hvalues]
    dsimp only
    rw [hlength]
    omega

end

end Yields

end Veilroom
