import LivestreamRs.Foundations.PrefixCode
import LivestreamRs.Media.FlvTag

/-! # FLV tags as bytes

`encode_flv_tag` (`livestream-media/src/flv/encode.rs`) and `TryFrom<Bytes> for FlvTag` (`flv/mod.rs`). A tag is a
header of 11 bytes, the payload and the size of both:

    type | DataSize (3) | timestamp, low part (3) | its high byte | StreamID (3) | payload | PreviousTagSize (4)

The AMF0 values of a script data tag are an interface.
-/
namespace LivestreamRs.Flv
open Media BigEndian Foundations
set_option autoImplicit false

def flvTagHeaderLen : ℕ := 11
def flvTagTypeAudio : UInt8 := 8
def flvTagTypeVideo : UInt8 := 9
def flvTagTypeScriptData : UInt8 := 18

/-- `encode_script_data` and `parse_script_data_metadata`. -/
structure ScriptDataCodec where
  encodeScriptData : StreamMetadata → Except String Bytes
  parseScriptDataMetadata : Bytes → Except String StreamMetadata

section Codec
variable (amf : ScriptDataCodec)

def encodeFlvTag (tag : FlvTag) : Except String Bytes := do
  let (tagType, timestamp, payload) ←
    match tag with
    | .audio timestamp payload => pure (flvTagTypeAudio, timestamp, payload)
    | .video timestamp payload _ => pure (flvTagTypeVideo, timestamp, payload)
    | .scriptData metadata => do pure (flvTagTypeScriptData, 0, ← amf.encodeScriptData metadata)
  let payloadLen := payload.length
  if payloadLen > 0x00FFFFFF then
    throw s!"FLV tag payload too large: {payloadLen} bytes exceeds the 24-bit DataSize limit (16777215)"
  else
    pure ([tagType] ++ putU24 payloadLen ++ putU24 (timestamp &&& 0x00ffffff).toNat ++
      [((timestamp >>> 24) &&& 0xff).toUInt8] ++ putU24 0 ++ payload ++ putU32 (flvTagHeaderLen + payloadLen))

/-- The 24-bit `DataSize` field of a buffer that can hold a tag. -/
def dataSizeOf (data : Bytes) (h : ¬ data.length < 15) : ℕ :=
  (data[1].toNat <<< 16) ||| (data[2].toNat <<< 8) ||| data[3].toNat

/-- The tag of a type, a timestamp and a payload. -/
def tagOfType (tagType : UInt8) (timestamp : UInt32) (payload : Bytes) : Except String FlvTag :=
  if tagType = 8 then .ok (.audio timestamp payload)
  else if tagType = 9 then .ok (.ofVideo timestamp payload)
  else if tagType = 18 then (amf.parseScriptDataMetadata payload).map .scriptData
  else .error s!"Unsupported FLV tag type: {tagType}"

def tryFrom (data : Bytes) : Except String FlvTag :=
  let len := data.length
  if h : data.length < 15 then .error s!"FLV tag buffer too small: {len}"
  else
    let tagType := data[0]
    let dataSize := dataSizeOf data h
    let expectedLen := 11 + dataSize + 4
    if data.length < expectedLen then .error s!"Incomplete FLV tag buffer: have {len}, expect {expectedLen}"
    else
      let tsLow := (data[4].toUInt32 <<< 16) ||| (data[5].toUInt32 <<< 8) ||| data[6].toUInt32
      let tsExt := data[7].toUInt32
      let timestamp := (tsExt <<< 24) ||| tsLow
      let payload := (data.take (11 + dataSize)).drop 11
      tagOfType amf tagType timestamp payload

end Codec

/-! ## The two parts of a timestamp -/

/-- The low 24 bits of a timestamp and its high byte. -/
def timestampBytes (timestamp : UInt32) : Bytes :=
  toBe 3 timestamp.toNat ++ [UInt8.ofNat (timestamp.toNat / 256 ^ 3)]

theorem encoded_timestamp (timestamp : UInt32) :
    putU24 (timestamp &&& 0x00ffffff).toNat ++ [((timestamp >>> 24) &&& 0xff).toUInt8] = timestampBytes timestamp := by
  have hlow : (timestamp &&& 0x00ffffff).toNat = timestamp.toNat % 256 ^ 3 := by
    rw [UInt32.toNat_and]
    exact Nat.and_two_pow_sub_one_eq_mod timestamp.toNat 24
  have hhigh : ((timestamp >>> 24) &&& 0xff).toUInt8 = UInt8.ofNat (timestamp.toNat / 256 ^ 3) := by
    have hand : timestamp.toNat >>> 24 &&& 0xff = timestamp.toNat >>> 24 % 2 ^ 8 :=
      Nat.and_two_pow_sub_one_eq_mod _ 8
    apply UInt8.toNat_inj.mp
    rw [UInt32.toNat_toUInt8, UInt32.toNat_and, UInt32.toNat_shiftRight, UInt8.toNat_ofNat']
    change (timestamp.toNat >>> 24 &&& 0xff) % 2 ^ 8 = _
    rw [hand, Nat.mod_mod, Nat.shiftRight_eq_div_pow, show 2 ^ 24 = 256 ^ 3 from rfl]
  rw [putU24_eq, hlow, toBe_mod, hhigh, timestampBytes]

/-- The timestamp `tryFrom` puts together. -/
theorem decoded_timestamp (b₄ b₅ b₆ b₇ : UInt8) :
    ((b₇.toUInt32 <<< 24) ||| ((b₄.toUInt32 <<< 16) ||| (b₅.toUInt32 <<< 8) ||| b₆.toUInt32)).toNat =
      fromBe [b₇, b₄, b₅, b₆] := by
  have hlow : fromBe [b₄, b₅, b₆] < 2 ^ 24 := (fromBe_lt [b₄, b₅, b₆]).trans_eq (by norm_num)
  -- no bit is shifted out of the 32
  have hshift : ∀ (b : UInt8) (k : ℕ), k ≤ 24 → b.toNat <<< k % 2 ^ 32 = b.toNat <<< k := by
    intro b k hk
    apply Nat.mod_eq_of_lt
    calc b.toNat <<< k = b.toNat * 2 ^ k := Nat.shiftLeft_eq ..
      _ < 2 ^ 8 * 2 ^ k := Nat.mul_lt_mul_of_pos_right b.toNat_lt (by positivity)
      _ ≤ 2 ^ 8 * 2 ^ 24 := Nat.mul_le_mul_left _ (Nat.pow_le_pow_right (by norm_num) hk)
      _ = 2 ^ 32 := by norm_num
  have h₇ := hshift b₇ 24 (by norm_num)
  have h₄ := hshift b₄ 16 (by norm_num)
  have h₅ := hshift b₅ 8 (by norm_num)
  simp only [UInt32.toNat_or, UInt32.toNat_shiftLeft, UInt8.toNat_toUInt32]
  change (b₇.toNat <<< 24 % 2 ^ 32) ||| (((b₄.toNat <<< 16 % 2 ^ 32) ||| (b₅.toNat <<< 8 % 2 ^ 32)) ||| b₆.toNat) = _
  rw [h₇, h₄, h₅, shiftOr_eq_fromBe, ← Nat.shiftLeft_add_eq_or_of_lt hlow, Nat.shiftLeft_eq, fromBe.eq_2 b₇]
  norm_num

/-- Four bytes are the two parts of exactly one timestamp, the one `tryFrom` puts together. -/
theorem timestampBytes_eq_iff (timestamp : UInt32) (b₄ b₅ b₆ b₇ : UInt8) :
    timestampBytes timestamp = [b₄, b₅, b₆, b₇] ↔
      timestamp = (b₇.toUInt32 <<< 24) ||| ((b₄.toUInt32 <<< 16) ||| (b₅.toUInt32 <<< 8) ||| b₆.toUInt32) := by
  have hswap : timestampBytes timestamp = [b₄, b₅, b₆, b₇] ↔ toBe 4 timestamp.toNat = [b₇, b₄, b₅, b₆] := by
    simp only [timestampBytes, toBe, List.cons_append, List.nil_append, List.cons.injEq]
    tauto
  have hlt : timestamp.toNat < 256 ^ 4 := timestamp.toNat_lt
  rw [hswap, toBe_eq_iff hlt rfl, ← UInt32.toNat_inj, decoded_timestamp]

/-! ## The layout of a tag -/

/-- The part of a header before the `StreamID`. -/
def tagHead (tagType : UInt8) (timestamp : UInt32) (dataSize : ℕ) : Bytes :=
  tagType :: (toBe 3 dataSize ++ timestampBytes timestamp)

/-- A tag with any bytes for `StreamID` and `PreviousTagSize`. -/
def tagLayout (tagType : UInt8) (timestamp : UInt32) (payload streamId previousTagSize : Bytes) : Bytes :=
  tagHead tagType timestamp payload.length ++ (streamId ++ (payload ++ previousTagSize))

@[simp]
theorem length_tagHead (tagType : UInt8) (timestamp : UInt32) (dataSize : ℕ) :
    (tagHead tagType timestamp dataSize).length = 8 := by
  simp [tagHead, timestampBytes]

/-- The constructors `FlvTag::audio` and `FlvTag::video`. -/
inductive MediaKind
  | audio
  | video
  deriving DecidableEq

def MediaKind.build : MediaKind → UInt32 → Bytes → FlvTag
  | .audio => .audio
  | .video => .ofVideo

def MediaKind.tagType : MediaKind → UInt8
  | .audio => flvTagTypeAudio
  | .video => flvTagTypeVideo

section Layout
variable {amf : ScriptDataCodec}

theorem encodeFlvTag_build (kind : MediaKind) (timestamp : UInt32) (payload : Bytes) :
    encodeFlvTag amf (kind.build timestamp payload) =
      let payloadLen := payload.length
      if payloadLen > 0xFFFFFF then
        .error s!"FLV tag payload too large: {payloadLen} bytes exceeds the 24-bit DataSize limit (16777215)"
      else .ok (tagLayout kind.tagType timestamp payload (toBe 3 0) (toBe 4 (11 + payload.length))) := by
  have hlayout : ∀ tagType : UInt8, [tagType] ++ putU24 payload.length ++ putU24 (timestamp &&& 0x00ffffff).toNat ++
      [((timestamp >>> 24) &&& 0xff).toUInt8] ++ putU24 0 ++ payload ++ putU32 (flvTagHeaderLen + payload.length) =
      tagLayout tagType timestamp payload (toBe 3 0) (toBe 4 (11 + payload.length)) := by
    intro tagType
    simp only [List.append_assoc, tagLayout, tagHead, ← encoded_timestamp, putU24_eq payload.length, putU24_eq 0,
      List.cons_append, List.nil_append]
    rfl
  cases kind <;> simp only [MediaKind.tagType, ← hlayout] <;> rfl

/-- A buffer with room for a header starts with one. -/
theorem exists_tagHead {data : Bytes} (h : ¬ data.length < 15) :
    ∃ tagType timestamp dataSize streamId tail, dataSize ≤ 0xFFFFFF ∧ streamId.length = 3 ∧ 4 ≤ tail.length ∧
      data = tagHead tagType timestamp dataSize ++ (streamId ++ tail) := by
  rcases data with _ | ⟨b₀, _ | ⟨b₁, _ | ⟨b₂, _ | ⟨b₃, _ | ⟨b₄, _ | ⟨b₅, _ | ⟨b₆, _ | ⟨b₇, _ | ⟨b₈, _ | ⟨b₉,
    _ | ⟨b₁₀, tail⟩⟩⟩⟩⟩⟩⟩⟩⟩⟩⟩
  iterate 11
    · simp at h
  have hsize : fromBe [b₁, b₂, b₃] < 256 ^ 3 := fromBe_lt [b₁, b₂, b₃]
  have hword : toBe 3 (fromBe [b₁, b₂, b₃]) = [b₁, b₂, b₃] := toBe_fromBe [b₁, b₂, b₃]
  obtain ⟨timestamp, htime⟩ : ∃ timestamp, timestampBytes timestamp = [b₄, b₅, b₆, b₇] :=
    ⟨_, (timestampBytes_eq_iff _ b₄ b₅ b₆ b₇).mpr rfl⟩
  refine ⟨b₀, timestamp, fromBe [b₁, b₂, b₃], [b₈, b₉, b₁₀], tail, Nat.le_of_lt_succ hsize, rfl, ?_, ?_⟩
  · simp only [List.length_cons] at h
    omega
  · rw [tagHead, hword, htime]
    rfl

theorem dataSizeOf_tagHead (tagType : UInt8) (timestamp : UInt32) {dataSize : ℕ} (hsize : dataSize ≤ 0xFFFFFF)
    (rest : Bytes) (h) : dataSizeOf (tagHead tagType timestamp dataSize ++ rest) h = dataSize := by
  obtain ⟨b₁, b₂, b₃, hb⟩ := List.length_eq_three.mp (toBe_length 3 dataSize)
  have hlt : dataSize < 256 ^ 3 := Nat.lt_succ_of_le hsize
  have hvalue : fromBe [b₁, b₂, b₃] = dataSize := by rw [← hb, fromBe_toBe hlt]
  simp only [dataSizeOf, tagHead, hb, List.cons_append, List.getElem_cons_succ, List.getElem_cons_zero]
  rw [shiftOr_eq_fromBe, hvalue]

/-- What is read from a buffer with a header. -/
theorem tryFrom_tagHead (tagType : UInt8) (timestamp : UInt32) {dataSize : ℕ} (hsize : dataSize ≤ 0xFFFFFF)
    {streamId tail : Bytes} (hid : streamId.length = 3) (htail : dataSize + 4 ≤ tail.length) :
    tryFrom amf (tagHead tagType timestamp dataSize ++ (streamId ++ tail)) =
      tagOfType amf tagType timestamp (tail.take dataSize) := by
  have hlen : (tagHead tagType timestamp dataSize ++ (streamId ++ tail)).length = 11 + tail.length := by
    simp only [List.length_append, length_tagHead, hid]
    omega
  have h15 : ¬ (tagHead tagType timestamp dataSize ++ (streamId ++ tail)).length < 15 := by omega
  have hdata := dataSizeOf_tagHead tagType timestamp hsize (streamId ++ tail) h15
  have hpayload : ((tagHead tagType timestamp dataSize ++ (streamId ++ tail)).take (11 + dataSize)).drop 11 =
      tail.take dataSize := by
    rw [List.drop_take, ← List.append_assoc, List.drop_left' (by simp [hid]), Nat.add_sub_cancel_left]
  obtain ⟨b₁, b₂, b₃, hb⟩ := List.length_eq_three.mp (toBe_length 3 dataSize)
  obtain ⟨b₄, b₅, b₆, hb'⟩ := List.length_eq_three.mp (toBe_length 3 timestamp.toNat)
  have htime : timestampBytes timestamp = [b₄, b₅, b₆, UInt8.ofNat (timestamp.toNat / 256 ^ 3)] := by
    rw [timestampBytes, hb']
    rfl
  rw [tryFrom, dif_neg h15]
  simp only [hdata, hpayload]
  rw [if_neg (by omega)]
  simp only [tagHead, hb, htime, List.cons_append, List.nil_append, List.getElem_cons_succ, List.getElem_cons_zero]
  rw [← (timestampBytes_eq_iff timestamp ..).mp htime]

theorem tagOfType_kind (kind : MediaKind) (timestamp : UInt32) (payload : Bytes) :
    tagOfType amf kind.tagType timestamp payload = .ok (kind.build timestamp payload) := by
  cases kind <;> rfl

theorem tagOfType_ok {tagType : UInt8} {timestamp : UInt32} {payload : Bytes} {tag : FlvTag}
    (h : tagOfType amf tagType timestamp payload = .ok tag) (hmedia : ∀ metadata, tag ≠ .scriptData metadata) :
    ∃ kind : MediaKind, tagType = kind.tagType ∧ tag = kind.build timestamp payload := by
  unfold tagOfType at h
  split at h
  · next htype => exact ⟨.audio, htype, (Except.ok.inj h).symm⟩
  · split at h
    · next htype => exact ⟨.video, htype, (Except.ok.inj h).symm⟩
    · split at h
      · cases hparse : amf.parseScriptDataMetadata payload with
        | error e => rw [hparse] at h; cases h
        | ok metadata =>
          rw [hparse] at h
          exact absurd (Except.ok.inj h).symm (hmedia metadata)
      · cases h

theorem tryFrom_ok_length {data : Bytes} {tag : FlvTag} (h : tryFrom amf data = .ok tag) : ¬ data.length < 15 := by
  intro hshort
  rw [tryFrom, dif_pos hshort] at h
  cases h

/-- A buffer that starts with the layout of a tag gives that tag. -/
theorem tryFrom_tagLayout (kind : MediaKind) (timestamp : UInt32) {payload streamId previousTagSize : Bytes}
    (hsize : payload.length ≤ 0xFFFFFF) (hid : streamId.length = 3) (hprevious : previousTagSize.length = 4)
    (rest : Bytes) :
    tryFrom amf (tagLayout kind.tagType timestamp payload streamId previousTagSize ++ rest) =
      .ok (kind.build timestamp payload) := by
  have htail : payload.length + 4 ≤ (payload ++ (previousTagSize ++ rest)).length := by
    simp only [List.length_append]
    omega
  rw [tagLayout, List.append_assoc, List.append_assoc, List.append_assoc]
  rw [tryFrom_tagHead _ _ hsize hid htail, List.take_left, tagOfType_kind]

/-- Audio and video tags come from no other buffers. -/
theorem tryFrom_ok {data : Bytes} {tag : FlvTag} (h : tryFrom amf data = .ok tag)
    (hmedia : ∀ metadata, tag ≠ .scriptData metadata) :
    ∃ (kind : MediaKind) (timestamp : UInt32) (payload streamId previousTagSize rest : Bytes),
      tag = kind.build timestamp payload ∧ payload.length ≤ 0xFFFFFF ∧ streamId.length = 3 ∧
      previousTagSize.length = 4 ∧
      data = tagLayout kind.tagType timestamp payload streamId previousTagSize ++ rest := by
  have h15 := tryFrom_ok_length h
  obtain ⟨tagType, timestamp, dataSize, streamId, tail, hsize, hid, -, rfl⟩ := exists_tagHead h15
  have htail : dataSize + 4 ≤ tail.length := by
    by_contra hshort
    have hlen : (tagHead tagType timestamp dataSize ++ (streamId ++ tail)).length < 11 + dataSize + 4 := by
      simp only [List.length_append, length_tagHead, hid]
      omega
    rw [tryFrom, dif_neg h15] at h
    simp only [dataSizeOf_tagHead _ _ hsize, if_pos hlen] at h
    cases h
  rw [tryFrom_tagHead _ _ hsize hid htail] at h
  obtain ⟨kind, rfl, rfl⟩ := tagOfType_ok h hmedia
  have hpayload : (tail.take dataSize).length = dataSize := by
    rw [List.length_take]
    omega
  refine ⟨kind, timestamp, tail.take dataSize, streamId, (tail.drop dataSize).take 4, (tail.drop dataSize).drop 4,
    rfl, hpayload.le.trans hsize, hid, ?_, ?_⟩
  · rw [List.length_take, List.length_drop]
    omega
  · simp only [tagLayout, hpayload, List.append_assoc, List.take_append_drop]

/-- Two tags that differ in `StreamID` and `PreviousTagSize` agree in all other bytes. -/
theorem tagLayout_getElem? (tagType : UInt8) (timestamp : UInt32) (payload rest : Bytes)
    {streamId streamId' previousTagSize previousTagSize' : Bytes} (hid : streamId.length = 3) (hid' : streamId'.length = 3)
    {i : ℕ} (hi : i < 8 ∨ 11 ≤ i ∧ i < 11 + payload.length) :
    (tagLayout tagType timestamp payload streamId previousTagSize)[i]? =
      (tagLayout tagType timestamp payload streamId' previousTagSize' ++ rest)[i]? := by
  simp only [tagLayout, List.append_assoc]
  rcases hi with hi | ⟨hlow, hhigh⟩
  · have hhead : i < (tagHead tagType timestamp payload.length).length := by simpa using hi
    rw [List.getElem?_append_left hhead, List.getElem?_append_left hhead]
  · have hpayload : ∀ id previous : Bytes, id.length = 3 →
        (tagHead tagType timestamp payload.length ++ (id ++ (payload ++ previous)))[i]? = payload[i - 11]? := by
      intro id previous hlen
      have hskip : (tagHead tagType timestamp payload.length ++ id).length = 11 := by simp [hlen]
      rw [← List.append_assoc, List.getElem?_append_right (by omega), hskip, List.getElem?_append_left (by omega)]
    rw [hpayload _ _ hid, hpayload _ _ hid']

end Layout

/-! ## Writing a tag and reading it back -/

section RoundTrip
variable (amf : ScriptDataCodec)

/-- The tag at the front of a buffer, and the number of bytes it takes. -/
def readTag (data : Bytes) : Option (FlvTag × ℕ) :=
  if h : data.length < 15 then none
  else (tryFrom amf data).toOption.map fun tag => (tag, 15 + dataSizeOf data h)

/-- The tags a buffer consists of. -/
def splitTags (data : Bytes) : Option (List FlvTag) := readAll (readTag amf) data.length data

/-- The bytes of an audio or video tag. -/
def IsTagBytes (tag : FlvTag) (bytes : Bytes) : Prop :=
  (∃ kind timestamp payload, tag = MediaKind.build kind timestamp payload) ∧ encodeFlvTag amf tag = .ok bytes

variable {amf}

theorem encodeFlvTag_eq_ok_iff (kind : MediaKind) (timestamp : UInt32) (payload bytes : Bytes) :
    encodeFlvTag amf (kind.build timestamp payload) = .ok bytes ↔ payload.length ≤ 0xFFFFFF ∧
      bytes = tagLayout kind.tagType timestamp payload (toBe 3 0) (toBe 4 (11 + payload.length)) := by
  rw [encodeFlvTag_build]
  by_cases hsize : payload.length > 0xFFFFFF
  · simp only [if_pos hsize, reduceCtorEq, false_iff, not_and]
    exact fun hle => absurd hle (Nat.not_le.mpr hsize)
  · simp only [if_neg hsize, Except.ok.injEq, Nat.not_lt.mp hsize, true_and]
    exact eq_comm

theorem encodeFlvTag_fails_iff (kind : MediaKind) (timestamp : UInt32) (payload : Bytes) :
    (∃ e, encodeFlvTag amf (kind.build timestamp payload) = .error e) ↔ 0xFFFFFF < payload.length := by
  constructor
  · rintro ⟨e, he⟩
    by_contra hsize
    rw [(encodeFlvTag_eq_ok_iff ..).mpr ⟨Nat.not_lt.mp hsize, rfl⟩] at he
    cases he
  · intro hsize
    rw [encodeFlvTag_build]
    exact ⟨_, if_pos hsize⟩

theorem tryFrom_encodeFlvTag {kind : MediaKind} {timestamp : UInt32} {payload bytes : Bytes}
    (h : encodeFlvTag amf (kind.build timestamp payload) = .ok bytes) (rest : Bytes) :
    tryFrom amf (bytes ++ rest) = .ok (kind.build timestamp payload) := by
  obtain ⟨hsize, rfl⟩ := (encodeFlvTag_eq_ok_iff ..).mp h
  exact tryFrom_tagLayout kind timestamp hsize (toBe_length ..) (toBe_length ..) rest

/-- The last four bytes are the length of what is before them. -/
theorem previousTagSize_encodeFlvTag {kind : MediaKind} {timestamp : UInt32} {payload bytes : Bytes}
    (h : encodeFlvTag amf (kind.build timestamp payload) = .ok bytes) :
    ∃ body size, bytes = body ++ size ∧ size.length = 4 ∧ fromBe size = body.length := by
  obtain ⟨hsize, rfl⟩ := (encodeFlvTag_eq_ok_iff ..).mp h
  refine ⟨tagHead kind.tagType timestamp payload.length ++ (toBe 3 0 ++ payload), toBe 4 (11 + payload.length), ?_,
    toBe_length .., ?_⟩
  · simp only [tagLayout, List.append_assoc]
  · rw [fromBe_toBe (by omega)]
    simp only [List.length_append, length_tagHead, toBe_length]
    omega

theorem readTag_isTagBytes : Reads (readTag amf) (IsTagBytes amf) where
  ne_nil := by
    rintro tag bytes ⟨⟨kind, timestamp, payload, rfl⟩, h⟩ rfl
    exact tryFrom_ok_length (tryFrom_encodeFlvTag h []) (by simp)
  read_append := by
    rintro tag bytes rest ⟨⟨kind, timestamp, payload, rfl⟩, h⟩
    have hread := tryFrom_encodeFlvTag h rest
    have h15 := tryFrom_ok_length hread
    obtain ⟨hsize, rfl⟩ := (encodeFlvTag_eq_ok_iff ..).mp h
    have hlen : (tagLayout kind.tagType timestamp payload (toBe 3 0) (toBe 4 (11 + payload.length))).length =
        15 + payload.length := by
      simp only [tagLayout, List.length_append, length_tagHead, toBe_length]
      omega
    rw [readTag, dif_neg h15, hread, hlen]
    simp only [tagLayout, List.append_assoc, dataSizeOf_tagHead _ _ hsize]
    rfl

/-- What a tag read from a buffer is written as: the same bytes but for `StreamID` and `PreviousTagSize`. -/
theorem encodeFlvTag_tryFrom {data : Bytes} {tag : FlvTag} (h : tryFrom amf data = .ok tag)
    (hmedia : ∀ metadata, tag ≠ .scriptData metadata) :
    ∃ (h15 : ¬ data.length < 15) (bytes : Bytes), encodeFlvTag amf tag = .ok bytes ∧
      bytes.length = 15 + dataSizeOf data h15 ∧
      ∀ i, i < 8 ∨ 11 ≤ i ∧ i < 11 + dataSizeOf data h15 → bytes[i]? = data[i]? := by
  have h15 := tryFrom_ok_length h
  obtain ⟨kind, timestamp, payload, streamId, previousTagSize, rest, rfl, hsize, hid, hprevious, rfl⟩ :=
    tryFrom_ok h hmedia
  have hdata : dataSizeOf _ h15 = payload.length := by
    simp only [tagLayout, List.append_assoc]
    exact dataSizeOf_tagHead _ _ hsize _ _
  refine ⟨h15, _, (encodeFlvTag_eq_ok_iff ..).mpr ⟨hsize, rfl⟩, ?_, ?_⟩
  · rw [hdata]
    simp only [tagLayout, List.length_append, length_tagHead, toBe_length]
    omega
  · intro i hi
    rw [hdata] at hi
    exact tagLayout_getElem? kind.tagType timestamp payload rest (toBe_length ..) hid hi

end RoundTrip

/-- The codec of audio and video tags: a tag can be written up to the limit of its size field; what was written is
read back whatever follows, tag by tag; and what was read is written as it was, but for two fields no one reads. -/
theorem flvTag_codec (amf : ScriptDataCodec) :
    (∀ (kind : MediaKind) (timestamp : UInt32) (payload : Bytes),
      ((∃ e, encodeFlvTag amf (kind.build timestamp payload) = .error e) ↔ 0xFFFFFF < payload.length) ∧
      ∀ bytes, encodeFlvTag amf (kind.build timestamp payload) = .ok bytes →
        (∀ rest, tryFrom amf (bytes ++ rest) = .ok (kind.build timestamp payload)) ∧
        ∃ body size, bytes = body ++ size ∧ size.length = 4 ∧ fromBe size = body.length) ∧
    (∀ (tags : List FlvTag) (words : List Bytes), List.Forall₂ (IsTagBytes amf) tags words →
      splitTags amf words.flatten = some tags ∧
      ∀ (tags' : List FlvTag) (words' : List Bytes), List.Forall₂ (IsTagBytes amf) tags' words' →
        words'.flatten = words.flatten → tags' = tags) ∧
    ∀ (data : Bytes) (tag : FlvTag), tryFrom amf data = .ok tag → (∀ metadata, tag ≠ .scriptData metadata) →
      ∃ (h15 : ¬ data.length < 15) (bytes : Bytes), encodeFlvTag amf tag = .ok bytes ∧
        bytes.length = 15 + dataSizeOf data h15 ∧
        ∀ i, i < 8 ∨ 11 ≤ i ∧ i < 11 + dataSizeOf data h15 → bytes[i]? = data[i]? := by
  refine ⟨fun kind timestamp payload => ⟨encodeFlvTag_fails_iff .., fun bytes h => ⟨tryFrom_encodeFlvTag h,
    previousTagSize_encodeFlvTag h⟩⟩, fun tags words hwords => ⟨readAll_words readTag_isTagBytes hwords le_rfl, ?_⟩,
    fun data tag => encodeFlvTag_tryFrom⟩
  intro tags' words' hwords' h
  exact words_unique readTag_isTagBytes hwords' hwords h

end LivestreamRs.Flv
