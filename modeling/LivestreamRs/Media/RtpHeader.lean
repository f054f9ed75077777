import LivestreamRs.Foundations.BigEndian
import LivestreamRs.Media.Packet

/-! # RTP headers

`parse_rtp_header` and `RtpPacket::new` (`livestream-codec/src/rtp.rs`). An index or a range outside of a slice is a
panic in the source; here it is the error of the `Indexed` monad, so that it is a theorem that none occurs. What a
packet looks like on the wire is stated apart from the code, after RFC 3550 §5.1 as the source cites it.
-/
namespace LivestreamRs.Media
open BigEndian
set_option autoImplicit false

/-! ## The parser -/

inductive IndexPanic
  | outOfBounds
  deriving DecidableEq

abbrev Indexed := Except IndexPanic

/-- `data[i]` -/
def byteAt (data : Bytes) (i : ℕ) : Indexed UInt8 :=
  match data[i]? with
  | some b => .ok b
  | none => .error .outOfBounds

/-- `&data[start..]` -/
def sliceFrom (data : Bytes) (start : ℕ) : Indexed Bytes :=
  if start ≤ data.length then .ok (data.drop start) else .error .outOfBounds

/-- `&data[..stop]` -/
def sliceTo (data : Bytes) (stop : ℕ) : Indexed Bytes :=
  if stop ≤ data.length then .ok (data.take stop) else .error .outOfBounds

/-- `u16::from_be_bytes([data[i], data[i + 1]])` -/
def u16At (data : Bytes) (i : ℕ) : Indexed UInt16 := do
  let b₀ ← byteAt data i
  let b₁ ← byteAt data (i + 1)
  pure (UInt16.ofNat (fromBe [b₀, b₁]))

/-- `u32::from_be_bytes([data[i], …, data[i + 3]])` -/
def u32At (data : Bytes) (i : ℕ) : Indexed UInt32 := do
  let b₀ ← byteAt data i
  let b₁ ← byteAt data (i + 1)
  let b₂ ← byteAt data (i + 2)
  let b₃ ← byteAt data (i + 3)
  pure (UInt32.ofNat (fromBe [b₀, b₁, b₂, b₃]))

structure ParsedRtpHeader where
  payloadType : UInt8
  marker : Bool
  sequenceNumber : UInt16
  rtpTimestamp : UInt32
  ssrc : UInt32
  payload : Bytes
  deriving DecidableEq, Repr

/-- The length of the fixed header, the CSRC list and the extension; `none` if the extension's own header is not
there. -/
def rtpHeaderLen (data : Bytes) (hasExtension : Bool) (csrcCount : ℕ) : Indexed (Option ℕ) :=
  let headerLen := 12 + csrcCount * 4
  if hasExtension then
    let extStart := headerLen
    let extEnd := extStart + 4
    if data.length < extEnd then .ok none
    else do
      let extensionLen ← u16At data (extStart + 2)
      pure (some (extEnd + extensionLen.toNat * 4))
  else .ok (some headerLen)

/-- The payload without the padding, whose last byte is its length. -/
def stripPadding (payload : Bytes) (hasPadding : Bool) : Indexed (Option Bytes) :=
  if hasPadding then
    match payload.getLast? with
    | none => .ok none
    | some padLen =>
      if padLen.toNat = 0 ∨ padLen.toNat > payload.length then .ok none
      else do
        let payload ← sliceTo payload (payload.length - padLen.toNat)
        pure (some payload)
  else .ok (some payload)

/-- What remains of a packet without header, extension and padding. -/
def rtpPayload (data : Bytes) (first : UInt8) : Indexed (Option Bytes) := do
  let hasPadding := first &&& 0x20 != 0
  let hasExtension := first &&& 0x10 != 0
  let csrcCount := (first &&& 0x0F).toNat
  match ← rtpHeaderLen data hasExtension csrcCount with
  | none => pure none
  | some headerLen =>
    if data.length < headerLen then pure none
    else do
      let payload ← sliceFrom data headerLen
      stripPadding payload hasPadding

def rtpFields (data payload : Bytes) : Indexed ParsedRtpHeader := do
  let second ← byteAt data 1
  let sequenceNumber ← u16At data 2
  let rtpTimestamp ← u32At data 4
  let ssrc ← u32At data 8
  pure
    { payloadType := second &&& 0x7F
      marker := second &&& 0x80 != 0
      sequenceNumber := sequenceNumber
      rtpTimestamp := rtpTimestamp
      ssrc := ssrc
      payload := payload }

def parseRtpHeader (data : Bytes) : Indexed (Option ParsedRtpHeader) :=
  if data.length < 12 then .ok none
  else do
    let first ← byteAt data 0
    if first >>> 6 ≠ 2 then pure none
    else
      match ← rtpPayload data first with
      | none => pure none
      | some payload => do
        let header ← rtpFields data payload
        pure (some header)

structure RtpPacket where
  payloadType : UInt8
  channel : UInt8
  rtpTimestamp : UInt32
  marker : Bool
  data : Bytes
  deriving DecidableEq, Repr

def RtpPacket.new (payloadType channel : UInt8) (rtpTimestamp : UInt32) (marker : Bool) (sequenceNumber : UInt16)
    (ssrc : UInt32) (payload : Bytes) : RtpPacket :=
  let firstByte : UInt8 := 0x80
  let markerPt := if marker then 0x80 ||| (payloadType &&& 0x7F) else payloadType &&& 0x7F
  { payloadType := payloadType
    channel := channel
    rtpTimestamp := rtpTimestamp
    marker := marker
    data := [firstByte] ++ [markerPt] ++ toBe 2 sequenceNumber.toNat ++ toBe 4 rtpTimestamp.toNat ++
      toBe 4 ssrc.toNat ++ payload }

/-! ## Packets on the wire -/

/-- A list of 32-bit words. -/
def wordBytes (words : List UInt32) : Bytes := words.flatMap fun word => toBe 4 word.toNat

structure RtpExtension where
  profile : UInt16
  words : List UInt32
  length_le : words.length ≤ 65535

/-- The profile, the number of words and the words. -/
def RtpExtension.bytes (ext : RtpExtension) : Bytes :=
  toBe 2 ext.profile.toNat ++ (toBe 2 ext.words.length ++ wordBytes ext.words)

/-- Padding of 1 to 255 bytes: any bytes and, last, how many there are with it. -/
structure RtpPadding where
  fill : Bytes
  length_le : fill.length ≤ 254

def RtpPadding.bytes (pad : RtpPadding) : Bytes := pad.fill ++ [UInt8.ofNat (pad.fill.length + 1)]

/-- The first byte: version 2, padding bit, extension bit and CSRC count. -/
def flagByte (hasPadding hasExtension : Bool) (csrcCount : ℕ) : UInt8 :=
  UInt8.ofNat (2 * 64 + hasPadding.toNat * 32 + hasExtension.toNat * 16 + csrcCount)

/-- The second byte: marker bit and payload type. -/
def markerByte (marker : Bool) (payloadType : ℕ) : UInt8 := UInt8.ofNat (marker.toNat * 128 + payloadType)

def fixedHeader (first second : UInt8) (sequenceNumber : UInt16) (timestamp ssrc : UInt32) : Bytes :=
  first :: second :: (toBe 2 sequenceNumber.toNat ++ (toBe 4 timestamp.toNat ++ toBe 4 ssrc.toNat))

/-- A packet of version 2. -/
structure WirePacket where
  payloadType : Fin 128
  marker : Bool
  sequenceNumber : UInt16
  timestamp : UInt32
  ssrc : UInt32
  csrcs : List UInt32
  csrcs_le : csrcs.length ≤ 15
  ext : Option RtpExtension
  payload : Bytes
  padding : Option RtpPadding

namespace WirePacket
variable (p : WirePacket)

def serialize : Bytes :=
  fixedHeader (flagByte p.padding.isSome p.ext.isSome p.csrcs.length) (markerByte p.marker p.payloadType)
      p.sequenceNumber p.timestamp p.ssrc ++
    (wordBytes p.csrcs ++ (p.ext.elim [] RtpExtension.bytes ++ (p.payload ++ p.padding.elim [] RtpPadding.bytes)))

/-- What there is to know of a packet to whoever parses its header. -/
def parsed : ParsedRtpHeader where
  payloadType := UInt8.ofNat p.payloadType.val
  marker := p.marker
  sequenceNumber := p.sequenceNumber
  rtpTimestamp := p.timestamp
  ssrc := p.ssrc
  payload := p.payload

end WirePacket

/-! ## Bytes, words and flags -/

theorem byteAt_append (pre data : Bytes) {n : ℕ} (hpre : pre.length = n) (i : ℕ) :
    byteAt (pre ++ data) (n + i) = byteAt data i := by
  rw [byteAt, byteAt, List.getElem?_append_right (by omega), ← hpre, Nat.add_sub_cancel_left]

theorem sliceTo_append (data rest : Bytes) : sliceTo (data ++ rest) data.length = .ok data := by
  rw [sliceTo, if_pos (by rw [List.length_append]; omega), List.take_left]

/-- A 16-bit word in its place is read as itself. -/
theorem u16At_word (pre : Bytes) {n : ℕ} (hpre : pre.length = n) {v : ℕ} (hv : v < 2 ^ 16) (rest : Bytes) :
    u16At (pre ++ (toBe 2 v ++ rest)) n = .ok (UInt16.ofNat v) := by
  obtain ⟨b₀, b₁, hb⟩ := List.length_eq_two.mp (toBe_length 2 v)
  have hvalue : fromBe [b₀, b₁] = v := by rw [← hb, fromBe_toBe hv]
  have h₀ := byteAt_append pre (toBe 2 v ++ rest) hpre 0
  have h₁ := byteAt_append pre (toBe 2 v ++ rest) hpre 1
  rw [Nat.add_zero] at h₀
  rw [u16At, h₀, h₁, hb, ← hvalue]
  rfl

/-- A 32-bit word in its place is read as itself. -/
theorem u32At_word (pre : Bytes) {n : ℕ} (hpre : pre.length = n) (v : UInt32) (rest : Bytes) :
    u32At (pre ++ (toBe 4 v.toNat ++ rest)) n = .ok v := by
  obtain ⟨b₁, b₂, b₃, hb⟩ := List.length_eq_three.mp (toBe_length 3 v.toNat)
  have hb₀ : toBe 4 v.toNat = [UInt8.ofNat (v.toNat / 256 ^ 3), b₁, b₂, b₃] := by rw [toBe, hb]
  have hvalue : fromBe [UInt8.ofNat (v.toNat / 256 ^ 3), b₁, b₂, b₃] = v.toNat := by
    rw [← hb₀, fromBe_toBe v.toNat_lt]
  have h₀ := byteAt_append pre (toBe 4 v.toNat ++ rest) hpre 0
  have h₁ := byteAt_append pre (toBe 4 v.toNat ++ rest) hpre 1
  have h₂ := byteAt_append pre (toBe 4 v.toNat ++ rest) hpre 2
  have h₃ := byteAt_append pre (toBe 4 v.toNat ++ rest) hpre 3
  rw [Nat.add_zero] at h₀
  rw [u32At, h₀, h₁, h₂, h₃, hb₀]
  change Except.ok (UInt32.ofNat (fromBe _)) = _
  rw [hvalue, UInt32.ofNat_toNat]

@[simp]
theorem length_wordBytes (words : List UInt32) : (wordBytes words).length = words.length * 4 := by
  induction words with
  | nil => rfl
  | cons word words ih =>
    rw [wordBytes, List.flatMap_cons, List.length_append, toBe_length, List.length_cons, ← wordBytes, ih]
    ring

theorem exists_u32 {w : Bytes} (hw : w.length = 4) : ∃ v : UInt32, toBe 4 v.toNat = w := by
  obtain ⟨v, hv, rfl⟩ := exists_toBe hw
  have hnat : (UInt32.ofNat v).toNat = v := by rw [UInt32.toNat_ofNat', Nat.mod_eq_of_lt (by omega)]
  exact ⟨UInt32.ofNat v, by rw [hnat]⟩

theorem exists_u16 {w : Bytes} (hw : w.length = 2) : ∃ v : UInt16, toBe 2 v.toNat = w := by
  obtain ⟨v, hv, rfl⟩ := exists_toBe hw
  have hnat : (UInt16.ofNat v).toNat = v := by rw [UInt16.toNat_ofNat', Nat.mod_eq_of_lt (by omega)]
  exact ⟨UInt16.ofNat v, by rw [hnat]⟩

/-- Any bytes in the right number are words. -/
theorem exists_wordBytes (n : ℕ) {w : Bytes} (hw : w.length = n * 4) :
    ∃ words : List UInt32, words.length = n ∧ wordBytes words = w := by
  induction n generalizing w with
  | zero => exact ⟨[], rfl, (List.length_eq_zero_iff.mp (by omega)).symm⟩
  | succ n ih =>
    obtain ⟨word, hword⟩ := exists_u32 (w := w.take 4) (by rw [List.length_take]; omega)
    obtain ⟨words, hlen, hwords⟩ := ih (w := w.drop 4) (by rw [List.length_drop]; omega)
    refine ⟨word :: words, by rw [List.length_cons, hlen], ?_⟩
    rw [wordBytes, List.flatMap_cons, hword, ← wordBytes, hwords, List.take_append_drop]

theorem flagByte_fields (hasPadding hasExtension : Bool) {csrcCount : ℕ} (h : csrcCount ≤ 15) :
    flagByte hasPadding hasExtension csrcCount >>> 6 = 2 ∧
    (flagByte hasPadding hasExtension csrcCount &&& 0x20 != 0) = hasPadding ∧
    (flagByte hasPadding hasExtension csrcCount &&& 0x10 != 0) = hasExtension ∧
    (flagByte hasPadding hasExtension csrcCount &&& 0x0F).toNat = csrcCount := by
  have htable : ∀ (b c : Bool) (n : Fin 16), flagByte b c n >>> 6 = 2 ∧ (flagByte b c n &&& 0x20 != 0) = b ∧
      (flagByte b c n &&& 0x10 != 0) = c ∧ (flagByte b c n &&& 0x0F).toNat = n := by decide
  exact htable hasPadding hasExtension ⟨csrcCount, Nat.lt_succ_of_le h⟩

theorem eq_flagByte {first : UInt8} (h : first >>> 6 = 2) :
    first = flagByte (first &&& 0x20 != 0) (first &&& 0x10 != 0) (first &&& 0x0F).toNat ∧
      (first &&& 0x0F).toNat ≤ 15 := by
  have htable : ∀ n : Fin 256, UInt8.ofNat n >>> 6 = 2 →
      UInt8.ofNat n = flagByte (UInt8.ofNat n &&& 0x20 != 0) (UInt8.ofNat n &&& 0x10 != 0) (UInt8.ofNat n &&& 0x0F).toNat ∧
        (UInt8.ofNat n &&& 0x0F).toNat ≤ 15 := by decide +kernel
  have hfirst : UInt8.ofNat first.toNat = first := UInt8.ofNat_toNat
  have hn := htable ⟨first.toNat, first.toNat_lt⟩
  simp only [hfirst] at hn
  exact hn h

theorem markerByte_fields (marker : Bool) (payloadType : Fin 128) :
    markerByte marker payloadType &&& 0x7F = UInt8.ofNat payloadType ∧
    (markerByte marker payloadType &&& 0x80 != 0) = marker := by
  revert marker payloadType
  decide

theorem eq_markerByte (second : UInt8) :
    second = markerByte (second &&& 0x80 != 0) (second &&& 0x7F).toNat ∧ (second &&& 0x7F).toNat < 128 := by
  have htable : ∀ n : Fin 256,
      UInt8.ofNat n = markerByte (UInt8.ofNat n &&& 0x80 != 0) (UInt8.ofNat n &&& 0x7F).toNat ∧
        (UInt8.ofNat n &&& 0x7F).toNat < 128 := by decide +kernel
  have hsecond : UInt8.ofNat second.toNat = second := UInt8.ofNat_toNat
  have hn := htable ⟨second.toNat, second.toNat_lt⟩
  simp only [hsecond] at hn
  exact hn

/-! ## The parts of a header -/

@[simp]
theorem length_fixedHeader (first second : UInt8) (sequenceNumber : UInt16) (timestamp ssrc : UInt32) :
    (fixedHeader first second sequenceNumber timestamp ssrc).length = 12 := by
  simp [fixedHeader]

theorem exists_fixedHeader {data : Bytes} (h : ¬ data.length < 12) :
    ∃ first second sequenceNumber timestamp ssrc rest,
      data = fixedHeader first second sequenceNumber timestamp ssrc ++ rest := by
  match data, h with
  | [], h => exact absurd (by simp) h
  | [_], h => exact absurd (by simp) h
  | first :: second :: tail, h =>
    simp only [List.length_cons] at h
    obtain ⟨sequenceNumber, hseq⟩ := exists_u16 (w := tail.take 2) (by rw [List.length_take]; omega)
    obtain ⟨timestamp, htime⟩ := exists_u32 (w := (tail.drop 2).take 4) (by
      rw [List.length_take, List.length_drop]; omega)
    obtain ⟨ssrc, hssrc⟩ := exists_u32 (w := ((tail.drop 2).drop 4).take 4) (by
      rw [List.length_take, List.length_drop, List.length_drop]; omega)
    refine ⟨first, second, sequenceNumber, timestamp, ssrc, ((tail.drop 2).drop 4).drop 4, ?_⟩
    rw [fixedHeader, hseq, htime, hssrc]
    simp only [List.cons_append, List.append_assoc, List.take_append_drop]

theorem rtpFields_fixedHeader (first second : UInt8) (sequenceNumber : UInt16) (timestamp ssrc : UInt32)
    (rest payload : Bytes) :
    rtpFields (fixedHeader first second sequenceNumber timestamp ssrc ++ rest) payload = .ok
      { payloadType := second &&& 0x7F
        marker := second &&& 0x80 != 0
        sequenceNumber := sequenceNumber
        rtpTimestamp := timestamp
        ssrc := ssrc
        payload := payload } := by
  have hseq : u16At (fixedHeader first second sequenceNumber timestamp ssrc ++ rest) 2 = .ok sequenceNumber := by
    have h := u16At_word [first, second] (n := 2) rfl sequenceNumber.toNat_lt (toBe 4 timestamp.toNat ++ toBe 4 ssrc.toNat ++ rest)
    rw [UInt16.ofNat_toNat] at h
    rw [← h, fixedHeader]
    simp only [List.cons_append, List.nil_append, List.append_assoc]
  have htime : u32At (fixedHeader first second sequenceNumber timestamp ssrc ++ rest) 4 = .ok timestamp := by
    rw [← u32At_word (first :: second :: toBe 2 sequenceNumber.toNat) (n := 4) rfl timestamp (toBe 4 ssrc.toNat ++ rest),
      fixedHeader]
    simp only [List.cons_append, List.append_assoc]
  have hssrc : u32At (fixedHeader first second sequenceNumber timestamp ssrc ++ rest) 8 = .ok ssrc := by
    rw [← u32At_word (first :: second :: (toBe 2 sequenceNumber.toNat ++ toBe 4 timestamp.toNat)) (n := 8) rfl ssrc rest,
      fixedHeader]
    simp only [List.cons_append, List.append_assoc]
  have hsecond : byteAt (fixedHeader first second sequenceNumber timestamp ssrc ++ rest) 1 = .ok second := rfl
  rw [rtpFields, hsecond, hseq, htime, hssrc]
  rfl

/-- The padding is found, and nothing else is taken for it. -/
theorem stripPadding_append (payload : Bytes) (padding : Option RtpPadding) :
    stripPadding (payload ++ padding.elim [] RtpPadding.bytes) padding.isSome = .ok (some payload) := by
  cases padding with
  | none => simp [stripPadding]
  | some pad =>
    have hle := pad.length_le
    have hcount : (UInt8.ofNat (pad.fill.length + 1)).toNat = pad.fill.length + 1 := by
      rw [UInt8.toNat_ofNat', Nat.mod_eq_of_lt (by omega)]
    have hlen : (payload ++ pad.bytes).length = payload.length + (pad.fill.length + 1) := by
      simp [RtpPadding.bytes]
    have hlast : (payload ++ pad.bytes).getLast? = some (UInt8.ofNat (pad.fill.length + 1)) := by
      rw [RtpPadding.bytes, ← List.append_assoc, List.getLast?_concat]
    simp only [stripPadding, Option.isSome_some, if_true, Option.elim_some, hlast, hcount]
    rw [if_neg (by omega), hlen, Nat.add_sub_cancel, sliceTo_append]
    rfl

theorem stripPadding_spec (payload : Bytes) (hasPadding : Bool) :
    ∃ r, stripPadding payload hasPadding = .ok r ∧ ∀ kept, r = some kept →
      ∃ padding : Option RtpPadding, padding.isSome = hasPadding ∧
        payload = kept ++ padding.elim [] RtpPadding.bytes := by
  cases hasPadding with
  | false => exact ⟨some payload, rfl, fun kept h => ⟨none, rfl, by simp [Option.some.inj h]⟩⟩
  | true =>
    rcases List.eq_nil_or_concat' payload with rfl | ⟨front, padLen, rfl⟩
    · exact ⟨none, rfl, fun kept h => nomatch h⟩
    · simp only [stripPadding, if_true, List.getLast?_concat]
      by_cases hbad : padLen.toNat = 0 ∨ padLen.toNat > (front ++ [padLen]).length
      · exact ⟨none, by rw [if_pos hbad], fun kept h => nomatch h⟩
      · rw [List.length_append, List.length_singleton, not_or] at hbad
        have hlt := padLen.toNat_lt
        have hfill : (front.drop (front.length + 1 - padLen.toNat)).length = padLen.toNat - 1 := by
          rw [List.length_drop]
          omega
        have hcount : UInt8.ofNat (padLen.toNat - 1 + 1) = padLen := by
          rw [Nat.sub_add_cancel (by omega), UInt8.ofNat_toNat]
        have hslice : sliceTo (front ++ [padLen]) (front.length + 1 - padLen.toNat) =
            .ok (front.take (front.length + 1 - padLen.toNat)) := by
          rw [sliceTo, if_pos (by simp), List.take_append_of_le_length (by omega)]
        rw [List.length_append, List.length_singleton, if_neg (by omega), hslice]
        refine ⟨_, rfl, fun kept h => ⟨some ⟨front.drop (front.length + 1 - padLen.toNat), by omega⟩, rfl, ?_⟩⟩
        simp only [← Option.some.inj h, Option.elim_some, RtpPadding.bytes, hfill, hcount]
        rw [← List.append_assoc, List.take_append_drop]

@[simp]
theorem length_extension (ext : RtpExtension) : ext.bytes.length = 4 + ext.words.length * 4 := by
  simp only [RtpExtension.bytes, List.length_append, toBe_length, length_wordBytes]
  omega

/-- The header length when there is room for an extension header. -/
theorem rtpHeaderLen_extension (data : Bytes) (csrcCount : ℕ) (h : ¬ data.length < 12 + csrcCount * 4 + 4) :
    rtpHeaderLen data true csrcCount =
      (u16At data (12 + csrcCount * 4 + 2)).map fun extensionLen =>
        some (12 + csrcCount * 4 + 4 + extensionLen.toNat * 4) := by
  simp only [rtpHeaderLen, if_true, if_neg h]
  cases u16At data (12 + csrcCount * 4 + 2) <;> rfl

theorem rtpHeaderLen_append {fixed : Bytes} (hfixed : fixed.length = 12) (csrcs : List UInt32)
    (ext : Option RtpExtension) (rest : Bytes) :
    rtpHeaderLen (fixed ++ (wordBytes csrcs ++ (ext.elim [] RtpExtension.bytes ++ rest))) ext.isSome csrcs.length =
      .ok (some (fixed ++ (wordBytes csrcs ++ ext.elim [] RtpExtension.bytes)).length) := by
  cases ext with
  | none => simp [rtpHeaderLen, hfixed]
  | some ext =>
    have hle := ext.length_le
    have hword : u16At (fixed ++ (wordBytes csrcs ++ (ext.bytes ++ rest))) (12 + csrcs.length * 4 + 2) =
        .ok (UInt16.ofNat ext.words.length) := by
      rw [← u16At_word (fixed ++ (wordBytes csrcs ++ toBe 2 ext.profile.toNat)) (n := 12 + csrcs.length * 4 + 2)
        (by simp only [List.length_append, length_wordBytes, toBe_length, hfixed]; omega)
        (Nat.lt_succ_of_le hle) (wordBytes ext.words ++ rest)]
      simp only [RtpExtension.bytes, List.append_assoc]
    have hcount : (UInt16.ofNat ext.words.length).toNat = ext.words.length := by
      rw [UInt16.toNat_ofNat', Nat.mod_eq_of_lt (by omega)]
    have hlen : (fixed ++ (wordBytes csrcs ++ ext.bytes)).length =
        12 + csrcs.length * 4 + 4 + ext.words.length * 4 := by
      simp only [List.length_append, length_wordBytes, length_extension, hfixed]
      omega
    have hlong : ¬ (fixed ++ (wordBytes csrcs ++ (ext.bytes ++ rest))).length < 12 + csrcs.length * 4 + 4 := by
      simp only [List.length_append, length_wordBytes, length_extension, hfixed]
      omega
    rw [Option.elim_some, Option.isSome_some, rtpHeaderLen_extension _ _ hlong, hword, hlen,
      Except.map, hcount]

/-- Bytes that the header length covers are a CSRC list and an extension. -/
theorem rtpHeaderLen_spec {fixed : Bytes} (hfixed : fixed.length = 12) (rest : Bytes) (hasExtension : Bool)
    (csrcCount : ℕ) :
    ∃ r, rtpHeaderLen (fixed ++ rest) hasExtension csrcCount = .ok r ∧
      ∀ headerLen, r = some headerLen → headerLen ≤ (fixed ++ rest).length →
        ∃ (csrcs : List UInt32) (ext : Option RtpExtension) (tail : Bytes), csrcs.length = csrcCount ∧
          ext.isSome = hasExtension ∧ rest = wordBytes csrcs ++ (ext.elim [] RtpExtension.bytes ++ tail) := by
  have hlength : (fixed ++ rest).length = 12 + rest.length := by rw [List.length_append, hfixed]
  cases hasExtension with
  | false =>
    refine ⟨some (12 + csrcCount * 4), rfl, fun headerLen h hle => ?_⟩
    rw [← Option.some.inj h, hlength] at hle
    obtain ⟨csrcs, hcount, hcsrcs⟩ := exists_wordBytes csrcCount (w := rest.take (csrcCount * 4))
      (by rw [List.length_take]; omega)
    refine ⟨csrcs, none, rest.drop (csrcCount * 4), hcount, rfl, ?_⟩
    rw [hcsrcs, Option.elim_none, List.nil_append, List.take_append_drop]
  | true =>
    by_cases hshort : (fixed ++ rest).length < 12 + csrcCount * 4 + 4
    · exact ⟨none, if_pos hshort, fun headerLen h => nomatch h⟩
    · obtain ⟨csrcs, hcount, hcsrcs⟩ := exists_wordBytes csrcCount (w := rest.take (csrcCount * 4))
        (by rw [List.length_take]; omega)
      obtain ⟨profile, hprofile⟩ := exists_u16 (w := (rest.drop (csrcCount * 4)).take 2)
        (by rw [List.length_take, List.length_drop]; omega)
      obtain ⟨extensionLen, hextension⟩ := exists_u16 (w := ((rest.drop (csrcCount * 4)).drop 2).take 2)
        (by rw [List.length_take, List.length_drop, List.length_drop]; omega)
      -- the bytes after the extension's own header
      obtain ⟨after, hafter⟩ : ∃ after, after = ((rest.drop (csrcCount * 4)).drop 2).drop 2 := ⟨_, rfl⟩
      have hrest : rest = wordBytes csrcs ++ (toBe 2 profile.toNat ++ (toBe 2 extensionLen.toNat ++ after)) := by
        rw [hcsrcs, hprofile, hextension, hafter, List.take_append_drop, List.take_append_drop, List.take_append_drop]
      have hword : u16At (fixed ++ rest) (12 + csrcCount * 4 + 2) = .ok extensionLen := by
        have h := u16At_word (fixed ++ (wordBytes csrcs ++ toBe 2 profile.toNat)) (n := 12 + csrcCount * 4 + 2)
          (by simp only [List.length_append, length_wordBytes, toBe_length, hfixed, hcount]; omega)
          extensionLen.toNat_lt after
        rw [UInt16.ofNat_toNat] at h
        rw [← h, hrest]
        simp only [List.append_assoc]
      rw [rtpHeaderLen_extension _ _ hshort, hword]
      refine ⟨_, rfl, fun headerLen h hle => ?_⟩
      rw [← Option.some.inj h, hrest] at hle
      simp only [List.length_append, length_wordBytes, toBe_length, hfixed, hcount] at hle
      obtain ⟨words, hlen, hwords⟩ := exists_wordBytes extensionLen.toNat (w := after.take (extensionLen.toNat * 4))
        (by rw [List.length_take]; omega)
      have hlt := extensionLen.toNat_lt
      refine ⟨csrcs, some ⟨profile, words, by omega⟩, after.drop (extensionLen.toNat * 4), hcount, rfl, ?_⟩
      simp only [Option.elim_some, RtpExtension.bytes, hlen, hwords, List.append_assoc, List.take_append_drop]
      exact hrest

/-! ## Exactness -/

theorem rtpPayload_eq {data : Bytes} {first : UInt8} {headerLen : ℕ}
    (h : rtpHeaderLen data (first &&& 0x10 != 0) (first &&& 0x0F).toNat = .ok (some headerLen)) :
    rtpPayload data first =
      if data.length < headerLen then .ok none else stripPadding (data.drop headerLen) (first &&& 0x20 != 0) := by
  simp only [rtpPayload, h]
  change (if data.length < headerLen then _ else _) = _
  split
  · rfl
  · next hlen =>
    rw [sliceFrom, if_pos (Nat.not_lt.mp hlen)]
    rfl

theorem rtpPayload_append {fixed : Bytes} (hfixed : fixed.length = 12) {csrcs : List UInt32} (hcsrcs : csrcs.length ≤ 15)
    (ext : Option RtpExtension) (payload : Bytes) (padding : Option RtpPadding) :
    rtpPayload
        (fixed ++ (wordBytes csrcs ++ (ext.elim [] RtpExtension.bytes ++ (payload ++ padding.elim [] RtpPadding.bytes))))
        (flagByte padding.isSome ext.isSome csrcs.length) = .ok (some payload) := by
  obtain ⟨-, hpadding, hextension, hcount⟩ := flagByte_fields padding.isSome ext.isSome hcsrcs
  have hlen := rtpHeaderLen_append hfixed csrcs ext (payload ++ padding.elim [] RtpPadding.bytes)
  rw [rtpPayload_eq (by rw [hextension, hcount, hlen]), hpadding]
  simp only [← List.append_assoc fixed, ← List.append_assoc (fixed ++ wordBytes csrcs)]
  rw [if_neg (by simp), List.drop_left, stripPadding_append]

/-- No index is out of bounds, and a payload is what is left of a CSRC list, an extension and padding. -/
theorem rtpPayload_spec {fixed : Bytes} (hfixed : fixed.length = 12) (rest : Bytes) (first : UInt8) :
    ∃ r, rtpPayload (fixed ++ rest) first = .ok r ∧ ∀ payload, r = some payload →
      ∃ (csrcs : List UInt32) (ext : Option RtpExtension) (padding : Option RtpPadding),
        csrcs.length = (first &&& 0x0F).toNat ∧ ext.isSome = (first &&& 0x10 != 0) ∧
        padding.isSome = (first &&& 0x20 != 0) ∧
        rest = wordBytes csrcs ++ (ext.elim [] RtpExtension.bytes ++ (payload ++ padding.elim [] RtpPadding.bytes)) := by
  obtain ⟨r, hr, hspec⟩ := rtpHeaderLen_spec hfixed rest (first &&& 0x10 != 0) (first &&& 0x0F).toNat
  cases r with
  | none => exact ⟨none, by rw [rtpPayload, hr]; rfl, fun payload h => nomatch h⟩
  | some headerLen =>
    rw [rtpPayload_eq hr]
    by_cases hshort : (fixed ++ rest).length < headerLen
    · exact ⟨none, if_pos hshort, fun payload h => nomatch h⟩
    · obtain ⟨csrcs, ext, tail, hcount, hextension, hrest⟩ := hspec headerLen rfl (Nat.not_lt.mp hshort)
      -- the length covers just those parts
      have hlen := rtpHeaderLen_append hfixed csrcs ext tail
      rw [hcount, hextension, ← hrest, hr] at hlen
      have hassoc : fixed ++ rest = (fixed ++ (wordBytes csrcs ++ ext.elim [] RtpExtension.bytes)) ++ tail := by
        rw [hrest]
        simp only [List.append_assoc]
      have hdrop : (fixed ++ rest).drop headerLen = tail := by
        rw [Option.some.inj (Except.ok.inj hlen), hassoc, List.drop_left]
      obtain ⟨kept, hkept, hpadding⟩ := stripPadding_spec tail (first &&& 0x20 != 0)
      refine ⟨kept, by rw [if_neg hshort, hdrop, hkept], fun payload h => ?_⟩
      obtain ⟨padding, hisSome, htail⟩ := hpadding payload h
      exact ⟨csrcs, ext, padding, hcount, hextension, hisSome, by rw [hrest, htail]⟩

theorem parseRtpHeader_fixedHeader {first : UInt8} (hversion : first >>> 6 = 2) (second : UInt8)
    (sequenceNumber : UInt16) (timestamp ssrc : UInt32) (rest : Bytes) {payload : Option Bytes}
    (h : rtpPayload (fixedHeader first second sequenceNumber timestamp ssrc ++ rest) first = .ok payload) :
    parseRtpHeader (fixedHeader first second sequenceNumber timestamp ssrc ++ rest) =
      .ok (payload.map fun payload =>
        { payloadType := second &&& 0x7F
          marker := second &&& 0x80 != 0
          sequenceNumber := sequenceNumber
          rtpTimestamp := timestamp
          ssrc := ssrc
          payload := payload }) := by
  have hlong : ¬ (fixedHeader first second sequenceNumber timestamp ssrc ++ rest).length < 12 := by simp
  have hfirst : byteAt (fixedHeader first second sequenceNumber timestamp ssrc ++ rest) 0 = .ok first := rfl
  rw [parseRtpHeader, if_neg hlong, hfirst]
  change (if first >>> 6 ≠ 2 then _ else _) = _
  rw [if_neg (not_not.mpr hversion), h]
  cases payload with
  | none => rfl
  | some payload =>
    simp only [bind, Except.bind, rtpFields_fixedHeader]
    rfl

theorem parseRtpHeader_serialize (p : WirePacket) : parseRtpHeader p.serialize = .ok (some p.parsed) := by
  obtain ⟨hversion, -⟩ := flagByte_fields p.padding.isSome p.ext.isSome p.csrcs_le
  obtain ⟨htype, hmarker⟩ := markerByte_fields p.marker p.payloadType
  rw [WirePacket.serialize, parseRtpHeader_fixedHeader hversion _ _ _ _ _
    (rtpPayload_append (length_fixedHeader ..) p.csrcs_le p.ext p.payload p.padding), htype, hmarker]
  rfl

/-- The parser never panics, and what it accepts was a packet. -/
theorem parseRtpHeader_sound (data : Bytes) :
    ∃ r, parseRtpHeader data = .ok r ∧ ∀ header, r = some header →
      ∃ p : WirePacket, p.serialize = data ∧ p.parsed = header := by
  by_cases hshort : data.length < 12
  · exact ⟨none, if_pos hshort, fun header h => nomatch h⟩
  · obtain ⟨first, second, sequenceNumber, timestamp, ssrc, rest, rfl⟩ := exists_fixedHeader hshort
    by_cases hversion : first >>> 6 = 2
    · obtain ⟨r, hr, hspec⟩ := rtpPayload_spec (length_fixedHeader first second sequenceNumber timestamp ssrc) rest first
      refine ⟨_, parseRtpHeader_fixedHeader hversion _ _ _ _ _ hr, fun header h => ?_⟩
      obtain ⟨payload, hpayload, rfl⟩ := Option.map_eq_some_iff.mp h
      obtain ⟨csrcs, ext, padding, hcount, hextension, hpadding, hrest⟩ := hspec payload hpayload
      obtain ⟨hflags, hle⟩ := eq_flagByte hversion
      obtain ⟨hmarker, hlt⟩ := eq_markerByte second
      refine ⟨⟨⟨(second &&& 0x7F).toNat, hlt⟩, second &&& 0x80 != 0, sequenceNumber, timestamp, ssrc, csrcs, hcount ▸ hle,
        ext, payload, padding⟩, ?_, ?_⟩
      · rw [WirePacket.serialize, hrest]
        simp only [hcount, hextension, hpadding, ← hflags, ← hmarker]
      · simp only [WirePacket.parsed, UInt8.ofNat_toNat]
    · refine ⟨none, ?_, fun header h => nomatch h⟩
      rw [parseRtpHeader, if_neg hshort]
      exact if_pos hversion

/-- A packet without CSRCs, extension and padding. -/
theorem new_data_eq (payloadType channel : UInt8) (h : payloadType < 128) (rtpTimestamp : UInt32) (marker : Bool)
    (sequenceNumber : UInt16) (ssrc : UInt32) (payload : Bytes) :
    ∃ p : WirePacket,
      p.serialize = (RtpPacket.new payloadType channel rtpTimestamp marker sequenceNumber ssrc payload).data ∧
      p.parsed = ⟨payloadType, marker, sequenceNumber, rtpTimestamp, ssrc, payload⟩ := by
  have htable : ∀ (b : Bool) (n : Fin 128),
      markerByte b n = if b then 0x80 ||| (UInt8.ofNat n &&& 0x7F) else UInt8.ofNat n &&& 0x7F := by decide
  have htype : UInt8.ofNat payloadType.toNat = payloadType := UInt8.ofNat_toNat
  refine ⟨⟨⟨payloadType.toNat, h⟩, marker, sequenceNumber, rtpTimestamp, ssrc, [], Nat.zero_le _, none, payload, none⟩,
    ?_, ?_⟩
  · have hbyte := htable marker ⟨payloadType.toNat, h⟩
    simp only [htype] at hbyte
    have hflags : flagByte false false 0 = 0x80 := by decide
    simp [WirePacket.serialize, fixedHeader, hbyte, hflags, RtpPacket.new, wordBytes]
  · simp only [WirePacket.parsed, htype]

/-- The parser is exact: it accepts the packets of RFC 3550 and nothing else, returns their fields and payload, and
reads back what `RtpPacket::new` wrote. -/
theorem parseRtpHeader_exact :
    (∀ data header, parseRtpHeader data = .ok (some header) ↔ ∃ p : WirePacket, p.serialize = data ∧ p.parsed = header) ∧
    (∀ data, parseRtpHeader data ≠ .error .outOfBounds) ∧
    ∀ (payloadType channel : UInt8) (rtpTimestamp : UInt32) (marker : Bool) (sequenceNumber : UInt16) (ssrc : UInt32)
      (payload : Bytes), payloadType < 128 →
      parseRtpHeader (RtpPacket.new payloadType channel rtpTimestamp marker sequenceNumber ssrc payload).data =
        .ok (some ⟨payloadType, marker, sequenceNumber, rtpTimestamp, ssrc, payload⟩) := by
  refine ⟨fun data header => ⟨fun h => ?_, ?_⟩, fun data => ?_, ?_⟩
  · obtain ⟨r, hr, hsound⟩ := parseRtpHeader_sound data
    exact hsound header (Except.ok.inj (hr.symm.trans h))
  · rintro ⟨p, rfl, rfl⟩
    exact parseRtpHeader_serialize p
  · obtain ⟨r, hr, -⟩ := parseRtpHeader_sound data
    rw [hr]
    nofun
  · intro payloadType channel rtpTimestamp marker sequenceNumber ssrc payload hlt
    obtain ⟨p, hdata, hparsed⟩ := new_data_eq payloadType channel hlt rtpTimestamp marker sequenceNumber ssrc payload
    rw [← hdata, parseRtpHeader_serialize, hparsed]

end LivestreamRs.Media
