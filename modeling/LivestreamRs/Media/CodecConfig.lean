import LivestreamRs.Media.FlvMux
import LivestreamRs.Media.RtmpSource

/-! # Codec configuration in sequence headers

The producers of sequence headers put the configuration of the codec into `extradata`, into `data`, or into both. Its
two consumers look for it in different places: the deferred start of the HLS branch takes `extradata` or else `data`
(`codec_params_from_sequence_header`, `livestream-pipeline/src/factory.rs`), the FLV muxer `extradata` for video and
`data` for audio.
-/
namespace LivestreamRs.Media
open BigEndian
set_option autoImplicit false

/-! ## The HLS branch -/

/-- A number of parameter sets, each with its 16-bit length, and what follows them; `none` if the record ends
before. -/
def takeParameterSets : ℕ → Bytes → Option (Bytes × Bytes)
  | 0, rest => some ([], rest)
  | n + 1, b0 :: b1 :: rest =>
    let len := fromBe [b0, b1]
    if rest.length < len then none
    else (takeParameterSets n (rest.drop len)).map fun (out, rest') => (rest.take len ++ out, rest')
  | _ + 1, _ => none

/-- The parameter sets of an `AVCDecoderConfigurationRecord` one after the other; what does not parse as one, and
what belongs to another codec, is returned as it is. -/
def hlsExtradata (codec : Codec) (extradata : Bytes) : Bytes :=
  if codec ≠ .h264 ∨ extradata.length < 7 then extradata
  else
    let numSps := (extradata.getD 5 0 &&& 0x1F).toNat
    match takeParameterSets numSps (extradata.drop 6) with
    | none => extradata
    | some (sps, []) => sps
    | some (sps, numPps :: rest) =>
      match takeParameterSets numPps.toNat rest with
      | none => extradata
      | some (pps, _) => sps ++ pps

/-- The bytes `codec_params_from_sequence_header` finds the configuration in. -/
def configurationBytes (pkt : EncodedPacket) : Option Bytes :=
  match pkt.extradata, pkt.data.asBytes with
  | some (b :: ext), _ => some (b :: ext)
  | _, b :: data => some (b :: data)
  | _, [] => none

def codecParamsFromSequenceHeader (pkt : EncodedPacket) : Option (MediaType × CodecParams) :=
  (configurationBytes pkt).map fun extradata =>
    (pkt.codec.mediaType,
      { codec := pkt.codec
        mediaType := pkt.codec.mediaType
        clockRate := 90000
        extradata := some (hlsExtradata pkt.codec extradata) })

/-! ## The producers

The RTMP source is `convertFrame`. -/

/-- `EncodedPacket::new_avc_sequence_header`. -/
def EncodedPacket.avcSequenceHeader (sps pps : Bytes) (streamIndex : ℕ) : EncodedPacket where
  codec := .h264
  streamIndex := streamIndex
  data := .annexB []
  ptsMs := none
  dtsMs := none
  isKeyframe := true
  isSequenceHeader := true
  isScriptData := false
  extradata := some (sps ++ pps)

/-- `EncodedPacket::new_aac_sequence_header`. -/
def EncodedPacket.aacSequenceHeader (asc : Bytes) (streamIndex : ℕ) : EncodedPacket where
  codec := .aac
  streamIndex := streamIndex
  data := .annexB []
  ptsMs := none
  dtsMs := none
  isKeyframe := false
  isSequenceHeader := true
  isScriptData := false
  extradata := some asc

/-- A stream of the RTP demuxer: its codec, if FFmpeg has codec parameters for it, and their extradata. -/
structure RtpStream where
  codec : Option Codec
  codecExtradata : Bytes
  deriving DecidableEq, Repr

/-- `RtpDemuxContext::extradata`. -/
def RtpStream.extradata (stream : RtpStream) : Option Bytes :=
  if stream.codec.isSome ∧ 0 < stream.codecExtradata.length then some stream.codecExtradata else none

/-- The packet `RtpDemuxProcessor::process` makes for a stream when it is called first. -/
def rtpSequenceHeader (stream : RtpStream) (si : ℕ) : Option EncodedPacket :=
  match stream.codec, stream.extradata with
  | some codec, some extradata =>
    some
      { codec := codec
        streamIndex := si
        data := .annexB []
        ptsMs := none
        dtsMs := none
        isKeyframe := true
        isSequenceHeader := true
        isScriptData := false
        extradata := some extradata }
  | _, _ => none

def rtpSequenceHeaders (streams : List RtpStream) : List EncodedPacket :=
  streams.zipIdx.filterMap fun (stream, si) => rtpSequenceHeader stream si

/-! ## The FLV muxer -/

/-- The body of a tag after the codec header: 5 bytes for video, 2 for audio. -/
def FlvTag.codecBody : FlvTag → Option Bytes
  | .video _ (_ :: _ :: _ :: _ :: _ :: body) _ => some body
  | .audio _ (_ :: _ :: body) => some body
  | _ => none

theorem FlvTag.codecBody_of_videoPacket {tag : FlvTag} {packetType : UInt8} {body : Bytes}
    (h : tag.videoPacket = some (packetType, body)) : tag.codecBody = some body := by
  unfold FlvTag.videoPacket at h
  split at h
  · obtain ⟨-, rfl⟩ := Prod.mk.inj (Option.some.inj h)
    rfl
  · cases h

/-- `process` emits one tag, with the given bytes after the codec header. -/
def EmitsBody (mux : FlvMux) (pkt : EncodedPacket) (body : Bytes) : Prop :=
  ∃ tag, (mux.process pkt).2 = [tag] ∧ tag.codecBody = some body

theorem emitsBody_unique {mux : FlvMux} {pkt : EncodedPacket} {body body' : Bytes} (h : EmitsBody mux pkt body) :
    EmitsBody mux pkt body' ↔ body' = body := by
  refine ⟨fun h' => ?_, fun heq => heq ▸ h⟩
  obtain ⟨tag, htag, hbody⟩ := h
  obtain ⟨tag', htag', hbody'⟩ := h'
  obtain rfl := List.singleton_inj.mp (htag.symm.trans htag')
  exact Option.some.inj (hbody'.symm.trans hbody)

theorem emitsBody_videoHeader (mux : FlvMux) {pkt : EncodedPacket} (hvideo : pkt.isFlvVideo = true)
    (hheader : pkt.isSequenceHeader = true) : EmitsBody mux pkt (pkt.extradata.getD []) := by
  obtain ⟨tag, hprocess, htag⟩ := process_flvVideo mux pkt hvideo
  rw [hheader, if_pos rfl] at htag
  exact ⟨tag, by rw [hprocess], FlvTag.codecBody_of_videoPacket htag⟩

theorem emitsBody_aac (mux : FlvMux) {pkt : EncodedPacket} (hcodec : pkt.codec = .aac) :
    EmitsBody mux pkt pkt.data.asBytes := by
  unfold EmitsBody FlvMux.process
  rw [hcodec]
  exact ⟨_, rfl, rfl⟩

/-! ## Agreement -/

/-- Where the configuration has to be for the muxer to find it: for video in `extradata`, for audio in `data` unless
`extradata` has nothing else. -/
def ConfigurationInPlace (pkt : EncodedPacket) : Prop :=
  if pkt.codec = .aac then pkt.extradata.getD [] = [] ∨ pkt.extradata.getD [] = pkt.data.asBytes
  else pkt.extradata.getD [] ≠ []

theorem configurationBytes_eq {pkt : EncodedPacket} {c : Bytes} (hc : configurationBytes pkt = some c) :
    c = (if pkt.extradata.getD [] = [] then pkt.data.asBytes else pkt.extradata.getD []) ∧ c ≠ [] := by
  unfold configurationBytes at hc
  split at hc
  · next b ext _ hext =>
    obtain rfl := Option.some.inj hc
    simp [hext]
  · next hdata hext =>
    obtain rfl := Option.some.inj hc
    cases hx : pkt.extradata with
    | none => simp [hdata]
    | some ext =>
      cases ext with
      | nil => simp [hdata]
      | cons b ext => exact absurd hx (hext b ext)
  · cases hc

theorem convertVideoFrame_header {data : Bytes} {ptsMs : ℤ} {pkt : EncodedPacket}
    (h : convertVideoFrame data ptsMs = some pkt) (hheader : pkt.isSequenceHeader = true) :
    pkt.codec ≠ .aac ∧ pkt.extradata.getD [] = pkt.data.asBytes := by
  unfold convertVideoFrame at h
  split at h
  · simp only at h
    split at h
    · cases h
    · next codec hcodec =>
      obtain rfl := Option.some.inj h
      constructor
      · rintro rfl
        split at hcodec
        · cases hcodec
        · split at hcodec <;> cases hcodec
      · simp only [beq_iff_eq] at hheader
        simp only [hheader, NalData.asBytes, beq_self_eq_true, Bool.not_true, Bool.false_and, Bool.true_and,
          Bool.false_eq_true, if_false]
        generalize (if _ > 5 then _ else _ : Bytes) = body
        cases body <;> rfl
  · cases h

/-- The RTMP source gives the configuration of video twice, and that of audio in `data`. -/
theorem configurationInPlace_convertFrame {frame : RtmpRawFrame} {pkt : EncodedPacket} {c : Bytes}
    (h : convertFrame frame = some pkt) (hheader : pkt.isSequenceHeader = true) (hc : configurationBytes pkt = some c) :
    ConfigurationInPlace pkt := by
  obtain ⟨rfl, hne⟩ := configurationBytes_eq hc
  unfold convertFrame at h
  split at h
  · cases h
  simp only at h
  split at h
  · obtain ⟨hvideo, hsame⟩ := convertVideoFrame_header h hheader
    rw [ConfigurationInPlace, if_neg hvideo]
    intro hempty
    rw [if_pos hempty, ← hsame] at hne
    exact hne hempty
  · split at h
    · obtain rfl := Option.some.inj h
      exact .inl rfl
    · cases h

/-- The RTP demuxer gives it in `extradata` only, which is out of place for audio. -/
theorem configurationInPlace_rtp_iff {streams : List RtpStream} {pkt : EncodedPacket}
    (h : pkt ∈ rtpSequenceHeaders streams) : ConfigurationInPlace pkt ↔ pkt.codec ≠ .aac := by
  obtain ⟨⟨stream, si⟩, -, hstream⟩ := List.mem_filterMap.mp h
  simp only [rtpSequenceHeader] at hstream
  split at hstream
  · next codec extradata hcodec hext =>
    obtain rfl := Option.some.inj hstream
    have hne : extradata ≠ [] := by
      unfold RtpStream.extradata at hext
      split at hext
      · next hpos =>
        obtain rfl := Option.some.inj hext
        exact List.length_pos_iff.mp hpos.2
      · cases hext
    by_cases haac : codec = .aac
    · simp [ConfigurationInPlace, haac, hne, NalData.asBytes]
    · simp [ConfigurationInPlace, haac, hne]
  · cases hstream

/-- So do the constructors of sequence headers: right for video, and wrong for audio. -/
theorem configurationInPlace_avcSequenceHeader (sps pps : Bytes) (i : ℕ) :
    ConfigurationInPlace (.avcSequenceHeader sps pps i) ↔ sps ++ pps ≠ [] := Iff.rfl

theorem configurationInPlace_aacSequenceHeader (asc : Bytes) (i : ℕ) :
    ConfigurationInPlace (.aacSequenceHeader asc i) ↔ asc = [] := by
  simp [ConfigurationInPlace, EncodedPacket.aacSequenceHeader, NalData.asBytes]

/-- The tag of a sequence header carries the bytes the HLS branch configures itself with exactly when they are where
the muxer looks. -/
theorem configuration_agrees_iff (mux : FlvMux) (pkt : EncodedPacket) (c : Bytes)
    (hheader : pkt.isSequenceHeader = true) (hcodec : pkt.codec = .h264 ∨ pkt.codec = .h265 ∨ pkt.codec = .aac)
    (hc : configurationBytes pkt = some c) : EmitsBody mux pkt c ↔ ConfigurationInPlace pkt := by
  obtain ⟨rfl, hne⟩ := configurationBytes_eq hc
  by_cases haac : pkt.codec = .aac
  · rw [emitsBody_unique (emitsBody_aac mux haac), ConfigurationInPlace, if_pos haac]
    by_cases hext : pkt.extradata.getD [] = []
    · simp [hext]
    · simp [hext]
  · have hvideo : pkt.isFlvVideo = true := by
      rcases hcodec with h | h | h
      · simp [EncodedPacket.isFlvVideo, h]
      · simp [EncodedPacket.isFlvVideo, h]
      · exact absurd h haac
    rw [emitsBody_unique (emitsBody_videoHeader mux hvideo hheader), ConfigurationInPlace, if_neg haac]
    by_cases hext : pkt.extradata.getD [] = []
    · simp only [hext, if_true] at hne ⊢
      simp [hne]
    · simp [hext]

/-- The header of an RTMP publisher's audio. -/
theorem configuration_agrees_rtmp_audio :
    EmitsBody {} ⟨.aac, 0, .annexB [0x12, 0x10], some 0, none, false, true, false, none⟩ [0x12, 0x10] :=
  (configuration_agrees_iff {} _ _ rfl (.inr (.inr rfl)) rfl).mpr (.inl rfl)

/-- An AAC stream of the RTP demuxer: HLS is configured with its `AudioSpecificConfig`, the FLV header is empty. A
video header with the configuration in `data` alone is empty as well. -/
theorem configuration_lost :
    (∃ pkt, rtpSequenceHeaders [⟨some .aac, [0x12, 0x10]⟩] = [pkt] ∧ configurationBytes pkt = some [0x12, 0x10] ∧
      EmitsBody {} pkt [] ∧ ¬ EmitsBody {} pkt [0x12, 0x10]) ∧
    ∃ pkt, pkt.codec = .h264 ∧ pkt.isSequenceHeader = true ∧ configurationBytes pkt = some [0x67] ∧
      EmitsBody {} pkt [] ∧ ¬ EmitsBody {} pkt [0x67] := by
  have haudio : EmitsBody {} ⟨.aac, 0, .annexB [], none, none, true, true, false, some [0x12, 0x10]⟩ [] :=
    emitsBody_aac _ rfl
  have hvideo : EmitsBody {} ⟨.h264, 0, .annexB [0x67], none, none, true, true, false, none⟩ [] :=
    emitsBody_videoHeader _ rfl rfl
  refine ⟨⟨_, by decide, by decide, haudio, ?_⟩, _, rfl, rfl, by decide, hvideo, ?_⟩
  · rw [emitsBody_unique haudio]
    decide
  · rw [emitsBody_unique hvideo]
    decide

end LivestreamRs.Media
