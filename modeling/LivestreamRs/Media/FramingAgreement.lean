import LivestreamRs.Media.FlvRelay

/-! # Framing of the NAL units and the header that announces it

A decoder reads the NAL units of a video tag by the last sequence header: length-prefixed after a decoder
configuration record, start codes otherwise. `FlvMux` goes by a flag instead, set by the records of H.264 and never
cleared. `framingAgrees_iff` says for which packets the two give the same bytes throughout.
-/
namespace LivestreamRs.Media
set_option autoImplicit false

/-! ## Headers, as packets and as tags -/

/-- Whether a video header carries a record; `none` for anything else. -/
def EncodedPacket.headerRecord (pkt : EncodedPacket) : Option Bool :=
  if pkt.isFlvVideo && pkt.isSequenceHeader then some (isAvcConfigurationRecord pkt.extradata) else none

def FlvTag.headerRecord (tag : FlvTag) : Option Bool :=
  match tag.videoPacket with
  | some (packetType, body) => if packetType = 0 then some (isAvcConfigurationRecord (some body)) else none
  | none => none

/-- Whether the last header of a list carries a record. -/
def lastRecord (headers : List Bool) : Bool := headers.getLast?.getD false

theorem headerRecord_process (mux : FlvMux) (pkt : EncodedPacket) :
    (mux.process pkt).2.filterMap FlvTag.headerRecord = pkt.headerRecord.toList := by
  cases hvideo : pkt.isFlvVideo with
  | false =>
    have htags := (process_not_flvVideo mux pkt hvideo).2
    rw [List.filterMap_eq_nil_iff.mpr fun tag htag => by rw [FlvTag.headerRecord, htags tag htag]]
    simp [EncodedPacket.headerRecord, hvideo]
  | true =>
    obtain ⟨tag, hprocess, htag⟩ := process_flvVideo mux pkt hvideo
    have hrecord : isAvcConfigurationRecord (some (pkt.extradata.getD [])) = isAvcConfigurationRecord pkt.extradata := by
      cases pkt.extradata <;> rfl
    rw [hprocess, EncodedPacket.headerRecord, hvideo]
    cases hheader : pkt.isSequenceHeader with
    | false => simp [FlvTag.headerRecord, htag, hheader]
    | true => simp [FlvTag.headerRecord, htag, hheader, buildAvcSequenceHeader, hrecord]

theorem headerRecord_processAll (mux : FlvMux) (pkts : List EncodedPacket) :
    (mux.processAll pkts).2.filterMap FlvTag.headerRecord = pkts.filterMap EncodedPacket.headerRecord := by
  induction pkts generalizing mux with
  | nil => rfl
  | cons pkt pkts ih =>
    simp only [FlvMux.processAll, List.filterMap_append, headerRecord_process, ih, List.filterMap_cons]
    cases pkt.headerRecord <;> rfl

/-- The flag after some packets: one of them was the record of an H.264 stream. -/
theorem avccFraming_processAll (mux : FlvMux) (pkts : List EncodedPacket) :
    (mux.processAll pkts).1.avccFraming =
      (mux.avccFraming || pkts.any fun pkt => pkt.isFlvVideo && pkt.setsFraming) := by
  induction pkts generalizing mux with
  | nil => simp [FlvMux.processAll]
  | cons pkt pkts ih =>
    simp only [FlvMux.processAll, ih, List.any_cons]
    cases hvideo : pkt.isFlvVideo with
    | false => rw [(process_not_flvVideo mux pkt hvideo).1, Bool.false_and, Bool.false_or]
    | true =>
      obtain ⟨tag, hprocess, -⟩ := process_flvVideo mux pkt hvideo
      rw [hprocess, Bool.true_and, Bool.or_assoc]

/-! ## Agreement -/

/-- The bytes of an access unit: length-prefixed after a record, as they are otherwise. -/
def framed (record : Bool) (data : Bytes) : Bytes := FlvMux.annexBToAvcc { avccFraming := record } data

/-- Each tag with NAL units has them in the framing that the last header tag before it announces. -/
def FramingAgrees (pkts : List EncodedPacket) : Prop :=
  ∀ before pkt after, pkts = before ++ pkt :: after → pkt.isFlvVideo = true → pkt.isSequenceHeader = false →
    let (mux, tags) := FlvMux.processAll {} before
    ∃ tag, (mux.process pkt).2 = [tag] ∧
      tag.videoPacket = some (1, framed (lastRecord (tags.filterMap FlvTag.headerRecord)) pkt.data.asBytes)

/-- An H.264 record was seen exactly if the last header is a record, or the access unit is the same either way. -/
def FlagMatches (before : List EncodedPacket) (pkt : EncodedPacket) : Prop :=
  (before.any fun pkt => pkt.isFlvVideo && pkt.setsFraming) = lastRecord (before.filterMap EncodedPacket.headerRecord) ∨
    framed true pkt.data.asBytes = framed false pkt.data.asBytes

theorem framed_eq_iff (a b : Bool) (data : Bytes) :
    framed a data = framed b data ↔ a = b ∨ framed true data = framed false data := by
  cases a <;> cases b <;> simp [eq_comm]

theorem framingAgrees_iff (pkts : List EncodedPacket) :
    FramingAgrees pkts ↔ ∀ before pkt after, pkts = before ++ pkt :: after →
      pkt.isFlvVideo = true → pkt.isSequenceHeader = false → FlagMatches before pkt := by
  refine forall₃_congr fun before pkt after => forall₃_congr fun _ hvideo hmedia => ?_
  have hheaders := headerRecord_processAll {} before
  have hflag := avccFraming_processAll {} before
  generalize FlvMux.processAll {} before = result at hheaders hflag ⊢
  obtain ⟨mux, tags⟩ := result
  obtain ⟨tag, hprocess, htag⟩ := process_flvVideo mux pkt hvideo
  have hmux : mux.annexBToAvcc pkt.data.asBytes = framed mux.avccFraming pkt.data.asBytes := rfl
  simp only [hmedia, Bool.false_eq_true, if_false, hmux, Bool.false_or] at htag hflag
  dsimp only at hheaders
  simp only [hprocess, hheaders, List.cons.injEq, and_true, exists_eq_left', htag, hflag, Option.some.injEq,
    Prod.mk.injEq, true_and]
  exact framed_eq_iff _ _ _

/-- A video message of a publisher, with a zero composition time. -/
def videoMessage (firstByte packetType : UInt8) (body : Bytes) : RtmpRawFrame where
  data := firstByte :: packetType :: 0 :: 0 :: 0 :: body
  timestamp := 0
  isVideo := true
  isAudio := false
  isScriptData := false

/-- The packet the source makes of it. -/
def videoPacketOf (codec : Codec) (isSequenceHeader : Bool) (data : Bytes) : EncodedPacket where
  codec := codec
  streamIndex := 0
  data := .annexB data
  ptsMs := some 0
  dtsMs := some 0
  isKeyframe := true
  isSequenceHeader := isSequenceHeader
  isScriptData := false
  extradata := if isSequenceHeader then some data else none

/-- The units after an H.265 record keep their start codes; the units after a header without a record that replaced
a record are still length-prefixed. -/
theorem framing_disagrees :
    [videoMessage 0x1c 0 [1, 2], videoMessage 0x1c 1 [0, 0, 0, 2, 0x26, 1]].filterMap convertFrame =
      [videoPacketOf .h265 true [1, 2], videoPacketOf .h265 false [0, 0, 0, 1, 0x26, 1]] ∧
    ¬ FramingAgrees [videoPacketOf .h265 true [1, 2], videoPacketOf .h265 false [0, 0, 0, 1, 0x26, 1]] ∧
    ¬ FramingAgrees [videoPacketOf .h264 true [1, 0x64], videoPacketOf .h264 true [0x67, 0x64],
      videoPacketOf .h264 false [0, 0, 0, 1, 0x65, 1]] := by
  refine ⟨?_, fun h => ?_, fun h => ?_⟩
  · have hunits : avccToAnnexB [0, 0, 0, 2, 0x26, 1] = [0, 0, 0, 1, 0x26, 1] :=
      avccToAnnexB_lengthPrefixed [[0x26, 1]] (by decide)
    have hmedia : convertFrame (videoMessage 0x1c 1 [0, 0, 0, 2, 0x26, 1]) =
        some (videoPacketOf .h265 false [0, 0, 0, 1, 0x26, 1]) := by
      rw [← hunits]
      rfl
    have hheader : convertFrame (videoMessage 0x1c 0 [1, 2]) = some (videoPacketOf .h265 true [1, 2]) := by decide
    rw [List.filterMap_cons_some hheader, List.filterMap_cons_some hmedia, List.filterMap_nil]
  · obtain ⟨tag, htag, hbody⟩ := h [_] _ [] rfl rfl rfl
    obtain rfl := List.singleton_inj.mp htag
    exact absurd hbody (by decide)
  · obtain ⟨tag, htag, hbody⟩ := h [_, _] _ [] rfl rfl rfl
    obtain rfl := List.singleton_inj.mp htag
    exact absurd hbody (by decide)

end LivestreamRs.Media
