import LivestreamRs.Media.AvcRecord

/-! # The sequence header of the transcoder

`maybe_emit_sequence_header` and `extract_sps_pps` (`livestream-pipeline/src/processor/transcode.rs`). The first batch
with a keyframe gets a configuration record made of the first parameter sets in it; `hls_extradata` takes it apart
again. `split_annexb` is written out in that file as well, in the words of the muxer's.
-/
namespace LivestreamRs.Media
open BigEndian
set_option autoImplicit false

/-! ## The first parameter sets of a keyframe -/

/-- `nal[0] & 0x1F` -/
def nalType : Bytes → Option UInt8
  | [] => none
  | b :: _ => some (b &&& 0x1F)

def isSps (nal : Bytes) : Bool := nalType nal == some 7

def isPps (nal : Bytes) : Bool := nalType nal == some 8

/-- The loop of `extract_sps_pps`, which ends once both are found. -/
def scanParameterSets : List Bytes → Option Bytes → Option Bytes → Option Bytes × Option Bytes
  | [], sps, pps => (sps, pps)
  | nal :: nals, sps, pps =>
    if nal.isEmpty then scanParameterSets nals sps pps
    else
      let sps' := if isSps nal && sps.isNone then some nal else sps
      let pps' := if isPps nal && pps.isNone then some nal else pps
      if sps'.isSome && pps'.isSome then (sps', pps') else scanParameterSets nals sps' pps'

def extractSpsPps (annexb : Bytes) : Option (Bytes × Bytes) :=
  match scanParameterSets (splitAnnexb annexb) none none with
  | (some sps, some pps) => if 4 ≤ sps.length then some (sps, pps) else none
  | _ => none

theorem or_find?_cons (p : Bytes → Bool) (nal : Bytes) (nals : List Bytes) (found : Option Bytes) :
    (if p nal && found.isNone then some nal else found).or (nals.find? p) = found.or ((nal :: nals).find? p) := by
  cases found with
  | some _ => simp
  | none => cases hp : p nal <;> simp [hp]

theorem scanParameterSets_eq (nals : List Bytes) (sps pps : Option Bytes) :
    scanParameterSets nals sps pps = (sps.or (nals.find? isSps), pps.or (nals.find? isPps)) := by
  induction nals generalizing sps pps with
  | nil => simp [scanParameterSets]
  | cons nal nals ih =>
    rw [scanParameterSets]
    cases hempty : nal.isEmpty with
    | true =>
      rw [List.isEmpty_iff.mp hempty, if_pos rfl, ih]
      rfl
    | false =>
      simp only [Bool.false_eq_true, if_false, ih]
      rw [← or_find?_cons isSps, ← or_find?_cons isPps]
      generalize (if isSps nal && sps.isNone then some nal else sps) = sps'
      generalize (if isPps nal && pps.isNone then some nal else pps) = pps'
      -- the loop may stop early, when neither search can change the result
      split
      · next hboth =>
        obtain ⟨hsps, hpps⟩ := Bool.and_eq_true_iff.mp hboth
        rw [Option.or_of_isSome hsps, Option.or_of_isSome hpps]
      · rfl

theorem extractSpsPps_eq_some_iff {annexb sps pps : Bytes} :
    extractSpsPps annexb = some (sps, pps) ↔
      (splitAnnexb annexb).find? isSps = some sps ∧ (splitAnnexb annexb).find? isPps = some pps ∧ 4 ≤ sps.length := by
  rw [extractSpsPps, scanParameterSets_eq, Option.none_or, Option.none_or]
  cases hsps : (splitAnnexb annexb).find? isSps with
  | none => simp
  | some sps' =>
    cases hpps : (splitAnnexb annexb).find? isPps with
    | none => simp
    | some pps' =>
      simp only [Option.ite_none_right_eq_some, Option.some.injEq, Prod.mk.injEq]
      constructor
      · rintro ⟨hlen, rfl, rfl⟩
        exact ⟨rfl, rfl, hlen⟩
      · rintro ⟨rfl, rfl, hlen⟩
        exact ⟨hlen, rfl, rfl⟩

/-! ## The record -/

def avccRecord (sps pps : Bytes) : Bytes :=
  0x01 :: (sps.drop 1).take 3 ++ [0xFF, 0xE1] ++ toBe 2 (sps.length % 2 ^ 16) ++ sps ++ [0x01] ++
    toBe 2 (pps.length % 2 ^ 16) ++ pps

def headerPacket (sps pps : Bytes) : EncodedPacket where
  codec := .h264
  streamIndex := 0
  data := .annexB []
  ptsMs := none
  dtsMs := none
  isKeyframe := true
  isSequenceHeader := true
  isScriptData := false
  extradata := some (avccRecord sps pps)

def headerParams (sps pps : Bytes) : CodecParams where
  codec := .h264
  mediaType := .video
  clockRate := 90000
  extradata := some (sps ++ pps)

/-- `emitted_seq_header` and `output_params` of the processor. -/
structure HeaderState where
  emittedSeqHeader : Bool := false
  outputParams : Option (List CodecParams) := none
  deriving DecidableEq

def EncodedPacket.isMediaKeyframe (pkt : EncodedPacket) : Bool := pkt.isKeyframe && !pkt.isSequenceHeader

/-- The parameters are kept in a `OnceLock`, and a keyframe without parameter sets ends the search as well. -/
def maybeEmitSequenceHeader (s : HeaderState) (out : List EncodedPacket) : HeaderState × List EncodedPacket :=
  if s.emittedSeqHeader then (s, out)
  else
    match out.find? EncodedPacket.isMediaKeyframe with
    | none => (s, out)
    | some keyframe =>
      match extractSpsPps keyframe.data.asBytes with
      | some (sps, pps) =>
        ({ emittedSeqHeader := true, outputParams := s.outputParams.or (some [headerParams sps pps]) },
          headerPacket sps pps :: out)
      | none => ({ s with emittedSeqHeader := true }, out)

def emitAll : HeaderState → List (List EncodedPacket) → HeaderState × List (List EncodedPacket)
  | s, [] => (s, [])
  | s, out :: batches =>
    let (s, out) := maybeEmitSequenceHeader s out
    let (s, outs) := emitAll s batches
    (s, out :: outs)

/-! ## The batches -/

theorem emitAll_emitted {s : HeaderState} (h : s.emittedSeqHeader = true) (batches : List (List EncodedPacket)) :
    emitAll s batches = (s, batches) := by
  induction batches with
  | nil => rfl
  | cons out batches ih =>
    have hstep : maybeEmitSequenceHeader s out = (s, out) := if_pos h
    rw [emitAll, hstep]
    simp only [ih]

/-- The first batch with a keyframe, and its first keyframe. -/
structure FirstKeyframe (batches pre : List (List EncodedPacket)) (batch : List EncodedPacket)
    (post : List (List EncodedPacket)) (keyframe : EncodedPacket) : Prop where
  split : batches = pre ++ batch :: post
  before : ∀ out ∈ pre, out.find? EncodedPacket.isMediaKeyframe = none
  found : batch.find? EncodedPacket.isMediaKeyframe = some keyframe

theorem emitAll_before {pre : List (List EncodedPacket)}
    (h : ∀ out ∈ pre, out.find? EncodedPacket.isMediaKeyframe = none) (rest : List (List EncodedPacket)) :
    emitAll {} (pre ++ rest) = ((emitAll {} rest).1, pre ++ (emitAll {} rest).2) := by
  induction pre with
  | nil => rfl
  | cons out pre ih =>
    obtain ⟨hout, hpre⟩ := List.forall_mem_cons.mp h
    have hstep : maybeEmitSequenceHeader {} out = ({}, out) := by
      simp only [maybeEmitSequenceHeader, hout, Bool.false_eq_true, if_false]
    rw [List.cons_append, emitAll, hstep]
    simp only [ih hpre]
    rfl

theorem exists_firstKeyframe (batches : List (List EncodedPacket)) :
    (∀ out ∈ batches, out.find? EncodedPacket.isMediaKeyframe = none) ∨
      ∃ pre batch post keyframe, FirstKeyframe batches pre batch post keyframe := by
  induction batches with
  | nil => exact .inl (by simp)
  | cons out batches ih =>
    cases hout : out.find? EncodedPacket.isMediaKeyframe with
    | some keyframe => exact .inr ⟨[], out, batches, keyframe, rfl, by simp, hout⟩
    | none =>
      obtain hnone | ⟨pre, batch, post, keyframe, rfl, hpre, hfound⟩ := ih
      · exact .inl (List.forall_mem_cons.mpr ⟨hout, hnone⟩)
      · exact .inr ⟨out :: pre, batch, post, keyframe, rfl, List.forall_mem_cons.mpr ⟨hout, hpre⟩, hfound⟩

theorem FirstKeyframe.emitAll_eq {batches pre post : List (List EncodedPacket)} {batch : List EncodedPacket}
    {keyframe : EncodedPacket} (h : FirstKeyframe batches pre batch post keyframe) :
    emitAll {} batches =
      match extractSpsPps keyframe.data.asBytes with
      | some (sps, pps) => (⟨true, some [headerParams sps pps]⟩, pre ++ (headerPacket sps pps :: batch) :: post)
      | none => (⟨true, none⟩, batches) := by
  obtain ⟨rfl, hpre, hfound⟩ := h
  cases hsets : extractSpsPps keyframe.data.asBytes with
  | none =>
    have hstep : maybeEmitSequenceHeader {} batch = (⟨true, none⟩, batch) := by
      simp only [maybeEmitSequenceHeader, hfound, hsets, Bool.false_eq_true, if_false]
    rw [emitAll_before hpre, emitAll, hstep]
    simp only [emitAll_emitted]
  | some sets =>
    obtain ⟨sps, pps⟩ := sets
    have hstep : maybeEmitSequenceHeader {} batch =
        (⟨true, some [headerParams sps pps]⟩, headerPacket sps pps :: batch) := by
      simp only [maybeEmitSequenceHeader, hfound, hsets, Bool.false_eq_true, if_false, Option.none_or]
    rw [emitAll_before hpre, emitAll, hstep]
    simp only [emitAll_emitted]

/-! ## The round trip -/

theorem avccRecord_eq (b₀ b₁ b₂ b₃ : UInt8) (sps pps : Bytes) :
    avccRecord (b₀ :: b₁ :: b₂ :: b₃ :: sps) pps =
      [0x01, b₁, b₂, b₃, 0xFF, 0xE1] ++ (toBe 2 ((b₀ :: b₁ :: b₂ :: b₃ :: sps).length % 2 ^ 16) ++
        ((b₀ :: b₁ :: b₂ :: b₃ :: sps) ++ (0x01 :: (toBe 2 (pps.length % 2 ^ 16) ++ pps)))) := by
  simp [avccRecord]

theorem length_avccRecord {sps : Bytes} (h : 4 ≤ sps.length) (pps : Bytes) :
    (avccRecord sps pps).length = 11 + sps.length + pps.length := by
  simp only [avccRecord, List.length_append, List.length_cons, List.length_take, List.length_drop, toBe_length,
    List.length_nil]
  omega

theorem hlsExtradata_avccRecord {sps pps : Bytes} (h : 4 ≤ sps.length) (hsps : sps.length < 2 ^ 16)
    (hpps : pps.length < 2 ^ 16) : hlsExtradata .h264 (avccRecord sps pps) = sps ++ pps := by
  match sps, h with
  | b₀ :: b₁ :: b₂ :: b₃ :: sps, _ =>
    let record : AvcRecord :=
      { version := 0x01, profile := b₁, compatibility := b₂, level := b₃, lengthSize := 0xFF, spsCount := 0xE1
        sps := [b₀ :: b₁ :: b₂ :: b₃ :: sps], counted := rfl, sps_short := by simpa using hsps
        pps := [pps], extension := [], pps_count := by simp, pps_short := by simpa using hpps }
    have hbytes : avccRecord (b₀ :: b₁ :: b₂ :: b₃ :: sps) pps = record.bytes := by
      rw [avccRecord_eq, Nat.mod_eq_of_lt hsps, Nat.mod_eq_of_lt hpps]
      simp [AvcRecord.bytes, AvcRecord.rest, AvcRecordStart.bytes, AvcRecordStart.head, parameterSets, record]
    rw [hbytes, hlsExtradata_record]
    simp [record]

/-- The sequence parameter set that a reader of the record sees is cut to what its length says. -/
theorem start_of_avccRecord {sps pps rest : Bytes} (h : 4 ≤ sps.length) {r : AvcRecordStart}
    (heq : avccRecord sps pps = r.bytes ++ rest) :
    ∃ nal, r.sps = [nal] ∧ nal.length = sps.length % 2 ^ 16 := by
  match sps, h with
  | b₀ :: b₁ :: b₂ :: b₃ :: sps, _ =>
    rw [avccRecord_eq] at heq
    have hcount : (0xE1 : UInt8) = r.spsCount := congrArg (fun x : Bytes => x.getD 5 0) heq
    have hone : r.sps.length = 1 := by
      rw [← r.counted, ← hcount]
      rfl
    obtain ⟨nal, hnal⟩ := List.length_eq_one_iff.mp hone
    refine ⟨nal, hnal, ?_⟩
    have hshort : nal.length < 2 ^ 16 := r.sps_short nal (by simp [hnal])
    have hword := congrArg (fun x : Bytes => (x.drop 6).take 2) heq
    have hleft : ((toBe 2 ((b₀ :: b₁ :: b₂ :: b₃ :: sps).length % 2 ^ 16) ++
        ((b₀ :: b₁ :: b₂ :: b₃ :: sps) ++ (0x01 :: (toBe 2 (pps.length % 2 ^ 16) ++ pps))))).take 2 =
          toBe 2 ((b₀ :: b₁ :: b₂ :: b₃ :: sps).length % 2 ^ 16) := List.take_left' (toBe_length _ _)
    have hright : (parameterSets r.sps ++ rest).take 2 = toBe 2 nal.length := by
      rw [hnal, parameterSets_cons, List.append_assoc]
      exact List.take_left' (toBe_length _ _)
    have hsame : toBe 2 ((b₀ :: b₁ :: b₂ :: b₃ :: sps).length % 2 ^ 16) = toBe 2 nal.length :=
      hleft.symm.trans (hword.trans hright)
    exact ((toBe_inj (Nat.mod_lt _ (by norm_num)) hshort).mp hsame).symm

/-- The record gives its parameter sets back exactly when their lengths fit its 16-bit fields. -/
theorem hlsExtradata_avccRecord_iff {sps pps : Bytes} (h : 4 ≤ sps.length) :
    hlsExtradata .h264 (avccRecord sps pps) = sps ++ pps ↔ sps.length < 2 ^ 16 ∧ pps.length < 2 ^ 16 := by
  refine ⟨fun heq => ?_, fun hfit => hlsExtradata_avccRecord h hfit.1 hfit.2⟩
  have hlength := length_avccRecord h pps
  have hne : hlsExtradata .h264 (avccRecord sps pps) ≠ avccRecord sps pps := by
    intro hsame
    have hlen := congrArg List.length (heq.symm.trans hsame)
    rw [List.length_append, hlength] at hlen
    omega
  obtain ⟨r, hr⟩ | ⟨r, hsps, hr⟩ := record_of_hlsExtradata_ne hne
  · obtain ⟨nal, hnal, hcut⟩ := start_of_avccRecord h (hr.trans rfl : avccRecord sps pps = _ ++ r.rest)
    have hout := congrArg List.length heq
    have hshort : ∀ nal ∈ r.pps, nal.length < 2 ^ 16 := r.pps_short
    rw [hr, hlsExtradata_record, hnal] at hout
    rw [hr, r.length_bytes, hnal] at hlength
    simp only [List.flatten_singleton, List.length_append, List.length_singleton] at hout hlength
    match hpps : r.pps with
    | [] =>
      simp only [hpps, List.flatten_nil, List.length_nil] at hout hlength
      omega
    | [nal'] =>
      have hnal' := hshort nal' (by simp [hpps])
      simp only [hpps, List.flatten_singleton, List.length_singleton] at hout hlength
      omega
    | _ :: _ :: more =>
      simp only [hpps, List.length_cons] at hout hlength
      omega
  · obtain ⟨nal, hnal, -⟩ := start_of_avccRecord h (hr.trans (List.append_nil _).symm)
    have hout := congrArg List.length heq
    rw [hr, hlsExtradata_cut r hsps] at hout
    rw [hr, r.length_bytes] at hlength
    simp only [hnal, List.flatten_singleton, List.length_append, List.length_singleton] at hout hlength
    omega

/-- The first parameter sets have lengths that a record can hold. -/
def FirstParameterSetsFit (nals : List Bytes) : Prop :=
  ∃ sps pps, nals.find? isSps = some sps ∧ nals.find? isPps = some pps ∧ 4 ≤ sps.length ∧ sps.length ≤ 65535 ∧
    pps.length ≤ 65535

/-- A header with the first parameter sets stands before the batch, and they are recorded. -/
def RoundTrips (batches pre : List (List EncodedPacket)) (batch : List EncodedPacket) (post : List (List EncodedPacket))
    (keyframe : EncodedPacket) : Prop :=
  ∃ header sps pps, (emitAll {} batches).2 = pre ++ (header :: batch) :: post ∧ header.isSequenceHeader = true ∧
    (splitAnnexb keyframe.data.asBytes).find? isSps = some sps ∧
    (splitAnnexb keyframe.data.asBytes).find? isPps = some pps ∧
    header.extradata.map (hlsExtradata .h264) = some (sps ++ pps) ∧
    (emitAll {} batches).1.outputParams.map (List.map CodecParams.extradata) = some [some (sps ++ pps)]

theorem FirstKeyframe.roundTrips_iff {batches pre post : List (List EncodedPacket)} {batch : List EncodedPacket}
    {keyframe : EncodedPacket} (h : FirstKeyframe batches pre batch post keyframe) :
    RoundTrips batches pre batch post keyframe ↔ FirstParameterSetsFit (splitAnnexb keyframe.data.asBytes) := by
  have hall := h.emitAll_eq
  constructor
  · rintro ⟨header, sps, pps, hout, -, hsps, hpps, hextradata, -⟩
    cases hsets : extractSpsPps keyframe.data.asBytes with
    | none =>
      rw [hall, hsets, h.split] at hout
      have hbatch := (List.cons.inj (List.append_cancel_left hout)).1
      exact absurd (congrArg List.length hbatch) (by simp)
    | some sets =>
      obtain ⟨sps', pps'⟩ := sets
      obtain ⟨hsps', hpps', hlen⟩ := extractSpsPps_eq_some_iff.mp hsets
      obtain rfl := Option.some.inj (hsps'.symm.trans hsps)
      obtain rfl := Option.some.inj (hpps'.symm.trans hpps)
      rw [hall, hsets] at hout
      obtain ⟨hbatch, -⟩ := List.cons.inj (List.append_cancel_left hout)
      obtain ⟨rfl, -⟩ := List.cons.inj hbatch
      obtain ⟨hshort, hshort'⟩ := (hlsExtradata_avccRecord_iff hlen).mp (Option.some.inj hextradata)
      exact ⟨sps', pps', hsps, hpps, hlen, Nat.lt_succ_iff.mp hshort, Nat.lt_succ_iff.mp hshort'⟩
  · rintro ⟨sps, pps, hsps, hpps, hlen, hshort, hshort'⟩
    have hsets := extractSpsPps_eq_some_iff.mpr ⟨hsps, hpps, hlen⟩
    rw [hsets] at hall
    refine ⟨headerPacket sps pps, sps, pps, by rw [hall], rfl, hsps, hpps, ?_, by rw [hall]; rfl⟩
    exact congrArg some (hlsExtradata_avccRecord hlen (Nat.lt_succ_of_le hshort) (Nat.lt_succ_of_le hshort'))

/-- At most one sequence header is inserted, at the front of the first batch with a keyframe; it and the parameters
recorded give the first parameter sets of that keyframe exactly when these have lengths a record can hold. And every
record gives back its parameter sets. -/
theorem sequenceHeader_roundTrips_iff (batches : List (List EncodedPacket)) :
    ((emitAll {} batches).2 = batches ∨
      ∃ pre batch post keyframe header, FirstKeyframe batches pre batch post keyframe ∧
        header.isSequenceHeader = true ∧ (emitAll {} batches).2 = pre ++ (header :: batch) :: post) ∧
    (∀ pre batch post keyframe, FirstKeyframe batches pre batch post keyframe →
      (RoundTrips batches pre batch post keyframe ↔ FirstParameterSetsFit (splitAnnexb keyframe.data.asBytes))) ∧
    ∀ r : AvcRecord, hlsExtradata .h264 r.bytes = r.sps.flatten ++ r.pps.flatten := by
  refine ⟨?_, fun pre batch post keyframe h => h.roundTrips_iff, hlsExtradata_record⟩
  obtain hnone | ⟨pre, batch, post, keyframe, h⟩ := exists_firstKeyframe batches
  · have hbefore := emitAll_before hnone []
    rw [List.append_nil] at hbefore
    exact .inl (by rw [hbefore]; exact List.append_nil batches)
  · cases hsets : extractSpsPps keyframe.data.asBytes with
    | none => exact .inl (by rw [h.emitAll_eq, hsets])
    | some sets =>
      exact .inr ⟨pre, batch, post, keyframe, headerPacket sets.1 sets.2, h, rfl, by rw [h.emitAll_eq, hsets]⟩

/-- A keyframe of the given parameter sets. -/
def keyframeOf (sps pps : Bytes) : EncodedPacket :=
  ⟨.h264, 0, .annexB ([0, 0, 0, 1] ++ sps ++ [0, 0, 0, 1] ++ pps), some 0, some 0, true, false, false, none⟩

def baselineKeyframe : EncodedPacket := keyframeOf [0x67, 0x42, 0x00, 0x1F] [0x68, 0xCE]

theorem sequenceHeader_roundTrips_baseline :
    RoundTrips [[baselineKeyframe]] [] [baselineKeyframe] [] baselineKeyframe := by
  have hfirst : FirstKeyframe [[baselineKeyframe]] [] [baselineKeyframe] [] baselineKeyframe :=
    ⟨rfl, fun _ h => absurd h List.not_mem_nil, by decide⟩
  refine ((sequenceHeader_roundTrips_iff [[baselineKeyframe]]).2.1 _ _ _ _ hfirst).mpr ?_
  exact ⟨[0x67, 0x42, 0x00, 0x1F], [0x68, 0xCE], by decide, by decide, by decide, by decide, by decide⟩

/-- A sequence parameter set shorter than its profile and level is not taken. -/
example : (emitAll {} [[keyframeOf [0x67] [0x68, 0xCE]]]).2 = [[keyframeOf [0x67] [0x68, 0xCE]]] := by decide

end LivestreamRs.Media
