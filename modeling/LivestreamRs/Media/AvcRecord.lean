import LivestreamRs.Media.CodecConfig

/-! # Configuration records and what is taken for one

The `AVCDecoderConfigurationRecord` as a value, with its bytes, and `hls_extradata`
(`livestream-pipeline/src/factory.rs`) on arbitrary bytes. The parser does not look at the version, and takes a record
that ends before the count of its picture parameter sets for one without any.
-/
namespace LivestreamRs.Media
open BigEndian
set_option autoImplicit false

/-! ## Records -/

/-- Parameter sets, each with its 16-bit length. -/
def parameterSets (nals : List Bytes) : Bytes := nals.flatMap fun nal => toBe 2 nal.length ++ nal

theorem parameterSets_cons (nal : Bytes) (nals : List Bytes) :
    parameterSets (nal :: nals) = toBe 2 nal.length ++ (nal ++ parameterSets nals) := by
  rw [parameterSets, List.flatMap_cons, List.append_assoc]
  rfl

theorem length_parameterSets (nals : List Bytes) :
    (parameterSets nals).length = 2 * nals.length + nals.flatten.length := by
  induction nals with
  | nil => rfl
  | cons nal nals ih =>
    rw [parameterSets_cons, List.length_append, List.length_append, toBe_length, ih, List.flatten_cons,
      List.length_append, List.length_cons]
    omega

/-- A record up to its sequence parameter sets, whose number is in the low five bits of the sixth byte. -/
structure AvcRecordStart where
  version : UInt8
  profile : UInt8
  compatibility : UInt8
  level : UInt8
  lengthSize : UInt8
  spsCount : UInt8
  sps : List Bytes
  counted : (spsCount &&& 0x1F).toNat = sps.length
  sps_short : ∀ nal ∈ sps, nal.length < 2 ^ 16

def AvcRecordStart.head (r : AvcRecordStart) : Bytes :=
  [r.version, r.profile, r.compatibility, r.level, r.lengthSize, r.spsCount]

def AvcRecordStart.bytes (r : AvcRecordStart) : Bytes := r.head ++ parameterSets r.sps

/-- A whole record. What follows the picture parameter sets is an extension. -/
structure AvcRecord extends AvcRecordStart where
  pps : List Bytes
  extension : Bytes
  pps_count : pps.length < 2 ^ 8
  pps_short : ∀ nal ∈ pps, nal.length < 2 ^ 16

/-- The bytes from the count of the picture parameter sets on. -/
def AvcRecord.rest (r : AvcRecord) : Bytes :=
  UInt8.ofNat r.pps.length :: (parameterSets r.pps ++ r.extension)

def AvcRecord.bytes (r : AvcRecord) : Bytes := r.toAvcRecordStart.bytes ++ r.rest

theorem AvcRecordStart.length_bytes (r : AvcRecordStart) :
    r.bytes.length = 6 + 2 * r.sps.length + r.sps.flatten.length := by
  rw [AvcRecordStart.bytes, List.length_append, length_parameterSets]
  exact (Nat.add_assoc ..).symm

theorem AvcRecord.length_bytes (r : AvcRecord) :
    r.bytes.length = 7 + 2 * r.sps.length + r.sps.flatten.length + 2 * r.pps.length + r.pps.flatten.length +
      r.extension.length := by
  rw [AvcRecord.bytes, AvcRecord.rest, List.length_append, AvcRecordStart.length_bytes, List.length_cons,
    List.length_append, length_parameterSets]
  omega

/-! ## Reading parameter sets -/

theorem takeParameterSets_sets {nals : List Bytes} (h : ∀ nal ∈ nals, nal.length < 2 ^ 16) (rest : Bytes) :
    takeParameterSets nals.length (parameterSets nals ++ rest) = some (nals.flatten, rest) := by
  induction nals with
  | nil => rfl
  | cons nal nals ih =>
    obtain ⟨hnal, hnals⟩ := List.forall_mem_cons.mp h
    have hvalue : fromBe (toBe 2 nal.length) = nal.length := fromBe_toBe hnal
    obtain ⟨b₀, b₁, hword⟩ := List.length_eq_two.mp (toBe_length 2 nal.length)
    rw [parameterSets_cons, hword, List.length_cons, List.append_assoc, List.append_assoc, List.cons_append,
      List.cons_append, List.nil_append, takeParameterSets]
    rw [hword] at hvalue
    simp only [hvalue]
    rw [if_neg (by rw [List.length_append]; omega), List.take_left, List.drop_left, ih hnals]
    rfl

theorem takeParameterSets_exact {n : ℕ} {input out rest : Bytes} (h : takeParameterSets n input = some (out, rest)) :
    ∃ nals, nals.length = n ∧ (∀ nal ∈ nals, nal.length < 2 ^ 16) ∧ input = parameterSets nals ++ rest ∧
      out = nals.flatten := by
  induction n generalizing input out with
  | zero =>
    obtain ⟨rfl, rfl⟩ := Prod.mk.inj (Option.some.inj h)
    exact ⟨[], rfl, by simp, rfl, rfl⟩
  | succ n ih =>
    unfold takeParameterSets at h
    split at h
    · next heq => cases heq
    · next k b₀ b₁ tail heq =>
      obtain rfl := Nat.succ.inj heq
      simp only at h
      split at h
      · cases h
      next hfits =>
      obtain ⟨⟨more, rest'⟩, hmore, hpair⟩ := Option.map_eq_some_iff.mp h
      obtain ⟨rfl, rfl⟩ := Prod.mk.inj hpair
      obtain ⟨nals, hlength, hshort, htail, rfl⟩ := ih hmore
      have hword : toBe 2 (fromBe [b₀, b₁]) = [b₀, b₁] := toBe_fromBe [b₀, b₁]
      have hlt : fromBe [b₀, b₁] < 2 ^ 16 := (fromBe_lt [b₀, b₁]).trans_eq (by norm_num)
      have hnal : (tail.take (fromBe [b₀, b₁])).length = fromBe [b₀, b₁] := by
        rw [List.length_take]
        omega
      refine ⟨tail.take (fromBe [b₀, b₁]) :: nals, by rw [List.length_cons, hlength],
        List.forall_mem_cons.mpr ⟨hnal.trans_lt hlt, hshort⟩, ?_, rfl⟩
      rw [parameterSets_cons, hnal, hword, List.append_assoc, List.append_assoc, ← htail, List.take_append_drop]
      rfl
    · cases h

/-! ## `hls_extradata` on arbitrary bytes -/

theorem hlsExtradata_short {x : Bytes} (h : x.length < 7) : hlsExtradata .h264 x = x := if_pos (.inr h)

theorem takeParameterSets_start (r : AvcRecordStart) (rest : Bytes) :
    takeParameterSets ((r.bytes ++ rest).getD 5 0 &&& 0x1F).toNat ((r.bytes ++ rest).drop 6) =
      some (r.sps.flatten, rest) := by
  have hsets := takeParameterSets_sets r.sps_short rest
  rwa [← r.counted] at hsets

/-- The parameter sets of a record, whatever its version and its extension. -/
theorem hlsExtradata_record (r : AvcRecord) : hlsExtradata .h264 r.bytes = r.sps.flatten ++ r.pps.flatten := by
  have hlength := r.length_bytes
  have hcount : (UInt8.ofNat r.pps.length).toNat = r.pps.length := UInt8.toNat_ofNat_of_lt' r.pps_count
  have hpps := takeParameterSets_sets r.pps_short r.extension
  rw [← hcount] at hpps
  have hsps := takeParameterSets_start r.toAvcRecordStart (UInt8.ofNat r.pps.length :: (parameterSets r.pps ++ r.extension))
  change takeParameterSets (r.bytes.getD 5 0 &&& 0x1F).toNat (r.bytes.drop 6) = _ at hsps
  rw [hlsExtradata, if_neg (by simp; omega)]
  simp only [hsps, hpps]

theorem hlsExtradata_cut (r : AvcRecordStart) (hsps : r.sps ≠ []) : hlsExtradata .h264 r.bytes = r.sps.flatten := by
  have hlength := r.length_bytes
  have hpos := List.length_pos_iff.mpr hsps
  have hstart := takeParameterSets_start r []
  rw [List.append_nil] at hstart
  rw [hlsExtradata, if_neg (by simp; omega)]
  simp only [hstart]

/-- Seven bytes or more have the six bytes before the sequence parameter sets. -/
theorem exists_head {x : Bytes} (h : 7 ≤ x.length) :
    ∃ b₀ b₁ b₂ b₃ b₄ b₅ tail, x = b₀ :: b₁ :: b₂ :: b₃ :: b₄ :: b₅ :: tail := by
  match x with
  | b₀ :: b₁ :: b₂ :: b₃ :: b₄ :: b₅ :: tail => exact ⟨b₀, b₁, b₂, b₃, b₄, b₅, tail, rfl⟩
  | [] | [_] | [_, _] | [_, _, _] | [_, _, _, _] | [_, _, _, _, _] => simp at h

/-- What is not returned as it is reads as a record, or as one that ends with its sequence parameter sets. -/
theorem record_of_hlsExtradata_ne {x : Bytes} (h : hlsExtradata .h264 x ≠ x) :
    (∃ r : AvcRecord, x = r.bytes) ∨ ∃ r : AvcRecordStart, r.sps ≠ [] ∧ x = r.bytes := by
  have hlong : 7 ≤ x.length := by
    by_contra hshort
    exact h (hlsExtradata_short (Nat.not_le.mp hshort))
  rw [hlsExtradata, if_neg (by simpa using hlong)] at h
  cases hsps : takeParameterSets (x.getD 5 0 &&& 0x1F).toNat (x.drop 6) with
  | none =>
    simp only [hsps] at h
    exact absurd rfl h
  | some found =>
    obtain ⟨out, rest⟩ := found
    obtain ⟨version, profile, compatibility, level, lengthSize, spsCount, tail, rfl⟩ := exists_head hlong
    obtain ⟨sps, hcounted, hshort, htail, rfl⟩ := takeParameterSets_exact hsps
    obtain rfl : tail = parameterSets sps ++ rest := htail
    let start : AvcRecordStart :=
      ⟨version, profile, compatibility, level, lengthSize, spsCount, sps, hcounted.symm, hshort⟩
    cases rest with
    | nil =>
      refine .inr ⟨start, ?_, by rw [List.append_nil]; rfl⟩
      rintro (rfl : sps = [])
      simp [parameterSets] at hlong
    | cons numPps tail =>
      simp only [hsps] at h
      cases hpps : takeParameterSets numPps.toNat tail with
      | none =>
        simp only [hpps] at h
        exact absurd rfl h
      | some found =>
        obtain ⟨out, rest⟩ := found
        obtain ⟨pps, hcount, hshort', rfl, -⟩ := takeParameterSets_exact hpps
        have hlt : pps.length < 2 ^ 8 := hcount ▸ numPps.toNat_lt
        refine .inl ⟨⟨start, pps, rest, hlt, hshort'⟩, ?_⟩
        simp [AvcRecord.bytes, AvcRecord.rest, AvcRecordStart.bytes, AvcRecordStart.head, start, hcount]

theorem hlsExtradata_record_ne (r : AvcRecord) : hlsExtradata .h264 r.bytes ≠ r.bytes := by
  intro h
  have hlength := congrArg List.length h
  rw [hlsExtradata_record, List.length_append, r.length_bytes] at hlength
  omega

theorem hlsExtradata_cut_ne (r : AvcRecordStart) (hsps : r.sps ≠ []) : hlsExtradata .h264 r.bytes ≠ r.bytes := by
  intro h
  have hlength := congrArg List.length h
  rw [hlsExtradata_cut r hsps, r.length_bytes] at hlength
  omega

/-- A record of the only version there is. -/
def IsConfigurationRecord (x : Bytes) : Prop := ∃ r : AvcRecord, r.version = 0x01 ∧ x = r.bytes

/-- Bytes that are no record are returned as they are, unless they read as a record of another version or end with
their sequence parameter sets. -/
theorem hlsExtradata_unchanged_iff {x : Bytes} (hx : ¬ IsConfigurationRecord x) :
    hlsExtradata .h264 x = x ↔
      (∀ r : AvcRecord, r.version ≠ 0x01 → x ≠ r.bytes) ∧ ∀ r : AvcRecordStart, r.sps ≠ [] → x ≠ r.bytes := by
  constructor
  · intro h
    refine ⟨fun r _ heq => ?_, fun r hsps heq => ?_⟩
    · exact hlsExtradata_record_ne r (heq ▸ h)
    · exact hlsExtradata_cut_ne r hsps (heq ▸ h)
  · rintro ⟨hversion, hcut⟩
    by_contra h
    obtain ⟨r, rfl⟩ | ⟨r, hsps, rfl⟩ := record_of_hlsExtradata_ne h
    · exact hversion r (fun h1 => hx ⟨r, h1, rfl⟩) rfl
    · exact hcut r hsps rfl

/-- A record that ends within its sequence parameter set. -/
theorem hlsExtradata_unchanged_of_short_sps :
    ¬ IsConfigurationRecord [0x01, 0x42, 0x00, 0x1F, 0xFF, 0xE1, 0x00, 0x04, 0x67, 0x42] ∧
      ∀ r : AvcRecordStart, r.sps ≠ [] → [0x01, 0x42, 0x00, 0x1F, 0xFF, 0xE1, 0x00, 0x04, 0x67, 0x42] ≠ r.bytes := by
  have hsame : hlsExtradata .h264 [0x01, 0x42, 0x00, 0x1F, 0xFF, 0xE1, 0x00, 0x04, 0x67, 0x42] =
      [0x01, 0x42, 0x00, 0x1F, 0xFF, 0xE1, 0x00, 0x04, 0x67, 0x42] := by decide
  have hx : ¬ IsConfigurationRecord [0x01, 0x42, 0x00, 0x1F, 0xFF, 0xE1, 0x00, 0x04, 0x67, 0x42] := by
    rintro ⟨r, -, heq⟩
    exact hlsExtradata_record_ne r (heq ▸ hsame)
  exact ⟨hx, ((hlsExtradata_unchanged_iff hx).mp hsame).2⟩

/-- A sequence and a picture parameter set as they are, of which one byte is left, and a record that ends before the
count of its picture parameter sets. -/
theorem hlsExtradata_changes_other_bytes :
    (¬ IsConfigurationRecord [0x67, 0x64, 0x00, 0x1F, 0xAC, 0x40, 0x01, 0x00, 0x01, 0xE2, 0x68, 0xEB] ∧
      hlsExtradata .h264 [0x67, 0x64, 0x00, 0x1F, 0xAC, 0x40, 0x01, 0x00, 0x01, 0xE2, 0x68, 0xEB] = [0xE2]) ∧
    ¬ IsConfigurationRecord [0x01, 0x42, 0x00, 0x1F, 0xFF, 0xE1, 0x00, 0x04, 0x67, 0x42, 0x00, 0x1F] ∧
      hlsExtradata .h264 [0x01, 0x42, 0x00, 0x1F, 0xFF, 0xE1, 0x00, 0x04, 0x67, 0x42, 0x00, 0x1F] =
        [0x67, 0x42, 0x00, 0x1F] := by
  refine ⟨⟨?_, by decide⟩, ?_, by decide⟩
  · rintro ⟨r, hversion, heq⟩
    have hfirst : (0x67 : UInt8) = r.version := (List.cons.inj heq).1
    rw [hversion] at hfirst
    exact absurd hfirst (by decide)
  · rintro ⟨r, -, heq⟩
    have hlength := congrArg List.length heq
    have hsets := congrArg List.length (hlsExtradata_record r)
    rw [← heq, List.length_append] at hsets
    have hsps : (4 : ℕ) = r.sps.flatten.length + r.pps.flatten.length := hsets
    have hcount : r.sps.length = 1 := by
      rw [← r.counted]
      have hbyte : (0xE1 : UInt8) = r.spsCount := congrArg (fun x : Bytes => x.getD 5 0) heq
      rw [← hbyte]
      rfl
    rw [r.length_bytes, hcount] at hlength
    have htotal : (12 : ℕ) = 7 + 2 * 1 + r.sps.flatten.length + 2 * r.pps.length + r.pps.flatten.length +
      r.extension.length := hlength
    omega

end LivestreamRs.Media
