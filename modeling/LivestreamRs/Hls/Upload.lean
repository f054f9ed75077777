import LivestreamRs.Hls.Accounting

/-! # What an uploaded playlist promises

`MinIoSink` uploads `index.m3u8` as it finds it after each segment it has uploaded. The file is ahead of
the store whenever a listed segment is still on its way or was given up, so the uploaded playlists name
only uploaded segments exactly when no playlist is uploaded at such a moment
(`playlist_complete_iff`).
-/
namespace LivestreamRs.Hls
open Media Foundations
set_option autoImplicit false

/-- Every segment listed in the uploaded playlist has been uploaded. -/
def PlaylistComplete (b : Branch) : Prop :=
  ∀ p, b.store.playlist = some p → ∀ e ∈ p.entries, e.filename ∈ b.store.segments

/-- The playlist is not uploaded while `index.m3u8` lists a segment that is in the segmenter's hands, in
the queue, or abandoned. -/
def UploadsSettledPlaylist (b : Branch) (a : BranchAction) : Prop :=
  a = .uploadPlaylist true → ∀ p, b.segmenter.workspace.playlistFile = some p →
    ∀ e ∈ p.entries, e.filename ∉ b.ledger.pending

variable {b b' : Branch} {a : BranchAction}

theorem Ledger.Move.uploaded_subset {l l' : Ledger} (h : l.Move l') : l.uploaded ⊆ l'.uploaded := by
  cases h with
  | store seg => exact List.subset_append_left _ _
  | _ => exact List.Subset.refl _

/-- Only the upload of the playlist changes the one in the store, and no step removes a segment from it. -/
theorem step_store (h : b.step a = some b') (ha : a ≠ .uploadPlaylist true) :
    b'.store.playlist = b.store.playlist ∧ b.store.segments ⊆ b'.store.segments := by
  refine ⟨?_, (step_move h).1.uploaded_subset⟩
  obtain ⟨c, i, rfl, -⟩ | heff | heff := step_effect h
  · rfl
  · rw [heff.store]
  · exact heff.playlist ha

theorem step_uploadPlaylist (h : b.step (.uploadPlaylist true) = some b') :
    b.ledger.uploading = [] ∧ b'.store.segments = b.store.segments
      ∧ b'.store.playlist = b.segmenter.workspace.playlistFile.or b.store.playlist := by
  obtain ⟨ha, -⟩ | ⟨ha, -⟩ | h | h := Branch.step_cases h
  · cases ha
  · cases ha
  · cases h
  · cases h with
    | finished htask => exact ⟨congrArg SinkTask.uploadingSegs htask, rfl, rfl⟩

/-- A listed segment is in the store exactly when it is not pending, once the sink has nothing to upload. -/
theorem Accounted.mem_segments_iff (h : Accounted b) (hu : b.ledger.uploading = []) {f : String}
    (hf : f ∈ b.segmenter.listed) : f ∈ b.store.segments ↔ f ∉ b.ledger.pending := by
  have hplaces := h.balanced.places
  rw [hu, filesOf_nil, add_zero] at hplaces
  have hmem : f ∈ (b.store.segments : Multiset String) + b.ledger.pending := hplaces ▸ h.listed f hf
  have hnodup : ((b.store.segments : Multiset String) + b.ledger.pending).Nodup := hplaces ▸ h.nodup_files
  have hdisj := (Multiset.nodup_add.mp hnodup).2.2
  obtain hmem | hmem := Multiset.mem_add.mp hmem
  · exact iff_of_true (Multiset.mem_coe.mp hmem) fun hp => Multiset.disjoint_left.mp hdisj hmem hp
  · exact iff_of_false (fun hs => Multiset.disjoint_left.mp hdisj (Multiset.mem_coe.mpr hs) hmem) (not_not.mpr hmem)

/-- Uploaded playlists name only uploaded segments, in every state of a run, exactly when each playlist
upload of the run finds a settled `index.m3u8`. -/
theorem playlist_complete_iff (streams : List AvCodecId) (cfg : SegmentConfig) (acts : List BranchAction) :
    Always Branch.step PlaylistComplete (Branch.initial streams cfg) acts
      ↔ EachStep Branch.step UploadsSettledPlaylist (Branch.initial streams cfg) acts := by
  refine always_iff_eachStep (I := Accounted) (fun b a b' h hstep => h.step hstep) ?_ acts
    (accounted_initial streams cfg) (fun p hp => by cases hp)
  intro b a b' hacc hcomplete hstep
  by_cases ha : a = .uploadPlaylist true
  · subst ha
    obtain ⟨hu, hseg, hplaylist⟩ := step_uploadPlaylist hstep
    cases hfile : b.segmenter.workspace.playlistFile with
    | none =>
      rw [hfile, Option.none_or] at hplaylist
      refine iff_of_true ?_ fun _ p hp => ?_
      · rw [PlaylistComplete, hplaylist, hseg]
        exact hcomplete
      · exact absurd (hfile.symm.trans hp) (by simp)
    | some p =>
      have hlisted : ∀ e ∈ p.entries, e.filename ∈ b.segmenter.listed := by
        intro e he
        simp only [HlsSegmenter.listed, hfile, Option.map_some, Option.getD_some]
        exact List.mem_append_right _ (List.mem_map_of_mem he)
      simp only [PlaylistComplete, UploadsSettledPlaylist, hplaylist, hseg, hfile, Option.some_or,
        Option.some.injEq, forall_const, forall_eq']
      exact forall₂_congr fun e he => hacc.mem_segments_iff hu (hlisted e he)
  · obtain ⟨hplaylist, hsub⟩ := step_store hstep ha
    refine iff_of_true (fun p hp e he => ?_) fun h => absurd h ha
    exact hsub (hcomplete p (hplaylist ▸ hp) e he)

/-- A video key frame with the given presentation time. -/
def keyframe (ms : ℤ) : EncodedPacket := ⟨.h264, 0, .annexB [0x65], some ms, some ms, true, false, false, none⟩

/-- The second segment is listed while the first is being uploaded. The playlist that follows the first
upload names both. -/
theorem playlist_uploaded_early :
    ∃ b p, run Branch.step (Branch.initial [.h264] ⟨1, 5⟩)
        [.packet .ok (keyframe 0), .packet .ok (keyframe 1200), .list, .deliver, .recv,
         .packet .ok (keyframe 2400), .list, .upload true, .uploadPlaylist true] = some b
      ∧ b.store.playlist = some p
      ∧ p.entries.map (·.filename) = ["segment_0000.ts", "segment_0001.ts"]
      ∧ b.store.segments = ["segment_0000.ts"] :=
  ⟨_, _, rfl, rfl, by decide, by decide⟩

end LivestreamRs.Hls
