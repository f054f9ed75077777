import Mathlib.Data.Nat.Digits.Defs
import Mathlib.Data.Nat.Digits.Lemmas
import Mathlib.Tactic

/-! # Segment names and the live playlist

`TsSegment` (`livestream-codec`), `SegmentWorkspace::segment_filename` and `PlaylistState`
(`livestream-pipeline/src/processor/hls_segment.rs`). Durations are whole milliseconds, which is the
resolution of the timestamps they are computed from.
-/
namespace LivestreamRs.Hls
set_option autoImplicit false

/-- The fields of `SegmentConfig` the segmenter reads. -/
structure SegmentConfig where
  durationSecs : ℕ
  playlistSize : ℕ
  deriving DecidableEq, Repr

/-- A finished segment. Its `path` in the source is the upload directory joined with `filename`. -/
structure TsSegment where
  filename : String
  sequence : ℕ
  duration : ℕ
  isFinal : Bool
  deriving DecidableEq, Repr

/-! ## File names -/

/-- Decimal digits with at least `width` places, as `{:0width}` prints them. -/
def zeroPadded (width n : ℕ) : List Char :=
  (((Nat.digits 10 n).rightpad width 0).map Nat.digitChar).reverse

def segmentFilename (sequence : ℕ) : String :=
  String.ofList ("segment_".toList ++ zeroPadded 4 sequence ++ ".ts".toList)

theorem digitChar_toNat {d : ℕ} (h : d < 10) : (Nat.digitChar d).toNat - 48 = d := by
  interval_cases d <;> rfl

theorem rightpad_digits_lt {width n d : ℕ} (hd : d ∈ (Nat.digits 10 n).rightpad width 0) : d < 10 := by
  rw [List.rightpad, List.mem_append, List.mem_replicate] at hd
  obtain hd | ⟨-, rfl⟩ := hd
  · exact Nat.digits_lt_base (by norm_num) hd
  · norm_num

/-- The number a list of decimal digits spells. -/
def parseDecimal (cs : List Char) : ℕ := Nat.ofDigits 10 (cs.reverse.map fun c => c.toNat - 48)

theorem parseDecimal_zeroPadded (width : ℕ) : Function.LeftInverse parseDecimal (zeroPadded width) := by
  intro n
  have hdigits : ((Nat.digits 10 n).rightpad width 0).map (fun d => (Nat.digitChar d).toNat - 48)
      = (Nat.digits 10 n).rightpad width 0 :=
    (List.map_congr_left fun d hd => digitChar_toNat (rightpad_digits_lt hd)).trans (List.map_id _)
  rw [parseDecimal, zeroPadded, List.reverse_reverse, List.map_map, Function.comp_def, hdigits,
    List.rightpad, Nat.ofDigits_append_replicate_zero, Nat.ofDigits_digits]

theorem segmentFilename_injective : Function.Injective segmentFilename := by
  intro m n h
  have h' := String.ofList_injective h
  rw [List.append_assoc, List.append_assoc] at h'
  exact (parseDecimal_zeroPadded 4).injective (List.append_cancel_right (List.append_cancel_left h'))

example : segmentFilename 0 = "segment_0000.ts" ∧ segmentFilename 12345 = "segment_12345.ts" := by decide

/-! ## The playlist window -/

structure PlaylistEntry where
  filename : String
  duration : ℕ
  deriving DecidableEq, Repr

/-- `playlist_size` is never zero, so the loop that makes room ends. -/
structure PlaylistState where
  playlistSize : ℕ
  entries : List PlaylistEntry
  mediaSequence : ℕ
  size_pos : 0 < playlistSize

def PlaylistState.new (cfg : SegmentConfig) : PlaylistState where
  playlistSize := max cfg.playlistSize 1
  entries := []
  mediaSequence := 0
  size_pos := Nat.lt_of_lt_of_le Nat.one_pos (le_max_right _ _)

/-- `while entries.len() >= playlist_size { entries.pop_front(); media_sequence += 1; }` -/
def makeRoom (playlistSize : ℕ) : List PlaylistEntry → ℕ → List PlaylistEntry × ℕ
  | [], mediaSequence => ([], mediaSequence)
  | e :: es, mediaSequence =>
    if (e :: es).length ≥ playlistSize then makeRoom playlistSize es (mediaSequence + 1)
    else (e :: es, mediaSequence)

/-- The media sequence counts the entries that were dropped. -/
theorem makeRoom_spec (size : ℕ) (entries : List PlaylistEntry) (n : ℕ) :
    ∃ dropped, entries = dropped ++ (makeRoom size entries n).1 ∧ (makeRoom size entries n).2 = n + dropped.length := by
  induction entries generalizing n with
  | nil => exact ⟨[], rfl, rfl⟩
  | cons e es ih =>
    rw [makeRoom]
    split
    · obtain ⟨dropped, hes, hn⟩ := ih (n + 1)
      refine ⟨e :: dropped, congrArg (e :: ·) hes, ?_⟩
      rw [hn, List.length_cons]
      omega
    · exact ⟨[], rfl, rfl⟩

def PlaylistState.pushSegment (p : PlaylistState) (filename : String) (duration : ℕ) : PlaylistState :=
  let (entries, mediaSequence) := makeRoom p.playlistSize p.entries p.mediaSequence
  { p with entries := entries ++ [⟨filename, duration⟩], mediaSequence := mediaSequence }

/-! ## What the window holds -/

theorem makeRoom_entries (size : ℕ) (entries : List PlaylistEntry) (n : ℕ) :
    (makeRoom size entries n).1 = entries.drop (entries.length + 1 - size) := by
  induction entries generalizing n with
  | nil => exact List.drop_nil.symm
  | cons e es ih =>
    rw [makeRoom]
    split
    · next hfull =>
      have hlen : (e :: es).length + 1 - size = (es.length + 1 - size) + 1 := by
        simp only [List.length_cons] at hfull ⊢
        omega
      rw [ih, hlen, List.drop_succ_cons]
    · next hroom =>
      have hlen : (e :: es).length + 1 - size = 0 := by omega
      rw [hlen, List.drop_zero]

def PlaylistState.pushAll (p : PlaylistState) (segments : List PlaylistEntry) : PlaylistState :=
  segments.foldl (fun p e => p.pushSegment e.filename e.duration) p

/-- The last `playlistSize` of the pushed segments are listed and the others are counted. -/
structure PlaylistState.Holds (p : PlaylistState) (pushed : List PlaylistEntry) : Prop where
  entries : p.entries = pushed.drop (pushed.length - p.playlistSize)
  mediaSequence : p.mediaSequence = pushed.length - p.playlistSize

theorem PlaylistState.Holds.push {p : PlaylistState} {pushed : List PlaylistEntry} (h : p.Holds pushed)
    (e : PlaylistEntry) : (p.pushSegment e.filename e.duration).Holds (pushed ++ [e]) := by
  have hpos := p.size_pos
  have hlen : p.entries.length = min pushed.length p.playlistSize := by
    rw [h.entries, List.length_drop]
    omega
  have hmade := makeRoom_entries p.playlistSize p.entries p.mediaSequence
  constructor
  · have hdrop : pushed.length - p.playlistSize + (p.entries.length + 1 - p.playlistSize)
        = (pushed ++ [e]).length - p.playlistSize := by
      rw [List.length_append, List.length_singleton]
      omega
    have hle : (pushed ++ [e]).length - p.playlistSize ≤ pushed.length := by
      rw [List.length_append, List.length_singleton]
      omega
    change (makeRoom p.playlistSize p.entries p.mediaSequence).1 ++ [e]
      = (pushed ++ [e]).drop ((pushed ++ [e]).length - p.playlistSize)
    rw [hmade, h.entries, List.drop_drop, ← h.entries, hdrop, List.drop_append_of_le_length hle]
  · obtain ⟨dropped, hsplit, hcount⟩ := makeRoom_spec p.playlistSize p.entries p.mediaSequence
    change (makeRoom p.playlistSize p.entries p.mediaSequence).2 = (pushed ++ [e]).length - p.playlistSize
    have hsum := congrArg List.length hsplit
    rw [List.length_append, hmade, List.length_drop] at hsum
    rw [hcount, h.mediaSequence, List.length_append, List.length_singleton]
    omega

theorem holds_pushAll (cfg : SegmentConfig) (pushed : List PlaylistEntry) :
    ((PlaylistState.new cfg).pushAll pushed).Holds pushed := by
  induction pushed using List.reverseRecOn with
  | nil => exact ⟨List.drop_nil.symm, (Nat.zero_sub _).symm⟩
  | append_singleton pushed e ih =>
    rw [PlaylistState.pushAll, List.foldl_append]
    exact ih.push e

theorem playlistSize_pushAll (p : PlaylistState) (pushed : List PlaylistEntry) :
    (p.pushAll pushed).playlistSize = p.playlistSize := by
  induction pushed generalizing p with
  | nil => rfl
  | cons e pushed ih => exact ih _

/-- The window the configuration documents: the last `playlist_size` segments, or all of them where it is zero, and the
media sequence numbers the first of them. -/
structure DocumentedWindow (cfg : SegmentConfig) (pushed : List PlaylistEntry) (p : PlaylistState) : Prop where
  limited : 0 < cfg.playlistSize →
    p.entries = pushed.drop (pushed.length - min pushed.length cfg.playlistSize)
  unlimited : cfg.playlistSize = 0 → p.entries = pushed
  mediaSequence : p.mediaSequence + p.entries.length = pushed.length

/-- The constructor turns a size of zero into a size of one, so an unlimited playlist lists the last segment only. -/
theorem documentedWindow_iff (cfg : SegmentConfig) (pushed : List PlaylistEntry) :
    DocumentedWindow cfg pushed ((PlaylistState.new cfg).pushAll pushed) ↔
      0 < cfg.playlistSize ∨ pushed.length ≤ 1 := by
  have hsize : ((PlaylistState.new cfg).pushAll pushed).playlistSize = max cfg.playlistSize 1 :=
    playlistSize_pushAll _ _
  have hentries := (holds_pushAll cfg pushed).entries
  have hsequence := (holds_pushAll cfg pushed).mediaSequence
  rw [hsize] at hentries hsequence
  have hcounted : ((PlaylistState.new cfg).pushAll pushed).mediaSequence
      + ((PlaylistState.new cfg).pushAll pushed).entries.length = pushed.length := by
    rw [hsequence, hentries, List.length_drop]
    omega
  constructor
  · intro h
    rw [or_iff_not_imp_left]
    intro hzero
    have hall := congrArg List.length (h.unlimited (Nat.eq_zero_of_not_pos hzero))
    rw [hentries, List.length_drop] at hall
    omega
  · intro h
    refine ⟨fun hpos => ?_, fun hzero => ?_, hcounted⟩
    · have hlen : pushed.length - max cfg.playlistSize 1 = pushed.length - min pushed.length cfg.playlistSize := by
        omega
      rw [hentries, hlen]
    · have hlen : pushed.length - max cfg.playlistSize 1 = 0 := by omega
      rw [hentries, hlen, List.drop_zero]

theorem documentedWindow_two_of_unlimited :
    ¬ DocumentedWindow ⟨10, 0⟩ [⟨"segment_0000.ts", 10000⟩, ⟨"segment_0001.ts", 10000⟩]
      ((PlaylistState.new ⟨10, 0⟩).pushAll [⟨"segment_0000.ts", 10000⟩, ⟨"segment_0001.ts", 10000⟩]) :=
  fun h => absurd (h.unlimited rfl) (by decide)

/-- What `render` prints: the target duration in seconds, the media sequence, the entries and whether
the playlist is closed. -/
structure Playlist where
  targetDuration : ℕ
  mediaSequence : ℕ
  entries : List PlaylistEntry
  endList : Bool
  deriving DecidableEq, Repr

def PlaylistState.render (p : PlaylistState) (isFinal : Bool) : Playlist where
  targetDuration := ((p.entries.map fun e => (e.duration + 999) / 1000).max?).getD 1
  mediaSequence := p.mediaSequence
  entries := p.entries
  endList := isFinal

end LivestreamRs.Hls
