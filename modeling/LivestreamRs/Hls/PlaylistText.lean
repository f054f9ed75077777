import LivestreamRs.Hls.Accounting
import LivestreamRs.Hls.Bookkeeping

/-! # The text of `index.m3u8`

What `PlaylistState::render` (`livestream-pipeline/src/processor/hls_segment.rs`) writes, and a reader of it. A client
that reads the file finds the playlist as it was after one of the segments, whichever calls of the segmenter fail, unless
a failed write has left a part of it. The
source keeps durations as `f64` seconds; they come from whole milliseconds, which `{:.3}` prints.
-/
namespace LivestreamRs.Hls
open Media
set_option autoImplicit false

/-! ## What is written -/

/-- `{}` of an unsigned number. -/
def decimal (n : ℕ) : List Char := zeroPadded 1 n

/-- `#EXTINF:{:.3},` -/
def extinf (duration : ℕ) : List Char :=
  "#EXTINF:".toList ++ (decimal (duration / 1000) ++ '.' :: (zeroPadded 3 (duration % 1000) ++ [',']))

def Playlist.lines (p : Playlist) : List (List Char) :=
  "#EXTM3U".toList :: "#EXT-X-VERSION:3".toList ::
    ("#EXT-X-TARGETDURATION:".toList ++ decimal p.targetDuration) ::
    ("#EXT-X-MEDIA-SEQUENCE:".toList ++ decimal p.mediaSequence) ::
    (p.entries.flatMap (fun e => [extinf e.duration, e.filename.toList]) ++
      if p.endList then ["#EXT-X-ENDLIST".toList] else [])

def Playlist.text (p : Playlist) : String := String.ofList (p.lines.flatMap fun line => line ++ ['\n'])

/-! ## What is read -/

def readDecimal (cs : List Char) : Option ℕ :=
  if cs ≠ [] ∧ cs.all Char.isDigit then some (parseDecimal cs) else none

def stripLabel (label line : List Char) : Option (List Char) :=
  if label.isPrefixOf line then some (line.drop label.length) else none

def readExtinf (line : List Char) : Option ℕ := do
  let time ← stripLabel "#EXTINF:".toList line
  let fraction ← stripLabel ['.'] (time.dropWhile Char.isDigit)
  guard (fraction.drop 3 = [','])
  let secs ← readDecimal (time.takeWhile Char.isDigit)
  let millis ← readDecimal (fraction.take 3)
  some (1000 * secs + millis)

def readEntries : List (List Char) → Option (List PlaylistEntry × Bool)
  | [] => some ([], false)
  | [line] => if line = "#EXT-X-ENDLIST".toList then some ([], true) else none
  | line :: filename :: rest => do
    let duration ← readExtinf line
    let (entries, endList) ← readEntries rest
    some (⟨String.ofList filename, duration⟩ :: entries, endList)

def readLines : List (List Char) → Option Playlist
  | magic :: version :: target :: sequence :: rest => do
    guard (magic = "#EXTM3U".toList ∧ version = "#EXT-X-VERSION:3".toList)
    let target ← (stripLabel "#EXT-X-TARGETDURATION:".toList target).bind readDecimal
    let sequence ← (stripLabel "#EXT-X-MEDIA-SEQUENCE:".toList sequence).bind readDecimal
    let (entries, endList) ← readEntries rest
    some { targetDuration := target, mediaSequence := sequence, entries := entries, endList := endList }
  | _ => none

/-- The last line is ended too, so nothing follows the last line break. -/
def readPlaylist (text : String) : Option Playlist := readLines (text.toList.splitOn '\n').dropLast

/-! ## Numbers and lines -/

theorem zeroPadded_isDigit {width n : ℕ} {c : Char} (h : c ∈ zeroPadded width n) : c.isDigit = true := by
  simp only [zeroPadded, List.mem_reverse, List.mem_map] at h
  obtain ⟨d, hd, rfl⟩ := h
  have hlt := rightpad_digits_lt hd
  interval_cases d <;> rfl

theorem length_zeroPadded {width n : ℕ} (h : n < 10 ^ width) : (zeroPadded width n).length = width := by
  have hdigits : (Nat.digits 10 n).length ≤ width := Nat.digits_length_le_iff (by norm_num) n |>.mpr h
  simp [zeroPadded, List.rightpad, hdigits]

theorem readDecimal_zeroPadded {width : ℕ} (hwidth : width ≠ 0) (n : ℕ) :
    readDecimal (zeroPadded width n) = some n := by
  have hne : zeroPadded width n ≠ [] := by
    intro hnil
    have hlength := congrArg List.length hnil
    simp only [zeroPadded, List.rightpad, List.length_reverse, List.length_map, List.length_append,
      List.length_replicate, List.length_nil] at hlength
    omega
  rw [readDecimal, if_pos ⟨hne, List.all_eq_true.mpr fun c hc => zeroPadded_isDigit hc⟩, parseDecimal_zeroPadded]

theorem stripLabel_append (label rest : List Char) : stripLabel label (label ++ rest) = some rest := by
  rw [stripLabel, if_pos (List.isPrefixOf_iff_prefix.mpr (List.prefix_append _ _)), List.drop_left]

theorem readExtinf_extinf (duration : ℕ) : readExtinf (extinf duration) = some duration := by
  have hdigits : ∀ c ∈ decimal (duration / 1000), c.isDigit = true := fun c hc => zeroPadded_isDigit hc
  have hmillis : (zeroPadded 3 (duration % 1000)).length = 3 := length_zeroPadded (Nat.mod_lt _ (by decide))
  generalize hfraction : zeroPadded 3 (duration % 1000) ++ [','] = fraction
  have htake : (decimal (duration / 1000) ++ '.' :: fraction).takeWhile Char.isDigit = decimal (duration / 1000) := by
    rw [List.takeWhile_append_of_pos hdigits, List.takeWhile_cons_of_neg (by decide), List.append_nil]
  have hdrop : (decimal (duration / 1000) ++ '.' :: fraction).dropWhile Char.isDigit = ['.'] ++ fraction := by
    rw [List.dropWhile_append_of_pos hdigits, List.dropWhile_cons_of_neg (by decide), List.singleton_append]
  have hsecs : readDecimal (decimal (duration / 1000)) = some (duration / 1000) :=
    readDecimal_zeroPadded one_ne_zero _
  have hread : readDecimal (fraction.take 3) = some (duration % 1000) := by
    rw [← hfraction, List.take_left' hmillis]
    exact readDecimal_zeroPadded three_ne_zero _
  have hcomma : fraction.drop 3 = [','] := by rw [← hfraction, List.drop_left' hmillis]
  unfold readExtinf extinf
  rw [hfraction, stripLabel_append]
  simp only [Option.bind_eq_bind, Option.bind_some, hdrop, stripLabel_append, hcomma, guard, if_true,
    Option.pure_def, htake, hsecs, hread]
  rw [Nat.div_add_mod]

theorem splitOn_lines (lines : List (List Char)) (h : ∀ line ∈ lines, '\n' ∉ line) :
    (lines.flatMap fun line => line ++ ['\n']).splitOn '\n' = lines ++ [[]] := by
  have hjoin : lines.flatMap (fun line => line ++ ['\n']) = ['\n'].intercalate (lines ++ [[]]) := by
    clear h
    induction lines with
    | nil => rfl
    | cons line lines ih =>
      rw [List.flatMap_cons, ih]
      cases lines <;> simp [List.intercalate]
  rw [hjoin, List.splitOn_intercalate]
  · intro line hline
    rcases List.mem_append.mp hline with hline | hline
    · exact h line hline
    · simp [List.mem_singleton.mp hline]
  · simp

/-! ## The file is read back -/

theorem newline_not_mem_zeroPadded (width n : ℕ) : '\n' ∉ zeroPadded width n := fun h =>
  absurd (zeroPadded_isDigit h) (by decide)

theorem newline_not_mem_extinf (duration : ℕ) : '\n' ∉ extinf duration := by
  unfold extinf decimal
  simp only [List.mem_append, List.mem_cons, newline_not_mem_zeroPadded, List.not_mem_nil]
  decide

theorem newline_not_mem_lines {p : Playlist} (h : ∀ e ∈ p.entries, '\n' ∉ e.filename.toList) :
    ∀ line ∈ p.lines, '\n' ∉ line := by
  intro line hline
  simp only [Playlist.lines, List.mem_cons, List.mem_append, List.mem_flatMap, List.not_mem_nil, or_false] at hline
  rcases hline with rfl | rfl | rfl | rfl | ⟨e, he, rfl | rfl⟩ | hline
  · decide
  · decide
  · simp only [decimal, List.mem_append, newline_not_mem_zeroPadded]
    decide
  · simp only [decimal, List.mem_append, newline_not_mem_zeroPadded]
    decide
  · exact newline_not_mem_extinf _
  · exact h e he
  · split at hline
    · rw [List.mem_singleton.mp hline]
      decide
    · cases hline

theorem readEntries_append (entries : List PlaylistEntry) (endList : Bool) :
    readEntries (entries.flatMap (fun e => [extinf e.duration, e.filename.toList]) ++
      if endList then ["#EXT-X-ENDLIST".toList] else []) = some (entries, endList) := by
  induction entries with
  | nil => cases endList <;> rfl
  | cons e entries ih =>
    simp only [List.flatMap_cons, List.cons_append, List.nil_append, readEntries, readExtinf_extinf, ih,
      Option.bind_eq_bind, Option.bind_some, String.ofList_toList]

/-- What `render` writes is read back as it was. -/
theorem readPlaylist_text {p : Playlist} (h : ∀ e ∈ p.entries, '\n' ∉ e.filename.toList) :
    readPlaylist p.text = some p := by
  have hlines : (p.text.toList.splitOn '\n').dropLast = p.lines := by
    rw [Playlist.text, String.toList_ofList, splitOn_lines _ (newline_not_mem_lines h), List.dropLast_concat]
  have hlabelled : ∀ (label : List Char) (n : ℕ), (stripLabel label (label ++ decimal n)).bind readDecimal = some n := by
    intro label n
    rw [stripLabel_append]
    exact readDecimal_zeroPadded one_ne_zero n
  rw [readPlaylist, hlines]
  unfold Playlist.lines
  rw [readLines, hlabelled, hlabelled, readEntries_append, guard, if_pos ⟨rfl, rfl⟩]
  rfl

/-! ## `index.m3u8` through a recording -/

/-- What a call of the segmenter does to the playlist and to `index.m3u8`. -/
inductive Lists (s s' : HlsSegmenter) (o : Outcome) : Option (List TsSegment) → Prop
  | keep {out : Option (List TsSegment)} (hout : out.getD [] = []) (hkeep : KeepsListing s s') : Lists s s' o out
  | push {seg : TsSegment} {mid : HlsSegmenter} (hbefore : KeepsListing s mid)
      (hafter : KeepsListing (mid.listSegment o seg) s') : Lists s s' o (some [seg])

theorem process_lists (s : HlsSegmenter) (o : Outcome) (pkt : EncodedPacket) :
    Lists s (s.process o pkt).1 o (s.process o pkt).2 := by
  have hspec := beginProcess_spec s o pkt
  rw [process_eq_parts]
  generalize s.beginProcess o pkt = result at hspec ⊢
  obtain ⟨s', _ | _ | seg⟩ := result
  · exact .keep rfl hspec.1
  · exact .keep rfl hspec.1
  · exact .push (hspec.1.trans (keepsListing_segmenter s' (.startWith pkt))) (writePacketOrReset_keepsListing _ o pkt)

theorem process_isFinal {s : HlsSegmenter} {o : Outcome} {pkt : EncodedPacket} {seg : TsSegment}
    (h : (s.process o pkt).2 = some [seg]) : seg.isFinal = false := by
  have hreturns := process_returns s o pkt
  generalize s.process o pkt = result at hreturns h
  cases hreturns with
  | closed => cases h; rfl
  | _ => simp at h

theorem close_lists (s : HlsSegmenter) (o : Outcome) :
    Lists s (s.close o).1 o ((s.close o).2.map fun seg => [seg]) := by
  have hspec := rollover_spec s o (s.segmenter.elapsed.getD 0)
  unfold HlsSegmenter.close
  generalize s.rollover o (s.segmenter.elapsed.getD 0) = result at hspec ⊢
  obtain ⟨s', _ | seg⟩ := result
  · exact .keep rfl hspec.1
  · exact .push hspec.1 (.refl _)

def Recording.entries (r : Recording) : List PlaylistEntry := r.pushed.map (·.entry)

/-- `index.m3u8` was rendered when the first `listed` of the pushed segments were there. -/
structure Rendered (cfg : SegmentConfig) (upToDate closed : Prop) (pushed listed : List PlaylistEntry) (p : Playlist) :
    Prop where
  render : ∃ isFinal, p = ((PlaylistState.new cfg).pushAll listed).render isFinal
  nonempty : listed ≠ []
  earlier : listed <+: pushed
  current : upToDate → listed = pushed
  final : p.endList = true → closed ∧ listed = pushed

/-- The live playlist holds all that was pushed, `index.m3u8` what was pushed when it was last written, unless it is
cut. -/
structure Indexed (cfg : SegmentConfig) (upToDate closed : Prop) (r : Recording) : Prop where
  playlist : r.segmenter.playlist = (PlaylistState.new cfg).pushAll r.entries
  file : ∀ p, r.segmenter.workspace.playlistFile = some p → r.segmenter.workspace.playlistCut = false →
    ∃ listed, Rendered cfg upToDate closed r.entries listed p

variable {cfg : SegmentConfig} {upToDate closed : Prop} {r : Recording}

theorem indexed_initial (streams : List AvCodecId) (cfg : SegmentConfig) (upToDate closed : Prop) :
    Indexed cfg upToDate closed (.initial streams cfg) :=
  ⟨rfl, by simp [Recording.initial, HlsSegmenter.initial]⟩

theorem entries_after (r : Recording) (s : HlsSegmenter) (out : Option (List TsSegment)) (closing : Option ℤ)
    (lost : Bool) :
    (r.after s out closing lost).entries = r.entries ++ (out.getD []).map fun seg => ⟨seg.filename, seg.duration⟩ := by
  simp [Recording.entries, Recording.after, PushedSegment.entry, Function.comp_def]

/-- A whole `index.m3u8` was just written, or could not be opened and is the old one. -/
theorem listSegment_file {s : HlsSegmenter} {o : Outcome} {seg : TsSegment} {p : Playlist}
    (hp : (s.listSegment o seg).workspace.playlistFile = some p)
    (hwhole : (s.listSegment o seg).workspace.playlistCut = false) :
    (o.writePlaylist = true ∧ p = (s.listSegment o seg).playlist.render seg.isFinal) ∨
    (o.writePlaylist = false ∧ s.workspace.playlistFile = some p ∧ s.workspace.playlistCut = false) := by
  simp only [HlsSegmenter.listSegment, SegmentWorkspace.writePlaylist] at hp hwhole
  cases hwrite : o.writePlaylist with
  | true =>
    rw [hwrite, if_pos rfl] at hp
    exact .inl ⟨rfl, (Option.some.inj hp).symm⟩
  | false =>
    rw [hwrite, if_neg Bool.false_ne_true] at hp hwhole
    cases hleft : o.playlistLeft with
    | none =>
      rw [hleft] at hp hwhole
      exact .inr ⟨rfl, hp, hwhole⟩
    | some n =>
      rw [hleft] at hwhole
      cases hwhole

/-- Until the recording is closed no file says it is. -/
theorem Indexed.after (h : Indexed cfg upToDate False r) {s : HlsSegmenter} {o : Outcome}
    {out : Option (List TsSegment)} (hlists : Lists r.segmenter s o out) (closing : Option ℤ) (lost : Bool)
    (hwritten : upToDate → o.writePlaylist = true) (hfinal : ∀ seg, out = some [seg] → seg.isFinal = true → closed) :
    Indexed cfg upToDate closed (r.after s out closing lost) := by
  cases hlists with
  | keep hout hkeep =>
    have hentries : (r.after s out closing lost).entries = r.entries := by rw [entries_after, hout]; simp
    refine ⟨?_, fun p hp hwhole => ?_⟩
    · rw [hentries]
      exact hkeep.playlist.trans h.playlist
    · obtain ⟨listed, hr⟩ := h.file p (hkeep.file ▸ hp) (hkeep.cut ▸ hwhole)
      exact ⟨listed, hr.render, hr.nonempty, hentries ▸ hr.earlier, hentries ▸ hr.current, fun hend => (hr.final hend).1.elim⟩
  | @push seg mid hbefore hafter =>
    have hentries := entries_after r s (some [seg]) closing lost
    have hplaylist : s.playlist = (PlaylistState.new cfg).pushAll (r.after s (some [seg]) closing lost).entries := by
      rw [hentries, PlaylistState.pushAll, List.foldl_append, hafter.playlist]
      exact congrArg (PlaylistState.pushSegment · seg.filename seg.duration) (hbefore.playlist.trans h.playlist)
    refine ⟨hplaylist, fun p hp hwhole => ?_⟩
    change s.workspace.playlistFile = some p at hp
    change s.workspace.playlistCut = false at hwhole
    rw [hafter.file] at hp
    rw [hafter.cut] at hwhole
    obtain ⟨hwrite, rfl⟩ | ⟨hwrite, hold, hwhole⟩ := listSegment_file hp hwhole
    · rw [← hafter.playlist, hplaylist]
      exact ⟨_, ⟨_, rfl⟩, by simp [hentries], List.prefix_rfl, fun _ => rfl, fun hend => ⟨hfinal seg rfl hend, rfl⟩⟩
    · obtain ⟨listed, hr⟩ := h.file p (hbefore.file ▸ hold) (hbefore.cut ▸ hwhole)
      refine ⟨listed, hr.render, hr.nonempty, ?_, fun hup => ?_, fun hend => (hr.final hend).1.elim⟩
      · rw [hentries]
        exact hr.earlier.trans (List.prefix_append _ _)
      · rw [hwritten hup] at hwrite
        cases hwrite

theorem Indexed.processAll (h : Indexed cfg upToDate False r) (steps : List (Outcome × EncodedPacket))
    (hwritten : ∀ step ∈ steps, upToDate → step.1.writePlaylist = true) :
    Indexed cfg upToDate False (r.processAll steps) := by
  induction steps generalizing r with
  | nil => exact h
  | cons step steps ih =>
    refine ih (h.after (process_lists r.segmenter step.1 step.2) _ _ (hwritten step List.mem_cons_self) ?_)
      fun later hlater => hwritten later (List.mem_cons_of_mem _ hlater)
    intro seg hseg hfinal
    rw [process_isFinal hseg] at hfinal
    cases hfinal

theorem Indexed.finish (h : Indexed cfg upToDate False r) (final : Option Outcome)
    (hwritten : ∀ o ∈ final, upToDate → o.writePlaylist = true) :
    Indexed cfg upToDate (final.isSome = true) (r.finish final) := by
  cases final with
  | none =>
    refine ⟨h.playlist, fun p hp hwhole => ?_⟩
    obtain ⟨listed, hr⟩ := h.file p hp hwhole
    exact ⟨listed, hr.render, hr.nonempty, hr.earlier, hr.current, fun hend => (hr.final hend).1.elim⟩
  | some o => exact h.after (close_lists r.segmenter o) _ _ (hwritten o rfl) fun _ _ _ => rfl

theorem duration_le_targetDuration (p : PlaylistState) (isFinal : Bool) {e : PlaylistEntry} (he : e ∈ p.entries) :
    e.duration ≤ 1000 * (p.render isFinal).targetDuration := by
  have hmem : (e.duration + 999) / 1000 ∈ p.entries.map fun e => (e.duration + 999) / 1000 :=
    List.mem_map_of_mem he
  obtain ⟨m, hm⟩ := Option.isSome_iff_exists.mp (List.isSome_max?_of_mem hmem)
  have hle := (List.max?_eq_some_iff.mp hm).2 _ hmem
  have htarget : (p.render isFinal).targetDuration = m := by rw [PlaylistState.render, hm, Option.getD_some]
  omega

theorem newline_not_mem_segmentFilename (n : ℕ) : '\n' ∉ (segmentFilename n).toList := by
  unfold segmentFilename
  rw [String.toList_ofList]
  simp only [List.mem_append, newline_not_mem_zeroPadded]
  decide

end LivestreamRs.Hls
