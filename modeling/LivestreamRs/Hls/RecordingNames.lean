import LivestreamRs.Hls.Playlist

/-! # File and object names of a recording

The files a stream stages (`SegmentWorkspace`, `livestream-pipeline/src/processor/hls_segment.rs`) and the objects it
uploads (`MinIoSink`, `sink/minio.rs`) lie under its `live_id`, which `sanitize_stream_id` has made safe. Distinct
streams keep apart exactly when they differ in what that leaves of their `live_id`s. Paths are lists of components.
-/
namespace LivestreamRs.Hls
set_option autoImplicit false

/-! ## Identifiers -/

/-- `LiveStreamService::validate_live_id`. -/
def validateLiveId (liveId : String) : Except String String :=
  if liveId.isEmpty then .error "live_id cannot be empty" else .ok liveId

/-- `str::bytes`. -/
def utf8Bytes (s : String) : List UInt8 := s.toList.flatMap String.utf8EncodeChar

def isAsciiAlphanumeric (b : UInt8) : Bool :=
  (0x30 ≤ b && b ≤ 0x39) || (0x41 ≤ b && b ≤ 0x5a) || (0x61 ≤ b && b ≤ 0x7a)

def keepByte (b : UInt8) : Bool := isAsciiAlphanumeric b || b == 0x2d || b == 0x5f

def safeChar (b : UInt8) : Char := if keepByte b then Char.ofUInt8 b else '_'

/-- The `for` loop of `sanitize_stream_id`, which stops at 128 characters. -/
def safeChars (streamId : String) : List Char := ((utf8Bytes streamId).take 128).map safeChar

def sanitizeStreamId (streamId : String) : String :=
  String.ofList (if (safeChars streamId).isEmpty then "unnamed".toList else safeChars streamId)

example : sanitizeStreamId "../../etc/passwd" = "______etc_passwd" ∧ sanitizeStreamId "" = "unnamed" := by decide

theorem safeChar_ne_slash (b : UInt8) : safeChar b ≠ '/' := by
  unfold safeChar
  split
  · next hkeep =>
    intro h
    have hbyte : b.toNat = 47 := congrArg Char.toNat h
    obtain rfl : b = 47 := UInt8.toNat_inj.mp hbyte
    exact absurd hkeep (by decide)
  · decide

/-- A sanitized identifier is a single path segment. -/
theorem slash_notMem_sanitizeStreamId (streamId : String) : '/' ∉ (sanitizeStreamId streamId).toList := by
  rw [sanitizeStreamId, String.toList_ofList]
  split
  · decide
  · intro h
    obtain ⟨b, -, hb⟩ := List.mem_map.mp h
    exact safeChar_ne_slash b hb

theorem safeChars_ne_nil {liveId x : String} (h : validateLiveId liveId = .ok x) : safeChars liveId ≠ [] := by
  cases hcs : liveId.toList with
  | nil =>
    have hempty : liveId = "" := String.toList_inj.mp hcs
    subst hempty
    cases h
  | cons c cs =>
    have hencode : String.utf8EncodeChar c ≠ [] := by
      rw [← List.length_pos_iff, String.length_utf8EncodeChar]
      exact Char.utf8Size_pos c
    simp [safeChars, utf8Bytes, hcs, hencode]

/-- Accepted identifiers are the same after sanitization exactly when their characters are. -/
theorem sanitizeStreamId_inj {x y x' y' : String} (hx : validateLiveId x = .ok x') (hy : validateLiveId y = .ok y') :
    sanitizeStreamId x = sanitizeStreamId y ↔ safeChars x = safeChars y := by
  have hx' : (safeChars x).isEmpty = false := List.isEmpty_eq_false_iff.mpr (safeChars_ne_nil hx)
  have hy' : (safeChars y).isEmpty = false := List.isEmpty_eq_false_iff.mpr (safeChars_ne_nil hy)
  simp [sanitizeStreamId, hx', hy', String.ofList_inj]

/-- A character sanitization keeps. -/
def IsSafeChar (c : Char) : Prop := c.toNat < 128 ∧ keepByte (UInt8.ofNat c.toNat) = true

theorem safeChar_of_safe {c : Char} (h : IsSafeChar c) :
    String.utf8EncodeChar c = [UInt8.ofNat c.toNat] ∧ safeChar (UInt8.ofNat c.toNat) = c := by
  obtain ⟨hascii, hkeep⟩ := h
  constructor
  · have hle : c.toNat ≤ 0x7f := Nat.le_of_lt_succ hascii
    simp [String.utf8EncodeChar, hle]
  · rw [safeChar, if_pos hkeep]
    apply Char.toNat_inj.mp
    have hchar : (Char.ofUInt8 (UInt8.ofNat c.toNat)).toNat = c.toNat % 256 := UInt8.toNat_ofNat
    omega

/-- Sanitization changes nothing in a short identifier of safe characters. -/
theorem safeChars_of_safe {x : String} (hlen : x.toList.length ≤ 128) (hsafe : ∀ c ∈ x.toList, IsSafeChar c) :
    safeChars x = x.toList := by
  have hbytes : utf8Bytes x = x.toList.map fun c => UInt8.ofNat c.toNat := by
    rw [utf8Bytes, List.map_eq_flatMap]
    exact List.flatMap_congr fun c hc => (safeChar_of_safe (hsafe c hc)).1
  rw [safeChars, hbytes, List.take_of_length_le (by simpa using hlen), List.map_map]
  exact (List.map_congr_left fun c hc => (safeChar_of_safe (hsafe c hc)).2).trans (List.map_id _)

/-! ## Files and objects -/

abbrev Path := List String

/-- `SegmentWorkspace::new`: the directory segments are staged in, under the cache root. -/
def uploadDir (cacheRoot : Path) (streamId : String) : Path :=
  cacheRoot ++ ["livestream-rs-artifacts", sanitizeStreamId streamId]

/-- `stage_segment`: an older file of that name is removed. -/
def stagedPath (cacheRoot : Path) (streamId : String) (sequence : ℕ) : Path :=
  uploadDir cacheRoot streamId ++ [segmentFilename sequence]

def playlistPath (cacheRoot : Path) (streamId : String) : Path := uploadDir cacheRoot streamId ++ ["index.m3u8"]

def objectKey (minioPrefix liveId filename : String) : String :=
  minioPrefix ++ "/" ++ sanitizeStreamId liveId ++ "/" ++ filename

/-- The key `consume` uploads a segment under. -/
def segmentKey (minioPrefix liveId : String) (sequence : ℕ) : String :=
  objectKey minioPrefix liveId (segmentFilename sequence)

/-- The key of `upload_playlist`. -/
def playlistKey (minioPrefix liveId : String) : String := objectKey minioPrefix liveId "index.m3u8"

/-- All files a stream may stage. -/
def recordingFiles (cacheRoot : Path) (liveId : String) : Set Path :=
  insert (playlistPath cacheRoot liveId) (Set.range (stagedPath cacheRoot liveId))

/-- All objects a stream may upload. -/
def recordingObjects (minioPrefix liveId : String) : Set String :=
  insert (playlistKey minioPrefix liveId) (Set.range (segmentKey minioPrefix liveId))

theorem uploadDir_inj {cacheRoot : Path} {x y : String} :
    uploadDir cacheRoot x = uploadDir cacheRoot y ↔ sanitizeStreamId x = sanitizeStreamId y := by
  simp [uploadDir]

theorem mem_recordingFiles {cacheRoot path : Path} {x : String} (h : path ∈ recordingFiles cacheRoot x) :
    path.dropLast = uploadDir cacheRoot x := by
  obtain rfl | ⟨n, rfl⟩ := h
  · exact List.dropLast_concat
  · exact List.dropLast_concat

/-- What stands between the first and the second slash after the prefix. -/
def keyOwner (minioPrefix key : String) : List Char :=
  (key.toList.drop (minioPrefix.toList.length + 1)).takeWhile (· ≠ '/')

theorem keyOwner_objectKey (minioPrefix liveId filename : String) :
    keyOwner minioPrefix (objectKey minioPrefix liveId filename) = (sanitizeStreamId liveId).toList := by
  have hkey : (objectKey minioPrefix liveId filename).toList =
      (minioPrefix.toList ++ ['/']) ++ ((sanitizeStreamId liveId).toList ++ '/' :: filename.toList) := by
    simp [objectKey, String.toList_append]
  have hlen : minioPrefix.toList.length + 1 = (minioPrefix.toList ++ ['/']).length := by simp
  rw [keyOwner, hkey, hlen, List.drop_left, List.takeWhile_append_of_pos]
  · simp
  · intro c hc
    have hne : c ≠ '/' := fun h => slash_notMem_sanitizeStreamId liveId (h ▸ hc)
    simpa using hne

theorem mem_recordingObjects {minioPrefix key x : String} (h : key ∈ recordingObjects minioPrefix x) :
    keyOwner minioPrefix key = (sanitizeStreamId x).toList := by
  obtain rfl | ⟨n, rfl⟩ := h
  · exact keyOwner_objectKey ..
  · exact keyOwner_objectKey ..

/-! ## Isolation -/

/-- Two streams have no file and no object in common. -/
structure Isolated (cacheRoot : Path) (minioPrefix x y : String) : Prop where
  uploadDir : uploadDir cacheRoot x ≠ uploadDir cacheRoot y
  files : ∀ path ∈ recordingFiles cacheRoot x, path ∉ recordingFiles cacheRoot y
  objects : ∀ key ∈ recordingObjects minioPrefix x, key ∉ recordingObjects minioPrefix y

theorem isolated_of_ne {x y : String} (h : sanitizeStreamId x ≠ sanitizeStreamId y) (cacheRoot : Path)
    (minioPrefix : String) : Isolated cacheRoot minioPrefix x y where
  uploadDir heq := h (uploadDir_inj.mp heq)
  files _ hx hy := h (uploadDir_inj.mp ((mem_recordingFiles hx).symm.trans (mem_recordingFiles hy)))
  objects _ hx hy := h (String.toList_inj.mp ((mem_recordingObjects hx).symm.trans (mem_recordingObjects hy)))

theorem isolated_of_safe {x y : String} (hx : validateLiveId x = .ok x) (hy : validateLiveId y = .ok y) (hne : x ≠ y)
    (hxlen : x.toList.length ≤ 128) (hylen : y.toList.length ≤ 128) (hxsafe : ∀ c ∈ x.toList, IsSafeChar c)
    (hysafe : ∀ c ∈ y.toList, IsSafeChar c) (cacheRoot : Path) (minioPrefix : String) :
    Isolated cacheRoot minioPrefix x y := by
  refine isolated_of_ne (fun heq => hne ?_) ..
  rw [sanitizeStreamId_inj hx hy, safeChars_of_safe hxlen hxsafe, safeChars_of_safe hylen hysafe] at heq
  exact String.toList_inj.mp heq

/-- Streams with different accepted identifiers keep apart exactly when the identifiers differ in their first 128
bytes, all but letters, digits, `-` and `_` taken for the same. -/
theorem recordings_isolated_iff (cacheRoot : Path) (minioPrefix x y : String) (hx : validateLiveId x = .ok x)
    (hy : validateLiveId y = .ok y) : Isolated cacheRoot minioPrefix x y ↔ safeChars x ≠ safeChars y := by
  rw [Ne, ← sanitizeStreamId_inj hx hy]
  exact ⟨fun h heq => h.uploadDir (uploadDir_inj.mpr heq), fun h => isolated_of_ne h ..⟩

theorem recordings_isolated_cameras : Isolated ["cache"] "hls" "cam-1" "cam-2" :=
  (recordings_isolated_iff ["cache"] "hls" "cam-1" "cam-2" rfl rfl).mpr (by decide)

/-- Two accepted identifiers with the same files and objects, by a replaced character. -/
theorem recordings_collide :
    validateLiveId "cam 1" = .ok "cam 1" ∧ validateLiveId "cam/1" = .ok "cam/1" ∧ "cam 1" ≠ "cam/1" ∧
    uploadDir ["cache"] "cam 1" = uploadDir ["cache"] "cam/1" ∧
    segmentKey "hls" "cam 1" 0 = segmentKey "hls" "cam/1" 0 ∧
    playlistKey "hls" "cam 1" = playlistKey "hls" "cam/1" ∧ ¬ Isolated ["cache"] "hls" "cam 1" "cam/1" := by
  have hsame : sanitizeStreamId "cam 1" = sanitizeStreamId "cam/1" := by decide
  refine ⟨by decide, by decide, by decide, ?_, ?_, ?_, fun h => h.uploadDir (uploadDir_inj.mpr hsame)⟩
  · rw [uploadDir, uploadDir, hsame]
  · rw [segmentKey, segmentKey, objectKey, objectKey, hsame]
  · rw [playlistKey, playlistKey, objectKey, objectKey, hsame]

end LivestreamRs.Hls
