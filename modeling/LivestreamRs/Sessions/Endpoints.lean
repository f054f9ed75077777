import LivestreamRs.Hls.RecordingNames
import LivestreamRs.Rtmp.StreamKey
import LivestreamRs.Rtsp.Session

/-! # The endpoints of a stream

What `IngestGrpcService` (`livestream-transport/src/grpc/server.rs`) tells a client about where to publish and play a
stream, and how the three servers read a stream's identifier back from what the client sends there: the path of an
RTSP ANNOUNCE, the key of an RTMP request (`rtmp/session.rs`), the path of an HTTP-FLV request
(`http_flv/server.rs`).
-/
namespace LivestreamRs.Sessions
set_option autoImplicit false

/-! ## What the service publishes -/

inductive Protocol
  | rtmp
  | rtsp
  | hls
  | httpFlv
  deriving DecidableEq

structure RtmpEndpoint where
  port : ℕ
  appName : String
  streamKey : String
  deriving DecidableEq

structure RtspEndpoint where
  port : ℕ
  path : String
  deriving DecidableEq

structure HttpFlvPlaybackEndpoint where
  port : ℕ
  path : String
  deriving DecidableEq

structure IngestEndpoints where
  rtmp : Option RtmpEndpoint
  rtsp : Option RtspEndpoint
  deriving DecidableEq

structure PlaybackEndpoints where
  rtmp : Option RtmpEndpoint
  httpFlv : Option HttpFlvPlaybackEndpoint
  deriving DecidableEq

structure StreamEndpoints where
  ingest : IngestEndpoints
  playback : PlaybackEndpoints
  deriving DecidableEq

/-- `playback_path`, under `PATH_PREFIX`. -/
def playbackPath (liveId : String) : String := "/lives" ++ "/" ++ liveId ++ ".flv"

structure IngestGrpcService where
  rtmpPort : Option ℕ
  rtmpAppName : String
  rtspPort : Option ℕ
  httpFlvEnabled : Bool
  httpFlvPort : ℕ

namespace IngestGrpcService
variable (service : IngestGrpcService) (liveId : String)

def rtmpEndpoint (port : ℕ) : RtmpEndpoint :=
  { port := port, appName := service.rtmpAppName, streamKey := liveId }

-- the port of the session itself is not read
def ingestEndpoints (protocol : Protocol) (_ingestPort : ℕ) : IngestEndpoints :=
  match protocol with
  | .rtmp => { rtmp := some (service.rtmpEndpoint liveId (service.rtmpPort.getD 0)), rtsp := none }
  | .rtsp => { rtmp := none, rtsp := some { port := service.rtspPort.getD 0, path := "/live/" ++ liveId } }
  -- falls back to RTMP, with a warning
  | .hls | .httpFlv => { rtmp := some (service.rtmpEndpoint liveId (service.rtmpPort.getD 0)), rtsp := none }

def playbackEndpoints (rtmpPort : ℕ) (httpFlvPort : Option ℕ) (httpFlvPath : Option String) : PlaybackEndpoints :=
  { rtmp := some (service.rtmpEndpoint liveId rtmpPort)
    httpFlv := httpFlvPath.bind fun path => httpFlvPort.map fun port => { port := port, path := path } }

def httpFlvPath : Option String := if service.httpFlvEnabled then some (playbackPath liveId) else none

/-- The endpoints `descriptor_to_proto` writes for a session, from its identifier, protocol and port. -/
def descriptorEndpoints (protocol : Protocol) (port : Option ℕ) : StreamEndpoints :=
  let rtmpPort := service.rtmpPort.getD 0
  { ingest := service.ingestEndpoints liveId protocol (port.getD rtmpPort)
    playback := service.playbackEndpoints liveId rtmpPort (some service.httpFlvPort) (service.httpFlvPath liveId) }

variable {service liveId}

theorem ingestEndpoints_rtmp {protocol : Protocol} {port : ℕ} {endpoint : RtmpEndpoint}
    (h : (service.ingestEndpoints liveId protocol port).rtmp = some endpoint) :
    endpoint.appName = service.rtmpAppName ∧ endpoint.streamKey = liveId := by
  cases protocol with
  | rtsp => cases h
  | rtmp | hls | httpFlv =>
    obtain rfl := Option.some.inj h
    exact ⟨rfl, rfl⟩

theorem ingestEndpoints_rtsp {protocol : Protocol} {port : ℕ} {endpoint : RtspEndpoint}
    (h : (service.ingestEndpoints liveId protocol port).rtsp = some endpoint) : endpoint.path = "/live/" ++ liveId := by
  cases protocol with
  | rtsp =>
    obtain rfl := Option.some.inj h
    rfl
  | rtmp | hls | httpFlv => cases h

end IngestGrpcService

/-! ## RTSP -/

section Rtsp
open Rtsp

/-- A segment `handle_announce` may take for the identifier. -/
def namesStream (segment : List Char) : Bool := !segment.isEmpty && !"track".toList.isPrefixOf segment

theorem namesStream_iff {segment : List Char} :
    namesStream segment = true ↔ segment ≠ [] ∧ ¬ "track".toList <+: segment := by
  simp only [namesStream, Bool.and_eq_true, Bool.not_eq_true', List.isEmpty_eq_false_iff, ← List.isPrefixOf_iff_prefix,
    Bool.not_eq_true]

theorem liveIdOfPath_segments {first : List Char} {rest : List (List Char)} (hne : first ≠ [])
    (hslash : ∀ segment ∈ first :: rest, '/' ∉ segment) :
    liveIdOfPath ('/' :: ['/'].intercalate (first :: rest)) =
      ((first :: rest).reverse.find? namesStream).map String.ofList := by
  obtain ⟨c, cs, rfl⟩ := List.exists_cons_of_ne_nil hne
  have hc : c ≠ '/' := fun h => hslash _ List.mem_cons_self (h ▸ List.mem_cons_self)
  have htrim : ('/' :: ['/'].intercalate ((c :: cs) :: rest)).dropWhile (· = '/') =
      ['/'].intercalate ((c :: cs) :: rest) := by
    cases rest <;> simp [List.intercalate, List.intersperse, hc]
  unfold liveIdOfPath
  rw [htrim, List.splitOn_intercalate '/' hslash (List.cons_ne_nil _ _)]
  rfl

/-- The request URI's path: the one of the endpoint, or that of one of its tracks. -/
def IsPathOf (endpoint : RtspEndpoint) (path : List Char) : Prop :=
  path = endpoint.path.toList ∨ ∃ track, '/' ∉ track ∧ path = endpoint.path.toList ++ "/track".toList ++ track

theorem liveIdOfPath_endpoint {liveId : String} (hne : liveId ≠ "") (hslash : '/' ∉ liveId.toList)
    {endpoint : RtspEndpoint} (hendpoint : endpoint.path = "/live/" ++ liveId) {path : List Char}
    (hpath : IsPathOf endpoint path) :
    liveIdOfPath path = if "track".toList <+: liveId.toList then some "live" else some liveId := by
  have hnonempty : liveId.toList ≠ [] := fun h => hne (String.toList_inj.mp h)
  have hlive : '/' ∉ "live".toList := by decide
  have hfind : ([liveId.toList, "live".toList].find? namesStream).map String.ofList =
      if "track".toList <+: liveId.toList then some "live" else some liveId := by
    by_cases hlooks : "track".toList <+: liveId.toList
    · rw [if_pos hlooks, List.find?_cons_of_neg fun h => (namesStream_iff.mp h).2 hlooks]
      decide
    · rw [if_neg hlooks, List.find?_cons_of_pos (namesStream_iff.mpr ⟨hnonempty, hlooks⟩), Option.map_some,
        String.ofList_toList]
  rcases hpath with rfl | ⟨track, htrack, rfl⟩
  · have hsplit : endpoint.path.toList = '/' :: ['/'].intercalate ["live".toList, liveId.toList] := by
      simp [hendpoint, List.intercalate, List.intersperse]
    rw [hsplit, liveIdOfPath_segments (by decide) (by simp [hslash])]
    exact hfind
  -- the segment of the track is passed over
  · have hsplit : endpoint.path.toList ++ "/track".toList ++ track =
        '/' :: ['/'].intercalate ["live".toList, liveId.toList, "track".toList ++ track] := by
      simp [hendpoint, List.intercalate, List.intersperse]
    have hskip : ¬ namesStream ("track".toList ++ track) = true := fun h =>
      (namesStream_iff.mp h).2 (List.prefix_append _ _)
    rw [hsplit, liveIdOfPath_segments (by decide) (by simp [hslash, htrack])]
    exact (congrArg _ (List.find?_cons_of_neg hskip)).trans hfind

/-- An ANNOUNCE at the endpoint given for a stream names that stream, unless its identifier looks like a track. -/
theorem announce_liveId_iff {base64 : Base64} {service : IngestGrpcService} {liveId : String} (hne : liveId ≠ "")
    (hsafe : ∀ c ∈ liveId.toList, Hls.IsSafeChar c) {port : ℕ} {endpoint : RtspEndpoint}
    (hendpoint : (service.ingestEndpoints liveId .rtsp port).rtsp = some endpoint) {s : RtspSession}
    (hstate : s.state = .waitAnnounce) {request : RtspRequest} (hmethod : request.method = .announce)
    {path : List Char} (huri : request.uriPath = some path) (hpath : IsPathOf endpoint path) {sdp : ParsedSdp}
    (hsdp : parseSdp base64 (fromUtf8Lossy request.body) = .ok sdp) :
    (s.handleRequest base64 request).1.liveId = some liveId ↔ ¬ "track".toList <+: liveId.toList := by
  have hslash : '/' ∉ liveId.toList := fun h => absurd (hsafe _ h).2 (by decide)
  have hannounced : (s.handleRequest base64 request).1.liveId = liveIdOfPath path := by
    simp [RtspSession.handleRequest, hmethod, RtspSession.handleAnnounce, hstate, hsdp, huri]
  rw [hannounced, liveIdOfPath_endpoint hne hslash (IngestGrpcService.ingestEndpoints_rtsp hendpoint) hpath]
  split
  · next htrack =>
    -- the segment before it would have to be the identifier
    refine iff_of_false (fun h => ?_) (not_not.mpr htrack)
    obtain rfl := Option.some.inj h
    exact absurd htrack (by decide)
  · next htrack => exact iff_of_true rfl htrack

def sampleService : IngestGrpcService :=
  { rtmpPort := some 1935, rtmpAppName := "live", rtspPort := some 554, httpFlvEnabled := true, httpFlvPort := 8080 }

/-- An ANNOUNCE with one video track. -/
def announceOf (path : String) : RtspRequest :=
  { method := .announce
    uriPath := some path.toList
    cseq := some 1
    body := "m=video 0 RTP/AVP 96\r\na=rtpmap:96 H264/90000\r\n".toUTF8.toList }

/-- What its body describes. -/
def announcedSdp : ParsedSdp :=
  { codecParams := [{ codec := .h264, mediaType := .video, clockRate := 90000, extradata := none }]
    rawSdp := "m=video 0 RTP/AVP 96\r\na=rtpmap:96 H264/90000\r\n".toList
    nonempty := List.cons_ne_nil _ _ }

theorem announce_liveId_cam :
    (({} : RtspSession).handleRequest noBase64 (announceOf "/live/cam-1/track1")).1.liveId = some "cam-1" := by
  have hendpoint : (sampleService.ingestEndpoints "cam-1" .rtsp 554).rtsp = some { port := 554, path := "/live/cam-1" } :=
    rfl
  have hsafe : ∀ c ∈ "cam-1".toList, Hls.IsSafeChar c := by
    simp [Hls.IsSafeChar, Hls.keepByte, Hls.isAsciiAlphanumeric]
  have hsdp : parseSdp noBase64 (fromUtf8Lossy (announceOf "/live/cam-1/track1").body) = .ok announcedSdp := by decide +kernel
  have hpath : IsPathOf { port := 554, path := "/live/cam-1" } "/live/cam-1/track1".toList :=
    .inr ⟨"1".toList, by decide, by decide⟩
  exact (announce_liveId_iff (by decide) hsafe hendpoint rfl rfl rfl hpath hsdp).mpr (by decide)

/-- The identifier `track1` is passed over for the segment before it. -/
theorem announce_liveId_track :
    (sampleService.ingestEndpoints "track1" .rtsp 554).rtsp = some { port := 554, path := "/live/track1" } ∧
    (({} : RtspSession).handleRequest noBase64 (announceOf "/live/track1")).1.liveId = some "live" := by
  decide +kernel

end Rtsp

/-! ## RTMP and HTTP-FLV -/

section Playback
open Rtmp

/-- What the wildcard of `ROUTE_PATH`, `/lives/{*path}`, captures of a request path; it is not empty. -/
def routeCapture (path : String) : Option String :=
  (path.toList.dropPrefix? "/lives/".toList).bind fun rest => if rest.isEmpty then none else some (String.ofList rest)

/-- `parse_live_id` of `http_flv/server.rs`. -/
def parseLiveId (path : String) : Option String :=
  (path.toList.dropSuffix? ".flv".toList).bind fun liveId =>
    if liveId.isEmpty || liveId.contains '/' then none else some (String.ofList liveId)

theorem routeCapture_playbackPath (liveId : String) : routeCapture (playbackPath liveId) = some (liveId ++ ".flv") := by
  have hsplit : (playbackPath liveId).toList = "/lives/".toList ++ (liveId ++ ".flv").toList := by
    simp [playbackPath]
  have hne : (liveId ++ ".flv").toList.isEmpty = false := by simp
  rw [routeCapture, hsplit, List.dropPrefix?_append_of_beq _ (beq_self_eq_true _), Option.bind_some, hne]
  exact congrArg some String.ofList_toList

theorem parseLiveId_flv {liveId : String} (hne : liveId ≠ "") :
    parseLiveId (liveId ++ ".flv") = if '/' ∈ liveId.toList then none else some liveId := by
  have hdrop : (liveId ++ ".flv").toList.dropSuffix? ".flv".toList = some liveId.toList :=
    List.dropSuffix?_eq_some_iff.mpr ⟨".flv".toList, String.toList_append, beq_self_eq_true _⟩
  have hnonempty : liveId.toList.isEmpty = false :=
    List.isEmpty_eq_false_iff.mpr fun h => hne (String.toList_inj.mp h)
  rw [parseLiveId, hdrop, Option.bind_some, hnonempty]
  simp

theorem ne_empty_of_validateLiveId {liveId x : String} (h : Hls.validateLiveId liveId = .ok x) : liveId ≠ "" := by
  rintro rfl
  cases h

/-- A publisher, an RTMP player and an HTTP-FLV player each reach the stream whose endpoints they were given exactly when
its identifier has no slash and no query: a question mark is read as one, unless neither the key nor the application
fits the pattern. -/
theorem endpoints_resolve_iff {service : IngestGrpcService} {liveId : String}
    (hvalid : Hls.validateLiveId liveId = .ok liveId) {protocol : Protocol} {port : ℕ} {endpoint : RtmpEndpoint}
    (hendpoint : (service.ingestEndpoints liveId protocol port).rtmp = some endpoint) :
    (extractStreamKey endpoint.streamKey service.rtmpAppName = liveId ∧ playStreamKey endpoint.streamKey = liveId ∧
      (routeCapture (playbackPath liveId)).bind parseLiveId = some liveId) ↔
    '/' ∉ liveId.toList ∧
      ('?' ∉ liveId.toList ∨ captures liveId = none ∧ captures service.rtmpAppName = none) := by
  have hne := ne_empty_of_validateLiveId hvalid
  have hhttp : (routeCapture (playbackPath liveId)).bind parseLiveId = some liveId ↔ '/' ∉ liveId.toList := by
    rw [routeCapture_playbackPath, Option.bind_some, parseLiveId_flv hne]
    simp
  obtain ⟨-, hkey⟩ := IngestGrpcService.ingestEndpoints_rtmp hendpoint
  rw [hhttp, hkey]
  constructor
  · rintro ⟨hpublish, -, hslash⟩
    exact ⟨hslash, (extractStreamKey_eq_iff hne hslash _).mp hpublish⟩
  · rintro ⟨hslash, hquery⟩
    exact ⟨(extractStreamKey_eq_iff hne hslash _).mpr hquery,
      (playStreamKey_eq_iff hne hslash).mpr (hquery.imp_right And.left), hslash⟩

theorem endpoints_resolve_cam :
    extractStreamKey "cam-1" "live" = "cam-1" ∧ playStreamKey "cam-1" = "cam-1" ∧
      (routeCapture (playbackPath "cam-1")).bind parseLiveId = some "cam-1" := by
  have hendpoint : (sampleService.ingestEndpoints "cam-1" .rtmp 1935).rtmp =
      some { port := 1935, appName := "live", streamKey := "cam-1" } := rfl
  exact (endpoints_resolve_iff rfl hendpoint).mpr ⟨by decide, .inl (by decide)⟩

/-- Two accepted identifiers: `live/cam` is published and played as `cam` and has no HTTP-FLV page, and `cam?1` is
published and played as `cam`. -/
theorem endpoints_resolve_other_stream :
    (Hls.validateLiveId "live/cam" = .ok "live/cam" ∧
      (sampleService.ingestEndpoints "live/cam" .rtmp 1935).rtmp =
        some { port := 1935, appName := "live", streamKey := "live/cam" } ∧
      extractStreamKey "live/cam" "live" = "cam" ∧ playStreamKey "live/cam" = "cam" ∧
      (routeCapture (playbackPath "live/cam")).bind parseLiveId = none) ∧
    (Hls.validateLiveId "cam?1" = .ok "cam?1" ∧
      (sampleService.ingestEndpoints "cam?1" .rtmp 1935).rtmp =
        some { port := 1935, appName := "live", streamKey := "cam?1" } ∧
      extractStreamKey "cam?1" "live" = "cam" ∧ playStreamKey "cam?1" = "cam") := by
  decide

end Playback
end LivestreamRs.Sessions
