import LivestreamRs.Rtsp.Session

/-! # The interleaved channels of a session

SETUP answers with a pair of channels for the RTP and RTCP packets of one media stream. `handle_setup` takes the pair
from the path of the request URI alone: a path that contains `track2` and not `track1` gets the audio pair, every other
path the video pair. A session never changes its two pairs and does not keep which of them it has given out.
-/
namespace LivestreamRs.Rtsp
open Media
set_option autoImplicit false

/-- The `Transport` header of an answer that gives out the channels `ch` and `ch + 1`. -/
def interleavedTransport (ch : ℕ) : String :=
  "RTP/AVP/TCP;interleaved=" ++ toString ch ++ "-" ++ toString (ch + 1)

/-- The media stream is set up as audio. -/
def isAudioPath : Option (List Char) → Bool
  | some path => decide ("track2".toList <:+: path) && !decide ("track1".toList <:+: path)
  | none => false

namespace RtspSession
variable {base64 : Base64} {s : RtspSession} {request : RtspRequest}

/-- The request is answered 200, with the channels `ch` and `ch + 1`. -/
def Assigns (base64 : Base64) (s : RtspSession) (request : RtspRequest) (ch : ℕ) : Prop :=
  ∃ response, (s.handleRequest base64 request).2 = .ok response ∧ response.status = .ok ∧
    response.transport = some (interleavedTransport ch)

theorem channels_kept (base64 : Base64) (s : RtspSession) (request : RtspRequest) :
    (s.handleRequest base64 request).1.videoChannel = s.videoChannel ∧
      (s.handleRequest base64 request).1.audioChannel = s.audioChannel := by
  simp only [handleRequest]
  cases request.method with
  | announce =>
    simp only [handleAnnounce]
    split
    · exact ⟨rfl, rfl⟩
    · split
      · exact ⟨rfl, rfl⟩
      · cases request.uriPath <;> exact ⟨rfl, rfl⟩
  | setup =>
    simp only [handleSetup]
    split <;> exact ⟨rfl, rfl⟩
  | record =>
    simp only [handleRecord]
    split <;> exact ⟨rfl, rfl⟩
  | options | teardown | other => exact ⟨rfl, rfl⟩

/-- The two pairs are those of a new session, whatever was requested. -/
theorem channels_handleRequests (base64 : Base64) (requests : List RtspRequest) :
    (handleRequests base64 {} requests).videoChannel = 0 ∧ (handleRequests base64 {} requests).audioChannel = 2 := by
  induction requests using List.reverseRecOn with
  | nil => exact ⟨rfl, rfl⟩
  | append_singleton requests request ih =>
    obtain ⟨hvideo, haudio⟩ := (handleRequests base64 {} requests).channels_kept base64 request
    rw [handleRequests_concat]
    exact ⟨hvideo.trans ih.1, haudio.trans ih.2⟩

theorem channel_of_setup (request : RtspRequest) (video audio : ℕ) :
    (if (match request.uriPath with
        | some path => decide ("track1".toList <:+: path) || !decide ("track2".toList <:+: path)
        | none => true) = true then video else audio) =
      if isAudioPath request.uriPath then audio else video := by
  cases request.uriPath with
  | none => rfl
  | some path =>
    have hswap : ∀ one two : Bool, (if (one || !two) = true then video else audio) =
        if (two && !one) = true then audio else video := by
      intro one two
      cases one <;> cases two <;> rfl
    exact hswap (decide ("track1".toList <:+: path)) (decide ("track2".toList <:+: path))

theorem setup_assigns (hmethod : request.method = .setup) (hacc : s.Accepts base64 request) :
    s.Assigns base64 request (if isAudioPath request.uriPath then s.audioChannel else s.videoChannel) := by
  obtain ⟨response, hresponse, hok⟩ := hacc
  refine ⟨response, hresponse, hok, ?_⟩
  simp only [handleRequest, hmethod, handleSetup] at hresponse
  split at hresponse
  · obtain rfl := Except.ok.inj hresponse
    cases hok
  · rw [← channel_of_setup request s.videoChannel s.audioChannel]
    exact congrArg RtspResponse.transport (Except.ok.inj hresponse).symm

/-- Two media streams of a session get disjoint pairs exactly when one is set up as audio and the other is not. -/
theorem setup_channels_disjoint_iff (base64 : Base64) (before middle : List RtspRequest) (first second : RtspRequest)
    (hfirst : first.method = .setup) (hsecond : second.method = .setup)
    (haccepted : (handleRequests base64 {} before).Accepts base64 first)
    (haccepted' : (handleRequests base64 {} (before ++ first :: middle)).Accepts base64 second) :
    ∃ ch ch', (handleRequests base64 {} before).Assigns base64 first ch ∧
      (handleRequests base64 {} (before ++ first :: middle)).Assigns base64 second ch' ∧
      ((∀ c ∈ [ch, ch + 1], c ∉ [ch', ch' + 1]) ↔ isAudioPath first.uriPath ≠ isAudioPath second.uriPath) := by
  obtain ⟨hvideo, haudio⟩ := channels_handleRequests base64 before
  obtain ⟨hvideo', haudio'⟩ := channels_handleRequests base64 (before ++ first :: middle)
  have hassigns := setup_assigns hfirst haccepted
  have hassigns' := setup_assigns hsecond haccepted'
  rw [hvideo, haudio] at hassigns
  rw [hvideo', haudio'] at hassigns'
  refine ⟨_, _, hassigns, hassigns', ?_⟩
  cases isAudioPath first.uriPath <;> cases isAudioPath second.uriPath <;> decide

def announceTwoStreams : RtspRequest :=
  { method := .announce, uriPath := some "/live/cam".toList, cseq := some 1,
    body := ("m=video 0 RTP/AVP 96\r\na=rtpmap:96 H264/90000\r\n" ++
      "m=audio 0 RTP/AVP 97\r\na=rtpmap:97 OPUS/48000\r\n").toUTF8.toList }

def setupOf (path : String) (cseq : ℕ) : RtspRequest :=
  { method := .setup, uriPath := some path.toList, cseq := some cseq, body := [] }

theorem setup_channels_of_tracks :
    ∃ ch ch', (handleRequests noBase64 {} [announceTwoStreams]).Assigns noBase64 (setupOf "/live/cam/track1" 2) ch ∧
      (handleRequests noBase64 {} ([announceTwoStreams] ++ setupOf "/live/cam/track1" 2 :: [])).Assigns noBase64
        (setupOf "/live/cam/track2" 3) ch' ∧
      ((∀ c ∈ [ch, ch + 1], c ∉ [ch', ch' + 1]) ↔
        isAudioPath (setupOf "/live/cam/track1" 2).uriPath ≠ isAudioPath (setupOf "/live/cam/track2" 3).uriPath) :=
  setup_channels_disjoint_iff noBase64 [announceTwoStreams] [] (setupOf "/live/cam/track1" 2)
    (setupOf "/live/cam/track2" 3) rfl rfl ⟨{ status := .ok, cseq := 2, transport := some (interleavedTransport 0) }, by decide +kernel, rfl⟩
    ⟨{ status := .ok, cseq := 3, transport := some (interleavedTransport 2) }, by decide +kernel, rfl⟩

/-- Streams named by `streamid` are both given the video pair. -/
theorem setup_channels_of_streamids :
    (handleRequests noBase64 {} [announceTwoStreams]).Assigns noBase64 (setupOf "/live/cam/streamid=0" 2) 0 ∧
      (handleRequests noBase64 {} [announceTwoStreams, setupOf "/live/cam/streamid=0" 2]).Assigns noBase64
        (setupOf "/live/cam/streamid=1" 3) 0 :=
  ⟨⟨{ status := .ok, cseq := 2, transport := some (interleavedTransport 0) }, by decide +kernel, rfl, rfl⟩,
    ⟨{ status := .ok, cseq := 3, transport := some (interleavedTransport 0) }, by decide +kernel, rfl, rfl⟩⟩

end RtspSession
end LivestreamRs.Rtsp
