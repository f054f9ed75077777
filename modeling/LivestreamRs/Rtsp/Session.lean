import LivestreamRs.Rtsp.MessageReader
import LivestreamRs.Rtsp.Sdp

/-! # The RTSP session

`RtspSession` (`livestream-transport/src/rtsp/session.rs`): ANNOUNCE, SETUP, RECORD and TEARDOWN, as a state machine
over the requests of a connection. A request is what `rtsp-types` parses: its method, the path of its URI, its
`CSeq` and its body.
-/
namespace LivestreamRs.Rtsp
open Media
set_option autoImplicit false

/-! ## Messages -/

inductive RtspMethod
  | announce
  | options
  | setup
  | record
  | teardown
  -- any other, extensions included
  | other
  deriving DecidableEq

structure RtspRequest where
  method : RtspMethod
  uriPath : Option (List Char)
  -- the typed header, if there is one and it is a number
  cseq : Option ℕ
  body : Bytes

inductive StatusCode
  | ok
  | methodNotAllowed
  | methodNotValidInThisState
  deriving DecidableEq

structure RtspResponse where
  status : StatusCode
  cseq : ℕ
  transport : Option String := none
  deriving DecidableEq

def okResponse (cseq : ℕ) : RtspResponse := { status := .ok, cseq := cseq }

def errorResponse (status : StatusCode) (cseq : ℕ) : RtspResponse := { status := status, cseq := cseq }

/-! ## The session -/

inductive SessionPhase
  | waitAnnounce
  | waitSetup
  | waitRecord
  | recording
  | teardown
  deriving DecidableEq

structure RtspSession where
  state : SessionPhase := .waitAnnounce
  parsedSdp : Option ParsedSdp := none
  videoChannel : ℕ := 0
  audioChannel : ℕ := 2
  liveId : Option String := none

/-- The last segment of a path that is not empty and does not name a track. -/
def liveIdOfPath (path : List Char) : Option String :=
  (((path.dropWhile (· = '/')).splitOn '/').reverse.find? fun s =>
    !s.isEmpty && !"track".toList.isPrefixOf s).map String.ofList

namespace RtspSession
variable (base64 : Base64) (s : RtspSession)

/-- The session after a request, and the answer. -/
abbrev Handled := RtspSession × Except SdpFailure RtspResponse

def handleAnnounce (request : RtspRequest) (cseq : ℕ) : Handled :=
  if s.state ≠ .waitAnnounce then (s, .ok (errorResponse .methodNotValidInThisState cseq))
  else
    match parseSdp base64 (fromUtf8Lossy request.body) with
    | .error e => (s, .error e)
    | .ok parsed =>
      let s := { s with parsedSdp := some parsed }
      let s :=
        match request.uriPath with
        | some path => { s with liveId := liveIdOfPath path }
        | none => s
      ({ s with state := .waitSetup }, .ok (okResponse cseq))

def handleSetup (request : RtspRequest) (cseq : ℕ) : Handled :=
  if s.state ≠ .waitSetup ∧ s.state ≠ .waitRecord then (s, .ok (errorResponse .methodNotValidInThisState cseq))
  else
    let isVideo : Bool :=
      match request.uriPath with
      | some path => decide ("track1".toList <:+: path) || !decide ("track2".toList <:+: path)
      | none => true
    let ch := if isVideo then s.videoChannel else s.audioChannel
    ({ s with state := .waitRecord },
      .ok { status := .ok
            cseq := cseq
            transport := some ("RTP/AVP/TCP;interleaved=" ++ toString ch ++ "-" ++ toString (ch + 1)) })

def handleRecord (cseq : ℕ) : Handled :=
  if s.state ≠ .waitRecord then (s, .ok (errorResponse .methodNotValidInThisState cseq))
  else ({ s with state := .recording }, .ok (okResponse cseq))

def handleRequest (request : RtspRequest) : Handled :=
  let cseq := request.cseq.getD 0
  match request.method with
  | .announce => s.handleAnnounce base64 request cseq
  | .options => (s, .ok (okResponse cseq))
  | .setup => s.handleSetup request cseq
  | .record => s.handleRecord cseq
  | .teardown => ({ s with state := .teardown }, .ok (okResponse cseq))
  | .other => (s, .ok (errorResponse .methodNotAllowed cseq))

/-- The session after a list of requests. -/
def handleRequests (requests : List RtspRequest) : RtspSession :=
  requests.foldl (fun s r => (s.handleRequest base64 r).1) s

/-- The request is answered 200. -/
def Accepts (request : RtspRequest) : Prop :=
  ∃ response, (s.handleRequest base64 request).2 = .ok response ∧ response.status = .ok

/-! ## One request -/

variable {base64 s} {request : RtspRequest}

theorem accepts_of {t : RtspSession} {response : RtspResponse} (h : s.handleRequest base64 request = (t, .ok response))
    (hok : response.status = .ok) : s.Accepts base64 request := ⟨response, by rw [h], hok⟩

theorem not_accepts_of {t : RtspSession} {status : StatusCode} {cseq : ℕ}
    (h : s.handleRequest base64 request = (t, .ok (errorResponse status cseq))) (hstatus : status ≠ .ok) :
    ¬ s.Accepts base64 request := by
  rintro ⟨response', hresponse, hok⟩
  rw [h] at hresponse
  obtain rfl := Except.ok.inj hresponse
  exact hstatus hok

/-- A request is accepted and moves the session on, or it changes nothing. -/
theorem handleRequest_cases (base64 : Base64) (s : RtspSession) (request : RtspRequest) :
    (¬ s.Accepts base64 request ∧ request.method ≠ .teardown ∧ (s.handleRequest base64 request).1 = s) ∨
    (s.Accepts base64 request ∧ request.method = .announce ∧ s.state = .waitAnnounce ∧
      (s.handleRequest base64 request).1.state = .waitSetup ∧
      ∃ sdp, parseSdp base64 (fromUtf8Lossy request.body) = .ok sdp ∧
        (s.handleRequest base64 request).1.parsedSdp = some sdp) ∨
    (s.Accepts base64 request ∧ request.method = .options ∧ (s.handleRequest base64 request).1 = s) ∨
    (s.Accepts base64 request ∧ request.method = .setup ∧ (s.state = .waitSetup ∨ s.state = .waitRecord) ∧
      (s.handleRequest base64 request).1 = { s with state := .waitRecord }) ∨
    (s.Accepts base64 request ∧ request.method = .record ∧ s.state = .waitRecord ∧
      (s.handleRequest base64 request).1 = { s with state := .recording }) ∨
    (s.Accepts base64 request ∧ request.method = .teardown ∧
      (s.handleRequest base64 request).1 = { s with state := .teardown }) := by
  cases hmethod : request.method with
  | announce =>
    have hrequest : s.handleRequest base64 request = s.handleAnnounce base64 request (request.cseq.getD 0) := by
      simp only [handleRequest, hmethod]
    by_cases hstate : s.state = .waitAnnounce
    · cases hsdp : parseSdp base64 (fromUtf8Lossy request.body) with
      | error e =>
        have hsame : s.handleRequest base64 request = (s, .error e) := by
          rw [hrequest, handleAnnounce, if_neg (not_not.mpr hstate), hsdp]
        refine .inl ⟨?_, by simp, by rw [hsame]⟩
        rintro ⟨response, hresponse, -⟩
        rw [hsame] at hresponse
        cases hresponse
      | ok sdp =>
        rw [handleAnnounce, if_neg (not_not.mpr hstate), hsdp] at hrequest
        refine .inr (.inl ⟨accepts_of hrequest rfl, rfl, hstate, by rw [hrequest], sdp, rfl, ?_⟩)
        rw [hrequest]
        cases request.uriPath <;> rfl
    · rw [handleAnnounce, if_pos hstate] at hrequest
      exact .inl ⟨not_accepts_of hrequest (by decide), by simp, by rw [hrequest]⟩
  | options =>
    have hrequest : s.handleRequest base64 request = (s, .ok (okResponse (request.cseq.getD 0))) := by
      simp only [handleRequest, hmethod]
    exact .inr (.inr (.inl ⟨accepts_of hrequest rfl, rfl, by rw [hrequest]⟩))
  | setup =>
    have hrequest : s.handleRequest base64 request = s.handleSetup request (request.cseq.getD 0) := by
      simp only [handleRequest, hmethod]
    by_cases hstate : s.state ≠ .waitSetup ∧ s.state ≠ .waitRecord
    · rw [handleSetup, if_pos hstate] at hrequest
      exact .inl ⟨not_accepts_of hrequest (by decide), by simp, by rw [hrequest]⟩
    · rw [handleSetup, if_neg hstate] at hrequest
      have hready : s.state = .waitSetup ∨ s.state = .waitRecord := by
        by_contra hnot
        exact hstate (not_or.mp hnot)
      exact .inr (.inr (.inr (.inl ⟨accepts_of hrequest rfl, rfl, hready, by rw [hrequest]⟩)))
  | record =>
    have hrequest : s.handleRequest base64 request = s.handleRecord (request.cseq.getD 0) := by
      simp only [handleRequest, hmethod]
    by_cases hstate : s.state = .waitRecord
    · rw [handleRecord, if_neg (not_not.mpr hstate)] at hrequest
      exact .inr (.inr (.inr (.inr (.inl ⟨accepts_of hrequest rfl, rfl, hstate, by rw [hrequest]⟩))))
    · rw [handleRecord, if_pos hstate] at hrequest
      exact .inl ⟨not_accepts_of hrequest (by decide), by simp, by rw [hrequest]⟩
  | teardown =>
    have hrequest : s.handleRequest base64 request = ({ s with state := .teardown }, .ok (okResponse (request.cseq.getD 0))) := by
      simp only [handleRequest, hmethod]
    exact .inr (.inr (.inr (.inr (.inr ⟨accepts_of hrequest rfl, rfl, by rw [hrequest]⟩))))
  | other =>
    have hrequest : s.handleRequest base64 request =
        (s, .ok (errorResponse .methodNotAllowed (request.cseq.getD 0))) := by
      simp only [handleRequest, hmethod]
    exact .inl ⟨not_accepts_of hrequest (by decide), by simp, by rw [hrequest]⟩

theorem handleRequest_of_not_accepts (h : ¬ s.Accepts base64 request) : (s.handleRequest base64 request).1 = s := by
  rcases s.handleRequest_cases base64 request with ⟨-, -, hsame⟩ | ⟨hacc, -⟩ | ⟨hacc, -⟩ | ⟨hacc, -⟩ | ⟨hacc, -⟩ | ⟨hacc, -⟩
  · exact hsame
  all_goals exact absurd hacc h

/-! ## The end and the description of a session -/

theorem state_teardown (h : s.state = .teardown) : (s.handleRequest base64 request).1.state = .teardown := by
  rcases s.handleRequest_cases base64 request with ⟨-, -, hsame⟩ | ⟨-, -, hstate, -⟩ | ⟨-, -, hsame⟩ | ⟨-, -, hstate, -⟩ |
    ⟨-, -, hstate, -⟩ | ⟨-, -, hsame⟩
  · rw [hsame, h]
  · rw [h] at hstate; cases hstate
  · rw [hsame, h]
  · rw [h] at hstate; rcases hstate with hstate | hstate <;> cases hstate
  · rw [h] at hstate; cases hstate
  · rw [hsame]

theorem state_recording (h : s.state = .recording) (hmethod : request.method ≠ .teardown) :
    (s.handleRequest base64 request).1.state = .recording := by
  rcases s.handleRequest_cases base64 request with ⟨-, -, hsame⟩ | ⟨-, -, hstate, -⟩ | ⟨-, -, hsame⟩ | ⟨-, -, hstate, -⟩ |
    ⟨-, -, hstate, -⟩ | ⟨-, hteardown, -⟩
  · rw [hsame, h]
  · rw [h] at hstate; cases hstate
  · rw [hsame, h]
  · rw [h] at hstate; rcases hstate with hstate | hstate <;> cases hstate
  · rw [h] at hstate; cases hstate
  · exact absurd hteardown hmethod

/-- Once announced, a session keeps its description. -/
theorem description_kept (h : s.state ≠ .waitAnnounce) (request : RtspRequest) :
    (s.handleRequest base64 request).1.state ≠ .waitAnnounce ∧
      (s.handleRequest base64 request).1.parsedSdp = s.parsedSdp ∧
      (s.handleRequest base64 request).1.liveId = s.liveId := by
  rcases s.handleRequest_cases base64 request with ⟨-, -, hsame⟩ | ⟨-, -, hstate, -⟩ | ⟨-, -, hsame⟩ | ⟨-, -, -, hsame⟩ |
    ⟨-, -, -, hsame⟩ | ⟨-, -, hsame⟩
  · rw [hsame]; exact ⟨h, rfl, rfl⟩
  · exact absurd hstate h
  · rw [hsame]; exact ⟨h, rfl, rfl⟩
  all_goals
    rw [hsame]
    exact ⟨by simp, rfl, rfl⟩

theorem handleRequests_teardown (h : s.state = .teardown) (requests : List RtspRequest) :
    (s.handleRequests base64 requests).state = .teardown := by
  induction requests generalizing s with
  | nil => exact h
  | cons request requests ih => exact ih (state_teardown h)

theorem handleRequests_description (h : s.state ≠ .waitAnnounce) (requests : List RtspRequest) :
    (s.handleRequests base64 requests).parsedSdp = s.parsedSdp ∧
      (s.handleRequests base64 requests).liveId = s.liveId := by
  induction requests generalizing s with
  | nil => exact ⟨rfl, rfl⟩
  | cons request requests ih =>
    obtain ⟨hstate, hsdp, hliveId⟩ := description_kept h request
    obtain ⟨hsdp', hliveId'⟩ := ih hstate
    exact ⟨hsdp'.trans hsdp, hliveId'.trans hliveId⟩

/-- A session has its description from the ANNOUNCE to the TEARDOWN. -/
def Described (s : RtspSession) : Prop := s.state = .waitAnnounce ∨ s.state = .teardown ∨ s.parsedSdp.isSome

theorem Described.handleRequest (h : s.Described) (request : RtspRequest) :
    (s.handleRequest base64 request).1.Described := by
  rcases s.handleRequest_cases base64 request with ⟨-, -, hsame⟩ | ⟨-, -, -, -, sdp, -, hsdp⟩ | ⟨-, -, hsame⟩ |
    ⟨-, -, hready, hsame⟩ | ⟨-, -, hready, hsame⟩ | ⟨-, -, hsame⟩
  · rwa [hsame]
  · exact .inr (.inr (by rw [hsdp]; rfl))
  · rwa [hsame]
  · rw [hsame]
    rcases h with h | h | h
    · rcases hready with hready | hready <;> rw [hready] at h <;> cases h
    · rcases hready with hready | hready <;> rw [hready] at h <;> cases h
    · exact .inr (.inr h)
  · rw [hsame]
    rcases h with h | h | h
    · rw [hready] at h; cases h
    · rw [hready] at h; cases h
    · exact .inr (.inr h)
  · rw [hsame]
    exact .inr (.inl rfl)

theorem described_handleRequests (base64 : Base64) (requests : List RtspRequest) :
    (handleRequests base64 {} requests).Described :=
  List.foldlRecOn requests _ (.inl rfl) fun _ h request _ => h.handleRequest request

theorem exists_parsedSdp_of_recording {requests : List RtspRequest}
    (h : (handleRequests base64 {} requests).state = .recording) :
    ∃ sdp, (handleRequests base64 {} requests).parsedSdp = some sdp := by
  rcases described_handleRequests base64 requests with hstate | hstate | hsdp
  · rw [h] at hstate; cases hstate
  · rw [h] at hstate; cases hstate
  · exact Option.isSome_iff_exists.mp hsdp

/-! ## The history of a session -/

theorem handleRequests_append (base64 : Base64) (s : RtspSession) (requests later : List RtspRequest) :
    s.handleRequests base64 (requests ++ later) = (s.handleRequests base64 requests).handleRequests base64 later :=
  List.foldl_append

theorem handleRequests_concat (base64 : Base64) (s : RtspSession) (requests : List RtspRequest)
    (request : RtspRequest) :
    s.handleRequests base64 (requests ++ [request]) = ((s.handleRequests base64 requests).handleRequest base64 request).1 :=
  s.handleRequests_append base64 requests [request]

/-- One of the requests has the method and was accepted, with `P` of those before it. -/
def Followed (base64 : Base64) (P : List RtspRequest → Prop) (method : RtspMethod) (requests : List RtspRequest) :
    Prop :=
  ∃ before request after, requests = before ++ request :: after ∧ P before ∧ request.method = method ∧
    (handleRequests base64 {} before).Accepts base64 request

/-- An accepted ANNOUNCE is one whose SDP describes some media. -/
def Announced (base64 : Base64) (requests : List RtspRequest) : Prop :=
  ∃ before request after, requests = before ++ request :: after ∧ request.method = .announce ∧
    (handleRequests base64 {} before).Accepts base64 request ∧
    ∃ sdp, parseSdp base64 (fromUtf8Lossy request.body) = .ok sdp ∧ sdp.codecParams ≠ []

def SetUp (base64 : Base64) : List RtspRequest → Prop := Followed base64 (Announced base64) .setup

def Recorded (base64 : Base64) : List RtspRequest → Prop := Followed base64 (SetUp base64) .record

theorem Followed.append {P : List RtspRequest → Prop} {method : RtspMethod} {requests : List RtspRequest}
    (h : Followed base64 P method requests) (request : RtspRequest) :
    Followed base64 P method (requests ++ [request]) := by
  obtain ⟨before, r, after, rfl, hP, hmethod, hacc⟩ := h
  exact ⟨before, r, after ++ [request], by simp, hP, hmethod, hacc⟩

theorem Announced.append {requests : List RtspRequest} (h : Announced base64 requests) (request : RtspRequest) :
    Announced base64 (requests ++ [request]) := by
  obtain ⟨before, r, after, rfl, hrest⟩ := h
  exact ⟨before, r, after ++ [request], by simp, hrest⟩

/-- What the state tells about the requests so far. -/
def Reached (base64 : Base64) (requests : List RtspRequest) : SessionPhase → Prop
  | .waitAnnounce => True
  | .waitSetup => Announced base64 requests
  | .waitRecord => SetUp base64 requests
  | .recording => Recorded base64 requests
  | .teardown => True

theorem Reached.append {requests : List RtspRequest} {phase : SessionPhase} (h : Reached base64 requests phase)
    (request : RtspRequest) : Reached base64 (requests ++ [request]) phase := by
  cases phase with
  | waitAnnounce => trivial
  | waitSetup => exact Announced.append h request
  | waitRecord => exact Followed.append h request
  | recording => exact Followed.append h request
  | teardown => trivial

theorem reached_state (base64 : Base64) (requests : List RtspRequest) :
    Reached base64 requests (handleRequests base64 {} requests).state := by
  induction requests using List.reverseRecOn with
  | nil => trivial
  | append_singleton requests request ih =>
    rw [handleRequests_concat]
    rcases (handleRequests base64 {} requests).handleRequest_cases base64 request with ⟨-, -, hsame⟩ |
      ⟨hacc, hmethod, -, hstate, sdp, hsdp, -⟩ | ⟨-, -, hsame⟩ | ⟨hacc, hmethod, hready, hsame⟩ |
      ⟨hacc, hmethod, hready, hsame⟩ | ⟨-, -, hsame⟩
    · rw [hsame]
      exact ih.append request
    · rw [hstate]
      exact ⟨requests, request, [], rfl, hmethod, hacc, sdp, hsdp, sdp.nonempty⟩
    · rw [hsame]
      exact ih.append request
    · rw [hsame]
      rcases hready with hready | hready
      · rw [hready] at ih
        exact ⟨requests, request, [], rfl, ih, hmethod, hacc⟩
      · -- a further SETUP
        rw [hready] at ih
        exact Followed.append ih request
    · rw [hready] at ih
      rw [hsame]
      exact ⟨requests, request, [], rfl, ih, hmethod, hacc⟩
    · rw [hsame]
      trivial

/-- A session that is not torn down has seen no TEARDOWN. -/
theorem no_teardown {requests : List RtspRequest} (h : (handleRequests base64 {} requests).state ≠ .teardown) :
    ∀ request ∈ requests, request.method ≠ .teardown := by
  induction requests using List.reverseRecOn with
  | nil => intro request hmem; cases hmem
  | append_singleton requests last ih =>
    rw [handleRequests_concat] at h
    have hbefore : (handleRequests base64 {} requests).state ≠ .teardown := fun hstate => h (state_teardown hstate)
    intro request hmem
    rcases List.mem_append.mp hmem with hmem | hmem
    · exact ih hbefore request hmem
    · obtain rfl := List.mem_singleton.mp hmem
      intro hmethod
      apply h
      simp only [handleRequest, hmethod]

/-- The session protocol, after any requests: a recording session was announced, set up and recorded, in this order
and without a TEARDOWN; a request that is not answered 200 changes nothing; an accepted ANNOUNCE fixes the description
for good; a recording session can only be torn down, and stays so. -/
theorem session_protocol (base64 : Base64) (requests : List RtspRequest) :
    let s := handleRequests base64 {} requests
    (s.state = .recording → Recorded base64 requests ∧ ∀ request ∈ requests, request.method ≠ .teardown) ∧
    (∀ request, ¬ s.Accepts base64 request → (s.handleRequest base64 request).1 = s) ∧
    (∀ request later, request.method = .announce → s.Accepts base64 request →
      ((s.handleRequest base64 request).1.handleRequests base64 later).parsedSdp =
        (s.handleRequest base64 request).1.parsedSdp ∧
      ((s.handleRequest base64 request).1.handleRequests base64 later).liveId =
        (s.handleRequest base64 request).1.liveId) ∧
    (∀ request, s.state = .recording → request.method ≠ .teardown →
      (s.handleRequest base64 request).1.state = .recording) ∧
    (∀ later, s.state = .teardown → (s.handleRequests base64 later).state = .teardown) := by
  intro s
  refine ⟨fun hrec => ⟨?_, ?_⟩, fun request => handleRequest_of_not_accepts, fun request later hmethod hacc => ?_,
    fun request => state_recording, fun later h => handleRequests_teardown h later⟩
  · have hreached := reached_state base64 requests
    rw [hrec] at hreached
    exact hreached
  · exact no_teardown (fun hstate => by rw [hrec] at hstate; cases hstate)
  · refine handleRequests_description ?_ later
    rcases s.handleRequest_cases base64 request with ⟨hno, -⟩ | ⟨-, -, -, hstate, -⟩ | ⟨-, hother, -⟩ | ⟨-, hother, -⟩ |
      ⟨-, hother, -⟩ | ⟨-, hother, -⟩
    · exact absurd hacc hno
    · rw [hstate]
      decide
    all_goals
      rw [hmethod] at hother
      cases hother

/-- The requests of a publisher, from ANNOUNCE to RECORD. -/
def publisherRequests : List RtspRequest :=
  [{ method := .options, uriPath := none, cseq := some 1, body := [] },
    { method := .announce, uriPath := some "/live/cam".toList, cseq := some 2,
      body := "m=video 0 RTP/AVP 96\r\na=rtpmap:96 H264/90000\r\n".toUTF8.toList },
    { method := .setup, uriPath := some "/live/cam/track1".toList, cseq := some 3, body := [] },
    { method := .record, uriPath := some "/live/cam".toList, cseq := some 4, body := [] }]

example : (handleRequests noBase64 {} publisherRequests).state = .recording ∧
    (handleRequests noBase64 {} publisherRequests).liveId = some "cam" := by
  decide +kernel

end RtspSession

/-! ## The handshake of a connection -/

section Handshake
open Foundations

/-- Where the loop goes on after a request. -/
def RtspSession.handshakeStep (session : RtspSession) : HandshakeStep :=
  match session.state with
  | .teardown => .teardown
  | .recording => .recording
  | _ => .next

/-- What `run_rtsp_handshake` does with a message. `parse` is `parse_message`: an error, a message that is no request,
or a request. The session comes with the outcomes of the writes to come. -/
def handleMessage (base64 : Base64) (parse : Bytes → Except Unit (Option RtspRequest)) :
    RtspSession × List Bool → Bytes → (RtspSession × List Bool) × HandshakeStep
  | (session, writes), data =>
    match parse data with
    | .error _ => ((session, writes), .aborted)
    | .ok none => ((session, writes), .next)
    | .ok (some request) =>
      match session.handleRequest base64 request with
      | (session, .ok _) =>
        ((session, writes.tail), if writes.head? = some false then .aborted else session.handshakeStep)
      -- the task does not survive a panic
      | (session, .error .panicked) => ((session, writes), .aborted)
      -- answered 500, whether or not that can be written
      | (session, .error _) => ((session, writes.tail), session.handshakeStep)

variable {σ : Type} [InputStream σ UInt8] {base64 : Base64} {parse : Bytes → Except Unit (Option RtspRequest)}

/-- The requests among some messages. -/
def requestsOf (parse : Bytes → Except Unit (Option RtspRequest)) (messages : List Bytes) : List RtspRequest :=
  messages.filterMap fun data => (parse data).toOption.join

theorem requestsOf_cons (data : Bytes) (messages : List Bytes) :
    requestsOf parse (data :: messages) = requestsOf parse [data] ++ requestsOf parse messages := by
  rw [requestsOf, ← List.singleton_append, List.filterMap_append]
  rfl

theorem RtspSession.handshakeStep_recording {session : RtspSession} (h : session.handshakeStep = .recording) :
    session.state = .recording := by
  unfold RtspSession.handshakeStep at h
  split at h
  · cases h
  · next hstate => exact hstate
  · cases h

theorem handleMessage_session {session session' : RtspSession} {writes writes' : List Bool} {data : Bytes}
    {step : HandshakeStep} (hnext : step = .next ∨ step = .recording)
    (h : handleMessage base64 parse (session, writes) data = ((session', writes'), step)) :
    session' = session.handleRequests base64 (requestsOf parse [data]) ∧
      (step = .recording → session'.state = .recording) := by
  simp only [handleMessage] at h
  cases hparse : parse data with
  | error e =>
    simp only [hparse, Prod.mk.injEq] at h
    rcases hnext with rfl | rfl <;> exact absurd h.2 (by simp)
  | ok message =>
    cases message with
    | none =>
      simp only [hparse, Prod.mk.injEq] at h
      obtain ⟨⟨rfl, -⟩, rfl⟩ := h
      refine ⟨?_, by simp⟩
      simp [requestsOf, hparse, Except.toOption, RtspSession.handleRequests]
    | some request =>
      have hrequests :
          session.handleRequests base64 (requestsOf parse [data]) = (session.handleRequest base64 request).1 := by
        simp [requestsOf, hparse, Except.toOption, RtspSession.handleRequests]
      rw [hrequests]
      simp only [hparse] at h
      generalize session.handleRequest base64 request = handled at h
      split at h
      · obtain ⟨hsession, hstep⟩ := Prod.mk.inj h
        obtain ⟨rfl, -⟩ := Prod.mk.inj hsession
        refine ⟨rfl, fun hrec => RtspSession.handshakeStep_recording ?_⟩
        rw [hrec] at hstep
        split at hstep
        · cases hstep
        · exact hstep
      · obtain ⟨-, rfl⟩ := Prod.mk.inj h
        rcases hnext with hnext | hnext <;> cases hnext
      · obtain ⟨hsession, hstep⟩ := Prod.mk.inj h
        obtain ⟨rfl, -⟩ := Prod.mk.inj hsession
        exact ⟨rfl, fun hrec => RtspSession.handshakeStep_recording (hstep.trans hrec)⟩

theorem runRtspHandshake_state {fuel : ℕ} {session : RtspSession} {writes : List Bool} {reader reader' : σ}
    {messages : List Bytes}
    (h : runRtspHandshake (handleMessage base64 parse) fuel (session, writes) reader = (messages, some reader')) :
    (session.handleRequests base64 (requestsOf parse messages)).state = .recording := by
  induction fuel generalizing session writes reader messages with
  | zero => cases h
  | succ fuel ih =>
    simp only [runRtspHandshake] at h
    split at h
    · cases h
    · next data reader'' hread =>
      split at h
      · next state hmessage =>
        obtain ⟨session', writes'⟩ := state
        obtain ⟨hsession, -⟩ := handleMessage_session (.inl rfl) hmessage
        obtain ⟨rfl, hrest⟩ := Prod.mk.inj h
        rw [requestsOf_cons, RtspSession.handleRequests_append, ← hsession]
        exact ih (Prod.ext rfl hrest)
      · next state hmessage =>
        obtain ⟨session', writes'⟩ := state
        obtain ⟨hsession, hrec⟩ := handleMessage_session (.inr rfl) hmessage
        obtain ⟨rfl, -⟩ := Prod.mk.inj h
        rw [← hsession]
        exact hrec rfl
      · cases h
      · cases h

/-- A connection reaches the record phase only with the requests of a recording session. -/
theorem runRtspHandshake_recorded {fuel : ℕ} {reader reader' : σ} {writes : List Bool} {messages : List Bytes}
    (h : runRtspHandshake (handleMessage base64 parse) fuel ({}, writes) reader = (messages, some reader')) :
    RtspSession.Recorded base64 (requestsOf parse messages) := by
  have hreached := RtspSession.reached_state base64 (requestsOf parse messages)
  rw [runRtspHandshake_state h] at hreached
  exact hreached

end Handshake
end LivestreamRs.Rtsp
