import LivestreamRs.Foundations.Fields
import LivestreamRs.Rtsp.InterleavedReader

/-! # Request lines

`is_rtsp_request_line` of `livestream-transport/src/rtsp/rtp.rs` against the form of a request line. The function takes
the parts between spaces from an iterator, one after the other, and returns early; a line has one part more than it has
spaces, so the parts are three exactly when the spaces are two. No request line starts with `$`, and whatever the record
phase reads that starts with `$` is a frame.
-/
namespace LivestreamRs.Rtsp
open Foundations Media
set_option autoImplicit false

/-! ## Part by part -/

/-- `is_rtsp_request_line` with the iterator of `slice::split`. -/
def isRtspRequestLineByParts (line : Bytes) : Bool :=
  let line := stripSuffix line 0x0A
  let line := stripSuffix line 0x0D
  match Split.next 0x20 { v := line } with
  | (none, _) => false
  | (some method, parts) =>
    match parts.next 0x20 with
    | (none, _) => false
    | (some uri, parts) =>
      match parts.next 0x20 with
      | (none, _) => false
      | (some version, parts) =>
        if (parts.next 0x20).1.isSome || method.isEmpty || uri.isEmpty then false
        else if !method.all isMethodByte then false
        else rtspVersion.isPrefixOf version

theorem isRtspRequestLineByParts_eq (line : Bytes) : isRtspRequestLineByParts line = isRtspRequestLine line := by
  unfold isRtspRequestLineByParts isRtspRequestLine
  dsimp only
  generalize stripSuffix (stripSuffix line 0x0A) 0x0D = text
  -- each call of `next` takes the head off the list of parts
  cases hsplit : text.splitOn 0x20 with
  | nil => exact absurd hsplit (List.splitOnP_ne_nil _ _)
  | cons method rest =>
    obtain ⟨s₁, hmethod, h₁⟩ := Split.next_of_cons (s := { v := text }) hsplit
    cases rest with
    | nil => simp only [hmethod, Split.next_of_nil h₁]
    | cons uri rest =>
      obtain ⟨s₂, huri, h₂⟩ := Split.next_of_cons h₁
      cases rest with
      | nil => simp only [hmethod, huri, Split.next_of_nil h₂]
      | cons version rest =>
        obtain ⟨s₃, hversion, h₃⟩ := Split.next_of_cons h₂
        cases rest with
        | nil =>
          simp only [hmethod, huri, hversion, Split.next_of_nil h₃]
          cases method.isEmpty <;> cases uri.isEmpty <;> cases method.all isMethodByte <;> rfl
        | cons fourth rest =>
          obtain ⟨s₄, hfourth, -⟩ := Split.next_of_cons h₃
          simp only [hmethod, huri, hversion, hfourth]
          rfl

/-! ## The form of a request line -/

/-- `text` is `line` without its last byte if that is `b`, and `line` as it is otherwise. -/
inductive WithoutEnd (b : UInt8) : Bytes → Bytes → Prop
  | removed (text : Bytes) : WithoutEnd b (text ++ [b]) text
  | absent (text : Bytes) (h : ¬ [b] <:+ text) : WithoutEnd b text text

theorem withoutEnd_iff {b : UInt8} {line text : Bytes} : WithoutEnd b line text ↔ stripSuffix line b = text := by
  unfold stripSuffix
  constructor
  · rintro (_ | ⟨_, h⟩)
    · rw [List.getLast?_concat, if_pos rfl, List.dropLast_concat]
    · rw [if_neg fun hlast => h (List.singleton_suffix_iff_getLast?_eq_some.mpr hlast)]
  · rintro rfl
    split
    · next hlast =>
      obtain ⟨text, rfl⟩ := List.getLast?_eq_some_iff.mp hlast
      rw [List.dropLast_concat]
      exact .removed text
    · next hlast => exact .absent line fun h => hlast (List.singleton_suffix_iff_getLast?_eq_some.mp h)

/-- The bytes of a method. -/
def methodAlphabet : Bytes := "ABCDEFGHIJKLMNOPQRSTUVWXYZ0123456789_".toUTF8.toList

theorem isMethodByte_iff (b : UInt8) : isMethodByte b = true ↔ b ∈ methodAlphabet := by
  have hof : ∀ n < 256, isMethodByte (UInt8.ofNat n) = true → UInt8.ofNat n ∈ methodAlphabet := by decide +kernel
  have hall : ∀ b ∈ methodAlphabet, isMethodByte b = true := by decide +kernel
  have hb := hof b.toNat b.toNat_lt
  rw [UInt8.ofNat_toNat] at hb
  exact ⟨hb, hall b⟩

/-- `METHOD SP URI SP VERSION` -/
structure RequestText (text : Bytes) : Prop where
  spaces : text.count 0x20 = 2
  parts : ∃ method uri version, text = method ++ 0x20 :: (uri ++ 0x20 :: version) ∧ method ≠ [] ∧
    (∀ b ∈ method, b ∈ methodAlphabet) ∧ uri ≠ [] ∧ rtspVersion <+: version

/-- A request line, with its line feed and a carriage return before it or without them. -/
def RequestLine (line : Bytes) : Prop :=
  ∃ unfed text, WithoutEnd 0x0A line unfed ∧ WithoutEnd 0x0D unfed text ∧ RequestText text

/-- Two spaces, and so three parts. -/
theorem requestText_iff (text : Bytes) :
    RequestText text ↔ ∃ method uri version, text.splitOn 0x20 = [method, uri, version] ∧ method ≠ [] ∧
      (∀ b ∈ method, b ∈ methodAlphabet) ∧ uri ≠ [] ∧ rtspVersion <+: version := by
  constructor
  · rintro ⟨hspaces, method, uri, version, rfl, hform⟩
    simp only [List.count_append, List.count_cons_self] at hspaces
    -- both spaces are between the parts, so there is none within them
    have hmethod : 0x20 ∉ method := List.count_eq_zero.mp (by omega)
    have huri : 0x20 ∉ uri := List.count_eq_zero.mp (by omega)
    have hversion : 0x20 ∉ version := List.count_eq_zero.mp (by omega)
    refine ⟨method, uri, version, ?_, hform⟩
    rw [List.splitOn_append_cons_self, List.splitOn_append_cons_self, List.splitOn_eq_singleton hmethod,
      List.splitOn_eq_singleton huri, List.splitOn_eq_singleton hversion]
    rfl
  · rintro ⟨method, uri, version, hsplit, hform⟩
    have hlength := length_splitOn 0x20 text
    have hjoin : [0x20].intercalate (text.splitOn 0x20) = text := List.intercalate_splitOn 0x20
    rw [hsplit] at hlength hjoin
    refine ⟨(Nat.succ.inj hlength).symm, method, uri, version, ?_, hform⟩
    rw [← hjoin]
    simp [List.intercalate]

theorem isRtspRequestLine_iff (line : Bytes) : isRtspRequestLine line = true ↔ RequestLine line := by
  have hline : RequestLine line ↔ RequestText (stripSuffix (stripSuffix line 0x0A) 0x0D) := by
    simp [RequestLine, withoutEnd_iff]
  rw [hline, requestText_iff]
  simp only [isRtspRequestLine]
  generalize stripSuffix (stripSuffix line 0x0A) 0x0D = text
  constructor
  · intro h
    split at h
    · next method uri version hsplit =>
      simp only [Bool.and_eq_true, List.all_eq_true, isMethodByte_iff, List.isPrefixOf_iff_prefix] at h
      obtain ⟨⟨⟨hmethod, huri⟩, hbytes⟩, hversion⟩ := h
      exact ⟨method, uri, version, hsplit, by simpa using hmethod, hbytes, by simpa using huri, hversion⟩
    · cases h
  · rintro ⟨method, uri, version, hsplit, hmethod, hbytes, huri, hversion⟩
    simp only [hsplit, Bool.and_eq_true, List.all_eq_true, isMethodByte_iff, List.isPrefixOf_iff_prefix]
    exact ⟨⟨⟨by simpa using hmethod, by simpa using huri⟩, hbytes⟩, hversion⟩

/-! ## Frames are not requests -/

/-- What starts with a request line does not start with `$`. -/
theorem head_ne_dollar {line : Bytes} (h : isRtspRequestLine line = true) (more : Bytes) :
    (line ++ more).head? ≠ some 0x24 := by
  obtain ⟨first, rest, rfl, hmethod⟩ := isRtspRequestLine_head h
  intro hdollar
  obtain rfl := Option.some.inj hdollar
  exact absurd hmethod (by decide)

/-- What is read and starts with `$` is a frame. -/
theorem RtpReadItem.recognized.interleaved_of_dollar {item : RtpReadItem} (h : item.recognized)
    (hdollar : item.serialize.head? = some 0x24) : ∃ channel payload, item = .interleaved channel payload := by
  cases item with
  | interleaved channel payload => exact ⟨channel, payload, rfl⟩
  | rtspRequest request =>
    obtain ⟨line, ⟨more, rfl⟩, hline⟩ := h
    exact absurd hdollar (head_ne_dollar hline more)
  | stray bytes => exact absurd hdollar h

/-- The recognizer, taken part by part, accepts exactly the request lines; none of these starts with `$`. So the record
phase reads a frame as this frame, whatever follows it, and in every run what starts with `$` is a frame and what is
returned as a request starts with a request line. -/
theorem request_line_exact {R : Type} [InputStream R UInt8] (line : Bytes) (reader : RtpInterleavedReader R) :
    isRtspRequestLineByParts line = isRtspRequestLine line ∧ (isRtspRequestLine line = true ↔ RequestLine line) ∧
    (line.head? = some 0x24 → isRtspRequestLine line = false) ∧
    (∀ channel payload more, payload.length ≤ 65535 →
      contents reader = (RtpReadItem.interleaved channel payload).serialize ++ more →
      ∃ rest, nextItem reader = .ok (.interleaved channel payload, rest) ∧ contents rest = more) ∧
    ∀ n, ∀ item ∈ (readItems n reader).1,
      (item.serialize.head? = some 0x24 → ∃ channel payload, item = .interleaved channel payload) ∧
      ∀ request, item = .rtspRequest request → ∃ first, first <+: request ∧ RequestLine first := by
  refine ⟨isRtspRequestLineByParts_eq line, isRtspRequestLine_iff line, fun hdollar => ?_, ?_, ?_⟩
  · rw [Bool.eq_false_iff]
    intro hline
    exact head_ne_dollar hline [] (by rwa [List.append_nil])
  · intro channel payload more hlength hcontents
    have hframe := nextItem_complete (.interleaved channel payload) hlength more
    rw [← hcontents] at hframe
    exact simulates_nextItem.eq_ok hframe
  · intro n item hitem
    rw [readItems_eq] at hitem
    obtain ⟨-, -, hrecognized⟩ := (readItems_serialize n (contents reader)).2 item hitem
    refine ⟨hrecognized.interleaved_of_dollar, ?_⟩
    rintro request rfl
    obtain ⟨first, hfirst, hline⟩ := hrecognized
    exact ⟨first, hfirst, (isRtspRequestLine_iff first).mp hline⟩

/-- A frame whose payload is a request line. -/
def lineInFrame : Bytes := (RtpReadItem.interleaved 1 optionsLine).serialize

/-- This frame and a request, in reads that end within the header of the frame and with the request. -/
def frameThenRequest : Socket UInt8 where
  chunks := [lineInFrame.take 3, lineInFrame.drop 3 ++ (optionsLine ++ [0x0D, 0x0A])]
  ne_nil := by decide

theorem request_line_exact_sample :
    isRtspRequestLine lineInFrame = false ∧
    (∃ rest, nextItem (RtpInterleavedReader.new frameThenRequest) = .ok (.interleaved 1 optionsLine, rest) ∧
      contents rest = optionsLine ++ [0x0D, 0x0A]) ∧
    ∃ first, first <+: optionsLine ++ [0x0D, 0x0A] ∧ RequestLine first := by
  obtain ⟨-, -, hdollar, hframe, hrun⟩ := request_line_exact lineInFrame (RtpInterleavedReader.new frameThenRequest)
  have hrequest : .rtspRequest (optionsLine ++ [0x0D, 0x0A]) ∈ (readItems 2 (RtpInterleavedReader.new frameThenRequest)).1 := by
    decide +kernel
  exact ⟨hdollar rfl, hframe 1 optionsLine _ (by decide) (by decide +kernel), (hrun 2 _ hrequest).2 _ rfl⟩

end LivestreamRs.Rtsp
