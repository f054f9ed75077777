import LivestreamRs.Foundations.Fields
import LivestreamRs.Rtsp.Sdp

/-! # The sections of an SDP body

A section is an `m=` line with the lines up to the next one. `parse_sdp` makes its entry from the attributes of the
payload type, and `find_attr` looks for these in the whole body: the first line that matches is taken, whichever section
it stands in. So a line added to a section that comes earlier changes the entry, and one added to a later section does
where the section has no such line itself.
-/
namespace LivestreamRs.Rtsp
open Foundations Media
set_option autoImplicit false

/-! ## What an entry is made of -/

def mediaTypeOf (mediaStr : List Char) : Option MediaType :=
  if mediaStr = "m=video".toList then some .video
  else if mediaStr = "m=audio".toList then some .audio
  else none

/-- The kind and the payload type of an `m=` line that `parse_sdp` does not skip. -/
def mediaOf (line : List Char) : Option (MediaType × List Char) :=
  let line := trim line
  if !"m=".toList.isPrefixOf line then none
  else
    match splitWhitespace line with
    | mediaStr :: _ :: _ :: payloadType :: _ => (mediaTypeOf mediaStr).map fun mediaType => (mediaType, payloadType)
    | _ => none

def rtpmapAttr (payloadType : List Char) : List Char := "a=rtpmap:".toList ++ payloadType

def fmtpAttr (payloadType : List Char) : List Char := "a=fmtp:".toList ++ payloadType

def formatOf (mediaType : MediaType) (payloadType : List Char) :
    Option (List Char) → Except SdpFailure (Option (Codec × ℕ))
  | some map => (parseRtpmap map).map some
  | none => if mediaType = .video ∧ payloadType = "26".toList then .ok (some (.mjpeg, 90000)) else .ok none

/-- The rest of the loop body, from the values of the two attributes. -/
def entryOf (base64 : Base64) (mediaType : MediaType) (payloadType : List Char) (rtpmap fmtp : Option (List Char)) :
    Except SdpFailure (Option CodecParams) := do
  let format : Option (Codec × ℕ) ←
    match rtpmap with
    | some map => (parseRtpmap map).map some
    | none => if mediaType = .video ∧ payloadType = "26".toList then .ok (some (.mjpeg, 90000)) else .ok none
  match format with
  | none => .ok none
  | some (codec, clockRate) =>
    let fmtp := fmtp.getD []
    let extradata ← parseFmtpConfig base64 fmtp codec
    .ok (some { codec := codec, mediaType := mediaType, clockRate := clockRate, extradata := extradata })

theorem entryOf_eq_bind (base64 : Base64) (mediaType : MediaType) (payloadType : List Char)
    (rtpmap fmtp : Option (List Char)) :
    entryOf base64 mediaType payloadType rtpmap fmtp =
      (formatOf mediaType payloadType rtpmap).bind fun format => format.elim (.ok none) fun f =>
        (parseFmtpConfig base64 (fmtp.getD []) f.1).bind fun extradata =>
          .ok (some { codec := f.1, mediaType := mediaType, clockRate := f.2, extradata := extradata }) := by
  cases rtpmap with
  | some map =>
    simp only [entryOf, formatOf]
    cases parseRtpmap map <;> rfl
  | none =>
    simp only [entryOf, formatOf]
    split <;> rfl

theorem parseMediaLine_eq (base64 : Base64) (sdp line : List Char) :
    parseMediaLine base64 sdp line = (mediaOf line).elim (.ok none) fun m =>
      entryOf base64 m.1 m.2 (findAttr sdp (rtpmapAttr m.2)) (findAttr sdp (fmtpAttr m.2)) := by
  unfold parseMediaLine mediaOf
  dsimp only
  split
  · rfl
  rcases splitWhitespace (trim line) with _ | ⟨mediaStr, _ | ⟨_, _ | ⟨_, _ | ⟨payloadType, _⟩⟩⟩⟩
  · rfl
  · rfl
  · rfl
  · rfl
  · have htype : (if mediaStr = "m=video".toList then some MediaType.video
        else if mediaStr = "m=audio".toList then some MediaType.audio else none) = mediaTypeOf mediaStr := rfl
    dsimp only
    rw [htype]
    cases mediaTypeOf mediaStr <;> rfl

/-- Only these codecs take their configuration from the `fmtp` attribute. -/
def UsesConfig (codec : Codec) : Prop := codec = .h264 ∨ codec = .aac

theorem parseFmtpConfig_unused (base64 : Base64) {codec : Codec} (h : ¬ UsesConfig codec) (fmtp : List Char) :
    parseFmtpConfig base64 fmtp codec = .ok none := by
  cases codec with
  | h264 => exact absurd (.inl rfl) h
  | aac => exact absurd (.inr rfl) h
  | _ => rfl

section Entry
variable {base64 : Base64} {mediaType : MediaType} {payloadType : List Char} {rtpmap fmtp : Option (List Char)}
  {params : CodecParams}

/-- What a contributed entry tells of the two attributes. -/
theorem entryOf_eq_some (h : entryOf base64 mediaType payloadType rtpmap fmtp = .ok (some params)) :
    formatOf mediaType payloadType rtpmap = .ok (some (params.codec, params.clockRate)) ∧
      parseFmtpConfig base64 (fmtp.getD []) params.codec = .ok params.extradata := by
  rw [entryOf_eq_bind] at h
  cases hformat : formatOf mediaType payloadType rtpmap with
  | error e =>
    rw [hformat] at h
    cases h
  | ok format =>
    cases format with
    | none =>
      rw [hformat] at h
      cases h
    | some f =>
      cases hconfig : parseFmtpConfig base64 (fmtp.getD []) f.1 with
      | error e =>
        simp only [hformat, Except.bind, Option.elim_some, hconfig] at h
        cases h
      | ok extradata =>
        simp only [hformat, Except.bind, Option.elim_some, hconfig] at h
        obtain rfl := Option.some.inj (Except.ok.inj h)
        exact ⟨rfl, hconfig⟩

/-- An entry of another codec does not depend on the second attribute. -/
theorem entryOf_unused (h : entryOf base64 mediaType payloadType rtpmap fmtp = .ok (some params))
    (hcodec : ¬ UsesConfig params.codec) (fmtp' : Option (List Char)) :
    entryOf base64 mediaType payloadType rtpmap fmtp' = .ok (some params) := by
  obtain ⟨hformat, -⟩ := entryOf_eq_some h
  rw [entryOf_eq_bind, hformat] at h ⊢
  simp only [Except.bind, Option.elim_some, parseFmtpConfig_unused base64 hcodec] at h ⊢
  exact h

/-- With a second attribute that can be read for every codec there is an entry whenever there was one. -/
theorem entryOf_of_config {value : List Char} (hvalue : ∀ codec, ∃ config, parseFmtpConfig base64 value codec = .ok config)
    {entry : Option CodecParams} (h : entryOf base64 mediaType payloadType rtpmap fmtp = .ok entry) :
    ∃ entry', entryOf base64 mediaType payloadType rtpmap (some value) = .ok entry' ∧ (entry.isSome → entry'.isSome) := by
  rw [entryOf_eq_bind] at h ⊢
  cases hformat : formatOf mediaType payloadType rtpmap with
  | error e =>
    rw [hformat] at h
    cases h
  | ok format =>
    rw [hformat] at h
    cases format with
    | none => exact ⟨entry, h, id⟩
    | some f =>
      obtain ⟨config, hconfig⟩ := hvalue f.1
      simp only [Except.bind, Option.elim_some, Option.getD_some, hconfig]
      exact ⟨_, rfl, fun _ => rfl⟩

end Entry

/-! ## Attribute lines -/

/-- What a line says about an attribute. -/
def attrValue (attr line : List Char) : Option (List Char) :=
  let line := trim line
  if attr.isPrefixOf line then
    let rest := line.drop attr.length
    if rest.isEmpty || rest.head? == some ' ' || rest.head? == some '\t' then some (trim rest) else none
  else none

theorem findAttr_eq (sdp attr : List Char) : findAttr sdp attr = (lines sdp).findSome? (attrValue attr) := rfl

theorem initial_of_attrValue {attr line : List Char} (h : (attrValue attr line).isSome) : attr <+: trim line := by
  simp only [attrValue] at h
  split at h
  · next hattr => exact List.isPrefixOf_iff_prefix.mp hattr
  · cases h

/-- No line has two attributes with different names. -/
theorem attrValue_exclusive {name name' : List Char} {i : ℕ} (hi : i < name.length) (hi' : i < name'.length)
    (hne : name[i] ≠ name'[i]) (payloadType payloadType' line : List Char)
    (h : (attrValue (name ++ payloadType) line).isSome) : attrValue (name' ++ payloadType') line = none := by
  by_contra hnot
  have hsome := Option.ne_none_iff_isSome.mp hnot
  obtain ⟨rest, hrest⟩ := initial_of_attrValue h
  obtain ⟨rest', hrest'⟩ := initial_of_attrValue hsome
  have hlist := congrArg (fun text => text[i]?) (hrest.trans hrest'.symm)
  simp only [List.append_assoc, List.getElem?_append_left hi, List.getElem?_append_left hi',
    List.getElem?_eq_getElem hi, List.getElem?_eq_getElem hi', Option.some.injEq] at hlist
  exact hne hlist

theorem rtpmap_exclusive (payloadType payloadType' line : List Char)
    (h : (attrValue (rtpmapAttr payloadType) line).isSome) : attrValue (fmtpAttr payloadType') line = none :=
  attrValue_exclusive (by decide : 2 < "a=rtpmap:".toList.length) (by decide : 2 < "a=fmtp:".toList.length) (by decide)
    payloadType payloadType' line h

theorem fmtp_exclusive (payloadType payloadType' line : List Char)
    (h : (attrValue (fmtpAttr payloadType) line).isSome) : attrValue (rtpmapAttr payloadType') line = none :=
  attrValue_exclusive (by decide : 2 < "a=fmtp:".toList.length) (by decide : 2 < "a=rtpmap:".toList.length) (by decide)
    payloadType payloadType' line h

theorem trim_eq_self {text : List Char} {c d : Char} (hhead : text.head? = some c) (hlast : text.getLast? = some d)
    (hc : isWhitespace c = false) (hd : isWhitespace d = false) : trim text = text := by
  have hfront : text.dropWhile isWhitespace = text := by
    obtain ⟨rest, rfl⟩ := List.head?_eq_some_iff.mp hhead
    rw [List.dropWhile_cons, hc, if_neg (by decide)]
  have hback : text.reverse.dropWhile isWhitespace = text.reverse := by
    obtain ⟨rest, rfl⟩ := List.getLast?_eq_some_iff.mp hlast
    rw [List.reverse_append, List.reverse_singleton, List.singleton_append, List.dropWhile_cons, hd, if_neg (by decide)]
  rw [trim, hfront, hback, List.reverse_reverse]

/-- An attribute line is read back. -/
theorem attrValue_line (attr value : List Char) {c d : Char} (hhead : attr.head? = some c) (hc : isWhitespace c = false)
    (hlast : value.getLast? = some d) (hd : isWhitespace d = false) :
    attrValue attr (attr ++ ' ' :: value) = some (trim (' ' :: value)) := by
  have htrim : trim (attr ++ ' ' :: value) = attr ++ ' ' :: value := by
    obtain ⟨value, rfl⟩ := List.getLast?_eq_some_iff.mp hlast
    obtain ⟨attr, rfl⟩ := List.head?_eq_some_iff.mp hhead
    exact trim_eq_self rfl (by rw [← List.cons_append, ← List.append_assoc, List.getLast?_concat]) hc hd
  have hinit : attr.isPrefixOf (attr ++ ' ' :: value) = true := List.isPrefixOf_iff_prefix.mpr (List.prefix_append _ _)
  simp only [attrValue, htrim, hinit, if_true, List.drop_left]
  rfl

theorem not_mem_splitWhitespace {text part : List Char} (h : part ∈ splitWhitespace text) {c : Char}
    (hc : isWhitespace c = true) : c ∉ part :=
  not_mem_of_mem_splitOnP (List.mem_filter.mp h).1 hc

/-- A payload type is a word. -/
theorem payloadType_word {line payloadType : List Char} {mediaType : MediaType}
    (h : mediaOf line = some (mediaType, payloadType)) {c : Char} (hc : isWhitespace c = true) : c ∉ payloadType := by
  simp only [mediaOf] at h
  split at h
  · cases h
  split at h
  · next mediaStr port proto payloadType' more hparts =>
    obtain ⟨_, -, heq⟩ := Option.map_eq_some_iff.mp h
    have hmem : payloadType ∈ splitWhitespace (trim line) := by
      rw [hparts, ← (Prod.mk.inj heq).2]
      simp
    exact not_mem_splitWhitespace hmem hc
  · cases h

theorem takeWhile_word {word rest : List Char} (hword : ∀ c ∈ word, isWhitespace c = false)
    (hrest : ∀ c ∈ rest.head?, isWhitespace c = true) : (word ++ rest).takeWhile (!isWhitespace ·) = word := by
  rw [List.takeWhile_append_of_pos fun c hc => by simp [hword c hc]]
  cases rest with
  | nil => simp
  | cons c rest => simp [hrest c rfl]

/-- A line of the attribute of one payload type is none of another. -/
theorem attrValue_other {name word word' value : List Char} {c d : Char} (hname : name.head? = some c)
    (hc : isWhitespace c = false) (hlast : value.getLast? = some d) (hd : isWhitespace d = false)
    (hword : ∀ c, isWhitespace c = true → c ∉ word) (hword' : ∀ c, isWhitespace c = true → c ∉ word') (hne : word' ≠ word) :
    attrValue (name ++ word') (name ++ word ++ ' ' :: value) = none := by
  have hwords : ∀ w : List Char, (∀ c, isWhitespace c = true → c ∉ w) → ∀ c ∈ w, isWhitespace c = false :=
    fun w hw c hmem => Bool.eq_false_iff.mpr fun hc => hw c hc hmem
  have htrim : trim (name ++ word ++ ' ' :: value) = name ++ word ++ ' ' :: value := by
    obtain ⟨value, rfl⟩ := List.getLast?_eq_some_iff.mp hlast
    obtain ⟨name, rfl⟩ := List.head?_eq_some_iff.mp hname
    exact trim_eq_self rfl (by rw [← List.cons_append, ← List.append_assoc, List.getLast?_concat]) hc hd
  simp only [attrValue, htrim]
  split
  · next hprefix =>
    obtain ⟨rest, hrest⟩ := List.isPrefixOf_iff_prefix.mp hprefix
    rw [← hrest, List.drop_left, if_neg]
    intro hends
    rw [List.append_assoc, List.append_assoc] at hrest
    have hsame := congrArg (List.takeWhile (!isWhitespace ·)) (List.append_cancel_left hrest)
    have hblank : ∀ c ∈ rest.head?, isWhitespace c = true := by
      intro c hc
      obtain ⟨rest, rfl⟩ := List.head?_eq_some_iff.mp hc
      simp only [List.isEmpty_cons, Bool.false_or, List.head?_cons, Bool.or_eq_true, beq_iff_eq, Option.some.injEq] at hends
      rcases hends with rfl | rfl <;> decide
    rw [takeWhile_word (hwords word' hword') hblank, takeWhile_word (hwords word hword) (by simp; decide)] at hsame
    exact hne hsame
  · rfl

/-! ## Lines of a body -/

/-- The text of some lines. -/
def unlines (ls : List (List Char)) : List Char := ls.flatMap fun line => line ++ ['\r', '\n']

theorem linesFrom_line (acc line text : List Char) (h : '\n' ∉ line) :
    linesFrom acc (line ++ '\r' :: '\n' :: text) = (acc ++ line) :: linesFrom [] text := by
  induction line generalizing acc with
  | nil =>
    have hstep : linesFrom acc ('\r' :: '\n' :: text) =
        (if (acc ++ ['\r']).getLast? = some '\r' then (acc ++ ['\r']).dropLast else acc ++ ['\r']) ::
          linesFrom [] text := by
      rw [linesFrom, if_neg (by decide), linesFrom, if_pos rfl]
    rw [List.getLast?_concat, if_pos rfl, List.dropLast_concat] at hstep
    rw [List.nil_append, List.append_nil, hstep]
  | cons c line ih =>
    rw [List.mem_cons, not_or] at h
    rw [List.cons_append, linesFrom, if_neg (fun heq => h.1 heq.symm), ih (acc ++ [c]) h.2, List.append_assoc,
      List.singleton_append]

theorem lines_unlines (ls : List (List Char)) (h : ∀ line ∈ ls, '\n' ∉ line) : lines (unlines ls) = ls := by
  induction ls with
  | nil => rfl
  | cons line ls ih =>
    rw [List.forall_mem_cons] at h
    have hline : unlines (line :: ls) = line ++ '\r' :: '\n' :: unlines ls := by simp [unlines]
    rw [lines, hline, linesFrom_line [] line _ h.1, List.nil_append]
    exact congrArg _ (ih h.2)

theorem not_mem_linesFrom (acc text : List Char) (h : '\n' ∉ acc) : ∀ line ∈ linesFrom acc text, '\n' ∉ line := by
  induction text generalizing acc with
  | nil =>
    cases acc with
    | nil => simp [linesFrom]
    | cons c acc => simpa [linesFrom] using h
  | cons c text ih =>
    rw [linesFrom]
    split
    · refine List.forall_mem_cons.mpr ⟨?_, ih [] List.not_mem_nil⟩
      split
      · exact fun hmem => h (List.dropLast_subset acc hmem)
      · exact h
    · next hc =>
      refine ih (acc ++ [c]) ?_
      rw [List.mem_append, List.mem_singleton, not_or]
      exact ⟨h, fun heq => hc heq.symm⟩

/-! ## Sections -/

def isMediaLine (line : List Char) : Bool := "m=".toList.isPrefixOf (trim line)

/-- An `m=` line and the lines up to the next one. -/
structure MediaSection where
  media : List Char
  attributes : List (List Char)
  media_line : isMediaLine media = true
  attribute_lines : ∀ line ∈ attributes, isMediaLine line = false

def MediaSection.lines (sec : MediaSection) : List (List Char) := sec.media :: sec.attributes

/-- The lines of a body: those before its first section, and its sections. -/
def bodyLines (session : List (List Char)) (sections : List MediaSection) : List (List Char) :=
  session ++ sections.flatMap MediaSection.lines

/-- The section stands in the body, after some sections and before others. -/
structure MediaSection.In (sec : MediaSection) (sdp : List Char) (session : List (List Char))
    (before after : List MediaSection) : Prop where
  lines_eq : Rtsp.lines sdp = bodyLines session (before ++ sec :: after)
  session_lines : ∀ line ∈ session, isMediaLine line = false

/-- The same sections but for their attribute lines, which may be any. -/
def SameMedia (sections sections' : List MediaSection) : Prop :=
  sections'.map MediaSection.media = sections.map MediaSection.media

/-- The line `find_attr` takes for the attribute stands before the first section; or the section is the first one, and has
such a line or is the only one. -/
def AttrFixed (session : List (List Char)) (before : List MediaSection) (sec : MediaSection) (after : List MediaSection)
    (attr : List Char) : Prop :=
  (session.findSome? (attrValue attr)).isSome ∨
    before = [] ∧ ((sec.lines.findSome? (attrValue attr)).isSome ∨ after = [])

section Sections
variable {sec : MediaSection} {sdp sdp' : List Char} {session left right : List (List Char)}
  {before before' after after' : List MediaSection} {payloadType attr line value : List Char}

theorem findAttr_of_lines {sections : List MediaSection} (h : lines sdp = bodyLines session sections) :
    findAttr sdp attr = (session.findSome? (attrValue attr)).or
      ((sections.flatMap MediaSection.lines).findSome? (attrValue attr)) := by
  rw [findAttr_eq, h, bodyLines, List.findSome?_append]

theorem sameMedia_nil (h : SameMedia [] after) : after = [] := List.map_eq_nil_iff.mp h

/-- An attribute that is fixed has the same value whatever the lines of the other sections. -/
theorem AttrFixed.findAttr_eq (hfixed : AttrFixed session before sec after attr) (h : sec.In sdp session before after)
    (h' : sec.In sdp' session before' after') (hbefore : SameMedia before before') (hafter : SameMedia after after') :
    findAttr sdp' attr = findAttr sdp attr := by
  rw [findAttr_of_lines h.lines_eq, findAttr_of_lines h'.lines_eq]
  rcases hfixed with hsession | ⟨rfl, hown⟩
  · rw [Option.or_of_isSome hsession, Option.or_of_isSome hsession]
  · obtain rfl := sameMedia_nil hbefore
    congr 1
    simp only [List.nil_append, List.flatMap_cons, List.findSome?_append]
    rcases hown with hown | rfl
    · rw [Option.or_of_isSome hown, Option.or_of_isSome hown]
    · obtain rfl := sameMedia_nil hafter
      rfl

theorem not_isMediaLine {name : List Char} (hname : name.head? = some 'a')
    (h : (attrValue (name ++ payloadType) line).isSome) : isMediaLine line = false := by
  obtain ⟨rest, hrest⟩ := initial_of_attrValue h
  obtain ⟨name, rfl⟩ := List.head?_eq_some_iff.mp hname
  rw [isMediaLine, ← hrest]
  rfl

/-! ## One more line -/

/-- The section with a line after its `m=` line. -/
def MediaSection.insert (sec : MediaSection) (line : List Char) (hline : isMediaLine line = false) : MediaSection :=
  { sec with attributes := line :: sec.attributes
             attribute_lines := List.forall_mem_cons.mpr ⟨hline, sec.attribute_lines⟩ }

/-- A body with one line more than another. -/
structure Inserted (sdp sdp' : List Char) (left : List (List Char)) (line : List Char) (right : List (List Char)) : Prop where
  old : lines sdp = left ++ right
  new : lines sdp' = left ++ line :: right

theorem Inserted.findAttr_same (h : Inserted sdp sdp' left line right) (hline : attrValue attr line = none) :
    findAttr sdp' attr = findAttr sdp attr := by
  rw [findAttr_eq, findAttr_eq, h.old, h.new, List.findSome?_append, List.findSome?_append, List.findSome?_cons, hline]

theorem Inserted.findAttr_new (h : Inserted sdp sdp' left line right) (hleft : ∀ l ∈ left, attrValue attr l = none)
    (hline : attrValue attr line = some value) : findAttr sdp' attr = some value := by
  rw [findAttr_eq, h.new, List.findSome?_append, List.findSome?_eq_none_iff.mpr hleft, Option.none_or,
    List.findSome?_cons, hline]

theorem exists_inserted (h : lines sdp = left ++ right) (hline : '\n' ∉ line) :
    ∃ sdp', Inserted sdp sdp' left line right := by
  have hfree : ∀ l ∈ lines sdp, '\n' ∉ l := not_mem_linesFrom [] sdp List.not_mem_nil
  refine ⟨unlines (left ++ line :: right), h, lines_unlines _ fun l hl => ?_⟩
  rw [h] at hfree
  rw [List.mem_append, List.mem_cons] at hl
  rcases hl with hl | rfl | hl
  · exact hfree l (List.mem_append_left _ hl)
  · exact hline
  · exact hfree l (List.mem_append_right _ hl)

theorem attrValue_media (sec : MediaSection) {name : List Char} (hname : name.head? = some 'a') :
    attrValue (name ++ payloadType) sec.media = none := by
  by_contra hsome
  have hfalse := not_isMediaLine hname (Option.ne_none_iff_isSome.mp hsome)
  rw [sec.media_line] at hfalse
  cases hfalse

/-- A line after the `m=` line of a section, where no line before has the attribute. -/
theorem exists_inserted_in {first : MediaSection} {name : List Char} (h : lines sdp = left ++ first.lines ++ right)
    (hname : name.head? = some 'a') (hleft : ∀ l ∈ left, attrValue (name ++ payloadType) l = none)
    (hmedia : isMediaLine line = false) (hline : '\n' ∉ line) :
    ∃ sdp', Inserted sdp sdp' (left ++ [first.media]) line (first.attributes ++ right) ∧
      lines sdp' = left ++ (first.insert line hmedia).lines ++ right ∧
      ∀ l ∈ left ++ [first.media], attrValue (name ++ payloadType) l = none := by
  have hlines : lines sdp = (left ++ [first.media]) ++ (first.attributes ++ right) := by
    rw [h]
    simp [MediaSection.lines]
  obtain ⟨sdp', hinserted⟩ := exists_inserted hlines hline
  refine ⟨sdp', hinserted, ?_, fun l hl => ?_⟩
  · rw [hinserted.new]
    simp [MediaSection.lines, MediaSection.insert]
  · rcases List.mem_append.mp hl with hl | hl
    · exact hleft l hl
    · rw [List.mem_singleton.mp hl]
      exact attrValue_media first hname

/-- Where an attribute is not fixed, a line of another section can come before all that have it. -/
theorem exists_change (h : sec.In sdp session before after) {name : List Char} (hname : name.head? = some 'a')
    (hnot : ¬ AttrFixed session before sec after (name ++ payloadType)) (hmedia : isMediaLine line = false)
    (hline : '\n' ∉ line) :
    ∃ sdp' before' after' left right, sec.In sdp' session before' after' ∧ SameMedia before before' ∧
      SameMedia after after' ∧ Inserted sdp sdp' left line right ∧
      ∀ l ∈ left, attrValue (name ++ payloadType) l = none := by
  simp only [AttrFixed, not_or, not_and_or, Option.not_isSome_iff_eq_none] at hnot
  obtain ⟨hsession, hother⟩ := hnot
  rw [List.findSome?_eq_none_iff] at hsession
  cases before with
  | cons first before =>
    have hlines : lines sdp = session ++ first.lines ++ (before ++ sec :: after).flatMap MediaSection.lines := by
      rw [h.lines_eq]
      simp [bodyLines]
    obtain ⟨sdp', hinserted, hnew, hleft⟩ := exists_inserted_in hlines hname hsession hmedia hline
    refine ⟨sdp', first.insert line hmedia :: before, after, _, _, ⟨?_, h.session_lines⟩, rfl, rfl, hinserted, hleft⟩
    rw [hnew]
    simp [bodyLines]
  | nil =>
    obtain ⟨hsec, hafter⟩ := hother.resolve_left fun hne => hne rfl
    rw [List.findSome?_eq_none_iff] at hsec
    cases after with
    | nil => exact absurd rfl hafter
    | cons first after =>
      have hlines : lines sdp = (session ++ sec.lines) ++ first.lines ++ after.flatMap MediaSection.lines := by
        rw [h.lines_eq]
        simp [bodyLines]
      obtain ⟨sdp', hinserted, hnew, hleft⟩ := exists_inserted_in hlines hname
        (fun l hl => (List.mem_append.mp hl).elim (hsession l) (hsec l)) hmedia hline
      refine ⟨sdp', [], first.insert line hmedia :: after, _, _, ⟨?_, h.session_lines⟩, rfl, rfl, hinserted, hleft⟩
      rw [hnew]
      simp [bodyLines]

end Sections

/-! ## Bodies that are accepted -/

section Accepted
variable {base64 : Base64} {sdp sdp' : List Char}

theorem parseMediaLines_error_iff (base64 : Base64) (sdp : List Char) (ls : List (List Char)) (e : SdpFailure) :
    parseMediaLines base64 sdp ls = .error e ↔ ∃ earlier line later, ls = earlier ++ line :: later ∧
      (∀ l ∈ earlier, ∃ params, parseMediaLine base64 sdp l = .ok params) ∧ parseMediaLine base64 sdp line = .error e := by
  induction ls with
  | nil => exact ⟨(by simp [parseMediaLines]), fun ⟨earlier, line, later, h, _⟩ => by simp at h⟩
  | cons first rest ih =>
    cases hfirst : parseMediaLine base64 sdp first with
    | error e' =>
      have hloop : parseMediaLines base64 sdp (first :: rest) = .error e' := by
        simp only [parseMediaLines, hfirst]
        rfl
      rw [hloop]
      constructor
      · intro h
        exact ⟨[], first, rest, rfl, by simp, hfirst.trans (congrArg _ (Except.error.inj h))⟩
      · rintro ⟨earlier, line, later, heq, hok, hline⟩
        cases earlier with
        | nil =>
          obtain ⟨rfl, -⟩ := List.cons.inj heq
          exact congrArg _ (Except.error.inj (hfirst.symm.trans hline))
        | cons _ earlier =>
          obtain ⟨rfl, -⟩ := List.cons.inj heq
          obtain ⟨params, hparams⟩ := hok first List.mem_cons_self
          rw [hfirst] at hparams
          cases hparams
    | ok params =>
      have hloop : parseMediaLines base64 sdp (first :: rest) = .error e ↔ parseMediaLines base64 sdp rest = .error e := by
        simp only [parseMediaLines, hfirst]
        cases parseMediaLines base64 sdp rest <;> simp [bind, Except.bind]
      rw [hloop, ih]
      constructor
      · rintro ⟨earlier, line, later, rfl, hok, hline⟩
        exact ⟨first :: earlier, line, later, rfl, List.forall_mem_cons.mpr ⟨⟨params, hfirst⟩, hok⟩, hline⟩
      · rintro ⟨earlier, line, later, heq, hok, hline⟩
        cases earlier with
        | nil =>
          obtain ⟨rfl, -⟩ := List.cons.inj heq
          rw [hfirst] at hline
          cases hline
        | cons _ earlier =>
          obtain ⟨rfl, rfl⟩ := List.cons.inj heq
          exact ⟨earlier, line, later, rfl, (List.forall_mem_cons.mp hok).2, hline⟩

/-- A loop that comes to its end has passed every line and has the entries they contribute. -/
theorem parseMediaLines_ok {ls : List (List Char)} {entries : List CodecParams}
    (h : parseMediaLines base64 sdp ls = .ok entries) :
    (∀ line ∈ ls, ∃ entry, parseMediaLine base64 sdp line = .ok entry) ∧
      ∀ params, params ∈ entries ↔ ∃ line ∈ ls, parseMediaLine base64 sdp line = .ok (some params) := by
  induction ls generalizing entries with
  | nil =>
    obtain rfl := Except.ok.inj h
    simp
  | cons first rest ih =>
    cases hfirst : parseMediaLine base64 sdp first with
    | error e =>
      simp only [parseMediaLines, hfirst] at h
      cases h
    | ok entry =>
      cases hrest : parseMediaLines base64 sdp rest with
      | error e =>
        simp only [parseMediaLines, hfirst, hrest] at h
        cases h
      | ok others =>
        simp only [parseMediaLines, hfirst, hrest] at h
        obtain rfl := Except.ok.inj h
        obtain ⟨hall, hmem⟩ := ih hrest
        exact ⟨List.forall_mem_cons.mpr ⟨⟨entry, hfirst⟩, hall⟩, fun params => by simp [hmem, hfirst]⟩

def SdpAccepted (base64 : Base64) (sdp : List Char) : Prop := ∃ parsed, parseSdp base64 sdp = .ok parsed

theorem sdpAccepted_iff (base64 : Base64) (sdp : List Char) :
    SdpAccepted base64 sdp ↔ (∀ line ∈ lines sdp, ∃ entry, parseMediaLine base64 sdp line = .ok entry) ∧
      ∃ line ∈ lines sdp, ∃ params, parseMediaLine base64 sdp line = .ok (some params) := by
  cases hloop : parseMediaLines base64 sdp (lines sdp) with
  | error e =>
    refine iff_of_false ?_ ?_
    · rintro ⟨parsed, hparsed⟩
      simp only [parseSdp, hloop] at hparsed
      cases hparsed
    · rintro ⟨hall, -⟩
      obtain ⟨earlier, line, later, hlines, -, herror⟩ := (parseMediaLines_error_iff base64 sdp _ e).mp hloop
      obtain ⟨entry, hentry⟩ := hall line (by rw [hlines]; simp)
      rw [herror] at hentry
      cases hentry
  | ok entries =>
    obtain ⟨hall, hmem⟩ := parseMediaLines_ok hloop
    have hsome : entries ≠ [] ↔ ∃ line ∈ lines sdp, ∃ params, parseMediaLine base64 sdp line = .ok (some params) := by
      constructor
      · intro hne
        obtain ⟨params, hparams⟩ := List.exists_mem_of_ne_nil entries hne
        obtain ⟨line, hline, hentry⟩ := (hmem params).mp hparams
        exact ⟨line, hline, params, hentry⟩
      · rintro ⟨line, hline, params, hentry⟩
        exact List.ne_nil_of_mem ((hmem params).mpr ⟨line, hline, hentry⟩)
    rw [← hsome]
    unfold SdpAccepted parseSdp
    rw [hloop]
    dsimp only
    split
    · next hnil => simp [hnil]
    · next hne => exact iff_of_true ⟨_, rfl⟩ ⟨hall, hne⟩

end Accepted

/-! ## The entry of a section -/

/-- The attributes `parse_sdp` reads for the entry of the section are fixed. -/
def EntryFixed (session : List (List Char)) (before : List MediaSection) (sec : MediaSection) (after : List MediaSection)
    (payloadType : List Char) (codec : Codec) : Prop :=
  AttrFixed session before sec after (rtpmapAttr payloadType) ∧
    (UsesConfig codec → AttrFixed session before sec after (fmtpAttr payloadType))

/-- The entry stays as it is whatever the attribute lines of the other sections of a body that is accepted. -/
def EntryStable (base64 : Base64) (session : List (List Char)) (before : List MediaSection) (sec : MediaSection)
    (after : List MediaSection) (params : CodecParams) : Prop :=
  ∀ sdp' before' after', sec.In sdp' session before' after' → SameMedia before before' → SameMedia after after' →
    SdpAccepted base64 sdp' → parseMediaLine base64 sdp' sec.media = .ok (some params)

/-- A text that an attribute can have as its value. -/
def IsValue (value : List Char) : Prop :=
  trim (' ' :: value) = value ∧ (value.getLast?.any fun c => !isWhitespace c) = true ∧ '\n' ∉ value

instance (value : List Char) : Decidable (IsValue value) := inferInstanceAs (Decidable (_ ∧ _ ∧ _))

/-- The texts of two bytes. -/
structure Base64.Standard (base64 : Base64) : Prop where
  zero : base64 "AA==".toList = some [0]
  one : base64 "AQ==".toList = some [1]

/-- A parameter set of one text. -/
theorem parseFmtpConfig_h264 {base64 : Base64} {value text : List Char} {bytes : Bytes}
    (hparam : extractParam value "sprop-parameter-sets".toList = some text) (hsplit : text.splitOn ',' = [text])
    (htrim : trim text = text) (hdecode : base64 text = some bytes) (hne : bytes.isEmpty = false) :
    parseFmtpConfig base64 value .h264 = .ok (some bytes) := by
  simp only [parseFmtpConfig, hparam, hsplit]
  simp [htrim, hdecode, hne]

theorem parseFmtpConfig_aac {base64 : Base64} {value config : List Char} {bytes : Bytes}
    (hparam : extractParam value "config".toList = some config) (hdecode : hexDecode config = .ok bytes) :
    parseFmtpConfig base64 value .aac = .ok (some bytes) := by
  simp only [parseFmtpConfig, hparam, hdecode]

theorem parseFmtpConfig_isOk (base64 : Base64) {value : List Char}
    (h : ∀ config, extractParam value "config".toList = some config → hexDecode config ≠ .error .notCharBoundary)
    (codec : Codec) : ∃ config, parseFmtpConfig base64 value codec = .ok config := by
  cases codec with
  | h264 =>
    simp only [parseFmtpConfig]
    split <;> exact ⟨_, rfl⟩
  | aac =>
    simp only [parseFmtpConfig]
    split
    · exact ⟨_, rfl⟩
    · next config hconfig =>
      split
      · exact ⟨_, rfl⟩
      · next hcut => exact absurd hcut (h config hconfig)
      · exact ⟨_, rfl⟩
  | _ => exact ⟨_, rfl⟩

section Entries
variable {base64 : Base64} {sec : MediaSection} {sdp sdp' : List Char} {session left right : List (List Char)}
  {before after : List MediaSection} {mediaType : MediaType} {payloadType line : List Char} {params : CodecParams}

theorem parseMediaLine_media {media : List Char} (hmedia : mediaOf media = some (mediaType, payloadType)) (sdp : List Char) :
    parseMediaLine base64 sdp media = entryOf base64 mediaType payloadType (findAttr sdp (rtpmapAttr payloadType))
      (findAttr sdp (fmtpAttr payloadType)) := by
  rw [parseMediaLine_eq, hmedia]
  rfl

theorem mediaOf_eq_none (hline : isMediaLine line = false) : mediaOf line = none := by
  unfold isMediaLine at hline
  simp only [mediaOf, hline, Bool.not_false, if_true]

/-- A line that does no harm to the sections of its payload type does none to any. -/
theorem Inserted.entry (h : Inserted sdp sdp' left line right)
    (hsame : ∀ word, (∀ c, isWhitespace c = true → c ∉ word) → word ≠ payloadType →
      attrValue (rtpmapAttr word) line = none ∧ attrValue (fmtpAttr word) line = none)
    (hnew : ∀ mediaType entry, entryOf base64 mediaType payloadType (findAttr sdp (rtpmapAttr payloadType))
      (findAttr sdp (fmtpAttr payloadType)) = .ok entry →
        ∃ entry', entryOf base64 mediaType payloadType (findAttr sdp' (rtpmapAttr payloadType))
          (findAttr sdp' (fmtpAttr payloadType)) = .ok entry' ∧ (entry.isSome → entry'.isSome))
    {l : List Char} {entry : Option CodecParams} (hl : parseMediaLine base64 sdp l = .ok entry) :
    ∃ entry', parseMediaLine base64 sdp' l = .ok entry' ∧ (entry.isSome → entry'.isSome) := by
  cases hmedia : mediaOf l with
  | none =>
    rw [parseMediaLine_eq, hmedia] at hl ⊢
    exact ⟨entry, hl, id⟩
  | some media =>
    obtain ⟨mediaType, word⟩ := media
    rw [parseMediaLine_media hmedia] at hl ⊢
    by_cases hword : word = payloadType
    · subst hword
      exact hnew mediaType entry hl
    · obtain ⟨hrtpmap, hfmtp⟩ := hsame word (fun c hc => payloadType_word hmedia hc) hword
      rw [h.findAttr_same hrtpmap, h.findAttr_same hfmtp]
      exact ⟨entry, hl, id⟩

theorem Inserted.mem_iff (h : Inserted sdp sdp' left line right) {l : List Char} :
    l ∈ lines sdp' ↔ l = line ∨ l ∈ lines sdp := by
  rw [h.new, h.old, List.mem_append, List.mem_cons, List.mem_append]
  exact or_left_comm

/-- The body is accepted with one more line if this does no harm to the sections of its payload type. -/
theorem Inserted.accepted (h : Inserted sdp sdp' left line right) (hok : SdpAccepted base64 sdp)
    (hline : isMediaLine line = false)
    (hsame : ∀ word, (∀ c, isWhitespace c = true → c ∉ word) → word ≠ payloadType →
      attrValue (rtpmapAttr word) line = none ∧ attrValue (fmtpAttr word) line = none)
    (hnew : ∀ mediaType entry, entryOf base64 mediaType payloadType (findAttr sdp (rtpmapAttr payloadType))
      (findAttr sdp (fmtpAttr payloadType)) = .ok entry →
        ∃ entry', entryOf base64 mediaType payloadType (findAttr sdp' (rtpmapAttr payloadType))
          (findAttr sdp' (fmtpAttr payloadType)) = .ok entry' ∧ (entry.isSome → entry'.isSome)) :
    SdpAccepted base64 sdp' := by
  rw [sdpAccepted_iff] at hok ⊢
  constructor
  · intro l hl
    rcases h.mem_iff.mp hl with rfl | hl
    · exact ⟨none, by rw [parseMediaLine_eq, mediaOf_eq_none hline]; rfl⟩
    · obtain ⟨entry, hold⟩ := hok.1 l hl
      obtain ⟨entry', hentry, -⟩ := h.entry hsame hnew hold
      exact ⟨entry', hentry⟩
  · obtain ⟨l, hl, params, hparams⟩ := hok.2
    obtain ⟨entry', hentry, hsome⟩ := h.entry hsame hnew hparams
    obtain ⟨params', rfl⟩ := Option.isSome_iff_exists.mp (hsome rfl)
    exact ⟨l, h.mem_iff.mpr (.inr hl), params', hentry⟩

/-- A line with a value for an attribute that is not fixed, and what it leaves of the others. -/
theorem exists_value_change (h : sec.In sdp session before after) (hmedia : mediaOf sec.media = some (mediaType, payloadType))
    {name other value : List Char} (hname : name.head? = some 'a') (hlf : '\n' ∉ name)
    (hother : ∀ word line, (attrValue (name ++ payloadType) line).isSome → attrValue (other ++ word) line = none)
    (hnot : ¬ AttrFixed session before sec after (name ++ payloadType)) (hvalue : IsValue value) :
    ∃ sdp' before' after' left line right, sec.In sdp' session before' after' ∧ SameMedia before before' ∧
      SameMedia after after' ∧ Inserted sdp sdp' left line right ∧ isMediaLine line = false ∧
      findAttr sdp' (name ++ payloadType) = some value ∧ (∀ word, attrValue (other ++ word) line = none) ∧
      ∀ word, (∀ c, isWhitespace c = true → c ∉ word) → word ≠ payloadType → attrValue (name ++ word) line = none := by
  obtain ⟨htrim, hlast, hfree⟩ := hvalue
  obtain ⟨c, hlast, hc⟩ := (Option.any_eq_true _ _).mp hlast
  rw [Bool.not_eq_true'] at hc
  have hhead : (name ++ payloadType).head? = some 'a' := by
    obtain ⟨rest, rfl⟩ := List.head?_eq_some_iff.mp hname
    rfl
  have hread := attrValue_line (name ++ payloadType) value hhead (by decide) hlast hc
  rw [htrim] at hread
  have hsome := Option.isSome_iff_exists.mpr ⟨value, hread⟩
  have hblank : '\n' ∉ name ++ payloadType ++ ' ' :: value := by
    simp only [List.mem_append, List.mem_cons, not_or]
    exact ⟨⟨hlf, payloadType_word hmedia (by decide)⟩, by decide, hfree⟩
  obtain ⟨sdp', before', after', left, right, hin, hbefore, hafter, hinserted, hleft⟩ := exists_change h hname hnot
    (not_isMediaLine hname hsome) hblank
  exact ⟨sdp', before', after', left, _, right, hin, hbefore, hafter, hinserted, not_isMediaLine hname hsome,
    hinserted.findAttr_new hleft hread, fun word => hother word _ hsome, fun word hword hne =>
      attrValue_other hname (by decide) hlast hc (fun c hc => payloadType_word hmedia hc) hword hne⟩

/-- A line for Opus takes the place of every other format of the payload type. -/
theorem EntryStable.clockRate_eq (h : sec.In sdp session before after)
    (hmedia : mediaOf sec.media = some (mediaType, payloadType)) (hok : SdpAccepted base64 sdp)
    (hstable : EntryStable base64 session before sec after params)
    (hnot : ¬ AttrFixed session before sec after (rtpmapAttr payloadType)) {value : List Char} {rate : ℕ}
    (hvalue : IsValue value) (hparse : parseRtpmap value = .ok (.opus, rate)) : params.clockRate = rate := by
  obtain ⟨sdp', before', after', left, line, right, hin, hbefore, hafter, hinserted, hline, hfound, hother, hwords⟩ :=
    exists_value_change h hmedia (by decide) (by decide) (fun word => rtpmap_exclusive payloadType word) hnot hvalue
  have hrtpmap : findAttr sdp' (rtpmapAttr payloadType) = some value := hfound
  have hopus : ∀ mediaType fmtp, entryOf base64 mediaType payloadType (some value) fmtp =
      .ok (some { codec := .opus, mediaType := mediaType, clockRate := rate, extradata := none }) := by
    intro mediaType fmtp
    rw [entryOf_eq_bind]
    simp [formatOf, hparse, Except.map, Except.bind, parseFmtpConfig]
  have haccepted := hinserted.accepted hok hline (fun word hword hne => ⟨hwords word hword hne, hother word⟩)
    fun mediaType entry _ => ⟨_, by rw [hrtpmap]; exact hopus mediaType _, fun _ => rfl⟩
  have hentry := hstable sdp' before' after' hin hbefore hafter haccepted
  rw [parseMediaLine_media hmedia, hrtpmap, hopus] at hentry
  exact (congrArg CodecParams.clockRate (Option.some.inj (Except.ok.inj hentry))).symm

theorem EntryStable.fixed_rtpmap (h : sec.In sdp session before after)
    (hmedia : mediaOf sec.media = some (mediaType, payloadType)) (hok : SdpAccepted base64 sdp)
    (hstable : EntryStable base64 session before sec after params) :
    AttrFixed session before sec after (rtpmapAttr payloadType) := by
  by_contra hnot
  have hread : ∀ value rate, IsValue value → parseRtpmap value = .ok (.opus, rate) → params.clockRate = rate :=
    fun _ _ => hstable.clockRate_eq h hmedia hok hnot
  have hone := hread "opus/1".toList 1 (by decide) (by decide)
  have htwo := hread "opus/2".toList 2 (by decide) (by decide)
  omega

/-- A configuration line that can be read takes the place of every other one of the payload type. -/
theorem EntryStable.extradata_eq (h : sec.In sdp session before after)
    (hmedia : mediaOf sec.media = some (mediaType, payloadType)) (hok : SdpAccepted base64 sdp)
    (hstable : EntryStable base64 session before sec after params)
    (hnot : ¬ AttrFixed session before sec after (fmtpAttr payloadType)) {value : List Char} {config : Option Bytes}
    (hvalue : IsValue value) (hread : ∀ codec, ∃ config, parseFmtpConfig base64 value codec = .ok config)
    (hconfig : parseFmtpConfig base64 value params.codec = .ok config) : params.extradata = config := by
  obtain ⟨sdp', before', after', left, line, right, hin, hbefore, hafter, hinserted, hline, hfound, hother, hwords⟩ :=
    exists_value_change h hmedia (by decide) (by decide) (fun word => fmtp_exclusive payloadType word) hnot hvalue
  have hrtpmap : findAttr sdp' (rtpmapAttr payloadType) = findAttr sdp (rtpmapAttr payloadType) :=
    hinserted.findAttr_same (hother payloadType)
  have hfmtp : findAttr sdp' (fmtpAttr payloadType) = some value := hfound
  have haccepted := hinserted.accepted hok hline (fun word hword hne => ⟨hother word, hwords word hword hne⟩)
    fun mediaType entry hold => by
      rw [hrtpmap, hfmtp]
      exact entryOf_of_config hread hold
  have hentry := hstable sdp' before' after' hin hbefore hafter haccepted
  rw [parseMediaLine_media hmedia, hfmtp] at hentry
  exact Except.ok.inj ((entryOf_eq_some hentry).2.symm.trans hconfig)

theorem EntryStable.fixed_fmtp (hbase64 : base64.Standard) (h : sec.In sdp session before after)
    (hmedia : mediaOf sec.media = some (mediaType, payloadType)) (hok : SdpAccepted base64 sdp)
    (hstable : EntryStable base64 session before sec after params) (hcodec : UsesConfig params.codec) :
    AttrFixed session before sec after (fmtpAttr payloadType) := by
  by_contra hnot
  have hdiffer : ∀ value value', IsValue value → IsValue value' →
      (∀ codec, ∃ config, parseFmtpConfig base64 value codec = .ok config) →
      (∀ codec, ∃ config, parseFmtpConfig base64 value' codec = .ok config) →
      parseFmtpConfig base64 value params.codec = .ok (some [0]) →
      parseFmtpConfig base64 value' params.codec = .ok (some [1]) → False := by
    intro value value' hvalue hvalue' hread hread' hconfig hconfig'
    have hzero := hstable.extradata_eq h hmedia hok hnot hvalue hread hconfig
    have hone := hstable.extradata_eq h hmedia hok hnot hvalue' hread' hconfig'
    rw [hzero] at hone
    cases hone
  rcases hcodec with hcodec | hcodec
  · have hzero : extractParam "sprop-parameter-sets=AA==".toList "config".toList = none := by decide
    have hone : extractParam "sprop-parameter-sets=AQ==".toList "config".toList = none := by decide
    exact hdiffer "sprop-parameter-sets=AA==".toList "sprop-parameter-sets=AQ==".toList (by decide) (by decide)
      (parseFmtpConfig_isOk base64 fun config hconfig => by rw [hzero] at hconfig; cases hconfig)
      (parseFmtpConfig_isOk base64 fun config hconfig => by rw [hone] at hconfig; cases hconfig)
      (hcodec ▸ parseFmtpConfig_h264 (by decide) (by decide) (by decide) hbase64.zero rfl)
      (hcodec ▸ parseFmtpConfig_h264 (by decide) (by decide) (by decide) hbase64.one rfl)
  · have hzero : extractParam "config=00".toList "config".toList = some "00".toList := by decide
    have hone : extractParam "config=01".toList "config".toList = some "01".toList := by decide
    exact hdiffer "config=00".toList "config=01".toList (by decide) (by decide)
      (parseFmtpConfig_isOk base64 fun config hconfig => by rw [← Option.some.inj (hzero.symm.trans hconfig)]; decide)
      (parseFmtpConfig_isOk base64 fun config hconfig => by rw [← Option.some.inj (hone.symm.trans hconfig)]; decide)
      (hcodec ▸ parseFmtpConfig_aac hzero (by decide)) (hcodec ▸ parseFmtpConfig_aac hone (by decide))

/-- With neither attribute before the first section, the entry is the one of the section standing alone. -/
theorem entry_alone (h : sec.In sdp session before after) (hmedia : mediaOf sec.media = some (mediaType, payloadType))
    (hentry : parseMediaLine base64 sdp sec.media = .ok (some params))
    (hfixed : EntryFixed session before sec after payloadType params.codec)
    (hrtpmap : session.findSome? (attrValue (rtpmapAttr payloadType)) = none)
    (hfmtp : session.findSome? (attrValue (fmtpAttr payloadType)) = none) :
    parseMediaLine base64 (unlines sec.lines) sec.media = .ok (some params) := by
  have hfree : ∀ line ∈ sec.lines, '\n' ∉ line := by
    intro line hline
    refine not_mem_linesFrom [] sdp List.not_mem_nil line ?_
    change line ∈ lines sdp
    rw [h.lines_eq, bodyLines]
    simp [hline]
  have hin : sec.In (unlines sec.lines) [] [] [] := ⟨by rw [lines_unlines _ hfree]; simp [bodyLines], by simp⟩
  have hown : ∀ attr, session.findSome? (attrValue attr) = none → AttrFixed session before sec after attr →
      findAttr (unlines sec.lines) attr = findAttr sdp attr := by
    intro attr hnone hattr
    rw [findAttr_of_lines h.lines_eq, findAttr_of_lines hin.lines_eq, hnone]
    rcases hattr with hsome | ⟨rfl, hown⟩
    · rw [hnone] at hsome
      cases hsome
    · simp only [List.findSome?_nil, Option.none_or, List.nil_append, List.flatMap_cons, List.flatMap_nil,
        List.append_nil, List.findSome?_append]
      rcases hown with hown | rfl
      · rw [Option.or_of_isSome hown]
      · simp
  rw [parseMediaLine_media hmedia] at hentry ⊢
  rw [hown _ hrtpmap hfixed.1]
  by_cases hcodec : UsesConfig params.codec
  · rw [hown _ hfmtp (hfixed.2 hcodec)]
    exact hentry
  · exact entryOf_unused hentry hcodec _

end Entries

/-- An engine that knows the texts of two bytes. -/
def twoByteBase64 : Base64 := fun text =>
  if text = "AA==".toList then some [0] else if text = "AQ==".toList then some [1] else none

def videoSection : MediaSection where
  media := "m=video 0 RTP/AVP 96".toList
  attributes := ["a=rtpmap:96 H265/90000".toList]
  media_line := by decide +kernel
  attribute_lines := by decide +kernel

def audioSection : MediaSection where
  media := "m=audio 0 RTP/AVP 97".toList
  attributes := ["a=rtpmap:97 OPUS/48000".toList]
  media_line := by decide +kernel
  attribute_lines := by decide +kernel

/-- Two sections with one payload type, the second with an `rtpmap` of its own. -/
def sharedPayloadType (format : String) : List Char :=
  ("m=video 0 RTP/AVP 96\r\na=rtpmap:96 " ++ format ++ "\r\nm=audio 0 RTP/AVP 96\r\na=rtpmap:96 OPUS/48000\r\n").toList

end LivestreamRs.Rtsp
