import LivestreamRs.Rtsp.SdpSections

/-! # Slices of SDP text

`parse_sdp` slices strings in two places. `extract_param` cuts at an `=`, which is always a character boundary.
`hex_decode` cuts every two bytes, and panics where that falls inside a character; and a pair it reads may also be a plus
sign with a digit after it.
-/
namespace LivestreamRs.Rtsp
open Media
set_option autoImplicit false

/-! ## Slices -/

/-- `&text[..n]`; `none` where `n` is not a character boundary of the text and the source panics. -/
def sliceTo : List Char → ℕ → Option (List Char)
  | _, 0 => some []
  | [], _ + 1 => none
  | c :: text, n + 1 => if c.utf8Size ≤ n + 1 then (sliceTo text (n + 1 - c.utf8Size)).map (c :: ·) else none

/-- `&text[n..]` -/
def sliceFrom : List Char → ℕ → Option (List Char)
  | text, 0 => some text
  | [], _ + 1 => none
  | c :: text, n + 1 => if c.utf8Size ≤ n + 1 then sliceFrom text (n + 1 - c.utf8Size) else none

theorem utf8Len_cons (c : Char) (text : List Char) : utf8Len (c :: text) = c.utf8Size + utf8Len text := rfl

theorem utf8Len_append (text more : List Char) : utf8Len (text ++ more) = utf8Len text + utf8Len more := by
  simp [utf8Len]

theorem sliceTo_cons (c : Char) (text : List Char) (n : ℕ) :
    sliceTo (c :: text) (c.utf8Size + n) = (sliceTo text n).map (c :: ·) := by
  obtain ⟨k, hk⟩ := Nat.exists_eq_succ_of_ne_zero c.utf8Size_pos.ne'
  have hsum : c.utf8Size + n = k + n + 1 := by omega
  rw [hsum, sliceTo, if_pos (by omega), ← hsum, Nat.add_sub_cancel_left]

theorem sliceFrom_cons (c : Char) (text : List Char) (n : ℕ) :
    sliceFrom (c :: text) (c.utf8Size + n) = sliceFrom text n := by
  obtain ⟨k, hk⟩ := Nat.exists_eq_succ_of_ne_zero c.utf8Size_pos.ne'
  have hsum : c.utf8Size + n = k + n + 1 := by omega
  rw [hsum, sliceFrom, if_pos (by omega), ← hsum, Nat.add_sub_cancel_left]

theorem sliceTo_append (text more : List Char) : sliceTo (text ++ more) (utf8Len text) = some text := by
  induction text with
  | nil => cases more <;> rfl
  | cons c text ih => rw [List.cons_append, utf8Len_cons, sliceTo_cons, ih, Option.map_some]

theorem sliceFrom_append (text more : List Char) : sliceFrom (text ++ more) (utf8Len text) = some more := by
  induction text with
  | nil => cases more <;> rfl
  | cons c text ih => rw [List.cons_append, utf8Len_cons, sliceFrom_cons, ih]

/-! ## `extract_param` -/

/-- `str::find` with a character: the position of its first byte. -/
def findChar (text : List Char) (c : Char) : Option ℕ :=
  match text.span (· ≠ c) with
  | (before, _ :: _) => some (utf8Len before)
  | (_, []) => none

/-- The loop of `extract_param` with its slices; `none` if one of them panics. -/
def extractParamSliced (key : List Char) : List (List Char) → Option (Option (List Char))
  | [] => some none
  | part :: parts =>
    let part := trim part
    match findChar part '=' with
    | none => extractParamSliced key parts
    | some idx => do
      let name ← sliceTo part idx
      if trim name = key then
        let value ← sliceFrom part (idx + 1)
        some (some (trim value))
      else extractParamSliced key parts

theorem findChar_eq_some {text before after : List Char} {c d : Char}
    (h : text.span (· ≠ c) = (before, d :: after)) :
    d = c ∧ findChar text c = some (utf8Len before) ∧ sliceTo text (utf8Len before) = some before ∧
      sliceFrom text (utf8Len before + c.utf8Size) = some after := by
  have hfind : findChar text c = some (utf8Len before) := by simp only [findChar, h]
  rw [List.span_eq_takeWhile_dropWhile] at h
  obtain ⟨hbefore, hafter⟩ := Prod.mk.inj h
  have hd : d = c := by
    have hhead := List.head?_dropWhile_not (· ≠ c) text
    rw [hafter] at hhead
    simpa using hhead
  have htext : text = before ++ c :: after := by
    rw [← List.takeWhile_append_dropWhile (p := (· ≠ c)) (l := text), hbefore, hafter, hd]
  refine ⟨hd, hfind, ?_, ?_⟩
  · rw [htext, sliceTo_append]
  · have hsnoc : utf8Len before + c.utf8Size = utf8Len (before ++ [c]) := by
      rw [utf8Len_append, utf8Len_cons]
      rfl
    rw [htext, hsnoc, ← List.singleton_append, ← List.append_assoc, sliceFrom_append]

/-- No slice of `extract_param` panics. -/
theorem extractParamSliced_eq (fmtp key : List Char) :
    extractParamSliced key (fmtp.splitOn ';') = some (extractParam fmtp key) := by
  unfold extractParam
  induction fmtp.splitOn ';' with
  | nil => rfl
  | cons part parts ih =>
    generalize hspan : (trim part).span (· ≠ '=') = parts'
    obtain ⟨before, rest⟩ := parts'
    cases rest with
    | nil =>
      have hfind : findChar (trim part) '=' = none := by simp only [findChar, hspan]
      simp only [extractParamSliced, hfind, List.findSome?_cons, hspan, ih]
    | cons d after =>
      obtain ⟨-, hfind, hto, hfrom⟩ := findChar_eq_some hspan
      simp only [extractParamSliced, hfind, List.findSome?_cons, hspan]
      rw [hto]
      simp only [Option.bind_eq_bind, Option.bind_some]
      split
      · rw [show utf8Len before + 1 = utf8Len before + '='.utf8Size from rfl, hfrom]
        rfl
      · exact ih

/-! ## `hex_decode` -/

/-- The text consists of hexadecimal digits, two for each of the bytes. -/
inductive HexOf : List Char → Bytes → Prop
  | nil : HexOf [] []
  | cons {c d : Char} {x y : ℕ} {text : List Char} {bytes : Bytes} (hc : hexDigit c = some x) (hd : hexDigit d = some y)
      (rest : HexOf text bytes) : HexOf (c :: d :: text) (UInt8.ofNat (x * 16 + y) :: bytes)

/-- The text consists of pairs, one for each of the bytes: two hexadecimal digits, or a plus sign and a digit. -/
inductive PairsOf : List Char → Bytes → Prop
  | nil : PairsOf [] []
  | digits {c d : Char} {x y : ℕ} {text : List Char} {bytes : Bytes} (hc : hexDigit c = some x) (hd : hexDigit d = some y)
      (rest : PairsOf text bytes) : PairsOf (c :: d :: text) (UInt8.ofNat (x * 16 + y) :: bytes)
  | plus {d : Char} {y : ℕ} {text : List Char} {bytes : Bytes} (hd : hexDigit d = some y) (rest : PairsOf text bytes) :
      PairsOf ('+' :: d :: text) (UInt8.ofNat y :: bytes)

theorem utf8Size_of_le {c : Char} (h : c ≤ '\x7f') : c.utf8Size = 1 := if_pos h

theorem hexDigit_ascii {c : Char} {x : ℕ} (h : hexDigit c = some x) : c.utf8Size = 1 ∧ c ≠ '+' := by
  simp only [hexDigit] at h
  split at h
  · next hc => exact ⟨utf8Size_of_le (Char.le_trans hc.2 (by decide : '9' ≤ '\x7f')), fun heq => absurd (heq ▸ hc) (by decide)⟩
  split at h
  · next hc => exact ⟨utf8Size_of_le (Char.le_trans hc.2 (by decide : 'f' ≤ '\x7f')), fun heq => absurd (heq ▸ hc) (by decide)⟩
  split at h
  · next hc => exact ⟨utf8Size_of_le (Char.le_trans hc.2 (by decide : 'F' ≤ '\x7f')), fun heq => absurd (heq ▸ hc) (by decide)⟩
  · cases h

theorem error_of_map_error {α β ε : Type} {f : α → β} {r : Except ε α} {e : ε} (h : r.map f = .error e) :
    r = .error e := by
  cases r with
  | error _ => exact congrArg _ (Except.error.inj h)
  | ok _ => cases h

theorem ok_of_map_ok {α β ε : Type} {f : α → β} {r : Except ε α} {b : β} (h : r.map f = .ok b) :
    ∃ a, r = .ok a ∧ f a = b := by
  cases r with
  | error _ => cases h
  | ok a => exact ⟨a, rfl, Except.ok.inj h⟩

theorem PairsOf.even {text : List Char} {bytes : Bytes} (h : PairsOf text bytes) : utf8Len text % 2 = 0 := by
  induction h with
  | nil => rfl
  | digits hc hd _ ih =>
    rw [utf8Len_cons, utf8Len_cons, (hexDigit_ascii hc).1, (hexDigit_ascii hd).1]
    omega
  | plus hd _ ih =>
    have hplus : '+'.utf8Size = 1 := by decide
    rw [utf8Len_cons, utf8Len_cons, hplus, (hexDigit_ascii hd).1]
    omega

theorem hexDecodeLoop_ok_iff (text : List Char) (bytes : Bytes) : hexDecodeLoop text = .ok bytes ↔ PairsOf text bytes := by
  constructor
  · intro h
    fun_induction hexDecodeLoop text generalizing bytes with
    | case1 =>
      obtain rfl := Except.ok.inj h
      exact .nil
    | case7 c d text _ _ byte hbyte ih =>
      obtain ⟨rest, hrest, rfl⟩ := ok_of_map_ok h
      unfold fromStrRadix16 at hbyte
      split at hbyte
      · next hc =>
        obtain ⟨y, hy, rfl⟩ := Option.map_eq_some_iff.mp hbyte
        exact hc ▸ .plus hy (ih rest hrest)
      · obtain ⟨x, hx, hbyte⟩ := Option.bind_eq_some_iff.mp hbyte
        obtain ⟨y, hy, hbyte⟩ := Option.bind_eq_some_iff.mp hbyte
        obtain rfl := Option.some.inj hbyte
        exact .digits hx hy (ih rest hrest)
    | _ => cases h
  · intro h
    induction h with
    | nil => rfl
    | @digits c d x y text bytes hc hd _ ih =>
      obtain ⟨hcsize, hcplus⟩ := hexDigit_ascii hc
      obtain ⟨hdsize, -⟩ := hexDigit_ascii hd
      have hbyte : fromStrRadix16 c d = some (UInt8.ofNat (x * 16 + y)) := by
        rw [fromStrRadix16, if_neg hcplus, hc, hd]
        rfl
      rw [hexDecodeLoop, if_neg (by omega), if_neg (by omega), hbyte, ih]
      rfl
    | @plus d y text bytes hd _ ih =>
      have hplus : '+'.utf8Size = 1 := by decide
      obtain ⟨hdsize, -⟩ := hexDigit_ascii hd
      have hbyte : fromStrRadix16 '+' d = some (UInt8.ofNat y) := by rw [fromStrRadix16, if_pos rfl, hd, Option.map_some]
      rw [hexDecodeLoop, if_neg (by omega), if_neg (by omega), hbyte, ih]
      rfl

/-- `hex_decode` accepts the texts of pairs and nothing else. -/
theorem hexDecode_ok_iff (text : List Char) (bytes : Bytes) : hexDecode text = .ok bytes ↔ PairsOf (trim text) bytes := by
  unfold hexDecode
  dsimp only
  split
  · next hodd => exact iff_of_false (by simp) fun h => hodd h.even
  · exact hexDecodeLoop_ok_iff _ _

/-- Without a plus sign the pairs are of digits. -/
theorem hexOf_iff_pairsOf (text : List Char) (bytes : Bytes) : HexOf text bytes ↔ PairsOf text bytes ∧ '+' ∉ text := by
  constructor
  · intro h
    induction h with
    | nil => exact ⟨.nil, List.not_mem_nil⟩
    | cons hc hd _ ih =>
      simp only [List.mem_cons, not_or]
      exact ⟨.digits hc hd ih.1, (hexDigit_ascii hc).2.symm, (hexDigit_ascii hd).2.symm, ih.2⟩
  · rintro ⟨h, hplus⟩
    induction h with
    | nil => exact .nil
    | digits hc hd _ ih =>
      simp only [List.mem_cons, not_or] at hplus
      exact .cons hc hd (ih hplus.2.2)
    | plus => exact absurd List.mem_cons_self hplus

/-- It decodes hexadecimal digits and nothing else exactly where the text is not one of pairs with a plus sign. -/
theorem hexDecode_exact_iff (text : List Char) :
    (∀ bytes, hexDecode text = .ok bytes ↔ HexOf (trim text) bytes) ↔
      ∀ bytes, PairsOf (trim text) bytes → '+' ∉ trim text := by
  simp only [hexDecode_ok_iff, hexOf_iff_pairsOf]
  exact forall_congr' fun bytes => ⟨fun h hpairs => (h.mp hpairs).2, fun h => ⟨fun hpairs => ⟨hpairs, h hpairs⟩, And.left⟩⟩

/-- After some pairs, the next two bytes end inside a character. -/
def CutsCharacter (text : List Char) : Prop :=
  utf8Len text % 2 = 0 ∧ ∃ pairs bytes rest, text = pairs ++ rest ∧ rest ≠ [] ∧ PairsOf pairs bytes ∧
    sliceTo rest 2 = none

theorem sliceTo_two_singleton {c : Char} (hc : c.utf8Size ≠ 2) : sliceTo [c] 2 = none := by
  have hpos := c.utf8Size_pos
  rw [sliceTo]
  split
  · rw [show 1 + 1 - c.utf8Size = 0 + 1 by omega]
    rfl
  · rfl

theorem sliceTo_two_of_cut {c d : Char} {text : List Char} (hc : c.utf8Size ≠ 2)
    (hcut : c.utf8Size ≠ 1 ∨ d.utf8Size ≠ 1) : sliceTo (c :: d :: text) 2 = none := by
  have hpos := c.utf8Size_pos
  have hpos' := d.utf8Size_pos
  rw [sliceTo]
  split
  · rw [show 1 + 1 - c.utf8Size = 0 + 1 by omega, sliceTo, if_neg (by omega)]
    rfl
  · rfl

theorem hexDecodeLoop_of_cut {text : List Char} (hne : text ≠ []) (hcut : sliceTo text 2 = none) :
    hexDecodeLoop text = .error .notCharBoundary := by
  match text with
  | [] => exact absurd rfl hne
  | [c] =>
    rw [hexDecodeLoop, if_neg]
    intro hc
    rw [sliceTo, if_pos (by omega), hc] at hcut
    cases hcut
  | c :: d :: text =>
    have hc : c.utf8Size ≠ 2 := by
      intro hc
      rw [sliceTo, if_pos (by omega), hc] at hcut
      cases hcut
    rw [hexDecodeLoop, if_neg hc, if_pos]
    by_contra hboth
    rw [not_or, not_not, not_not] at hboth
    have htwo : sliceTo (c :: d :: text) (c.utf8Size + (d.utf8Size + 0)) = some [c, d] := by
      rw [sliceTo_cons, sliceTo_cons]
      cases text <;> rfl
    rw [hboth.1, hboth.2] at htwo
    rw [htwo] at hcut
    cases hcut

theorem hexDecodeLoop_notCharBoundary_iff (text : List Char) :
    hexDecodeLoop text = .error .notCharBoundary ↔ ∃ digits bytes rest, text = digits ++ rest ∧ rest ≠ [] ∧
      hexDecodeLoop digits = .ok bytes ∧ sliceTo rest 2 = none := by
  constructor
  · intro h
    fun_induction hexDecodeLoop text with
    | case3 c hc => exact ⟨[], [], [c], rfl, by simp, rfl, sliceTo_two_singleton hc⟩
    | case5 c d text hc hcut => exact ⟨[], [], c :: d :: text, rfl, by simp, rfl, sliceTo_two_of_cut hc hcut⟩
    | case7 c d text hc hd byte hbyte ih =>
      obtain ⟨digits, bytes, rest, rfl, hne, hdigits, hcut⟩ := ih (error_of_map_error h)
      refine ⟨c :: d :: digits, byte :: bytes, rest, rfl, hne, ?_, hcut⟩
      rw [hexDecodeLoop, if_neg hc, if_neg hd, hbyte, hdigits]
      rfl
    | _ => cases h
  · rintro ⟨digits, bytes, rest, rfl, hne, hdigits, hcut⟩
    fun_induction hexDecodeLoop digits generalizing bytes with
    | case1 => exact hexDecodeLoop_of_cut hne hcut
    | case7 c d text hc hd byte hbyte ih =>
      obtain ⟨bytes', hbytes', -⟩ := ok_of_map_ok hdigits
      rw [List.cons_append, List.cons_append, hexDecodeLoop, if_neg hc, if_neg hd, hbyte, ih bytes' hbytes']
      rfl
    | _ => cases hdigits

theorem hexDecode_notCharBoundary_iff (text : List Char) :
    hexDecode text = .error .notCharBoundary ↔ CutsCharacter (trim text) := by
  simp only [hexDecode, CutsCharacter, ← hexDecodeLoop_ok_iff, ← hexDecodeLoop_notCharBoundary_iff]
  by_cases heven : utf8Len (trim text) % 2 = 0
  · rw [if_neg (not_not.mpr heven)]
    exact ⟨fun h => ⟨heven, h⟩, And.right⟩
  · rw [if_pos heven]
    exact ⟨(by simp), fun h => absurd h.1 heven⟩

/-! ## `parse_sdp` -/

/-- The value of an `rtpmap` attribute: its last word is a name the parser knows, a slash and a number. -/
def RtpmapText (map : List Char) (codec : Codec) (clockRate : ℕ) : Prop :=
  ∃ name rate more, (((splitWhitespace map).getLast?).getD map).splitOn '/' = name :: rate :: more ∧
    parseU32 rate = some clockRate ∧ codecOfName name = some codec

/-- The `config` parameter of an `m=` line whose format is AAC. -/
def AacConfig (sdp line config : List Char) : Prop :=
  ∃ mediaType payloadType map clockRate, mediaOf line = some (mediaType, payloadType) ∧
    findAttr sdp (rtpmapAttr payloadType) = some map ∧ RtpmapText map .aac clockRate ∧
    extractParam ((findAttr sdp (fmtpAttr payloadType)).getD []) "config".toList = some config

/-- The format of an audio or video line, if the body has one for it, can be read. -/
def FormatReadable (sdp line : List Char) : Prop :=
  ∀ mediaType payloadType map, mediaOf line = some (mediaType, payloadType) →
    findAttr sdp (rtpmapAttr payloadType) = some map → ∃ codec clockRate, RtpmapText map codec clockRate

theorem parseRtpmap_ok_iff (map : List Char) (codec : Codec) (clockRate : ℕ) :
    parseRtpmap map = .ok (codec, clockRate) ↔ RtpmapText map codec clockRate := by
  unfold parseRtpmap RtpmapText
  dsimp only
  split
  · next name rate more hparts =>
    simp only [hparts, List.cons.injEq]
    cases hrate : parseU32 rate with
    | none =>
      refine iff_of_false (by simp) ?_
      rintro ⟨_, _, _, ⟨rfl, rfl, rfl⟩, h, -⟩
      rw [hrate] at h
      cases h
    | some value =>
      cases hname : codecOfName name with
      | none =>
        refine iff_of_false (by simp) ?_
        rintro ⟨_, _, _, ⟨rfl, rfl, rfl⟩, -, h⟩
        rw [hname] at h
        cases h
      | some known =>
        constructor
        · intro h
          obtain ⟨rfl, rfl⟩ := Prod.mk.inj (Except.ok.inj h)
          exact ⟨name, rate, more, ⟨rfl, rfl, rfl⟩, hrate, hname⟩
        · rintro ⟨_, _, _, ⟨rfl, rfl, rfl⟩, h, h'⟩
          rw [hrate] at h
          rw [hname] at h'
          rw [Option.some.inj h, Option.some.inj h']
  · next hparts =>
    refine iff_of_false (by simp) ?_
    rintro ⟨name, rate, more, h, -⟩
    exact hparts name rate more h

theorem parseRtpmap_ne_panicked (map : List Char) : parseRtpmap map ≠ .error .panicked := by
  intro h
  simp only [parseRtpmap] at h
  split at h
  · split at h
    · cases h
    · split at h <;> cases h
  · cases h

theorem parseFmtpConfig_error_iff (base64 : Base64) (fmtp : List Char) (codec : Codec) (e : SdpFailure) :
    parseFmtpConfig base64 fmtp codec = .error e ↔ e = .panicked ∧ codec = .aac ∧ ∃ config,
      extractParam fmtp "config".toList = some config ∧ CutsCharacter (trim config) := by
  simp only [← hexDecode_notCharBoundary_iff]
  cases codec with
  | aac =>
    simp only [parseFmtpConfig, true_and]
    cases extractParam fmtp "config".toList with
    | none => simp
    | some config =>
      simp only [Option.some.injEq, exists_eq_left']
      cases hexDecode config with
      | ok bytes => simp
      | error failure => cases failure <;> simp [eq_comm]
  | h264 =>
    simp only [parseFmtpConfig]
    cases extractParam fmtp "sprop-parameter-sets".toList <;> simp
  | _ => simp [parseFmtpConfig]

section Entry
variable {base64 : Base64} {mediaType : MediaType} {payloadType : List Char} {rtpmap fmtp : Option (List Char)}

theorem entryOf_of_rtpmap_error {map : List Char} {e : SdpFailure} (hmap : parseRtpmap map = .error e) :
    entryOf base64 mediaType payloadType (some map) fmtp = .error e := by
  rw [entryOf_eq_bind, formatOf, hmap]
  rfl

theorem entryOf_of_cut {map config : List Char} {clockRate : ℕ} (hmap : RtpmapText map .aac clockRate)
    (hconfig : extractParam (fmtp.getD []) "config".toList = some config) (hcut : CutsCharacter (trim config)) :
    entryOf base64 mediaType payloadType (some map) fmtp = .error .panicked := by
  have herror := (parseFmtpConfig_error_iff base64 (fmtp.getD []) .aac .panicked).mpr ⟨rfl, rfl, config, hconfig, hcut⟩
  rw [entryOf_eq_bind, formatOf, (parseRtpmap_ok_iff map .aac clockRate).mpr hmap]
  simp only [Except.map, Except.bind, Option.elim_some, herror]

/-- An entry fails on its format, or on a configuration that is cut. -/
theorem entryOf_error {e : SdpFailure} (h : entryOf base64 mediaType payloadType rtpmap fmtp = .error e) :
    (∃ map, rtpmap = some map ∧ parseRtpmap map = .error e) ∨
    (e = .panicked ∧ ∃ map clockRate config, rtpmap = some map ∧ RtpmapText map .aac clockRate ∧
      extractParam (fmtp.getD []) "config".toList = some config ∧ CutsCharacter (trim config)) := by
  rw [entryOf_eq_bind] at h
  have hconfig : ∀ codec clockRate, (parseFmtpConfig base64 (fmtp.getD []) codec).bind (fun extradata => Except.ok (some
      ({ codec := codec, mediaType := mediaType, clockRate := clockRate, extradata := extradata } : CodecParams))) =
        .error e → e = .panicked ∧ codec = .aac ∧ ∃ config,
          extractParam (fmtp.getD []) "config".toList = some config ∧ CutsCharacter (trim config) := by
    intro codec clockRate hbind
    refine (parseFmtpConfig_error_iff base64 _ codec e).mp ?_
    cases hparse : parseFmtpConfig base64 (fmtp.getD []) codec with
    | error e' =>
      rw [hparse] at hbind
      exact congrArg _ (Except.error.inj hbind)
    | ok extradata =>
      rw [hparse] at hbind
      cases hbind
  cases rtpmap with
  | some map =>
    cases hmap : parseRtpmap map with
    | error e' =>
      rw [formatOf, hmap] at h
      exact .inl ⟨map, rfl, hmap.trans (congrArg _ (Except.error.inj h))⟩
    | ok f =>
      rw [formatOf, hmap] at h
      obtain ⟨he, hcodec, config, hparam, hcut⟩ := hconfig f.1 f.2 h
      exact .inr ⟨he, map, f.2, config, rfl, (parseRtpmap_ok_iff map .aac f.2).mp (hmap.trans (by rw [← hcodec])), hparam, hcut⟩
  | none =>
    simp only [formatOf] at h
    split at h
    · obtain ⟨-, hcodec, -⟩ := hconfig .mjpeg 90000 h
      cases hcodec
    · cases h

end Entry

/-- The configuration of the line is cut inside a character. -/
def CutsConfig (sdp line : List Char) : Prop := ∃ config, AacConfig sdp line config ∧ CutsCharacter (trim config)

section Lines
variable {base64 : Base64} {sdp line : List Char}

theorem parseMediaLine_panicked_iff (base64 : Base64) (sdp line : List Char) :
    parseMediaLine base64 sdp line = .error .panicked ↔ CutsConfig sdp line := by
  constructor
  · intro h
    cases hmedia : mediaOf line with
    | none =>
      rw [parseMediaLine_eq, hmedia] at h
      cases h
    | some media =>
      rw [parseMediaLine_media hmedia] at h
      obtain ⟨map, -, hmap⟩ | ⟨-, map, clockRate, config, hmap, hrtpmap, hconfig, hcut⟩ := entryOf_error h
      · exact absurd hmap (parseRtpmap_ne_panicked map)
      · exact ⟨config, ⟨media.1, media.2, map, clockRate, hmedia, hmap, hrtpmap, hconfig⟩, hcut⟩
  · rintro ⟨config, ⟨mediaType, payloadType, map, clockRate, hmedia, hmap, hrtpmap, hconfig⟩, hcut⟩
    rw [parseMediaLine_media hmedia, hmap]
    exact entryOf_of_cut hrtpmap hconfig hcut

theorem formatReadable_of_ok {entry : Option CodecParams} (h : parseMediaLine base64 sdp line = .ok entry) :
    FormatReadable sdp line := by
  intro mediaType payloadType map hmedia hmap
  rw [parseMediaLine_media hmedia, hmap] at h
  cases hparse : parseRtpmap map with
  | error e =>
    rw [entryOf_of_rtpmap_error hparse] at h
    cases h
  | ok format => exact ⟨format.1, format.2, (parseRtpmap_ok_iff map _ _).mp hparse⟩

theorem ok_of_formatReadable (hreadable : FormatReadable sdp line) (hcut : ¬ CutsConfig sdp line) :
    ∃ entry, parseMediaLine base64 sdp line = .ok entry := by
  cases hline : parseMediaLine base64 sdp line with
  | ok entry => exact ⟨entry, rfl⟩
  | error e =>
    cases hmedia : mediaOf line with
    | none =>
      rw [parseMediaLine_eq, hmedia] at hline
      cases hline
    | some media =>
      have hentry := hline
      rw [parseMediaLine_media hmedia] at hentry
      obtain ⟨map, hmap, hfails⟩ | ⟨rfl, -⟩ := entryOf_error hentry
      · obtain ⟨codec, clockRate, hrtpmap⟩ := hreadable media.1 media.2 map hmedia hmap
        rw [(parseRtpmap_ok_iff map codec clockRate).mpr hrtpmap] at hfails
        cases hfails
      · exact absurd ((parseMediaLine_panicked_iff base64 sdp line).mp hline) hcut

/-- The loop panics at a line whose configuration is cut, if it can read the formats of the lines before. -/
theorem parseMediaLines_panicked_iff (base64 : Base64) (sdp : List Char) (ls : List (List Char)) :
    parseMediaLines base64 sdp ls = .error .panicked ↔ ∃ earlier line later, ls = earlier ++ line :: later ∧
      (∀ l ∈ earlier, FormatReadable sdp l) ∧ CutsConfig sdp line := by
  rw [parseMediaLines_error_iff]
  constructor
  · rintro ⟨earlier, line, later, hls, hok, hline⟩
    refine ⟨earlier, line, later, hls, fun l hl => ?_, (parseMediaLine_panicked_iff base64 sdp line).mp hline⟩
    obtain ⟨entry, hentry⟩ := hok l hl
    exact formatReadable_of_ok hentry
  · rintro ⟨earlier, line, later, rfl, hreadable, hcut⟩
    -- the first line with a configuration that is cut
    induction earlier with
    | nil => exact ⟨[], line, later, rfl, by simp, (parseMediaLine_panicked_iff base64 sdp line).mpr hcut⟩
    | cons first earlier ih =>
      obtain ⟨hfirst, hreadable⟩ := List.forall_mem_cons.mp hreadable
      by_cases hcut' : CutsConfig sdp first
      · exact ⟨[], first, earlier ++ line :: later, rfl, by simp, (parseMediaLine_panicked_iff base64 sdp first).mpr hcut'⟩
      · obtain ⟨earlier', line', later', hls, hok, hline⟩ := ih hreadable
        refine ⟨first :: earlier', line', later', by rw [List.cons_append, hls, List.cons_append], ?_, hline⟩
        exact List.forall_mem_cons.mpr ⟨ok_of_formatReadable hfirst hcut', hok⟩

end Lines

theorem parseSdp_panicked_iff (base64 : Base64) (sdp : List Char) :
    parseSdp base64 sdp = .error .panicked ↔ parseMediaLines base64 sdp (lines sdp) = .error .panicked := by
  unfold parseSdp
  cases parseMediaLines base64 sdp (lines sdp) with
  | error e => simp
  | ok params =>
    dsimp only
    split <;> simp

/-- `parse_sdp` panics exactly on the bodies with AAC media whose `config` is cut inside a character, where the formats of
the lines before can be read; `extract_param` never panics. `hex_decode` accepts the texts of pairs of digits, or of a
plus sign and a digit, and nothing else: it decodes digits alone exactly where there is no such sign. -/
theorem sdp_decoding_exact (base64 : Base64) (sdp fmtp key text : List Char) :
    (parseSdp base64 sdp = .error .panicked ↔ ∃ earlier line later, lines sdp = earlier ++ line :: later ∧
      (∀ l ∈ earlier, FormatReadable sdp l) ∧ CutsConfig sdp line) ∧
    extractParamSliced key (fmtp.splitOn ';') = some (extractParam fmtp key) ∧
    (∀ bytes, hexDecode text = .ok bytes ↔ PairsOf (trim text) bytes) ∧
    ((∀ bytes, hexDecode text = .ok bytes ↔ HexOf (trim text) bytes) ↔
      ∀ bytes, PairsOf (trim text) bytes → '+' ∉ trim text) :=
  ⟨(parseSdp_panicked_iff base64 sdp).trans (parseMediaLines_panicked_iff base64 sdp _), extractParamSliced_eq fmtp key,
    hexDecode_ok_iff text, hexDecode_exact_iff text⟩

/-- A body whose `config` is a digit and a character of three bytes, and a text with a sign. -/
theorem sdp_panics_and_sign_decoded :
    parseSdp twoByteBase64 "m=audio 0 RTP/AVP 97\r\na=rtpmap:97 MPEG4-GENERIC/48000\r\na=fmtp:97 config=1€\r\n".toList =
      .error .panicked ∧
    hexDecode "+1".toList = .ok [1] ∧ ¬ HexOf (trim "+1".toList) [1] := by
  refine ⟨by decide +kernel, by decide, fun h => ?_⟩
  exact absurd ((hexOf_iff_pairsOf _ _).mp h).2 (by decide)

end LivestreamRs.Rtsp
