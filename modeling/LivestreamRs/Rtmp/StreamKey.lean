import LivestreamRs.Foundations.Regex

/-! # Stream keys of RTMP requests

How a play or a publish request names its stream (`livestream-transport/src/rtmp/session.rs`): the pattern
`^/?(?P<app>[^/?]+)(?:/(?P<stream_key>[^?]+))?(?:\?.*)?$` takes a key apart, since clients put the application name, the
key and a query into one another's place.
-/
namespace LivestreamRs.Rtmp
open Foundations Pattern
set_option autoImplicit false

/-! ## The pattern and its uses -/

inductive CaptureGroup
  | app
  | streamKey
  deriving DecidableEq

/-- `APP_AND_STREAM_RE`. A dot stands for every character but the line feed. -/
def appAndStreamRe : Pattern Char CaptureGroup :=
  .seq (.opt (.one (· == '/')))
    (.seq (.group .app (.plus fun c => c != '/' && c != '?'))
      (.seq (.opt (.seq (.one (· == '/')) (.group .streamKey (.plus (· != '?')))))
        (.opt (.seq (.one (· == '?')) (.star (· != '\n'))))))

def captures (text : String) : Option (Captures Char CaptureGroup) := appAndStreamRe.fullMatch text.toList

/-- The group `stream_key`, or else `app`. -/
def capturedName (caps : Captures Char CaptureGroup) : Option (List Char) :=
  (caps.lookup .streamKey).or (caps.lookup .app)

/-- `trim_start_matches('/')` -/
def trimSlashes (text : List Char) : String := String.ofList (text.dropWhile (· == '/'))

/-- The stream a play request names. -/
def playStreamKey (streamKey : String) : String :=
  trimSlashes (((captures streamKey).bind capturedName).getD streamKey.toList)

/-- The stream a publish request names. -/
def extractStreamKey (streamKey appName : String) : String :=
  let ofKey := (captures streamKey).bind capturedName
  let ofApp := (captures appName).bind fun caps => (capturedName caps).filter fun name => !name.isEmpty
  trimSlashes ((ofKey.or ofApp).getD streamKey.toList)

/-! ## What the pattern matches -/

/-- A match: an optional slash, the application, and either an end or query, or a slash and a key. -/
structure Matched (text : List Char) (caps : Captures Char CaptureGroup) : Prop where
  exists_parts : ∃ slash app rest key, text = slash ++ (app ++ rest) ∧ (slash = [] ∨ slash = ['/']) ∧
    app ≠ [] ∧ (∀ c ∈ app, c ≠ '/' ∧ c ≠ '?') ∧ caps = (.app, app) :: key ∧
    (key = [] ∧ (rest = [] ∨ ∃ query, rest = '?' :: query) ∨
      ∃ name query, key = [(.streamKey, name)] ∧ name ≠ [] ∧ '?' ∉ name ∧ rest = '/' :: (name ++ query))

theorem matched_of_mem {text : List Char} {caps : Captures Char CaptureGroup}
    (h : (caps, []) ∈ appAndStreamRe.parses text) : Matched text caps := by
  obtain ⟨caps₁, mid₁, caps₂, hslash, hafterSlash, rfl⟩ := mem_seq.mp h
  obtain ⟨caps₃, mid₂, caps₄, happ, hafterApp, rfl⟩ := mem_seq.mp hafterSlash
  obtain ⟨caps₅, mid₃, caps₆, hkey, hquery, rfl⟩ := mem_seq.mp hafterApp
  obtain ⟨slash, htext, hcaps₁, hslash⟩ :
      ∃ slash, text = slash ++ mid₁ ∧ caps₁ = [] ∧ (slash = [] ∨ slash = ['/']) := by
    rcases mem_opt.mp hslash with h | ⟨rfl, rfl⟩
    · obtain ⟨rfl, c, rfl, hc⟩ := mem_one.mp h
      exact ⟨[c], rfl, rfl, .inr (by rw [beq_iff_eq.mp hc])⟩
    · exact ⟨[], rfl, rfl, .inl rfl⟩
  obtain ⟨app, caps', hmid₁, happ, hcaps₃⟩ := mem_group.mp happ
  obtain ⟨rfl, w, hne, hw, hclass⟩ := mem_plus.mp happ
  obtain rfl : w = app := List.append_cancel_right (hw.symm.trans hmid₁)
  have hplain : ∀ c ∈ w, c ≠ '/' ∧ c ≠ '?' := fun c hc => by simpa using hclass c hc
  have hend : caps₆ = [] ∧ (mid₃ = [] ∨ ∃ query, mid₃ = '?' :: query) := by
    rcases mem_opt.mp hquery with h | ⟨rfl, rfl⟩
    · obtain ⟨caps₇, mid₄, caps₈, hmark, hstar, rfl⟩ := mem_seq.mp h
      obtain ⟨rfl, c, rfl, hc⟩ := mem_one.mp hmark
      obtain ⟨rfl, -⟩ := mem_star.mp hstar
      exact ⟨rfl, .inr ⟨mid₄, by rw [beq_iff_eq.mp hc]⟩⟩
    · exact ⟨rfl, .inl rfl⟩
  refine ⟨slash, w, mid₂, caps₅, by rw [htext, hmid₁], hslash, hne, hplain, by simp [hcaps₁, hcaps₃, hend.1], ?_⟩
  rcases mem_opt.mp hkey with h | ⟨rfl, rfl⟩
  · obtain ⟨caps₇, mid₄, caps₈, hsep, hname, rfl⟩ := mem_seq.mp h
    obtain ⟨rfl, c, rfl, hc⟩ := mem_one.mp hsep
    obtain ⟨name, caps', hmid₄, hplus, rfl⟩ := mem_group.mp hname
    obtain ⟨rfl, w', hne', hw', hmarkless⟩ := mem_plus.mp hplus
    obtain rfl : w' = name := List.append_cancel_right (hw'.symm.trans hmid₄)
    refine .inr ⟨w', mid₃, rfl, hne', fun hmem => ?_, by rw [beq_iff_eq.mp hc, hmid₄]⟩
    exact absurd (hmarkless '?' hmem) (by decide)
  · exact .inl ⟨rfl, hend.2⟩

theorem matched_of_captures {text : String} {caps : Captures Char CaptureGroup} (h : captures text = some caps) :
    Matched text.toList caps := matched_of_mem (mem_of_fullMatch h)

/-- A match names a stream, by a text without a question mark. -/
theorem Matched.capturedName {text : List Char} {caps : Captures Char CaptureGroup} (h : Matched text caps) :
    ∃ name, capturedName caps = some name ∧ name ≠ [] ∧ '?' ∉ name := by
  obtain ⟨slash, app, rest, key, -, -, hne, hplain, rfl, hkey⟩ := h.exists_parts
  rcases hkey with ⟨rfl, -⟩ | ⟨name, query, rfl, hname, hmark, -⟩
  · exact ⟨app, rfl, hne, fun hmem => (hplain _ hmem).2 rfl⟩
  · exact ⟨name, rfl, hname, hmark⟩

/-- A text without slash and question mark is an application name. -/
theorem captures_plain {text : String} (hne : text ≠ "") (hslash : '/' ∉ text.toList) (hquery : '?' ∉ text.toList) :
    captures text = some [(.app, text.toList)] := by
  have hne' : text.toList ≠ [] := fun h => hne (String.toList_inj.mp h)
  refine fullMatch_of_unique ?_ fun caps hcaps => ?_
  · refine mem_seq.mpr ⟨[], text.toList, _, mem_opt.mpr (.inr ⟨rfl, rfl⟩), ?_, rfl⟩
    refine mem_seq.mpr ⟨[(.app, text.toList)], [], [], ?_, ?_, rfl⟩
    · refine mem_group.mpr ⟨text.toList, [], (List.append_nil _).symm, ?_, rfl⟩
      refine mem_plus.mpr ⟨rfl, text.toList, hne', (List.append_nil _).symm, fun c hc => ?_⟩
      simp only [Bool.and_eq_true, bne_iff_ne, ne_eq]
      exact ⟨fun h => hslash (h ▸ hc), fun h => hquery (h ▸ hc)⟩
    · exact mem_seq.mpr ⟨[], [], [], mem_opt.mpr (.inr ⟨rfl, rfl⟩), mem_opt.mpr (.inr ⟨rfl, rfl⟩), rfl⟩
  · obtain ⟨slash, app, rest, key, htext, hslash', -, -, rfl, hkey⟩ := (matched_of_mem hcaps).exists_parts
    rw [htext] at hslash hquery ⊢
    obtain rfl : slash = [] := hslash'.resolve_right (fun h => hslash (by simp [h]))
    rcases hkey with ⟨rfl, rfl | ⟨query, rfl⟩⟩ | ⟨name, query, -, -, -, rfl⟩
    · rw [List.nil_append, List.append_nil]
    · exact absurd (by simp) hquery
    · exact absurd (by simp) hslash

/-! ## Keys that name themselves -/

theorem trimSlashes_eq {text : List Char} (h : '/' ∉ text) : trimSlashes text = String.ofList text := by
  cases text with
  | nil => rfl
  | cons c text =>
    have hc : (c == '/') = false := beq_eq_false_iff_ne.mpr fun hc => h (by simp [hc])
    rw [trimSlashes, List.dropWhile_cons, hc, if_neg Bool.false_ne_true]

/-- Trimming adds no question mark, so a text with one does not come from a text without. -/
theorem trimSlashes_ne {name : List Char} (hname : '?' ∉ name) {text : String} (htext : '?' ∈ text.toList) :
    trimSlashes name ≠ text := by
  rintro rfl
  rw [trimSlashes, String.toList_ofList] at htext
  exact hname ((List.dropWhile_sublist _).subset htext)

theorem playStreamKey_eq_iff {text : String} (hne : text ≠ "") (hslash : '/' ∉ text.toList) :
    playStreamKey text = text ↔ '?' ∉ text.toList ∨ captures text = none := by
  by_cases hquery : '?' ∈ text.toList
  · cases hcaps : captures text with
    | none => simp [playStreamKey, hcaps, trimSlashes_eq hslash]
    | some caps =>
      obtain ⟨name, hname, -, hmark⟩ := (matched_of_captures hcaps).capturedName
      have hplay : playStreamKey text = trimSlashes name := by
        rw [playStreamKey, hcaps, Option.bind_some, hname, Option.getD_some]
      simp [hplay, trimSlashes_ne hmark hquery, hquery]
  · have hplay : playStreamKey text = trimSlashes text.toList := by
      rw [playStreamKey, captures_plain hne hslash hquery]
      rfl
    simp [hplay, trimSlashes_eq hslash, hquery]

theorem extractStreamKey_eq_iff {text : String} (hne : text ≠ "") (hslash : '/' ∉ text.toList) (app : String) :
    extractStreamKey text app = text ↔
      '?' ∉ text.toList ∨ captures text = none ∧ captures app = none := by
  by_cases hquery : '?' ∈ text.toList
  · cases hcaps : captures text with
    | some caps =>
      obtain ⟨name, hname, -, hmark⟩ := (matched_of_captures hcaps).capturedName
      have hextract : extractStreamKey text app = trimSlashes name := by simp [extractStreamKey, hcaps, hname]
      simp [hextract, trimSlashes_ne hmark hquery, hquery]
    | none =>
      cases happ : captures app with
      | none => simp [extractStreamKey, hcaps, happ, trimSlashes_eq hslash]
      | some caps =>
        -- the request is taken for one of the stream the application is named after
        obtain ⟨name, hname, hne', hmark⟩ := (matched_of_captures happ).capturedName
        have hextract : extractStreamKey text app = trimSlashes name := by
          simp [extractStreamKey, hcaps, happ, hname, Option.filter_some, hne']
        simp [hextract, trimSlashes_ne hmark hquery, hquery]
  · have hextract : extractStreamKey text app = trimSlashes text.toList := by
      rw [extractStreamKey, captures_plain hne hslash hquery]
      rfl
    simp [hextract, trimSlashes_eq hslash, hquery]

/-! ## Both requests for one name -/

/-- A play request never looks at the application, which a publish request falls back to. -/
theorem playStreamKey_eq_extractStreamKey_iff (name app : String) :
    playStreamKey name = extractStreamKey name app ↔
      (captures name = none → ∀ caps, captures app = some caps →
        (capturedName caps).map trimSlashes = some (trimSlashes name.toList)) := by
  cases hname : captures name with
  | some caps =>
    obtain ⟨key, hkey, -⟩ := (matched_of_captures hname).capturedName
    simp [playStreamKey, extractStreamKey, hname, hkey]
  | none =>
    cases happ : captures app with
    | none => simp [playStreamKey, extractStreamKey, hname, happ]
    | some caps =>
      obtain ⟨key, hkey, hne, -⟩ := (matched_of_captures happ).capturedName
      have hplay : playStreamKey name = trimSlashes name.toList := by simp [playStreamKey, hname]
      have hpublish : extractStreamKey name app = trimSlashes key := by
        simp [extractStreamKey, hname, happ, hkey, Option.filter_some, hne]
      rw [hplay, hpublish]
      constructor
      · rintro heq - caps' hcaps
        obtain rfl := Option.some.inj hcaps
        rw [hkey, Option.map_some, heq]
      · intro h
        have hsame := h rfl caps rfl
        rw [hkey, Option.map_some] at hsame
        exact (Option.some.inj hsame).symm

theorem playStreamKey_ne_extractStreamKey :
    playStreamKey "" ≠ extractStreamKey "" "live/cam" ∧
      playStreamKey "?token=1" = "?token=1" ∧ extractStreamKey "?token=1" "live/cam" = "cam" := by
  decide

end LivestreamRs.Rtmp
