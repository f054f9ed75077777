import LivestreamRs.Media.RtmpSource
import LivestreamRs.Media.FlvMux

/-! # The two framings of an access unit

An access unit is a list of NAL units. `lengthPrefixed` is its AVCC serialization (what RTMP and FLV
carry), `startCoded` its Annex B serialization (what the pipeline carries). The loops of the source and
of the muxer are inverse on them: `avcc_to_annex_b` takes the first to the second for units of any
content (`avccToAnnexB_lengthPrefixed`), and `split_annexb` recovers the units from the second whenever
no unit contains `00 00 01` (`splitAnnexb_startCoded`), trailing zeros and empty units included.
-/
namespace LivestreamRs.Media
open BigEndian
set_option autoImplicit false

def lengthPrefixed (units : List Bytes) : Bytes :=
  units.flatMap fun nal => toBe 4 nal.length ++ nal

def startCoded (units : List Bytes) : Bytes :=
  units.flatMap fun nal => startCode ++ nal

/-- No start code inside the unit. -/
def NoStartCode (nal : Bytes) : Prop := ¬ [0x00, 0x00, 0x01] <:+: nal

instance (nal : Bytes) : Decidable (NoStartCode nal) :=
  inferInstanceAs (Decidable (¬ [0x00, 0x00, 0x01] <:+: nal))

theorem lengthPrefixed_cons (nal : Bytes) (units : List Bytes) :
    lengthPrefixed (nal :: units) = toBe 4 nal.length ++ (nal ++ lengthPrefixed units) := by
  simp [lengthPrefixed]

theorem startCoded_cons (nal : Bytes) (units : List Bytes) :
    startCoded (nal :: units) = startCode ++ (nal ++ startCoded units) := by
  simp [startCoded]

/-! ## AVCC to Annex B -/

theorem avccToAnnexB_prefixed (nal rest : Bytes) (h : nal.length < 2 ^ 32) :
    avccToAnnexB (toBe 4 nal.length ++ (nal ++ rest)) = startCode ++ nal ++ avccToAnnexB rest := by
  have hlen : fromBe (toBe 4 nal.length) = nal.length := fromBe_toBe (by norm_num; exact h)
  simp only [toBe] at hlen ⊢
  rw [List.cons_append, List.cons_append, List.cons_append, List.cons_append, List.nil_append, avccToAnnexB]
  simp only [hlen]
  rw [if_neg (by simp), List.take_left, List.drop_left]

theorem avccToAnnexB_lengthPrefixed (units : List Bytes) (h : ∀ nal ∈ units, nal.length < 2 ^ 32) :
    avccToAnnexB (lengthPrefixed units) = startCoded units := by
  induction units with
  | nil => simp [lengthPrefixed, startCoded, avccToAnnexB]
  | cons nal units ih =>
    rw [lengthPrefixed_cons, avccToAnnexB_prefixed _ _ (h nal (List.mem_cons_self ..)), startCoded_cons,
      ih fun n hn => h n (List.mem_cons_of_mem nal hn), List.append_assoc]

/-! ## Annex B to units -/

inductive StartCodeForm
  | three
  | four
  deriving DecidableEq

def StartCodeForm.bytes : StartCodeForm → Bytes
  | .three => [0x00, 0x00, 0x01]
  | .four => startCode

/-- No start code begins in the piece, so that the scanner passes over it. -/
def PassedOver (piece rest : Bytes) : Prop :=
  ∀ tail, tail <:+ piece → tail ≠ [] → ∀ form : StartCodeForm, ¬ form.bytes <+: tail ++ rest

/-- Away from a start code the scanner moves by one byte, also near the end of the buffer. -/
theorem splitAnnexbLoop_skip (b : UInt8) (t : Bytes) (start : Option Bytes)
    (h : ∀ form : StartCodeForm, ¬ form.bytes <+: b :: t) :
    splitAnnexbLoop (b :: t) start = splitAnnexbLoop t (start.map (· ++ [b])) := by
  match t with
  | [] => cases start <;> simp [splitAnnexbLoop]
  | [b1] => cases start <;> simp [splitAnnexbLoop]
  | [b1, b2] =>
    have h3 : ¬ (b = 0 ∧ b1 = 0 ∧ b2 = 1) := fun ⟨e0, e1, e2⟩ => h .three (by simp [StartCodeForm.bytes, e0, e1, e2])
    rw [splitAnnexbLoop, if_neg h3]
  | b1 :: b2 :: b3 :: rest =>
    have h3 : ¬ (b = 0 ∧ b1 = 0 ∧ b2 = 1) := fun ⟨e0, e1, e2⟩ => h .three (by simp [StartCodeForm.bytes, e0, e1, e2])
    have h4 : ¬ (b = 0 ∧ b1 = 0 ∧ b2 = 0 ∧ b3 = 1) := fun ⟨e0, e1, e2, e3⟩ =>
      h .four (by simp [StartCodeForm.bytes, startCode, e0, e1, e2, e3])
    rw [splitAnnexbLoop, if_neg h3, if_neg h4]

theorem splitAnnexbLoop_code (form : StartCodeForm) (rest : Bytes) (start : Option Bytes) :
    splitAnnexbLoop (form.bytes ++ rest) start = start.toList ++ splitAnnexbLoop rest (some []) := by
  cases form with
  | three =>
    change splitAnnexbLoop (0 :: 0 :: 1 :: rest) start = _
    rw [splitAnnexbLoop.eq_def]
    exact if_pos ⟨rfl, rfl, rfl⟩
  | four => simp [StartCodeForm.bytes, startCode, splitAnnexbLoop]

theorem splitAnnexbLoop_passedOver {piece rest : Bytes} (h : PassedOver piece rest) (start : Option Bytes) :
    splitAnnexbLoop (piece ++ rest) start = splitAnnexbLoop rest (start.map (· ++ piece)) := by
  induction piece generalizing start with
  | nil => simp
  | cons b piece ih =>
    have hrest : PassedOver piece rest := fun tail htail => h tail (htail.trans (List.suffix_cons b piece))
    have hskip := splitAnnexbLoop_skip b (piece ++ rest) start (h (b :: piece) List.suffix_rfl (List.cons_ne_nil _ _))
    rw [List.cons_append, hskip, ih hrest]
    cases start <;> simp

/-- What may follow a unit in a start-coded stream. -/
def Boundary (rest : Bytes) : Prop := rest = [] ∨ startCode <+: rest

theorem boundary_startCoded (units : List Bytes) : Boundary (startCoded units) := by
  cases units with
  | nil => exact .inl rfl
  | cons nal units => exact .inr (startCoded_cons nal units ▸ List.prefix_append _ _)

/-- A start code seen while reading a clean unit would have to end in its third byte at the boundary,
where the boundary still shows a zero. -/
theorem no_startCode3 (nal rest : Bytes) (hn : NoStartCode nal) (hne : nal ≠ []) (hr : Boundary rest) :
    ¬ [0x00, 0x00, 0x01] <+: nal ++ rest := by
  intro hp
  obtain rfl | ⟨tail, rfl⟩ := hr
  · rw [List.append_nil] at hp
    exact hn hp.isInfix
  match nal, hne with
  | [b0], _ => simp [startCode] at hp
  | [b0, b1], _ => simp [startCode] at hp
  | b0 :: b1 :: b2 :: nal', _ =>
    refine hn (List.IsPrefix.isInfix ?_)
    simpa using hp

theorem no_startCode4 (nal rest : Bytes) (hn : NoStartCode nal) (hne : nal ≠ []) (hr : Boundary rest) :
    ¬ startCode <+: nal ++ rest := by
  intro hp
  match nal, hne with
  | [b0], _ =>
    obtain rfl | ⟨tail, rfl⟩ := hr
    · simp [startCode] at hp
    · simp [startCode] at hp
  | b0 :: b1 :: nal', _ =>
    have hn' : NoStartCode (b1 :: nal') := fun hi => hn (hi.trans (List.suffix_cons b0 _).isInfix)
    refine no_startCode3 (b1 :: nal') rest hn' (List.cons_ne_nil _ _) hr ?_
    exact (List.cons_prefix_cons.mp hp).2

theorem Boundary.passedOver {nal rest : Bytes} (hr : Boundary rest) (hn : NoStartCode nal) : PassedOver nal rest := by
  intro tail htail hne form
  have hclean : NoStartCode tail := fun hi => hn (hi.trans htail.isInfix)
  cases form with
  | three => exact no_startCode3 tail rest hclean hne hr
  | four => exact no_startCode4 tail rest hclean hne hr

theorem splitAnnexbLoop_startCoded (units : List Bytes) (h : ∀ nal ∈ units, NoStartCode nal)
    (start : Option Bytes) : splitAnnexbLoop (startCoded units) start = start.toList ++ units := by
  induction units generalizing start with
  | nil => cases start <;> simp [startCoded, splitAnnexbLoop]
  | cons nal units ih =>
    have hpassed := (boundary_startCoded units).passedOver (h nal List.mem_cons_self)
    have hcode := splitAnnexbLoop_code .four (nal ++ startCoded units) start
    rw [startCoded_cons]
    refine hcode.trans ?_
    rw [splitAnnexbLoop_passedOver hpassed, ih fun n hn => h n (List.mem_cons_of_mem nal hn)]
    rfl

theorem splitAnnexb_startCoded (units : List Bytes) (h : ∀ nal ∈ units, NoStartCode nal) :
    splitAnnexb (startCoded units) = units :=
  splitAnnexbLoop_startCoded units h none

/-- The muxer's conversion undoes the source's, on units the framing can carry. -/
theorem annexBToAvcc_avccToAnnexB (mux : FlvMux) (hm : mux.avccFraming = true) (units : List Bytes)
    (hlen : ∀ nal ∈ units, nal.length < 2 ^ 32) (hclean : ∀ nal ∈ units, NoStartCode nal) :
    mux.annexBToAvcc (avccToAnnexB (lengthPrefixed units)) = lengthPrefixed units := by
  rw [avccToAnnexB_lengthPrefixed units hlen, FlvMux.annexBToAvcc, hm, splitAnnexb_startCoded units hclean]
  simp only [Bool.not_true, Bool.false_eq_true, if_false, putU32, lengthPrefixed]
  refine List.flatMap_congr fun nal hn => ?_
  rw [Nat.mod_eq_of_lt (hlen nal hn)]

end LivestreamRs.Media
