import LivestreamRs.Foundations.PrefixCode
import LivestreamRs.Media.NalFraming
import LivestreamRs.Media.RtpHeader

/-! # The two framings on arbitrary bytes

What `avcc_to_annex_b` and `split_annexb` make of bytes that need not be an access unit: the first keeps the greatest
sequence of complete units the bytes begin with, the second cuts them at every start code and nowhere else.
-/
namespace LivestreamRs.Media
open BigEndian Foundations
set_option autoImplicit false

/-! ## Complete units at the front -/

/-- Too few bytes for a length, or a length of more bytes than are left. -/
def NoUnit (rest : Bytes) : Prop := rest.length < 4 ∨ rest.length - 4 < fromBe (rest.take 4)

instance (rest : Bytes) : Decidable (NoUnit rest) :=
  inferInstanceAs (Decidable (rest.length < 4 ∨ rest.length - 4 < fromBe (rest.take 4)))

def prefixedUnit (nal : Bytes) : Bytes := toBe 4 nal.length ++ nal

def IsUnit (nal word : Bytes) : Prop := nal.length < 2 ^ 32 ∧ word = prefixedUnit nal

def readUnit (input : Bytes) : Option (Bytes × ℕ) :=
  if NoUnit input then none
  else some ((input.drop 4).take (fromBe (input.take 4)), 4 + fromBe (input.take 4))

theorem take_toBe (k n : ℕ) (rest : Bytes) : (toBe k n ++ rest).take k = toBe k n :=
  List.take_left' (toBe_length k n)

theorem drop_toBe (k n : ℕ) (rest : Bytes) : (toBe k n ++ rest).drop k = rest :=
  List.drop_left' (toBe_length k n)

theorem readUnit_prefixedUnit {nal : Bytes} (h : nal.length < 2 ^ 32) (rest : Bytes) :
    readUnit (prefixedUnit nal ++ rest) = some (nal, (prefixedUnit nal).length) := by
  have hlen : fromBe (toBe 4 nal.length) = nal.length := fromBe_toBe (by norm_num; exact h)
  have hunit : ¬ NoUnit (toBe 4 nal.length ++ (nal ++ rest)) := by
    rw [NoUnit, take_toBe, hlen]
    simp only [List.length_append, toBe_length]
    omega
  rw [prefixedUnit, List.append_assoc, readUnit, if_neg hunit, take_toBe, drop_toBe, hlen, List.take_left,
    List.length_append, toBe_length]

theorem lengthWord {input : Bytes} (h : 4 ≤ input.length) :
    fromBe (input.take 4) < 2 ^ 32 ∧ toBe 4 (fromBe (input.take 4)) = input.take 4 := by
  have hword : (input.take 4).length = 4 := by rw [List.length_take]; omega
  have hbound := fromBe_lt (input.take 4)
  have hback := toBe_fromBe (input.take 4)
  rw [hword] at hbound hback
  exact ⟨hbound, hback⟩

theorem readsOnly_readUnit : ReadsOnly readUnit IsUnit where
  ne_nil := by
    rintro nal _ ⟨-, rfl⟩ hnil
    have hlen := congrArg List.length hnil
    simp [prefixedUnit] at hlen
  read_append := by
    rintro nal _ rest ⟨hlen, rfl⟩
    exact readUnit_prefixedUnit hlen rest
  exact := by
    intro input nal n hread
    simp only [readUnit] at hread
    split at hread
    · cases hread
    next hunit =>
    obtain ⟨rfl, -⟩ := Prod.mk.inj (Option.some.inj hread)
    rw [NoUnit, not_or, Nat.not_lt, Nat.not_lt] at hunit
    obtain ⟨hlt, hbe⟩ := lengthWord hunit.1
    have hnal : ((input.drop 4).take (fromBe (input.take 4))).length = fromBe (input.take 4) := by
      rw [List.length_take, List.length_drop]
      omega
    refine ⟨prefixedUnit ((input.drop 4).take (fromBe (input.take 4))), (input.drop 4).drop (fromBe (input.take 4)), ?_,
      hnal.trans_lt hlt, rfl⟩
    rw [prefixedUnit, hnal, hbe, List.append_assoc, List.take_append_drop, List.take_append_drop]

theorem forall₂_isUnit_iff {units words : List Bytes} :
    List.Forall₂ IsUnit units words ↔ (∀ nal ∈ units, nal.length < 2 ^ 32) ∧ words = units.map prefixedUnit := by
  induction units generalizing words with
  | nil => simp
  | cons nal units ih =>
    cases words with
    | nil => simp
    | cons word words => rw [List.forall₂_cons, ih, IsUnit, List.forall_mem_cons, List.map_cons, List.cons.injEq]; tauto

/-- The bytes are these units with their lengths, and a rest. -/
structure UnitsThen (data : Bytes) (units : List Bytes) (rest : Bytes) : Prop where
  short : ∀ nal ∈ units, nal.length < 2 ^ 32
  split : data = lengthPrefixed units ++ rest

theorem unitsThen_iff {data rest : Bytes} {units : List Bytes} :
    UnitsThen data units rest ↔
      List.Forall₂ IsUnit units (units.map prefixedUnit) ∧ data = (units.map prefixedUnit).flatten ++ rest := by
  rw [forall₂_isUnit_iff]
  exact ⟨fun h => ⟨⟨h.short, rfl⟩, h.split⟩, fun h => ⟨h.1.1, h.2⟩⟩

theorem exists_unitsThen (data : Bytes) : ∃ units rest, UnitsThen data units rest ∧ NoUnit rest := by
  obtain ⟨units, words, rest, hwords, hdata, hlast⟩ := exists_words readsOnly_readUnit data
  obtain ⟨hshort, rfl⟩ := forall₂_isUnit_iff.mp hwords
  refine ⟨units, rest, ⟨hshort, hdata⟩, ?_⟩
  rw [readUnit] at hlast
  split at hlast
  · assumption
  · cases hlast

theorem UnitsThen.isPrefix {data rest rest' : Bytes} {units units' : List Bytes} (h : UnitsThen data units rest)
    (hlast : NoUnit rest) (h' : UnitsThen data units' rest') : units' <+: units := by
  obtain ⟨hwords, hdata⟩ := unitsThen_iff.mp h
  obtain ⟨hwords', hdata'⟩ := unitsThen_iff.mp h'
  exact (words_isPrefix readsOnly_readUnit.toReads hwords hwords' (hdata.symm.trans hdata') (if_pos hlast)).1

theorem UnitsThen.unique {data rest rest' : Bytes} {units units' : List Bytes} (h : UnitsThen data units rest)
    (hlast : NoUnit rest) (h' : UnitsThen data units' rest') (hlast' : NoUnit rest') : units' = units ∧ rest' = rest := by
  have hle := h.isPrefix hlast h'
  have hge := h'.isPrefix hlast' h
  obtain rfl := hle.eq_of_length (hle.length_le.antisymm hge.length_le)
  exact ⟨rfl, List.append_cancel_left (h'.split.symm.trans h.split)⟩

theorem avccToAnnexB_noUnit {rest : Bytes} (h : NoUnit rest) : avccToAnnexB rest = [] := by
  rw [avccToAnnexB.eq_def]
  split
  · next b₀ b₁ b₂ b₃ rest =>
    refine if_pos ?_
    simp only [NoUnit, List.length_cons, List.take_succ_cons, List.take_zero] at h
    omega
  · rfl

theorem avccToAnnexB_unitsThen {data rest : Bytes} {units : List Bytes} (h : UnitsThen data units rest)
    (hlast : NoUnit rest) : avccToAnnexB data = startCoded units := by
  obtain ⟨hshort, rfl⟩ := h
  induction units with
  | nil => exact avccToAnnexB_noUnit hlast
  | cons nal units ih =>
    rw [lengthPrefixed_cons, List.append_assoc, List.append_assoc,
      avccToAnnexB_prefixed _ _ (hshort nal List.mem_cons_self), startCoded_cons, List.append_assoc,
      ih fun n hn => hshort n (List.mem_cons_of_mem nal hn)]

/-! ## The loop over positions -/

/-- `avcc_to_annex_b` as it is written, with every index checked; `none` if `turns` turns are not enough. Lengths have
32 bits, so that no sum of positions overflows a 64-bit `usize`. -/
def avccToAnnexBLoop (data : Bytes) : ℕ → ℕ → Bytes → Indexed (Option Bytes)
  | 0, _, _ => .ok none
  | turns + 1, pos, out =>
    if pos + 4 ≤ data.length then do
      let nalLen ← u32At data pos
      let pos := pos + 4
      if pos + nalLen.toNat > data.length then pure (some out)
      else do
        let upTo ← sliceTo data (pos + nalLen.toNat)
        let nal ← sliceFrom upTo pos
        avccToAnnexBLoop data turns (pos + nalLen.toNat) (out ++ startCode ++ nal)
    else pure (some out)

theorem avccToAnnexBLoop_noUnit (pre rest : Bytes) (hlast : NoUnit rest) (turns : ℕ) (out : Bytes) :
    avccToAnnexBLoop (pre ++ rest) (turns + 1) pre.length out = .ok (some out) := by
  rw [avccToAnnexBLoop, List.length_append]
  by_cases hshort : rest.length < 4
  · rw [if_neg (by omega)]
    rfl
  · have hlong := hlast.resolve_left hshort
    obtain ⟨hlt, hback⟩ := lengthWord (Nat.not_lt.mp hshort)
    have hvalue : (UInt32.ofNat (fromBe (rest.take 4))).toNat = fromBe (rest.take 4) :=
      UInt32.toNat_ofNat_of_lt' hlt
    have hread : u32At (pre ++ rest) pre.length = .ok (UInt32.ofNat (fromBe (rest.take 4))) := by
      rw [← hvalue] at hback
      have hat := u32At_word pre rfl (UInt32.ofNat (fromBe (rest.take 4))) (rest.drop 4)
      rwa [hback, List.take_append_drop] at hat
    rw [if_pos (by omega), hread]
    change (if _ > _ then _ else _) = _
    rw [if_pos (by omega)]
    rfl

theorem avccToAnnexBLoop_unit (pre nal rest : Bytes) (hlen : nal.length < 2 ^ 32) (turns : ℕ) (out : Bytes) :
    avccToAnnexBLoop (pre ++ (prefixedUnit nal ++ rest)) (turns + 1) pre.length out =
      avccToAnnexBLoop (pre ++ (prefixedUnit nal ++ rest)) turns (pre ++ prefixedUnit nal).length
        (out ++ startCode ++ nal) := by
  have hvalue : (UInt32.ofNat nal.length).toNat = nal.length := UInt32.toNat_ofNat_of_lt' hlen
  have hread : u32At (pre ++ (prefixedUnit nal ++ rest)) pre.length = .ok (UInt32.ofNat nal.length) := by
    have hat := u32At_word pre rfl (UInt32.ofNat nal.length) (nal ++ rest)
    rwa [hvalue, ← List.append_assoc (toBe 4 nal.length)] at hat
  have hend : (pre ++ prefixedUnit nal).length = pre.length + 4 + nal.length := by
    simp only [prefixedUnit, List.length_append, toBe_length]
    omega
  have hupTo : sliceTo (pre ++ (prefixedUnit nal ++ rest)) (pre.length + 4 + nal.length) = .ok (pre ++ prefixedUnit nal) := by
    rw [← List.append_assoc, ← hend, sliceTo_append]
  have hnal : sliceFrom (pre ++ prefixedUnit nal) (pre.length + 4) = .ok nal := by
    have hsplit : pre ++ prefixedUnit nal = (pre ++ toBe 4 nal.length) ++ nal := by
      rw [prefixedUnit, List.append_assoc]
    rw [sliceFrom, if_pos (by omega), hsplit, List.drop_left' (by simp)]
  rw [avccToAnnexBLoop, if_pos (by simp only [prefixedUnit, List.length_append, toBe_length]; omega), hread]
  change (if pre.length + 4 + (UInt32.ofNat nal.length).toNat > _ then _ else _) = _
  rw [hvalue, if_neg (by simp only [prefixedUnit, List.length_append, toBe_length]; omega), hupTo]
  change (sliceFrom (pre ++ prefixedUnit nal) (pre.length + 4) >>= _) = _
  rw [hnal, hend]
  rfl

theorem avccToAnnexBLoop_unitsThen {data rest : Bytes} {units : List Bytes} (h : UnitsThen data units rest)
    (hlast : NoUnit rest) {turns : ℕ} (hturns : units.length < turns) (pre out : Bytes) :
    avccToAnnexBLoop (pre ++ data) turns pre.length out = .ok (some (out ++ startCoded units)) := by
  obtain ⟨hshort, rfl⟩ := h
  induction units generalizing turns pre out with
  | nil =>
    obtain ⟨turns, rfl⟩ := Nat.exists_eq_succ_of_ne_zero (Nat.ne_zero_of_lt hturns)
    rw [startCoded, List.flatMap_nil, List.append_nil]
    exact avccToAnnexBLoop_noUnit pre rest hlast turns out
  | cons nal units ih =>
    obtain ⟨turns, rfl⟩ := Nat.exists_eq_succ_of_ne_zero (Nat.ne_zero_of_lt hturns)
    obtain ⟨hnal, hunits⟩ := List.forall_mem_cons.mp hshort
    have hcons : lengthPrefixed (nal :: units) ++ rest = prefixedUnit nal ++ (lengthPrefixed units ++ rest) := by
      rw [lengthPrefixed_cons, prefixedUnit, List.append_assoc, List.append_assoc, List.append_assoc]
    have hstep := avccToAnnexBLoop_unit pre nal (lengthPrefixed units ++ rest) hnal turns out
    have hrest := ih (Nat.lt_of_succ_lt_succ hturns) (pre ++ prefixedUnit nal) (out ++ startCode ++ nal) hunits
    rw [List.append_assoc] at hrest
    rw [hcons, hstep, hrest, startCoded_cons]
    simp only [List.append_assoc]

theorem UnitsThen.length_le {data rest : Bytes} {units : List Bytes} (h : UnitsThen data units rest) :
    4 * units.length ≤ data.length := by
  obtain ⟨-, rfl⟩ := h
  induction units with
  | nil => simp
  | cons nal units ih =>
    simp only [lengthPrefixed_cons, List.length_append, toBe_length, List.length_cons] at ih ⊢
    omega

/-- The greatest sequence of complete units the bytes begin with is written with start codes, no index is out of range,
and a turn for every four bytes is enough. -/
theorem avccToAnnexB_greatest (data : Bytes) :
    ∃ units rest, UnitsThen data units rest ∧ NoUnit rest ∧
      (∀ units' rest', UnitsThen data units' rest' → units' <+: units) ∧
      (∀ units' rest', UnitsThen data units' rest' → NoUnit rest' → units' = units ∧ rest' = rest) ∧
      avccToAnnexB data = startCoded units ∧
      ∀ turns, data.length / 4 < turns → avccToAnnexBLoop data turns 0 [] = .ok (some (startCoded units)) := by
  obtain ⟨units, rest, h, hlast⟩ := exists_unitsThen data
  refine ⟨units, rest, h, hlast, fun units' rest' h' => h.isPrefix hlast h',
    fun units' rest' h' hlast' => h.unique hlast h' hlast', avccToAnnexB_unitsThen h hlast, fun turns hturns => ?_⟩
  have hle := h.length_le
  exact avccToAnnexBLoop_unitsThen h hlast (by omega) [] []

/-! ## Cuts at start codes -/

/-- Units, each behind a start code of either form. -/
def joined (units : List (StartCodeForm × Bytes)) : Bytes := units.flatMap fun unit => unit.1.bytes ++ unit.2

theorem joined_cons (form : StartCodeForm) (nal : Bytes) (units : List (StartCodeForm × Bytes)) :
    joined ((form, nal) :: units) = form.bytes ++ (nal ++ joined units) := by
  rw [joined, List.flatMap_cons, List.append_assoc]
  rfl

/-- No piece contains `00 00 01`, and none before a three-byte code ends in a zero. -/
def Separated : Bytes → List (StartCodeForm × Bytes) → Prop
  | piece, [] => NoStartCode piece
  | piece, (form, nal) :: units =>
    NoStartCode piece ∧ (form = .three → piece.getLast? ≠ some 0) ∧ Separated nal units

theorem PassedOver.noStartCode {piece rest : Bytes} (h : PassedOver piece rest) : NoStartCode piece := by
  rintro ⟨front, post, rfl⟩
  refine h (StartCodeForm.three.bytes ++ post) ⟨front, (List.append_assoc ..).symm⟩ (by simp [StartCodeForm.bytes]) .three ?_
  rw [List.append_assoc]
  exact List.prefix_append _ _

/-- A zero before the three-byte code would have been taken into a four-byte one. -/
theorem PassedOver.getLast?_ne {piece rest : Bytes} (h : PassedOver piece (StartCodeForm.three.bytes ++ rest)) :
    piece.getLast? ≠ some 0 := by
  intro hzero
  obtain ⟨front, rfl⟩ := List.getLast?_eq_some_iff.mp hzero
  exact h [0] (List.suffix_append _ _) (List.cons_ne_nil _ _) .four ⟨rest, rfl⟩

theorem PassedOver.concat {piece rest : Bytes} {b : UInt8} (h : PassedOver piece (b :: rest))
    (hb : ∀ form : StartCodeForm, ¬ form.bytes <+: b :: rest) : PassedOver (piece ++ [b]) rest := by
  intro tail htail hne form
  obtain rfl | ⟨front, c, rfl⟩ := List.eq_nil_or_concat' tail
  · exact absurd rfl hne
  obtain ⟨before, hbefore⟩ := htail
  rw [← List.append_assoc] at hbefore
  obtain ⟨rfl, hc⟩ := List.append_inj' hbefore rfl
  obtain rfl := List.singleton_inj.mp hc
  rw [List.append_assoc]
  cases front with
  | nil => exact hb form
  | cons d front => exact h (d :: front) (List.suffix_append _ _) (List.cons_ne_nil _ _) form

theorem passedOver_nil (rest : Bytes) : PassedOver [] rest :=
  fun _ htail hne => absurd (List.suffix_nil.mp htail) hne

/-- The scan from any byte on, where `piece` is what was passed over since the last start code, kept in `start` if there
was one. -/
theorem splitAnnexbLoop_cuts (rest piece : Bytes) (start : Option Bytes) (hstart : ∀ acc ∈ start, acc = piece)
    (h : PassedOver piece rest) :
    ∃ first units, piece ++ rest = first ++ joined units ∧ Separated first units ∧
      splitAnnexbLoop rest start = (start.map fun _ => first).toList ++ units.map Prod.snd := by
  induction hlen : rest.length using Nat.strong_induction_on generalizing rest piece start with
  | _ n ih =>
    by_cases hcode : ∃ form : StartCodeForm, form.bytes <+: rest
    · obtain ⟨form, more, rfl⟩ := hcode
      have hpos : 0 < form.bytes.length := by cases form <;> decide
      rw [List.length_append] at hlen
      obtain ⟨first, units, hmore, hseparated, hscan⟩ :=
        ih more.length (by omega) more [] (some []) (fun acc hacc => (Option.some.inj hacc).symm) (passedOver_nil more) rfl
      refine ⟨piece, (form, first) :: units, ?_, ⟨h.noStartCode, ?_, hseparated⟩, ?_⟩
      · rw [joined_cons, ← hmore, List.nil_append]
      · rintro rfl
        exact h.getLast?_ne
      · have hopen : start.toList = (start.map fun _ => piece).toList := by
          cases start with
          | none => rfl
          | some acc => rw [hstart acc rfl]; rfl
        rw [splitAnnexbLoop_code, hscan, hopen]
        rfl
    · rw [not_exists] at hcode
      cases rest with
      | nil =>
        refine ⟨piece, [], rfl, h.noStartCode, ?_⟩
        cases start with
        | none => rfl
        | some acc => simp [splitAnnexbLoop, hstart acc rfl]
      | cons b rest =>
        rw [List.length_cons] at hlen
        obtain ⟨first, units, hmore, hseparated, hscan⟩ :=
          ih rest.length (by omega) rest (piece ++ [b]) (start.map (· ++ [b]))
            (fun acc hacc => by
              obtain ⟨opened, hopened, rfl⟩ := Option.mem_map.mp hacc
              rw [hstart opened hopened])
            (h.concat hcode) rfl
        refine ⟨first, units, ?_, hseparated, ?_⟩
        · rw [← hmore, List.append_assoc]
          rfl
        · rw [splitAnnexbLoop_skip b rest start hcode, hscan, Option.map_map]
          rfl

theorem three_isInfix (form : StartCodeForm) : [0x00, 0x00, 0x01] <:+: form.bytes := by
  cases form <;> decide

/-- A start code that is cut short ends in a zero. -/
theorem getLast?_take_bytes (form : StartCodeForm) {k : ℕ} (hpos : 0 < k) (hk : k < form.bytes.length) :
    (form.bytes.take k).getLast? = some 0 := by
  cases form <;> simp only [StartCodeForm.bytes, startCode, List.length_cons, List.length_nil] at hk <;>
    interval_cases k <;> rfl

/-- A unit that ends in another byte than zero is passed over whatever follows it. -/
theorem passedOver_of_getLast? {piece : Bytes} (hclean : NoStartCode piece) (hlast : piece.getLast? ≠ some 0)
    (rest : Bytes) : PassedOver piece rest := by
  rintro tail ⟨front, rfl⟩ hne form hcode
  rw [List.getLast?_append_of_ne_nil _ hne] at hlast
  obtain hshort | hlong := Nat.lt_or_ge tail.length form.bytes.length
  · have hcut : tail <+: form.bytes := List.prefix_of_prefix_length_le (List.prefix_append _ _) hcode hshort.le
    rw [List.prefix_iff_eq_take.mp hcut] at hlast
    exact hlast (getLast?_take_bytes form (List.length_pos_iff.mpr hne) hshort)
  · have hinside : form.bytes <+: tail := List.prefix_of_prefix_length_le hcode (List.prefix_append _ _) hlong
    exact hclean ((three_isInfix form).trans (hinside.isInfix.trans (List.suffix_append front tail).isInfix))

theorem splitAnnexbLoop_joined (units : List (StartCodeForm × Bytes))
    (h : ∀ unit ∈ units, NoStartCode unit.2 ∧ unit.2.getLast? ≠ some 0) (start : Option Bytes) :
    splitAnnexbLoop (joined units) start = start.toList ++ units.map Prod.snd := by
  induction units generalizing start with
  | nil => cases start <;> simp [joined, splitAnnexbLoop]
  | cons unit units ih =>
    obtain ⟨form, nal⟩ := unit
    obtain ⟨⟨hclean, hlast⟩, hunits⟩ := List.forall_mem_cons.mp h
    have hpassed := passedOver_of_getLast? hclean hlast (joined units)
    rw [joined_cons, splitAnnexbLoop_code, splitAnnexbLoop_passedOver hpassed, ih hunits]
    rfl

/-- The scanner cuts at every start code, takes a zero before `00 00 01` into the code, and so gives back any clean
units whose last byte is not zero. -/
theorem splitAnnexb_cuts :
    (∀ data, ∃ front units, data = front ++ joined units ∧ Separated front units ∧
      splitAnnexb data = units.map Prod.snd) ∧
    (∀ units, (∀ unit ∈ units, NoStartCode unit.2 ∧ unit.2.getLast? ≠ some 0) →
      splitAnnexb (joined units) = units.map Prod.snd) := by
  refine ⟨fun data => ?_, fun units h => splitAnnexbLoop_joined units h none⟩
  obtain ⟨front, units, hdata, hseparated, hscan⟩ :=
    splitAnnexbLoop_cuts data [] none (fun acc hacc => by cases hacc) (passedOver_nil data)
  exact ⟨front, units, hdata, hseparated, hscan⟩

theorem splitAnnexb_cuts_three_units :
    joined [(.four, [0x67, 0x01]), (.four, [0x68, 0x02]), (.three, [0x65])] =
        [0, 0, 0, 1, 0x67, 0x01, 0, 0, 0, 1, 0x68, 0x02, 0, 0, 1, 0x65] ∧
      splitAnnexb (joined [(.four, [0x67, 0x01]), (.four, [0x68, 0x02]), (.three, [0x65])]) =
        [[0x67, 0x01], [0x68, 0x02], [0x65]] :=
  ⟨rfl, splitAnnexb_cuts.2 _ (by decide)⟩

end LivestreamRs.Media
