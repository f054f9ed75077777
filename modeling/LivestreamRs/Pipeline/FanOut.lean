import Mathlib.Tactic

/-! # Fan-out to the output pads

`fan_out` and `deliver_to_pad` (`livestream-pipeline/src/task.rs`) offer every item of a batch to every output
pad of a processor. A send is refused when the pad's channel is full or its receiver is gone. The loop over the
pads is left at a closed pad, so the pads behind it in the list do not get the item
(`fan_out_independent_iff`).
-/
namespace LivestreamRs.Pipeline
set_option autoImplicit false

/-- `Result<(), SendError>` of `PadSender::send`. -/
inductive SendResult
  | ok
  | full
  | closed
  deriving DecidableEq, Repr

/-- The `bool` of `deliver_to_pad`: whether the loop over the pads goes on. -/
def deliverToPad : SendResult → Bool
  | .ok => true
  | .full => true
  | .closed => false

section Loops
variable {σ α : Type} (send : ℕ → α → σ → σ × SendResult)

/-- The loop over `processor.outputs()` for one item; a pad is its position in that list. -/
def offerItem (item : α) : List ℕ → σ → σ
  | [], s => s
  | pad :: pads, s =>
    let (s', result) := send pad item s
    if deliverToPad result then offerItem item pads s' else s'

def fanOut (outputs : List ℕ) : List α → σ → σ
  | [], s => s
  | item :: results, s => fanOut outputs results (offerItem send item outputs s)

variable {send}

theorem offerItem_closed {item : α} {pad : ℕ} (pads : List ℕ) {s : σ}
    (h : (send pad item s).2 = .closed) : offerItem send item (pad :: pads) s = (send pad item s).1 := by
  rw [offerItem]
  generalize send pad item s = r at h
  obtain ⟨s', result⟩ := r
  obtain rfl : result = .closed := h
  rfl

theorem offerItem_open {item : α} {pad : ℕ} (pads : List ℕ) {s : σ} (h : (send pad item s).2 ≠ .closed) :
    offerItem send item (pad :: pads) s = offerItem send item pads (send pad item s).1 := by
  rw [offerItem]
  generalize send pad item s = r at h
  obtain ⟨s', result⟩ := r
  cases result with
  | ok | full => rfl
  | closed => exact absurd rfl h

end Loops

/-! ## Sends with given outcomes

The receivers run while `fan_out` does, so the outcome of a send can be any of the three at any time:
`outcome i pad` is that of the send of item `i` to `pad`. -/

section Outcomes
variable {α : Type} (outcome : ℕ → ℕ → SendResult)

/-- A send whose outcome is given; the state is what every pad has received. -/
def sendScripted (pad : ℕ) (item : α × ℕ) (received : ℕ → List α) : (ℕ → List α) × SendResult :=
  (if outcome item.2 pad = .ok then Function.update received pad (received pad ++ [item.1]) else received,
    outcome item.2 pad)

/-- What each pad has received when the batch `results` has been delivered to `pads` pads. -/
def received (pads : ℕ) (results : List α) : ℕ → List α :=
  fanOut (sendScripted outcome) (List.range pads) results.zipIdx fun _ => []

/-- The items of the batch for which the pad is open and has room. -/
def accepted (results : List α) (pad : ℕ) : List α :=
  (results.zipIdx.filter fun item => outcome item.2 pad = .ok).map Prod.fst

/-- Every pad receives the items it can take, whatever happens at the other pads. -/
def PadsIndependent (pads : ℕ) (results : List α) : Prop :=
  ∀ pad < pads, received outcome pads results pad = accepted outcome results pad

instance [DecidableEq α] (pads : ℕ) (results : List α) : Decidable (PadsIndependent outcome pads results) :=
  inferInstanceAs (Decidable (∀ pad < pads, _))

/-- The loop over the pads gets as far as `pad` and the send succeeds. -/
def Reaches (i pad : ℕ) : Prop :=
  outcome i pad = .ok ∧ ∀ before < pad, outcome i before ≠ .closed

instance (i pad : ℕ) : Decidable (Reaches outcome i pad) :=
  inferInstanceAs (Decidable (_ ∧ ∀ before < pad, _))

variable {outcome}

/-- One item: a pad in the list gets it exactly when the loop reaches the pad. -/
theorem offerItem_range' (item : α × ℕ) (start n pad : ℕ) (got : ℕ → List α)
    (hstart : ∀ before < start, outcome item.2 before ≠ .closed) (hpad : pad < start + n) :
    offerItem (sendScripted outcome) item (List.range' start n) got pad =
      if start ≤ pad ∧ Reaches outcome item.2 pad then got pad ++ [item.1] else got pad := by
  induction n generalizing start got with
  | zero =>
    have hlt : ¬ start ≤ pad := by omega
    simp [offerItem, hlt]
  | succ n ih =>
    rw [List.range'_succ]
    by_cases hclosed : outcome item.2 start = .closed
    · -- the loop is left here, so no pad from `start` on is reached
      have hreach : ¬ (start ≤ pad ∧ Reaches outcome item.2 pad) := by
        rintro ⟨hle, hok, hopen⟩
        rcases Nat.lt_or_eq_of_le hle with hlt | rfl
        · exact hopen start hlt hclosed
        · rw [hclosed] at hok
          cases hok
      rw [offerItem_closed _ hclosed, if_neg hreach]
      simp [sendScripted, hclosed]
    · have hnext : ∀ before < start + 1, outcome item.2 before ≠ .closed := by
        intro before hbefore
        rcases Nat.lt_succ_iff_lt_or_eq.mp hbefore with hlt | rfl
        · exact hstart before hlt
        · exact hclosed
      rw [offerItem_open _ hclosed, ih (start + 1) _ hnext (by omega)]
      simp only [sendScripted]
      by_cases heq : pad = start
      · subst heq
        have hreach : Reaches outcome item.2 pad ↔ outcome item.2 pad = .ok := ⟨And.left, fun h => ⟨h, hstart⟩⟩
        by_cases hok : outcome item.2 pad = .ok <;> simp [hreach, hok]
      · have hle : start + 1 ≤ pad ↔ start ≤ pad := by omega
        split_ifs <;> simp_all [Function.update_of_ne]

theorem fanOut_range (pads pad : ℕ) (hpad : pad < pads) (items : List (α × ℕ)) (got : ℕ → List α) :
    fanOut (sendScripted outcome) (List.range pads) items got pad =
      got pad ++ (items.filter fun item => Reaches outcome item.2 pad).map Prod.fst := by
  induction items generalizing got with
  | nil => simp [fanOut]
  | cons item items ih =>
    rw [fanOut, ih, List.range_eq_range', offerItem_range' item 0 pads pad got nofun (by omega), List.filter_cons]
    by_cases hreach : Reaches outcome item.2 pad <;> simp [hreach]

theorem received_eq (pads pad : ℕ) (hpad : pad < pads) (results : List α) :
    received outcome pads results pad =
      (results.zipIdx.filter fun item => Reaches outcome item.2 pad).map Prod.fst := by
  rw [received, fanOut_range pads pad hpad, List.nil_append]

theorem padsIndependent_iff_filter (pads : ℕ) (results : List α) : PadsIndependent outcome pads results ↔
    ∀ pad < pads, ∀ i < results.length, outcome i pad = .ok → Reaches outcome i pad := by
  refine forall₂_congr fun pad hpad => ?_
  rw [received_eq pads pad hpad, accepted]
  -- what is received is part of what is accepted, so the two agree when they are equally long
  have hsub : (results.zipIdx.filter fun item => Reaches outcome item.2 pad).Sublist
      (results.zipIdx.filter fun item => outcome item.2 pad = .ok) :=
    List.monotone_filter_right _ fun item h => by simpa using (of_decide_eq_true h).1
  have hmem : ∀ i < results.length, ∃ item ∈ results.zipIdx, item.2 = i := fun i hi =>
    ⟨(results[i], i), List.mk_mem_zipIdx_iff_getElem?.mpr (List.getElem?_eq_getElem hi), rfl⟩
  constructor
  · intro heq i hi hok
    obtain ⟨item, hitem, rfl⟩ := hmem i hi
    have hlen := congrArg List.length heq
    rw [List.length_map, List.length_map] at hlen
    have hin : item ∈ results.zipIdx.filter fun item => outcome item.2 pad = .ok :=
      List.mem_filter.mpr ⟨hitem, decide_eq_true hok⟩
    rw [← hsub.eq_of_length hlen] at hin
    exact of_decide_eq_true (List.mem_filter.mp hin).2
  · intro h
    congr 1
    refine List.filter_congr fun item hitem => ?_
    have hi : item.2 < results.length := by
      have := List.mem_zipIdx hitem
      omega
    exact decide_eq_decide.mpr ⟨And.left, h item.2 hi⟩

end Outcomes

/-- The output pads are independent exactly when no send reports `Closed` for an item that a pad further down
the list could take. -/
theorem fan_out_independent_iff {α : Type} (outcome : ℕ → ℕ → SendResult) (pads : ℕ) (results : List α) :
    PadsIndependent outcome pads results ↔ ∀ i < results.length, ∀ pad < pads, ∀ later, pad < later →
      later < pads → outcome i pad = .closed → outcome i later ≠ .ok := by
  rw [padsIndependent_iff_filter]
  constructor
  · intro h i hi pad _ later hlater hlt hclosed hok
    exact (h later hlt i hi hok).2 pad hlater hclosed
  · intro h pad hpad i hi hok
    refine ⟨hok, fun before hbefore hclosed => ?_⟩
    exact h i hi before (hbefore.trans hpad) pad hbefore hpad hclosed hok

/-- The FLV pad of `SeqCacheProbe` is closed: its HLS pad, which is open and has room, receives nothing. -/
theorem closed_pad_starves_later : ¬ PadsIndependent (fun _ pad => if pad = 0 then .closed else .ok) 2 ['a', 'b'] ∧
    received (fun _ pad => if pad = 0 then .closed else .ok) 2 ['a', 'b'] 1 = [] := by
  decide

end LivestreamRs.Pipeline
