import Mathlib.Tactic

/-! # Runs of a transition system

A system is a partial step function: `step s a = none` means that action `a` is not enabled in `s`. A run
is a list of actions. `Always` speaks about every state of a run, `EachStep` about every step it takes;
the rules below move between the two through an inductive invariant.
-/
namespace LivestreamRs.Foundations
set_option autoImplicit false

section Runs
variable {σ α : Type} (step : σ → α → Option σ)

def run : σ → List α → Option σ
  | s, [] => some s
  | s, a :: acts => (step s a).bind fun t => run t acts

/-- `P` holds in every state the run passes through, the first one included. -/
def Always (P : σ → Prop) : σ → List α → Prop
  | s, [] => P s
  | s, a :: acts => P s ∧ ∀ t, step s a = some t → Always P t acts

/-- `C` holds of every step the run takes, given the state before it. -/
def EachStep (C : σ → α → Prop) : σ → List α → Prop
  | _, [] => True
  | s, a :: acts => ∀ t, step s a = some t → C s a ∧ EachStep C t acts

instance Always.decidable (P : σ → Prop) [DecidablePred P] :
    (s : σ) → (acts : List α) → Decidable (Always step P s acts)
  | s, [] => inferInstanceAs (Decidable (P s))
  | s, a :: acts =>
    match h : step s a with
    | none => decidable_of_iff (P s) ⟨fun hs => ⟨hs, fun t ht => by rw [h] at ht; cases ht⟩, And.left⟩
    | some u =>
      have := Always.decidable P u acts
      decidable_of_iff (P s ∧ Always step P u acts)
        ⟨fun hu => ⟨hu.1, fun _ ht => Option.some.inj (h.symm.trans ht) ▸ hu.2⟩, fun hs => ⟨hs.1, hs.2 u h⟩⟩

instance EachStep.decidable (C : σ → α → Prop) [∀ s a, Decidable (C s a)] :
    (s : σ) → (acts : List α) → Decidable (EachStep step C s acts)
  | _, [] => isTrue trivial
  | s, a :: acts =>
    match h : step s a with
    | none => isTrue fun t ht => by rw [h] at ht; cases ht
    | some u =>
      have := EachStep.decidable C u acts
      decidable_of_iff (C s a ∧ EachStep step C u acts)
        ⟨fun hu t ht => Option.some.inj (h.symm.trans ht) ▸ hu, fun hs => hs u h⟩

end Runs

section Rules
variable {σ α : Type} {step : σ → α → Option σ} {I P : σ → Prop} {C D : σ → α → Prop}

theorem run_cons {s t : σ} {a : α} {acts : List α} :
    run step s (a :: acts) = some t ↔ ∃ u, step s a = some u ∧ run step u acts = some t := by
  rw [run, Option.bind_eq_some_iff]

theorem run_append {s t : σ} {acts more : List α} :
    run step s (acts ++ more) = some t ↔ ∃ u, run step s acts = some u ∧ run step u more = some t := by
  induction acts generalizing s with
  | nil => simp [run]
  | cons a acts ih =>
    rw [List.cons_append, run_cons]
    constructor
    · rintro ⟨v, hv, hrest⟩
      obtain ⟨u, hu, hmore⟩ := ih.mp hrest
      exact ⟨u, run_cons.mpr ⟨v, hv, hu⟩, hmore⟩
    · rintro ⟨u, hu, hmore⟩
      obtain ⟨v, hv, hrest⟩ := run_cons.mp hu
      exact ⟨v, hv, ih.mpr ⟨u, hrest, hmore⟩⟩

/-- Where every step is one of another system, a run is a run of it. -/
theorem run_map {τ : Type} {step' : τ → α → Option τ} (f : σ → τ)
    (hstep : ∀ s a t, step s a = some t → step' (f s) a = some (f t)) {s t : σ} {acts : List α}
    (hrun : run step s acts = some t) : run step' (f s) acts = some (f t) := by
  induction acts generalizing s with
  | nil => rw [Option.some.inj hrun, run]
  | cons a acts ih =>
    obtain ⟨u, hu, hrest⟩ := run_cons.mp hrun
    exact run_cons.mpr ⟨f u, hstep s a u hu, ih hrest⟩

/-- Where a system with more state can take every step of this one, it can take every run. -/
theorem exists_run_lift {τ : Type} {step' : τ → α → Option τ} {J : τ → Prop} {Q : α → Prop} (f : τ → σ)
    (hstep : ∀ t a s, J t → Q a → step (f t) a = some s → ∃ t', step' t a = some t' ∧ f t' = s ∧ J t') {t : τ} {s : σ}
    {acts : List α} (ht : J t) (hacts : ∀ a ∈ acts, Q a) (hrun : run step (f t) acts = some s) :
    ∃ t', run step' t acts = some t' ∧ f t' = s ∧ J t' := by
  induction acts generalizing t with
  | nil => exact ⟨t, rfl, Option.some.inj hrun, ht⟩
  | cons a acts ih =>
    obtain ⟨u, hu, hrest⟩ := run_cons.mp hrun
    obtain ⟨u', hu', rfl, hJ⟩ := hstep t a u ht (hacts a List.mem_cons_self) hu
    obtain ⟨t', ht', hf⟩ := ih hJ (fun b hb => hacts b (List.mem_cons_of_mem a hb)) hrest
    exact ⟨t', run_cons.mpr ⟨u', hu', ht'⟩, hf⟩

/-- Where every step is a step of a component or leaves it alone, a run is a run of the component. -/
theorem exists_run_component {τ β : Type} {step' : τ → β → Option τ} {E : τ → β → Prop} (f : σ → τ)
    (hI : ∀ s a t, I s → step s a = some t → I t)
    (hstep : ∀ s a t, I s → C s a → step s a = some t → f t = f s ∨ ∃ b, step' (f s) b = some (f t) ∧ E (f s) b)
    {s t : σ} {acts : List α} (hs : I s) (hc : EachStep step C s acts) (hrun : run step s acts = some t) :
    ∃ acts', run step' (f s) acts' = some (f t) ∧ EachStep step' E (f s) acts' := by
  induction acts generalizing s with
  | nil =>
    obtain rfl := Option.some.inj hrun
    exact ⟨[], rfl, trivial⟩
  | cons a acts ih =>
    obtain ⟨u, hu, hrest⟩ := run_cons.mp hrun
    obtain ⟨ha, hacts⟩ := hc u hu
    obtain ⟨acts', hrun', hc'⟩ := ih (hI s a u hs hu) hacts hrest
    rcases hstep s a u hs ha hu with heq | ⟨b, hb, hE⟩
    · rw [heq] at hrun' hc'
      exact ⟨acts', hrun', hc'⟩
    · refine ⟨b :: acts', run_cons.mpr ⟨f u, hb, hrun'⟩, fun v hv => ?_⟩
      obtain rfl := Option.some.inj (hb.symm.trans hv)
      exact ⟨hE, hc'⟩

/-- Where one class of actions cannot be seen in a view of the state, and a step of the others changes the view by what
the view shows, the view after a run is the one after the run without that class. -/
theorem run_filter_unseen {τ : Type} {f : σ → τ} {unseen : α → Bool} (hI : ∀ s a t, I s → step s a = some t → I t)
    (hunseen : ∀ s a, unseen a = true → (step s a).map f = some (f s))
    (hseen : ∀ s t a, I s → I t → f s = f t → (step s a).map f = (step t a).map f) {s t : σ} (hs : I s) (ht : I t)
    (hst : f s = f t) (acts : List α) :
    (run step s acts).map f = (run step t (acts.filter fun a => !unseen a)).map f := by
  induction acts generalizing s t with
  | nil => rw [List.filter_nil, run, run, Option.map_some, Option.map_some, hst]
  | cons a acts ih =>
    cases ha : unseen a with
    | true =>
      obtain ⟨u, hu, hfu⟩ := Option.map_eq_some_iff.mp (hunseen s a ha)
      simp only [run, hu, Option.bind_some, List.filter_cons, ha, Bool.not_true, Bool.false_eq_true, if_false]
      exact ih (hI s a u hs hu) ht (hfu.trans hst)
    | false =>
      have hsteps := hseen s t a hs ht hst
      simp only [run, List.filter_cons, ha, Bool.not_false, if_true]
      cases hu : step s a with
      | none =>
        rw [hu, Option.map_none, eq_comm, Option.map_eq_none_iff] at hsteps
        simp [hsteps]
      | some u =>
        rw [hu, Option.map_some, eq_comm, Option.map_eq_some_iff] at hsteps
        obtain ⟨v, hv, hfv⟩ := hsteps
        simp only [hv, Option.bind_some]
        exact ih (hI s a u hs hu) (hI t a v ht hv) hfv.symm

/-- The same where the actions of that class are not always enabled: leaving them out of a run gives a run. -/
theorem exists_run_filter_unseen {τ : Type} {f : σ → τ} {unseen : α → Bool}
    (hI : ∀ s a t, I s → step s a = some t → I t)
    (hunseen : ∀ s a t, I s → unseen a = true → step s a = some t → f t = f s)
    (hseen : ∀ s t a u, I s → I t → f s = f t → unseen a = false → step s a = some u →
      ∃ v, step t a = some v ∧ f v = f u) {s t u : σ} (hs : I s) (ht : I t) (hst : f s = f t) {acts : List α}
    (hrun : run step s acts = some u) :
    ∃ v, run step t (acts.filter fun a => !unseen a) = some v ∧ f v = f u := by
  induction acts generalizing s t with
  | nil =>
    obtain rfl := Option.some.inj hrun
    exact ⟨t, rfl, hst.symm⟩
  | cons a acts ih =>
    obtain ⟨s', hs', hrest⟩ := run_cons.mp hrun
    cases ha : unseen a with
    | true =>
      rw [List.filter_cons_of_neg (by simp [ha])]
      exact ih (hI s a s' hs hs') ht ((hunseen s a s' hs ha hs').trans hst) hrest
    | false =>
      obtain ⟨t', ht', hst'⟩ := hseen s t a s' hs ht hst ha hs'
      obtain ⟨v, hv, hview⟩ := ih (hI s a s' hs hs') (hI t a t' ht ht') hst'.symm hrest
      rw [List.filter_cons_of_pos (by simp [ha])]
      exact ⟨v, run_cons.mpr ⟨t', ht', hv⟩, hview⟩

/-- An invariant kept by the steps that meet a condition holds after every run of such steps. -/
theorem run_invariant (hstep : ∀ s a t, I s → C s a → step s a = some t → I t) {s t : σ} {acts : List α}
    (hs : I s) (hc : EachStep step C s acts) (hrun : run step s acts = some t) : I t := by
  induction acts generalizing s with
  | nil => exact Option.some.inj hrun ▸ hs
  | cons a acts ih =>
    obtain ⟨u, hu, hrest⟩ := run_cons.mp hrun
    obtain ⟨ha, hacts⟩ := hc u hu
    exact ih (hstep s a u hs ha hu) hacts hrest

theorem eachStep_trivial (s : σ) (acts : List α) : EachStep step (fun _ _ => True) s acts := by
  induction acts generalizing s with
  | nil => trivial
  | cons a acts ih => exact fun t _ => ⟨trivial, ih t⟩

theorem eachStep_of_forall_mem {Q : α → Prop} {acts : List α} (h : ∀ a ∈ acts, Q a) (s : σ) :
    EachStep step (fun _ a => Q a) s acts := by
  induction acts generalizing s with
  | nil => trivial
  | cons a acts ih => exact fun t _ => ⟨h a List.mem_cons_self, ih (fun b hb => h b (List.mem_cons_of_mem a hb)) t⟩

/-- Where a step that meets `C` can always bring a measure down until `P` holds, a run of such steps reaches
`P`. -/
theorem exists_run_of_measure (measure : σ → ℕ) (hstep : ∀ s a t, I s → C s a → step s a = some t → I t)
    (hadvance : ∀ s, I s → ¬ P s → ∃ a t, C s a ∧ step s a = some t ∧ measure t < measure s) (s : σ) (hs : I s) :
    ∃ acts t, EachStep step C s acts ∧ run step s acts = some t ∧ P t := by
  induction hn : measure s using Nat.strong_induction_on generalizing s with
  | _ n ih =>
    by_cases hdone : P s
    · exact ⟨[], s, trivial, rfl, hdone⟩
    · obtain ⟨a, u, ha, hu, hless⟩ := hadvance s hs hdone
      obtain ⟨acts, t, hacts, hrun, ht⟩ := ih (measure u) (hn ▸ hless) u (hstep s a u hs ha hu) rfl
      refine ⟨a :: acts, t, fun v hv => ⟨ha, ?_⟩, run_cons.mpr ⟨u, hu, hrun⟩, ht⟩
      obtain rfl := Option.some.inj (hu.symm.trans hv)
      exact hacts

/-- Steps that meet `C` keep the invariant and meet `D`, so a run of them meets `D` throughout. -/
theorem EachStep.imp (hstep : ∀ s a t, I s → C s a → step s a = some t → I t ∧ D s a) {s : σ}
    {acts : List α} (hs : I s) (hc : EachStep step C s acts) : EachStep step D s acts := by
  induction acts generalizing s with
  | nil => trivial
  | cons a acts ih =>
    intro t ht
    obtain ⟨ha, hacts⟩ := hc t ht
    obtain ⟨hI, hD⟩ := hstep s a t hs ha ht
    exact ⟨hD, ih hI hacts⟩

theorem Always.first {s : σ} {acts : List α} (h : Always step P s acts) : P s := by
  cases acts with
  | nil => exact h
  | cons a acts => exact h.1

/-- When the steps that keep `P` are exactly those that meet `C`, a run stays in `P` exactly when all its
steps meet `C`. -/
theorem always_iff_eachStep (hI : ∀ s a t, I s → step s a = some t → I t)
    (hP : ∀ s a t, I s → P s → step s a = some t → (P t ↔ C s a)) {s : σ} (acts : List α)
    (hs : I s) (hPs : P s) : Always step P s acts ↔ EachStep step C s acts := by
  induction acts generalizing s with
  | nil => exact ⟨fun _ => trivial, fun _ => hPs⟩
  | cons a acts ih =>
    constructor
    · rintro ⟨-, hnext⟩ t ht
      have hPt := (hnext t ht).first
      exact ⟨(hP s a t hs hPs ht).mp hPt, (ih (hI s a t hs ht) hPt).mp (hnext t ht)⟩
    · refine fun hc => ⟨hPs, fun t ht => ?_⟩
      obtain ⟨ha, hacts⟩ := hc t ht
      exact (ih (hI s a t hs ht) ((hP s a t hs hPs ht).mpr ha)).mpr hacts

/-- A property that is never regained once lost holds throughout a run exactly when it holds at its end. -/
theorem always_iff_last (hback : ∀ s a t, step s a = some t → P t → P s) {s t : σ} {acts : List α}
    (hrun : run step s acts = some t) : Always step P s acts ↔ P t := by
  induction acts generalizing s with
  | nil => exact Option.some.inj hrun ▸ Iff.rfl
  | cons a acts ih =>
    obtain ⟨u, hu, hrest⟩ := run_cons.mp hrun
    refine ⟨fun h => (ih hrest).mp (h.2 u hu), fun ht => ?_⟩
    have halways := (ih hrest).mpr ht
    exact ⟨hback s a u hu halways.first, fun v hv => Option.some.inj (hu.symm.trans hv) ▸ halways⟩

/-- When a step ends in `P` exactly if it starts in `P` and meets `C`, a run does so exactly if all its steps
meet `C`. -/
theorem last_iff_eachStep (hI : ∀ s a t, I s → step s a = some t → I t)
    (hP : ∀ s a t, I s → step s a = some t → (P t ↔ P s ∧ C s a)) {s t : σ} {acts : List α} (hs : I s)
    (hrun : run step s acts = some t) : P t ↔ P s ∧ EachStep step C s acts := by
  induction acts generalizing s with
  | nil => exact Option.some.inj hrun ▸ (and_iff_left trivial).symm
  | cons a acts ih =>
    obtain ⟨u, hu, hrest⟩ := run_cons.mp hrun
    rw [ih (hI s a u hs hu) hrest, hP s a u hs hu, and_assoc]
    refine and_congr_right fun _ => ⟨fun hc v hv => ?_, fun hc => hc u hu⟩
    exact Option.some.inj (hu.symm.trans hv) ▸ hc

end Rules
end LivestreamRs.Foundations
