import LivestreamRs.Hls.Accounting

/-! # What a shutdown leaves in the queue

Both tasks of the branch watch the same cancellation, and the sink stops receiving when it sees it, while
the segmenter still closes and sends its last segment. Every segment the channel accepted is consumed
exactly when the sink takes the cancellation branch on an empty queue and nothing is accepted after it has
left its loop (`sent_consumed_iff`).
-/
namespace LivestreamRs.Hls
open Media Foundations
set_option autoImplicit false

/-- The sink leaves on cancellation only with an empty queue, and no segment is accepted between its
leaving and the drop of its receiver. -/
def DrainsBeforeLeaving (b : Branch) (a : BranchAction) : Prop :=
  (a = .sinkCancelled → b.queue = []) ∧ (a = .deliver → b.accepts = true → b.sinkTask ≠ .left)

def QueueDrained (b : Branch) : Prop := b.sinkTask.gone = true → b.queue = []

variable {b b' : Branch} {a : BranchAction}

theorem accepts_gone (hacc : b.accepts = true) (hgone : b.sinkTask.gone = true) : b.sinkTask = .left := by
  unfold Branch.accepts at hacc
  cases hs : b.sinkTask <;> simp_all [SinkTask.gone]

theorem SegmenterEffect.queueDrained_iff (heff : SegmenterEffect b a b') (h : QueueDrained b) :
    QueueDrained b' ↔ DrainsBeforeLeaving b a := by
  rw [QueueDrained, heff.sinkTask]
  by_cases ha : a = .deliver
  · subst ha
    obtain ⟨hacc, seg, hq⟩ | ⟨hacc, hq⟩ := heff.deliver rfl
    · by_cases hgone : b.sinkTask.gone = true
      · refine iff_of_false (fun hd => ?_) fun hd => hd.2 rfl hacc (accepts_gone hacc hgone)
        exact List.append_ne_nil_of_right_ne_nil _ (List.cons_ne_nil _ _) (hq ▸ hd hgone)
      · refine iff_of_true (fun hg => absurd hg hgone) ⟨by simp, fun _ _ hleft => hgone ?_⟩
        rw [hleft]
        rfl
    · exact iff_of_true (hq ▸ h) ⟨by simp, fun _ hacc' => by simp [hacc] at hacc'⟩
  · rw [heff.queue ha]
    exact iff_of_true h ⟨fun hc => absurd hc heff.action.1, fun hd => absurd hd ha⟩

theorem SinkEffect.queueDrained_iff (heff : SinkEffect b a b') (h : QueueDrained b) :
    QueueDrained b' ↔ DrainsBeforeLeaving b a := by
  have hdeliver : a = .deliver → b.accepts = true → b.sinkTask ≠ .left := fun hd => absurd hd heff.action
  cases hgone : b.sinkTask.gone with
  | true =>
    obtain ⟨hne, -, hq⟩ := heff.gone hgone
    exact iff_of_true (fun _ => hq ▸ h hgone) ⟨fun hc => absurd hc hne, hdeliver⟩
  | false =>
    refine ⟨fun hd => ⟨fun hc => ?_, hdeliver⟩, fun hc hgone' => ?_⟩
    · have hgone' := heff.cancelled hc
      exact (heff.leaves hgone hgone').1 ▸ hd hgone'
    · obtain ⟨hq, hcancel | hempty⟩ := heff.leaves hgone hgone'
      · exact hq ▸ hc.1 hcancel
      · exact hq ▸ hempty

/-- From a drained state, exactly the draining steps lead to a drained state. -/
theorem queueDrained_step (h : QueueDrained b) (hstep : b.step a = some b') :
    QueueDrained b' ↔ DrainsBeforeLeaving b a := by
  obtain ⟨c, i, rfl, ha⟩ | heff | heff := step_effect hstep
  · refine iff_of_true h ⟨?_, ?_⟩ <;> rintro rfl <;> simp at ha
  · exact heff.queueDrained_iff h
  · exact heff.queueDrained_iff h

theorem queueDrained_of_step (hstep : b.step a = some b') (h : QueueDrained b') : QueueDrained b := by
  intro hgone
  obtain ⟨c, i, rfl, -⟩ | heff | heff := step_effect hstep
  · exact h hgone
  · have hq := h (heff.sinkTask ▸ hgone)
    by_cases ha : a = .deliver
    · obtain ⟨-, seg, hq'⟩ | ⟨-, hq'⟩ := heff.deliver ha
      · exact (List.append_eq_nil_iff.mp (hq' ▸ hq)).1
      · exact hq' ▸ hq
    · exact heff.queue ha ▸ hq
  · obtain ⟨-, hgone', hq⟩ := heff.gone hgone
    exact hq ▸ h hgone'

/-- With the sink gone, the accepted segments are all consumed exactly when none is left in the queue. -/
theorem Accounted.sent_subset_iff (h : Accounted b) (hend : b.sinkTask = .ended) :
    (∀ seg ∈ b.sent, seg ∈ b.consumed) ↔ b.queue = [] := by
  have hsent : b.sent = b.consumed ++ b.queue := by
    have hd := h.balanced.delivered
    simpa [Branch.ledger, hend, SinkTask.uploadingSegs, SinkTask.finishingSegs] using hd
  have hnodup : b.sent.Nodup := by
    refine (List.Pairwise.imp (fun hlt heq => ?_) h.increasing).sublist
      ((List.sublist_append_left _ _).trans h.balanced.order)
    exact hlt.ne (congrArg TsSegment.sequence heq)
  rw [hsent] at hnodup ⊢
  constructor
  · intro hall
    refine List.eq_nil_iff_forall_not_mem.mpr fun seg hseg => ?_
    exact List.disjoint_of_nodup_append hnodup (hall seg (List.mem_append_right _ hseg)) hseg
  · intro hq seg hseg
    rwa [hq, List.append_nil] at hseg

/-- When the sink's task has ended, every segment the channel accepted has been consumed exactly when the
sink drained the queue before leaving and nothing was accepted afterwards. -/
theorem sent_consumed_iff (streams : List AvCodecId) (cfg : SegmentConfig) (acts : List BranchAction)
    (b : Branch) (hrun : run Branch.step (Branch.initial streams cfg) acts = some b)
    (hend : b.sinkTask = .ended) :
    (∀ seg ∈ b.sent, seg ∈ b.consumed)
      ↔ EachStep Branch.step DrainsBeforeLeaving (Branch.initial streams cfg) acts := by
  have hacc : Accounted b :=
    run_invariant (C := fun _ _ => True) (fun b a b' h _ hstep => h.step hstep)
      (accounted_initial streams cfg) (eachStep_trivial _ acts) hrun
  have hlast : QueueDrained b ↔ b.queue = [] := by simp [QueueDrained, hend, SinkTask.gone]
  rw [hacc.sent_subset_iff hend, ← hlast,
    ← always_iff_last (fun _ _ _ hstep => queueDrained_of_step hstep) hrun]
  exact always_iff_eachStep (I := fun _ => True) (fun _ _ _ _ _ => trivial)
    (fun _ _ _ _ h hstep => queueDrained_step h hstep) acts trivial (fun hgone => by cases hgone)

/-- One packet, then a shutdown in which the sink drains the last segment. -/
def drainedShutdown : List BranchAction :=
  [.packet .ok ⟨.h264, 0, .annexB [0x65], some 0, some 0, true, false, false, none⟩, .cancel, .leaveLoop,
   .close .ok, .list, .deliver, .recv, .upload true, .uploadPlaylist true, .sinkInputEnded, .dropReceiver]

theorem sent_consumed_drained :
    EachStep Branch.step DrainsBeforeLeaving (Branch.initial [.h264] ⟨1, 5⟩) drainedShutdown :=
  (sent_consumed_iff [.h264] ⟨1, 5⟩ drainedShutdown _ rfl rfl).mp (by decide)

/-- The final segment is accepted by the channel, then the sink takes the cancellation branch. -/
theorem final_segment_lost :
    ∃ b, run Branch.step (Branch.initial [.h264] ⟨1, 5⟩)
        [.packet .ok ⟨.h264, 0, .annexB [0x65], some 0, some 0, true, false, false, none⟩, .cancel, .leaveLoop,
         .close .ok, .list, .deliver, .sinkCancelled, .dropReceiver] = some b
      ∧ b.sinkTask = .ended
      ∧ b.sent.map (fun seg => (seg.filename, seg.isFinal)) = [("segment_0000.ts", true)]
      ∧ b.consumed = [] :=
  ⟨_, rfl, rfl, by decide, rfl⟩

end LivestreamRs.Hls
