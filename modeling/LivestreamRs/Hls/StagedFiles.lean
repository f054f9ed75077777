import LivestreamRs.Hls.Accounting
import LivestreamRs.Hls.Bookkeeping

/-! # The segment files waiting for their upload

A rollover stages a file, and only the sink removes it again, once it has uploaded it or given up. `max_staged_segments`
names a bound on the files in between that is not enforced: nothing reads it, and there are as many as the sink is behind.
The file of a segment that a full pad refused is not known to the sink, so it stays.
-/
namespace LivestreamRs.Hls
open Media Foundations
set_option autoImplicit false

/-- `SegmentConfig` with the bound on staged files. -/
structure StagingConfig extends SegmentConfig where
  maxStagedSegments : ℕ := 100

def Branch.uploadDir (b : Branch) : String → Option TsData := b.segmenter.workspace.uploadDir

/-- The segments whose file the sink has removed. -/
def Branch.removed (b : Branch) : List TsSegment := b.consumed ++ b.sinkTask.finishingSegs

/-- The segment files in the upload directory. -/
def Branch.stagedFiles (b : Branch) : List String :=
  (b.produced.map (·.filename)).filter fun f => (b.uploadDir f).isSome

/-- `send` returns `Full`. -/
def Branch.padFull (b : Branch) : Bool := b.sinkTask ≠ .ended && segmentQueueCapacity ≤ b.queue.length

/-! ## What a step does to the directory -/

/-- The file of the closed segment is staged, and nothing else. -/
def Stages (s s' : HlsSegmenter) : Option TsSegment → Prop
  | none => s'.workspace.uploadDir = s.workspace.uploadDir
  | some seg => ∃ data, s'.workspace.uploadDir = Function.update s.workspace.uploadDir seg.filename (some data)

theorem rollover_stages (s : HlsSegmenter) (o : Outcome) (d : ℕ) : Stages s (s.rollover o d).1 (s.rollover o d).2 := by
  obtain h | ⟨s', h, hbooks, -⟩ | ⟨s', h, hrolls⟩ := rollover_cases s o d
  · rw [h]
    exact rfl
  · rw [h]
    exact hbooks.uploadDir
  · rw [h]
    obtain ⟨data, -, hdir⟩ := hrolls.staged
    exact ⟨data, hdir⟩

theorem beginProcess_stages (s : HlsSegmenter) (o : Outcome) (pkt : EncodedPacket) :
    Stages s (s.beginProcess o pkt).1 (s.beginProcess o pkt).2.join := by
  unfold HlsSegmenter.beginProcess
  split
  · exact rfl
  · dsimp only
    split
    · have hstages := rollover_stages { s with segmenter := s.segmenter.observe pkt } o
        ((s.segmenter.observe pkt).elapsed.getD 0)
      split
      · next s' heq =>
        rw [heq] at hstages
        exact hstages
      · next s' seg heq =>
        rw [heq] at hstages
        exact hstages
    · exact (writePacketOrReset_keepsBooks { s with segmenter := s.segmenter.observe pkt } o pkt).1.uploadDir

theorem finishProcess_uploadDir (s : HlsSegmenter) (o : Outcome) (pkt : EncodedPacket) (seg : TsSegment) :
    (s.finishProcess o pkt seg).workspace.uploadDir = s.workspace.uploadDir :=
  (writePacketOrReset_keepsBooks _ o pkt).1.uploadDir.trans (listSegment_uploadDir _ o seg)

inductive DiskMove (b b' : Branch) : Prop
  | keep (hdir : b'.uploadDir = b.uploadDir) (hp : b'.produced = b.produced) (hr : b'.removed = b.removed)
  | stage (seg : TsSegment) (data : TsData) (hdir : b'.uploadDir = Function.update b.uploadDir seg.filename (some data))
      (hp : b'.produced = b.produced ++ [seg]) (hr : b'.removed = b.removed)
  | remove (seg : TsSegment) (hseg : b.ledger.uploading = [seg])
      (hdir : b'.uploadDir = Function.update b.uploadDir seg.filename none)
      (hp : b'.produced = b.produced) (hr : b'.removed = b.removed ++ [seg])

variable {b b' : Branch} {a : BranchAction}

theorem send_diskMove (b : Branch) (seg : TsSegment) (task : SegmenterTask) :
    DiskMove b { b.send seg with segmenterTask := task } := by
  unfold Branch.send
  split <;> exact .keep rfl rfl rfl

theorem SegmenterStep.diskMove (h : SegmenterStep b a b') : DiskMove b b' := by
  cases h with
  | @rolledOver o pkt s' seg htask hbegin =>
    have hstages := beginProcess_stages b.segmenter o pkt
    rw [hbegin] at hstages
    obtain ⟨data, hdir⟩ := hstages
    exact .stage seg data hdir rfl rfl
  | @processed o pkt s' r htask hbegin hr =>
    have hstages := beginProcess_stages b.segmenter o pkt
    rw [hbegin, hr] at hstages
    exact .keep hstages rfl rfl
  | @listed o pkt seg htask => exact .keep (finishProcess_uploadDir b.segmenter o pkt seg) rfl rfl
  | @lastListed o seg htask => exact .keep (listSegment_uploadDir b.segmenter o seg) rfl rfl
  | @delivered seg htask => exact send_diskMove b seg .receiving
  | @lastDelivered seg htask => exact send_diskMove b seg .ended
  | left htask => exact .keep rfl rfl rfl
  | @closed o s' htask hroll =>
    have hstages := rollover_stages b.segmenter o (b.segmenter.segmenter.elapsed.getD 0)
    rw [hroll] at hstages
    exact .keep hstages rfl rfl
  | @lastRolledOver o s' seg htask hroll =>
    have hstages := rollover_stages b.segmenter o (b.segmenter.segmenter.elapsed.getD 0)
    rw [hroll] at hstages
    obtain ⟨data, hdir⟩ := hstages
    exact .stage { seg with isFinal := true } data hdir rfl rfl

theorem SinkStep.diskMove (h : SinkStep b a b') : DiskMove b b' := by
  cases h with
  | received htask hqueue => exact .keep rfl rfl (by simp [Branch.removed, htask, SinkTask.finishingSegs])
  | @uploaded seg failed htask =>
    exact .remove seg (congrArg SinkTask.uploadingSegs htask) rfl rfl
      (by simp [Branch.removed, Branch.removeStaged, htask, SinkTask.finishingSegs])
  | retried htask => exact .keep rfl rfl (by simp [Branch.removed, htask, SinkTask.finishingSegs])
  | @gaveUp seg failed htask =>
    exact .remove seg (congrArg SinkTask.uploadingSegs htask) rfl rfl
      (by simp [Branch.removed, htask, SinkTask.finishingSegs])
  | finished htask => exact .keep rfl rfl (by simp [Branch.removed, htask, SinkTask.finishingSegs])
  | cancelled htask => exact .keep rfl rfl (by simp [Branch.removed, htask, SinkTask.finishingSegs])
  | inputEnded htask hqueue => exact .keep rfl rfl (by simp [Branch.removed, htask, SinkTask.finishingSegs])
  | dropped htask => exact .keep rfl rfl (by simp [Branch.removed, htask, SinkTask.finishingSegs])

theorem step_diskMove (h : b.step a = some b') : DiskMove b b' := by
  obtain ⟨rfl, rfl⟩ | ⟨rfl, rfl⟩ | h | h := Branch.step_cases h
  · exact .keep rfl rfl rfl
  · exact .keep rfl rfl rfl
  · exact h.diskMove
  · exact h.diskMove

/-! ## The files of a reachable state -/

/-- The directory holds the files of the produced segments but for those that were removed. -/
structure StagedExactly (b : Branch) : Prop extends Accounted b where
  staged : ∀ f, (b.uploadDir f).isSome = true ↔
    f ∈ b.produced.map (·.filename) ∧ f ∉ b.removed.map (·.filename)

theorem Accounted.nodup_filenames (h : Accounted b) : (b.produced.map (·.filename)).Nodup :=
  Multiset.coe_nodup.mp h.nodup_files

theorem Accounted.sent_sublist (h : Accounted b) : b.sent.Sublist b.produced :=
  (List.sublist_append_left _ _).trans h.balanced.order

theorem Accounted.removed_sublist_sent (h : Accounted b) : b.removed.Sublist b.sent := by
  have hdelivered : b.sent = b.consumed ++ b.sinkTask.uploadingSegs ++ b.sinkTask.finishingSegs ++ b.queue :=
    h.balanced.delivered
  rw [hdelivered, Branch.removed]
  exact (List.Sublist.append_right (List.sublist_append_left _ _) _).trans (List.sublist_append_left _ _)

theorem Accounted.removed_sublist (h : Accounted b) : b.removed.Sublist b.produced :=
  h.removed_sublist_sent.trans h.sent_sublist

theorem stagedExactly_initial (streams : List AvCodecId) (cfg : SegmentConfig) :
    StagedExactly (Branch.initial streams cfg) where
  toAccounted := accounted_initial streams cfg
  staged := fun f => iff_of_false (fun h => by cases h) fun h => List.not_mem_nil h.1

theorem StagedExactly.step (h : StagedExactly b) (hstep : b.step a = some b') : StagedExactly b' := by
  have haccounted := h.toAccounted.step hstep
  refine ⟨haccounted, fun f => ?_⟩
  cases step_diskMove hstep with
  | keep hdir hp hr =>
    rw [hdir, hp, hr]
    exact h.staged f
  | stage seg data hdir hp hr =>
    have hnodup := haccounted.nodup_filenames
    rw [hp, List.map_append, List.map_cons, List.map_nil] at hnodup
    have hfresh : seg.filename ∉ b.produced.map (·.filename) := fun hmem =>
      (List.nodup_append.mp hnodup).2.2 _ hmem _ (List.mem_singleton_self _) rfl
    have hfresh' : seg.filename ∉ b.removed.map (·.filename) := fun hmem =>
      hfresh ((h.removed_sublist.map _).subset hmem)
    rw [hdir, hp, hr, List.map_append, List.mem_append]
    by_cases hf : f = seg.filename
    · subst hf
      rw [Function.update_self]
      exact iff_of_true rfl ⟨.inr (List.mem_singleton_self _), hfresh'⟩
    · rw [Function.update_of_ne hf, h.staged f]
      simp [hf]
  | remove seg hseg hdir hp hr =>
    rw [hdir, hp, hr, List.map_append, List.mem_append]
    by_cases hf : f = seg.filename
    · subst hf
      rw [Function.update_self]
      exact iff_of_false (fun h => by cases h) fun h => h.2 (.inr (List.mem_singleton_self _))
    · rw [Function.update_of_ne hf, h.staged f]
      simp [hf]

theorem stagedExactly_of_run {streams : List AvCodecId} {cfg : SegmentConfig} {acts : List BranchAction}
    (hrun : run Branch.step (Branch.initial streams cfg) acts = some b) : StagedExactly b :=
  run_invariant (I := StagedExactly) (C := fun _ _ => True) (fun _ _ _ hs _ ht => hs.step ht)
    (stagedExactly_initial streams cfg) (eachStep_trivial _ _) hrun

/-- There are as many staged files as the sink is behind. -/
theorem StagedExactly.length_stagedFiles (h : StagedExactly b) :
    b.stagedFiles.length + b.removed.length = b.produced.length := by
  have hnodup := h.nodup_filenames
  have hremoved := h.removed_sublist.map (·.filename)
  have hkept : b.stagedFiles = (b.produced.map (·.filename)).filter fun f => !decide (f ∈ b.removed.map (·.filename)) := by
    refine List.filter_congr fun f hf => ?_
    rw [Bool.eq_iff_iff, h.staged f, Bool.not_eq_true', decide_eq_false_iff_not]
    exact and_iff_right hf
  have hgone : ((b.produced.map (·.filename)).filter fun f => decide (f ∈ b.removed.map (·.filename))).Perm
      (b.removed.map (·.filename)) := by
    rw [List.perm_ext_iff_of_nodup (hnodup.filter _) (hnodup.sublist hremoved)]
    intro f
    rw [List.mem_filter, decide_eq_true_eq]
    exact and_iff_right_of_imp fun hf => hremoved.subset hf
  have hsplit := List.length_eq_length_filter_add (l := b.produced.map (·.filename))
    fun f => decide (f ∈ b.removed.map (·.filename))
  rw [hgone.length_eq, List.length_map, List.length_map, ← hkept] at hsplit
  omega

/-! ## Segments that a full pad refused -/

/-- Produced, and neither sent nor about to be. -/
def Refused (seg : TsSegment) (b : Branch) : Prop := seg ∈ b.produced ∧ seg ∉ b.sent ∧ seg ∉ b.segmenterTask.hand

theorem Refused.step {seg : TsSegment} (h : Refused seg b) (haccounted : Accounted b) (hstep : b.step a = some b') :
    Refused seg b' := by
  obtain ⟨hmem, hsent, hhand⟩ := h
  have hnodup := (haccounted.step hstep).nodup_filenames.of_map
  have hmove := (step_move hstep).1
  have hmoved : ∀ l : Ledger, b.ledger.Move l → l.produced.Nodup → seg ∈ l.produced ∧ seg ∉ l.sent ∧ seg ∉ l.hand := by
    intro l hl hl'
    cases hl with
    | idle => exact ⟨hmem, hsent, hhand⟩
    | produce new _ =>
      have hne : seg ≠ new := (List.nodup_append.mp hl').2.2 seg hmem new (List.mem_singleton_self _)
      exact ⟨List.mem_append_left _ hmem, hsent, by simpa using hne⟩
    | accept new hnew =>
      have hne : seg ∉ [new] := hnew ▸ hhand
      exact ⟨hmem, List.not_mem_append hsent hne, List.not_mem_nil⟩
    | refuse new _ => exact ⟨hmem, hsent, List.not_mem_nil⟩
    | receive => exact ⟨hmem, hsent, hhand⟩
    | store => exact ⟨hmem, hsent, hhand⟩
    | giveUp => exact ⟨hmem, hsent, hhand⟩
    | finish => exact ⟨hmem, hsent, hhand⟩
  exact hmoved b'.ledger hmove hnodup

theorem Refused.staged {seg : TsSegment} (h : Refused seg b) (hstaged : StagedExactly b) :
    (b.uploadDir seg.filename).isSome = true := by
  refine (hstaged.staged _).mpr ⟨List.mem_map_of_mem h.1, fun hremoved => ?_⟩
  obtain ⟨seg', hseg', hname⟩ := List.mem_map.mp hremoved
  have hsent := hstaged.removed_sublist_sent.subset hseg'
  have hsame : seg' = seg :=
    List.inj_on_of_nodup_map hstaged.nodup_filenames (hstaged.sent_sublist.subset hsent) h.1 hname
  exact h.2.1 (hsame ▸ hsent)

/-- The pad refuses what it is sent when it is full. -/
theorem refused_of_padFull (hstaged : StagedExactly b) (hfull : b.padFull = true) (hstep : b.step .deliver = some b') :
    ∃ seg, b.segmenterTask.hand = [seg] ∧ Refused seg b' := by
  have hrefuses : b.accepts = false := by
    unfold Branch.padFull at hfull
    unfold Branch.accepts
    simp only [Bool.and_eq_true, decide_eq_true_eq] at hfull
    rw [Bool.and_eq_false_iff]
    exact .inr (by simpa using hfull.2)
  have hrefused : ∀ seg, b.segmenterTask.hand = [seg] → ∀ task : SegmenterTask, task.hand = [] →
      Refused seg { b.send seg with segmenterTask := task } := by
    intro seg hhand task htask
    have hproduced : (b.sent ++ b.segmenterTask.hand).Sublist b.produced := hstaged.balanced.order
    rw [hhand] at hproduced
    have hnodup := hstaged.nodup_filenames.of_map.sublist hproduced
    have hmem : seg ∈ b.produced := hproduced.subset (List.mem_append_right _ (List.mem_singleton_self seg))
    have hnew : seg ∉ b.sent := fun hsent =>
      (List.nodup_append.mp hnodup).2.2 seg hsent seg (List.mem_singleton_self _) rfl
    rw [Branch.send, hrefuses]
    exact ⟨hmem, hnew, by rw [htask]; exact List.not_mem_nil⟩
  obtain ⟨ha, -⟩ | ⟨ha, -⟩ | h | h := Branch.step_cases hstep
  · cases ha
  · cases ha
  · cases h with
    | @delivered seg htask =>
      have hhand := congrArg SegmenterTask.hand htask
      exact ⟨seg, hhand, hrefused seg hhand .receiving rfl⟩
    | @lastDelivered seg htask =>
      have hhand := congrArg SegmenterTask.hand htask
      exact ⟨seg, hhand, hrefused seg hhand .ended rfl⟩
  · cases h

def keyframeAt (t : ℤ) : EncodedPacket := ⟨.h264, 0, .annexB [0x65], some t, some t, true, false, false, none⟩

/-! ## No bound at all -/

/-- The segmenter waits for a packet, in a segment that began at the given time. -/
structure ReadyAt (b : Branch) (t : ℤ) : Prop where
  task : b.segmenterTask = .receiving
  ctx_open : b.segmenter.muxer.hlsCtx.isSome = true
  first : b.segmenter.segmenter.firstPts = some t

theorem beginProcess_keyframe {s : HlsSegmenter} {t : ℤ} (hopen : s.muxer.hlsCtx.isSome = true)
    (hfirst : s.segmenter.firstPts = some t) :
    ∃ s' seg, s.beginProcess .ok (keyframeAt (t + s.segmentDuration + 1)) = (s', some (some seg)) ∧
      s'.muxer.hlsCtx.isSome = true := by
  have hrolls : (s.segmenter.observe (keyframeAt (t + s.segmentDuration + 1))).shouldRollover s.segmentDuration
      (keyframeAt (t + s.segmentDuration + 1)) = true := by
    have hlater : t + s.segmentDuration + 1 > t := by omega
    have helapsed : (t + s.segmentDuration + 1 - t).toNat = s.segmentDuration + 1 := by omega
    simp [SegmentState.shouldRollover, SegmentState.observe, SegmentState.elapsed, keyframeAt, hfirst, hlater, helapsed]
  have hseq : (keyframeAt (t + s.segmentDuration + 1)).isSequenceHeader = false := rfl
  generalize keyframeAt (t + s.segmentDuration + 1) = pkt at hrolls hseq ⊢
  have hrollover := rollover_ok { s with segmenter := s.segmenter.observe pkt }
    ((s.segmenter.observe pkt).elapsed.getD 0) hopen
  refine ⟨HlsSegmenter.rolledOver { s with segmenter := s.segmenter.observe pkt },
    HlsSegmenter.nextSegment { s with segmenter := s.segmenter.observe pkt } ((s.segmenter.observe pkt).elapsed.getD 0),
    ?_, rfl⟩
  simp only [HlsSegmenter.beginProcess, hseq, hrolls, hrollover, if_true, if_false, Bool.false_eq_true]

theorem accept_ctx (m : HlsMuxerState) (idx : Option ℕ) (pkt : EncodedPacket) : (m.accept idx pkt).hlsCtx = m.hlsCtx := by
  cases idx <;> rfl

theorem finishProcess_ready {s : HlsSegmenter} (hopen : s.muxer.hlsCtx.isSome = true) (pkt : EncodedPacket)
    (seg : TsSegment) : (s.finishProcess .ok pkt seg).muxer.hlsCtx.isSome = true ∧
      (s.finishProcess .ok pkt seg).segmenter = .startWith pkt := by
  have hwrite := writePacketOrReset_ok
    (s := HlsSegmenter.listSegment { s with segmenter := .startWith pkt } .ok seg) hopen pkt
  rw [HlsSegmenter.finishProcess, hwrite]
  exact ⟨(congrArg Option.isSome (accept_ctx s.muxer _ pkt)).trans hopen, rfl⟩

/-- The first packet opens the first segment. -/
theorem exists_readyAt (streams : List AvCodecId) (cfg : SegmentConfig) (hdur : 0 < cfg.durationSecs) :
    ∃ b, run Branch.step (Branch.initial streams cfg) [.packet .ok (keyframeAt 0)] = some b ∧ ReadyAt b 0 ∧
      b.produced.length = 0 ∧ b.removed = [] := by
  let s : HlsSegmenter :=
    { HlsSegmenter.initial streams cfg with segmenter := ({} : SegmentState).observe (keyframeAt 0) }
  have hstays : (({} : SegmentState).observe (keyframeAt 0)).shouldRollover (1000 * cfg.durationSecs) (keyframeAt 0) =
      false := by
    have hpos : 1000 * cfg.durationSecs ≠ 0 := by omega
    simp [SegmentState.shouldRollover, SegmentState.observe, SegmentState.elapsed, keyframeAt, hpos]
  have hwrite := writePacketOrReset_ok (s := s) rfl (keyframeAt 0)
  have hbegin : (HlsSegmenter.initial streams cfg).beginProcess .ok (keyframeAt 0) =
      (s.writePacketOrReset .ok (keyframeAt 0), some none) := by
    change (if (({} : SegmentState).observe (keyframeAt 0)).shouldRollover (1000 * cfg.durationSecs) (keyframeAt 0) = true
      then _ else (s.writePacketOrReset .ok (keyframeAt 0), some none)) = _
    rw [hstays, if_neg Bool.false_ne_true]
  have hstep : (Branch.initial streams cfg).step (.packet .ok (keyframeAt 0)) =
      some { Branch.initial streams cfg with segmenter := s.writePacketOrReset .ok (keyframeAt 0) } := by
    have htask : (Branch.initial streams cfg).segmenterTask = .receiving := rfl
    have hsegmenter : (Branch.initial streams cfg).segmenter = HlsSegmenter.initial streams cfg := rfl
    simp only [Branch.step, Branch.stepSegmenter, htask, hsegmenter, hbegin, Option.some_or]
  refine ⟨_, run_cons.mpr ⟨_, hstep, rfl⟩, ⟨rfl, ?_, ?_⟩, rfl, rfl⟩
  · rw [hwrite]
    exact congrArg Option.isSome (accept_ctx s.muxer _ _)
  · rw [hwrite]
    rfl

/-- A key frame after the time of a segment closes it, and the sink need not do anything. -/
theorem ReadyAt.next {t : ℤ} (h : ReadyAt b t) :
    ∃ b', run Branch.step b
        [.packet .ok (keyframeAt (t + b.segmenter.segmentDuration + 1)), .list, .deliver] = some b' ∧
      ReadyAt b' (t + b.segmenter.segmentDuration + 1) ∧ b'.produced.length = b.produced.length + 1 ∧
      b'.removed = b.removed := by
  obtain ⟨s', seg, hbegin, hopen⟩ := beginProcess_keyframe h.ctx_open h.first
  have hpts : (keyframeAt (t + b.segmenter.segmentDuration + 1)).ptsMs = some (t + b.segmenter.segmentDuration + 1) := rfl
  generalize keyframeAt (t + b.segmenter.segmentDuration + 1) = pkt at hbegin hpts ⊢
  obtain ⟨hready, hstate⟩ := finishProcess_ready hopen pkt seg
  let staged : Branch :=
    { b with segmenter := s', segmenterTask := .staged .ok pkt seg, produced := b.produced ++ [seg] }
  let listed : Branch :=
    { staged with segmenter := s'.finishProcess .ok pkt seg, segmenterTask := .delivering seg }
  have hstage : b.step (.packet .ok pkt) = some staged := by
    simp only [Branch.step, Branch.stepSegmenter, h.task, hbegin, Option.some_or, staged]
  have hrun : run Branch.step b [.packet .ok pkt, .list, .deliver] =
      some { listed.send seg with segmenterTask := .receiving } :=
    run_cons.mpr ⟨staged, hstage, rfl⟩
  refine ⟨_, hrun, ?_⟩
  unfold Branch.send
  split
  · exact ⟨⟨rfl, hready, by rw [← hpts]; exact congrArg SegmentState.firstPts hstate⟩, by simp [listed, staged], rfl⟩
  · exact ⟨⟨rfl, hready, by rw [← hpts]; exact congrArg SegmentState.firstPts hstate⟩, by simp [listed, staged], rfl⟩

/-- However many files are asked for, there is a run that stages as many: nothing but the sink removes them. -/
theorem exists_run_staged (streams : List AvCodecId) (cfg : SegmentConfig) (hdur : 0 < cfg.durationSecs) (n : ℕ) :
    ∃ acts b, run Branch.step (Branch.initial streams cfg) acts = some b ∧ b.stagedFiles.length = n := by
  have hruns : ∃ acts b t, run Branch.step (Branch.initial streams cfg) acts = some b ∧ ReadyAt b t ∧
      b.produced.length = n ∧ b.removed = [] := by
    induction n with
    | zero =>
      obtain ⟨b, hrun, hready, hproduced, hremoved⟩ := exists_readyAt streams cfg hdur
      exact ⟨_, b, 0, hrun, hready, hproduced, hremoved⟩
    | succ n ih =>
      obtain ⟨acts, b, t, hrun, hready, hproduced, hremoved⟩ := ih
      obtain ⟨b', hnext, hready', hproduced', hremoved'⟩ := hready.next
      exact ⟨_, b', _, run_append.mpr ⟨b, hrun, hnext⟩, hready', by rw [hproduced', hproduced], hremoved'.trans hremoved⟩
  obtain ⟨acts, b, t, hrun, -, hproduced, hremoved⟩ := hruns
  have hlength := (stagedExactly_of_run hrun).length_stagedFiles
  rw [hremoved, List.length_nil, Nat.add_zero, hproduced] at hlength
  exact ⟨acts, b, hrun, hlength⟩

/-- Staged files are not bounded, whatever `max_staged_segments` is: as many as one likes can be staged. There are always
as many as the sink is behind, and the file of a segment that a full pad refused is there for the rest of the run. -/
theorem staging_unbounded (streams : List AvCodecId) (cfg : StagingConfig) (hdur : 0 < cfg.durationSecs) :
    (∀ n, ∃ acts b, run Branch.step (Branch.initial streams cfg.toSegmentConfig) acts = some b ∧
      b.stagedFiles.length = n) ∧
    ∀ acts b, run Branch.step (Branch.initial streams cfg.toSegmentConfig) acts = some b →
      b.stagedFiles.length + b.removed.length = b.produced.length ∧
      ∀ later c, b.padFull = true → run Branch.step b (.deliver :: later) = some c →
        ∃ seg, b.segmenterTask.hand = [seg] ∧ (c.uploadDir seg.filename).isSome = true := by
  refine ⟨exists_run_staged streams cfg.toSegmentConfig hdur, fun acts b hrun => ?_⟩
  have hstaged := stagedExactly_of_run hrun
  refine ⟨hstaged.length_stagedFiles, fun later c hfull hlater => ?_⟩
  obtain ⟨b', hdeliver, hafter⟩ := run_cons.mp hlater
  obtain ⟨seg, hhand, hrefused⟩ := refused_of_padFull hstaged hfull hdeliver
  obtain ⟨hstaged', hstays⟩ := run_invariant (I := fun b => StagedExactly b ∧ Refused seg b) (C := fun _ _ => True)
    (fun s a t hs _ ht => ⟨hs.1.step ht, hs.2.step hs.1.toAccounted ht⟩) ⟨hstaged.step hdeliver, hrefused⟩
    (eachStep_trivial _ _) hafter
  exact ⟨seg, hhand, hstays.staged hstaged'⟩

theorem staging_unbounded_two : ∃ acts b,
    run Branch.step (Branch.initial [.h264] ⟨1, 5⟩) acts = some b ∧ b.stagedFiles.length = 2 :=
  (staging_unbounded [.h264] ⟨⟨1, 5⟩, 1⟩ (by decide)).1 2

/-- With room for one file, two segments are closed before the sink takes the first. -/
theorem staging_exceeds_bound :
    ∃ acts b, run Branch.step (Branch.initial [.h264] (StagingConfig.mk ⟨1, 5⟩ 1).toSegmentConfig) acts = some b ∧
      b.stagedFiles = ["segment_0000.ts", "segment_0001.ts"] ∧
      (StagingConfig.mk ⟨1, 5⟩ 1).maxStagedSegments < b.stagedFiles.length := by
  have htwo : (run Branch.step (Branch.initial [.h264] ⟨1, 5⟩)
      [.packet .ok (keyframeAt 0), .packet .ok (keyframeAt 1000), .list, .deliver, .packet .ok (keyframeAt 2000)]).map
        Branch.stagedFiles = some ["segment_0000.ts", "segment_0001.ts"] := by decide +kernel
  obtain ⟨b, hrun, hfiles⟩ := Option.map_eq_some_iff.mp htwo
  exact ⟨_, b, hrun, hfiles, by rw [hfiles]; decide⟩

end LivestreamRs.Hls
