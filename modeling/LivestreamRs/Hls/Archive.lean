import LivestreamRs.Foundations.KeyedLog
import LivestreamRs.Hls.StagedFiles

/-! # What the bucket holds

The HLS branch with the contents of what it uploads: `MinIoSink::consume` puts the staged file of a segment under the
segment's key, as the file is at that moment. Whatever fails on the way from the packets to the bucket, the objects hold
packets the segmenter was given, each at most once and in their order; and where nothing fails, all of them.
-/
namespace LivestreamRs.Hls
open Media Foundations
set_option autoImplicit false

/-! ## Model -/

structure Archive where
  branch : Branch
  -- the segments in the bucket, in the order they were put there
  objects : List (String × TsData) := []
  -- history: the packets the segmenter has received
  received : List EncodedPacket := []

def Archive.initial (streams : List AvCodecId) (cfg : SegmentConfig) : Archive where
  branch := .initial streams cfg

def BranchAction.given : BranchAction → List EncodedPacket
  | .packet _ pkt => [pkt]
  | _ => []

/-- A step of the branch; an upload succeeds only if there is a file to read. -/
def Archive.step (r : Archive) (a : BranchAction) : Option Archive :=
  match r.branch.step a with
  | none => none
  | some b =>
    let received := r.received ++ a.given
    match a, r.branch.sinkTask with
    | .upload true, .uploading seg _ =>
      (r.branch.uploadDir seg.filename).map fun data => ⟨b, r.objects ++ [(seg.filename, data)], received⟩
    | _, _ => some ⟨b, r.objects, received⟩

def mediaOf (files : List (String × TsData)) : List EncodedPacket := files.flatMap fun file => TsData.packets file.2

/-! ## What a call does to the packets it has -/

variable {s s' : HlsSegmenter} {o : Outcome} {pkt : EncodedPacket}

def HlsSegmenter.buffered (s : HlsSegmenter) : List EncodedPacket := s.muxer.tsBuffer.packets

/-- The packet, if its codec has a muxer stream. -/
def HlsSegmenter.routed (s : HlsSegmenter) (pkt : EncodedPacket) : List EncodedPacket :=
  if (s.codecStreamIndex pkt.codec).isSome then [pkt] else []

theorem writePacketOrReset_buffered (s : HlsSegmenter) (o : Outcome) (pkt : EncodedPacket) :
    (s.writePacketOrReset o pkt).buffered.Sublist (s.buffered ++ s.routed pkt) := by
  obtain ⟨m, -, ⟨heq, hbuffer⟩ | ⟨heq, hbuffer⟩⟩ := writePacketOrReset_cases s o pkt
  · rw [heq, HlsSegmenter.buffered, hbuffer]
    exact List.Sublist.refl _
  · rw [heq, HlsSegmenter.buffered, hbuffer]
    exact List.nil_sublist _

theorem writePacketOrReset_buffered_ok (h : s.muxer.hlsCtx.isSome = true) (pkt : EncodedPacket) :
    (s.writePacketOrReset .ok pkt).buffered = s.buffered ++ s.routed pkt ∧
      (s.writePacketOrReset .ok pkt).muxer.hlsCtx.isSome = true := by
  rw [writePacketOrReset_ok h]
  unfold HlsSegmenter.buffered HlsSegmenter.routed HlsMuxerState.accept
  cases s.codecStreamIndex pkt.codec with
  | none => exact ⟨(List.append_nil _).symm, h⟩
  | some idx => exact ⟨packets_append _ _, h⟩

/-- A rollover that fails leaves the buffer as it is or has emptied it. -/
theorem rollover_failed_buffered {d : ℕ} (h : s.rollover o d = (s', none)) : s'.buffered.Sublist s.buffered := by
  have htaken : (s.takeSegment o).1.buffered.Sublist s.buffered := by
    unfold HlsSegmenter.takeSegment
    split
    · exact List.Sublist.refl _
    · dsimp only
      split <;> exact List.nil_sublist _
  have hsame : s'.muxer = (s.takeSegment o).1.muxer := by
    unfold HlsSegmenter.rollover at h
    split at h
    · next heq => rw [heq, (Prod.mk.inj h).1]
    · next heq =>
      rw [heq]
      split at h
      · rw [← (Prod.mk.inj h).1]
      · dsimp only at h
        split at h
        · rw [← (Prod.mk.inj h).1]
        · cases h
  rw [HlsSegmenter.buffered, hsame]
  exact htaken

/-- A rollover that closes a segment stages what was buffered, under the segment's name. -/
structure Closing (s s' : HlsSegmenter) (seg : TsSegment) (data : TsData) : Prop where
  packets : TsData.packets data = s.buffered
  buffered : s'.buffered = []
  codecs : s'.codecStreamIndex = s.codecStreamIndex
  uploadDir : s'.workspace.uploadDir = Function.update s.workspace.uploadDir seg.filename (some data)

theorem rollover_closing {d : ℕ} {seg : TsSegment} (h : s.rollover o d = (s', some seg)) :
    ∃ data, Closing s s' seg data := by
  obtain heq | ⟨t, heq, -⟩ | ⟨t, heq, hrolls⟩ := rollover_cases s o d <;> rw [heq] at h
  · cases h
  · cases h
  · obtain ⟨rfl, hseg⟩ := Prod.mk.inj h
    obtain rfl := Option.some.inj hseg
    obtain ⟨data, hdata, hdir⟩ := hrolls.staged
    exact ⟨data, hdata, hrolls.buffer, hrolls.codecs, hdir⟩

theorem rollover_failed_books {d : ℕ} (h : s.rollover o d = (s', none)) :
    s'.codecStreamIndex = s.codecStreamIndex ∧ s'.workspace.uploadDir = s.workspace.uploadDir := by
  obtain heq | ⟨t, heq, hbooks, -⟩ | ⟨t, heq, -⟩ := rollover_cases s o d <;> rw [heq] at h
  · obtain ⟨rfl, -⟩ := Prod.mk.inj h
    exact ⟨rfl, rfl⟩
  · obtain ⟨rfl, -⟩ := Prod.mk.inj h
    exact ⟨hbooks.codecs, hbooks.uploadDir⟩
  · cases h

theorem beginProcess_cases (s : HlsSegmenter) (o : Outcome) (pkt : EncodedPacket) :
    (pkt.isSequenceHeader = true ∧ s.beginProcess o pkt = (s, some none)) ∨
    (pkt.isSequenceHeader = false ∧ s.beginProcess o pkt = ((s.observed pkt).writePacketOrReset o pkt, some none)) ∨
    (pkt.isSequenceHeader = false ∧ ∃ s' d, (s.observed pkt).rollover o d = (s', none) ∧
      s.beginProcess o pkt = (s', none)) ∨
    (pkt.isSequenceHeader = false ∧ ∃ s' d seg, (s.observed pkt).rollover o d = (s', some seg) ∧
      s.beginProcess o pkt = (s', some (some seg))) := by
  cases hseq : pkt.isSequenceHeader with
  | true => exact .inl ⟨rfl, by simp [HlsSegmenter.beginProcess, hseq]⟩
  | false =>
    simp only [HlsSegmenter.beginProcess, hseq, Bool.false_eq_true, if_false, false_and, false_or, true_and]
    split
    · cases hroll : (s.observed pkt).rollover o ((s.segmenter.observe pkt).elapsed.getD 0) with
      | mk s' closed =>
        unfold HlsSegmenter.observed at hroll
        rw [hroll]
        cases closed with
        | none => exact .inr (.inl ⟨s', _, hroll, rfl⟩)
        | some seg => exact .inr (.inr ⟨s', _, seg, hroll, rfl⟩)
    · exact .inl rfl

/-! ## What a step does to them -/

/-- The packet that `process` has yet to write. -/
def SegmenterTask.pendingPacket : SegmenterTask → List EncodedPacket
  | .staged _ pkt _ => [pkt]
  | _ => []

/-- `close` has rolled over. -/
def SegmenterTask.isClosed : SegmenterTask → Bool
  | .lastStaged _ _ | .lastDelivering _ | .ended => true
  | _ => false

/-- The packets that are in no file yet. -/
def Branch.inWork (b : Branch) : List EncodedPacket :=
  b.segmenter.buffered ++ b.segmenterTask.pendingPacket.flatMap b.segmenter.routed

/-- Every call that the action makes of the muxer and the disk succeeds. -/
def BranchAction.Succeeds : BranchAction → Prop
  | .packet o _ | .close o => o = .ok
  | _ => True

/-- Nothing has failed so far. -/
structure Intact (b : Branch) : Prop where
  ctx : b.segmenter.muxer.hlsCtx.isSome = true
  staged : ∀ o pkt seg, b.segmenterTask = .staged o pkt seg → o = .ok
  closed : b.segmenterTask.isClosed = true → b.segmenter.buffered = []

/-- A step adds `files` to the upload directory. What is filed and what is in work comes from what was in work and what
the step is given; nothing is dropped where nothing fails. -/
structure Carries (b : Branch) (a : BranchAction) (b' : Branch) (files : List (String × TsData)) : Prop where
  names : b'.produced.map (·.filename) = b.produced.map (·.filename) ++ files.map Prod.fst
  dir : ∀ f data, b'.uploadDir f = some data → b.uploadDir f = some data ∨ (f, data) ∈ files
  codecs : b'.segmenter.codecStreamIndex = b.segmenter.codecStreamIndex
  sub : (mediaOf files ++ b'.inWork).Sublist (b.inWork ++ a.given.filter b.segmenter.keeps)
  exact : Intact b → a.Succeeds → mediaOf files ++ b'.inWork = b.inWork ++ a.given.filter b.segmenter.keeps ∧ Intact b'

section Steps
variable {b b' : Branch} {a : BranchAction}

theorem filter_keeps (hseq : pkt.isSequenceHeader = false) : [pkt].filter s.keeps = s.routed pkt := by
  unfold HlsSegmenter.routed
  cases h : (s.codecStreamIndex pkt.codec).isSome <;> simp [HlsSegmenter.keeps, hseq, h]

theorem routed_congr (h : s'.codecStreamIndex = s.codecStreamIndex) : s'.routed = s.routed := by
  funext pkt
  rw [HlsSegmenter.routed, HlsSegmenter.routed, h]

theorem inWork_of_pendingPacket (h : b.segmenterTask.pendingPacket = []) : b.inWork = b.segmenter.buffered := by
  rw [Branch.inWork, h]
  exact List.append_nil _

/-- The packets are where they were. -/
theorem carries_same (hs : b'.segmenter.muxer = b.segmenter.muxer)
    (hcodecs : b'.segmenter.codecStreamIndex = b.segmenter.codecStreamIndex) (hgiven : a.given = [])
    (hp : b'.produced = b.produced) (hdir : ∀ f data, b'.uploadDir f = some data → b.uploadDir f = some data)
    (hpending : b'.segmenterTask.pendingPacket = b.segmenterTask.pendingPacket)
    (hstaged : ∀ o pkt seg, b'.segmenterTask = .staged o pkt seg → b.segmenterTask = .staged o pkt seg)
    (hclosed : b'.segmenterTask.isClosed = true → b.segmenterTask.isClosed = true) : Carries b a b' [] := by
  have hsame : mediaOf [] ++ b'.inWork = b.inWork ++ a.given.filter b.segmenter.keeps := by
    rw [hgiven, Branch.inWork, Branch.inWork, hpending, routed_congr hcodecs, HlsSegmenter.buffered, hs]
    exact (List.append_nil _).symm
  refine ⟨?_, fun f data h => .inl (hdir f data h), hcodecs, hsame ▸ List.Sublist.refl _, fun h _ => ⟨hsame, ?_, ?_, ?_⟩⟩
  · rw [hp]
    exact (List.append_nil _).symm
  · rw [hs]
    exact h.ctx
  · exact fun o pkt seg htask => h.staged o pkt seg (hstaged o pkt seg htask)
  · intro htask
    rw [HlsSegmenter.buffered, hs]
    exact h.closed (hclosed htask)

theorem carries_send (seg : TsSegment) {task : SegmenterTask}
    (hpending : task.pendingPacket = b.segmenterTask.pendingPacket) (hstaged : ∀ o pkt seg, task ≠ .staged o pkt seg)
    (hclosed : task.isClosed = true → b.segmenterTask.isClosed = true) :
    Carries b .deliver { b.send seg with segmenterTask := task } [] := by
  unfold Branch.send
  split <;> exact carries_same rfl rfl rfl rfl (fun _ _ h => h) hpending
    (fun o pkt seg h => absurd h (hstaged o pkt seg)) hclosed

/-- No file is closed, and `process` is through with the packet it was given. -/
theorem carries_written (hcodecs : b'.segmenter.codecStreamIndex = b.segmenter.codecStreamIndex)
    (hp : b'.produced = b.produced) (hdir : b'.uploadDir = b.uploadDir)
    (hpending : b'.segmenterTask.pendingPacket = [])
    (hsub : b'.segmenter.buffered.Sublist (b.inWork ++ a.given.filter b.segmenter.keeps))
    (hexact : Intact b → a.Succeeds → b'.segmenter.buffered = b.inWork ++ a.given.filter b.segmenter.keeps ∧
      b'.segmenter.muxer.hlsCtx.isSome = true ∧ b'.segmenterTask.isClosed = false) : Carries b a b' [] := by
  have hwork : mediaOf [] ++ b'.inWork = b'.segmenter.buffered := inWork_of_pendingPacket hpending
  refine ⟨?_, fun f data h => .inl (hdir ▸ h), hcodecs, hwork ▸ hsub, fun h ha => ?_⟩
  · rw [hp]
    exact (List.append_nil _).symm
  · obtain ⟨hbuffered, hctx, hopen⟩ := hexact h ha
    refine ⟨hwork.trans hbuffered, hctx, fun o pkt seg htask => ?_, fun hclosed => ?_⟩
    · rw [htask] at hpending
      cases hpending
    · rw [hopen] at hclosed
      cases hclosed

/-- A file is closed; the packet that triggered it, if any, is in work. -/
theorem carries_closed {seg seg' : TsSegment} {data : TsData} (hclosing : Closing b.segmenter b'.segmenter seg data)
    (hp : b'.produced = b.produced ++ [seg']) (hname : seg'.filename = seg.filename)
    (hpending : b.segmenterTask.pendingPacket = [])
    (hgiven : b'.segmenterTask.pendingPacket.flatMap b.segmenter.routed = a.given.filter b.segmenter.keeps)
    (hexact : Intact b → a.Succeeds → b'.segmenter.muxer.hlsCtx.isSome = true ∧
      ∀ o pkt seg, b'.segmenterTask = .staged o pkt seg → o = .ok) :
    Carries b a b' [(seg.filename, data)] := by
  have hwork : mediaOf [(seg.filename, data)] ++ b'.inWork = b.inWork ++ a.given.filter b.segmenter.keeps := by
    rw [inWork_of_pendingPacket hpending, Branch.inWork, hclosing.buffered, routed_congr hclosing.codecs, hgiven,
      List.nil_append]
    exact congrArg (· ++ _) ((List.append_nil _).trans hclosing.packets)
  refine ⟨?_, fun f content h => ?_, hclosing.codecs, hwork ▸ List.Sublist.refl _, fun h ha => ?_⟩
  · rw [hp, List.map_append, List.map_singleton, hname]
    rfl
  · have hdir : b'.uploadDir = Function.update b.uploadDir seg.filename (some data) := hclosing.uploadDir
    rw [hdir] at h
    by_cases hf : f = seg.filename
    · subst hf
      rw [Function.update_self] at h
      exact .inr (List.mem_singleton.mpr (congrArg _ (Option.some.inj h).symm))
    · rw [Function.update_of_ne hf] at h
      exact .inl h
  · obtain ⟨hctx, hstaged⟩ := hexact h ha
    exact ⟨hwork, hctx, hstaged, fun _ => hclosing.buffered⟩

/-- The packet is written by a segmenter with the same buffer, or what was buffered is dropped. -/
theorem carries_write (hmuxer : s.muxer = b.segmenter.muxer)
    (hcodecs : s.codecStreamIndex = b.segmenter.codecStreamIndex) (hdir : s.workspace.uploadDir = b.uploadDir)
    (hs : b'.segmenter = s.writePacketOrReset o pkt) (hp : b'.produced = b.produced)
    (hpending : b'.segmenterTask.pendingPacket = []) (hopen : b'.segmenterTask.isClosed = false)
    (hwork : b.inWork ++ a.given.filter b.segmenter.keeps = s.buffered ++ s.routed pkt)
    (hok : Intact b → a.Succeeds → o = .ok) : Carries b a b' [] := by
  have hbooks := (writePacketOrReset_keepsBooks s o pkt).1
  refine carries_written ?_ hp ?_ hpending ?_ fun hintact ha => ?_
  · rw [hs, hbooks.codecs, hcodecs]
  · rw [Branch.uploadDir, hs, hbooks.uploadDir, hdir]
  · rw [hs, hwork]
    exact writePacketOrReset_buffered s o pkt
  · obtain rfl := hok hintact ha
    have hctx : s.muxer.hlsCtx.isSome = true := hmuxer ▸ hintact.ctx
    obtain ⟨hbuffered, hctx'⟩ := writePacketOrReset_buffered_ok hctx pkt
    rw [hs, hwork]
    exact ⟨hbuffered, hctx', hopen⟩

/-- A rollover of a segmenter with the same buffer fails, which it does only where one of its calls does. -/
theorem carries_failed {d : ℕ} (hmuxer : s.muxer = b.segmenter.muxer)
    (hcodecs : s.codecStreamIndex = b.segmenter.codecStreamIndex) (hdir : s.workspace.uploadDir = b.uploadDir)
    (hroll : s.rollover o d = (b'.segmenter, none)) (hp : b'.produced = b.produced)
    (hbefore : b.segmenterTask.pendingPacket = []) (hpending : b'.segmenterTask.pendingPacket = [])
    (hok : Intact b → a.Succeeds → o = .ok) : Carries b a b' [] := by
  obtain ⟨hcodecs', hdir'⟩ := rollover_failed_books hroll
  refine carries_written (hcodecs'.trans hcodecs) hp (hdir'.trans hdir) hpending ?_ fun hintact ha => ?_
  · have hbuffered : s.buffered = b.segmenter.buffered := by
      rw [HlsSegmenter.buffered, HlsSegmenter.buffered, hmuxer]
    rw [inWork_of_pendingPacket hbefore, ← hbuffered]
    exact (rollover_failed_buffered hroll).trans (List.sublist_append_left _ _)
  · obtain rfl := hok hintact ha
    have hctx : s.muxer.hlsCtx.isSome = true := hmuxer ▸ hintact.ctx
    rw [rollover_ok s d hctx] at hroll
    cases (Prod.mk.inj hroll).2

theorem rollover_closing_ctx {d : ℕ} {seg : TsSegment} (hctx : s.muxer.hlsCtx.isSome = true)
    (h : s.rollover .ok d = (s', some seg)) : s'.muxer.hlsCtx.isSome = true := by
  rw [rollover_ok s d hctx] at h
  obtain ⟨rfl, -⟩ := Prod.mk.inj h
  rfl

theorem SegmenterStep.carries (h : SegmenterStep b a b') : ∃ files, Carries b a b' files := by
  cases h with
  | @rolledOver o pkt s' seg htask hbegin =>
    obtain ⟨-, heq⟩ | ⟨-, heq⟩ | ⟨-, _, _, -, heq⟩ | ⟨hseq, s'', d, seg', hroll, heq⟩ :=
      beginProcess_cases b.segmenter o pkt <;> rw [heq] at hbegin
    · cases hbegin
    · cases hbegin
    · cases hbegin
    · cases hbegin
      obtain ⟨data, hclosing⟩ := rollover_closing hroll
      have hclosing' : Closing b.segmenter s' seg data :=
        ⟨hclosing.packets, hclosing.buffered, hclosing.codecs, hclosing.uploadDir⟩
      refine ⟨_, carries_closed hclosing' rfl rfl (by rw [htask]; rfl) ?_ ?_⟩
      · exact (List.append_nil _).trans (filter_keeps hseq).symm
      · rintro hintact rfl
        exact ⟨rollover_closing_ctx (s := b.segmenter.observed pkt) hintact.ctx hroll, fun o pkt seg h => by cases h; rfl⟩
  | @processed o pkt s' r htask hbegin hr =>
    have hpending : b.segmenterTask.pendingPacket = [] := by rw [htask]; rfl
    have hopen : b.segmenterTask.isClosed = false := by rw [htask]; rfl
    have hwork := inWork_of_pendingPacket hpending
    obtain ⟨hseq, heq⟩ | ⟨hseq, heq⟩ | ⟨-, s'', d, hroll, heq⟩ | ⟨-, _, _, seg, -, heq⟩ :=
      beginProcess_cases b.segmenter o pkt <;> rw [heq] at hbegin <;> cases hbegin
    · -- a sequence header is passed over
      have hskipped : [pkt].filter b.segmenter.keeps = [] := by simp [HlsSegmenter.keeps, hseq]
      have hsame : b.segmenter.buffered = b.inWork ++ [pkt].filter b.segmenter.keeps := by
        rw [hskipped, List.append_nil, hwork]
      exact ⟨[], carries_written rfl rfl rfl hpending (hsame ▸ List.Sublist.refl _)
        fun hintact _ => ⟨hsame, hintact.ctx, hopen⟩⟩
    · have hrouted : b.inWork ++ [pkt].filter b.segmenter.keeps =
          (b.segmenter.observed pkt).buffered ++ (b.segmenter.observed pkt).routed pkt := by
        rw [hwork, filter_keeps hseq]
        rfl
      exact ⟨[], carries_write (s := b.segmenter.observed pkt) rfl rfl rfl rfl rfl hpending hopen hrouted
        fun _ ha => ha⟩
    · exact ⟨[], carries_failed (s := b.segmenter.observed pkt) rfl rfl rfl hroll rfl hpending hpending fun _ ha => ha⟩
    · cases hr
  | @listed o pkt seg htask =>
    let listing : HlsSegmenter := HlsSegmenter.listSegment { b.segmenter with segmenter := .startWith pkt } o seg
    have hwork : b.inWork ++ BranchAction.list.given.filter b.segmenter.keeps =
        listing.buffered ++ listing.routed pkt := by
      rw [Branch.inWork, htask]
      exact (List.append_nil _).trans (congrArg (_ ++ ·) (List.append_nil _))
    exact ⟨[], carries_write (s := listing) rfl rfl (listSegment_uploadDir _ o seg) rfl rfl rfl rfl hwork
      fun hintact _ => hintact.staged o pkt seg htask⟩
  | @lastListed o seg htask =>
    exact ⟨[], carries_same rfl rfl rfl rfl
      (fun f data h => (congrFun (listSegment_uploadDir b.segmenter o seg) f).symm.trans h)
      (by rw [htask]; rfl) (fun o pkt seg h => by cases h) fun _ => by rw [htask]; rfl⟩
  | @delivered seg htask =>
    exact ⟨[], carries_send seg (by rw [htask]; rfl) (fun o pkt seg h => by cases h) fun h => by cases h⟩
  | @lastDelivered seg htask =>
    exact ⟨[], carries_send seg (by rw [htask]; rfl) (fun o pkt seg h => by cases h) fun _ => by rw [htask]; rfl⟩
  | left htask =>
    exact ⟨[], carries_same rfl rfl rfl rfl (fun f data h => h) (by rw [htask]; rfl) (fun o pkt seg h => by cases h)
      fun h => by cases h⟩
  | @closed o s' htask hroll =>
    exact ⟨[], carries_failed rfl rfl rfl hroll rfl (by rw [htask]; rfl) rfl fun _ ha => ha⟩
  | @lastRolledOver o s' seg htask hroll =>
    obtain ⟨data, hclosing⟩ := rollover_closing hroll
    refine ⟨_, carries_closed hclosing rfl rfl (by rw [htask]; rfl) rfl ?_⟩
    rintro hintact rfl
    exact ⟨rollover_closing_ctx hintact.ctx hroll, fun o pkt seg h => by cases h⟩

theorem removeStaged_uploadDir (b : Branch) (seg : TsSegment) {f : String} {data : TsData}
    (h : (b.removeStaged seg).uploadDir f = some data) : b.uploadDir f = some data := by
  change Function.update b.uploadDir seg.filename none f = some data at h
  by_cases hf : f = seg.filename
  · rw [hf, Function.update_self] at h
    cases h
  · rwa [Function.update_of_ne hf] at h

theorem SinkStep.carries (h : SinkStep b a b') : Carries b a b' [] := by
  cases h with
  | @uploaded seg failed htask =>
    exact carries_same rfl rfl rfl rfl (fun f data => removeStaged_uploadDir b seg) rfl (fun _ _ _ h => h) fun h => h
  | @gaveUp seg failed htask =>
    exact carries_same rfl rfl rfl rfl (fun f data => removeStaged_uploadDir b seg) rfl (fun _ _ _ h => h) fun h => h
  | _ => exact carries_same rfl rfl rfl rfl (fun _ _ h => h) rfl (fun _ _ _ h => h) fun h => h

theorem step_carries (h : b.step a = some b') : ∃ files, Carries b a b' files := by
  obtain ⟨rfl, rfl⟩ | ⟨rfl, rfl⟩ | h | h := Branch.step_cases h
  · exact ⟨[], carries_same rfl rfl rfl rfl (fun _ _ h => h) rfl (fun _ _ _ h => h) fun h => h⟩
  · exact ⟨[], carries_same rfl rfl rfl rfl (fun _ _ h => h) rfl (fun _ _ _ h => h) fun h => h⟩
  · exact h.carries
  · exact ⟨[], h.carries⟩

end Steps

/-! ## The bucket over a run -/

theorem Ledger.Move.uploaded_sublist {l l' : Ledger} (h : l.Move l')
    (hl : l.uploaded.Sublist ((l.consumed ++ l.finishing).map (·.filename))) :
    l'.uploaded.Sublist ((l'.consumed ++ l'.finishing).map (·.filename)) := by
  cases h with
  | store seg hu hf =>
    rw [hf, List.append_nil] at hl
    rw [List.map_append]
    exact hl.append_right _
  | giveUp seg hu hf =>
    rw [hf, List.append_nil] at hl
    simp only [hf, List.append_nil, List.map_append]
    exact hl.trans (List.sublist_append_left _ _)
  | finish seg hu hf =>
    rw [hf] at hl
    rw [List.append_nil]
    exact hl
  | _ => exact hl

/-- The file of a segment is there as long as the sink tries to upload it. -/
theorem StagedExactly.isSome_of_uploading {b : Branch} {seg : TsSegment} {failed : ℕ} (h : StagedExactly b)
    (htask : b.sinkTask = .uploading seg failed) : (b.uploadDir seg.filename).isSome = true := by
  have hsent : b.sent = b.consumed ++ b.sinkTask.uploadingSegs ++ b.sinkTask.finishingSegs ++ b.queue :=
    h.balanced.delivered
  rw [htask] at hsent
  have hnodup := h.nodup_filenames.sublist (h.sent_sublist.map _)
  rw [hsent] at hnodup
  have hmem : seg ∈ b.sent := by simp [hsent, SinkTask.uploadingSegs]
  refine (h.staged _).mpr ⟨List.mem_map_of_mem (h.sent_sublist.subset hmem), fun hremoved => ?_⟩
  rw [Branch.removed, htask] at hremoved
  simp only [SinkTask.uploadingSegs, SinkTask.finishingSegs, List.append_nil, List.map_append, List.map_singleton]
    at hnodup hremoved
  have hdisjoint := (List.nodup_append.mp (List.nodup_append.mp hnodup).1).2.2
  exact hdisjoint _ hremoved _ (List.mem_singleton_self _) rfl

/-- What a step does to the objects, and that the branch takes it. -/
inductive Archive.Stores (r r' : Archive) : Prop
  | keep (hobjects : r'.objects = r.objects) (hkeys : r'.branch.store.segments = r.branch.store.segments)
  | put (seg : TsSegment) (data : TsData) (hfile : r.branch.uploadDir seg.filename = some data)
      (hobjects : r'.objects = r.objects ++ [(seg.filename, data)])
      (hkeys : r'.branch.store.segments = r.branch.store.segments ++ [seg.filename])

theorem step_segments {b b' : Branch} {a : BranchAction} (h : b.step a = some b') :
    (∃ seg failed, a = .upload true ∧ b.sinkTask = .uploading seg failed ∧
      b'.store.segments = b.store.segments ++ [seg.filename]) ∨
    (a ≠ .upload true ∧ b'.store.segments = b.store.segments) := by
  obtain ⟨rfl, rfl⟩ | ⟨rfl, rfl⟩ | h | h := Branch.step_cases h
  · exact .inr ⟨by simp, rfl⟩
  · exact .inr ⟨by simp, rfl⟩
  · refine .inr ⟨?_, by rw [h.effect.store]⟩
    cases h <;> simp
  · cases h with
    | @uploaded seg failed htask => exact .inl ⟨seg, failed, rfl, htask, rfl⟩
    | @finished ok seg htask => exact .inr ⟨by simp, by cases ok <;> rfl⟩
    | _ => exact .inr ⟨by simp, rfl⟩

/-- The archive takes every step of its branch. -/
theorem Archive.exists_step {r : Archive} {a : BranchAction} {b : Branch} (hstaged : StagedExactly r.branch)
    (h : r.branch.step a = some b) :
    ∃ r', r.step a = some r' ∧ r'.branch = b ∧ r'.received = r.received ++ a.given ∧ r.Stores r' := by
  obtain ⟨seg, failed, rfl, htask, hkeys⟩ | ⟨ha, hkeys⟩ := step_segments h
  · obtain ⟨data, hdata⟩ := Option.isSome_iff_exists.mp (hstaged.isSome_of_uploading htask)
    refine ⟨⟨b, r.objects ++ [(seg.filename, data)], r.received ++ []⟩, ?_, rfl, rfl, .put seg data hdata rfl hkeys⟩
    simp only [Archive.step, h, htask, hdata, Option.map_some, BranchAction.given]
  · refine ⟨⟨b, r.objects, r.received ++ a.given⟩, ?_, rfl, rfl, .keep rfl hkeys⟩
    unfold Archive.step
    rw [h]
    dsimp only
    split
    · exact absurd rfl ha
    · rfl

/-- The files that were staged, by name and content, and the objects among them. -/
structure Filed (r : Archive) (files : List (String × TsData)) : Prop where
  names : files.map Prod.fst = r.branch.produced.map (·.filename)
  dir : ∀ f data, r.branch.uploadDir f = some data → (f, data) ∈ files
  keys : r.objects.map Prod.fst = r.branch.store.segments
  objects : ∀ object ∈ r.objects, object ∈ files

theorem Filed.step {r r' : Archive} {a : BranchAction} {files new : List (String × TsData)} (h : Filed r files)
    (hstores : r.Stores r') (hcarries : Carries r.branch a r'.branch new) : Filed r' (files ++ new) := by
  have hold : ∀ object ∈ r.objects, object ∈ files ++ new := fun object hmem =>
    List.mem_append_left _ (h.objects object hmem)
  have hnames : (files ++ new).map Prod.fst = r'.branch.produced.map (·.filename) := by
    rw [List.map_append, h.names, hcarries.names]
  have hdir : ∀ f data, r'.branch.uploadDir f = some data → (f, data) ∈ files ++ new := fun f data hf =>
    List.mem_append.mpr ((hcarries.dir f data hf).imp_left (h.dir f data))
  cases hstores with
  | keep hobjects hkeys => exact ⟨hnames, hdir, by rw [hobjects, hkeys, h.keys], by rw [hobjects]; exact hold⟩
  | put seg data hfile hobjects hkeys =>
    refine ⟨hnames, hdir, by rw [hobjects, hkeys, List.map_append, h.keys]; rfl, fun object hmem => ?_⟩
    rw [hobjects, List.mem_append, List.mem_singleton] at hmem
    obtain hmem | rfl := hmem
    · exact hold object hmem
    · exact List.mem_append_left _ (h.dir _ _ hfile)

/-- The state of an archive that was given packets of which the segmenter keeps those in `keeps`; `clean` says that no
call has failed. -/
structure Archived (clean : Prop) (keeps : EncodedPacket → Bool) (r : Archive) : Prop where
  staged : StagedExactly r.branch
  uploaded : r.branch.store.segments.Sublist (r.branch.removed.map (·.filename))
  keeps_eq : r.branch.segmenter.keeps = keeps
  filed : ∃ files, Filed r files ∧ (mediaOf files ++ r.branch.inWork).Sublist (r.received.filter keeps) ∧
    (clean → mediaOf files ++ r.branch.inWork = r.received.filter keeps ∧ Intact r.branch)

theorem archived_initial (clean : Prop) (streams : List AvCodecId) (cfg : SegmentConfig) :
    Archived clean (HlsSegmenter.initial streams cfg).keeps (Archive.initial streams cfg) where
  staged := stagedExactly_initial streams cfg
  uploaded := List.Sublist.refl _
  keeps_eq := rfl
  filed := ⟨[], ⟨rfl, fun _ _ h => (by cases h), rfl, fun _ h => (by cases h)⟩, List.Sublist.refl _,
    fun _ => ⟨rfl, rfl, fun _ _ _ h => (by cases h), fun h => (by cases h)⟩⟩

theorem mediaOf_append (files new : List (String × TsData)) : mediaOf (files ++ new) = mediaOf files ++ mediaOf new :=
  List.flatMap_append

theorem Archived.step {clean : Prop} {keeps : EncodedPacket → Bool} {r : Archive} {a : BranchAction} {b : Branch}
    (h : Archived clean keeps r) (ha : clean → a.Succeeds) (hstep : r.branch.step a = some b) :
    ∃ r', r.step a = some r' ∧ r'.branch = b ∧ Archived clean keeps r' := by
  obtain ⟨r', hr', rfl, hreceived, hstores⟩ := Archive.exists_step h.staged hstep
  obtain ⟨new, hcarries⟩ := step_carries hstep
  obtain ⟨files, hfiled, hsub, hclean⟩ := h.filed
  have hkeeps : r'.branch.segmenter.keeps = keeps := by
    rw [← h.keeps_eq]
    funext pkt
    rw [HlsSegmenter.keeps, HlsSegmenter.keeps, hcarries.codecs]
  have hfilter : r'.received.filter keeps = r.received.filter keeps ++ a.given.filter r.branch.segmenter.keeps := by
    rw [hreceived, List.filter_append, h.keeps_eq]
  have hmedia : mediaOf (files ++ new) ++ r'.branch.inWork = mediaOf files ++ (mediaOf new ++ r'.branch.inWork) := by
    rw [mediaOf_append, List.append_assoc]
  refine ⟨r', hr', rfl, h.staged.step hstep, (step_move hstep).1.uploaded_sublist h.uploaded, hkeeps, files ++ new,
    hfiled.step hstores hcarries, ?_, fun hc => ?_⟩
  · rw [hmedia, hfilter]
    refine (hcarries.sub.append_left _).trans ?_
    rw [← List.append_assoc]
    exact hsub.append_right _
  · obtain ⟨hsame, hintact⟩ := hclean hc
    obtain ⟨hstays, hintact'⟩ := hcarries.exact hintact (ha hc)
    exact ⟨by rw [hmedia, hstays, hfilter, ← List.append_assoc, hsame], hintact'⟩

/-- Every run of the branch is one of an archive. -/
theorem exists_archived (clean : Prop) {streams : List AvCodecId} {cfg : SegmentConfig} {acts : List BranchAction}
    {b : Branch} (hrun : run Branch.step (Branch.initial streams cfg) acts = some b)
    (hclean : clean → ∀ a ∈ acts, a.Succeeds) :
    ∃ r, run Archive.step (Archive.initial streams cfg) acts = some r ∧ r.branch = b ∧
      Archived clean (HlsSegmenter.initial streams cfg).keeps r :=
  exists_run_lift (J := Archived clean (HlsSegmenter.initial streams cfg).keeps) (Q := fun a => clean → a.Succeeds)
    Archive.branch (fun _ _ _ h ha hstep => h.step ha hstep) (archived_initial clean streams cfg)
    (fun a ha hc => hclean hc a ha) hrun

theorem Archived.names {clean : Prop} {keeps : EncodedPacket → Bool} {r : Archive} (h : Archived clean keeps r) :
    (r.objects.map Prod.fst).Sublist (r.branch.produced.map (·.filename)) := by
  obtain ⟨files, hfiled, -⟩ := h.filed
  rw [hfiled.keys]
  exact h.uploaded.trans (h.staged.removed_sublist.map _)

/-- The objects are staged files, in the order these were closed. -/
theorem Archived.objects_sublist {clean : Prop} {keeps : EncodedPacket → Bool} {r : Archive}
    {files : List (String × TsData)} (h : Archived clean keeps r) (hfiled : Filed r files) : r.objects.Sublist files := by
  refine sublist_of_keys ?_ ?_ hfiled.objects
  · rw [hfiled.names]
    exact h.staged.nodup_filenames
  · rw [hfiled.names]
    exact h.names

/-- Whatever fails and whenever the tasks are cancelled: an upload finds the file of its segment, the objects are
numbered in the order of their upload, and what they hold, read in this order, are packets the segmenter was given and
keeps, each at most once and in the order it was given them. -/
theorem archive_sublist (streams : List AvCodecId) (cfg : SegmentConfig) (acts : List BranchAction) (b : Branch)
    (hrun : run Branch.step (Branch.initial streams cfg) acts = some b) :
    ∃ r, run Archive.step (Archive.initial streams cfg) acts = some r ∧ r.branch = b ∧
      (mediaOf r.objects).Sublist (r.received.filter (HlsSegmenter.initial streams cfg).keeps) ∧
      ∃ seqs : List ℕ, seqs.Pairwise (· < ·) ∧ r.objects.map Prod.fst = seqs.map segmentFilename := by
  obtain ⟨r, hr, hb, harchived⟩ := exists_archived False hrun (fun h => h.elim)
  refine ⟨r, hr, hb, ?_, ?_⟩
  · obtain ⟨files, hfiled, hsub, -⟩ := harchived.filed
    exact ((harchived.objects_sublist hfiled).flatMap _).trans ((List.sublist_append_left _ _).trans hsub)
  · obtain ⟨segs, hsegs, hnames⟩ := List.sublist_map_iff.mp harchived.names
    refine ⟨segs.map (·.sequence), List.pairwise_map.mpr (harchived.staged.increasing.sublist hsegs), ?_⟩
    rw [hnames, List.map_map]
    exact List.map_congr_left fun seg hmem => harchived.staged.named seg (hsegs.subset hmem)

/-- The first of two segments is given up, the second is uploaded at its second attempt. -/
def secondUploaded : List BranchAction :=
  [.packet .ok (keyframeAt 0), .packet .ok (keyframeAt 1200), .list, .deliver, .recv, .upload false, .upload false,
   .upload false, .cancel, .leaveLoop, .close .ok, .list, .deliver, .recv, .upload false, .upload true]

theorem archive_sublist_secondUploaded :
    ∃ r, run Archive.step (Archive.initial [.h264] ⟨1, 5⟩) secondUploaded = some r ∧
      r.objects.map Prod.fst = ["segment_0001.ts"] ∧
      (mediaOf r.objects).Sublist (r.received.filter (HlsSegmenter.initial [.h264] ⟨1, 5⟩).keeps) := by
  have hrun : (run Branch.step (Branch.initial [.h264] ⟨1, 5⟩) secondUploaded).isSome = true := by decide +kernel
  obtain ⟨b, hb⟩ := Option.isSome_iff_exists.mp hrun
  obtain ⟨r, hr, -, hsub, -⟩ := archive_sublist [.h264] ⟨1, 5⟩ secondUploaded b hb
  have hnames : (run Archive.step (Archive.initial [.h264] ⟨1, 5⟩) secondUploaded).map (·.objects.map Prod.fst) =
      some ["segment_0001.ts"] := by decide +kernel
  rw [hr] at hnames
  exact ⟨r, hr, Option.some.inj hnames, hsub⟩

/-- Where no call of the muxer and the disk fails, both tasks are over, nothing is left in the queue and no segment was
abandoned, the objects hold every packet the segmenter was given and keeps. -/
theorem archive_complete (streams : List AvCodecId) (cfg : SegmentConfig) (acts : List BranchAction) (b : Branch)
    (hrun : run Branch.step (Branch.initial streams cfg) acts = some b) (hclean : ∀ a ∈ acts, a.Succeeds)
    (hended : b.segmenterTask = .ended) (hsink : b.sinkTask = .ended) (hqueue : b.queue = [])
    (habandoned : b.abandoned = []) :
    ∃ r, run Archive.step (Archive.initial streams cfg) acts = some r ∧ r.branch = b ∧
      mediaOf r.objects = r.received.filter (HlsSegmenter.initial streams cfg).keeps := by
  obtain ⟨r, hr, rfl, harchived⟩ := exists_archived True hrun (fun _ => hclean)
  refine ⟨r, hr, rfl, ?_⟩
  obtain ⟨files, hfiled, -, hall⟩ := harchived.filed
  obtain ⟨hmedia, hintact⟩ := hall trivial
  have hplaces : (r.branch.store.segments : Multiset String) + filesOf r.branch.sinkTask.uploadingSegs +
      (filesOf r.branch.segmenterTask.hand + filesOf r.branch.queue + filesOf r.branch.abandoned) =
        filesOf r.branch.produced := harchived.staged.balanced.places
  rw [hended, hsink, hqueue, habandoned] at hplaces
  have hplaces' : (r.branch.store.segments : Multiset String) = filesOf r.branch.produced := by
    simpa [SinkTask.uploadingSegs, SegmenterTask.hand] using hplaces
  have hlength : r.objects.length = files.length := by
    have hcard := congrArg Multiset.card hplaces'
    have hkeys := congrArg List.length hfiled.keys
    have hnames := congrArg List.length hfiled.names
    simp only [filesOf, Multiset.coe_card, List.length_map] at hcard hkeys hnames
    omega
  have hwork : r.branch.inWork = [] := by
    rw [inWork_of_pendingPacket (by rw [hended]; rfl)]
    exact hintact.closed (by rw [hended]; rfl)
  rw [(harchived.objects_sublist hfiled).eq_of_length hlength, ← hmedia, hwork, List.append_nil]

def bothUploaded : List BranchAction :=
  [.packet .ok (keyframeAt 0), .packet .ok (keyframeAt 1200), .list, .deliver, .closeInput, .leaveLoop, .close .ok,
   .list, .recv, .upload true, .uploadPlaylist true, .deliver, .recv, .upload true, .uploadPlaylist true,
   .sinkInputEnded, .dropReceiver]

theorem archive_complete_bothUploaded :
    ∃ r, run Archive.step (Archive.initial [.h264] ⟨1, 5⟩) bothUploaded = some r ∧
      r.objects.map Prod.fst = ["segment_0000.ts", "segment_0001.ts"] ∧
      mediaOf r.objects = r.received.filter (HlsSegmenter.initial [.h264] ⟨1, 5⟩).keeps := by
  obtain ⟨b, hb, hended, hsink, hqueue, habandoned⟩ : ∃ b,
      run Branch.step (Branch.initial [.h264] ⟨1, 5⟩) bothUploaded = some b ∧ b.segmenterTask = .ended ∧
        b.sinkTask = .ended ∧ b.queue = [] ∧ b.abandoned = [] := ⟨_, rfl, rfl, rfl, rfl, rfl⟩
  obtain ⟨r, hr, -, hmedia⟩ := archive_complete [.h264] ⟨1, 5⟩ bothUploaded b hb
    (by simp [bothUploaded, BranchAction.Succeeds]) hended hsink hqueue habandoned
  have hnames : (run Archive.step (Archive.initial [.h264] ⟨1, 5⟩) bothUploaded).map (·.objects.map Prod.fst) =
      some ["segment_0000.ts", "segment_0001.ts"] := by decide +kernel
  rw [hr] at hnames
  exact ⟨r, hr, Option.some.inj hnames, hmedia⟩

end LivestreamRs.Hls
