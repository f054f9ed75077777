import Mathlib.Data.Multiset.AddSub
import Mathlib.Data.Multiset.UnionInter
import LivestreamRs.Hls.Branch

/-! # Where the segments of a branch are

Every segment a rollover closes is, at any time, in exactly one place: in the segmenter's hands, in the
queue, in the sink's hands, in the object store, or abandoned. The `Ledger` of a branch records these
places; each step of the branch is one `Move` of the ledger (`step_move`), and the moves keep it balanced.
-/
namespace LivestreamRs.Hls
open Media Foundations
set_option autoImplicit false

/-! ## What the segmenter's operations do to numbering and listing -/

/-- The numbering may move on, playlist and `index.m3u8` are as before. -/
structure KeepsListing (s s' : HlsSegmenter) : Prop where
  next : s.muxer.nextSequence ≤ s'.muxer.nextSequence
  playlist : s'.playlist = s.playlist
  file : s'.workspace.playlistFile = s.workspace.playlistFile
  cut : s'.workspace.playlistCut = s.workspace.playlistCut

/-- The segment got the next number and the file name that goes with it. -/
structure Closes (s s' : HlsSegmenter) (seg : TsSegment) : Prop extends KeepsListing s s' where
  sequence : seg.sequence = s.muxer.nextSequence
  filename : seg.filename = segmentFilename seg.sequence
  below : seg.sequence < s'.muxer.nextSequence

theorem writePacket_keepsListing (s : HlsSegmenter) (o : Outcome) (pkt : EncodedPacket) :
    KeepsListing s (s.writePacket o pkt).1 := by
  unfold HlsSegmenter.writePacket
  split
  · exact ⟨le_rfl, rfl, rfl, rfl⟩
  · split
    · exact ⟨le_rfl, rfl, rfl, rfl⟩
    · dsimp only
      split
      · exact ⟨le_rfl, rfl, rfl, rfl⟩
      · split <;> exact ⟨le_rfl, rfl, rfl, rfl⟩

theorem resetAfterWriteError_keepsListing (s : HlsSegmenter) (o : Outcome) :
    KeepsListing s (s.resetAfterWriteError o) := by
  unfold HlsSegmenter.resetAfterWriteError
  dsimp only
  split <;> exact ⟨le_rfl, rfl, rfl, rfl⟩

theorem KeepsListing.trans {s₁ s₂ s₃ : HlsSegmenter} (h₁ : KeepsListing s₁ s₂) (h₂ : KeepsListing s₂ s₃) :
    KeepsListing s₁ s₃ :=
  ⟨h₁.next.trans h₂.next, h₂.playlist.trans h₁.playlist, h₂.file.trans h₁.file, h₂.cut.trans h₁.cut⟩

theorem writePacketOrReset_keepsListing (s : HlsSegmenter) (o : Outcome) (pkt : EncodedPacket) :
    KeepsListing s (s.writePacketOrReset o pkt) := by
  have h := writePacket_keepsListing s o pkt
  unfold HlsSegmenter.writePacketOrReset
  split
  · next s' heq =>
    rw [heq] at h
    exact h
  · next s' heq =>
    rw [heq] at h
    exact h.trans (resetAfterWriteError_keepsListing s' o)

theorem keepsListing_segmenter (s : HlsSegmenter) (state : SegmentState) :
    KeepsListing s { s with segmenter := state } :=
  ⟨le_rfl, rfl, rfl, rfl⟩

theorem takeSegment_spec (s : HlsSegmenter) (o : Outcome) :
    KeepsListing s (s.takeSegment o).1 ∧ ∀ seq data, (s.takeSegment o).2 = some (seq, data) →
      seq = s.muxer.nextSequence ∧ seq < (s.takeSegment o).1.muxer.nextSequence := by
  unfold HlsSegmenter.takeSegment
  split
  · exact ⟨⟨le_rfl, rfl, rfl, rfl⟩, by simp⟩
  · dsimp only
    split
    · refine ⟨⟨Nat.le_succ _, rfl, rfl, rfl⟩, fun seq data h => ?_⟩
      obtain ⟨rfl, -⟩ := Prod.mk.inj (Option.some.inj h)
      exact ⟨rfl, Nat.lt_succ_self _⟩
    · exact ⟨⟨Nat.le_succ _, rfl, rfl, rfl⟩, by simp⟩

theorem KeepsListing.setWorkspace {s s' : HlsSegmenter} (h : KeepsListing s s') {w : SegmentWorkspace}
    (hfile : w.playlistFile = s'.workspace.playlistFile) (hcut : w.playlistCut = s'.workspace.playlistCut) :
    KeepsListing s { s' with workspace := w } :=
  ⟨h.next, h.playlist, hfile.trans h.file, hcut.trans h.cut⟩

/-- Whether or not `rollover` succeeds, only the numbering moves; a segment it returns got the number. -/
theorem rollover_spec (s : HlsSegmenter) (o : Outcome) (d : ℕ) :
    KeepsListing s (s.rollover o d).1 ∧
      ∀ seg, (s.rollover o d).2 = some seg → Closes s (s.rollover o d).1 seg := by
  obtain ⟨hkeep, htaken⟩ := takeSegment_spec s o
  unfold HlsSegmenter.rollover
  split
  · next s' heq =>
    rw [heq] at hkeep
    exact ⟨hkeep, by simp⟩
  · next s' seq data heq =>
    rw [heq] at hkeep htaken
    obtain ⟨hseq, hlt⟩ := htaken seq data rfl
    split
    · exact ⟨hkeep, by simp⟩
    · dsimp only
      split
      · exact ⟨hkeep.setWorkspace rfl rfl, by simp⟩
      · have hkept := hkeep.setWorkspace
          (w := (s'.workspace.writeTsFile data seq).stageSegment (segmentFilename seq)) rfl rfl
        refine ⟨hkept, fun seg hseg => ?_⟩
        obtain rfl := Option.some.inj hseg
        exact ⟨hkept, hseq, rfl, hlt⟩

theorem beginProcess_spec (s : HlsSegmenter) (o : Outcome) (pkt : EncodedPacket) :
    KeepsListing s (s.beginProcess o pkt).1 ∧
      ∀ seg, (s.beginProcess o pkt).2 = some (some seg) → Closes s (s.beginProcess o pkt).1 seg := by
  unfold HlsSegmenter.beginProcess
  split
  · exact ⟨⟨le_rfl, rfl, rfl, rfl⟩, by simp⟩
  · dsimp only
    split
    · have hroll := rollover_spec { s with segmenter := s.segmenter.observe pkt } o
        ((s.segmenter.observe pkt).elapsed.getD 0)
      split
      · next s' heq =>
        rw [heq] at hroll
        exact ⟨(keepsListing_segmenter s _).trans hroll.1, by simp⟩
      · next s' seg heq =>
        rw [heq] at hroll
        refine ⟨(keepsListing_segmenter s _).trans hroll.1, fun seg' hseg => ?_⟩
        obtain rfl : seg = seg' := by simpa using hseg
        have hcloses := hroll.2 seg rfl
        exact ⟨(keepsListing_segmenter s _).trans hroll.1, hcloses.sequence, hcloses.filename, hcloses.below⟩
    · exact ⟨(keepsListing_segmenter s _).trans (writePacketOrReset_keepsListing _ o pkt), by simp⟩

/-! ## Listing -/

/-- The file names the live playlist and `index.m3u8` mention. -/
def HlsSegmenter.listed (s : HlsSegmenter) : List String :=
  s.playlist.entries.map (·.filename) ++ (s.workspace.playlistFile.map (·.entries.map (·.filename))).getD []

theorem makeRoom_suffix (size : ℕ) (entries : List PlaylistEntry) (n : ℕ) :
    (makeRoom size entries n).1 <:+ entries := by
  obtain ⟨dropped, hentries, -⟩ := makeRoom_spec size entries n
  exact ⟨dropped, hentries.symm⟩

theorem KeepsListing.listed_eq {s s' : HlsSegmenter} (h : KeepsListing s s') : s'.listed = s.listed := by
  rw [HlsSegmenter.listed, HlsSegmenter.listed, h.playlist, h.file]

theorem listed_listSegment (s : HlsSegmenter) (o : Outcome) (seg : TsSegment) {f : String}
    (hf : f ∈ (s.listSegment o seg).listed) : f ∈ s.listed ∨ f = seg.filename := by
  have hpush : ∀ f ∈ (s.playlist.pushSegment seg.filename seg.duration).entries.map (·.filename),
      f ∈ s.playlist.entries.map (·.filename) ∨ f = seg.filename := by
    intro f hf
    simp only [PlaylistState.pushSegment, List.map_append, List.map_cons, List.map_nil, List.mem_append,
      List.mem_singleton] at hf
    exact hf.imp_left fun hf => ((makeRoom_suffix _ _ _).map _).subset hf
  have hpushed : f ∈ (s.playlist.pushSegment seg.filename seg.duration).entries.map (·.filename) →
      f ∈ s.listed ∨ f = seg.filename := fun hf => (hpush f hf).imp_left (List.mem_append_left _)
  obtain hf | hf := List.mem_append.mp hf
  · exact hpushed hf
  · simp only [HlsSegmenter.listSegment, SegmentWorkspace.writePlaylist] at hf
    split at hf
    · exact hpushed hf
    · split at hf
      · exact .inl (List.mem_append_right _ hf)
      · exact hpushed (((List.take_prefix _ _).map _).subset hf)

theorem listed_finishProcess (s : HlsSegmenter) (o : Outcome) (pkt : EncodedPacket) (seg : TsSegment)
    {f : String} (hf : f ∈ (s.finishProcess o pkt seg).listed) : f ∈ s.listed ∨ f = seg.filename := by
  rw [HlsSegmenter.finishProcess, (writePacketOrReset_keepsListing _ o pkt).listed_eq] at hf
  exact listed_listSegment _ o seg hf

/-! ## The ledger -/

/-- The places a segment can be in, and the history of the channel. -/
structure Ledger where
  produced : List TsSegment
  -- in the segmenter's hands
  hand : List TsSegment
  queue : List TsSegment
  -- in the sink's hands, not uploaded yet
  uploading : List TsSegment
  -- uploaded, `consume` has not returned yet
  finishing : List TsSegment
  uploaded : List String
  abandoned : List TsSegment
  sent : List TsSegment
  consumed : List TsSegment

inductive Ledger.Move : Ledger → Ledger → Prop
  | idle (l : Ledger) : Move l l
  | produce (l : Ledger) (seg : TsSegment) (h : l.hand = []) :
      Move l { l with produced := l.produced ++ [seg], hand := [seg] }
  | accept (l : Ledger) (seg : TsSegment) (h : l.hand = [seg]) :
      Move l { l with hand := [], queue := l.queue ++ [seg], sent := l.sent ++ [seg] }
  | refuse (l : Ledger) (seg : TsSegment) (h : l.hand = [seg]) :
      Move l { l with hand := [], abandoned := l.abandoned ++ [seg] }
  | receive (l : Ledger) (seg : TsSegment) (queue : List TsSegment) (h : l.queue = seg :: queue)
      (hu : l.uploading = []) (hf : l.finishing = []) : Move l { l with queue := queue, uploading := [seg] }
  | store (l : Ledger) (seg : TsSegment) (hu : l.uploading = [seg]) (hf : l.finishing = []) :
      Move l { l with uploading := [], finishing := [seg], uploaded := l.uploaded ++ [seg.filename] }
  | giveUp (l : Ledger) (seg : TsSegment) (hu : l.uploading = [seg]) (hf : l.finishing = []) :
      Move l { l with uploading := [], abandoned := l.abandoned ++ [seg], consumed := l.consumed ++ [seg] }
  | finish (l : Ledger) (seg : TsSegment) (hu : l.uploading = []) (hf : l.finishing = [seg]) :
      Move l { l with finishing := [], consumed := l.consumed ++ [seg] }

def filesOf (segs : List TsSegment) : Multiset String := (segs.map (·.filename) : List String)

@[simp] theorem filesOf_nil : filesOf [] = 0 := rfl

@[simp] theorem filesOf_append (a b : List TsSegment) : filesOf (a ++ b) = filesOf a + filesOf b := by
  simp [filesOf]

/-- Produced, and on the way to the store or lost. -/
def Ledger.pending (l : Ledger) : Multiset String := filesOf l.hand + filesOf l.queue + filesOf l.abandoned

structure Ledger.Balanced (l : Ledger) : Prop where
  places : (l.uploaded : Multiset String) + filesOf l.uploading + l.pending = filesOf l.produced
  order : (l.sent ++ l.hand).Sublist l.produced
  delivered : l.sent = l.consumed ++ l.uploading ++ l.finishing ++ l.queue

theorem Ledger.Balanced.move {l l' : Ledger} (h : l.Balanced) (hm : l.Move l') : l'.Balanced := by
  obtain ⟨hplaces, horder, hdelivered⟩ := h
  unfold Ledger.pending at hplaces
  cases hm with
  | idle => exact ⟨hplaces, horder, hdelivered⟩
  | produce seg hh =>
    refine ⟨?_, ?_, hdelivered⟩
    · simp only [Ledger.pending, filesOf_append, ← hplaces, hh, filesOf_nil]
      abel
    · rw [hh, List.append_nil] at horder
      exact horder.append_right [seg]
  | accept seg hh =>
    refine ⟨?_, ?_, ?_⟩
    · simp only [Ledger.pending, filesOf_append, ← hplaces, hh, filesOf_nil]
      abel
    · simpa [hh] using horder
    · simp [hdelivered]
  | refuse seg hh =>
    refine ⟨?_, ?_, hdelivered⟩
    · simp only [Ledger.pending, filesOf_append, ← hplaces, hh, filesOf_nil]
      abel
    · rw [List.append_nil]
      exact (List.sublist_append_left _ _).trans horder
  | receive seg queue hq hu hf =>
    have hqueue : filesOf l.queue = filesOf [seg] + filesOf queue := by
      rw [hq, ← filesOf_append]
      rfl
    refine ⟨?_, horder, ?_⟩
    · simp only [Ledger.pending, ← hplaces, hqueue, hu, filesOf_nil]
      abel
    · simp [hdelivered, hq, hu, hf]
  | store seg hu hf =>
    have hfile : ((l.uploaded ++ [seg.filename] : List String) : Multiset String)
        = (l.uploaded : Multiset String) + filesOf [seg] := by
      rw [← Multiset.coe_add]
      rfl
    refine ⟨?_, horder, ?_⟩
    · simp only [Ledger.pending, ← hplaces, hfile, hu, filesOf_nil]
      abel
    · simp [hdelivered, hu, hf]
  | giveUp seg hu hf =>
    refine ⟨?_, horder, ?_⟩
    · simp only [Ledger.pending, filesOf_append, ← hplaces, hu, filesOf_nil]
      abel
    · simp [hdelivered, hu, hf]
  | finish seg hu hf => exact ⟨hplaces, horder, by simp [hdelivered, hu, hf]⟩

/-! ## The ledger of a branch -/

def SegmenterTask.hand : SegmenterTask → List TsSegment
  | .staged _ _ seg | .delivering seg | .lastStaged _ seg | .lastDelivering seg => [seg]
  | .receiving | .closing | .ended => []

def SinkTask.uploadingSegs : SinkTask → List TsSegment
  | .uploading seg _ => [seg]
  | _ => []

def SinkTask.finishingSegs : SinkTask → List TsSegment
  | .uploadingPlaylist seg => [seg]
  | _ => []

def Branch.ledger (b : Branch) : Ledger where
  produced := b.produced
  hand := b.segmenterTask.hand
  queue := b.queue
  uploading := b.sinkTask.uploadingSegs
  finishing := b.sinkTask.finishingSegs
  uploaded := b.store.segments
  abandoned := b.abandoned
  sent := b.sent
  consumed := b.consumed

/-- What a step does to the numbering of segments and to the playlist. -/
inductive Numbering (b b' : Branch) : Prop
  | keep (hp : b'.produced = b.produced) (hk : KeepsListing b.segmenter b'.segmenter)
  | close (seg : TsSegment) (hp : b'.produced = b.produced ++ [seg]) (hc : Closes b.segmenter b'.segmenter seg)
  | list (seg : TsSegment) (hp : b'.produced = b.produced) (hh : b.segmenterTask.hand = [seg])
      (hn : b.segmenter.muxer.nextSequence ≤ b'.segmenter.muxer.nextSequence)
      (hl : ∀ f ∈ b'.segmenter.listed, f ∈ b.segmenter.listed ∨ f = seg.filename)

theorem KeepsListing.refl (s : HlsSegmenter) : KeepsListing s s := ⟨le_rfl, rfl, rfl, rfl⟩

theorem removeStaged_keepsListing (b : Branch) (seg : TsSegment) :
    KeepsListing b.segmenter (b.removeStaged seg).segmenter :=
  ⟨le_rfl, rfl, rfl, rfl⟩

theorem finishProcess_next (s : HlsSegmenter) (o : Outcome) (pkt : EncodedPacket) (seg : TsSegment) :
    s.muxer.nextSequence ≤ (s.finishProcess o pkt seg).muxer.nextSequence :=
  (writePacketOrReset_keepsListing (HlsSegmenter.listSegment { s with segmenter := .startWith pkt } o seg)
    o pkt).next

variable {b b' : Branch} {a : BranchAction}

def SinkTask.gone : SinkTask → Bool
  | .left | .ended => true
  | _ => false

/-- All that a step of the segmenter task can do. -/
structure SegmenterEffect (b : Branch) (a : BranchAction) (b' : Branch) : Prop where
  move : b.ledger.Move b'.ledger
  numbering : Numbering b b'
  store : b'.store = b.store
  sinkTask : b'.sinkTask = b.sinkTask
  action : a ≠ .sinkCancelled ∧ a ≠ .uploadPlaylist true
  queue : a ≠ .deliver → b'.queue = b.queue
  deliver : a = .deliver → (b.accepts = true ∧ ∃ seg, b'.queue = b.queue ++ [seg])
    ∨ (b.accepts = false ∧ b'.queue = b.queue)

/-- All that a step of the sink task can do. -/
structure SinkEffect (b : Branch) (a : BranchAction) (b' : Branch) : Prop where
  move : b.ledger.Move b'.ledger
  numbering : Numbering b b'
  action : a ≠ .deliver
  playlist : a ≠ .uploadPlaylist true → b'.store.playlist = b.store.playlist
  gone : b.sinkTask.gone = true → a ≠ .sinkCancelled ∧ b'.sinkTask.gone = true ∧ b'.queue = b.queue
  leaves : b.sinkTask.gone = false → b'.sinkTask.gone = true →
    b'.queue = b.queue ∧ (a = .sinkCancelled ∨ b.queue = [])
  cancelled : a = .sinkCancelled → b'.sinkTask.gone = true

theorem send_effect (task : SegmenterTask) (seg : TsSegment) (h : b.segmenterTask.hand = [seg])
    (ht : task.hand = []) : SegmenterEffect b .deliver { b.send seg with segmenterTask := task } := by
  unfold Branch.send
  split
  · next hacc =>
    exact
      { move := by simpa only [Branch.ledger, ht] using Ledger.Move.accept b.ledger seg h
        numbering := .keep rfl (.refl _)
        store := rfl
        sinkTask := rfl
        action := ⟨by simp, by simp⟩
        queue := fun hne => absurd rfl hne
        deliver := fun _ => .inl ⟨hacc, seg, rfl⟩ }
  · next hacc =>
    exact
      { move := by simpa only [Branch.ledger, ht] using Ledger.Move.refuse b.ledger seg h
        numbering := .keep rfl (.refl _)
        store := rfl
        sinkTask := rfl
        action := ⟨by simp, by simp⟩
        queue := fun _ => rfl
        deliver := fun _ => .inr ⟨by simpa using hacc, rfl⟩ }

theorem SegmenterStep.effect (h : SegmenterStep b a b') : SegmenterEffect b a b' := by
  obtain ⟨s, task, sink, queue, store, cancelled, inputClosed, produced, sent, consumed, abandoned⟩ := b
  cases h with
  | @rolledOver o pkt s' seg htask hbegin =>
    cases htask
    have hspec := beginProcess_spec s o pkt
    rw [hbegin] at hspec
    exact ⟨.produce _ seg rfl, .close seg rfl (hspec.2 seg rfl), rfl, rfl, by simp, fun _ => rfl, by simp⟩
  | @processed o pkt s' r htask hbegin hr =>
    have hspec := beginProcess_spec s o pkt
    rw [hbegin] at hspec
    exact ⟨.idle _, .keep rfl hspec.1, rfl, rfl, by simp, fun _ => rfl, by simp⟩
  | @listed o pkt seg htask =>
    cases htask
    exact ⟨.idle _, .list seg rfl rfl (finishProcess_next s o pkt seg)
      fun f => listed_finishProcess s o pkt seg, rfl, rfl, by simp, fun _ => rfl, by simp⟩
  | @lastListed o seg htask =>
    cases htask
    exact ⟨.idle _, .list seg rfl rfl le_rfl fun f => listed_listSegment s o seg, rfl, rfl, by simp,
      fun _ => rfl, by simp⟩
  | @delivered seg htask => exact send_effect .receiving seg (congrArg SegmenterTask.hand htask) rfl
  | @lastDelivered seg htask => exact send_effect .ended seg (congrArg SegmenterTask.hand htask) rfl
  | left htask =>
    cases htask
    exact ⟨.idle _, .keep rfl (.refl s), rfl, rfl, by simp, fun _ => rfl, by simp⟩
  | @closed o s' htask hroll =>
    cases htask
    have hspec := rollover_spec s o (s.segmenter.elapsed.getD 0)
    rw [hroll] at hspec
    exact ⟨.idle _, .keep rfl hspec.1, rfl, rfl, by simp, fun _ => rfl, by simp⟩
  | @lastRolledOver o s' seg htask hroll =>
    cases htask
    have hspec := rollover_spec s o (s.segmenter.elapsed.getD 0)
    rw [hroll] at hspec
    have hc := hspec.2 seg rfl
    exact ⟨.produce _ { seg with isFinal := true } rfl, .close { seg with isFinal := true } rfl
      ⟨hc.toKeepsListing, hc.sequence, hc.filename, hc.below⟩, rfl, rfl, by simp, fun _ => rfl, by simp⟩

theorem SinkStep.effect (h : SinkStep b a b') : SinkEffect b a b' := by
  obtain ⟨s, task, sink, queue, store, cancelled, inputClosed, produced, sent, consumed, abandoned⟩ := b
  cases h with
  | @received seg queue' htask hqueue =>
    cases htask
    cases hqueue
    exact ⟨.receive _ seg queue' rfl rfl rfl, .keep rfl (.refl s), by simp, fun _ => rfl, by simp [SinkTask.gone],
      by simp [SinkTask.gone], by simp⟩
  | @uploaded seg failed htask =>
    cases htask
    exact ⟨.store _ seg rfl rfl, .keep rfl (removeStaged_keepsListing _ seg), by simp, fun _ => rfl,
      by simp [SinkTask.gone], by simp [SinkTask.gone], by simp⟩
  | @retried seg failed htask =>
    cases htask
    exact ⟨.idle _, .keep rfl (.refl s), by simp, fun _ => rfl, by simp [SinkTask.gone],
      by simp [SinkTask.gone], by simp⟩
  | @gaveUp seg failed htask =>
    cases htask
    exact ⟨.giveUp _ seg rfl rfl, .keep rfl (removeStaged_keepsListing _ seg), by simp, fun _ => rfl,
      by simp [SinkTask.gone], by simp [SinkTask.gone], by simp⟩
  | @finished ok seg htask =>
    cases htask
    cases ok with
    | true =>
      exact ⟨.finish _ seg rfl rfl, .keep rfl (.refl s), by simp, fun hne => absurd rfl hne,
        by simp [SinkTask.gone], by simp [SinkTask.gone], by simp⟩
    | false =>
      exact ⟨.finish _ seg rfl rfl, .keep rfl (.refl s), by simp, fun _ => rfl, by simp [SinkTask.gone],
        by simp [SinkTask.gone], by simp⟩
  | cancelled htask =>
    cases htask
    exact ⟨.idle _, .keep rfl (.refl s), by simp, fun _ => rfl, by simp [SinkTask.gone],
      fun _ _ => ⟨rfl, .inl rfl⟩, fun _ => rfl⟩
  | inputEnded htask hqueue =>
    cases htask
    exact ⟨.idle _, .keep rfl (.refl s), by simp, fun _ => rfl, by simp [SinkTask.gone],
      fun _ _ => ⟨rfl, .inr hqueue⟩, by simp⟩
  | dropped htask =>
    cases htask
    exact ⟨.idle _, .keep rfl (.refl s), by simp, fun _ => rfl, fun _ => ⟨by simp, rfl, rfl⟩,
      by simp [SinkTask.gone], by simp⟩

theorem step_effect (h : b.step a = some b') :
    (∃ cancelled inputClosed, b' = { b with cancelled := cancelled, inputClosed := inputClosed } ∧
      (a = .cancel ∨ a = .closeInput)) ∨ SegmenterEffect b a b' ∨ SinkEffect b a b' := by
  obtain ⟨rfl, rfl⟩ | ⟨rfl, rfl⟩ | h | h := Branch.step_cases h
  · exact .inl ⟨true, b.inputClosed, rfl, .inl rfl⟩
  · exact .inl ⟨b.cancelled, true, rfl, .inr rfl⟩
  · exact .inr (.inl h.effect)
  · exact .inr (.inr h.effect)

/-- Every step of a branch is one move of its ledger. -/
theorem step_move (h : b.step a = some b') : b.ledger.Move b'.ledger ∧ Numbering b b' := by
  obtain ⟨c, i, rfl, -⟩ | heff | heff := step_effect h
  · exact ⟨.idle _, .keep rfl (.refl _)⟩
  · exact ⟨heff.move, heff.numbering⟩
  · exact ⟨heff.move, heff.numbering⟩

/-! ## The invariant -/

/-- Segments have distinct file names, the ledger is balanced, and only produced segments are listed. -/
structure Accounted (b : Branch) : Prop where
  named : ∀ seg ∈ b.produced, seg.filename = segmentFilename seg.sequence
  below : ∀ seg ∈ b.produced, seg.sequence < b.segmenter.muxer.nextSequence
  increasing : b.produced.Pairwise (fun x y => x.sequence < y.sequence)
  listed : ∀ f ∈ b.segmenter.listed, f ∈ filesOf b.produced
  balanced : b.ledger.Balanced

theorem accounted_initial (streams : List AvCodecId) (cfg : SegmentConfig) :
    Accounted (Branch.initial streams cfg) where
  named := by simp [Branch.initial]
  below := by simp [Branch.initial]
  increasing := List.Pairwise.nil
  listed := by simp [Branch.initial, HlsSegmenter.listed, HlsSegmenter.initial, PlaylistState.new]
  balanced := ⟨rfl, List.Sublist.refl _, rfl⟩

theorem Accounted.step (h : Accounted b) (hstep : b.step a = some b') : Accounted b' := by
  obtain ⟨hmove, hnum⟩ := step_move hstep
  have hbal := h.balanced.move hmove
  cases hnum with
  | keep hp hk =>
    exact ⟨hp ▸ h.named, fun seg hseg => (h.below seg (hp ▸ hseg)).trans_le hk.next, hp ▸ h.increasing,
      hp ▸ hk.listed_eq ▸ h.listed, hbal⟩
  | close seg hp hc =>
    refine ⟨?_, ?_, ?_, ?_, hbal⟩
    · intro seg' hseg
      obtain hseg | rfl := by simpa [hp] using hseg
      · exact h.named seg' hseg
      · exact hc.filename
    · intro seg' hseg
      obtain hseg | rfl := by simpa [hp] using hseg
      · exact (h.below seg' hseg).trans_le hc.next
      · exact hc.below
    · rw [hp, List.pairwise_append]
      refine ⟨h.increasing, List.pairwise_singleton _ _, fun x hx y hy => ?_⟩
      obtain rfl := List.mem_singleton.mp hy
      exact hc.sequence ▸ h.below x hx
    · intro f hf
      rw [hc.listed_eq] at hf
      rw [hp, filesOf_append]
      exact Multiset.mem_add.mpr (.inl (h.listed f hf))
  | list seg hp hh hn hl =>
    refine ⟨hp ▸ h.named, fun seg hseg => (h.below seg (hp ▸ hseg)).trans_le hn, hp ▸ h.increasing, ?_, hbal⟩
    intro f hf
    rw [hp]
    obtain hf | rfl := hl f hf
    · exact h.listed f hf
    · have hmem : seg ∈ b.produced := by
        refine h.balanced.order.subset (List.mem_append_right _ ?_)
        exact (congrArg (seg ∈ ·) hh).mpr (List.mem_singleton_self seg)
      exact Multiset.mem_coe.mpr (List.mem_map_of_mem hmem)

/-- Different segments have different file names. -/
theorem Accounted.nodup_files (h : Accounted b) : (filesOf b.produced).Nodup := by
  rw [filesOf, Multiset.coe_nodup, List.Nodup, List.pairwise_map]
  refine h.increasing.imp_of_mem fun hx hy hlt heq => ?_
  rw [h.named _ hx, h.named _ hy] at heq
  exact hlt.ne (segmentFilename_injective heq)

end LivestreamRs.Hls
