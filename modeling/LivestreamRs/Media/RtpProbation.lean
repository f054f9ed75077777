import LivestreamRs.Media.RtpBuf

/-! # Which RTP packet is delivered twice

`feed` copies the front of the queue at the first call that finds the queue non-empty, so that the demuxer sees the
first packet twice. It is the first packet only if no read took it before. Where the queue is drained after each
`feed`, as `RtpDemuxProcessor::process` does, no copy is made; a reader that stops short of that decides which packet
is copied.
-/
namespace LivestreamRs.Media.RtpDemux
open Foundations
set_option autoImplicit false

variable (s : RtpDemux)

/-- The packets whose delivery has begun are the first of those fed, of which the first may come twice. -/
def OnlyFirstTwice : Prop := s.started <+: s.fed ∨ s.started <+: s.fed.take 1 ++ s.fed

instance : Decidable s.OnlyFirstTwice :=
  inferInstanceAs (Decidable (s.started <+: s.fed ∨ s.started <+: s.fed.take 1 ++ s.fed))

def IsRead (_ : RtpDemux) : RtpAction → Prop
  | .feed _ => False
  | .read _ => True

/-- A copy is made before the first packet is read. -/
def CopiesFirst (s : RtpDemux) : RtpAction → Prop
  | .feed _ => s.buf.duplicates = true → s.started = []
  | .read _ => True

instance (s : RtpDemux) : (a : RtpAction) → Decidable (CopiesFirst s a)
  | .feed _ => inferInstanceAs (Decidable (s.buf.duplicates = true → s.started = []))
  | .read _ => isTrue trivial

/-! ## The packet copied -/

theorem duplicated_step_iff {s t : RtpDemux} {a : RtpAction} (hs : s.Ordered) (h : s.step a = some t) :
    (∀ k, t.duplicated = some k → k = 0) ↔ (∀ k, s.duplicated = some k → k = 0) ∧ CopiesFirst s a := by
  obtain ⟨data, rfl, rfl⟩ | ⟨bufSize, rfl, rfl, -⟩ | ⟨bufSize, pkt, offset, packets, rfl, hpos, hnext, rfl⟩ :=
    step_cases h
  · by_cases hdup : s.buf.duplicates = true
    · obtain ⟨pkt, hpackets, -, hnone, hfed, hcall, -, -⟩ := hs.duplicates hdup
      have hnew : (s.feed data).duplicated = some pkt.call := by simp [feed, hdup, hpackets]
      have hstarted : pkt.call = s.started.length := by
        rw [hfed, List.length_append, List.length_singleton] at hcall
        omega
      simp [hnew, hnone, CopiesFirst, hdup, hstarted]
    · have hsame : (s.feed data).duplicated = s.duplicated := if_neg hdup
      simp [hsame, CopiesFirst, hdup]
  · simp [CopiesFirst]
  · simp [CopiesFirst]

/-! ## Reading all there is -/

/-- What reads leave as it was. -/
structure SamePackets (t : RtpDemux) : Prop where
  fed : t.fed = s.fed
  evicted : t.evicted = s.evicted
  duplicated : t.duplicated = s.duplicated
  sequence : t.sequence = s.sequence

theorem samePackets_reads {s t : RtpDemux} {reads : List RtpAction} (hreads : EachStep step IsRead s reads)
    (hrun : run step s reads = some t) : s.SamePackets t := by
  refine run_invariant (I := s.SamePackets) (fun u a v hu ha h => ?_) ⟨rfl, rfl, rfl, rfl⟩ hreads hrun
  obtain ⟨data, rfl, rfl⟩ | ⟨bufSize, rfl, rfl, -⟩ | ⟨bufSize, pkt, offset, packets, rfl, hpos, hnext, rfl⟩ :=
    step_cases h
  · exact absurd ha id
  · exact hu
  · exact ⟨by simpa using hu.fed, by simpa using hu.evicted, by simpa using hu.duplicated,
      (sequence_afterRead hnext ..).trans hu.sequence⟩

/-- A read of 65535 bytes takes the rest of a packet, so that a number of them takes all packets. -/
theorem exists_drain {s : RtpDemux} (hs : s.Framed) :
    ∃ reads t, EachStep step IsRead s reads ∧ run step s reads = some t ∧ t.buf.next = none := by
  refine exists_run_of_measure (P := fun s => s.buf.next = none)
    (fun s => s.buf.packets.length + s.buf.current.toList.length) (fun u a v hu _ h => framed_step hu h) ?_ s hs
  intro u hu hnext
  obtain ⟨⟨pkt, offset, packets⟩, hnext⟩ := Option.ne_none_iff_exists'.mp hnext
  obtain ⟨t, ht⟩ : ∃ t, u.step (.read 65535) = some t := by
    rw [step, u.buf.rtpRead_eq (by norm_num), hnext]
    exact ⟨_, rfl⟩
  refine ⟨.read 65535, t, trivial, ht, ?_⟩
  obtain ⟨_, hread, -⟩ | ⟨_, hread, -, hnone⟩ | ⟨_, pkt', offset', packets', hread, -, hnext', rfl⟩ := step_cases ht
  · cases hread
  · cases hread
    cases hnext.symm.trans (hnone (by norm_num))
  · cases hread
    cases hnext.symm.trans hnext'
    have hmax := pkt.data.le_max
    have hall : ¬ offset + min (65535 : ℤ).toNat (pkt.len - offset) < pkt.len := by
      simp only [FedPacket.len]
      omega
    have hlen := next_length hnext
    simp only [afterRead_buf, RtpBuf.afterPiece, if_neg hall, Option.toList_none, List.length_nil]
    omega

theorem started_of_next_none {s : RtpDemux} (h : s.buf.next = none) : s.started = s.sequence := by
  rw [sequence, (RtpBuf.next_eq_none h).2, List.append_nil]

/-! ## The two sequences a reader may see -/

/-- With the copy of a later packet than the first, the sequence is not one of the two. -/
theorem copied_first {fed : List FedPacket} (hcalls : fed.map FedPacket.call = List.range fed.length) {k : ℕ}
    (hk : k < fed.length)
    (h : fed.take (k + 1) ++ fed.drop k <+: fed ∨ fed.take (k + 1) ++ fed.drop k <+: fed.take 1 ++ fed) : k = 0 := by
  by_contra hpos
  have hlen : (fed.take (k + 1) ++ fed.drop k).length = fed.length + 1 := by
    rw [List.length_append, List.length_take, List.length_drop]
    omega
  rcases h with h | h
  · have := h.length_le
    omega
  · have hsame : fed.take (k + 1) ++ fed.drop k = fed.take 1 ++ fed := by
      apply h.eq_of_length
      rw [hlen, List.length_append, List.length_take]
      omega
    -- the second packet would be the first once more
    have hnodup : (fed.map FedPacket.call).Nodup := hcalls ▸ List.nodup_range
    match fed, k, hk, hpos, hsame, hnodup with
    | [_], k, hk, hpos, _, _ => exact hpos (Nat.lt_one_iff.mp hk)
    | first :: second :: rest, j + 1, _, _, hsame, hnodup =>
      have hsecond : second = first := (List.cons.inj (List.cons.inj hsame).2).1
      simp [hsecond] at hnodup

theorem onlyFirstTwice_iff {s : RtpDemux} (hs : s.Framed) (ho : s.Ordered) (hkept : s.evicted = []) :
    (∀ reads t, EachStep step IsRead s reads → run step s reads = some t → t.OnlyFirstTwice) ↔
      ∀ k, s.duplicated = some k → k = 0 := by
  constructor
  · intro h k hk
    obtain ⟨reads, t, hreads, hrun, hnone⟩ := exists_drain hs
    have hsame := samePackets_reads hreads hrun
    have htwice := h reads t hreads hrun
    rw [OnlyFirstTwice, started_of_next_none hnone, hsame.sequence, hsame.fed, ho.complete hkept, expected, hk] at htwice
    exact copied_first ho.calls (ho.duplicated k hk) htwice
  · intro h reads t hreads hrun
    have hsame := samePackets_reads hreads hrun
    have hfront : t.started <+: s.expected := by
      rw [← ho.complete hkept, ← hsame.sequence]
      exact List.prefix_append ..
    rw [OnlyFirstTwice, hsame.fed]
    unfold expected at hfront
    split at hfront
    · exact .inl hfront
    · next k hk =>
      obtain rfl := h k hk
      exact .inr hfront

/-- Without evictions, a reader sees the first packet at most twice and every other once exactly when the copy, if one
is made, is made before any packet is read. -/
theorem only_first_duplicated_iff (acts : List RtpAction) (s : RtpDemux) (hrun : run step {} acts = some s)
    (hkept : s.evicted = []) :
    (∀ reads t, EachStep step IsRead s reads → run step s reads = some t → t.OnlyFirstTwice) ↔
      EachStep step CopiesFirst {} acts := by
  rw [onlyFirstTwice_iff (run_framed hrun) (run_ordered hrun) hkept,
    last_iff_eachStep (I := Ordered) (P := fun s => ∀ k, s.duplicated = some k → k = 0) (C := CopiesFirst)
      (fun _ _ _ hs h => ordered_step hs h) (fun _ _ _ hs h => duplicated_step_iff hs h) ordered_init hrun]
  exact and_iff_right nofun

/-- Two packets fed before the first read: the first is copied. -/
theorem only_first_duplicated_probation :
    ((({} : RtpDemux).feed (twelveBytes 1)).feed (twelveBytes 2)).duplicated = some 0 ∧
    ∀ reads t, EachStep step IsRead
        ((({} : RtpDemux).feed (twelveBytes 1)).feed (twelveBytes 2)) reads →
      run step ((({} : RtpDemux).feed (twelveBytes 1)).feed (twelveBytes 2)) reads = some t → t.OnlyFirstTwice :=
  ⟨by decide,
    (only_first_duplicated_iff [.feed (twelveBytes 1), .feed (twelveBytes 2)] _ rfl (by decide)).mpr (by decide)⟩

/-- The first packet is read before the second is fed, the second is not read before the third is: the second is
delivered twice. -/
theorem second_packet_twice :
    ∃ s, run step {} [.feed (twelveBytes 1), .read 1500, .feed (twelveBytes 2), .feed (twelveBytes 3),
        .read 1500, .read 1500, .read 1500] = some s ∧
      s.evicted = [] ∧ s.started.map FedPacket.call = [0, 1, 1, 2] ∧ ¬ s.OnlyFirstTwice :=
  ⟨_, rfl, by decide, by decide, by decide⟩

end LivestreamRs.Media.RtpDemux
