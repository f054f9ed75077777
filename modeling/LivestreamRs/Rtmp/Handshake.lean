import LivestreamRs.Foundations.InputStream
import LivestreamRs.Media.Packet

/-! # From the RTMP handshake to the session

`RtmpConnection::perform_handshake` (`livestream-transport/src/rtmp/connection.rs`) and `SessionGuard::read_result`
(`rtmp/session.rs`), without cancellation. `rml_rtmp`'s `Handshake` is an interface: it collects the client's
bytes and, once they are complete, reports those it did not use. `perform_handshake` ignores that report.
-/
namespace LivestreamRs.Rtmp
open Foundations Media
set_option autoImplicit false

/-! ## The handshake -/

inductive HandshakeProcessResult
  | inProgress (responseBytes : Bytes)
  | completed (responseBytes remainingBytes : Bytes)

/-- `rml_rtmp::handshake::Handshake`; an error is `none`. -/
structure Handshake (H : Type) where
  new : H
  processBytes : H → Bytes → Option (H × HandshakeProcessResult)

/-- What a client sends: C0, C1 and C2. -/
structure ClientHandshake where
  c0 : Bytes
  c1 : Bytes
  c2 : Bytes
  length_c0 : c0.length = 1
  length_c1 : c1.length = 1536
  length_c2 : c2.length = 1536

def ClientHandshake.bytes (client : ClientHandshake) : Bytes := client.c0 ++ client.c1 ++ client.c2

theorem ClientHandshake.length_bytes (client : ClientHandshake) : client.bytes.length = 3073 := by
  simp [bytes, client.length_c0, client.length_c1, client.length_c2]

/-- The handshake accepts these bytes of a client: it waits until it has received them all, and reports what
came after them. -/
structure Handshake.Accepts {H : Type} (hs : Handshake H) (received : H → Bytes) (client : Bytes) : Prop where
  new : received hs.new = []
  inProgress : ∀ h data, (received h ++ data).length < client.length → received h ++ data <+: client →
    ∃ h' response, hs.processBytes h data = some (h', .inProgress response) ∧ received h' = received h ++ data
  completed : ∀ h data rest, (received h).length < client.length → received h ++ data = client ++ rest →
    ∃ h' response, hs.processBytes h data = some (h', .completed response rest)

inductive RtmpFailure
  -- "Connection closed"
  | connectionClosed
  | handshakeError
  -- the loop was not run to its end
  | unfinished
  deriving DecidableEq

section Connection
variable {H σ : Type} [InputStream σ UInt8]

/-- The loop of `perform_handshake`, for at most `fuel` reads into its buffer of 1536 bytes; it returns the
responses written to the client. -/
def performHandshake (hs : Handshake H) : ℕ → H → Bytes → Reader RtmpFailure σ Bytes
  | 0, _, _ => throw (.failed .unfinished)
  | fuel + 1, h, written => do
    let buffer ← modifyGet (read 1536)
    if buffer.isEmpty then throw (.failed .connectionClosed)
    else
      match hs.processBytes h buffer with
      | none => throw (.failed .handshakeError)
      | some (h, .inProgress response) => performHandshake hs fuel h (written ++ response)
      | some (_, .completed response _) => pure (written ++ response)

def minChunkSize : ℕ := 128

/-- The bytes one `read_result` gives to `handle_input`. -/
def readResult (chunkSize : ℕ) : Reader RtmpFailure σ Bytes := do
  let buffer ← modifyGet (read (max chunkSize minChunkSize))
  if buffer.isEmpty then throw (.failed .connectionClosed)
  else pure buffer

/-- Successive calls of `read_result`, each with the chunk size of its time, up to the first error. -/
def readResults : List ℕ → σ → List Bytes
  | [], _ => []
  | chunkSize :: sizes, s =>
    match readResult chunkSize s with
    | .error _ => []
    | .ok (buffer, s) => buffer :: readResults sizes s

/-- What the session is given after the handshake. -/
def sessionInput (hs : Handshake H) (fuel : ℕ) (sizes : List ℕ) (s : σ) : Option (List Bytes) :=
  match performHandshake hs fuel hs.new [] s with
  | .error _ => none
  | .ok (_, s) => some (readResults sizes s)

/-! ## What the session receives -/

theorem readResult_eq (chunkSize : ℕ) (s : σ) :
    readResult chunkSize s = if (read (max chunkSize minChunkSize) s).1 = [] then .error (.failed .connectionClosed)
      else .ok (read (max chunkSize minChunkSize) s) := by
  rw [readResult, read_bind]
  by_cases h : (read (max chunkSize minChunkSize) s).1 = []
  · rw [if_pos h, if_pos (by simpa using h)]
    rfl
  · rw [if_neg h, if_neg (by simpa using h)]
    rfl

/-- With enough calls, everything still to come. -/
theorem readResults_flatten (sizes : List ℕ) (s : σ) (h : (contents s).length ≤ sizes.length) :
    (readResults sizes s).flatten = contents s := by
  induction sizes generalizing s with
  | nil => exact (List.length_eq_zero_iff.mp (Nat.le_zero.mp h)).symm
  | cons chunkSize sizes ih =>
    have happend := InputStream.read_append (max chunkSize minChunkSize) s
    simp only [readResults, readResult_eq]
    by_cases hread : (read (max chunkSize minChunkSize) s).1 = []
    · rw [if_pos hread, contents_eq_nil_of_read (by simp [minChunkSize]) hread]
      rfl
    · rw [if_neg hread]
      have hpos := List.length_pos_iff.mpr hread
      have hrest : (contents (read (max chunkSize minChunkSize) s).2).length ≤ sizes.length := by
        rw [← happend, List.length_append, List.length_cons] at h
        omega
      rw [List.flatten_cons, ih _ hrest, happend]

/-- The loop reads until it has the client's whole handshake, and no further. -/
theorem performHandshake_complete {hs : Handshake H} {received : H → Bytes} {client : Bytes}
    (haccepts : hs.Accepts received client) (fuel : ℕ) (h : H) (written todo r : Bytes) (s : σ)
    (htodo : todo ≠ []) (hclient : received h ++ todo = client) (hstream : contents s = todo ++ r)
    (hfuel : todo.length ≤ fuel) :
    ∃ response s' k, performHandshake hs fuel h written s = .ok (response, s') ∧
      s' = (readPieces (List.replicate k 1536) s).2 ∧
      todo <+: (readPieces (List.replicate k 1536) s).1.flatten ∧
      ∀ i < k, (readPieces (List.replicate i 1536) s).1.flatten.length < todo.length := by
  induction fuel generalizing h written todo s with
  | zero => exact absurd (List.length_eq_zero_iff.mp (Nat.le_zero.mp hfuel)) htodo
  | succ fuel ih =>
    have happend := InputStream.read_append 1536 s
    have hread : (read 1536 s).1 ≠ [] := InputStream.read_ne_nil 1536 s (by decide) (by simp [hstream, htodo])
    have hpos := List.length_pos_iff.mpr hread
    rw [performHandshake, read_bind, if_neg (by simpa using hread)]
    generalize hpiece : (read 1536 s).1 = piece at *
    generalize hrest : (read 1536 s).2 = rest at *
    rw [hstream] at happend
    have htodoPos := List.length_pos_iff.mpr htodo
    obtain hlt | hge := Nat.lt_or_ge piece.length todo.length
    · -- the handshake is not complete, and the loop goes on with what is missing
      obtain ⟨todo', rfl⟩ : piece <+: todo :=
        List.prefix_of_prefix_length_le (happend ▸ List.prefix_append _ _) (List.prefix_append todo r) hlt.le
      have htodo' : todo' ≠ [] := by
        rintro rfl
        simp at hlt
      rw [List.append_assoc] at happend
      have hlength := congrArg List.length hclient
      simp only [List.length_append] at hlength hfuel hlt
      obtain ⟨h', response, hprocess, hreceived⟩ := haccepts.inProgress h piece
        (by rw [List.length_append]; omega) ⟨todo', by rw [List.append_assoc, hclient]⟩
      obtain ⟨responses, s', k, hrun, hs', hcovered, hbefore⟩ := ih h' (written ++ response) todo' rest htodo'
        (by rw [hreceived, List.append_assoc, hclient]) (List.append_cancel_left happend) (by omega)
      refine ⟨responses, s', k + 1, by simp only [hprocess, hrun], ?_, ?_, ?_⟩
      · rw [List.replicate_succ, readPieces, hrest, hs']
      · rw [List.replicate_succ, readPieces, hrest, hpiece, List.flatten_cons]
        exact (List.prefix_append_right_inj piece).mpr hcovered
      · intro i hi
        cases i with
        | zero => simpa [readPieces] using htodoPos
        | succ i =>
          have := hbefore i (Nat.lt_of_succ_lt_succ hi)
          rw [List.replicate_succ, readPieces, hrest, hpiece, List.flatten_cons, List.length_append, List.length_append]
          omega
    · obtain ⟨extra, rfl⟩ : todo <+: piece :=
        List.prefix_of_prefix_length_le (happend ▸ List.prefix_append todo r) (List.prefix_append _ _) hge
      have hlength := congrArg List.length hclient
      rw [List.length_append] at hlength
      obtain ⟨h', response, hprocess⟩ := haccepts.completed h (todo ++ extra) extra (by omega)
        (by rw [← List.append_assoc, hclient])
      refine ⟨written ++ response, rest, 1, by simp only [hprocess]; rfl, ?_, ?_, ?_⟩
      · rw [List.replicate_one, readPieces, hrest, readPieces]
      · rw [List.replicate_one, readPieces, hpiece, List.flatten_cons]
        exact (List.prefix_append _ _).trans (List.prefix_append _ _)
      · intro i hi
        obtain rfl := Nat.lt_one_iff.mp hi
        simpa [readPieces] using htodoPos

/-- The handshake completes, and the session then receives exactly what follows it if and only if some reads of
at most 1536 bytes return exactly the client's part of the handshake. -/
theorem handover_exact_iff (hs : Handshake H) (received : H → Bytes) (client : ClientHandshake) (r : Bytes)
    (haccepts : hs.Accepts received client.bytes) (s : σ) (hstream : contents s = client.bytes ++ r) (fuel : ℕ)
    (hfuel : 3073 ≤ fuel) (sizes : List ℕ) (hsizes : r.length ≤ sizes.length) :
    ∃ inputs, sessionInput hs fuel sizes s = some inputs ∧
      (inputs.flatten = r ↔ ∃ k, (readPieces (List.replicate k 1536) s).1.flatten = client.bytes) := by
  have hne : client.bytes ≠ [] := List.ne_nil_of_length_pos (by rw [client.length_bytes]; decide)
  obtain ⟨responses, s', k, hrun, rfl, hcovered, hbefore⟩ := performHandshake_complete haccepts fuel hs.new []
    client.bytes r s hne (by rw [haccepts.new, List.nil_append]) hstream (by rwa [client.length_bytes])
  refine ⟨readResults sizes (readPieces (List.replicate k 1536) s).2, by simp only [sessionInput, hrun], ?_⟩
  have happend := readPieces_append (List.replicate k 1536) s
  rw [hstream] at happend
  have hlength := congrArg List.length happend
  rw [List.length_append, List.length_append] at hlength
  have hle := hcovered.length_le
  rw [readResults_flatten sizes _ (by omega)]
  constructor
  · intro hr
    rw [hr] at happend
    exact ⟨k, List.append_cancel_right happend⟩
  · rintro ⟨i, hi⟩
    -- the loop stops at the first read that covers the handshake, which is not after the i-th
    have hki : k ≤ i := by
      by_contra hlt
      have := hbefore i (Nat.lt_of_not_le hlt)
      rw [hi] at this
      exact lt_irrefl _ this
    have hprefix := readPieces_mono (List.replicate k 1536) (List.replicate (i - k) 1536) s
    rw [List.replicate_append_replicate, Nat.add_sub_cancel' hki, hi] at hprefix
    rw [← hcovered.eq_of_length_le hprefix.length_le] at happend
    exact List.append_cancel_left happend

end Connection

/-! ## A handshake that counts -/

/-- A handshake that collects bytes until it has 3073 of them. -/
def collect : Handshake Bytes where
  new := []
  processBytes h data :=
    if (h ++ data).length < 3073 then some (h ++ data, .inProgress [])
    else some (h ++ data, .completed [] ((h ++ data).drop 3073))

theorem collect_accepts (client : ClientHandshake) : collect.Accepts id client.bytes where
  new := rfl
  inProgress h data hlength _ := by
    rw [client.length_bytes] at hlength
    exact ⟨h ++ data, [], if_pos hlength, rfl⟩
  completed h data rest hlength heq := by
    have hlong : ¬ (h ++ data).length < 3073 := by
      have := congrArg List.length heq
      simp only [id, List.length_append, client.length_bytes] at this ⊢
      omega
    have hdrop : (h ++ data).drop 3073 = rest := by
      rw [show h ++ data = client.bytes ++ rest from heq, ← client.length_bytes, List.drop_left]
    exact ⟨h ++ data, [], by simp only [collect, if_neg hlong, hdrop]⟩

def zeroClient : ClientHandshake :=
  ⟨[3], List.replicate 1536 0, List.replicate 1536 0, rfl, List.length_replicate, List.length_replicate⟩

/-- The client sends its first command after a pause: it is delivered. -/
theorem handover_after_pause :
    ∃ inputs, sessionInput collect 3073 [2048] (⟨[[3], List.replicate 1536 0, List.replicate 1536 0, [7]],
      by decide⟩ : Socket UInt8) = some inputs ∧ inputs.flatten = [7] := by
  obtain ⟨inputs, hinputs, hiff⟩ := handover_exact_iff collect id zeroClient [7] (collect_accepts zeroClient)
    (⟨[[3], List.replicate 1536 0, List.replicate 1536 0, [7]], by decide⟩ : Socket UInt8) (by decide +kernel) 3073
    le_rfl [2048] le_rfl
  exact ⟨inputs, hinputs, hiff.mpr ⟨3, by decide +kernel⟩⟩

/-- The client sends its first command right behind C2: the third read returns the last byte of the handshake
and the command, which is dropped. -/
theorem pipelined_command_dropped :
    sessionInput collect 3073 [2048] (⟨[zeroClient.bytes ++ [7]], by decide⟩ : Socket UInt8) = some [] := by
  decide +kernel

end LivestreamRs.Rtmp
