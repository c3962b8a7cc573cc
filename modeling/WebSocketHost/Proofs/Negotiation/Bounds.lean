import WebSocketHost.Proofs.Negotiation.Arrival
import WebSocketHost.Proofs.RequestHead.Extent

/-! How long a negotiation reads, whoever the peer is. Nothing counts the reads: they end because
a buffer of more than 8192 bytes is always decided. So a peer that never stops is answered too, and
what is held of it never exceeds that size by more than one read. -/
namespace WebSocketHost

namespace Negotiation

open RequestHead

/-- What a read comes to. -/
inductive Reading
  | bytes (piece : Octets)
  /-- There is nothing more, for this reason. -/
  | nothing (failure : Failure)

/-- A peer as its reads show it, one after another, perhaps without end. -/
structure Source where
  read : Nat → Reading
  piece : ∀ n bytes, read n = .bytes bytes → bytes ≠ [] ∧ bytes.length ≤ 4096

/-- How the reading of a request went. -/
structure Intake where
  /-- What was in the buffer whenever a read was made, the latest first. -/
  held : List Octets
  buffer : Octets
  result : Except Failure (Except ReadError (RequestHead × Octets))

/-- A buffer that is not decided is no larger than a head may be. -/
theorem length_of_verdict?_none {buffer : Octets} (h : verdict? buffer = none) :
    buffer.length ≤ RequestHead.maxSize := by
  obtain ⟨available, hread⟩ := incomplete_of_verdict?_none h
  exact (read_eq_incomplete_iff.mp hread).2.1

namespace Source

/-- Reads until the bytes so far decide, or there are no more. -/
def intake (s : Source) (held : List Octets) (buffer : Octets) : Intake :=
  match _hv : verdict? buffer with
  | some v => ⟨held, buffer, .ok v⟩
  | none =>
    match _hr : s.read held.length with
    | .bytes piece => s.intake (buffer :: held) (buffer ++ piece)
    | .nothing failure => ⟨buffer :: held, buffer, .error failure⟩
termination_by RequestHead.maxSize + 1 - buffer.length
decreasing_by
  have hsize := length_of_verdict?_none _hv
  have hpiece := List.length_pos_iff.mpr (s.piece _ _ _hr).1
  rw [List.length_append]
  omega

variable {s : Source} {held : List Octets} {buffer piece : Octets}

/-- What is in the buffer bounds the reads that filled it. -/
structure Within (held : List Octets) (buffer : Octets) : Prop where
  reads : held.length ≤ buffer.length
  latest : held.length ≤ RequestHead.maxSize + 1
  size : buffer.length ≤ RequestHead.maxSize + Peer.readSize
  whenRead : ∀ b ∈ held, b.length ≤ RequestHead.maxSize

theorem Within.read (h : Within held buffer) (hv : verdict? buffer = none)
    (hpiece : piece ≠ [] ∧ piece.length ≤ Peer.readSize) :
    Within (buffer :: held) (buffer ++ piece) := by
  have hsize := length_of_verdict?_none hv
  have hreads := h.reads
  have hpos := List.length_pos_iff.mpr hpiece.1
  have hmost := hpiece.2
  constructor
  · simp only [List.length_cons, List.length_append]
    omega
  · simp only [List.length_cons]
    omega
  · simp only [List.length_append]
    omega
  · exact List.forall_mem_cons.mpr ⟨hsize, h.whenRead⟩

/-- The reads end with bytes that decide, or with a read that gives no more. -/
inductive Concludes (s : Source) : Intake → Prop
  | decided {i : Intake} {v : Except ReadError (RequestHead × Octets)}
    (hv : verdict? i.buffer = some v) (hresult : i.result = .ok v) : Concludes s i
  | ranOut {i : Intake} {n : Nat} {failure : Failure} (hv : verdict? i.buffer = none)
    (hn : i.held.length = n + 1) (hr : s.read n = .nothing failure)
    (hresult : i.result = .error failure) : Concludes s i

theorem concludes (s : Source) (held : List Octets) (buffer : Octets) :
    s.Concludes (s.intake held buffer) := by
  fun_induction intake s held buffer with
  | case1 held buffer v hv => exact .decided hv rfl
  | case2 held buffer hv piece hr ih => exact ih
  | case3 held buffer hv failure hr => exact .ranOut hv rfl hr rfl

theorem bounds (h : Within held buffer) :
    (∀ b ∈ (s.intake held buffer).held, b.length ≤ RequestHead.maxSize) ∧
      (s.intake held buffer).held.length ≤ RequestHead.maxSize + 1 ∧
      (s.intake held buffer).buffer.length ≤ RequestHead.maxSize + Peer.readSize := by
  fun_induction intake s held buffer with
  | case1 held buffer v hv => exact ⟨h.whenRead, h.latest, h.size⟩
  | case2 held buffer hv piece hr ih => exact ih (h.read hv (s.piece _ _ hr))
  | case3 held buffer hv failure hr =>
    have hsize := length_of_verdict?_none hv
    have hreads := h.reads
    refine ⟨List.forall_mem_cons.mpr ⟨hsize, h.whenRead⟩, ?_, h.size⟩
    simp only [List.length_cons]
    omega

/-! ### Peers as sources -/

theorem length_held_le (s : Source) (held : List Octets) (buffer : Octets) :
    held.length ≤ (s.intake held buffer).held.length := by
  fun_induction intake s held buffer with
  | case1 held buffer v hv => exact Nat.le_refl _
  | case2 held buffer hv piece hr ih =>
    simp only [List.length_cons] at ih
    omega
  | case3 held buffer hv failure hr => simp

/-- Reads that are never made do not matter. -/
theorem intake_congr {s' : Source}
    (h : ∀ n < (s.intake held buffer).held.length, s'.read n = s.read n) :
    s'.intake held buffer = s.intake held buffer := by
  fun_induction intake s held buffer with
  | case1 held buffer v hv =>
    rw [intake]
    split <;> simp_all
  | case2 held buffer hv piece hr ih =>
    have hmade : held.length < (s.intake (buffer :: held) (buffer ++ piece)).held.length :=
      s.length_held_le (buffer :: held) (buffer ++ piece)
    rw [intake]
    split
    · simp_all
    · split
      · next hr' => simp_all
      · next hr' => simp_all
  | case3 held buffer hv failure hr =>
    have hmade := h held.length (Nat.lt_succ_self _)
    rw [intake]
    split
    · simp_all
    · split <;> simp_all

end Source

end Negotiation

namespace Peer

theorem pieces_bounds {b piece : Octets} (h : piece ∈ pieces b) :
    piece ≠ [] ∧ piece.length ≤ readSize := by
  fun_induction pieces b with
  | case1 => cases h
  | case2 b hb ih =>
    rcases List.mem_cons.mp h with rfl | h
    · exact ⟨by simpa [List.take_eq_nil_iff, readSize] using hb, List.length_take_le ..⟩
    · exact ih h

theorem pieces_of_bounds {b : Octets} (h : b ≠ [] ∧ b.length ≤ readSize) : pieces b = [b] := by
  have hnone : pieces [] = [] := by rw [pieces, dif_pos rfl]
  rw [pieces, dif_neg h.1, List.take_of_length_le h.2, List.drop_eq_nil_of_le h.2, hnone]

/-- Chunks that are no longer than a read are read one by one. -/
theorem flatMap_pieces {chunks : List Octets} (h : ∀ b ∈ chunks, b ≠ [] ∧ b.length ≤ readSize) :
    chunks.flatMap pieces = chunks := by
  induction chunks with
  | nil => rfl
  | cons b chunks ih =>
    obtain ⟨hb, hchunks⟩ := List.forall_mem_cons.mp h
    rw [List.flatMap_cons, pieces_of_bounds hb, ih hchunks, List.singleton_append]

open Negotiation in
/-- What a peer sends, as its reads show it. -/
def source (p : Peer) : Source where
  read n :=
    match p.reads[n]? with
    | some piece => .bytes piece
    | none => .nothing (if p.readFails then .io else .connectionClosed)
  piece n bytes h := by
    split at h
    · next piece hpiece =>
      cases h
      obtain ⟨chunk, -, hmem⟩ := List.mem_flatMap.mp (List.mem_of_getElem? hpiece)
      exact pieces_bounds hmem
    · cases h

open Negotiation in
theorem source_read_of_some {p : Peer} {n : Nat} {piece : Octets}
    (h : p.reads[n]? = some piece) : p.source.read n = .bytes piece := by
  unfold source
  dsimp only
  rw [h]

open Negotiation in
theorem source_read_of_none {p : Peer} {n : Nat} (h : p.reads[n]? = none) :
    p.source.read n = .nothing (if p.readFails then .io else .connectionClosed) := by
  unfold source
  dsimp only
  rw [h]

open Negotiation in
theorem source_bytes (p : Peer) {n : Nat} {piece : Octets} (h : p.source.read n = .bytes piece) :
    p.reads[n]? = some piece := by
  unfold source at h
  dsimp only at h
  split at h
  · next piece' hpiece =>
    cases h
    exact hpiece
  · cases h

open Negotiation in
theorem source_nothing (p : Peer) {n : Nat} {failure : Failure}
    (h : p.source.read n = .nothing failure) :
    p.reads[n]? = none ∧ failure = if p.readFails then .io else .connectionClosed := by
  unfold source at h
  dsimp only at h
  split at h
  · cases h
  · next hnone =>
    cases h
    exact ⟨hnone, rfl⟩

end Peer

namespace Negotiation

open RequestHead

namespace Source

/-- Only the last read that is made may give no bytes. -/
theorem bytes_of_later (s : Source) (held : List Octets) (buffer : Octets) {n : Nat}
    (hn : held.length ≤ n) (hlater : n + 1 < (s.intake held buffer).held.length) :
    ∃ piece, s.read n = .bytes piece := by
  fun_induction intake s held buffer with
  | case1 held buffer v hv =>
    dsimp only at hlater
    omega
  | case2 held buffer hv piece hr ih =>
    rcases Nat.eq_or_lt_of_le hn with rfl | hn
    · exact ⟨piece, hr⟩
    · exact ih hn hlater
  | case3 held buffer hv failure hr =>
    simp only [List.length_cons] at hlater
    omega

/-- What the first reads give, as chunks. -/
theorem exists_chunks (s : Source) {made : Nat} (h : ∀ n < made, ∃ piece, s.read n = .bytes piece) :
    ∃ chunks : List Octets, chunks.length = made ∧ chunks.flatMap Peer.pieces = chunks ∧
      ∀ n piece, chunks[n]? = some piece → s.read n = .bytes piece := by
  induction made with
  | zero => exact ⟨[], rfl, rfl, nofun⟩
  | succ made ih =>
    obtain ⟨chunks, hlength, hpieces, hread⟩ := ih fun n hn => h n (Nat.lt_succ_of_lt hn)
    obtain ⟨piece, hpiece⟩ := h made (Nat.lt_succ_self made)
    have hlast : [piece].flatMap Peer.pieces = [piece] :=
      Peer.flatMap_pieces (List.forall_mem_singleton.mpr (s.piece made piece hpiece))
    refine ⟨chunks ++ [piece], ?_, ?_, fun n b hb => ?_⟩
    · rw [List.length_append, hlength, List.length_singleton]
    · rw [List.flatMap_append, hpieces, hlast]
    · rcases Nat.lt_or_ge n chunks.length with hn | hn
      · rw [List.getElem?_append_left hn] at hb
        exact hread n b hb
      · rw [List.getElem?_append_right hn, List.getElem?_singleton] at hb
        split at hb
        · next hzero =>
          cases hb
          rw [← hpiece]
          exact congrArg s.read (by omega)
        · cases hb

/-- Peers that send what the first reads give, and then nothing more. -/
theorem exists_front (s : Source) {made : Nat} (h : ∀ n < made, ∃ piece, s.read n = .bytes piece) :
    ∃ chunks : List Octets, ∀ readFails writeFails,
      let p : Peer := ⟨chunks, readFails, writeFails⟩
      (∀ n < made, p.source.read n = s.read n) ∧ p.reads[made]? = none := by
  obtain ⟨chunks, rfl, hpieces, hread⟩ := s.exists_chunks h
  refine ⟨chunks, fun readFails writeFails => ⟨fun n hn => ?_, ?_⟩⟩
  · have hsome : chunks[n]? = some chunks[n] := List.getElem?_eq_getElem hn
    rw [hread n _ hsome]
    apply Peer.source_read_of_some
    show (chunks.flatMap Peer.pieces)[n]? = some chunks[n]
    rw [hpieces, hsome]
  · show (chunks.flatMap Peer.pieces)[chunks.length]? = none
    rw [hpieces, List.getElem?_eq_none (Nat.le_refl _)]

/-- A source is a peer as far as it is read, even one that never stops. -/
theorem exists_peer (s : Source) (writeFails : Bool) : ∃ p : Peer, p.writeFails = writeFails ∧
    ∀ n < (s.intake [] []).held.length, p.source.read n = s.read n := by
  have hbytes : ∀ n, n + 1 < (s.intake [] []).held.length → ∃ piece, s.read n = .bytes piece :=
    fun n hn => s.bytes_of_later [] [] (Nat.zero_le n) hn
  generalize (s.intake [] []).held.length = made at hbytes
  cases made with
  | zero => exact ⟨⟨[], false, writeFails⟩, rfl, nofun⟩
  | succ last =>
    cases hlast : s.read last with
    | bytes piece =>
      have hall : ∀ n < last + 1, ∃ piece, s.read n = .bytes piece := by
        intro n hn
        rcases Nat.lt_succ_iff_lt_or_eq.mp hn with hn | rfl
        · exact hbytes n (Nat.succ_lt_succ hn)
        · exact ⟨piece, hlast⟩
      obtain ⟨chunks, hfront⟩ := s.exists_front hall
      exact ⟨⟨chunks, false, writeFails⟩, rfl, (hfront false writeFails).1⟩
    | nothing failure =>
      obtain ⟨chunks, hfront⟩ := s.exists_front fun n hn => hbytes n (Nat.succ_lt_succ hn)
      obtain ⟨hread, hnone⟩ := hfront (failure = .io) writeFails
      refine ⟨⟨chunks, failure = .io, writeFails⟩, rfl, fun n hn => ?_⟩
      rcases Nat.lt_succ_iff_lt_or_eq.mp hn with hn | rfl
      · exact hread n hn
      · rw [Peer.source_read_of_none hnone, hlast]
        cases failure <;> rfl

end Source

/-- A negotiation ends with the one response that belongs to what was read, or with an error and
nothing written. -/
inductive Ends (path : String) (writeFails : Bool) :
    Except Failure (Except ReadError (RequestHead × Octets)) →
      Except Failure Outcome → String → Prop
  | responded {v : Except ReadError (RequestHead × Octets)} {outcome : Outcome} {written : String}
    (hwrites : writeFails = false) (hresponds : Responds path v outcome written) :
    Ends path writeFails (.ok v) (.ok outcome) written
  | unwritten {v : Except ReadError (RequestHead × Octets)} (hfails : writeFails = true) :
    Ends path writeFails (.ok v) (.error .io) ""
  | unread {failure : Failure} : Ends path writeFails (.error failure) (.error failure) ""

theorem intake_source (p : Peer) (held : List Octets) (buffer : Octets) :
    (p.source.intake held buffer).result =
      match arrive buffer (p.reads.drop held.length) with
      | some a => .ok a.result
      | none => .error (if p.readFails then .io else .connectionClosed) := by
  fun_induction Source.intake p.source held buffer with
  | case1 held buffer v hv => cases p.reads.drop held.length <;> simp [arrive, hv]
  | case2 held buffer hv piece hr ih =>
    obtain ⟨hlt, hpiece⟩ := List.getElem?_eq_some_iff.mp (p.source_bytes hr)
    rw [List.drop_eq_getElem_cons hlt, hpiece, arrive, hv]
    exact ih
  | case3 held buffer hv failure hr =>
    obtain ⟨hnone, rfl⟩ := p.source_nothing hr
    rw [List.drop_eq_nil_of_le (List.getElem?_eq_none_iff.mp hnone), arrive, hv]
    rfl

theorem run_ends (path : String) (p : Peer) :
    Ends path p.writeFails (p.source.intake [] []).result (run path p).result
      (run path p).written := by
  have hintake := intake_source p [] []
  rw [List.length_nil, List.drop_zero] at hintake
  rw [hintake]
  unfold run
  cases arrive [] p.reads with
  | none => exact .unread
  | some a =>
    cases hp : p.writeFails with
    | true => exact .unwritten rfl
    | false => exact .responded rfl (responds_answer path a.result)

/-- Whoever the peer is, even one that never stops, and in whatever pieces of at most 4096 bytes
it sends: a read is made only while at most 8192 bytes are held, there are at most 8193 reads, and
at most 12288 bytes are held in the end. The bytes then decide, or the last read has given none.
There are peers that send the same, as far as it is read, and a negotiation with any of them ends
with the response that belongs to those bytes written, or with an error. -/
theorem intake_is_bounded (path : String) (s : Source) :
    let i := s.intake [] []
    (∀ b ∈ i.held, b.length ≤ 8192) ∧ i.held.length ≤ 8193 ∧ i.buffer.length ≤ 12288 ∧
      s.Concludes i ∧
      (∀ writeFails, ∃ p : Peer, p.writeFails = writeFails ∧
        ∀ n < i.held.length, p.source.read n = s.read n) ∧
      ∀ p : Peer, (∀ n < i.held.length, p.source.read n = s.read n) →
        Ends path p.writeFails i.result (run path p).result (run path p).written := by
  intro i
  obtain ⟨hheld, hreads, hsize⟩ : (∀ b ∈ i.held, b.length ≤ RequestHead.maxSize) ∧
      i.held.length ≤ RequestHead.maxSize + 1 ∧
      i.buffer.length ≤ RequestHead.maxSize + Peer.readSize :=
    Source.bounds ⟨Nat.le_refl 0, Nat.zero_le _, Nat.zero_le _, nofun⟩
  refine ⟨hheld, hreads, hsize, s.concludes [] [], s.exists_peer, fun p hsame => ?_⟩
  have hends := run_ends path p
  rwa [Source.intake_congr hsame] at hends

/-- A peer that sends one piece over and over. -/
def Source.repeating (piece : Octets) (h : piece ≠ [] ∧ piece.length ≤ 4096) : Source where
  read _ := .bytes piece
  piece _ bytes heq := by
    cases heq
    exact h

/-- A peer that sends empty lines one by one for ever is answered, and so is one that sends 8193
of them. -/
theorem intake_is_bounded_endless_lines :
    let s : Source := .repeating [lineFeed] (by decide)
    let p : Peer := ⟨List.replicate 8193 [lineFeed], false, false⟩
    (s.intake [] []).held.length ≤ 8193 ∧ (∃ v, (s.intake [] []).result = .ok v) ∧
      ∃ reason, (run "/" p).result = .ok (.badRequest reason) ∧
        (run "/" p).written =
          "HTTP/1.1 400 Bad Request\r\nSec-WebSocket-Version: 13\r\nConnection: close\r\n" ++
            "Content-Length: 0\r\n\r\n" := by
  intro s p
  obtain ⟨-, hreads, -, hconcludes, -, hends⟩ := intake_is_bounded "/" s
  have hdecided : ∃ v, (s.intake [] []).result = .ok v := by
    cases hconcludes with
    | decided _ hresult => exact ⟨_, hresult⟩
    | ranOut _ _ hr => cases hr
  refine ⟨hreads, hdecided, ?_⟩
  have hlines : p.reads = List.replicate 8193 [lineFeed] :=
    Peer.flatMap_pieces fun b hb => by
      rw [List.eq_of_mem_replicate hb]
      decide
  have hend := hends p fun n hn => by
    have hsome : p.reads[n]? = some [lineFeed] := by
      rw [hlines, List.getElem?_replicate, if_pos (Nat.lt_of_lt_of_le hn hreads)]
    exact Peer.source_read_of_some hsome
  have hkind : (run "/" p).kind = .badRequest := by
    have hsettled : (settle "/" p.chunks.flatten p.readFails).1 = .badRequest := by decide +kernel
    rw [← run_settles "/" (p := p) rfl] at hsettled
    exact hsettled
  obtain ⟨v, hv⟩ := hdecided
  rw [hv] at hend
  generalize run "/" p = e at hend hkind
  obtain ⟨result, written, unread⟩ := e
  cases hend with
  | unwritten hfails => cases hfails
  | responded _ hresponds =>
    cases hresponds with
    | refused | unreadable => exact ⟨_, rfl, rfl⟩
    | upgraded | pageServed | methodNotAllowed => cases hkind

end Negotiation

end WebSocketHost
