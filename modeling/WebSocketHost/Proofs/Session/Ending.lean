import WebSocketHost.Proofs.Session.Chunking
import WebSocketHost.Proofs.Session.Traffic

/-! How a session ends that does not start closing itself. `ClosedBy` lists what ends it,
each with its reason and with what the peer is told. What stands behind lawful traffic is
on that list, or goes on with the traffic, or waits for more bytes; so every stream is
traffic up to the first thing on the list, or all through. -/
namespace WebSocketHost

namespace Traffic

/-- The bytes behind the traffic end the session for this reason, and the payload is that
of the close frame in reply. -/
inductive ClosedBy (max : Nat) (t : Traffic) (rest : Octets) : SessionEnd → Octets → Prop
  | unlawful {h : Frame.Header} {b : Octets} (hread : Frame.Header.read? rest = some (h, b))
    (hlaw : ¬ h.Lawful) :
    ClosedBy max t rest (.violation .protocol) CloseCode.protocol.toOctets
  /-- The payload need not be there. -/
  | oversized {h : Frame.Header} {b : Octets} (hread : Frame.Header.read? rest = some (h, b))
    (hlaw : h.Lawful) (hmax : max < h.length) :
    ClosedBy max t rest (.violation .size) CloseCode.size.toOctets
  | close {f : Frame} {later reason : Octets} {high low : UInt8}
    (hd : Frame.decode max rest = .ok (f, later)) (hop : f.opcode = .close)
    (hp : f.payload = high :: low :: reason) :
    ClosedBy max t rest
      (.peerClosed (some ⟨UInt16.ofNat (high.toNat * 256 + low.toNat)⟩)) [high, low]
  | closeWithoutCode {f : Frame} {later : Octets} (hd : Frame.decode max rest = .ok (f, later))
    (hop : f.opcode = .close) (hp : f.payload.length < 2) :
    ClosedBy max t rest (.peerClosed none) CloseCode.normal.toOctets
  | misplaced {f : Frame} {later : Octets} (hd : Frame.decode max rest = .ok (f, later))
    (hdata : Reassembler.concerns f.opcode = true) (hexp : ¬ t.Expects f.opcode) :
    ClosedBy max t rest (.violation .protocol) CloseCode.protocol.toOctets
  | hollow {f : Frame} {later : Octets} (hd : Frame.decode max rest = .ok (f, later))
    (hexp : t.Expects f.opcode) (hfin : f.fin = false) (hp : f.payload = []) :
    ClosedBy max t rest (.violation .protocol) CloseCode.protocol.toOctets
  | tooLarge {f : Frame} {later : Octets} (hd : Frame.decode max rest = .ok (f, later))
    (hexp : t.Expects f.opcode) (hsize : max < (t.joined f).length) :
    ClosedBy max t rest (.violation .size) CloseCode.size.toOctets
  | tooMany {f : Frame} {later : Octets} (hd : Frame.decode max rest = .ok (f, later))
    (hexp : t.Expects f.opcode) (hsize : (t.joined f).length ≤ max)
    (hcount : 65536 < t.held.length + 1) :
    ClosedBy max t rest (.violation .protocol) CloseCode.protocol.toOctets
  | notText {f : Frame} {later : Octets} (hd : Frame.decode max rest = .ok (f, later))
    (hexp : t.Expects f.opcode) (hfin : f.fin = true) (hsize : (t.joined f).length ≤ max)
    (hcount : t.held.length + 1 ≤ 65536) (hop : t.opcodeWith f = .text)
    (htext : ∀ s, Text.utf8 s ≠ t.joined f) :
    ClosedBy max t rest (.violation .invalid) CloseCode.invalid.toOctets

variable {max : Nat} {t : Traffic} {f : Frame} {rest later : Octets}

/-- With one more frame it is traffic again. -/
def GoesOn (max : Nat) (t : Traffic) (f : Frame) : Prop :=
  ∃ u : Traffic, u.Proper max ∧
    u.frames.map Frame.unmasked = t.frames.map Frame.unmasked ++ [f]

/-- A data frame that is not on the list goes to the message in progress, or is one. -/
theorem closedBy_or_message (ht : t.Proper max) (hd : Frame.decode max rest = .ok (f, later))
    (hdata : Reassembler.concerns f.opcode = true) :
    (∃ reason reply, t.ClosedBy max rest reason reply) ∨ GoesOn max t f := by
  obtain ⟨_, _, hmem, _, _⟩ := Frame.Header.fault?_eq_none_iff.mp (Frame.acceptable_of_decode hd)
  by_cases hexp : t.Expects f.opcode
  case neg => exact .inl ⟨_, _, .misplaced hd hdata hexp⟩
  by_cases hsize : max < (t.joined f).length
  · exact .inl ⟨_, _, .tooLarge hd hexp hsize⟩
  by_cases hcount : 65536 < t.held.length + 1
  · exact .inl ⟨_, _, .tooMany hd hexp (Nat.not_lt.mp hsize) hcount⟩
  have hsize := Nat.not_lt.mp hsize
  have hcount := Nat.not_lt.mp hcount
  have hframe : ((t.fragment f).frame f.opcode f.fin).unmasked = f := (Frame.eq_of_decode hd).symm
  cases hfin : f.fin with
  | false =>
    by_cases hp : f.payload = []
    · exact .inl ⟨_, _, .hollow hd hexp hfin hp⟩
    · refine .inr ⟨t.withFragment f, ht.withFragment hexp hp hsize hcount hmem, ?_⟩
      rw [frames_withFragment hexp, List.map_append, ← hfin, List.map_singleton, hframe]
  | true =>
    have last (m : Message) (hm : m.frame = .whole (t.opcodeWith f) (t.joined f)) :
        GoesOn max t f := by
      have hpayload : m.frame.payload = t.joined f := congrArg Frame.payload hm
      refine ⟨t.withLast f m, ht.withLast hpayload hsize hcount hmem, ?_⟩
      rw [frames_withLast hexp (congrArg Frame.opcode hm), List.map_append, ← hfin,
        List.map_singleton, hframe]
    have hop : t.opcodeWith f = .text ∨ t.opcodeWith f = .binary := by
      unfold opcodeWith
      cases hbegun : t.begun with
      | none => exact (expects_iff_of_none hbegun).mp hexp
      | some u => exact (ht.begun u hbegun).opcode
    rcases hop with hop | hop
    · cases htext : Text.ofUtf8? (t.joined f) with
      | some s =>
        right
        apply last (.text s)
        rw [hop, Message.frame, Text.ofUtf8?_eq_some_iff.mp htext]
      | none =>
        refine .inl ⟨_, _, .notText hd hexp hfin hsize hcount hop ?_⟩
        intro s hs
        rw [← hs, Text.ofUtf8?_utf8] at htext
        cases htext
    · right
      apply last (.binary (t.joined f))
      rw [hop, Message.frame]

theorem closedBy_or_frame (ht : t.Proper max) (hd : Frame.decode max rest = .ok (f, later)) :
    (∃ reason reply, t.ClosedBy max rest reason reply) ∨ GoesOn max t f := by
  obtain ⟨hres, _, _, hcontrol, hmax⟩ :=
    Frame.Header.fault?_eq_none_iff.mp (Frame.acceptable_of_decode hd)
  have beat (b : Beat) (hb : b.frame.unmasked = f) (hlen : b.payload = f.payload)
      (hc : f.opcode.isControl = true) : GoesOn max t f := by
    refine ⟨t.withBeat b, ht.withBeat ?_, ?_⟩
    · rw [hlen]
      exact Nat.le_min.mpr ⟨(hcontrol hc).2, hmax⟩
    · rw [frames_withBeat, List.map_append, List.map_singleton, hb]
  have hwhole (hc : f.opcode.isControl = true) : Frame.whole f.opcode f.payload = f := by
    have hfin : f.fin = true := (hcontrol hc).1
    rw [Frame.eq_of_decode hd, hfin]
    rfl
  cases hop : f.opcode with
  | continuation => exact closedBy_or_message ht hd (by rw [hop]; rfl)
  | text => exact closedBy_or_message ht hd (by rw [hop]; rfl)
  | binary => exact closedBy_or_message ht hd (by rw [hop]; rfl)
  | ping =>
    have hc : f.opcode.isControl = true := by rw [hop]; rfl
    exact .inr (beat (.ping f.payload none) (by rw [← hwhole hc, hop]; rfl) rfl hc)
  | pong =>
    have hc : f.opcode.isControl = true := by rw [hop]; rfl
    exact .inr (beat (.pong f.payload none) (by rw [← hwhole hc, hop]; rfl) rfl hc)
  | close =>
    left
    match hp : f.payload with
    | [] => exact ⟨_, _, .closeWithoutCode hd hop (by simp [hp])⟩
    | [_] => exact ⟨_, _, .closeWithoutCode hd hop (by simp [hp])⟩
    | high :: low :: reason => exact ⟨_, _, .close hd hop hp⟩
  | reservedData i =>
    rw [Frame.header, hop] at hres
    cases hres
  | reservedControl i =>
    rw [Frame.header, hop] at hres
    cases hres

theorem exists_reads_behind {b : Octets} (ht : t.Proper max)
    (hreads : Frame.Reads max b (t.frames.map Frame.unmasked) rest) :
    ∃ u : Traffic, ∃ left, u.Proper max ∧ Frame.Reads max b (u.frames.map Frame.unmasked) left ∧
      (Frame.Waiting max left ∨ ∃ reason reply, u.ClosedBy max left reason reply) := by
  -- on the bytes not yet read: each frame takes some of them
  induction hn : rest.length using Nat.strongRecOn generalizing t rest with
  | ind n ih =>
    rcases Frame.verdict max rest with hwait | ⟨h, b', hread, hlaw⟩ |
      ⟨h, b', hread, hlaw, hmax⟩ | ⟨f, later, hd⟩
    · exact ⟨t, rest, ht, hreads, .inl hwait⟩
    · exact ⟨t, rest, ht, hreads, .inr ⟨_, _, .unlawful hread hlaw⟩⟩
    · exact ⟨t, rest, ht, hreads, .inr ⟨_, _, .oversized hread hlaw hmax⟩⟩
    · rcases closedBy_or_frame ht hd with hclosed | ⟨u, hu, hframes⟩
      · exact ⟨t, rest, ht, hreads, .inr hclosed⟩
      · have hshort := Frame.length_of_decode hd
        have hreads' := hreads.concat hd
        rw [← hframes] at hreads'
        exact ih later.length (by omega) hu hreads' rfl

/-- Every stream is traffic, and behind it something that ends the session or nothing yet. -/
theorem exists_reads (max : Nat) (b : Octets) :
    ∃ t : Traffic, ∃ rest, t.Proper max ∧ Frame.Reads max b (t.frames.map Frame.unmasked) rest ∧
      (Frame.Waiting max rest ∨ ∃ reason reply, t.ClosedBy max rest reason reply) := by
  have hnone : (⟨[], none, []⟩ : Traffic).Proper max := ⟨nofun, nofun, nofun⟩
  exact exists_reads_behind hnone (.nil b)

end Traffic

namespace Session

open Traffic

/-- What a session does that ends for this reason, telling the peer so. -/
def endsWith (reason : SessionEnd) (reply : Octets) : Action :=
  .close (some (Frame.whole .close reply).encode) reason

section Refused

variable {s : Session}

theorem violate_open (hs : s.awaitingClose = false) (code : CloseCode) :
    s.violate code = (endsWith (.violation code) code.toOctets, s.ended) := by
  have hnotice : (CloseNotice.ofReason code "").frame = .whole .close code.toOctets := by
    have hreason : Text.utf8 (CloseNotice.ofReason code "").reason = [] := rfl
    rw [CloseNotice.frame, CloseNotice.payload, hreason, List.append_nil]
    rfl
  rw [violate_eq, hs, if_neg Bool.false_ne_true, hnotice]
  rfl

theorem peerClose_open (hs : s.awaitingClose = false) (payload : Octets) :
    s.peerClose payload =
      (endsWith (.peerClosed (CloseCode.ofPayload? payload)) (closeReply payload).payload,
        s.ended) := by
  rw [peerClose_eq, hs]
  rfl

theorem step_of_fault {b : Octets} {h : Frame.Header} {e : Frame.DecodeError} {code : CloseCode}
    (hs : s.finished = false) (hopen : s.awaitingClose = false)
    (hread : Frame.Header.read? s.buffer = some (h, b)) (hfault : h.fault? s.maxFrame = some e)
    (hcode : codeOfDecodeError e = code) :
    s.step = some (some (endsWith (.violation code) code.toOctets), s.ended) := by
  have he : ∀ available, e ≠ .incomplete available := by
    rintro available rfl
    exact Frame.Header.fault?_ne_incomplete _ _ _ hfault
  have hd : Frame.decode s.maxFrame s.buffer = .error e :=
    (Frame.decode_eq_refusal_iff he).mpr ⟨h, b, hread, hfault⟩
  rw [step_of_refusal hs he hd, refuse, hcode, violate_open hopen]

end Refused

section Absorbed

variable {max : Nat} {t : Traffic} {f : Frame} {rest later : Octets}

/-- The frame in front ends the session, so what stands behind it is never looked at. -/
def EndsAt (s : Session) (f : Frame) (reason : SessionEnd) (reply : Octets) : Prop :=
  ∃ u, s.absorb f = (some (endsWith reason reply), u) ∧ u.finished = true

theorem endsAt_refused {pending : Option PartialMessage} {e : ReassemblyError} {code : CloseCode}
    (hcon : Reassembler.concerns f.opcode = true)
    (hadv : Reassembler.advance (.ofMaxSize max) pending f = .error e)
    (hcode : codeOfReassemblyError e = code) :
    (midway max pending).EndsAt f (.violation code) code.toOctets := by
  have hpush := Reassembler.push_of_refused (r := (midway max pending).reassembler) hcon hadv
  have habs := absorb_of_error hpush
  rw [hcode, violate_open rfl] at habs
  exact ⟨_, habs, rfl⟩

theorem endsAt_not_text {g : Frame} {r : Reassembler}
    (hpush : (midway max t.pending).reassembler.push f = (.ok (some g), r)) (hop : g.opcode = .text)
    (htext : ∀ s, Text.utf8 s ≠ g.payload) :
    (midway max t.pending).EndsAt f (.violation .invalid) CloseCode.invalid.toOctets := by
  have hnone : Text.ofUtf8? g.payload = none := by
    cases h : Text.ofUtf8? g.payload with
    | none => rfl
    | some s => exact absurd (Text.ofUtf8?_eq_some_iff.mp h) (htext s)
  have hhandle : ({ midway max t.pending with reassembler := r } : Session).handle g =
      some (endsWith (.violation .invalid) CloseCode.invalid.toOctets,
        ({ midway max t.pending with reassembler := r } : Session).ended) := by
    unfold handle
    rw [hop]
    dsimp only
    rw [hnone]
    dsimp only
    rw [violate_open rfl]
    rfl
  exact ⟨_, absorb_of_handled hpush hhandle, rfl⟩

theorem endsAt_close (hop : f.opcode = .close) :
    (midway max t.pending).EndsAt f (.peerClosed (CloseCode.ofPayload? f.payload))
      (closeReply f.payload).payload := by
  have hcon : Reassembler.concerns f.opcode = false := by rw [hop]; rfl
  have hhandle : (midway max t.pending).handle f =
      some (endsWith (.peerClosed (CloseCode.ofPayload? f.payload)) (closeReply f.payload).payload,
        (midway max t.pending).ended) := by
    unfold handle
    rw [hop]
    dsimp only
    rw [peerClose_open rfl]
    rfl
  exact ⟨_, absorb_of_handled (Reassembler.push_of_not_concerned hcon) hhandle, rfl⟩

theorem lt_minFragment_iff {b : Octets} :
    b.length < (ReassemblyLimits.ofMaxSize max).minFragment ↔ b = [] := by
  show b.length < 1 ↔ b = []
  rw [Nat.lt_one_iff, List.length_eq_zero_iff]

/-- The verdict on a continuation, told by the message so far. -/
theorem advance_begun (max : Nat) {u : Begun} (hbegun : t.begun = some u)
    (hop : f.opcode = .continuation) :
    Reassembler.advance (.ofMaxSize max) t.pending f =
      if f.fin = false ∧ f.payload = [] then .error (.fragmentTooSmall f.payload.length 1)
      else if max < (t.joined f).length then .error (.messageTooLarge (t.joined f).length max)
      else if 65536 < t.held.length + 1 then .error (.tooManyFragments 65536)
      else .ok (if f.fin then .whole ((PartialMessage.gathered u.opcode t.held).extend f).frame
        else .collected ((PartialMessage.gathered u.opcode t.held).extend f)) := by
  rw [pending_of_some hbegun, Reassembler.advance_continuation _ _ hop, length_joined]
  simp only [lt_minFragment_iff]
  rfl

theorem endsAt_misplaced (hdata : Reassembler.concerns f.opcode = true)
    (hexp : ¬ t.Expects f.opcode) :
    (midway max t.pending).EndsAt f (.violation .protocol) CloseCode.protocol.toOctets := by
  cases hbegun : t.begun with
  | none =>
    rw [expects_iff_of_none hbegun] at hexp
    have hop : f.opcode = .continuation := Decidable.byContradiction fun hop =>
      hexp (Reassembler.initial_of_concerns hdata hop)
    rw [pending_of_none hbegun]
    exact endsAt_refused hdata (Reassembler.advance_unexpected hop) rfl
  | some u =>
    rw [expects_iff_of_some hbegun] at hexp
    rw [pending_of_some hbegun]
    exact endsAt_refused hdata (Reassembler.advance_interleaved hexp) rfl

theorem endsAt_hollow (hexp : t.Expects f.opcode) (hfin : f.fin = false) (hp : f.payload = []) :
    (midway max t.pending).EndsAt f (.violation .protocol) CloseCode.protocol.toOctets := by
  have hcon := concerns_of_expects hexp
  cases hbegun : t.begun with
  | none =>
    have hop := Reassembler.initial_ne_continuation ((expects_iff_of_none hbegun).mp hexp)
    have hadv := Reassembler.advance_first (.ofMaxSize max) hop
    rw [if_neg (Bool.eq_false_iff.mp hfin), if_pos (lt_minFragment_iff.mpr hp)] at hadv
    rw [pending_of_none hbegun]
    exact endsAt_refused hcon hadv rfl
  | some u =>
    have hadv := advance_begun max hbegun ((expects_iff_of_some hbegun).mp hexp)
    rw [if_pos ⟨hfin, hp⟩] at hadv
    exact endsAt_refused hcon hadv rfl

/-- Only a message in progress can grow too large: a single frame is no longer than `max`. -/
theorem endsAt_tooLarge (ht : t.Proper max) (hd : Frame.decode max rest = .ok (f, later))
    (hexp : t.Expects f.opcode) (hsize : max < (t.joined f).length) :
    (midway max t.pending).EndsAt f (.violation .size) CloseCode.size.toOctets := by
  obtain ⟨_, _, _, _, hmax⟩ := Frame.Header.fault?_eq_none_iff.mp (Frame.acceptable_of_decode hd)
  cases hbegun : t.begun with
  | none =>
    rw [joined_of_none hbegun] at hsize
    exact absurd hmax (Nat.not_le.mpr hsize)
  | some u =>
    have hheld : t.held.flatten.length ≤ max := by
      rw [held_of_some hbegun]
      exact (ht.begun u hbegun).size
    have hfull : ¬ (f.fin = false ∧ f.payload = []) := by
      rintro ⟨_, hp⟩
      rw [length_joined, hp, List.length_nil, Nat.add_zero] at hsize
      exact Nat.not_le.mpr hsize hheld
    have hadv := advance_begun max hbegun ((expects_iff_of_some hbegun).mp hexp)
    rw [if_neg hfull, if_pos hsize] at hadv
    exact endsAt_refused (concerns_of_expects hexp) hadv rfl

theorem endsAt_tooMany (hexp : t.Expects f.opcode) (hsize : (t.joined f).length ≤ max)
    (hcount : 65536 < t.held.length + 1) :
    (midway max t.pending).EndsAt f (.violation .protocol) CloseCode.protocol.toOctets := by
  by_cases hhollow : f.fin = false ∧ f.payload = []
  · exact endsAt_hollow hexp hhollow.1 hhollow.2
  cases hbegun : t.begun with
  | none =>
    rw [held_of_none hbegun] at hcount
    exact absurd hcount (by decide)
  | some u =>
    have hadv := advance_begun max hbegun ((expects_iff_of_some hbegun).mp hexp)
    rw [if_neg hhollow, if_neg (Nat.not_lt.mpr hsize), if_pos hcount] at hadv
    exact endsAt_refused (concerns_of_expects hexp) hadv rfl

theorem endsAt_notText (hexp : t.Expects f.opcode) (hfin : f.fin = true)
    (hsize : (t.joined f).length ≤ max) (hcount : t.held.length + 1 ≤ 65536)
    (hop : t.opcodeWith f = .text) (htext : ∀ s, Text.utf8 s ≠ t.joined f) :
    (midway max t.pending).EndsAt f (.violation .invalid) CloseCode.invalid.toOctets := by
  unfold opcodeWith at hop
  cases hbegun : t.begun with
  | none =>
    rw [hbegun] at hop
    rw [joined_of_none hbegun] at htext
    exact endsAt_not_text (Reassembler.push_unfragmented ((expects_iff_of_none hbegun).mp hexp)
      hfin (pending_of_none hbegun)) hop htext
  | some u =>
    rw [hbegun] at hop
    have hpush := Reassembler.push_continuation (r := (midway max t.pending).reassembler)
      ((expects_iff_of_some hbegun).mp hexp) (pending_of_some hbegun)
      (fun h => absurd (hfin.symm.trans h) nofun) hsize hcount
    rw [hfin, if_pos rfl] at hpush
    exact endsAt_not_text hpush hop htext

theorem step_of_endsAt {reason : SessionEnd} {reply : Octets}
    (hd : Frame.decode max rest = .ok (f, later))
    (h : (midway max t.pending).EndsAt f reason reply) :
    ∃ u, ((midway max t.pending).receive rest).step = some (some (endsWith reason reply), u) ∧
      u.finished = true := by
  obtain ⟨u, habs, hfin⟩ := h
  have hstep : ((midway max t.pending).receive rest).step =
      some (((midway max t.pending).receive later).absorb f) := step_of_frame rfl hd
  refine ⟨u.receive later, ?_, hfin⟩
  rw [hstep, absorb_receive, habs]

theorem step_closedBy {reason : SessionEnd} {reply : Octets} (ht : t.Proper max)
    (h : t.ClosedBy max rest reason reply) :
    ∃ u, ((midway max t.pending).receive rest).step = some (some (endsWith reason reply), u) ∧
      u.finished = true := by
  cases h with
  | unlawful hread hlaw =>
    obtain ⟨e, hfault, he⟩ : ∃ e, Frame.Header.fault? _ max = some e ∧ _ :=
      Frame.Header.fault?_of_unlawful hlaw
    have hcode : codeOfDecodeError e = .protocol := by
      cases e with
      | oversized size limit => exact absurd rfl (he size limit)
      | _ => rfl
    exact ⟨_, step_of_fault rfl rfl hread hfault hcode, rfl⟩
  | oversized hread hlaw hmax =>
    exact ⟨_, step_of_fault rfl rfl hread (Frame.Header.fault?_of_too_long hlaw hmax) rfl, rfl⟩
  | @close f later why high low hd hop hp =>
    have hstep := step_of_endsAt hd (endsAt_close (t := t) hop)
    have hcode : CloseCode.ofPayload? f.payload =
        some ⟨UInt16.ofNat (high.toNat * 256 + low.toNat)⟩ := by
      simp [hp, CloseCode.ofPayload?, Octets.toNat]
    have hlong : ¬ (high :: low :: why).length < 2 := Nat.not_lt.mpr (Nat.le_add_left 2 _)
    have hreply : (closeReply f.payload).payload = [high, low] := by
      rw [hp, closeReply, if_neg hlong]
      rfl
    rwa [hcode, hreply] at hstep
  | @closeWithoutCode f later hd hop hp =>
    have hstep := step_of_endsAt hd (endsAt_close (t := t) hop)
    have hcode : CloseCode.ofPayload? f.payload = none := by
      unfold CloseCode.ofPayload?
      split
      · next h =>
        rw [h, List.length_cons, List.length_cons] at hp
        omega
      · rfl
    have hreply : (closeReply f.payload).payload = CloseCode.normal.toOctets := by
      simp [hp, closeReply, Frame.whole]
    rwa [hcode, hreply] at hstep
  | misplaced hd hdata hexp => exact step_of_endsAt hd (endsAt_misplaced hdata hexp)
  | hollow hd hexp hfin hp => exact step_of_endsAt hd (endsAt_hollow hexp hfin hp)
  | tooLarge hd hexp hsize => exact step_of_endsAt hd (endsAt_tooLarge ht hd hexp hsize)
  | tooMany hd hexp hsize hcount => exact step_of_endsAt hd (endsAt_tooMany hexp hsize hcount)
  | notText hd hexp hfin hsize hcount hop htext =>
    exact step_of_endsAt hd (endsAt_notText hexp hfin hsize hcount hop htext)

/-- What a peer is told is two bytes, a code and no reason. -/
theorem length_reply {reason : SessionEnd} {reply : Octets} (h : t.ClosedBy max rest reason reply) :
    reply.length = 2 := by
  cases h <;> simp

theorem decode_reply {reply : Octets} {limit : Nat} (hlen : reply.length = 2) (hlimit : 2 ≤ limit) :
    Frame.decode limit (Frame.whole .close reply).encode = .ok (.whole .close reply, []) := by
  have hacc : (Frame.whole .close reply).Acceptable limit := by
    rw [Frame.Acceptable, Frame.Header.fault?_eq_none_iff]
    simp [Frame.header, Frame.whole, hlen, hlimit, Opcode.isReserved, Frame.maxControlPayload]
  have hd := Frame.decode_encode_append hacc []
  rwa [List.append_nil] at hd

theorem feedAll_reads (ht : t.Proper max) {chunks : List Octets}
    (hreads : Frame.Reads max chunks.flatten (t.frames.map Frame.unmasked) rest) :
    (ofMaxFrame max).feedAll chunks =
      (t.actions ++ ((midway max t.pending).receive rest).drain.1,
        ((midway max t.pending).receive rest).drain.2) := by
  have habs := absorbAll_traffic ht
  have hopen : ((midway max none).absorbAll (t.frames.map Frame.unmasked)).2.finished = false := by
    rw [habs]
    rfl
  rw [ofMaxFrame, feedAll_eq_drain (step_ofLimits max _)]
  have hdrain := drain_reads hreads rfl hopen
  rwa [habs] at hdrain

end Absorbed

/-- Whatever comes in, it is traffic up to the first thing that closes the session, or all
through. The traffic gets its actions and no close; then there is one close, its reason and
reply those of what came first, and nothing after it. -/
theorem feedAll_until_closing (max : Nat) (chunks : List Octets) :
    (∃ t : Traffic, ∃ rest, t.Proper max ∧
        Frame.Reads max chunks.flatten (t.frames.map Frame.unmasked) rest ∧
        (Frame.Waiting max rest ∨ ∃ reason reply, t.ClosedBy max rest reason reply)) ∧
      ∀ (t : Traffic) (rest : Octets), t.Proper max →
        Frame.Reads max chunks.flatten (t.frames.map Frame.unmasked) rest →
        (∀ reply reason, .close reply reason ∉ t.actions) ∧
        (Frame.Waiting max rest → ((ofMaxFrame max).feedAll chunks).1 = t.actions) ∧
        ∀ reason reply, t.ClosedBy max rest reason reply →
          ((ofMaxFrame max).feedAll chunks).1 = t.actions ++ [endsWith reason reply] ∧
          (∀ limit, 2 ≤ limit → Frame.decode limit (Frame.whole .close reply).encode =
            .ok (.whole .close reply, [])) ∧
          reply.length = 2 ∧
          ∀ more, ((ofMaxFrame max).feedAll chunks).2.feedAll more =
            ([], ((ofMaxFrame max).feedAll chunks).2.receive more.flatten) := by
  refine ⟨exists_reads max chunks.flatten, ?_⟩
  intro t rest ht hreads
  rw [feedAll_reads ht hreads]
  refine ⟨t.close_not_mem_actions, ?_, ?_⟩
  · intro hwait
    rw [drain_of_step_none (step_of_incomplete (Frame.decode_of_waiting hwait))]
    exact List.append_nil _
  · intro reason reply hclosed
    obtain ⟨u, hstep, hfin⟩ := step_closedBy ht hclosed
    have hdrain : ((midway max t.pending).receive rest).drain = ([endsWith reason reply], u) := by
      rw [drain_of_step hstep, drain_of_step_none (step_of_finished hfin)]
      rfl
    have hlen := length_reply hclosed
    rw [hdrain]
    refine ⟨rfl, fun limit => decode_reply hlen, hlen, ?_⟩
    intro more
    have hlater : (u.receive more.flatten).step = none := step_of_finished hfin
    rw [feedAll_eq_drain (step_of_finished hfin), drain_of_step_none hlater]

/-- A ping, then two fragments that are too large together, with more bytes behind them and
the second fragment cut. -/
theorem feedAll_until_closing_too_large :
    ((ofMaxFrame 4).feedAll
        [[0x89, 1, 7, 0x01, 2, 0x68, 0x69, 0x80, 3, 1], [2, 3, 0x89, 0]]).1 =
      [.reply (Frame.whole .pong [7]).encode,
        endsWith (.violation .size) CloseCode.size.toOctets] := by
  have hmore := (feedAll_until_closing 4
    [[0x89, 1, 7, 0x01, 2, 0x68, 0x69, 0x80, 3, 1], [2, 3, 0x89, 0]]).2
    ⟨[], some ⟨.text, ⟨[.ping [7] none], [0x68, 0x69], none⟩, []⟩, []⟩
    [0x80, 3, 1, 2, 3, 0x89, 0]
    ⟨nofun, by
      rintro u ⟨⟩
      exact ⟨.inl rfl, by decide, by decide, by decide, by decide, by decide⟩, nofun⟩
    (.cons rfl (.cons rfl (.nil _)))
  exact (hmore.2.2 _ _ (.tooLarge rfl rfl (by decide))).1

end Session

end WebSocketHost
