import WebSocketHost.Negotiation
import WebSocketHost.Proofs.Negotiation.Literal
import WebSocketHost.Proofs.RequestHead.Lines

/-! A negotiation depends on what its peer sends and not on how it arrives. The bytes that
decide are the front of the stream, and the whole stream would be decided as they are:
answered the same, with what was read behind the head and what was not yet read in one
piece. -/
namespace WebSocketHost

namespace Peer

theorem flatten_pieces (b : Octets) : (pieces b).flatten = b := by
  fun_induction pieces b with
  | case1 => rfl
  | case2 b hb ih => rw [List.flatten_cons, ih, List.take_append_drop]

theorem flatten_reads (p : Peer) : p.reads.flatten = p.chunks.flatten := by
  obtain ⟨chunks, readFails, writeFails⟩ := p
  unfold reads
  induction chunks with
  | nil => rfl
  | cons chunk chunks ih =>
    dsimp only at ih ⊢
    rw [List.flatMap_cons, List.flatten_append, flatten_pieces, ih, List.flatten_cons]

end Peer

namespace Negotiation

open RequestHead

/-- What sort of end a negotiation comes to. -/
inductive Kind
  | upgraded
  | pageServed
  | methodNotAllowed
  | badRequest
  | connectionClosed
  | io
deriving DecidableEq

def Outcome.kind : Outcome → Kind
  | .upgraded _ => .upgraded
  | .pageServed => .pageServed
  | .methodNotAllowed => .methodNotAllowed
  | .badRequest _ => .badRequest

def Failure.kind : Failure → Kind
  | .io => .io
  | .connectionClosed => .connectionClosed

def Ending.kind (e : Ending) : Kind :=
  match e.result with
  | .ok outcome => outcome.kind
  | .error failure => failure.kind

section Verdict

variable {b rest : Octets} {v : Except ReadError (RequestHead × Octets)}

theorem verdict?_eq_some_iff :
    verdict? b = some v ↔ read b = v ∧ ∀ available, v ≠ .error (.incomplete available) := by
  unfold verdict?
  split
  · next available h =>
    constructor
    · intro hv
      cases hv
    · rintro ⟨hv, hne⟩
      rw [h] at hv
      exact absurd hv.symm (hne available)
  · next result hne =>
    constructor
    · intro hv
      cases hv
      exact ⟨rfl, fun available h => hne available h⟩
    · rintro ⟨hv, _⟩
      rw [hv]

theorem incomplete_of_verdict?_none (h : verdict? b = none) :
    ∃ available, read b = .error (.incomplete available) := by
  unfold verdict? at h
  split at h
  · next available hread => exact ⟨available, hread⟩
  · cases h

/-- The same verdict once more bytes have come; why a head is refused may change. -/
inductive Stands (more : Octets) :
    Except ReadError (RequestHead × Octets) → Except ReadError (RequestHead × Octets) → Prop
  | accepted (head : RequestHead) (rest : Octets) :
    Stands more (.ok (head, rest)) (.ok (head, rest ++ more))
  | refused (e e' : ReadError) : Stands more (.error e) (.error e')

theorem verdict?_append (h : verdict? b = some v) (more : Octets) :
    ∃ w, verdict? (b ++ more) = some w ∧ Stands more v w := by
  obtain ⟨hread, hne⟩ := verdict?_eq_some_iff.mp h
  cases v with
  | ok p =>
    obtain ⟨head, rest⟩ := p
    refine ⟨_, verdict?_eq_some_iff.mpr ⟨read_append_of_ok hread more, nofun⟩, .accepted head rest⟩
  | error e =>
    have he : ∀ available, e ≠ .incomplete available := fun available h => hne available (by rw [h])
    obtain ⟨e', hread', he'⟩ := read_append_of_refusal hread he more
    refine ⟨_, verdict?_eq_some_iff.mpr ⟨hread', ?_⟩, .refused e e'⟩
    intro available h
    exact he' available (Except.error.inj h)

end Verdict

section Arrive

variable {buffer : Octets} {reads unread : List Octets}
  {v : Except ReadError (RequestHead × Octets)}

theorem verdict?_of_arrive_none (h : arrive buffer reads = none) :
    verdict? (buffer ++ reads.flatten) = none := by
  induction reads generalizing buffer with
  | nil =>
    rw [List.flatten_nil, List.append_nil]
    simpa [arrive] using h
  | cons piece reads ih =>
    unfold arrive at h
    cases hv : verdict? buffer with
    | some v =>
      rw [hv] at h
      cases h
    | none =>
      rw [hv] at h
      rw [List.flatten_cons, ← List.append_assoc]
      exact ih h

theorem verdict?_of_arrive (h : arrive buffer reads = some ⟨v, unread⟩) :
    ∃ w, verdict? (buffer ++ reads.flatten) = some w ∧ Stands unread.flatten v w := by
  induction reads generalizing buffer with
  | nil =>
    obtain ⟨v', hv, hend⟩ := Option.map_eq_some_iff.mp h
    cases hend
    exact verdict?_append hv []
  | cons piece reads ih =>
    unfold arrive at h
    cases hv : verdict? buffer with
    | some v' =>
      rw [hv] at h
      cases h
      exact verdict?_append hv (piece :: reads).flatten
    | none =>
      rw [hv] at h
      rw [List.flatten_cons, ← List.append_assoc]
      exact ih h

variable {p : Peer}

theorem verdict?_stream_of_none (h : arrive [] p.reads = none) :
    verdict? p.chunks.flatten = none := by
  rw [← p.flatten_reads]
  exact verdict?_of_arrive_none h

theorem verdict?_stream (h : arrive [] p.reads = some ⟨v, unread⟩) :
    ∃ w, verdict? p.chunks.flatten = some w ∧ Stands unread.flatten v w := by
  rw [← p.flatten_reads]
  exact verdict?_of_arrive h

end Arrive

theorem answer_of_stands (path : String) {more : Octets}
    {v w : Except ReadError (RequestHead × Octets)} (h : Stands more v w) :
    (answer path v).1 = (answer path w).1 ∧ (answer path v).2.kind = (answer path w).2.kind := by
  cases h with
  | refused e e' => exact ⟨rfl, rfl⟩
  | accepted head rest =>
    unfold answer
    dsimp only
    cases Upgrade.ofHead head path with
    | valid key => exact ⟨rfl, rfl⟩
    | invalid fault => exact ⟨rfl, rfl⟩
    | notUpgrade =>
      dsimp only
      split <;> exact ⟨rfl, rfl⟩

/-- What a stream comes to as a whole, when it can be answered. -/
def settle (path : String) (stream : Octets) (readFails : Bool) : Kind × String :=
  match verdict? stream with
  | none => (if readFails then .io else .connectionClosed, "")
  | some w => ((answer path w).2.kind, (answer path w).1.toText)

theorem run_settles (path : String) {p : Peer} (hp : p.writeFails = false) :
    ((run path p).kind, (run path p).written) = settle path p.chunks.flatten p.readFails := by
  unfold run settle
  cases h : arrive [] p.reads with
  | none =>
    rw [verdict?_stream_of_none h]
    dsimp only
    cases p.readFails <;> rfl
  | some a =>
    obtain ⟨v, unread⟩ := a
    obtain ⟨w, hw, hstands⟩ := verdict?_stream h
    obtain ⟨hresponse, hkind⟩ := answer_of_stands path hstands
    rw [hw]
    dsimp only
    rw [hp, if_neg Bool.false_ne_true, ← hresponse, ← hkind]
    rfl

/-- The one response that belongs to what was read, and the outcome that is told of it. -/
inductive Responds (path : String) :
    Except ReadError (RequestHead × Octets) → Outcome → String → Prop
  | upgraded {head : RequestHead} {leftover : Octets} {key : String}
    (hup : Upgrade.ofHead head path = .valid key) :
    Responds path (.ok (head, leftover)) (.upgraded leftover)
      (Response.Literal.switchingProtocols key)
  | pageServed {head : RequestHead} {leftover : Octets}
    (hup : Upgrade.ofHead head path = .notUpgrade) (hget : head.isGet = true) :
    Responds path (.ok (head, leftover)) .pageServed (Response.Literal.infoPage path)
  | methodNotAllowed {head : RequestHead} {leftover : Octets}
    (hup : Upgrade.ofHead head path = .notUpgrade) (hget : head.isGet = false) :
    Responds path (.ok (head, leftover)) .methodNotAllowed Response.Literal.methodNotAllowed
  | refused {head : RequestHead} {leftover : Octets} {fault : UpgradeFault}
    (hup : Upgrade.ofHead head path = .invalid fault) :
    Responds path (.ok (head, leftover)) (.badRequest fault.message) Response.Literal.badRequest
  | unreadable {e : ReadError} :
    Responds path (.error e) (.badRequest e.message) Response.Literal.badRequest

theorem responds_answer (path : String) (v : Except ReadError (RequestHead × Octets)) :
    Responds path v (answer path v).2 (answer path v).1.toText := by
  unfold answer
  cases v with
  | error e =>
    dsimp only
    rw [Response.toText_badRequest]
    exact .unreadable
  | ok p =>
    obtain ⟨head, leftover⟩ := p
    dsimp only
    cases hup : Upgrade.ofHead head path with
    | valid key =>
      dsimp only
      rw [Response.toText_switchingProtocols]
      exact .upgraded hup
    | invalid fault =>
      dsimp only
      rw [Response.toText_badRequest]
      exact .refused hup
    | notUpgrade =>
      dsimp only
      cases hget : head.isGet with
      | true =>
        rw [if_pos rfl, Response.toText_infoPage]
        exact .pageServed hup hget
      | false =>
        rw [if_neg Bool.false_ne_true, Response.toText_methodNotAllowed]
        exact .methodNotAllowed hup hget

/-- What may come of a stream, with the one response that belongs to it. -/
inductive Answered (path : String) (stream : Octets) (readFails : Bool) : Ending → Prop
  | upgraded {head : RequestHead} {leftover : Octets} {unread : List Octets} {key : String}
    (hread : read stream = .ok (head, leftover ++ unread.flatten))
    (hup : Upgrade.ofHead head path = .valid key) :
    Answered path stream readFails
      ⟨.ok (.upgraded leftover), Response.Literal.switchingProtocols key, unread⟩
  | pageServed {head : RequestHead} {rest : Octets} {unread : List Octets}
    (hread : read stream = .ok (head, rest)) (hup : Upgrade.ofHead head path = .notUpgrade)
    (hget : head.isGet = true) :
    Answered path stream readFails ⟨.ok .pageServed, Response.Literal.infoPage path, unread⟩
  | methodNotAllowed {head : RequestHead} {rest : Octets} {unread : List Octets}
    (hread : read stream = .ok (head, rest)) (hup : Upgrade.ofHead head path = .notUpgrade)
    (hget : head.isGet = false) :
    Answered path stream readFails
      ⟨.ok .methodNotAllowed, Response.Literal.methodNotAllowed, unread⟩
  | refused {head : RequestHead} {rest : Octets} {unread : List Octets} {fault : UpgradeFault}
    (hread : read stream = .ok (head, rest)) (hup : Upgrade.ofHead head path = .invalid fault) :
    Answered path stream readFails
      ⟨.ok (.badRequest fault.message), Response.Literal.badRequest, unread⟩
  /-- The reason is the fault seen first, which may be another one once all has arrived. -/
  | unreadable {e : ReadError} {reason : String} {unread : List Octets}
    (hread : read stream = .error e) (he : ∀ available, e ≠ .incomplete available) :
    Answered path stream readFails
      ⟨.ok (.badRequest reason), Response.Literal.badRequest, unread⟩
  | failed {available : Nat} (hread : read stream = .error (.incomplete available)) :
    Answered path stream readFails
      ⟨.error (if readFails then .io else .connectionClosed), "", []⟩

theorem run_answered (path : String) {p : Peer} (hp : p.writeFails = false) :
    Answered path p.chunks.flatten p.readFails (run path p) := by
  unfold run
  cases h : arrive [] p.reads with
  | none =>
    obtain ⟨available, hread⟩ := incomplete_of_verdict?_none (verdict?_stream_of_none h)
    exact .failed hread
  | some a =>
    obtain ⟨v, unread⟩ := a
    obtain ⟨w, hw, hstands⟩ := verdict?_stream h
    obtain ⟨hread, hne⟩ := verdict?_eq_some_iff.mp hw
    have hresponds := responds_answer path v
    dsimp only
    rw [hp, if_neg Bool.false_ne_true]
    generalize (answer path v).2 = outcome, (answer path v).1.toText = written at hresponds
    cases hstands with
    | refused e e' =>
      cases hresponds with
      | unreadable =>
        exact .unreadable hread fun available h => hne available (congrArg Except.error h)
    | accepted head rest =>
      cases hresponds with
      | upgraded hup => exact .upgraded hread hup
      | pageServed hup hget => exact .pageServed hread hup hget
      | methodNotAllowed hup hget => exact .methodNotAllowed hread hup hget
      | refused hup => exact .refused hread hup

/-- However the same bytes arrive, the negotiation comes to the same sort of end and writes
the same: the one response that belongs to that end, or nothing with an error. After an upgrade
nothing of what stands behind the head is lost, and there is no other way to see a head in front
of it. -/
theorem run_eq_of_same_stream (path : String) (p q : Peer)
    (hstream : p.chunks.flatten = q.chunks.flatten) (hend : p.readFails = q.readFails)
    (hp : p.writeFails = false) (hq : q.writeFails = false) :
    (run path p).kind = (run path q).kind ∧ (run path p).written = (run path q).written ∧
      (∀ leftover, (run path p).result = .ok (.upgraded leftover) →
        (∃ head, IsHead head ∧
          p.chunks.flatten = head ++ (leftover ++ (run path p).unread.flatten)) ∧
        ∀ head rest, IsHead head → p.chunks.flatten = head ++ rest →
          leftover ++ (run path p).unread.flatten = rest) ∧
      Answered path p.chunks.flatten p.readFails (run path p) := by
  have hsettled : ((run path p).kind, (run path p).written) =
      ((run path q).kind, (run path q).written) := by
    rw [run_settles path hp, run_settles path hq, hstream, hend]
  obtain ⟨hkind, hwritten⟩ := Prod.mk.inj hsettled
  have hanswered := run_answered path hp
  refine ⟨hkind, hwritten, ?_, hanswered⟩
  intro leftover hupgraded
  generalize run path p = e at hanswered hupgraded
  cases hanswered with
  | upgraded hread hup =>
    cases hupgraded
    obtain ⟨head, hhead, hsplit⟩ := head_of_read hread
    refine ⟨⟨head, hhead, hsplit⟩, ?_⟩
    intro head' rest hhead' hsplit'
    exact hhead.eq_rest hhead' (hsplit.symm.trans hsplit')
  | pageServed hread hup hget => cases hupgraded
  | methodNotAllowed hread hup hget => cases hupgraded
  | refused hread hup => cases hupgraded
  | unreadable hread he => cases hupgraded
  | failed hread => cases hupgraded

/-- The request cut inside its last line end, with the first byte of a frame read along
with the blank line and the second not yet read. -/
theorem run_eq_of_same_stream_cut_line_end :
    let request := Text.utf8 "GET /ws HTTP/1.1\r\nUpgrade: websocket\r\nConnection: Upgrade\r\n" ++
      Text.utf8 "Sec-WebSocket-Version: 13\r\nSec-WebSocket-Key: dGhlIHNhbXBsZSBub25jZQ==\r"
    let cut : Peer := ⟨[request, [10, 13, 10, 0x89], [0]], false, false⟩
    let whole : Peer := ⟨[request ++ [10, 13, 10, 0x89, 0]], false, false⟩
    (run "/ws" cut).result = .ok (.upgraded [0x89]) ∧
      (run "/ws" cut).kind = (run "/ws" whole).kind ∧
      (run "/ws" cut).written = (run "/ws" whole).written ∧
      (run "/ws" cut).written =
        "HTTP/1.1 101 Switching Protocols\r\nUpgrade: websocket\r\nConnection: Upgrade\r\n" ++
          "Sec-WebSocket-Accept: s3pPLMBiTxaQ9kYGzzhZRbK+xOo=\r\n\r\n" ∧
      (∃ head, IsHead head ∧ cut.chunks.flatten = head ++ [0x89, 0]) ∧
      Answered "/ws" cut.chunks.flatten false (run "/ws" cut) := by
  intro request cut whole
  have hupgraded : (run "/ws" cut).result = .ok (.upgraded [0x89]) := by
    have hoption : (run "/ws" cut).result.toOption = some (.upgraded [0x89]) := by decide +kernel
    cases hresult : (run "/ws" cut).result with
    | error failure =>
      rw [hresult] at hoption
      cases hoption
    | ok outcome =>
      rw [hresult] at hoption
      cases hoption
      rfl
  have hunread : (run "/ws" cut).unread = [[0]] := by decide +kernel
  obtain ⟨hkind, hwritten, hbehind, hanswered⟩ :=
    run_eq_of_same_stream "/ws" cut whole (by decide) rfl rfl rfl
  obtain ⟨⟨head, hhead, hsplit⟩, -⟩ := hbehind _ hupgraded
  rw [hunread] at hsplit
  exact ⟨hupgraded, hkind, hwritten, by decide +kernel, ⟨head, hhead, hsplit⟩, hanswered⟩

end Negotiation

end WebSocketHost
