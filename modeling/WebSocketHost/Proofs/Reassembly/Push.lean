import WebSocketHost.Reassembly

/-! What a frame does to a reassembler, one lemma for each way it can be taken,
with a message in progress written as the list of its fragments. -/
namespace WebSocketHost

/-- The message in progress after the given fragments. -/
def PartialMessage.gathered (opcode : Opcode) (fragments : List Octets) : PartialMessage :=
  ⟨opcode, fragments.flatten.length, fragments.length, fragments.reverse⟩

namespace PartialMessage

theorem start_eq_gathered (f : Frame) : start f = gathered f.opcode [f.payload] := by
  simp [start, gathered]

theorem extend_gathered (opcode : Opcode) (fragments : List Octets) (f : Frame) :
    (gathered opcode fragments).extend f = gathered opcode (fragments ++ [f.payload]) := by
  simp [extend, gathered]

theorem frame_gathered (opcode : Opcode) (fragments : List Octets) :
    (gathered opcode fragments).frame = .whole opcode fragments.flatten := by
  simp [frame, payload, gathered]

end PartialMessage

namespace Reassembler

section Advance

variable {limits : ReassemblyLimits} {f : Frame}

theorem advance_unexpected (hop : f.opcode = .continuation) :
    advance limits none f = .error .unexpectedContinuation := by
  rw [advance, if_pos hop]

theorem advance_interleaved {m : PartialMessage} (hop : f.opcode ≠ .continuation) :
    advance limits (some m) f = .error .interleavedData := by
  rw [advance, if_pos hop]

/-- The first frame of a message. One that is the only frame is not judged here. -/
theorem advance_first (limits : ReassemblyLimits) (hop : f.opcode ≠ .continuation) :
    advance limits none f =
      if f.fin then .ok (.whole f)
      else if f.payload.length < limits.minFragment then
        .error (.fragmentTooSmall f.payload.length limits.minFragment)
      else if limits.maxSize < f.payload.length then
        .error (.messageTooLarge f.payload.length limits.maxSize)
      else .ok (.collected (.start f)) := by
  rw [advance, if_neg hop]
  unfold checkFragment checkSize
  cases f.fin with
  | true => rfl
  | false =>
    by_cases hmin : f.payload.length < limits.minFragment
    · simp [hmin]
      rfl
    · by_cases hsize : limits.maxSize < f.payload.length <;> simp [hmin, hsize] <;> rfl

/-- A frame that goes on with a message: its own size first, then the whole size, then the count. -/
theorem advance_continuation (limits : ReassemblyLimits) (m : PartialMessage)
    (hop : f.opcode = .continuation) :
    advance limits (some m) f =
      if f.fin = false ∧ f.payload.length < limits.minFragment then
        .error (.fragmentTooSmall f.payload.length limits.minFragment)
      else if limits.maxSize < m.size + f.payload.length then
        .error (.messageTooLarge (m.size + f.payload.length) limits.maxSize)
      else if limits.maxFragments < m.count + 1 then
        .error (.tooManyFragments limits.maxFragments)
      else .ok (if f.fin then .whole (m.extend f).frame else .collected (m.extend f)) := by
  have hfragment : checkFragment limits f =
      if f.fin = false ∧ f.payload.length < limits.minFragment then
        .error (.fragmentTooSmall f.payload.length limits.minFragment)
      else .ok () := by
    simp [checkFragment]
  have hsize : checkSize limits (m.extend f).size =
      if limits.maxSize < m.size + f.payload.length then
        .error (.messageTooLarge (m.size + f.payload.length) limits.maxSize)
      else .ok () := rfl
  have hcount : checkCount limits (m.extend f).count =
      if limits.maxFragments < m.count + 1 then .error (.tooManyFragments limits.maxFragments)
      else .ok () := rfl
  rw [advance, if_neg (not_not_intro hop), hfragment]
  dsimp only
  rw [hsize, hcount]
  by_cases h₁ : f.fin = false ∧ f.payload.length < limits.minFragment
  · simp only [if_pos h₁]
    rfl
  by_cases h₂ : limits.maxSize < m.size + f.payload.length
  · simp only [if_neg h₁, if_pos h₂]
    rfl
  by_cases h₃ : limits.maxFragments < m.count + 1
  · simp only [if_neg h₁, if_neg h₂, if_pos h₃]
    rfl
  · simp only [if_neg h₁, if_neg h₂, if_neg h₃]
    rfl

end Advance

variable {r : Reassembler} {f : Frame}

theorem push_of_not_concerned (h : concerns f.opcode = false) : r.push f = (.ok (some f), r) := by
  unfold push
  rw [if_neg (Bool.eq_false_iff.mp h)]

theorem push_of_refused {e : ReassemblyError} (hcon : concerns f.opcode = true)
    (h : advance r.limits r.pending f = .error e) :
    r.push f = (.error e, { r with pending := none }) := by
  unfold push
  rw [if_pos hcon, h]

theorem push_of_whole {g : Frame} (hcon : concerns f.opcode = true)
    (h : advance r.limits r.pending f = .ok (.whole g)) :
    r.push f = (.ok (some g), { r with pending := none }) := by
  unfold push
  rw [if_pos hcon, h]

theorem push_of_part {m : PartialMessage} (hcon : concerns f.opcode = true)
    (h : advance r.limits r.pending f = .ok (.collected m)) :
    r.push f = (.ok none, { r with pending := some m }) := by
  unfold push
  rw [if_pos hcon, h]

theorem concerns_continuation (hop : f.opcode = .continuation) : concerns f.opcode = true := by
  rw [hop]
  rfl

theorem concerns_initial (hop : f.opcode = .text ∨ f.opcode = .binary) :
    concerns f.opcode = true := by
  rcases hop with hop | hop <;> rw [hop] <;> rfl

theorem initial_of_concerns {o : Opcode} (hcon : concerns o = true) (hop : o ≠ .continuation) :
    o = .text ∨ o = .binary := by
  simp_all [concerns]

theorem initial_ne_continuation (hop : f.opcode = .text ∨ f.opcode = .binary) :
    f.opcode ≠ .continuation := by
  rcases hop with hop | hop <;> rw [hop] <;> decide

theorem push_unfragmented (hop : f.opcode = .text ∨ f.opcode = .binary) (hfin : f.fin = true)
    (hr : r.pending = none) : r.push f = (.ok (some f), r) := by
  have hpush : r.push f = (.ok (some f), { r with pending := none }) := by
    apply push_of_whole (concerns_initial hop)
    rw [hr, advance_first _ (initial_ne_continuation hop), if_pos hfin]
  rw [hpush]
  cases r
  cases hr
  rfl

theorem push_first (hop : f.opcode = .text ∨ f.opcode = .binary) (hfin : f.fin = false)
    (hr : r.pending = none) (hmin : r.limits.minFragment ≤ f.payload.length)
    (hsize : f.payload.length ≤ r.limits.maxSize) :
    r.push f = (.ok none, { r with pending := some (.gathered f.opcode [f.payload]) }) := by
  apply push_of_part (concerns_initial hop)
  rw [hr, advance_first _ (initial_ne_continuation hop), if_neg (Bool.eq_false_iff.mp hfin),
    if_neg (Nat.not_lt.mpr hmin), if_neg (Nat.not_lt.mpr hsize), PartialMessage.start_eq_gathered]

/-- A continuation that breaks no limit is joined to the fragments before it. -/
theorem push_continuation {opcode : Opcode} {fragments : List Octets}
    (hop : f.opcode = .continuation) (hr : r.pending = some (.gathered opcode fragments))
    (hmin : f.fin = false → r.limits.minFragment ≤ f.payload.length)
    (hsize : (fragments ++ [f.payload]).flatten.length ≤ r.limits.maxSize)
    (hcount : fragments.length + 1 ≤ r.limits.maxFragments) :
    r.push f =
      if f.fin then
        (.ok (some (.whole opcode (fragments ++ [f.payload]).flatten)), { r with pending := none })
      else
        (.ok none, { r with pending := some (.gathered opcode (fragments ++ [f.payload])) }) := by
  have hadv : advance r.limits r.pending f = .ok
      (if f.fin then .whole (.whole opcode (fragments ++ [f.payload]).flatten)
        else .collected (.gathered opcode (fragments ++ [f.payload]))) := by
    have h₁ : ¬ (f.fin = false ∧ f.payload.length < r.limits.minFragment) :=
      fun h => Nat.not_lt.mpr (hmin h.1) h.2
    have h₂ : ¬ r.limits.maxSize < (PartialMessage.gathered opcode fragments).size +
        f.payload.length := by
      simp [PartialMessage.gathered] at hsize ⊢
      omega
    have h₃ : ¬ r.limits.maxFragments < (PartialMessage.gathered opcode fragments).count + 1 :=
      Nat.not_lt.mpr hcount
    rw [hr, advance_continuation _ _ hop, if_neg h₁, if_neg h₂, if_neg h₃,
      PartialMessage.extend_gathered, PartialMessage.frame_gathered]
  have hcon := concerns_continuation hop
  cases hfin : f.fin with
  | true =>
    rw [hfin, if_pos rfl] at hadv
    exact push_of_whole hcon hadv
  | false =>
    rw [hfin, if_neg Bool.false_ne_true] at hadv
    exact push_of_part hcon hadv

end Reassembler

end WebSocketHost
