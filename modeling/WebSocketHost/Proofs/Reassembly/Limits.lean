import WebSocketHost.Proofs.Reassembly.Runs

/-! What the limits of a reassembler hold for, whatever they are. They are looked at where
data is collected: a message in progress keeps within them, and so does one that is put
together in the end. A frame that is a message by itself is never collected. -/
namespace WebSocketHost

/-- A message in progress whose counts are right and whose data keeps within the limits. -/
structure PartialMessage.Within (limits : ReassemblyLimits) (m : PartialMessage) : Prop where
  size_eq : m.size = m.payload.length
  count_eq : m.count = m.fragments.length
  size_le : m.size ≤ limits.maxSize
  /-- The first fragment is collected without being counted against the limit. -/
  count_le : 1 ≤ limits.maxFragments → m.count ≤ limits.maxFragments
  least : ∀ b ∈ m.fragments, limits.minFragment ≤ b.length

namespace PartialMessage

variable {limits : ReassemblyLimits} {m : PartialMessage} {f : Frame}

theorem Within.start (hmin : limits.minFragment ≤ f.payload.length)
    (hmax : f.payload.length ≤ limits.maxSize) : (start f).Within limits where
  size_eq := by rw [payload_start, PartialMessage.start]
  count_eq := by simp [PartialMessage.start]
  size_le := hmax
  count_le := id
  least := by simpa [PartialMessage.start] using hmin

theorem Within.size_extend (h : m.Within limits) (f : Frame) :
    (m.extend f).size = (m.extend f).payload.length := by
  rw [payload_extend, List.length_append, ← h.size_eq, extend]

theorem Within.extend (h : m.Within limits) (hmin : limits.minFragment ≤ f.payload.length)
    (hmax : (m.extend f).size ≤ limits.maxSize)
    (hcount : (m.extend f).count ≤ limits.maxFragments) : (m.extend f).Within limits where
  size_eq := h.size_extend f
  count_eq := by simp [PartialMessage.extend, h.count_eq]
  size_le := hmax
  count_le _ := hcount
  least := by simpa [PartialMessage.extend] using ⟨hmin, h.least⟩

end PartialMessage

namespace Reassembler

variable {limits : ReassemblyLimits} {pending : Option PartialMessage} {f : Frame}

/-- All that a data frame can come to when it is not refused, with the checks it has passed. -/
theorem advance_cases {p : Progress} (h : advance limits pending f = .ok p) :
    (pending = none ∧ f.opcode ≠ .continuation ∧
      (f.fin = true ∧ p = .whole f ∨
        limits.minFragment ≤ f.payload.length ∧ f.payload.length ≤ limits.maxSize ∧
          p = .collected (.start f))) ∨
    ∃ m, pending = some m ∧ f.opcode = .continuation ∧ (m.extend f).size ≤ limits.maxSize ∧
      (m.extend f).count ≤ limits.maxFragments ∧
      (p = .whole (m.extend f).frame ∨
        limits.minFragment ≤ f.payload.length ∧ p = .collected (m.extend f)) := by
  cases pending with
  | none =>
    by_cases hop : f.opcode = .continuation
    · simp [advance_unexpected hop] at h
    left
    rw [advance_first limits hop] at h
    split at h
    · next hfin =>
      cases h
      exact ⟨rfl, hop, .inl ⟨hfin, rfl⟩⟩
    split at h
    · cases h
    next hmin =>
    split at h
    · cases h
    next hsize =>
    cases h
    exact ⟨rfl, hop, .inr ⟨Nat.not_lt.mp hmin, Nat.not_lt.mp hsize, rfl⟩⟩
  | some m =>
    by_cases hop : f.opcode = .continuation
    · right
      rw [advance_continuation limits m hop] at h
      split at h
      · cases h
      next hmin =>
      split at h
      · cases h
      next hsize =>
      split at h
      · cases h
      next hcount =>
      refine ⟨m, rfl, hop, Nat.not_lt.mp hsize, Nat.not_lt.mp hcount, ?_⟩
      cases hfin : f.fin with
      | true =>
        simp only [hfin, if_true] at h
        cases h
        exact .inl rfl
      | false =>
        simp only [hfin, true_and, Bool.false_eq_true, if_false] at hmin h
        cases h
        exact .inr ⟨Nat.not_lt.mp hmin, rfl⟩
    · simp [advance_interleaved hop] at h

/-- What is collected, if anything is, keeps within the limits. -/
def Within (r : Reassembler) : Prop := ∀ m, r.pending = some m → m.Within r.limits

variable {r : Reassembler}

theorem within_fresh (limits : ReassemblyLimits) : ({ limits } : Reassembler).Within := by
  simp [Within]

theorem Within.push (h : r.Within) (f : Frame) : (r.push f).2.Within := by
  have hnothing : ({ r with pending := none } : Reassembler).Within := by simp [Within]
  cases hcon : concerns f.opcode with
  | false => rwa [push_of_not_concerned hcon]
  | true =>
    cases hadv : advance r.limits r.pending f with
    | error e => rwa [push_of_refused hcon hadv]
    | ok progress =>
      rcases advance_cases hadv with ⟨_, _, ⟨_, rfl⟩ | ⟨hmin, hsize, rfl⟩⟩ |
        ⟨before, hbefore, _, hsize, hcount, rfl | ⟨hmin, rfl⟩⟩
      · rwa [push_of_whole hcon hadv]
      · rw [push_of_part hcon hadv]
        rintro _ ⟨⟩
        exact .start hmin hsize
      · rwa [push_of_whole hcon hadv]
      · rw [push_of_part hcon hadv]
        rintro _ ⟨⟩
        exact (h before hbefore).extend hmin hsize hcount

theorem Within.pushAll (h : r.Within) (fs : List Frame) : (r.pushAll fs).2.Within := by
  induction fs generalizing r with
  | nil => exact h
  | cons f fs ih => exact ih (h.push f)

/-- A message that was put together is no larger than allowed; any other frame is as it came. -/
theorem Within.given (h : r.Within) {g : Frame} (hg : (r.push f).1 = .ok (some g)) :
    g = f ∧ (concerns f.opcode = true → f.fin = true ∧ f.opcode ≠ .continuation) ∨
      f.opcode = .continuation ∧ g.payload.length ≤ r.limits.maxSize := by
  cases hcon : concerns f.opcode with
  | false =>
    rw [push_of_not_concerned hcon] at hg
    cases hg
    simp
  | true =>
    cases hadv : advance r.limits r.pending f with
    | error e => simp [push_of_refused hcon hadv] at hg
    | ok progress =>
      rcases advance_cases hadv with ⟨_, hop, ⟨hfin, rfl⟩ | ⟨_, _, rfl⟩⟩ |
        ⟨before, hbefore, hop, hsize, _, rfl | ⟨_, rfl⟩⟩
      · rw [push_of_whole hcon hadv] at hg
        cases hg
        exact .inl ⟨rfl, fun _ => ⟨hfin, hop⟩⟩
      · simp [push_of_part hcon hadv] at hg
      · rw [push_of_whole hcon hadv] at hg
        cases hg
        rw [(h before hbefore).size_extend] at hsize
        exact .inr ⟨hop, hsize⟩
      · simp [push_of_part hcon hadv] at hg

/-- After any frames, under any limits: what is collected for a message has no more bytes than
allowed, no fragment smaller than allowed and, where any are allowed at all, no more fragments
than allowed. A data frame that comes out is the unfragmented one that went in, or what was
collected with its last fragment, and then it has no more bytes than allowed. -/
theorem collected_keeps_limits (limits : ReassemblyLimits) (past : List Frame) :
    (∀ m, (after limits past).pending = some m →
      m.payload.length ≤ limits.maxSize ∧ m.count = m.fragments.length ∧
        (1 ≤ limits.maxFragments → m.count ≤ limits.maxFragments) ∧
        ∀ b ∈ m.fragments, limits.minFragment ≤ b.length) ∧
    ∀ f g, ((after limits past).push f).1 = .ok (some g) → concerns g.opcode = true →
      (g = f ∧ f.fin = true ∧ f.opcode ≠ .continuation) ∨
        (f.opcode = .continuation ∧ g.payload.length ≤ limits.maxSize) := by
  have hwithin : (after limits past).Within := (within_fresh limits).pushAll past
  constructor
  · intro m hm
    have h := hwithin m hm
    rw [limits_after] at h
    exact ⟨h.size_eq ▸ h.size_le, h.count_eq, h.count_le, h.least⟩
  · intro f g hg hcon
    rcases hwithin.given hg with ⟨rfl, hwhole⟩ | ⟨hop, hsize⟩
    · exact .inl ⟨rfl, hwhole hcon⟩
    · rw [limits_after] at hsize
      exact .inr ⟨hop, hsize⟩

/-- Fragments as small as allowed, with a ping inside, and a last one that makes the message
as large, and of as many fragments, as allowed. -/
theorem collected_keeps_limits_to_the_last_byte :
    let limits : ReassemblyLimits := ⟨2, 3, 6⟩
    let past : List Frame :=
      [⟨.text, [1, 2], false, 0, none⟩, .whole .ping [7], ⟨.continuation, [3, 4], false, 0, none⟩]
    let collected : PartialMessage := ⟨.text, 4, 2, [[3, 4], [1, 2]]⟩
    let last : Frame := ⟨.continuation, [5, 6], true, 0, none⟩
    let complete : Frame := .whole .text [1, 2, 3, 4, 5, 6]
    ((after limits past).pending = some collected ∧ collected.payload.length ≤ limits.maxSize ∧
      collected.count ≤ limits.maxFragments) ∧
    ((after limits past).push last).1 = .ok (some complete) ∧
      complete.payload.length ≤ limits.maxSize := by
  intro limits past collected last complete
  have hpending : (after limits past).pending = some collected := by decide
  have hlast : ((after limits past).push last).1 = .ok (some complete) := by rfl
  obtain ⟨hcollected, hgiven⟩ := collected_keeps_limits limits past
  obtain ⟨hsize, _, hcount, _⟩ := hcollected collected hpending
  refine ⟨⟨hpending, hsize, hcount (by decide)⟩, hlast, ?_⟩
  rcases hgiven last complete hlast rfl with ⟨_, _, hop⟩ | ⟨_, hsize⟩
  · exact absurd rfl hop
  · exact hsize

/-- Two things that are not held against the limits: the size of an unfragmented message, and
the first fragment where no fragment is allowed. -/
theorem message_and_fragment_over_limits :
    let limits : ReassemblyLimits := ⟨1, 0, 4⟩
    let hello : Frame := .whole .text [104, 101, 108, 108, 111]
    let fragment : Frame := ⟨.text, [97], false, 0, none⟩
    (((after limits []).push hello).1 = .ok (some hello) ∧
      limits.maxSize < hello.payload.length) ∧
    ∃ m, (after limits [hello, fragment]).pending = some m ∧ limits.maxFragments < m.count :=
  ⟨⟨rfl, by decide⟩, _, rfl, by decide⟩

end Reassembler

end WebSocketHost
