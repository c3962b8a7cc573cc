import WebSocketHost.Proofs.Frame.Grammar
import WebSocketHost.Proofs.Frame.Verdict
import WebSocketHost.Proofs.Reassembly.Limits
import WebSocketHost.Proofs.Session.Closing

/-! How much a session holds and how long it works for what it was sent, whoever sent it. A
length is refused before the payload is waited for, and data is counted before it is collected;
so what waits in the buffer is less than one frame, what is collected is at most one message,
and every round that gives nothing to do makes the buffer shorter. -/
namespace WebSocketHost

namespace Frame

variable {max : Nat} {b rest : Octets} {f : Frame}

/-- Only an acceptable frame is waited for, and only until it is there. -/
theorem length_lt_of_incomplete {available : Nat}
    (h : decode max b = .error (.incomplete available)) : b.length < max + 14 := by
  have hheader := Layout.headerSize_le b
  unfold decode at h
  rw [Layout.read?_eq] at h
  split at h
  · next hread =>
    have hshort : ¬ Layout.headerSize b ≤ b.length := by
      intro hthere
      simp [hthere] at hread
    omega
  next header behind hread =>
  have hbehind : behind.length = b.length - Layout.headerSize b := by
    split at hread
    · cases hread
      exact List.length_drop
    · simp at hread
  split at h
  · next hfault =>
    cases h
    exact absurd hfault (header.fault?_ne_incomplete max available)
  next hfault =>
  have hmax : header.length ≤ max := (Header.fault?_eq_none_iff.mp hfault).2.2.2.2
  split at h
  · next hcut =>
    have hpayload : ¬ header.length ≤ behind.length := by
      intro hthere
      simp [Header.cut?_eq, hthere] at hcut
    omega
  · simp at h

theorem length_payload_of_decode (h : decode max b = .ok (f, rest)) : f.payload.length ≤ max :=
  (Header.fault?_eq_none_iff.mp (acceptable_of_decode h)).2.2.2.2

end Frame

def Action.DeliversAtMost (max : Nat) (a : Action) : Prop :=
  ∀ m, a = .deliver m → m.frame.payload.length ≤ max

namespace Session

/-- Frames and messages up to a size are taken, and nothing larger is collected. -/
structure Bounded (max : Nat) (s : Session) : Prop where
  maxFrame_eq : s.maxFrame = max
  maxSize_eq : s.reassembler.limits.maxSize = max
  within : s.reassembler.Within

section Step

variable {max : Nat} {s t : Session} {f : Frame} {a : Action}

theorem bounded_ofMaxFrame (max : Nat) : (ofMaxFrame max).Bounded max :=
  ⟨rfl, rfl, Reassembler.within_fresh _⟩

theorem Bounded.of_same (h : s.Bounded max) (hmax : t.maxFrame = s.maxFrame)
    (hreassembler : t.reassembler = s.reassembler) : t.Bounded max := by
  obtain ⟨hframe, hsize, hwithin⟩ := h
  exact ⟨hmax.trans hframe, by rwa [hreassembler], by rwa [hreassembler]⟩

theorem handle_deliver {m : Message} (h : s.handle f = some (.deliver m, t)) :
    m.frame = .whole f.opcode f.payload := by
  obtain ⟨_, ⟨m', hm, ha, _⟩ | ⟨_, _, _, ha⟩ | ⟨_, hr⟩ | ⟨_, _, hr⟩ | ⟨_, hr⟩⟩ := handle_cases h
  · cases ha
    exact hm
  · cases ha
  · simp [peerClose_eq] at hr
  · simp [violate_eq] at hr
  · simp [violate_eq] at hr

theorem reassembler_absorb (s : Session) (f : Frame) :
    (s.absorb f).2.reassembler = (s.reassembler.push f).2 := by
  obtain ⟨r, ⟨e, hp, h⟩ | ⟨hp, h⟩ | ⟨g, hp, ⟨_, h⟩ | ⟨a, t, hh, h⟩⟩⟩ := absorb_cases s f
  all_goals rw [h, hp]
  · rfl
  · rcases handle_state hh with rfl | rfl <;> rfl

theorem Bounded.absorb (h : s.Bounded max) (f : Frame) : (s.absorb f).2.Bounded max where
  maxFrame_eq := by rw [maxFrame_absorb, h.maxFrame_eq]
  maxSize_eq := by rw [reassembler_absorb, Reassembler.limits_push, h.maxSize_eq]
  within := by
    rw [reassembler_absorb]
    exact h.within.push f

/-- A message is a frame by itself, or put together from what was collected. -/
theorem Bounded.absorb_delivers (h : s.Bounded max) (hf : f.payload.length ≤ max)
    (ha : (s.absorb f).1 = some a) : a.DeliversAtMost max := by
  rintro m rfl
  obtain ⟨r, ⟨e, _, habs⟩ | ⟨_, habs⟩ | ⟨g, hp, ⟨_, habs⟩ | ⟨a, t, hh, habs⟩⟩⟩ := absorb_cases s f
  all_goals rw [habs] at ha
  · simp [violate_eq] at ha
  · cases ha
  · cases ha
  · cases ha
    rw [handle_deliver hh, Frame.whole]
    rcases h.within.given (congrArg Prod.fst hp) with ⟨rfl, _⟩ | ⟨_, hsize⟩
    · exact hf
    · rwa [h.maxSize_eq] at hsize

theorem Bounded.step {r : Option Action} (h : s.Bounded max) (hs : s.step = some (r, t)) :
    t.Bounded max ∧ ∀ a, r = some a → a.DeliversAtMost max := by
  obtain ⟨_, ⟨e, _, _, hr⟩ | ⟨f, rest, hd, hr⟩⟩ := step_cases hs
  · rw [refuse, violate_eq] at hr
    cases hr
    refine ⟨h.of_same rfl rfl, ?_⟩
    rintro a ha m rfl
    cases ha
  · have hfront : { s with buffer := rest }.Bounded max := h.of_same rfl rfl
    have hpayload := Frame.length_payload_of_decode hd
    rw [h.maxFrame_eq] at hpayload
    have ht : t = ({ s with buffer := rest }.absorb f).2 := congrArg Prod.snd hr
    have hgiven : r = ({ s with buffer := rest }.absorb f).1 := congrArg Prod.fst hr
    rw [ht, hgiven]
    exact ⟨hfront.absorb f, fun a => hfront.absorb_delivers hpayload⟩

theorem Bounded.length_lt (h : s.Bounded max) (hs : s.step = none) (hopen : s.finished = false) :
    s.buffer.length < max + 14 := by
  cases hd : Frame.decode s.maxFrame s.buffer with
  | ok p => simp [step_of_frame hopen hd] at hs
  | error e =>
    by_cases he : ∃ available, e = .incomplete available
    · obtain ⟨available, rfl⟩ := he
      rw [h.maxFrame_eq] at hd
      exact Frame.length_lt_of_incomplete hd
    · have he : ∀ available, e ≠ .incomplete available := fun available h => he ⟨available, h⟩
      simp [step_of_refusal hopen he hd] at hs

end Step

section Rounds

variable {s t u : Session}

/-- Rounds of work, one after another, that each take a frame and find nothing to do. -/
inductive Rounds : Nat → Session → Session → Prop
  | none (s : Session) : Rounds 0 s s
  | more {n : Nat} {s t u : Session} (hs : s.step = some (none, t)) (hmore : Rounds n t u) :
    Rounds (n + 1) s u

theorem length_of_silent_step (hs : s.step = some (none, t)) :
    t.buffer.length + 2 ≤ s.buffer.length := by
  obtain ⟨_, ⟨e, _, _, hr⟩ | ⟨f, rest, hd, hr⟩⟩ := step_cases hs
  · cases hr
  · have ht : t = ({ s with buffer := rest }.absorb f).2 := congrArg Prod.snd hr
    rw [ht, buffer_absorb]
    exact Frame.length_of_decode hd

theorem Rounds.length_le {n : Nat} (h : Rounds n s t) :
    t.buffer.length + 2 * n ≤ s.buffer.length := by
  induction h with
  | none s => simp
  | more hs hmore ih =>
    have hstep := length_of_silent_step hs
    omega

/-- Looking for something to do comes to an end: rounds that find nothing, and then a round that
does or no frame to take. -/
theorem next_after_rounds (s : Session) :
    ∃ n t, Rounds n s t ∧ (t.step = none ∧ s.next = (none, t) ∨
      ∃ a u, t.step = some (some a, u) ∧ s.next = (some a, u)) := by
  fun_induction next s with
  | case1 s hs => exact ⟨0, s, .none s, .inl ⟨hs, rfl⟩⟩
  | case2 s a t hs => exact ⟨0, s, .none s, .inr ⟨a, t, hs, rfl⟩⟩
  | case3 s t hs ih =>
    obtain ⟨n, u, hrounds, hend⟩ := ih
    exact ⟨n + 1, u, .more hs hrounds, hend⟩

theorem Bounded.rounds {max n : Nat} (h : s.Bounded max) (hrounds : Rounds n s t) :
    t.Bounded max := by
  induction hrounds with
  | none s => exact h
  | more hs hmore ih => exact ih (h.step hs).1

end Rounds

section Histories

variable {max : Nat} {s : Session}

theorem Bounded.next (h : s.Bounded max) :
    s.next.2.Bounded max ∧ ∀ a, s.next.1 = some a → a.DeliversAtMost max := by
  obtain ⟨n, t, hrounds, ⟨_, hnext⟩ | ⟨a, u, hs, hnext⟩⟩ := next_after_rounds s
  all_goals rw [hnext]
  · exact ⟨h.rounds hrounds, nofun⟩
  · exact (h.rounds hrounds).step hs

theorem Bounded.drain (h : s.Bounded max) :
    s.drain.2.Bounded max ∧ ∀ a ∈ s.drain.1, a.DeliversAtMost max := by
  induction s using drain_induction with
  | done s hs => simpa [drain_of_step_none hs] using h
  | step s r t hs ih =>
    obtain ⟨ht, hr⟩ := h.step hs
    obtain ⟨hdrained, hrest⟩ := ih ht
    rw [drain_of_step hs]
    refine ⟨hdrained, fun a ha => ?_⟩
    rcases List.mem_append.mp ha with ha | ha
    · exact hr a (Option.mem_toList.mp ha)
    · exact hrest a ha

/-- The owner may do anything but act on frames of its own. -/
theorem Bounded.call (h : s.Bounded max) {c : Call} (hc : ∀ f, c ≠ .handle f) :
    (s.call c).2.Bounded max ∧ ∀ a, (s.call c).1 = some (.action a) → a.DeliversAtMost max := by
  cases c with
  | receive bytes => exact ⟨h.of_same rfl rfl, nofun⟩
  | next =>
    obtain ⟨ht, ha⟩ := h.next
    refine ⟨ht, fun a hcall => ha a ?_⟩
    simpa [Session.call] using hcall
  | handle f => exact absurd rfl (hc f)
  | encode m => exact ⟨h, fun a hcall => by simp [Session.call] at hcall⟩
  | initiateClose code reason =>
    refine ⟨?_, fun a hcall => by simp [Session.call] at hcall⟩
    simp only [Session.call, initiateClose]
    split <;> exact h.of_same rfl rfl

theorem Bounded.answers (h : s.Bounded max) {calls : List Call} (hcalls : ∀ f, .handle f ∉ calls) :
    (s.answers calls).2.Bounded max ∧
      ∀ a, .action a ∈ (s.answers calls).1 → a.DeliversAtMost max := by
  induction calls generalizing s with
  | nil => exact ⟨h, by simp [Session.answers]⟩
  | cons c calls ih =>
    have hc : ∀ f, c ≠ .handle f := by
      rintro f rfl
      exact hcalls f List.mem_cons_self
    obtain ⟨hs, ha⟩ := h.call hc
    obtain ⟨ht, hrest⟩ := ih hs fun f hf => hcalls f (List.mem_cons_of_mem c hf)
    rw [answers_cons]
    refine ⟨ht, fun a hmem => ?_⟩
    rcases List.mem_append.mp hmem with hmem | hmem
    · exact ha a (Option.mem_toList.mp hmem)
    · exact hrest a hmem

/-- Whatever bytes have come, in whatever pieces, and whatever was sent meanwhile: once all there
is to do has been done, and unless the session is over, less than `max + 14` bytes wait, and no
more than `max` are collected; and no message delivered on the way had more. To look for
something to do takes a number of rounds, of which all but the last take two bytes or more. -/
theorem memory_is_bounded (max : Nat) (calls : List Call) (hcalls : ∀ f, .handle f ∉ calls) :
    let past := ((ofMaxFrame max).answers calls).1
    let s := ((ofMaxFrame max).answers calls).2
    (s.drain.2.finished = false → s.drain.2.buffer.length < max + 14) ∧
    (∀ m, s.drain.2.reassembler.pending = some m → m.payload.length ≤ max) ∧
    (∀ m, .action (.deliver m) ∈ past ∨ .deliver m ∈ s.drain.1 → m.frame.payload.length ≤ max) ∧
    (∀ t u : Session, t.step = some (none, u) → u.buffer.length + 2 ≤ t.buffer.length) ∧
    ∀ t : Session, ∃ n u, 2 * n ≤ t.buffer.length ∧ Rounds n t u ∧
      (u.step = none ∧ t.next = (none, u) ∨
        ∃ a v, u.step = some (some a, v) ∧ t.next = (some a, v)) := by
  intro past s
  obtain ⟨hs, hpast⟩ : s.Bounded max ∧ _ := (bounded_ofMaxFrame max).answers hcalls
  obtain ⟨hdrained, hactions⟩ := hs.drain
  refine ⟨hdrained.length_lt (step_drain s), fun m hm => ?_, ?_,
    fun t u => length_of_silent_step, fun t => ?_⟩
  · have hwithin := hdrained.within m hm
    rw [← hwithin.size_eq, ← hdrained.maxSize_eq]
    exact hwithin.size_le
  · rintro m (hm | hm)
    · exact hpast _ hm m rfl
    · exact hactions _ hm m rfl
  · obtain ⟨n, u, hrounds, hend⟩ := next_after_rounds t
    have hlength := hrounds.length_le
    exact ⟨n, u, by omega, hrounds, hend⟩

/-- As much as ever waits: a header in its longest form, for a payload of the largest size of
which the last byte has not come, behind a whole message and the front of another. -/
theorem memory_is_bounded_waiting :
    let calls : List Call := [.receive [0x82, 4, 1, 2, 3, 4], .next, .encode (.binary []),
      .receive [2, 3, 5, 6, 7], .receive [0x80, 0xFF, 0, 0, 0, 0, 0, 0, 0, 4, 1, 2, 3, 4, 8, 9, 10]]
    let s := ((ofMaxFrame 4).answers calls).2.drain.2
    (s.finished = false ∧ s.buffer.length = 4 + 13) ∧ s.buffer.length < 4 + 14 := by
  intro calls s
  have hs : s.finished = false ∧ s.buffer.length = 4 + 13 := by decide +kernel
  exact ⟨hs, (memory_is_bounded 4 calls (by simp [calls])).1 hs.1⟩

end Histories

end Session

end WebSocketHost
