import WebSocketHost.Proofs.Frame.Verdict
import WebSocketHost.Proofs.Session.Delivery

/-! Traffic that gives a receiver no cause to end a session: whole messages, the front of
one that has not come to its end, and beats behind that. One more frame of the right kind
makes traffic again, whichever of the three it goes to. -/
namespace WebSocketHost

/-- The front of a message. -/
structure Begun where
  opcode : Opcode
  first : Fragment
  more : List Fragment

namespace Begun

def fragments (u : Begun) : List Fragment := u.first :: u.more

def data (u : Begun) : List Octets := u.fragments.map Fragment.data

def frames (u : Begun) : List Frame :=
  u.first.frames u.opcode false ++ u.more.flatMap fun f => f.frames .continuation false

def replies (u : Begun) : List Action := u.fragments.flatMap Fragment.replies

structure Proper (max : Nat) (u : Begun) : Prop where
  opcode : u.opcode = .text ∨ u.opcode = .binary
  size : u.data.flatten.length ≤ max
  count : u.data.length ≤ 65536
  nonempty : ∀ f ∈ u.fragments, f.data ≠ []
  announced : ∀ f ∈ u.fragments, f.data.length < 2 ^ 63
  beats : ∀ f ∈ u.fragments, ∀ b ∈ f.beats, b.payload.length ≤ min 125 max

end Begun

structure Traffic where
  sendings : List Sending
  begun : Option Begun
  beats : List Beat

namespace Traffic

def frames (t : Traffic) : List Frame :=
  t.sendings.flatMap Sending.frames ++ t.begun.toList.flatMap Begun.frames ++
    t.beats.map Beat.frame

/-- The messages that are complete, and an answer to every ping where it stands. -/
def actions (t : Traffic) : List Action :=
  t.sendings.flatMap Sending.actions ++ t.begun.toList.flatMap Begun.replies ++
    t.beats.flatMap Beat.actions

structure Proper (max : Nat) (t : Traffic) : Prop where
  sendings : ∀ s ∈ t.sendings, s.Proper max
  begun : ∀ u ∈ t.begun, u.Proper max
  beats : ∀ b ∈ t.beats, b.payload.length ≤ min 125 max

/-- What is there of the message that has not come to its end. -/
def held (t : Traffic) : List Octets := t.begun.toList.flatMap Begun.data

/-- The data frames that may come next: a first fragment, or one that goes on with a message. -/
def Expects (t : Traffic) (o : Opcode) : Prop :=
  match t.begun with
  | none => o = .text ∨ o = .binary
  | some _ => o = .continuation

/-- The message so far, the frame included. -/
def joined (t : Traffic) (f : Frame) : Octets := (t.held ++ [f.payload]).flatten

/-- What the message is, of which the frame is a part. -/
def opcodeWith (t : Traffic) (f : Frame) : Opcode :=
  match t.begun with
  | none => f.opcode
  | some u => u.opcode

def pending (t : Traffic) : Option PartialMessage :=
  t.begun.map fun u => .gathered u.opcode u.data

section Held

variable {t : Traffic} {u : Begun} {o : Opcode}

theorem expects_iff_of_none (h : t.begun = none) : t.Expects o ↔ o = .text ∨ o = .binary := by
  simp [Expects, h]

theorem expects_iff_of_some (h : t.begun = some u) : t.Expects o ↔ o = .continuation := by
  simp [Expects, h]

theorem held_of_none (h : t.begun = none) : t.held = [] := by
  simp [held, h]

theorem held_of_some (h : t.begun = some u) : t.held = u.data := by
  simp [held, h]

theorem pending_of_none (h : t.begun = none) : t.pending = none := by
  simp [pending, h]

theorem pending_of_some (h : t.begun = some u) :
    t.pending = some (.gathered u.opcode t.held) := by
  simp [pending, held, h]

theorem length_joined (t : Traffic) (f : Frame) :
    (t.joined f).length = t.held.flatten.length + f.payload.length := by
  simp [joined]

theorem joined_of_none (h : t.begun = none) (f : Frame) : t.joined f = f.payload := by
  simp [joined, held_of_none h]

theorem concerns_of_expects (hexp : t.Expects o) : Reassembler.concerns o = true := by
  cases hbegun : t.begun with
  | none =>
    rcases (expects_iff_of_none hbegun).mp hexp with rfl | rfl <;> rfl
  | some u =>
    rw [(expects_iff_of_some hbegun).mp hexp]
    rfl

end Held

/-- Deliveries and replies, and nothing that ends a session. -/
theorem close_not_mem_actions (t : Traffic) (reply : Option Octets) (reason : SessionEnd) :
    .close reply reason ∉ t.actions := by
  have hbeats (beats : List Beat) : .close reply reason ∉ beats.flatMap Beat.actions := by
    intro h
    obtain ⟨b, _, h⟩ := List.mem_flatMap.mp h
    cases b <;> simp [Beat.actions] at h
  have hreplies (fragments : List Fragment) :
      .close reply reason ∉ fragments.flatMap Fragment.replies := by
    intro h
    obtain ⟨f, _, h⟩ := List.mem_flatMap.mp h
    exact hbeats f.beats h
  intro h
  rw [actions, List.mem_append, List.mem_append] at h
  rcases h with (h | h) | h
  · obtain ⟨s, _, h⟩ := List.mem_flatMap.mp h
    rw [Sending.actions, List.mem_append] at h
    rcases h with h | h
    · exact hreplies s.fragments h
    · simp at h
  · obtain ⟨u, _, h⟩ := List.mem_flatMap.mp h
    exact hreplies u.fragments h
  · exact hbeats t.beats h

section Next

variable {max : Nat} {t : Traffic} {f : Frame}

def withBeat (t : Traffic) (b : Beat) : Traffic := { t with beats := t.beats ++ [b] }

/-- The beats so far come before the frame, so they are sent with it. -/
def fragment (t : Traffic) (f : Frame) : Fragment := ⟨t.beats, f.payload, none⟩

def withFragment (t : Traffic) (f : Frame) : Traffic :=
  let u := match t.begun with
    | none => ⟨f.opcode, t.fragment f, []⟩
    | some u => { u with more := u.more ++ [t.fragment f] }
  { t with begun := some u, beats := [] }

def withLast (t : Traffic) (f : Frame) (m : Message) : Traffic :=
  let s := ⟨m, t.begun.toList.flatMap Begun.fragments, t.fragment f⟩
  { sendings := t.sendings ++ [s], begun := none, beats := [] }

theorem frames_withBeat (t : Traffic) (b : Beat) :
    (t.withBeat b).frames = t.frames ++ [b.frame] := by
  simp [withBeat, frames]

theorem frames_withFragment (hexp : t.Expects f.opcode) :
    (t.withFragment f).frames = t.frames ++ [(t.fragment f).frame f.opcode false] := by
  obtain ⟨sendings, begun, beats⟩ := t
  cases begun with
  | none => simp [withFragment, frames, Begun.frames, Fragment.frames, fragment]
  | some u =>
    have hop : f.opcode = .continuation := hexp
    simp [withFragment, frames, Begun.frames, Fragment.frames, fragment, hop]

theorem frames_withLast {m : Message} (hexp : t.Expects f.opcode)
    (hm : m.frame.opcode = t.opcodeWith f) :
    (t.withLast f m).frames = t.frames ++ [(t.fragment f).frame f.opcode true] := by
  obtain ⟨sendings, begun, beats⟩ := t
  cases begun with
  | none =>
    have hop : m.frame.opcode = f.opcode := hm
    simp [withLast, frames, Sending.frames, Sending.run, Fragment.frames, fragment, hop]
  | some u =>
    have hop : f.opcode = .continuation := hexp
    have hm : m.frame.opcode = u.opcode := hm
    simp [withLast, frames, Sending.frames, Sending.run, Session.run_continuation, Begun.fragments,
      Begun.frames, Fragment.frames, fragment, hop, hm]

theorem Proper.withBeat (ht : t.Proper max) {b : Beat} (hb : b.payload.length ≤ min 125 max) :
    (t.withBeat b).Proper max := by
  refine ⟨ht.sendings, ht.begun, ?_⟩
  intro x hx
  rcases List.mem_append.mp hx with hx | hx
  · exact ht.beats x hx
  · rwa [List.mem_singleton.mp hx]

theorem Proper.withFragment (ht : t.Proper max) (hexp : t.Expects f.opcode) (hne : f.payload ≠ [])
    (hsize : (t.joined f).length ≤ max) (hcount : t.held.length + 1 ≤ 65536)
    (hmem : f.payload.length < 2 ^ 63) : (t.withFragment f).Proper max := by
  refine ⟨ht.sendings, ?_, nofun⟩
  obtain ⟨sendings, begun, beats⟩ := t
  intro u hu
  cases begun with
  | none =>
    cases hu
    refine ⟨hexp, hsize, hcount, ?_, ?_, ?_⟩
    all_goals simp only [Begun.fragments, List.mem_singleton, forall_eq]
    · exact hne
    · exact hmem
    · exact ht.beats
  | some v =>
    cases hu
    have hv := ht.begun v rfl
    have hmem_iff : ∀ x, x ∈ v.first :: (v.more ++ [⟨beats, f.payload, none⟩]) →
        x ∈ v.fragments ∨ x = ⟨beats, f.payload, none⟩ := by
      intro x hx
      simpa [Begun.fragments, or_assoc] using hx
    refine ⟨hv.opcode, ?_, ?_, ?_, ?_, ?_⟩
    · simpa [joined, held, Begun.data, Begun.fragments, fragment] using hsize
    · simpa [held, Begun.data, Begun.fragments] using hcount
    all_goals
      intro x hx
      rcases hmem_iff x hx with hx | rfl
    · exact hv.nonempty x hx
    · exact hne
    · exact hv.announced x hx
    · exact hmem
    · exact hv.beats x hx
    · exact ht.beats

theorem Proper.withLast (ht : t.Proper max) {m : Message}
    (hm : m.frame.payload = t.joined f) (hsize : (t.joined f).length ≤ max)
    (hcount : t.held.length + 1 ≤ 65536) (hmem : f.payload.length < 2 ^ 63) :
    (t.withLast f m).Proper max := by
  refine ⟨?_, nofun, nofun⟩
  intro s hs
  rcases List.mem_append.mp hs with hs | hs
  · exact ht.sendings s hs
  rw [List.mem_singleton.mp hs]
  have hfront : ∀ x ∈ t.begun.toList.flatMap Begun.fragments,
      ∃ u ∈ t.begun, x ∈ u.fragments := by
    intro x hx
    simpa using hx
  have hdata : (t.begun.toList.flatMap Begun.fragments).map Fragment.data = t.held := by
    rw [held, List.map_flatMap]
    rfl
  refine ⟨?_, ?_, ?_, ?_, ?_, ?_⟩
  · rw [hm, Sending.fragments, List.map_append, hdata]
    rfl
  · rwa [hm]
  · rw [Sending.fragments, List.length_append, ← List.length_map, hdata]
    exact hcount
  · intro x hx
    obtain ⟨u, hu, hx⟩ := hfront x hx
    exact (ht.begun u hu).nonempty x hx
  · intro x hx
    rcases List.mem_append.mp hx with hx | hx
    · obtain ⟨u, hu, hx⟩ := hfront x hx
      exact (ht.begun u hu).announced x hx
    · rwa [List.mem_singleton.mp hx]
  · intro x hx
    rcases List.mem_append.mp hx with hx | hx
    · obtain ⟨u, hu, hx⟩ := hfront x hx
      exact (ht.begun u hu).beats x hx
    · rw [List.mem_singleton.mp hx]
      exact ht.beats

end Next

end Traffic

namespace Session

theorem absorbAll_begun {max : Nat} {u : Begun} (hu : u.Proper max) :
    (midway max none).absorbAll (u.frames.map Frame.unmasked) =
      (u.replies, midway max (some (.gathered u.opcode u.data))) := by
  have hsize : u.first.data.length ≤ max := by
    refine Nat.le_trans ?_ hu.size
    simp [Begun.data, Begun.fragments]
  have hfirst := absorbAll_first hu.opcode (hu.nonempty u.first List.mem_cons_self) hsize
  have hmiddle : (midway max (some (.gathered u.opcode [u.first.data]))).absorbAll
      ((u.more.flatMap fun f => f.frames .continuation false).map Frame.unmasked) =
        (u.more.flatMap Fragment.replies, midway max (some (.gathered u.opcode u.data))) := by
    apply absorbAll_middle u.opcode _ hu.size
    · simpa [Begun.data, Begun.fragments, Nat.add_comm] using hu.count
    · intro f hf
      exact hu.nonempty f (List.mem_cons_of_mem _ hf)
  rw [Begun.frames, List.map_append, absorbAll_append, hfirst, hmiddle]
  rfl

theorem absorbAll_traffic {max : Nat} {t : Traffic} (ht : t.Proper max) :
    (midway max none).absorbAll (t.frames.map Frame.unmasked) =
      (t.actions, midway max t.pending) := by
  have hbegun : (midway max none).absorbAll
      ((t.begun.toList.flatMap Begun.frames).map Frame.unmasked) =
        (t.begun.toList.flatMap Begun.replies, midway max t.pending) := by
    rw [Traffic.pending]
    cases h : t.begun with
    | none => rfl
    | some u => simpa using absorbAll_begun (ht.begun u h)
  rw [Traffic.frames, List.map_append, List.map_append, absorbAll_append, absorbAll_append,
    absorbAll_sendings ht.sendings, hbegun, absorbAll_beats]
  rfl

end Session

end WebSocketHost
