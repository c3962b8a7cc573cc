import WebSocketHost.Proofs.Session.Stream

/-! Messages arrive as they were sent: cut into frames anywhere, also inside a
character, with pings and pongs in between and any key on any frame. The session
between two frames is `midway`; the fragments it holds are those sent so far. -/
namespace WebSocketHost

/-- A frame that may come before, between and after the fragments of a message. -/
inductive Beat
  | ping (payload : Octets) (mask : Option MaskKey)
  | pong (payload : Octets) (mask : Option MaskKey)

namespace Beat

def payload : Beat → Octets
  | ping payload _ | pong payload _ => payload

def frame : Beat → Frame
  | ping payload mask => { Frame.whole .ping payload with mask }
  | pong payload mask => { Frame.whole .pong payload with mask }

/-- A ping is answered where it stands, with its own payload. -/
def actions : Beat → List Action
  | ping payload _ => [.reply (Frame.whole .pong payload).encode]
  | pong _ _ => []

end Beat

/-- A piece of a message, sent in one frame, and the beats sent right before it. -/
structure Fragment where
  beats : List Beat
  data : Octets
  mask : Option MaskKey

namespace Fragment

def frame (f : Fragment) (opcode : Opcode) (fin : Bool) : Frame :=
  { Frame.whole opcode f.data with fin, mask := f.mask }

def frames (f : Fragment) (opcode : Opcode) (fin : Bool) : List Frame :=
  f.beats.map Beat.frame ++ [f.frame opcode fin]

def replies (f : Fragment) : List Action := f.beats.flatMap Beat.actions

end Fragment

/-- A message as it is sent: the fragments that are not the last, and the last. -/
structure Sending where
  message : Message
  front : List Fragment
  last : Fragment

namespace Sending

def fragments (s : Sending) : List Fragment := s.front ++ [s.last]

/-- The first frame of a run says what it is a run of, the last that it is complete. -/
def run (opcode : Opcode) : List Fragment → Fragment → List Frame
  | [], last => last.frames opcode true
  | f :: front, last => f.frames opcode false ++ run .continuation front last

def frames (s : Sending) : List Frame := run s.message.frame.opcode s.front s.last

def actions (s : Sending) : List Action :=
  s.fragments.flatMap Fragment.replies ++ [.deliver s.message]

/-- What a sender keeps to. `announced` is no choice of its own: the length field of
a header holds no more, and no byte string in memory is longer. -/
structure Proper (max : Nat) (s : Sending) : Prop where
  whole : (s.fragments.map Fragment.data).flatten = s.message.frame.payload
  size : s.message.frame.payload.length ≤ max
  count : s.fragments.length ≤ 65536
  nonempty : ∀ f ∈ s.front, f.data ≠ []
  announced : ∀ f ∈ s.fragments, f.data.length < 2 ^ 63
  beats : ∀ f ∈ s.fragments, ∀ b ∈ f.beats, b.payload.length ≤ min 125 max

end Sending

namespace Session

/-- A fresh session, but for the message in progress. -/
def midway (max : Nat) (pending : Option PartialMessage) : Session :=
  { ofMaxFrame max with reassembler := ⟨.ofMaxSize max, pending⟩ }

theorem midway_none (max : Nat) : midway max none = ofMaxFrame max := rfl

theorem absorbAll_beats (max : Nat) (pending : Option PartialMessage) (beats : List Beat) :
    (midway max pending).absorbAll ((beats.map Beat.frame).map Frame.unmasked) =
      (beats.flatMap Beat.actions, midway max pending) := by
  induction beats with
  | nil => rfl
  | cons b beats ih =>
    have hb : (midway max pending).absorb b.frame.unmasked =
        (b.actions.head?, midway max pending) := by
      cases b <;> rfl
    have hlist : b.actions.head?.toList = b.actions := by
      cases b <;> rfl
    rw [List.map_cons, List.map_cons, absorbAll_cons, hb, ih, hlist, List.flatMap_cons]

theorem absorbAll_fragment {max : Nat} {pending after : Option PartialMessage} {f : Fragment}
    {opcode : Opcode} {fin : Bool} {a : Option Action}
    (h : (midway max pending).absorb (f.frame opcode fin).unmasked = (a, midway max after)) :
    (midway max pending).absorbAll ((f.frames opcode fin).map Frame.unmasked) =
      (f.replies ++ a.toList, midway max after) := by
  rw [Fragment.frames, List.map_append, absorbAll_append, absorbAll_beats, List.map_singleton,
    absorbAll_cons, h]
  simp [absorbAll, Fragment.replies]

section Fragments

variable {max : Nat} {opcode : Opcode} {f : Fragment} {sent : List Octets}

theorem absorbAll_first (hop : opcode = .text ∨ opcode = .binary) (hmin : f.data ≠ [])
    (hsize : f.data.length ≤ max) :
    (midway max none).absorbAll ((f.frames opcode false).map Frame.unmasked) =
      (f.replies, midway max (some (.gathered opcode [f.data]))) := by
  have habs : (midway max none).absorb (f.frame opcode false).unmasked =
      (none, midway max (some (.gathered opcode [f.data]))) :=
    absorb_of_collected (Reassembler.push_first hop rfl rfl (List.length_pos_iff.mpr hmin) hsize)
  rw [absorbAll_fragment habs, Option.toList_none, List.append_nil]

theorem absorb_middle (opcode : Opcode) (hmin : f.data ≠ [])
    (hsize : (sent ++ [f.data]).flatten.length ≤ max) (hcount : sent.length + 1 ≤ 65536) :
    (midway max (some (.gathered opcode sent))).absorb (f.frame .continuation false).unmasked =
      (none, midway max (some (.gathered opcode (sent ++ [f.data])))) :=
  absorb_of_collected (Reassembler.push_continuation rfl rfl
    (fun _ => List.length_pos_iff.mpr hmin) hsize hcount)

/-- Fragments that leave a message incomplete. -/
theorem absorbAll_middle (opcode : Opcode) {front : List Fragment}
    (hne : ∀ f ∈ front, f.data ≠ [])
    (hsize : (sent ++ front.map Fragment.data).flatten.length ≤ max)
    (hcount : sent.length + front.length ≤ 65536) :
    (midway max (some (.gathered opcode sent))).absorbAll
        ((front.flatMap fun f => f.frames .continuation false).map Frame.unmasked) =
      (front.flatMap Fragment.replies,
        midway max (some (.gathered opcode (sent ++ front.map Fragment.data)))) := by
  -- what the session holds is `sent`, which each fragment still to come adds to
  induction front generalizing sent with
  | nil => simp [absorbAll]
  | cons f front ih =>
    rw [List.length_cons] at hcount
    rw [List.map_cons, List.append_cons] at hsize ⊢
    have hfirst : (sent ++ [f.data]).flatten.length ≤ max := by
      rw [List.flatten_append, List.length_append] at hsize
      omega
    have habs := absorb_middle opcode (hne f List.mem_cons_self) hfirst (by omega)
    have hrest := ih (fun g hg => hne g (List.mem_cons_of_mem f hg)) hsize (by simp; omega)
    rw [List.flatMap_cons, List.map_append, absorbAll_append, absorbAll_fragment habs, hrest]
    simp

end Fragments

section Message

variable {max : Nat} {m : Message} {f : Fragment} {sent : List Octets}

theorem absorb_last (hwhole : (sent ++ [f.data]).flatten = m.frame.payload)
    (hsize : m.frame.payload.length ≤ max) (hcount : sent.length + 1 ≤ 65536) :
    (midway max (some (.gathered m.frame.opcode sent))).absorb
        (f.frame .continuation true).unmasked = (some (.deliver m), midway max none) := by
  have hpush : (midway max (some (.gathered m.frame.opcode sent))).reassembler.push
      (f.frame .continuation true).unmasked =
        (.ok (some (.whole m.frame.opcode (sent ++ [f.data]).flatten)),
          ⟨.ofMaxSize max, none⟩) := by
    apply Reassembler.push_continuation rfl rfl
    · intro h
      cases h
    · show (sent ++ [f.data]).flatten.length ≤ max
      rw [hwhole]
      exact hsize
    · exact hcount
  rw [hwhole, whole_message] at hpush
  exact absorb_of_handled hpush (handle_message rfl)

theorem run_continuation (front : List Fragment) (last : Fragment) :
    Sending.run .continuation front last =
      (front.flatMap fun f => f.frames .continuation false) ++ last.frames .continuation true := by
  induction front with
  | nil => rfl
  | cons f front ih => rw [Sending.run, ih, List.flatMap_cons, List.append_assoc]

/-- The rest of a fragmented message. -/
theorem absorbAll_continuations {front : List Fragment} {last : Fragment}
    (hwhole : (sent ++ (front ++ [last]).map Fragment.data).flatten = m.frame.payload)
    (hsize : m.frame.payload.length ≤ max) (hcount : sent.length + front.length + 1 ≤ 65536)
    (hne : ∀ f ∈ front, f.data ≠ []) :
    (midway max (some (.gathered m.frame.opcode sent))).absorbAll
        ((Sending.run .continuation front last).map Frame.unmasked) =
      ((front ++ [last]).flatMap Fragment.replies ++ [.deliver m], midway max none) := by
  rw [List.map_append, ← List.append_assoc] at hwhole
  have hfront : (sent ++ front.map Fragment.data).flatten.length ≤ max := by
    refine Nat.le_trans ?_ hsize
    rw [← hwhole]
    simp only [List.flatten_append, List.length_append]
    omega
  have hmiddle := absorbAll_middle m.frame.opcode hne hfront (by omega)
  have hlast := absorb_last (f := last) hwhole hsize (by simp; omega)
  rw [run_continuation, List.map_append, absorbAll_append, hmiddle, absorbAll_fragment hlast]
  simp

theorem absorbAll_sending {s : Sending} (hs : s.Proper max) :
    (midway max none).absorbAll (s.frames.map Frame.unmasked) = (s.actions, midway max none) := by
  obtain ⟨m, front, last⟩ := s
  have hcount := hs.count
  have hwhole := hs.whole
  unfold Sending.frames Sending.actions
  cases front with
  | nil =>
    have hframe : (last.frame m.frame.opcode true).unmasked = m.frame := by
      rw [← whole_message m, ← hwhole]
      simp [Fragment.frame, Frame.unmasked, Frame.whole, Sending.fragments]
    have habs : (midway max none).absorb (last.frame m.frame.opcode true).unmasked =
        (some (.deliver m), midway max none) := by
      rw [hframe]
      exact absorb_message rfl rfl
    rw [Sending.run, absorbAll_fragment habs]
    simp [Sending.fragments]
  | cons f front =>
    have hsize : f.data.length ≤ max := by
      refine Nat.le_trans ?_ hs.size
      rw [← hwhole]
      simp [Sending.fragments]
    have hfirst := absorbAll_first (opcode_message m) (hs.nonempty f List.mem_cons_self) hsize
    have hrest : (midway max (some (.gathered m.frame.opcode [f.data]))).absorbAll
        ((Sending.run .continuation front last).map Frame.unmasked) =
          ((front ++ [last]).flatMap Fragment.replies ++ [.deliver m], midway max none) := by
      apply absorbAll_continuations _ hs.size
      · simp [Sending.fragments] at hcount ⊢
        omega
      · exact fun g hg => hs.nonempty g (List.mem_cons_of_mem f hg)
      · rw [← hwhole]
        rfl
    rw [Sending.run, List.map_append, absorbAll_append, hfirst, hrest]
    simp [Sending.fragments]

end Message

section Wire

variable {max : Nat}

theorem acceptable_beat {b : Beat} (hb : b.payload.length ≤ min 125 max) :
    b.frame.Acceptable max := by
  have h₁ : b.payload.length ≤ 125 := Nat.le_trans hb (Nat.min_le_left ..)
  have h₂ : b.payload.length ≤ max := Nat.le_trans hb (Nat.min_le_right ..)
  cases b with
  | ping payload mask => exact Frame.acceptable_control (.inr (.inl rfl)) rfl rfl h₁ h₂
  | pong payload mask => exact Frame.acceptable_control (.inr (.inr rfl)) rfl rfl h₁ h₂

theorem mem_run {front : List Fragment} {last : Fragment} {opcode : Opcode} {g : Frame}
    (hg : g ∈ Sending.run opcode front last) :
    ∃ f ∈ front ++ [last], ∃ op fin, (op = opcode ∨ op = .continuation) ∧ g ∈ f.frames op fin := by
  induction front generalizing opcode with
  | nil => exact ⟨last, List.mem_singleton_self last, opcode, true, .inl rfl, hg⟩
  | cons f front ih =>
    rw [Sending.run, List.mem_append] at hg
    rcases hg with hg | hg
    · exact ⟨f, List.mem_cons_self, opcode, false, .inl rfl, hg⟩
    · obtain ⟨f', hf', op, fin, hop, hg⟩ := ih hg
      refine ⟨f', List.mem_cons_of_mem f hf', op, fin, .inr ?_, hg⟩
      rcases hop with hop | hop <;> exact hop

theorem acceptable_sending {s : Sending} (hs : s.Proper max) {g : Frame} (hg : g ∈ s.frames) :
    g.Acceptable max := by
  obtain ⟨f, hf, op, fin, hop, hg⟩ := mem_run hg
  rw [Fragment.frames, List.mem_append, List.mem_map, List.mem_singleton] at hg
  rcases hg with ⟨b, hb, rfl⟩ | rfl
  · exact acceptable_beat (hs.beats f hf b hb)
  · have hsize : f.data.length ≤ max := by
      refine Nat.le_trans ?_ hs.size
      rw [← hs.whole]
      exact (List.sublist_flatten_of_mem (List.mem_map_of_mem hf)).length_le
    apply Frame.acceptable_data _ rfl (hs.announced f hf) hsize
    rcases hop with rfl | rfl
    · rcases opcode_message s.message with hop | hop
      · exact .inl hop
      · exact .inr (.inl hop)
    · exact .inr (.inr rfl)

end Wire

theorem absorbAll_sendings {max : Nat} {sendings : List Sending}
    (hs : ∀ s ∈ sendings, s.Proper max) :
    (midway max none).absorbAll ((sendings.flatMap Sending.frames).map Frame.unmasked) =
      (sendings.flatMap Sending.actions, midway max none) := by
  induction sendings with
  | nil => rfl
  | cons s sendings ih =>
    have hrest := ih fun t ht => hs t (List.mem_cons_of_mem s ht)
    rw [List.flatMap_cons, List.map_append, absorbAll_append,
      absorbAll_sending (hs s List.mem_cons_self), hrest, List.flatMap_cons]

/-- What a peer sends is what the session does, frame by frame: each message is
delivered once, in order, as it was given, and each ping answered in its place.
There is nothing else, and the session ends as fresh as it began: open, with no
bytes left over and no message in progress. -/
theorem feed_sendings (max : Nat) (sendings : List Sending) (beats : List Beat)
    (hs : ∀ s ∈ sendings, s.Proper max) (hb : ∀ b ∈ beats, b.payload.length ≤ min 125 max) :
    (ofMaxFrame max).feed
        ((sendings.flatMap Sending.frames ++ beats.map Beat.frame).flatMap Frame.encode) =
      (sendings.flatMap Sending.actions ++ beats.flatMap Beat.actions, ofMaxFrame max) := by
  have hframes : (ofMaxFrame max).absorbAll
      ((sendings.flatMap Sending.frames ++ beats.map Beat.frame).map Frame.unmasked) =
        (sendings.flatMap Sending.actions ++ beats.flatMap Beat.actions, ofMaxFrame max) := by
    rw [← midway_none, List.map_append, absorbAll_append, absorbAll_sendings hs, absorbAll_beats]
  rw [← hframes]
  apply drain_encoded rfl
  · intro f hf
    rcases List.mem_append.mp hf with hf | hf
    · obtain ⟨s, hmem, hf⟩ := List.mem_flatMap.mp hf
      exact acceptable_sending (hs s hmem) hf
    · obtain ⟨b, hmem, rfl⟩ := List.mem_map.mp hf
      exact acceptable_beat (hb b hmem)
  · rw [hframes]
    rfl

/-- A ping in front, a character cut in two with a pong at the cut, an empty
message, and a last ping; some frames with a key, some without. -/
theorem feed_sendings_cut_character :
    (ofMaxFrame 2).feed
        (([⟨.text "é", [⟨[.ping [7, 8] (some ⟨1, 2, 3, 4⟩)], [0xC3], some ⟨9, 8, 7, 6⟩⟩],
            ⟨[.pong [5] none], [0xA9], none⟩⟩,
          ⟨.binary [], [], ⟨[], [], some ⟨1, 1, 1, 1⟩⟩⟩].flatMap Sending.frames ++
            [Beat.ping [] none].map Beat.frame).flatMap Frame.encode) =
      ([.reply [0x8A, 2, 7, 8], .deliver (.text "é"), .deliver (.binary []), .reply [0x8A, 0]],
        ofMaxFrame 2) := by
  have h := feed_sendings 2
    [⟨.text "é", [⟨[.ping [7, 8] (some ⟨1, 2, 3, 4⟩)], [0xC3], some ⟨9, 8, 7, 6⟩⟩],
        ⟨[.pong [5] none], [0xA9], none⟩⟩,
      ⟨.binary [], [], ⟨[], [], some ⟨1, 1, 1, 1⟩⟩⟩] [.ping [] none]
    (by
      simp only [List.forall_mem_cons, List.not_mem_nil, false_implies, implies_true, and_true]
      exact ⟨⟨by decide, by decide, by decide, by decide, by decide, by decide⟩,
        ⟨by decide, by decide, by decide, by decide, by decide, by decide⟩⟩)
    (by decide)
  exact h

end Session

end WebSocketHost
