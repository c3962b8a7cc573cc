import WebSocketHost.Proofs.Frame.RoundTrip
import WebSocketHost.Proofs.Session.Step

/-! Draining bytes is absorbing the frames they read as, one by one: from here on a peer's
bytes may be taken for the frames it sent, their keys already taken off. -/
namespace WebSocketHost

namespace Frame

/-- The frame as its receiver sees it. -/
def unmasked (f : Frame) : Frame := { f with mask := none }

/-- The bytes are those of the frames, one behind the other, and then the rest. -/
inductive Reads (max : Nat) : Octets → List Frame → Octets → Prop
  | nil (b : Octets) : Reads max b [] b
  | cons {b later rest : Octets} {f : Frame} {fs : List Frame}
    (hd : decode max b = .ok (f, later)) (hlater : Reads max later fs rest) :
    Reads max b (f :: fs) rest

theorem Reads.concat {max : Nat} {b rest later : Octets} {f : Frame} {fs : List Frame}
    (h : Reads max b fs rest) (hd : decode max rest = .ok (f, later)) :
    Reads max b (fs ++ [f]) later := by
  induction h with
  | nil b => exact .cons hd (.nil later)
  | cons hd' hlater ih => exact .cons hd' (ih hd)

theorem reads_encoded {max : Nat} {fs : List Frame} (hacc : ∀ f ∈ fs, f.Acceptable max) :
    Reads max (fs.flatMap encode) (fs.map unmasked) [] := by
  induction fs with
  | nil => exact .nil []
  | cons f fs ih =>
    have hd := decode_encode_append (hacc f List.mem_cons_self) (fs.flatMap encode)
    exact .cons hd (ih fun g hg => hacc g (List.mem_cons_of_mem f hg))

end Frame

namespace Session

def absorbAll (s : Session) : List Frame → List Action × Session
  | [] => ([], s)
  | f :: fs =>
    let (a, s) := s.absorb f
    let (rest, s) := s.absorbAll fs
    (a.toList ++ rest, s)

theorem absorbAll_cons (s : Session) (f : Frame) (fs : List Frame) :
    s.absorbAll (f :: fs) =
      ((s.absorb f).1.toList ++ ((s.absorb f).2.absorbAll fs).1,
        ((s.absorb f).2.absorbAll fs).2) := rfl

theorem absorbAll_append (s : Session) (fs gs : List Frame) :
    s.absorbAll (fs ++ gs) =
      ((s.absorbAll fs).1 ++ ((s.absorbAll fs).2.absorbAll gs).1,
        ((s.absorbAll fs).2.absorbAll gs).2) := by
  induction fs generalizing s with
  | nil => rfl
  | cons f fs ih => rw [List.cons_append, absorbAll_cons, ih, absorbAll_cons, List.append_assoc]

theorem finished_absorbAll {s : Session} (fs : List Frame) (hs : s.finished = true) :
    (s.absorbAll fs).2.finished = true := by
  induction fs generalizing s with
  | nil => exact hs
  | cons f fs ih =>
    rw [absorbAll_cons]
    exact ih (finished_absorb f hs)

theorem buffer_absorbAll (s : Session) (fs : List Frame) :
    (s.absorbAll fs).2.buffer = s.buffer := by
  induction fs generalizing s with
  | nil => rfl
  | cons f fs ih => rw [absorbAll_cons, ih, buffer_absorb]

theorem step_of_encoded {s : Session} {f : Frame} {rest : Octets} (hf : s.finished = false)
    (hacc : f.Acceptable s.maxFrame) (hbuf : s.buffer = f.encode ++ rest) :
    s.step = some ({ s with buffer := rest }.absorb f.unmasked) := by
  apply step_of_frame hf
  rw [hbuf]
  exact Frame.decode_encode_append hacc rest

theorem drain_reads {s : Session} {b rest : Octets} {fs : List Frame}
    (hreads : Frame.Reads s.maxFrame b fs rest) (hbuf : s.buffer = [])
    (hopen : (s.absorbAll fs).2.finished = false) :
    (s.receive b).drain =
      ((s.absorbAll fs).1 ++ ((s.absorbAll fs).2.receive rest).drain.1,
        ((s.absorbAll fs).2.receive rest).drain.2) := by
  generalize hmax : s.maxFrame = max at hreads
  induction hreads generalizing s with
  | nil b => rfl
  | @cons b later rest f fs hd hlater ih =>
    -- an earlier finish would still hold at the end
    have hf : s.finished = false := by
      cases hf : s.finished with
      | false => rfl
      | true =>
        rw [finished_absorbAll _ hf] at hopen
        exact hopen
    have hbytes : ∀ bytes, s.receive bytes = { s with buffer := bytes } := by
      intro bytes
      rw [receive, hbuf, List.nil_append]
    have hstep : (s.receive b).step = some ((s.receive later).absorb f) := by
      rw [hbytes, hbytes]
      exact step_of_frame (s := { s with buffer := b }) hf (hmax ▸ hd)
    rw [absorb_receive] at hstep
    rw [absorbAll_cons] at hopen ⊢
    rw [drain_of_step hstep, ih ((buffer_absorb s f).trans hbuf) hopen
      ((maxFrame_absorb s f).trans hmax), List.append_assoc]

theorem drain_encoded {s : Session} {fs : List Frame} (hbuf : s.buffer = [])
    (hacc : ∀ f ∈ fs, f.Acceptable s.maxFrame)
    (hopen : (s.absorbAll (fs.map Frame.unmasked)).2.finished = false) :
    (s.receive (fs.flatMap Frame.encode)).drain = s.absorbAll (fs.map Frame.unmasked) := by
  have hempty : (s.absorbAll (fs.map Frame.unmasked)).2.buffer = [] := by
    rw [buffer_absorbAll, hbuf]
  rw [drain_reads (Frame.reads_encoded hacc) hbuf hopen, receive_nil,
    drain_of_step_none (step_of_empty hempty), List.append_nil]

end Session

end WebSocketHost
