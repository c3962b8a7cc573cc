import WebSocketHost.Octets

/-!
A connection's transport as its task sees it: chunks that the peer sent, and a
way out that takes bytes, refuses them or takes its time.
-/
namespace WebSocketHost

/-- What comes after the chunks there are. -/
inductive Horizon
  /-- The peer may send more. -/
  | more
  | ended
  | failed
deriving DecidableEq

/-- How the way out takes what is written, flushed or shut down. -/
inductive Outlet
  | taking
  | failing
  | stalled
deriving DecidableEq

structure Transport where
  /-- Chunks not read yet, none of them empty. -/
  incoming : List Octets := []
  incoming_ne : ∀ chunk ∈ incoming, chunk ≠ [] := by simp
  horizon : Horizon := .more
  outlet : Outlet := .taking
  /-- What was written, the latest first. -/
  written : List Octets := []
  isShut : Bool := false

namespace Transport

/-- A chunk from the peer. -/
def arrive (t : Transport) (chunk : Octets) : Transport :=
  if h : chunk = [] then t
  else { t with
    incoming := t.incoming ++ [chunk]
    incoming_ne := by
      intro c hc
      rcases List.mem_append.mp hc with hc | hc
      · exact t.incoming_ne c hc
      · simpa [List.mem_singleton.mp hc] using h }

def withHorizon (t : Transport) (h : Horizon) : Transport := { t with horizon := h }

def withOutlet (t : Transport) (o : Outlet) : Transport := { t with outlet := o }

/-- Bytes that one reading takes at most. -/
def maxRead : Nat := 16384

inductive Reading
  | bytes (chunk : Octets)
  | ended
  | failed

/-- A reading never crosses a chunk. There is none while the peer may send more. -/
def read (t : Transport) : Option (Reading × Transport) :=
  match h : t.incoming with
  | chunk :: rest =>
    if hr : chunk.drop maxRead = [] then
      some (.bytes (chunk.take maxRead), { t with
        incoming := rest
        incoming_ne := fun c hc => t.incoming_ne c (by simp [h, hc]) })
    else
      some (.bytes (chunk.take maxRead), { t with
        incoming := chunk.drop maxRead :: rest
        incoming_ne := by
          intro c hc
          rcases List.mem_cons.mp hc with rfl | hc
          · exact hr
          · exact t.incoming_ne c (by simp [h, hc]) })
  | [] =>
    match t.horizon with
    | .more => none
    | .ended => some (.ended, t)
    | .failed => some (.failed, t)

/-- What came of writing to a transport. -/
inductive Writing
  | done (t : Transport)
  | failed
  | pending

def write (t : Transport) (bytes : Octets) : Writing :=
  match t.outlet with
  | .taking => .done { t with written := bytes :: t.written }
  | .failing => .failed
  | .stalled => .pending

/-- Says that nothing will follow what was written. -/
def shut (t : Transport) : Writing :=
  match t.outlet with
  | .taking => .done { t with isShut := true }
  | .failing => .failed
  | .stalled => .pending

/-- Hands on what was written so far. -/
def takeWritten (t : Transport) : Octets × Transport :=
  (t.written.reverse.flatten, { t with written := [] })

/-- Bytes not read yet. -/
def unread (t : Transport) : Nat := t.incoming.flatten.length

theorem unread_write {t u : Transport} {b : Octets} (h : t.write b = .done u) :
    u.unread = t.unread := by
  unfold write at h
  split at h <;> simp at h
  subst h
  rfl

theorem unread_shut {t u : Transport} (h : t.shut = .done u) : u.unread = t.unread := by
  unfold shut at h
  split at h <;> simp at h
  subst h
  rfl

/-- A reading takes bytes and loses none. -/
theorem unread_read {t u : Transport} {chunk : Octets} (h : t.read = some (.bytes chunk, u)) :
    u.unread + chunk.length = t.unread ∧ chunk ≠ [] := by
  unfold read at h
  split at h
  · next chunk' rest hi =>
    have hne : chunk' ≠ [] := t.incoming_ne chunk' (by simp [hi])
    have htake : chunk'.take maxRead ≠ [] := by
      simpa [List.take_eq_nil_iff, maxRead] using hne
    have hlen := congrArg List.length (List.take_append_drop maxRead chunk')
    simp only [List.length_append] at hlen
    split at h <;> (simp at h; obtain ⟨rfl, rfl⟩ := h)
    · next hd =>
      refine ⟨?_, htake⟩
      simp only [hd, List.length_nil] at hlen
      simp only [unread, hi, List.flatten_cons, List.length_append]
      omega
    · refine ⟨?_, htake⟩
      simp only [unread, hi, List.flatten_cons, List.length_append]
      omega
  · split at h <;> simp at h

end Transport

end WebSocketHost
