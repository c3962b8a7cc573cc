import WebSocketHost.Event

/-!
Which sessions are registered, and under which handle. The last to register
under an id has it; main statement: each operation, seen through `lookup`.
-/
namespace WebSocketHost

/-- Handles by session id, at most one for each. -/
structure Registry (H : Type) where
  entries : List (SessionId × H) := []

namespace Registry

variable {H : Type}

def empty : Registry H := {}

def lookup (r : Registry H) (id : SessionId) : Option H := r.entries.lookup id

def contains (r : Registry H) (id : SessionId) : Bool := (r.lookup id).isSome

/-- The registry without an id. -/
def erase (r : Registry H) (id : SessionId) : Registry H := ⟨r.entries.filter (·.1 != id)⟩

def insert (r : Registry H) (id : SessionId) (h : H) : Registry H :=
  ⟨(id, h) :: (r.erase id).entries⟩

/-- Registers a handle; gives the one it replaces. -/
def register (r : Registry H) (id : SessionId) (h : H) : Option H × Registry H :=
  (r.lookup id, r.insert id h)

def unregister (r : Registry H) (id : SessionId) : Option H × Registry H :=
  (r.lookup id, r.erase id)

/-- Removes an entry only if its handle is the one meant, so that a connection
that ends late cannot remove a newer one with the same id. -/
def unregisterIf (r : Registry H) (id : SessionId) (p : H → Bool) : Option H × Registry H :=
  match r.lookup id with
  | some h => if p h then (some h, r.erase id) else (none, r)
  | none => (none, r)

/-- Changes the handle under an id, if there is one. -/
def modify (r : Registry H) (id : SessionId) (f : H → H) : Registry H :=
  ⟨r.entries.map fun (k, h) => (k, if k = id then f h else h)⟩

/-- Every handle, and the registry without any. -/
def clear (r : Registry H) : List H × Registry H := (r.entries.map (·.2), empty)

def size (r : Registry H) : Nat := r.entries.length

def isEmpty (r : Registry H) : Bool := r.entries.isEmpty

/-- The ids in order. -/
def ids (r : Registry H) : List SessionId := (r.entries.map (·.1)).mergeSort (fun a b => a ≤ b)

/-- Whether an id is registered with a handle that is open. -/
def isActive (r : Registry H) (isOpen : H → Bool) (id : SessionId) : Bool :=
  (r.lookup id).any isOpen

@[simp] theorem lookup_empty (k : SessionId) : (empty : Registry H).lookup k = none := rfl

@[simp] theorem lookup_erase (r : Registry H) (id k : SessionId) :
    (r.erase id).lookup k = if k = id then none else r.lookup k := by
  obtain ⟨entries⟩ := r
  simp only [lookup, erase]
  induction entries with
  | nil => simp
  | cons e es ih =>
    obtain ⟨i, h⟩ := e
    by_cases hi : i = id
    · subst hi
      by_cases hk : k = i
      · subst hk; simpa using ih
      · simp_all [List.lookup_cons, beq_eq_false_iff_ne.mpr hk]
    · by_cases hk : k = i
      · subst hk; simp_all
      · simp_all [List.lookup_cons, beq_eq_false_iff_ne.mpr hk]

@[simp] theorem lookup_insert (r : Registry H) (id k : SessionId) (h : H) :
    (r.insert id h).lookup k = if k = id then some h else r.lookup k := by
  by_cases hk : k = id
  · simp [insert, lookup, hk]
  · have := r.lookup_erase id k
    simp_all [insert, lookup, List.lookup_cons, beq_eq_false_iff_ne.mpr hk]

end Registry

end WebSocketHost
