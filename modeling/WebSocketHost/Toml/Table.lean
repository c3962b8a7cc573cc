/-!
Tables of TOML and how a document builds them, statement by statement. A key
names one thing only, and the way a table came about decides what may be added
to it later.
-/
namespace WebSocketHost.Toml

/-- How a table came about. -/
inductive Origin
  /-- Written as a value. It is complete. -/
  | braces
  /-- By a header of its own. -/
  | header
  /-- On the way to another table's header. It may still get its own. -/
  | path
  /-- By a dotted key. -/
  | dotted
deriving DecidableEq

inductive Value
  | text (s : String)
  | integer (n : Int)
  | flag (b : Bool)
  /-- A number with a fraction or an exponent, as it is written. -/
  | float (written : String)
  /-- A date, a time or both, as it is written. -/
  | moment (written : String)
  | array (items : List Value)
  | table (origin : Origin) (members : List (String × Value))
  /-- Tables by repeated headers, the latest first. -/
  | tables (latestFirst : List (List (String × Value)))

/-- Names and what they stand for, in the order they were written. -/
abbrev Members := List (String × Value)

namespace Members

def has (ms : Members) (key : String) : Bool := ms.any (·.1 = key)

def get? (ms : Members) (key : String) : Option Value := ms.lookup key

/-- A new member; none if the name is taken. -/
def insert? (ms : Members) (key : String) (v : Value) : Option Members :=
  if ms.has key then none else some (ms ++ [(key, v)])

/-- What a name stands for is replaced, or added if the name is new. -/
def set (ms : Members) (key : String) (v : Value) : Members :=
  if ms.has key then ms.map fun (k, w) => (k, if k = key then v else w) else ms ++ [(key, v)]

end Members

/-- Changes the table at the end of a path, in a table that came about as told.
Tables that are missing on the way are made: by dots if the path is a key's,
else as steps to a header. A key's path does not enter tables with headers. -/
def update (byKey : Bool) (path : List String) (change : Origin → Members → Option Members)
    (origin : Origin) (ms : Members) : Option Members :=
  match path with
  | [] => change origin ms
  | key :: path =>
    match ms.get? key with
    | none => do
      let made := if byKey then .dotted else .path
      return ms.set key (.table made (← update byKey path change made []))
    | some (.table o inner) =>
      if o = .braces ∨ (byKey ∧ o = .header) then none
      else do return ms.set key (.table o (← update byKey path change o inner))
    | some (.tables (latest :: earlier)) => do
      return ms.set key (.tables ((← update byKey path change .header latest) :: earlier))
    | some _ => none

/-- Gives a key its value. A table that dots lead to must have come about by dots. -/
def assign (path : List String) (key : String) (v : Value) : Origin → Members → Option Members :=
  update true path fun origin ms =>
    if path ≠ [] ∧ origin ≠ .dotted then none else ms.insert? key v

/-- Opens a table by a header, which each table has once. -/
def openTable (path : List String) (key : String) : Origin → Members → Option Members :=
  update false path fun _ ms =>
    match ms.get? key with
    | none => some (ms.set key (.table .header []))
    | some (.table .path inner) => some (ms.set key (.table .header inner))
    | some _ => none

/-- Opens one more table of an array of tables. -/
def openElement (path : List String) (key : String) : Origin → Members → Option Members :=
  update false path fun _ ms =>
    match ms.get? key with
    | none => some (ms.set key (.tables [[]]))
    | some (.tables ts) => some (ms.set key (.tables ([] :: ts)))
    | some _ => none

/-- A key or header is a path that ends in one more name. -/
structure Key where
  path : List String
  name : String

def Key.toList (k : Key) : List String := k.path ++ [k.name]

inductive Statement
  | assignment (key : Key) (value : Value)
  | table (header : Key)
  | element (header : Key)

/-- A document as far as it is read: all its tables, and the path to the one
that the next assignments go to. -/
structure Document where
  members : Members := []
  current : List String := []

namespace Document

def apply (d : Document) : Statement → Option Document
  | .assignment key v => do
    return { d with members := ← update false d.current (assign key.path key.name v) .header d.members }
  | .table header => do
    return ⟨← openTable header.path header.name .header d.members, header.toList⟩
  | .element header => do
    return ⟨← openElement header.path header.name .header d.members, header.toList⟩

def ofStatements? (ss : List Statement) : Option Document := ss.foldlM apply {}

end Document

/-- The members of a table in braces. -/
def braces? (assignments : List (Key × Value)) : Option Value := do
  let ms ← assignments.foldlM (fun ms (k, v) => assign k.path k.name v .braces ms) []
  return .table .braces ms

namespace Value

/-- The items of an array, or the tables of an array of tables. -/
def items? : Value → Option (List Value)
  | array vs => some vs
  | tables ts => some (ts.reverse.map (.table .header))
  | _ => none

end Value

end WebSocketHost.Toml
