import Interlock.Json.Basic

/-!
Tables of a TOML text while they are being filled. A table is opened once by its header; it may have
come into being before that on the way to another, and tables made by dotted keys belong to the
place that made them.
-/
namespace Interlock.Toml

/-- What stands under a key: a value, a table, or several tables of which the last is open. -/
inductive Node where
  | value (v : Json.Value)
  /-- A table; `implicit` if no header opened it, `dotted` if dotted keys made it. -/
  | table (implicit dotted : Bool) (entries : List (String × Node))
  | tables (items : List (List (String × Node)))

/-- The entries of a table, in the order of the text. -/
abbrev Entries := List (String × Node)

/-- Put something under a key, in the place of what was there. -/
def Entries.set (es : Entries) (key : String) (n : Node) : Entries :=
  if es.any (·.1 == key) then es.map fun e => if e.1 == key then (key, n) else e
  else es ++ [(key, n)]

/-- Change the table that names lead to. Tables are made on the way; of several the last is meant.
Dotted keys do not lead into a table that a header opened. -/
def modifyAt (dotted : Bool) (change : Bool → Entries → Option Entries) :
    List String → Bool → Entries → Option Entries
  | [], here, es => change here es
  | key :: rest, _, es =>
    match es.lookup key with
    | none => do
      let inner ← modifyAt dotted change rest dotted []
      return es.set key (.table true dotted inner)
    | some (.value _) => none
    | some (.table implicit isDotted inner) =>
      if dotted && !implicit then none
      else do
        let inner ← modifyAt dotted change rest isDotted inner
        return es.set key (.table implicit isDotted inner)
    | some (.tables items) => do
      let last ← items.getLast?
      let inner ← modifyAt dotted change rest false last
      return es.set key (.tables (items.dropLast ++ [inner]))

/-- Open the table under a key. -/
def openTable (key : String) (_ : Bool) (es : Entries) : Option Entries :=
  match es.lookup key with
  | none => some (es.set key (.table false false []))
  | some (.table true false inner) => some (es.set key (.table false false inner))
  | some _ => none

/-- Open one more of the tables under a key. -/
def openNext (key : String) (_ : Bool) (es : Entries) : Option Entries :=
  match es.lookup key with
  | none => some (es.set key (.tables [[]]))
  | some (.tables items) => some (es.set key (.tables (items ++ [[]])))
  | some _ => none

/-- Put a value under a new key. A dotted key ends in a table that dotted keys made, and no other
key does. -/
def insertValue (isDottedKey : Bool) (key : String) (v : Json.Value) (dotted : Bool)
    (es : Entries) : Option Entries :=
  if dotted != isDottedKey || (es.lookup key).isSome then none
  else some (es.set key (.value v))

/-- Split a path into the names before the last and the last. -/
def splitPath (path : List String) : List String × String := (path.dropLast, path.getLastD "")

/-- Put a value under a key of the open table. The names of its header lead there. -/
def insert (header key : List String) (v : Json.Value) (es : Entries) : Option Entries :=
  let (before, last) := splitPath key
  modifyAt false (fun _ inner =>
    modifyAt true (insertValue (!before.isEmpty) last v) before false inner) header false es

/-- Open the table of a header. -/
def openHeader (path : List String) (several : Bool) (es : Entries) : Option Entries :=
  let (before, last) := splitPath path
  modifyAt false (if several then openNext last else openTable last) before false es

mutual

/-- The value of a node. -/
def Node.toJson : Node → Json.Value
  | .value v => v
  | .table _ _ entries => .object (membersOf entries)
  | .tables items => .array (itemsOf items)

def membersOf : List (String × Node) → List (String × Json.Value)
  | [] => []
  | (key, n) :: rest => (key, n.toJson) :: membersOf rest

def itemsOf : List (List (String × Node)) → List Json.Value
  | [] => []
  | entries :: rest => .object (membersOf entries) :: itemsOf rest

end

end Interlock.Toml
