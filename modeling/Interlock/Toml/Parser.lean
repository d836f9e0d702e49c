import Interlock.Json.Decode
import Interlock.Toml.Scalar
import Interlock.Toml.Tree

/-!
Reading TOML texts as JSON values: tables become objects, texts stay texts, and of numbers and dates
only the kind is kept. Values may be nested up to a limit, and so may keys. Specification, section
10.4: Configuration.
-/
namespace Interlock.Toml

/-- Values nested this deep, or keys with so many parts, are refused. -/
def nestingLimit : Nat := 80

/-- A key that is not too long. -/
def readPath (cs : List Char) : Option (List String × List Char) :=
  match readKey (cs.length + 1) cs with
  | some (path, rest) => if path.length < nestingLimit then some (path, rest) else none
  | none => none

mutual

/-- A value at a depth. -/
def readValue : Nat → Nat → List Char → Option (Json.Value × List Char)
  | 0, _, _ => none
  | fuel + 1, depth, cs =>
    match cs with
    | '"' :: _ | '\'' :: _ => (readText cs).map fun (s, rest) => (.text s, rest)
    | '[' :: rest =>
      if depth + 1 < nestingLimit then readItems fuel (depth + 1) [] rest else none
    | '\x7b' :: rest =>
      if depth + 1 < nestingLimit then
        match skipSpaces rest with
        | '\x7d' :: rest => some (.object [], rest)
        | rest => readInline fuel (depth + 1) [] rest
      else none
    | cs =>
      let (token, rest) := splitToken cs
      (valueOfToken token).map fun v => (v, rest)

/-- The items of an array from the next one on, behind those read already, last one first. -/
def readItems : Nat → Nat → List Json.Value → List Char → Option (Json.Value × List Char)
  | 0, _, _, _ => none
  | fuel + 1, depth, seen, cs =>
    match skipLines (cs.length + 1) cs with
    | ']' :: rest => some (.array seen.reverse, rest)
    | cs =>
      match readValue fuel depth cs with
      | none => none
      | some (v, rest) =>
        match skipLines (rest.length + 1) rest with
        | ',' :: rest => readItems fuel depth (v :: seen) rest
        | ']' :: rest => some (.array (v :: seen).reverse, rest)
        | _ => none

/-- The members of a table within a line from the next one on, behind those read already. -/
def readInline : Nat → Nat → Entries → List Char → Option (Json.Value × List Char)
  | 0, _, _, _ => none
  | fuel + 1, depth, seen, cs =>
    match readPath cs with
    | none => none
    | some (path, rest) =>
      match expect '=' (skipSpaces rest) with
      | none => none
      | some rest =>
        match readValue fuel depth (skipSpaces rest) with
        | none => none
        | some (v, rest) =>
          match insert [] path v seen with
          | none => none
          | some seen =>
            match skipSpaces rest with
            | '\x7d' :: rest => some (.object (membersOf seen), rest)
            | ',' :: rest => readInline fuel depth seen rest
            | _ => none

end

/-- A text while it is read: the header of the open table and all tables so far. -/
structure Document where
  header : List String := []
  entries : Entries := []

/-- A header behind its first bracket. -/
def readHeader (d : Document) (cs : List Char) : Option (Document × List Char) := do
  let (several, cs) :=
    match cs with
    | '[' :: rest => (true, rest)
    | cs => (false, cs)
  let (path, rest) ← readPath cs
  let rest ← expect ']' rest
  let rest ← if several then expect ']' rest else some rest
  return (⟨path, ← openHeader path several d.entries⟩, rest)

/-- A key and its value. -/
def readMember (d : Document) (cs : List Char) : Option (Document × List Char) := do
  let (path, rest) ← readPath cs
  let rest ← expect '=' rest
  let (v, rest) ← readValue (2 * cs.length + 2) 0 (skipSpaces rest)
  return ({ d with entries := ← insert d.header path v d.entries }, rest)

/-- The lines of a text from the next one on. -/
def readLinesOf : Nat → Document → List Char → Option Document
  | 0, _, _ => none
  | fuel + 1, d, cs =>
    match skipLines (cs.length + 1) cs with
    | [] => some d
    | cs =>
      let line :=
        match cs with
        | '[' :: rest => readHeader d rest
        | cs => readMember d cs
      match line with
      | none => none
      | some (d, rest) =>
        match skipComment (skipSpaces rest) with
        | [] => some d
        | rest =>
          match skipLineEnd? rest with
          | some rest => readLinesOf fuel d rest
          | none => none

/-- Read a whole text. A mark of the byte order may stand in front. -/
def read (s : String) : Option Json.Value :=
  let cs :=
    match s.toList with
    | '\ufeff' :: rest => rest
    | cs => cs
  (readLinesOf (cs.length + 1) {} cs).map fun d => .object (membersOf d.entries)

/-- The name of a variant without content: a text, or a table with that one key and nothing, an
empty table or an empty array, under it. -/
def variantName : Json.Decoder String
  | .text s => .ok s
  | .object [(s, .object [])] | .object [(s, .array [])] => .ok s
  | _ => .error (.wrongKind "a variant name")

/-- The format of TOML texts: what is nested too deeply is no TOML text at all. -/
def format : Json.Format := ⟨variantName, true, none⟩

end Interlock.Toml
