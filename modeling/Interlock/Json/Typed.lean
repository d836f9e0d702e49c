import Interlock.Decimal.Shortest
import Interlock.Json.Parser
import Interlock.Json.Real
import Interlock.Text.Quoted

/-!
Reading values of a known kind straight from a text, in its order, without a tree in between. What
is wrong first in the text is what is reported, be it the grammar or the kind of a value, and with
the place where it was noticed. A record is an object with named members or an array of its fields
in order; members nobody asked for are skipped.
-/
namespace Interlock.Json

/-! Numbers. -/

/-- What a number literal stands for: an integer of 64 bits where it is one, else a double. -/
inductive Numeral where
  | natural (n : Nat)
  | negative (n : Nat)
  | real (f : Float)

namespace Numeral

/-- The numeral as it is named in a fault. -/
def description : Numeral → String
  | .natural n => "integer `" ++ toString n ++ "`"
  | .negative n => "integer `-" ++ toString n ++ "`"
  | .real f => "floating point `" ++ Decimal.display f ++ "`"

end Numeral

/-- What a literal stands for, if it is finite. Zero with a minus sign is no integer. -/
def Number.numeral? (n : Number) : Option Numeral :=
  let v := ofDigits n.whole
  if n.isInteger && !n.negative && v < UInt64.size then some (.natural v)
  else if n.isInteger && n.negative && 0 < v && v ≤ 0x8000000000000000 then some (.negative v)
  else n.toFloat?.map .real

/-- How many digits of an exponent lie behind the one that takes it beyond 31 bits. -/
def unreadDigits (value : Nat) : List Char → Nat
  | [] => 0
  | c :: rest =>
    let value := value * 10 + (c.toNat - '0'.toNat)
    if 0x80000000 ≤ value then rest.length else unreadDigits value rest

/-- The fault of a literal that is too large. It is noticed behind the literal, but within an
exponent that is too large by itself. -/
def Number.rangeFault (n : Number) (rest : List Char) : Fault :=
  match n.exponent with
  | some (_, ds) =>
    if 0x80000000 ≤ ofDigits ds then
      ⟨.numberOutOfRange, byteLength rest + unreadDigits 0 ds⟩
    else .ahead .numberOutOfRange rest
  | none => .ahead .numberOutOfRange rest

/-- A number literal. -/
def readNumeral : Reader Numeral := fun cs => do
  let (n, rest) ←
    match cs with
    | '-' :: rest => readNumber .endInValue true rest
    | cs => readNumber .endInValue false cs
  match n.numeral? with
  | some v => return (v, rest)
  | none => throw (n.rangeFault rest)

/-- Whether a number literal starts with a character. -/
def startsNumber (c : Char) : Bool := c == '-' || c.isDigit

/-! Values of another kind. -/

/-- The fault of a value that is not of the kind that is expected. The value is read as far as it
takes to name it, and what is wrong in that part comes first. -/
def kindFault (expected : String) (cs : List Char) : Fault :=
  let word := fun (name : String) (letters rest : List Char) =>
    match readWord letters rest with
    | .ok rest => Fault.here (.wrongKind name expected) rest
    | .error f => f
  match cs with
  | [] => .here .endInValue []
  | 'n' :: rest => word "null" ['u', 'l', 'l'] rest
  | 't' :: rest => word "boolean `true`" ['r', 'u', 'e'] rest
  | 'f' :: rest => word "boolean `false`" ['a', 'l', 's', 'e'] rest
  | '"' :: rest =>
    match readText [] none rest with
    | .ok (s, rest) => .here (.wrongKind ("string " ++ Text.quoted s) expected) rest
    | .error f => f
  | '[' :: _ => .ahead (.wrongKind "sequence" expected) cs
  | '\x7b' :: _ => .ahead (.wrongKind "map" expected) cs
  | c :: _ =>
    if startsNumber c then
      match readNumeral cs with
      | .ok (v, rest) => .ahead (.wrongKind v.description expected) rest
      | .error f => f
    else .ahead .noValue cs

namespace Reader

/-! Values without parts. -/

/-- A text. -/
def text : Reader String := fun cs =>
  match skipSpace cs with
  | '"' :: rest => readText [] none rest
  | cs => .error (kindFault "a string" cs)

/-- A natural number below a bound, of a kind with a name. -/
def natural (bound : Nat) (kind : String) : Reader Nat := fun cs =>
  let cs := skipSpace cs
  if (cs.head?.map startsNumber).getD false then
    match readNumeral cs with
    | .error f => .error f
    | .ok (.natural n, rest) =>
      if n < bound then .ok (n, rest)
      else .error (.ahead (.wrongValue (Numeral.natural n).description kind) rest)
    | .ok (.negative n, rest) =>
      .error (.ahead (.wrongValue (Numeral.negative n).description kind) rest)
    | .ok (.real f, rest) => .error (.ahead (.wrongKind (Numeral.real f).description kind) rest)
  else .error (kindFault kind cs)

/-- An unsigned integer of 32 bits. -/
def word32 : Reader Nat := natural UInt32.size "u32"

/-- An unsigned integer of 64 bits. -/
def word : Reader Nat := natural UInt64.size "u64"

/-- A text that stands for a value, or says why it does not. -/
def parsed {α : Type} (parse : String → Except String α) : Reader α := fun cs =>
  match text cs with
  | .error f => .error f
  | .ok (s, rest) =>
    match parse s with
    | .ok a => .ok (a, rest)
    | .error reason => .error (.here (.other reason) rest)

/-- Nothing for `null`. -/
def optional {α : Type} (r : Reader α) : Reader (Option α) := fun cs =>
  match skipSpace cs with
  | 'n' :: rest => (readWord ['u', 'l', 'l'] rest).map (none, ·)
  | cs => (r cs).map fun (a, rest) => (some a, rest)

/-- A value that nobody asked for. -/
def skipped : Reader Value := fun cs => readValue (fuelFor cs.length) cs

/-! Arrays. -/

/-- Where the next item of an array starts, or nothing if the closing bracket is next. -/
def nextItem (isFirst : Bool) (cs : List Char) : Except Fault (Option (List Char)) :=
  match skipSpace cs with
  | [] => .error (.here .endInArray [])
  | ']' :: _ => .ok none
  | c :: rest =>
    if isFirst then .ok (some (c :: rest))
    else if c == ',' then
      match skipSpace rest with
      | [] => .error (.here .endInValue [])
      | ']' :: rest => .error (.ahead .trailingComma (']' :: rest))
      | rest => .ok (some rest)
    else .error (.ahead .noCommaInArray (c :: rest))

/-- What follows the closing bracket of an array in which nothing more is expected. -/
def closeArray (cs : List Char) : Except Fault (List Char) :=
  match skipSpace cs with
  | [] => .error (.here .endInArray [])
  | ']' :: rest => .ok rest
  | ',' :: rest =>
    match skipSpace rest with
    | ']' :: rest => .error (.ahead .trailingComma (']' :: rest))
    | rest => .error (.ahead .trailingCharacters rest)
  | rest => .error (.ahead .trailingCharacters rest)

/-- The items of an array from the next one on, behind those read already, last one first. -/
def items {α : Type} (r : Reader α) : Nat → List α → Reader (List α)
  | 0, _, cs => .error (.ahead .noValue cs)
  | fuel + 1, seen, cs =>
    match nextItem seen.isEmpty cs with
    | .error f => .error f
    | .ok none => (closeArray cs).map (seen.reverse, ·)
    | .ok (some cs) =>
      match r cs with
      | .error f => .error f
      | .ok (a, rest) => items r fuel (a :: seen) rest

/-- A list. -/
def list {α : Type} (r : Reader α) : Reader (List α) := fun cs =>
  match skipSpace cs with
  | '[' :: rest => items r (fuelFor rest.length) [] rest
  | cs => .error (kindFault "a sequence" cs)

end Reader

/-! Records. -/

/-- A field of a record, and how it is read into the record. -/
structure Slot (σ : Type) where
  name : String
  /-- Whether the field may be left out. -/
  omissible : Bool
  read : σ → Reader σ

/-- How a record is read: how it is named in faults, and its fields in order. -/
structure Layout (σ : Type) where
  kind : String
  slots : List (Slot σ)

namespace Layout

variable {σ : Type}

/-- What an array of the fields should look like. -/
def shape (l : Layout σ) : String :=
  l.kind ++ " with " ++ toString l.slots.length ++ " elements"

/-- Fields of the array form from the next one on; so many have been read already. -/
def readItems (l : Layout σ) : List (Slot σ) → Nat → σ → Reader σ
  | [], _, s, cs => (Reader.closeArray cs).map (s, ·)
  | slot :: more, index, s, cs =>
    match Reader.nextItem (index == 0) cs with
    | .error f => .error f
    | .ok none =>
      if slot.omissible then (Reader.closeArray cs).map (s, ·)
      else
        match Reader.closeArray cs with
        | .ok rest => .error (.here (.wrongLength index l.shape) rest)
        | .error f => .error f
    | .ok (some cs) =>
      match slot.read s cs with
      | .error f => .error f
      | .ok (s, rest) => readItems l more (index + 1) s rest

/-- What follows the quote that opens the next key of an object, or nothing if the closing brace is
next. -/
def nextKey (isFirst : Bool) (cs : List Char) : Except Fault (Option (List Char)) :=
  match skipSpace cs with
  | [] => .error (.here .endInObject [])
  | '\x7d' :: _ => .ok none
  | c :: rest =>
    if isFirst then
      if c == '"' then .ok (some rest) else .error (.ahead .keyNotText (c :: rest))
    else if c == ',' then
      match skipSpace rest with
      | [] => .error (.here .endInValue [])
      | '"' :: rest => .ok (some rest)
      | '\x7d' :: rest => .error (.ahead .trailingComma ('\x7d' :: rest))
      | rest => .error (.ahead .keyNotText rest)
    else .error (.ahead .noCommaInObject (c :: rest))

/-- What follows the colon behind a key. -/
def skipColon (cs : List Char) : Except Fault (List Char) :=
  match skipSpace cs with
  | [] => .error (.here .endInObject [])
  | ':' :: rest => .ok rest
  | rest => .error (.ahead .noColon rest)

/-- What follows the closing brace of an object that has members of some names, if none is missing
that may not be left out. -/
def closeObject (l : Layout σ) (seen : List String) (cs : List Char) : Except Fault (List Char) :=
  let rest := (skipSpace cs).drop 1
  match l.slots.find? fun slot => !slot.omissible && !seen.contains slot.name with
  | some slot => .error (.here (.missingField slot.name) rest)
  | none => .ok rest

/-- A member behind its key. A known name stands once; that is noticed with the colon in sight. -/
def readMember (l : Layout σ) (seen : List String) (key : String) (s : σ) : Reader σ := fun cs => do
  match l.slots.find? (·.name == key) with
  | some slot =>
    if seen.contains key then throw (.ahead (.duplicateField key) (skipSpace cs))
    slot.read s (← skipColon cs)
  | none =>
    let (_, rest) ← Reader.skipped (← skipColon cs)
    return (s, rest)

/-- The members of the object form from the next one on, behind those whose keys are given. -/
def readMembers (l : Layout σ) : Nat → List String → σ → Reader σ
  | 0, _, _, cs => .error (.ahead .noValue cs)
  | fuel + 1, seen, s, cs =>
    match nextKey seen.isEmpty cs with
    | .error f => .error f
    | .ok none => (l.closeObject seen cs).map (s, ·)
    | .ok (some cs) =>
      match readText [] none cs with
      | .error f => .error f
      | .ok (key, rest) =>
        match l.readMember seen key s rest with
        | .error f => .error f
        | .ok (s, rest) => readMembers l fuel (key :: seen) s rest

/-- A record in either form, from one whose fields are not known yet. -/
def read (l : Layout σ) (blank : σ) : Reader σ := fun cs =>
  match skipSpace cs with
  | '[' :: rest => l.readItems l.slots 0 blank rest
  | '\x7b' :: rest => l.readMembers (fuelFor rest.length) [] blank rest
  | cs => .error (kindFault l.kind cs)

end Layout

/-- Read a whole text: one value with white space around it. -/
def Reader.whole {α : Type} (r : Reader α) (s : String) : Except Fault α :=
  match r s.toList with
  | .error f => .error f
  | .ok (a, rest) =>
    match skipSpace rest with
    | [] => .ok a
    | rest => .error (.ahead .trailingCharacters rest)

end Interlock.Json
