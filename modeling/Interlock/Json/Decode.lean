import Interlock.Json.Real

/-!
Reading values out of JSON trees. A record is an object with named members or an array of its
fields in order; a tagged record carries the name of its variant in one member, or first in the
array. Members nobody asked for are skipped unless the record is closed.
-/
namespace Interlock.Json

/-- Why a tree is not what was asked for. -/
inductive Mismatch where
  | wrongKind (expected : String)
  | missingField (name : String)
  | duplicateField (name : String)
  | unknownField (name : String)
  | unknownVariant (name : String)
  | wrongLength
  | tooDeep
  | outOfRange
  /-- A sum within the value leaves its range where nothing guards it. -/
  | overrun
  | invalid (reason : String)
  deriving DecidableEq, Repr

/-- The wording of a mismatch. -/
def Mismatch.message : Mismatch → String
  | .wrongKind expected => "invalid type, expected " ++ expected
  | .missingField name => "missing field `" ++ name ++ "`"
  | .duplicateField name => "duplicate field `" ++ name ++ "`"
  | .unknownField name => "unknown field `" ++ name ++ "`"
  | .unknownVariant name => "unknown variant `" ++ name ++ "`"
  | .wrongLength => "invalid length"
  | .tooDeep => "recursion limit exceeded"
  | .outOfRange => "number out of range"
  | .overrun => "overrun"
  | .invalid reason => reason

/-- A way to read a tree as something. -/
abbrev Decoder (α : Type) := Value → Except Mismatch α

namespace Decoder

def text : Decoder String
  | .text s => .ok s
  | _ => .error (.wrongKind "a string")

/-- An unsigned integer of 64 bits. -/
def word : Decoder Nat
  | .number n =>
    match n.toWord? with
    | some v => .ok v
    | none => .error (.wrongKind "u64")
  | _ => .error (.wrongKind "u64")

/-- An unsigned integer of 32 bits. -/
def word32 : Decoder Nat := fun v => do
  let n ← word v
  if n < UInt32.size then return n else throw (.wrongKind "u32")

def bool : Decoder Bool
  | .bool b => .ok b
  | _ => .error (.wrongKind "a boolean")

def float : Decoder Float
  | .number n =>
    match n.toFloat? with
    | some f => .ok f
    | none => .error .outOfRange
  | _ => .error (.wrongKind "f64")

/-- A single; the literal has to be finite as a double. -/
def float32 : Decoder Float32
  | .number n =>
    match n.toFloat?, n.toFloat32? with
    | some _, some f => .ok f
    | _, _ => .error .outOfRange
  | _ => .error (.wrongKind "f32")

/-- Nothing for `null`. -/
def optional {α : Type} (d : Decoder α) : Decoder (Option α)
  | .null => .ok none
  | v => (d v).map some

def list {α : Type} (d : Decoder α) : Decoder (List α)
  | .array items => items.mapM d
  | _ => .error (.wrongKind "a sequence")

/-- The name of a variant without content: a text, or an object with that one key and `null`. -/
def name : Decoder String
  | .text s => .ok s
  | .object [(s, .null)] => .ok s
  | _ => .error (.wrongKind "a variant name")

/-- One of some names, or the number of its place among them. -/
def nameOrPlace (names : List String) : Decoder String
  | .number n =>
    match n.toWord?.bind fun i => names[i]? with
    | some s => .ok s
    | none => .error (.wrongKind "a variant name")
  | v => text v

end Decoder

/-- What the format of a text decides about reading its trees. -/
structure Format where
  /-- How the name of a variant without content is written. -/
  name : Decoder String := Decoder.name
  /-- Whether an array may hold further items behind the fields of a record. -/
  spareItems : Bool := false
  /-- The greatest nesting of what is set aside, the outermost level included; none is no limit,
  and then neither numbers nor texts are looked at. -/
  depthLimit : Option Nat := some 127

/-- The format of JSON texts. -/
def Format.json : Format := {}

/-- A field of a record, and whether it may be left out at the end of the array form. -/
structure Field where
  name : String
  omissible : Bool := false

/-- The members of a record that are there, by name; no known name stands twice. -/
abbrev Members := List (String × Value)

/-- The first name that stands more than once. -/
def firstRepeated : List String → Option String
  | [] => none
  | n :: rest => if rest.contains n then some n else firstRepeated rest

/-- The members of the array form: fields in order, omissible ones at the end left out or not. -/
def membersOfItems : List Field → List Value → Except Mismatch Members
  | [], [] => .ok []
  | [], _ :: _ => .error .wrongLength
  | f :: fs, [] => if f.omissible then membersOfItems fs [] else .error .wrongLength
  | f :: fs, v :: vs => (membersOfItems fs vs).map ((f.name, v) :: ·)

/-- The members of the object form: known names at most once, unknown names only in an open
record. -/
def membersOfObject (closed : Bool) (fields : List Field) (members : Members) :
    Except Mismatch Members :=
  let known := fun (name : String) => fields.any (·.name == name)
  match closed, members.find? fun m => !known m.1 with
  | true, some (name, _) => .error (.unknownField name)
  | _, _ =>
    let kept := members.filter fun m => known m.1
    match firstRepeated (kept.map (·.1)) with
    | some name => .error (.duplicateField name)
    | none => .ok kept

/-- A record in either form. -/
def Value.members (v : Value) (fields : List Field) (closed : Bool := false)
    (spareItems : Bool := false) : Except Mismatch Members :=
  match v with
  | .object ms => membersOfObject closed fields ms
  | .array items => membersOfItems fields (if spareItems then items.take fields.length else items)
  | _ => .error (.wrongKind "a record")

namespace Members

variable {α : Type}

/-- A field that has to be there. -/
def required (ms : Members) (name : String) (d : Decoder α) : Except Mismatch α :=
  match ms.lookup name with
  | some v => d v
  | none => .error (.missingField name)

/-- A field that may be missing or `null`. -/
def optional (ms : Members) (name : String) (d : Decoder α) : Except Mismatch (Option α) :=
  match ms.lookup name with
  | some v => Decoder.optional d v
  | none => .ok none

/-- A field that stands for a default when it is missing, but may not be `null`. -/
def orElse (ms : Members) (name : String) (d : Decoder α) (default : α) : Except Mismatch α :=
  match ms.lookup name with
  | some v => d v
  | none => .ok default

end Members

/-- Whether a literal may be set aside: as an unsigned integer of 64 bits, or else as a double. -/
def Number.isKept (n : Number) : Bool := n.toWord?.isSome || n.magnitude?.isSome

mutual

/-- Whether a tree may be set aside to be read later: nested at most to the given depth, every
number finite and every text readable. -/
def Value.settable (depth : Nat) : Value → Except Mismatch Unit
  | .number n => if n.isKept then .ok () else .error .outOfRange
  | .unreadable => .error (.invalid "lone leading surrogate in hex escape")
  | .array items =>
    match depth with
    | 0 => .error .tooDeep
    | d + 1 => settableItems d items
  | .object ms =>
    match depth with
    | 0 => .error .tooDeep
    | d + 1 => settableMembers d ms
  | _ => .ok ()

def settableItems (depth : Nat) : List Value → Except Mismatch Unit
  | [] => .ok ()
  | v :: vs =>
    match v.settable depth with
    | .ok () => settableItems depth vs
    | .error e => .error e

def settableMembers (depth : Nat) : List (String × Value) → Except Mismatch Unit
  | [] => .ok ()
  | (_, v) :: ms =>
    match v.settable depth with
    | .ok () => settableMembers depth ms
    | .error e => .error e

end

/-- What a tagged record holds besides its tag. -/
inductive Payload where
  | members (ms : Members)
  | items (vs : List Value)

/-- Split a tagged record into the name of its variant and the rest. The whole record is set aside
for that, so its nesting and its numbers are checked where the format limits them; `enclosing`
levels already surround it. -/
def Value.tagged (v : Value) (tag : String) (name : Decoder String := Decoder.text)
    (format : Format := .json) (enclosing : Nat := 0) : Except Mismatch (String × Payload) := do
  match format.depthLimit with
  | some depth => v.settable (depth - enclosing)
  | none => pure ()
  match v with
  | .object ms =>
    match ms.filter (·.1 == tag) with
    | [] => throw (.missingField tag)
    | [(_, t)] => return (← name t, .members (ms.filter (·.1 != tag)))
    | _ => throw (.duplicateField tag)
  | .array (t :: vs) => return (← name t, .items vs)
  | .array [] => throw .wrongLength
  | _ => throw (.wrongKind "a tagged record")

/-- The fields of a variant. -/
def Payload.fields (p : Payload) (fields : List Field) : Except Mismatch Members :=
  match p with
  | .members ms => membersOfObject false fields ms
  | .items vs => membersOfItems fields vs

/-- A variant without fields: other members are skipped, further items are not. -/
def Payload.nothing (p : Payload) : Except Mismatch Unit :=
  match p with
  | .members _ | .items [] => .ok ()
  | .items _ => .error .wrongLength

end Interlock.Json
