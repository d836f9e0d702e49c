import Interlock.Json.Decode

/-!
Lenient reading of JSON trees: what is missing or of another kind reads as a default. For scripts
and other input that is written by hand and trusted.
-/
namespace Interlock.Json.Value

/-- The member of an object with a name; `null` if there is none. -/
def member (v : Value) (name : String) : Value :=
  match v with
  | .object ms => (ms.lookup name).getD .null
  | _ => .null

/-- The items of an array. -/
def items : Value → List Value
  | .array vs => vs
  | _ => []

/-- The item of an array at a place, counted from zero; `null` if there is none. -/
def item (v : Value) (i : Nat) : Value := v.items.getD i .null

def asText? : Value → Option String
  | .text s => some s
  | _ => none

def asText (v : Value) : String := v.asText?.getD ""

def asBool : Value → Bool
  | .bool b => b
  | _ => false

/-- The integer of a literal without fraction and exponent. -/
def asInt : Value → Int
  | .number n =>
    let whole : Int := ofDigits n.whole
    if n.negative then -whole else whole
  | _ => 0

/-- A natural number, or a default. -/
def asNat (v : Value) (default : Nat := 0) : Nat :=
  match v with
  | .number n => ofDigits n.whole
  | _ => default

def asFloat (v : Value) : Float :=
  match Decoder.float v with
  | .ok f => f
  | .error _ => 0

/-- A list of texts as a value. -/
def texts (ss : List String) : Value := .array (ss.map .text)

/-- An optional value; nothing is `null`. -/
def ofOption {α : Type} (f : α → Value) : Option α → Value
  | some a => f a
  | none => .null

end Interlock.Json.Value
