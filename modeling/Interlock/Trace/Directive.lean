import Interlock.Text.Blank
import Interlock.Trace
import Interlock.Trace.Pattern

/-!
Directives of a filter, as users write them: a threshold alone, or a target, then in brackets a span
and in braces a field, then behind an equals sign a threshold. Every part may be missing.
-/
namespace Interlock.Trace

/-- How much levels matter, as numbers. -/
def Level.rank : Level → Nat
  | .trace => 0
  | .debug => 1
  | .info => 2
  | .warn => 3
  | .error => 4

/-- The least level that is kept, or nothing if no level is. -/
abbrev Threshold := Option Level

namespace Threshold

/-- Whether events of a level are kept. -/
def keeps (t : Threshold) (l : Level) : Bool :=
  match t with
  | some least => decide (least.rank ≤ l.rank)
  | none => false

/-- A threshold by its number, which may have a plus sign and zeros before it. -/
def ofNumber? (cs : List Char) : Option Threshold :=
  let digits := match cs with
    | '+' :: rest => rest
    | _ => cs
  if digits.isEmpty then none
  else
    match digits.dropWhile (· == '0') with
    | [] => some none
    | ['1'] => some (some .error)
    | ['2'] => some (some .warn)
    | ['3'] => some (some .info)
    | ['4'] => some (some .debug)
    | ['5'] => some (some .trace)
    | _ => none

/-- A threshold by its name, in letters of either case, or by its number. -/
def ofText? (s : String) : Option Threshold :=
  match s.toLower with
  | "off" => some none
  | "error" => some (some .error)
  | "warn" => some (some .warn)
  | "info" => some (some .info)
  | "debug" => some (some .debug)
  | "trace" => some (some .trace)
  | _ => ofNumber? s.toList

/-- The threshold behind an equals sign; where nothing stands there, all is kept. -/
def afterSign? (s : String) : Option Threshold :=
  if s.isEmpty then some (some .trace) else ofText? s

end Threshold

/-- A field that a directive asks for, of some value or of any. -/
structure Condition where
  field : String
  value : Option String := none
  deriving DecidableEq, Repr

namespace Condition

/-- Whether a text starts with digits, of which a point may be one, and what is left. -/
def skipDecimal? (cs : List Char) : Option (List Char) :=
  let whole := cs.takeWhile (·.isDigit)
  match cs.drop whole.length with
  | '.' :: rest =>
    let part := rest.takeWhile (·.isDigit)
    if whole.isEmpty && part.isEmpty then none else some (rest.drop part.length)
  | rest => if whole.isEmpty then none else some rest

/-- Whether a text is a power of ten behind its letter. -/
def isExponent (cs : List Char) : Bool :=
  let digits := match cs with
    | '+' :: rest => rest
    | '-' :: rest => rest
    | _ => cs
  !digits.isEmpty && digits.all (·.isDigit)

/-- Whether a text is a number without a sign. -/
def isNumber (cs : List Char) : Bool :=
  ["inf", "infinity", "nan"].contains (String.ofList cs).toLower ||
    match skipDecimal? cs with
    | some [] => true
    | some ('e' :: rest) => isExponent rest
    | some ('E' :: rest) => isExponent rest
    | _ => false

/-- Whether a text describes the value of a field: a pattern, or a number that the plus sign before
it keeps from being one. -/
def isValue (cs : List Char) : Bool :=
  Pattern.isPattern cs ||
    match cs with
    | '+' :: rest => isNumber rest
    | _ => false

/-- A condition: the name of a field, and behind an equals sign its value. From a second equals sign
on nothing counts. -/
def ofText? (s : String) : Option Condition :=
  if s.isEmpty then none
  else
    match s.splitOn "=" with
    | field :: value :: _ => if isValue value.toList then some ⟨field, some value⟩ else none
    | _ => some ⟨s, none⟩

end Condition

/-- A threshold, and what it is for: targets that begin with a text, things inside a span of some
name, and things with some field. -/
structure Directive where
  target : Option String := none
  span : Option String := none
  condition : Option Condition := none
  threshold : Threshold := some .trace
  deriving DecidableEq, Repr

namespace Directive

/-- What stands behind a number of bytes, if a character ends there. -/
def afterBytes? : Nat → List Char → Option (List Char)
  | 0, cs => some cs
  | _ + 1, [] => none
  | n + 1, c :: cs => if c.utf8Size ≤ n + 1 then afterBytes? (n + 1 - c.utf8Size) cs else none

/-- The text from one byte up to another. -/
def between? (cs : List Char) (since til : Nat) : Option String := do
  let start ← afterBytes? since cs
  let rest ← afterBytes? (til - since) start
  return String.ofList (start.take (start.length - rest.length))

/-- The part of a directive that a reader is in; of some, the byte at which it began. -/
inductive Part where
  | start
  | name (since : Nat)
  | span (since : Nat)
  | field (since : Nat)
  | closing
  | sign
  | level (since : Nat)
  deriving DecidableEq, Repr

/-- A directive of which some is read. -/
structure Draft where
  part : Part := .start
  read : Directive := {}
  deriving DecidableEq, Repr

/-- Whether a directive may start with a character, brackets apart. -/
def canStart (c : Char) : Bool := c == '-' || c == ':' || c == '_' || Text.isAlphanumeric c

/-- Read the character at a byte. Names are cut out of the whole text at the bytes where they begin
and end. -/
def Draft.next? (whole : List Char) (d : Draft) (place : Nat) (c : Char) : Option Draft :=
  match d.part, c with
  | .start, '[' => some { d with part := .span (place + 1) }
  | .start, _ => if canStart c then some { d with part := .name place } else none
  | .name since, '=' => do
    let target ← between? whole since place
    return ⟨.level (place + 1), { d.read with target := some target }⟩
  | .name since, '[' => do
    let target ← between? whole since place
    return ⟨.span (place + 1), { d.read with target := some target }⟩
  | .span since, ']' => do
    let span ← between? whole since place
    return ⟨.sign, { d.read with span := some span }⟩
  | .span since, '\x7b' => do
    let span ← between? whole since place
    return ⟨.field (place + 1), { d.read with span := if span.isEmpty then none else some span }⟩
  | .field since, '\x7d' => do
    let condition ← Condition.ofText? (← between? whole since place)
    return ⟨.closing, { d.read with condition := some condition }⟩
  | .closing, ']' => some { d with part := .sign }
  | .sign, '=' => some { d with part := .level (place + 1) }
  | .closing, _ => none
  | .sign, _ => none
  | _, _ => some d

/-- Read characters from a byte on. -/
def Draft.readOn? (whole : List Char) : List Char → Nat → Draft → Option Draft
  | [], _, d => some d
  | c :: cs, place, d => do readOn? whole cs (place + c.utf8Size) (← d.next? whole place c)

/-- The directive, where a text may end. A name alone is a threshold, if it is the name of one. -/
def Draft.finish? (whole : List Char) (d : Draft) : Option Directive :=
  match d.part with
  | .name since => do
    let name := String.ofList (← afterBytes? since whole)
    return match Threshold.ofText? name with
      | some t => { d.read with threshold := t }
      | none => { d.read with target := some name }
  | .level since => do
    let threshold ← Threshold.afterSign? (String.ofList (← afterBytes? since whole))
    return { d.read with threshold := threshold }
  | .sign => some d.read
  | _ => none

/-- Read a directive. White space around it is no part of it, but the places in it are those of the
whole text, so a name is cut out too early by as many bytes as there are before it, and the last one
goes on to the end. -/
def ofText? (s : String) : Option Directive := do
  let draft ← Draft.readOn? s.toList (Text.trim s).toList 0 {}
  draft.finish? s.toList

/-- Whether it is known without any span which events the directive is for. -/
def isStatic (d : Directive) : Bool := d.span.isNone && d.condition.all (·.value.isNone)

/-- Whether the directive is for events of a target that have certain fields and stand in no
span. -/
def appliesTo (d : Directive) (target : String) (fields : List String) : Bool :=
  d.isStatic && d.target.all (fun t => t.toList.isPrefixOf target.toList) &&
    d.condition.all (fun c => fields.contains c.field)

/-- How much a directive says about what it is for: the size of its target, if it names one, and the
number of fields. -/
def detail (d : Directive) : Nat × Nat :=
  ((d.target.map (·.utf8ByteSize + 1)).getD 0, if d.condition.isSome then 1 else 0)

end Directive

end Interlock.Trace
