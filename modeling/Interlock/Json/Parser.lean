import Interlock.Bytes
import Interlock.Json.Basic
import Interlock.Text.CodePoint

/-!
Reading JSON texts. The grammar is strict: no comments, no trailing commas, no leading zeros, no
control characters inside text literals, nothing but white space around the value. Nesting depth
and number range are not checked here; whoever reads a value decides whether they matter.

Every reader takes the characters ahead and gives back what it read and what is left. The mutual
readers of values take fuel; `read` gives them more than any text can use up.
-/
namespace Interlock.Json

/-- What can be wrong with a JSON text, and with one that should hold a value of some kind. -/
inductive FaultKind where
  | endInObject | endInArray | endInText | endInValue
  | noColon | noCommaInArray | noCommaInObject
  | badWord | noValue | badEscape | badNumber | numberOutOfRange | controlCharacter
  | keyNotText | loneSurrogate | endInSurrogates | trailingComma | trailingCharacters
  /-- A value of another kind than the one that is expected. -/
  | wrongKind (found expected : String)
  /-- A value of the expected kind that is none of those allowed. -/
  | wrongValue (found expected : String)
  | wrongLength (length : Nat) (expected : String)
  | missingField (name : String)
  | duplicateField (name : String)
  | other (reason : String)
  deriving DecidableEq, Repr

/-- The wording of a fault. -/
def FaultKind.message : FaultKind → String
  | .endInObject => "EOF while parsing an object"
  | .endInArray => "EOF while parsing a list"
  | .endInText => "EOF while parsing a string"
  | .endInValue => "EOF while parsing a value"
  | .noColon => "expected `:`"
  | .noCommaInArray => "expected `,` or `]`"
  | .noCommaInObject => "expected `,` or `\x7d`"
  | .badWord => "expected ident"
  | .noValue => "expected value"
  | .badEscape => "invalid escape"
  | .badNumber => "invalid number"
  | .numberOutOfRange => "number out of range"
  | .controlCharacter => "control character (\\u0000-\\u001F) found while parsing a string"
  | .keyNotText => "key must be a string"
  | .loneSurrogate => "lone leading surrogate in hex escape"
  | .endInSurrogates => "unexpected end of hex escape"
  | .trailingComma => "trailing comma"
  | .trailingCharacters => "trailing characters"
  | .wrongKind found expected => "invalid type: " ++ found ++ ", expected " ++ expected
  | .wrongValue found expected => "invalid value: " ++ found ++ ", expected " ++ expected
  | .wrongLength n expected => "invalid length " ++ toString n ++ ", expected " ++ expected
  | .missingField name => "missing field `" ++ name ++ "`"
  | .duplicateField name => "duplicate field `" ++ name ++ "`"
  | .other reason => reason

/-- A fault, and how many bytes of the text lie behind the last one looked at when it was
noticed. -/
structure Fault where
  kind : FaultKind
  left : Nat
  deriving DecidableEq, Repr

/-- How many bytes characters take. -/
def byteLength (cs : List Char) : Nat := cs.foldl (fun n c => n + c.utf8Size) 0

namespace Fault

/-- A fault noticed before the characters ahead were looked at. -/
def here (kind : FaultKind) (ahead : List Char) : Fault := ⟨kind, byteLength ahead⟩

/-- A fault noticed at the first byte ahead. At the end of the text there is none to look at. -/
def ahead (kind : FaultKind) (cs : List Char) : Fault := ⟨kind, byteLength cs - 1⟩

end Fault

/-- The line and the column behind some bytes: lines from one, columns in bytes. -/
def position (looked : Bytes) : Nat × Nat :=
  looked.foldl (fun (line, column) b =>
    if b.toNat = 0x0a then (line + 1, 0) else (line, column + 1)) (1, 0)

/-- The wording of a fault with its place in the whole text. -/
def Fault.message (f : Fault) (whole : String) : String :=
  let bytes := Bytes.ofText whole
  let (line, column) := position (bytes.take (bytes.length - f.left))
  f.kind.message ++ " at line " ++ toString line ++ " column " ++ toString column

/-- What takes the characters ahead and gives what it read and what is left. -/
abbrev Reader (α : Type) := List Char → Except Fault (α × List Char)

/-- The four characters that may stand between tokens. -/
def isSpace (c : Char) : Bool := c == ' ' || c == '\n' || c == '\t' || c == '\r'

def skipSpace (cs : List Char) : List Char := cs.dropWhile isSpace

/-- The value of four hexadecimal digits. -/
def hexValue4? (a b c d : Char) : Option Nat := do
  let a ← Text.hexValue? a
  let b ← Text.hexValue? b
  let c ← Text.hexValue? c
  let d ← Text.hexValue? d
  return ((a * 16 + b) * 16 + c) * 16 + d

/-- The characters a one-letter escape stands for. -/
def shortEscape? : Char → Option Char
  | '"' => some '"'
  | '\\' => some '\\'
  | '/' => some '/'
  | 'b' => some '\x08'
  | 'f' => some '\x0c'
  | 'n' => some '\n'
  | 'r' => some '\r'
  | 't' => some '\t'
  | _ => none

/-- The fault of a numeric escape behind its `u`: four bytes are looked at, whatever they are. -/
def unitFault (cs : List Char) : Fault :=
  if byteLength cs < 4 then .here .endInText [] else ⟨.badEscape, byteLength cs - 4⟩

/-- Whether a code unit is the first or the second half of a pair. -/
def isLeading (u : Nat) : Bool := 0xd800 ≤ u && u ≤ 0xdbff

def isTrailing (u : Nat) : Bool := 0xdc00 ≤ u && u ≤ 0xdfff

/-- The character of a pair of code units. -/
def pairChar (leading trailing : Nat) : Char :=
  Char.ofNat (0x10000 + (leading - 0xd800) * 0x400 + (trailing - 0xdc00))

/-- The rest of a text literal behind its opening quote, after the characters read already, last one
first. A leading code unit waits for its partner, which has to be escaped too and follow at once. -/
def readText (seen : List Char) (waiting : Option Nat) (cs : List Char) :
    Except Fault (String × List Char) :=
  match waiting, cs with
  | _, [] => .error (.here .endInText [])
  | some leading, '\\' :: 'u' :: a :: b :: c :: d :: rest =>
    match hexValue4? a b c d with
    | some u =>
      if isTrailing u then readText (pairChar leading u :: seen) none rest
      else .error (.here .loneSurrogate rest)
    | none => .error (unitFault (a :: b :: c :: d :: rest))
  | some _, '\\' :: 'u' :: rest => .error (unitFault rest)
  | some _, ['\\'] => .error (.here .endInText [])
  | some _, '\\' :: rest => .error (.ahead .endInSurrogates rest)
  | some _, rest => .error (.ahead .endInSurrogates rest)
  | none, '"' :: rest => .ok (String.ofList seen.reverse, rest)
  | none, '\\' :: 'u' :: a :: b :: c :: d :: rest =>
    match hexValue4? a b c d with
    | some u =>
      if isTrailing u then .error (.here .loneSurrogate rest)
      else if isLeading u then readText seen (some u) rest
      else readText (Char.ofNat u :: seen) none rest
    | none => .error (unitFault (a :: b :: c :: d :: rest))
  | none, '\\' :: 'u' :: rest => .error (unitFault rest)
  | none, ['\\'] => .error (.here .endInText [])
  | none, '\\' :: e :: rest =>
    match shortEscape? e with
    | some c => readText (c :: seen) none rest
    | none => .error (.ahead .badEscape (e :: rest))
  | none, c :: rest =>
    if c.toNat < 0x20 then .error (.here .controlCharacter rest) else readText (c :: seen) none rest

/-- What follows a text literal, behind its opening quote, that nobody wants to know: the units that
its escapes name need not make a text. -/
def skipText (cs : List Char) : Except Fault (List Char) :=
  match cs with
  | [] => .error (.here .endInText [])
  | '"' :: rest => .ok rest
  | '\\' :: 'u' :: a :: b :: c :: d :: rest =>
    match hexValue4? a b c d with
    | some _ => skipText rest
    | none => .error (unitFault (a :: b :: c :: d :: rest))
  | '\\' :: 'u' :: rest => .error (unitFault rest)
  | ['\\'] => .error (.here .endInText [])
  | '\\' :: e :: rest =>
    match shortEscape? e with
    | some _ => skipText rest
    | none => .error (.ahead .badEscape (e :: rest))
  | c :: rest => if c.toNat < 0x20 then .error (.here .controlCharacter rest) else skipText rest

/-- What stands for a byte that belongs to no character. A text literal in which it stands is no
text, and elsewhere it is out of place, so that it is let pass only where nobody wants to know. The
letter in front keeps it from completing an escape. -/
def brokenByte : List Char := ['x', '\\', 'u', 'd', 'c', '0', '0']

/-- The rest of a text literal behind its opening quote, as a text where it is one. -/
def readAnyText : Reader (Option String) := fun cs =>
  match readText [] none cs with
  | .ok (s, rest) => .ok (some s, rest)
  | .error _ =>
    match skipText cs with
    | .ok rest => .ok (none, rest)
    | .error f => .error f

/-- A number literal behind its sign. It is said what is wrong where the text ends too early. -/
def readNumber (atEnd : FaultKind) (negative : Bool) : Reader Number := fun cs => do
  let bad := fun (cs : List Char) => Fault.ahead (if cs.isEmpty then atEnd else .badNumber) cs
  let (whole, rest) ←
    match cs with
    | '0' :: rest =>
      if (rest.head?.map Char.isDigit).getD false then .error (bad rest) else .ok (['0'], rest)
    | cs =>
      match cs.takeWhile Char.isDigit with
      | [] => .error (bad cs)
      | ds => .ok (ds, cs.dropWhile Char.isDigit)
  let (fraction, rest) ←
    match rest with
    | '.' :: rest =>
      match rest.takeWhile Char.isDigit, rest.dropWhile Char.isDigit with
      | [], rest => .error (bad rest)
      | ds, rest => .ok (some ds, rest)
    | rest => .ok (none, rest)
  match rest with
  | c :: rest =>
    if c == 'e' || c == 'E' then
      let (down, rest) :=
        match rest with
        | '+' :: rest => (false, rest)
        | '-' :: rest => (true, rest)
        | rest => (false, rest)
      match rest.takeWhile Char.isDigit, rest.dropWhile Char.isDigit with
      | [], rest => .error (bad rest)
      | ds, rest => .ok (⟨negative, whole, fraction, some (down, ds)⟩, rest)
    else .ok (⟨negative, whole, fraction, none⟩, c :: rest)
  | [] => .ok (⟨negative, whole, fraction, none⟩, [])

/-- The rest of one of the three words, behind its first letter. -/
def readWord : List Char → List Char → Except Fault (List Char)
  | [], rest => .ok rest
  | _ :: _, [] => .error (.here .endInValue [])
  | w :: ws, c :: rest => if w == c then readWord ws rest else .error (.ahead .badWord (c :: rest))

/-- An object whose keys are all texts; one unreadable key makes the whole unreadable. -/
def objectOf (members : List (Option String × Value)) : Value :=
  match members.mapM fun (k, v) => k.map (·, v) with
  | some ms => .object ms
  | none => .unreadable

mutual

/-- A value, with white space in front of it. -/
def readValue : Nat → Reader Value
  | 0, cs => .error (.ahead .noValue cs)
  | fuel + 1, cs =>
    match skipSpace cs with
    | [] => .error (.here .endInValue [])
    | 'n' :: rest => (readWord ['u', 'l', 'l'] rest).map (.null, ·)
    | 't' :: rest => (readWord ['r', 'u', 'e'] rest).map (.bool true, ·)
    | 'f' :: rest => (readWord ['a', 'l', 's', 'e'] rest).map (.bool false, ·)
    | '"' :: rest =>
      match readAnyText rest with
      | .ok (some s, rest) => .ok (.text s, rest)
      | .ok (none, rest) => .ok (.unreadable, rest)
      | .error e => .error e
    | '[' :: rest =>
      match skipSpace rest with
      | ']' :: rest => .ok (.array [], rest)
      | [] => .error (.here .endInArray [])
      | rest => readItems fuel [] rest
    | '\x7b' :: rest =>
      match skipSpace rest with
      | '\x7d' :: rest => .ok (.object [], rest)
      | [] => .error (.here .endInObject [])
      | rest => readMembers fuel [] rest
    | '-' :: rest =>
      match readNumber .badNumber true rest with
      | .ok (n, rest) => .ok (.number n, rest)
      | .error e => .error e
    | c :: rest =>
      if c.isDigit then
        match readNumber .badNumber false (c :: rest) with
        | .ok (n, rest) => .ok (.number n, rest)
        | .error e => .error e
      else .error (.ahead .noValue (c :: rest))

/-- The items of an array from the next one on, behind those read already, last one first. -/
def readItems : Nat → List Value → Reader Value
  | 0, _, cs => .error (.ahead .noValue cs)
  | fuel + 1, seen, cs =>
    match readValue fuel cs with
    | .error e => .error e
    | .ok (v, rest) =>
      match skipSpace rest with
      | ']' :: rest => .ok (.array (v :: seen).reverse, rest)
      | ',' :: rest => readItems fuel (v :: seen) rest
      | [] => .error (.here .endInArray [])
      | rest => .error (.ahead .noCommaInArray rest)

/-- The members of an object from the next one on, behind those read already, last one first. -/
def readMembers : Nat → List (Option String × Value) → Reader Value
  | 0, _, cs => .error (.ahead .noValue cs)
  | fuel + 1, seen, '"' :: rest =>
    match readAnyText rest with
    | .error e => .error e
    | .ok (key, rest) =>
      match skipSpace rest with
      | ':' :: rest =>
        match readValue fuel rest with
        | .error e => .error e
        | .ok (v, rest) =>
          match skipSpace rest with
          | '\x7d' :: rest => .ok (objectOf ((key, v) :: seen).reverse, rest)
          | ',' :: rest =>
            match skipSpace rest with
            | [] => .error (.here .endInObject [])
            | rest => readMembers fuel ((key, v) :: seen) rest
          | [] => .error (.here .endInObject [])
          | rest => .error (.ahead .noCommaInObject rest)
      | [] => .error (.here .endInObject [])
      | rest => .error (.ahead .noColon rest)
  | _ + 1, _, cs => .error (.ahead .keyNotText cs)

end

/-- Fuel for a text of the given length: between two characters at most two readers are entered. -/
def fuelFor (length : Nat) : Nat := 2 * length + 2

/-- Read a whole text: one value with white space around it. -/
def readChars (cs : List Char) : Except Fault Value :=
  match readValue (fuelFor cs.length) cs with
  | .error e => .error e
  | .ok (v, rest) =>
    match skipSpace rest with
    | [] => .ok v
    | rest => .error (.ahead .trailingCharacters rest)

/-- Read a whole text: one value with white space around it. -/
def read (s : String) : Except Fault Value := readChars s.toList

end Interlock.Json
