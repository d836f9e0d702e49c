import Interlock.Json.Basic
import Interlock.Text.CodePoint

/-!
The smallest parts of TOML texts: white space, comments, keys, text literals, numbers, and dates
with times. Every reader takes the characters ahead and gives back what it read and what is left, or
nothing if the text is no TOML.
-/
namespace Interlock.Toml

/-- What a reader gives: the thing it read and the rest of the text. -/
abbrev Reader (α : Type) := List Char → Option (α × List Char)

/-- Spaces and tabs, the white space within a line. -/
def isSpace (c : Char) : Bool := c == ' ' || c == '\t'

def skipSpaces (cs : List Char) : List Char := cs.dropWhile isSpace

/-- Characters that may stand anywhere in comments and text literals: all but controls. -/
def isPlain (c : Char) : Bool := c == '\t' || (0x20 ≤ c.toNat && c.toNat != 0x7f)

/-- One end of a line, if it is next. -/
def skipLineEnd? : List Char → Option (List Char)
  | '\n' :: rest => some rest
  | '\r' :: '\n' :: rest => some rest
  | _ => none

/-- A comment, if one is next, up to the end of its line. -/
def skipComment (cs : List Char) : List Char :=
  match cs with
  | '#' :: rest => rest.dropWhile isPlain
  | cs => cs

/-- White space, comments and ends of lines, as many as there are. -/
def skipLines : Nat → List Char → List Char
  | 0, cs => cs
  | fuel + 1, cs =>
    let cs := skipComment (skipSpaces cs)
    match skipLineEnd? cs with
    | some rest => skipLines fuel rest
    | none => cs

/-- An escape behind its backslash. -/
def readEscape : Reader Char
  | 'b' :: rest => some ('\x08', rest)
  | 't' :: rest => some ('\t', rest)
  | 'n' :: rest => some ('\n', rest)
  | 'f' :: rest => some ('\x0c', rest)
  | 'r' :: rest => some ('\r', rest)
  | '"' :: rest => some ('"', rest)
  | '\\' :: rest => some ('\\', rest)
  | 'u' :: rest => Text.readCodePoint 4 rest
  | 'U' :: rest => Text.readCodePoint 8 rest
  | _ => none

/-- A text in double quotes, behind the first quote. -/
def readBasic : Nat → List Char → Reader String
  | 0, _, _ => none
  | fuel + 1, seen, cs =>
    match cs with
    | '"' :: rest => some (String.ofList seen.reverse, rest)
    | '\\' :: rest => do
      let (c, rest) ← readEscape rest
      readBasic fuel (c :: seen) rest
    | c :: rest => if isPlain c then readBasic fuel (c :: seen) rest else none
    | [] => none

/-- A text in single quotes, behind the first quote. -/
def readLiteral (cs : List Char) : Option (String × List Char) :=
  let isInner := fun c => isPlain c && c != '\''
  match cs.dropWhile isInner with
  | '\'' :: rest => some (String.ofList (cs.takeWhile isInner), rest)
  | _ => none

/-- The end of a text of several lines, at its closing quotes: up to two more quotes before the last
three belong to the text. -/
def closeLines (quote : Char) (seen : List Char) (cs : List Char) : Option (String × List Char) :=
  let quotes := cs.takeWhile (· == quote)
  if quotes.length < 3 ∨ 5 < quotes.length then none
  else some (String.ofList ((quotes.drop 3) ++ seen).reverse, cs.drop quotes.length)

/-- White space and ends of lines, as a backslash at the end of a line skips them. A return that no
line feed follows is neither. -/
def skipBlankLines : List Char → List Char
  | '\r' :: '\n' :: rest => skipBlankLines rest
  | c :: rest => if isSpace c || c == '\n' then skipBlankLines rest else c :: rest
  | [] => []

/-- A text of several lines, behind its first three quotes; with escapes or without. -/
def readLines (quote : Char) : Nat → List Char → Reader String
  | 0, _, _ => none
  | fuel + 1, seen, cs =>
    match cs with
    | [] => none
    | '\r' :: '\n' :: rest => readLines quote fuel ('\n' :: seen) rest
    | '\n' :: rest => readLines quote fuel ('\n' :: seen) rest
    | c :: rest =>
      if c == quote then
        if (rest.takeWhile (· == quote)).length < 2 then readLines quote fuel (c :: seen) rest
        else closeLines quote seen cs
      else if c == '\\' && quote == '"' then
        if (skipLineEnd? (skipSpaces rest)).isSome then
          readLines quote fuel seen (skipBlankLines rest)
        else
          match readEscape rest with
          | some (e, rest) => readLines quote fuel (e :: seen) rest
          | none => none
      else if isPlain c then readLines quote fuel (c :: seen) rest
      else none

/-- A text of several lines starts behind the end of the line of its quotes. -/
def dropFirstLineEnd (cs : List Char) : List Char := (skipLineEnd? cs).getD cs

/-- A text literal of any of the four kinds. -/
def readText (cs : List Char) : Option (String × List Char) :=
  match cs with
  | '"' :: '"' :: '"' :: rest => readLines '"' (cs.length + 1) [] (dropFirstLineEnd rest)
  | '\'' :: '\'' :: '\'' :: rest => readLines '\'' (cs.length + 1) [] (dropFirstLineEnd rest)
  | '"' :: rest => readBasic (cs.length + 1) [] rest
  | '\'' :: rest => readLiteral rest
  | _ => none

/-- Characters of a key without quotes. -/
def isBareKey (c : Char) : Bool := c.isAlphanum || c == '_' || c == '-'

/-- One part of a key. -/
def readKeyPart (cs : List Char) : Option (String × List Char) :=
  match cs with
  | '"' :: rest => readBasic (cs.length + 1) [] rest
  | '\'' :: rest => readLiteral rest
  | cs =>
    match cs.takeWhile isBareKey with
    | [] => none
    | name => some (String.ofList name, cs.dropWhile isBareKey)

/-- A key: parts with dots between them and white space around the dots. -/
def readKey : Nat → List Char → Option (List String × List Char)
  | 0, _ => none
  | fuel + 1, cs => do
    let (part, rest) ← readKeyPart (skipSpaces cs)
    match skipSpaces rest with
    | '.' :: rest =>
      let (parts, rest) ← readKey fuel rest
      return (part :: parts, rest)
    | rest => return ([part], rest)

/-- Digits of a kind, where single underscores may stand between two of them. -/
def readDigits (isDigit : Char → Bool) : List Char → Option (List Char × List Char)
  | [] => none
  | c :: rest =>
    if isDigit c then
      match rest with
      | '_' :: d :: more =>
        if isDigit d then (readDigits isDigit (d :: more)).map fun (ds, r) => (c :: ds, r) else none
      | d :: more =>
        if isDigit d then (readDigits isDigit (d :: more)).map fun (ds, r) => (c :: ds, r)
        else some ([c], d :: more)
      | [] => some ([c], [])
    else none

/-- The value of digits in a base. -/
def valueOf (base : Nat) (ds : List Char) : Nat :=
  ds.foldl (fun n c => n * base + (Text.hexValue? c).getD 0) 0

/-- The integers are those of 64 bits with a sign. -/
def inRange (negative : Bool) (n : Nat) : Bool :=
  if negative then n ≤ 0x8000000000000000 else n < 0x8000000000000000

/-- An integer in a base that its prefix names. -/
def isBasedInteger (base : Nat) (isDigit : Char → Bool) (cs : List Char) : Bool :=
  match readDigits isDigit cs with
  | some (ds, []) => inRange false (valueOf base ds)
  | _ => false

/-- A sign, if there is one, and the rest. -/
def splitSign : List Char → Bool × List Char
  | '+' :: rest => (false, rest)
  | '-' :: rest => (true, rest)
  | cs => (false, cs)

/-- Whether decimal digits have no zero in front that does not count. -/
def noLeadingZero (ds : List Char) : Bool :=
  match ds with
  | '0' :: _ :: _ => false
  | _ => true

def isDecimalInteger (cs : List Char) : Bool :=
  let (negative, rest) := splitSign cs
  match readDigits Char.isDigit rest with
  | some (ds, []) => noLeadingZero ds && inRange negative (valueOf 10 ds)
  | _ => false

/-- A float in decimal digits: an integer times a power of ten. -/
structure Decimal where
  negative : Bool
  digits : List Char
  exponent : Int

/-- Where doubles end: what is this large or larger rounds to infinity. -/
def infinityBound : Nat := Nat.pow 2 1024 - Nat.pow 2 970

/-- Whether a decimal rounds to positive infinity. Counting its digits settles all but the numbers
close to the bound. -/
def Decimal.isInfinite (d : Decimal) : Bool :=
  let ds := d.digits.dropWhile (· == '0')
  let places := (ds.length : Int) + d.exponent
  !d.negative && !ds.isEmpty && 308 < places &&
    (309 < places ||
      infinityBound * Nat.pow 10 (-d.exponent).toNat ≤
        valueOf 10 ds * Nat.pow 10 d.exponent.toNat)

/-- The exponent of a float, to the end. -/
def readExponent? (cs : List Char) : Option Int :=
  match cs with
  | c :: rest =>
    if c == 'e' || c == 'E' then
      let (negative, rest) := splitSign rest
      match readDigits Char.isDigit rest with
      | some (ds, []) => some (if negative then -(valueOf 10 ds : Int) else valueOf 10 ds)
      | _ => none
    else none
  | [] => none

/-- A float with a fraction, an exponent or both. -/
def readDecimal? (cs : List Char) : Option Decimal :=
  let (negative, rest) := splitSign cs
  match readDigits Char.isDigit rest with
  | some (ds, rest) =>
    if noLeadingZero ds then
      match rest with
      | '.' :: rest =>
        match readDigits Char.isDigit rest with
        | some (fs, []) => some ⟨negative, ds ++ fs, -fs.length⟩
        | some (fs, rest) => (readExponent? rest).map fun e => ⟨negative, ds ++ fs, e - fs.length⟩
        | none => none
      | rest => (readExponent? rest).map fun e => ⟨negative, ds, e⟩
    else none
  | none => none

/-- Whether a token is a float. Infinity has a name and may not be spelled in digits; its negative
may. -/
def isFloat (cs : List Char) : Bool :=
  let rest := (splitSign cs).2
  rest == ['i', 'n', 'f'] || rest == ['n', 'a', 'n'] ||
    match readDecimal? cs with
    | some d => !d.isInfinite
    | none => false

/-! Dates and times. -/

/-- A number of a fixed count of digits. -/
def readFixed (count : Nat) (cs : List Char) : Option (Nat × List Char) :=
  let ds := cs.take count
  if ds.length = count ∧ ds.all Char.isDigit then some (valueOf 10 ds, cs.drop count) else none

/-- A character that has to be next. -/
def expect (c : Char) : List Char → Option (List Char)
  | d :: rest => if c == d then some rest else none
  | [] => none

def isLeapYear (year : Nat) : Bool := year % 4 == 0 && (year % 100 != 0 || year % 400 == 0)

def daysIn (year month : Nat) : Nat :=
  match month with
  | 2 => if isLeapYear year then 29 else 28
  | 4 | 6 | 9 | 11 => 30
  | _ => 31

/-- A date; what is left follows it. -/
def skipDate (cs : List Char) : Option (List Char) := do
  let (year, cs) ← readFixed 4 cs
  let (month, cs) ← readFixed 2 (← expect '-' cs)
  let (day, cs) ← readFixed 2 (← expect '-' cs)
  if 1 ≤ month ∧ month ≤ 12 ∧ 1 ≤ day ∧ day ≤ daysIn year month then some cs else none

/-- A time of day; a fraction of a second may follow. -/
def skipTime (cs : List Char) : Option (List Char) := do
  let (hour, cs) ← readFixed 2 cs
  let (minute, cs) ← readFixed 2 (← expect ':' cs)
  let (second, cs) ← readFixed 2 (← expect ':' cs)
  if hour ≤ 23 ∧ minute ≤ 59 ∧ second ≤ 60 then
    match cs with
    | '.' :: rest =>
      if (rest.takeWhile Char.isDigit).isEmpty then none else some (rest.dropWhile Char.isDigit)
    | cs => some cs
  else none

/-- An offset from universal time, to the end. -/
def isOffset (cs : List Char) : Bool :=
  match cs with
  | ['Z'] | ['z'] => true
  | c :: rest =>
    (c == '+' || c == '-') &&
      (do
        let (hour, rest) ← readFixed 2 rest
        let (minute, rest) ← readFixed 2 (← expect ':' rest)
        return hour ≤ 23 && minute ≤ 59 && rest.isEmpty).getD false
  | [] => false

/-- A time, or a date with or without a time and its offset. -/
def isDateTime (cs : List Char) : Bool :=
  match skipDate cs with
  | some [] => true
  | some (c :: rest) =>
    (c == 'T' || c == 't' || c == ' ') &&
      match skipTime rest with
      | some [] => true
      | some rest => isOffset rest
      | none => false
  | none => skipTime cs == some []

/-- Characters of numbers, dates and the words that are values. -/
def isTokenChar (c : Char) : Bool :=
  c.isAlphanum || c == '+' || c == '-' || c == '_' || c == '.' || c == ':'

/-- A token that is a value. A date may have its time behind one space. -/
def splitToken (cs : List Char) : List Char × List Char :=
  let token := cs.takeWhile isTokenChar
  match skipDate token, cs.drop token.length with
  | some [], ' ' :: d :: rest =>
    if d.isDigit then
      let time := (d :: rest).takeWhile isTokenChar
      (token ++ ' ' :: time, (d :: rest).drop time.length)
    else (token, ' ' :: d :: rest)
  | _, rest => (token, rest)

/-- The value of a token. Only what a number is matters, not which one; a date is an object. -/
def valueOfToken (token : List Char) : Option Json.Value :=
  match token with
  | ['t', 'r', 'u', 'e'] => some (.bool true)
  | ['f', 'a', 'l', 's', 'e'] => some (.bool false)
  | '0' :: 'x' :: ds =>
    if isBasedInteger 16 (fun c => (Text.hexValue? c).isSome) ds then some (.nat 0) else none
  | '0' :: 'o' :: ds =>
    if isBasedInteger 8 (fun c => '0' ≤ c && c ≤ '7') ds then some (.nat 0) else none
  | '0' :: 'b' :: ds =>
    if isBasedInteger 2 (fun c => c == '0' || c == '1') ds then some (.nat 0) else none
  | token =>
    if isDecimalInteger token then some (.nat 0)
    else if isFloat token then some (.number ⟨false, ['0'], some ['5'], none⟩)
    else if isDateTime token then some (.object [("datetime", .text (String.ofList token))])
    else none

end Interlock.Toml
