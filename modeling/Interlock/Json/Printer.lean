import Interlock.Json.Basic
import Interlock.Text.Quoted

/-!
Printing JSON: `render` without any white space, `renderPretty` with one member or item a line. Only
the quote, the backslash and the controls below the space are escaped.
-/
namespace Interlock.Json

/-- How one character stands inside a text literal. -/
def escapedChar (c : Char) : List Char :=
  match c with
  | '"' => ['\\', '"']
  | '\\' => ['\\', '\\']
  | '\x08' => ['\\', 'b']
  | '\t' => ['\\', 't']
  | '\n' => ['\\', 'n']
  | '\x0c' => ['\\', 'f']
  | '\r' => ['\\', 'r']
  | c =>
    if c.toNat < 0x20 then
      ['\\', 'u', '0', '0', Text.hexDigit (c.toNat / 16), Text.hexDigit (c.toNat % 16)]
    else [c]

/-- A text literal. -/
def renderText (s : String) : List Char := '"' :: (s.toList.flatMap escapedChar ++ ['"'])

/-- A number literal. -/
def Number.render (n : Number) : List Char :=
  (if n.negative then ['-'] else []) ++ n.whole ++
    (match n.fraction with
      | none => []
      | some f => '.' :: f) ++
    (match n.exponent with
      | none => []
      | some (negative, ds) => 'e' :: (if negative then '-' :: ds else ds))

namespace Value

mutual

/-- The text of a value without white space. -/
def chars : Value → List Char
  | .null => ['n', 'u', 'l', 'l']
  | .bool true => ['t', 'r', 'u', 'e']
  | .bool false => ['f', 'a', 'l', 's', 'e']
  | .number n => n.render
  | .text s => renderText s
  | .unreadable => ['n', 'u', 'l', 'l']
  | .array items => '[' :: charsOfItems items
  | .object members => '\x7b' :: charsOfMembers members

/-- The items of an array up to and including the closing bracket. -/
def charsOfItems : List Value → List Char
  | [] => [']']
  | [v] => v.chars ++ [']']
  | v :: w :: rest => v.chars ++ ',' :: charsOfItems (w :: rest)

/-- The members of an object up to and including the closing brace. -/
def charsOfMembers : List (String × Value) → List Char
  | [] => ['\x7d']
  | [(k, v)] => renderText k ++ ':' :: (v.chars ++ ['\x7d'])
  | (k, v) :: m :: rest => renderText k ++ ':' :: (v.chars ++ ',' :: charsOfMembers (m :: rest))

end

/-- The text of a value without white space. -/
def render (v : Value) : String := String.ofList v.chars

/-- A new line at the given depth of two spaces each. -/
def newLine (depth : Nat) : List Char := '\n' :: List.replicate (2 * depth) ' '

mutual

/-- The text of a value spread over lines, at the given depth. Empty arrays and objects stay
together. -/
def prettyChars (depth : Nat) : Value → List Char
  | .array [] => ['[', ']']
  | .array items => '[' :: prettyItems depth items
  | .object [] => ['\x7b', '\x7d']
  | .object members => '\x7b' :: prettyMembers depth members
  | .null => ['n', 'u', 'l', 'l']
  | .bool true => ['t', 'r', 'u', 'e']
  | .bool false => ['f', 'a', 'l', 's', 'e']
  | .number n => n.render
  | .text s => renderText s
  | .unreadable => ['n', 'u', 'l', 'l']

/-- The items of a non-empty array, each on its own line. -/
def prettyItems (depth : Nat) : List Value → List Char
  | [] => [']']
  | [v] => newLine (depth + 1) ++ prettyChars (depth + 1) v ++ newLine depth ++ [']']
  | v :: w :: rest =>
    newLine (depth + 1) ++ prettyChars (depth + 1) v ++ ',' :: prettyItems depth (w :: rest)

/-- The members of a non-empty object, each on its own line. -/
def prettyMembers (depth : Nat) : List (String × Value) → List Char
  | [] => ['\x7d']
  | [(k, v)] =>
    newLine (depth + 1) ++ renderText k ++ ':' :: ' ' :: prettyChars (depth + 1) v ++
      newLine depth ++ ['\x7d']
  | (k, v) :: m :: rest =>
    newLine (depth + 1) ++ renderText k ++ ':' :: ' ' :: prettyChars (depth + 1) v ++
      ',' :: prettyMembers depth (m :: rest)

end

/-- The text of a value with two spaces of indentation a level. -/
def renderPretty (v : Value) : String := String.ofList (prettyChars 0 v)

end Value

end Interlock.Json
