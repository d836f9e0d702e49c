import Interlock.Text.Unprintable

/-!
Quoted text, as error messages and log fields show it: in double quotes, with a backslash before a
quote or a backslash, short escapes for the four usual controls, and every other character that
would not show by itself as `\u` and its number in braces.
-/
namespace Interlock.Text

/-- One hexadecimal digit, lower case. -/
def hexDigit (n : Nat) : Char :=
  if n < 10 then Char.ofNat (0x30 + n) else Char.ofNat (0x57 + n)

/-- A number in lower-case hexadecimal, without padding. -/
def hexNumber (n : Nat) : List Char := Nat.toDigits 16 n

/-- How one character stands inside a quoted text. -/
def quotedChar (c : Char) : List Char :=
  match c with
  | '\x00' => ['\\', '0']
  | '\t' => ['\\', 't']
  | '\r' => ['\\', 'r']
  | '\n' => ['\\', 'n']
  | '\\' => ['\\', '\\']
  | '"' => ['\\', '"']
  | c =>
    if extendsGrapheme c || !isPrintable c then
      ['\\', 'u', '\x7b'] ++ hexNumber c.toNat ++ ['\x7d']
    else [c]

/-- A text in double quotes, every character as `quotedChar` writes it. -/
def quoted (s : String) : String :=
  String.ofList ('"' :: s.toList.flatMap quotedChar ++ ['"'])

/-- An optional text: `None`, or `Some` with the quoted text in parentheses. -/
def quotedOption : Option String → String
  | none => "None"
  | some s => "Some(" ++ quoted s ++ ")"

end Interlock.Text
