/-!
Blank text: text that is empty once the Unicode `White_Space` characters around it are dropped.
An identifier is blank in this sense, not in the ASCII sense, so a no-break space alone does not
name a worker or a space.
-/
namespace Interlock.Text

/-- The characters with the Unicode property `White_Space`. -/
def isBlank (c : Char) : Bool :=
  let n := c.toNat
  (0x9 ≤ n && n ≤ 0xd) || n == 0x20 || n == 0x85 || n == 0xa0 || n == 0x1680 ||
    (0x2000 ≤ n && n ≤ 0x200a) || n == 0x2028 || n == 0x2029 || n == 0x202f || n == 0x205f ||
    n == 0x3000

/-- Text is blank when every character of it is: nothing is left after trimming. -/
def blank (s : String) : Bool := s.toList.all isBlank

/-- The rest of a text after the blank characters in front of it. -/
def skipBlank (cs : List Char) : List Char := cs.dropWhile isBlank

/-- A text without the blank characters at either end. -/
def trim (s : String) : String :=
  String.ofList ((s.toList.dropWhile isBlank).reverse.dropWhile isBlank).reverse

end Interlock.Text
