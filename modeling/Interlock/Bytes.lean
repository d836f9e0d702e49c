/-!
Bytes of files, messages and streams, and texts as bytes in UTF-8. Every text has bytes, and bytes
that are a text are the bytes of that text only.
-/
namespace Interlock

/-- The bytes of a file, a message or a stream. -/
abbrev Bytes := List UInt8

namespace Bytes

/-- The bytes of a text. -/
def ofText (s : String) : Bytes := s.toUTF8.data.toList

/-- The text in bytes, if they are one. -/
def toText? (b : Bytes) : Option String := String.fromUTF8? ⟨b.toArray⟩

/-- The character that bytes begin with, and how many of them are its own. -/
def first? (b : Bytes) : Option (String × Nat) :=
  [1, 2, 3, 4].findSome? fun n => (toText? (b.take n)).map (·, n)

/-- The characters in bytes behind the first few, with others in the place of each byte that belongs
to no character. -/
def mendFrom (broken : List Char) : Nat → Bytes → List Char
  | _, [] => []
  | skip + 1, _ :: rest => mendFrom broken skip rest
  | 0, b :: rest =>
    match first? (b :: rest) with
    | some (text, n) => text.toList ++ mendFrom broken (n - 1) rest
    | none => broken ++ mendFrom broken 0 rest

theorem toText?_ofText (s : String) : (ofText s).toText? = some s := by
  simp only [toText?, ofText, Array.toArray_toList, String.fromUTF8?]
  exact dif_pos s.isValidUTF8

end Bytes

end Interlock
