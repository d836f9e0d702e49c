/-!
Paths of files and directories as texts. A path is taken as it is written: two slashes, or a dot
between slashes, only matter where its parts are asked for, and nothing is looked up.
-/
namespace Interlock.Disk

/-- A path. It is absolute if it starts with a slash. -/
structure Pathname where
  text : String
  deriving DecidableEq, Repr, Inhabited

namespace Pathname

/-- Whether the path starts at the root. -/
def isAbsolute (p : Pathname) : Bool := p.text.toList.head? == some '/'

/-- Leave out what stands at the end, last character first, without naming anything: slashes and
single dots behind a slash. -/
def dropEmptyEnd : List Char → List Char
  | '/' :: rest => dropEmptyEnd rest
  | '.' :: '/' :: rest => dropEmptyEnd ('/' :: rest)
  | cs => cs

/-- The path behind its last name, last character first, as the name and what stands before it. -/
def splitLast (p : Pathname) : List Char × List Char :=
  let cs := dropEmptyEnd p.text.toList.reverse
  (cs.takeWhile (· != '/'), cs.dropWhile (· != '/'))

/-- Whether a part of a path, last character first, names a file; the dots lead elsewhere. -/
def isName (reversed : List Char) : Bool :=
  !reversed.isEmpty && reversed != ['.'] && reversed != ['.', '.']

/-- The last name of the path, if the path ends in one. -/
def fileName? (p : Pathname) : Option String :=
  let (name, _) := p.splitLast
  if isName name then some (String.ofList name.reverse) else none

/-- What is left of a name, last character first, without its extension: that is all behind the last
dot, unless the name starts with it. -/
def stem (name : List Char) : List Char :=
  match name.dropWhile (· != '.') with
  | _ :: c :: rest => c :: rest
  | _ => name

/-- The path with another extension. A path that ends in no name stays. -/
def withExtension (p : Pathname) (extension : String) : Pathname :=
  let (name, before) := p.splitLast
  if isName name then
    ⟨String.ofList ((stem name ++ before).reverse ++ '.' :: extension.toList)⟩
  else p

/-- A path behind another. An absolute path stands for itself. -/
def join (p q : Pathname) : Pathname :=
  if q.isAbsolute || p.text.isEmpty then q
  else if p.text.toList.getLast? == some '/' then ⟨p.text ++ q.text⟩
  else ⟨p.text ++ "/" ++ q.text⟩

/-- Whether something between slashes counts as a part: nothing and a single dot do not. -/
def isPart (cs : List Char) : Bool := !cs.isEmpty && cs != ['.']

/-- The parts between slashes, without the empty ones and the single dots. -/
def parts (p : Pathname) : List String :=
  ((p.text.toList.splitOn '/').filter isPart).map String.ofList

/-- Whether the path is written as that of a directory: it ends in a slash or in a single dot. -/
def isDirectoryOnly (p : Pathname) : Bool :=
  match p.text.toList.reverse with
  | '/' :: _ | ['.'] | '.' :: '/' :: _ => true
  | _ => false

/-- The path without its last part; the root and the empty path have none. -/
def parent? (p : Pathname) : Option Pathname :=
  match p.parts.reverse with
  | [] => none
  | _ :: rest =>
    let text := "/".intercalate rest.reverse
    some ⟨if p.isAbsolute then "/" ++ text else text⟩

end Pathname

end Interlock.Disk
