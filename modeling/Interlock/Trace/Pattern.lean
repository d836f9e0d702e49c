import Interlock.Text.Alphanumeric

/-!
Patterns for the values of fields: which texts are regular expressions. They describe values that
nobody here asks for, so only their form counts. A pattern has no counted repetitions, no
look-around and no classes by property: these need braces, an equals sign or the tables of all
scripts.
-/
namespace Interlock.Trace.Pattern

/-- The character behind a backslash, and what is left. Any mark may stand behind one but angle
brackets; of the letters those that name a control or a number. -/
def readEscape : List Char → Option (Char × List Char)
  | 'a' :: cs => some ('\x07', cs)
  | 't' :: cs => some ('\t', cs)
  | 'n' :: cs => some ('\n', cs)
  | 'v' :: cs => some ('\x0b', cs)
  | 'f' :: cs => some ('\x0c', cs)
  | 'r' :: cs => some ('\r', cs)
  | 'x' :: cs => Text.readCodePoint 2 cs
  | 'u' :: cs => Text.readCodePoint 4 cs
  | 'U' :: cs => Text.readCodePoint 8 cs
  | c :: cs =>
    if c.toNat < 0x80 && !c.isAlphanum && c != '<' && c != '>' then some (c, cs) else none
  | [] => none

/-- A character, written as itself or behind a backslash. -/
def readChar : List Char → Option (Char × List Char)
  | '\\' :: cs => readEscape cs
  | c :: cs => some (c, cs)
  | [] => none

/-- What opens a class, behind its bracket: it may be inverted, and hyphens or else a closing
bracket count as members when they come first. -/
def skipClassStart (cs : List Char) : List Char :=
  let cs := match cs with
    | '^' :: rest => rest
    | _ => cs
  match cs with
  | '-' :: _ => cs.dropWhile (· == '-')
  | ']' :: rest => rest
  | _ => cs

/-- What is left behind a class that lies in some number of others: members, ranges that do not run
backwards, further classes, and the operators between them. -/
def skipClass : Nat → Nat → List Char → Option (List Char)
  | 0, _, _ => none
  | fuel + 1, depth, cs =>
    match cs with
    | [] => none
    | ']' :: rest => if depth = 0 then some rest else skipClass fuel (depth - 1) rest
    | '[' :: rest => skipClass fuel (depth + 1) (skipClassStart rest)
    | '&' :: '&' :: rest => skipClass fuel depth rest
    | '-' :: '-' :: rest => skipClass fuel depth rest
    | '~' :: '~' :: rest => skipClass fuel depth rest
    | _ => do
      let (first, rest) ← readChar cs
      match rest with
      | '-' :: ']' :: _ => skipClass fuel depth rest
      | '-' :: '-' :: _ => skipClass fuel depth rest
      | '-' :: rest =>
        let (last, rest) ← readChar rest
        if first ≤ last then skipClass fuel depth rest else none
      | _ => skipClass fuel depth rest

/-- Whether a text may name a group. -/
def isGroupName : List Char → Bool
  | [] => false
  | c :: cs =>
    (c == '_' || (Text.isAlphanumeric c && !c.isDigit)) &&
      cs.all fun c => Text.isAlphanumeric c || ['_', '.', '[', ']'].contains c

/-- Whether a text is a list of flags: letters, none twice, of which those behind a hyphen are taken
back. -/
def isFlags (cs : List Char) : Bool :=
  cs.all (fun c => ['-', 'm', 's', 'U', 'u', 'R', 'x'].contains c) && decide cs.Nodup &&
    cs.getLast? != some '-'

/-- What a bracket opens: a group, or only flags for what follows, and what is left behind it. -/
def readGroup (cs : List Char) : Option (Bool × List Char) :=
  let named := fun (rest : List Char) =>
    match rest.dropWhile (· != '>') with
    | '>' :: behind => if isGroupName (rest.takeWhile (· != '>')) then some (true, behind) else none
    | _ => none
  match cs with
  | '?' :: 'P' :: '<' :: rest => named rest
  | '?' :: '<' :: rest => named rest
  | '?' :: rest =>
    let isFlag := fun c => c != ':' && c != ')'
    let flags := rest.takeWhile isFlag
    match rest.dropWhile isFlag with
    | ':' :: behind => if isFlags flags then some (true, behind) else none
    | ')' :: behind => if isFlags flags && !flags.isEmpty then some (false, behind) else none
    | _ => none
  | _ => some (true, cs)

/-- Whether a text goes on as a pattern inside some number of groups. `ready` says that something
stands right before it that can be repeated. -/
def goesOn : Nat → Nat → Bool → List Char → Bool
  | 0, _, _, _ => false
  | fuel + 1, depth, ready, cs =>
    match cs with
    | [] => depth == 0
    | '(' :: rest =>
      match readGroup rest with
      | some (true, rest) => goesOn fuel (depth + 1) false rest
      | some (false, rest) => goesOn fuel depth false rest
      | none => false
    | ')' :: rest => depth != 0 && goesOn fuel (depth - 1) true rest
    | '|' :: rest => goesOn fuel depth false rest
    | '*' :: rest => ready && goesOn fuel depth true rest
    | '+' :: rest => ready && goesOn fuel depth true rest
    | '?' :: rest => ready && goesOn fuel depth true rest
    | '\x7b' :: _ => false
    | '[' :: rest =>
      match skipClass (rest.length + 1) 0 (skipClassStart rest) with
      | some rest => goesOn fuel depth true rest
      | none => false
    | '\\' :: 'A' :: rest => goesOn fuel depth true rest
    | '\\' :: 'z' :: rest => goesOn fuel depth true rest
    | _ =>
      match readChar cs with
      | some (_, rest) => goesOn fuel depth true rest
      | none => false

/-- Whether a text is a pattern. -/
def isPattern (cs : List Char) : Bool := goesOn (cs.length + 1) 0 false cs

end Interlock.Trace.Pattern
