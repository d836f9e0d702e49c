import Interlock.Disk.Basic
import Interlock.Time.Rfc3339
import Interlock.Trace.Filter

/-!
The log file of the daemon. A few plain lines are written whatever happens, so that an operator
finds every start; events pass a filter and stand with their time, their level and the name of the
command. Specification, section 10.2: Logging.
-/
namespace Interlock.Daemon

open Disk (Pathname Refusal)

/-- The name of the command, which is also the target of its events. -/
def commandName : String := "fld"

/-- The fields of its events. -/
def eventFields : List String := ["message"]

/-- A line of the log file. -/
inductive JournalLine where
  | plain (text : String)
  | event (time : Time.Instant) (level : Trace.Level) (message : String)
  deriving DecidableEq, Repr

namespace JournalLine

/-- The line a process writes before anything else. -/
def marker (number : Nat) : JournalLine :=
  .plain ("--- " ++ commandName ++ ": starting (pid: " ++ toString number ++ ") ---")

/-- A level, as wide as the widest. -/
def paddedLevel (l : Trace.Level) : String :=
  String.ofList (List.replicate (5 - l.name.length) ' ') ++ l.name

/-- What stands between the level and the message of an event. -/
def source : String := " " ++ commandName ++ ": "

def render : JournalLine → String
  | .plain text => text
  | .event time level message => time.display ++ " " ++ paddedLevel level ++ source ++ message

/-- The level a text starts with, and what follows it. -/
def takeLevel? (s : List Char) : Option (Trace.Level × List Char) :=
  [Trace.Level.trace, .debug, .info, .warn, .error].findSome? fun l =>
    let name := (paddedLevel l).toList
    if name.isPrefixOf s then some (l, s.drop name.length) else none

/-- The event in the text of a line, if it is one. -/
def event? (line : String) : Option JournalLine := do
  let cs := line.toList
  let time ← Time.Instant.ofText? (String.ofList (cs.takeWhile (· != ' ')))
  let (level, rest) ← takeLevel? ((cs.dropWhile (· != ' ')).drop 1)
  if source.toList.isPrefixOf rest then
    some (.event time level (String.ofList (rest.drop source.length)))
  else none

/-- Read a line. -/
def ofText (line : String) : JournalLine := (event? line).getD (.plain line)

end JournalLine

/-- Write a line at the end of the log file, and make the file if it is not there. -/
def appendLine (log : Pathname) (l : JournalLine) (d : Disk) : Except Refusal Disk :=
  d.append log (.ofText (l.render ++ "\n"))

/-- Where events go: the log file, which has been open since the start, and what it keeps. -/
structure Journal where
  path : Pathname
  filter : Trace.Filter
  deriving DecidableEq, Repr

namespace Journal

/-- Events of this level and above are kept where nobody asks for others. -/
def usualLevel : Trace.Level := .info

/-- The filter that a text asks for; a text that is no filter counts as none. -/
def filterOf (text : Option String) : Trace.Filter :=
  (text.bind Trace.Filter.ofText?).getD (.ofLevel usualLevel)

/-- Write an event, if the filter keeps it. A log file that has been removed is not made again. -/
def report (j : Journal) (time : Time.Instant) (level : Trace.Level) (message : String) (d : Disk) :
    Disk :=
  if j.filter.keeps commandName eventFields level then
    match d.lookup? j.path with
    | some (.file ..) => ((appendLine j.path (.event time level message) d).toOption).getD d
    | _ => d
  else d

/-- The lines in the text of a log file. -/
def linesOf (text : String) : List JournalLine :=
  ((text.splitOn "\n").filter (!·.isEmpty)).map .ofText

end Journal

end Interlock.Daemon
