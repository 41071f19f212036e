import Rcon.Log.Line

/-!
# The journal

Where log lines end up, as a list of effects in order. On the console warnings and errors go to the
standard error and all else to the standard output; a file is appended to, and its directory is made
before the first line that goes into it.

* `Journal` is what is remembered between lines: the directories that are there.
* `Journal.log` filters a record by its level, writes its line and says what that does.

**Where a line goes is decided by the level of its record and by the settings alone**; a field that
replaces the level in the text of a line has no say in it.
-/

namespace Rcon.Log

/-- One effect of logging. -/
inductive Effect
  /-- A line on the standard output. -/
  | standardOutput (line : Units)
  /-- A line on the standard error. -/
  | standardError (line : Units)
  /-- A directory is made, with those above it. -/
  | makeDirectory (path : String)
  /-- A text is appended to a file. -/
  | append (path : String) (text : Units)
  deriving DecidableEq, Repr

/-! ### Directories -/

/-- The directory part of a path: all before the slash in front of its last name, `.` where there is
no such slash. Slashes at the end belong to the last name, and slashes in front of the one cut at
stay. -/
def parentDirectory (path : String) : String :=
  match path.toList with
  | [] => "."
  | first :: rest =>
    match (rest.reverse.dropWhile (· = '/')).dropWhile (· ≠ '/') with
    | [] => if first = '/' then "/" else "."
    | _ :: above =>
      if first = '/' ∧ above = [] then "//" else String.ofList (first :: above.reverse)

example : parentDirectory "logs/nested/app.log" = "logs/nested" := by decide +kernel

example : parentDirectory "a//b.log" = "a/" := by decide +kernel

example : parentDirectory "app.log" = "." := by decide +kernel

/-! ### Logging -/

/-- What logging remembers between lines, and the time that it stamps them with. -/
structure Journal where
  /-- The present time, as lines show it. -/
  time : Timestamp
  /-- The directories made so far. -/
  prepared : List String := []

namespace Journal

/-- The effects of a line of a level that is written. -/
def write (journal : Journal) (destination : Destination) (level : Level) (line : Units) :
    List Effect × Journal :=
  match destination with
  | .console =>
    if Level.warn.rank ≤ level.rank then ([.standardError line], journal)
    else ([.standardOutput line], journal)
  | .file path =>
    let text := line ++ [0x0A]
    let directory := parentDirectory path
    if directory ∈ journal.prepared then ([.append path text], journal)
    else
      ([.makeDirectory directory, .append path text],
        { journal with prepared := directory :: journal.prepared })

/-- The line of a record, if it has one. -/
def line? (journal : Journal) (format : Format) (component : String) (record : Record) :
    Option Units :=
  Entry.line? format (Entry.ofRecord journal.time component record)

/-- The effects of a record. There are none where the record is filtered or has no line. -/
def log (journal : Journal) (settings : Settings) (component : String) (record : Record) :
    List Effect × Journal :=
  if settings.admits record.level then
    match journal.line? settings.format component record with
    | some line => journal.write settings.destination record.level line
    | none => ([], journal)
  else ([], journal)

/-- The effects of records, one after the other. -/
def logAll (journal : Journal) (settings : Settings) (component : String) :
    List Record → List Effect × Journal
  | [] => ([], journal)
  | record :: rest =>
    let first := journal.log settings component record
    let others := first.2.logAll settings component rest
    (first.1 ++ others.1, others.2)

end Journal

end Rcon.Log
