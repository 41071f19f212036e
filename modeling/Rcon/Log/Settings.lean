import Rcon.Environment

/-!
# Log settings

What the environment says about logging: the least level that is written, the form of a line, and
where lines go. The settings are read anew for every line, so they may change while a program runs.

A level is named in any case; a text that names none, like an unset variable, means `info`.
-/

namespace Rcon.Log

/-- How serious a line is. -/
inductive Level
  | debug
  | info
  | warn
  | error
  deriving DecidableEq, Repr

namespace Level

/-- The levels, ascending. -/
def all : List Level :=
  [.debug, .info, .warn, .error]

/-- The place of a level among the levels. -/
def rank : Level → Nat
  | .debug => 0
  | .info => 1
  | .warn => 2
  | .error => 3

/-- The name of a level. -/
def name : Level → String
  | .debug => "DEBUG"
  | .info => "INFO"
  | .warn => "WARN"
  | .error => "ERROR"

/-- The level that a text names in any case. No letter outside ASCII has one of the letters of a
name but the `I` of `INFO` as its capital, and `INFO` is the level of a text without a name: so the
ASCII capitals are enough. -/
def ofName? (text : String) : Option Level :=
  all.find? fun l ↦ text.toList.map Char.toUpper = l.name.toList

@[simp] theorem ofName?_name (l : Level) : ofName? l.name = some l := by
  cases l <;> decide

end Level

/-- The form of a line. -/
inductive Format
  /-- Plain text. -/
  | plain
  /-- One JSON object. -/
  | json
  deriving DecidableEq, Repr

/-- Where lines go. -/
inductive Destination
  /-- The standard output and the standard error, by level. -/
  | console
  /-- A file that lines are appended to. -/
  | file (path : String)
  deriving DecidableEq, Repr

/-- What the environment says about logging. -/
structure Settings where
  /-- The least level that is written. -/
  threshold : Level := .info
  /-- The form of a line. -/
  format : Format := .plain
  /-- Where lines go. -/
  destination : Destination := .console
  deriving DecidableEq, Repr, Inhabited

namespace Settings

/-- The settings of an environment. Only the text `1` asks for JSON, and an empty path is no
file. -/
def ofEnvironment (env : Environment) : Settings where
  threshold := (env.logLevel.bind Level.ofName?).getD .info
  format := if env.logJson = some "1" then .json else .plain
  destination :=
    match env.logFile with
    | some path => if path = "" then .console else .file path
    | none => .console

/-- Is a line of this level written? -/
def admits (settings : Settings) (level : Level) : Bool :=
  settings.threshold.rank ≤ level.rank

end Settings

end Rcon.Log
