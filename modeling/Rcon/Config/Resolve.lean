import Rcon.Config.Basic
import Rcon.Environment
import Rcon.Error
import Rcon.Number.Numeral
import Rcon.Text.Blank

/-!
# Resolving a configuration

A setting is taken from the first place that gives it: the overrides of the caller, then the
environment, then the defaults. Only then is the whole checked, so a wrong variable that is
overridden does no harm. An override without a value is no override, and a variable that is unset or
blank gives nothing.
-/

namespace Rcon.Config

/-- The text of a variable without the blanks around it, if any text is left. -/
def trimmed? (setting : Option String) : Option (List Char) :=
  (setting.map fun text ↦ trimBlank text.toList).filter (· ≠ [])

/-- The settings that an environment gives. The bound on buffered bytes is what its numeral spells,
be it sensible or not. -/
def ofEnvironment (env : Environment) : Fields :=
  ((trimmed? env.maxPendingBytes).map fun text ↦
    (Units.ofString limitKey, .number (.ofNumeral text))).toList ++
  ((trimmed? env.stallPolicy).map fun text ↦
    (Units.ofString policyKey, .text (Units.ofChars text))).toList

/-- The settings of all places together. -/
def layered (overrides : Fields) (env : Environment) : Fields :=
  Fields.merge (Fields.merge default.toFields (ofEnvironment env))
    (overrides.filter fun f ↦ f.2.isDefined)

/-- The configuration that overrides and environment give. -/
def resolve (overrides : Fields) (env : Environment) : Except RconError Config :=
  match ofFields (layered overrides env) with
  | .ok config => .ok config
  | .error issues => .error (.invalidConfig (issues.map Issue.text))

end Rcon.Config
