/-!
# The environment

The variables that configure a decoder and its log. A variable is unset or holds a text; what a text
means is decided where it is used (`Config.ofEnvironment` and `Log.Settings.ofEnvironment`).
-/

namespace Rcon

/-- The settings that a process is started with. -/
structure Environment where
  /-- The bound on buffered bytes. -/
  maxPendingBytes : Option String := none
  /-- What is done when the bound is passed. -/
  stallPolicy : Option String := none
  /-- The least level that is logged. -/
  logLevel : Option String := none
  /-- Whether log lines are JSON. -/
  logJson : Option String := none
  /-- The file that log lines are appended to. -/
  logFile : Option String := none
  deriving DecidableEq, Repr, Inhabited

namespace Environment

/-- The environment in which every variable has the value that `lookup` gives. -/
def ofVariables (lookup : String → Option String) : Environment where
  maxPendingBytes := lookup "RCON_MAX_PENDING_BYTES"
  stallPolicy := lookup "RCON_STALL_POLICY"
  logLevel := lookup "RCON_LOG_LEVEL"
  logJson := lookup "RCON_LOG_JSON"
  logFile := lookup "RCON_LOG_FILE"

end Environment

end Rcon
