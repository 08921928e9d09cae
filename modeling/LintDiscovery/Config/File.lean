/-
Configurations in files.
-/
import LintDiscovery.Config.Reader
import LintDiscovery.File.Error

namespace LintDiscovery

/-- Why a file gives no configuration. -/
inductive ConfigError where
  | unreadable (path : Path) (error : FileError)
  | invalid (fault : ConfigFault)
  deriving DecidableEq, Repr

namespace ConfigError

/-- The failure that lies behind. -/
def source : ConfigError → String
  | unreadable _ error => error.text
  | invalid fault => fault.text

/-- The wording of the failure as a whole. -/
def message : ConfigError → String
  | unreadable path error => "failed to read config `" ++ path.text ++ "`: " ++ error.text
  | invalid fault => "invalid config: " ++ fault.text

end ConfigError

namespace Config

/-- The configuration that a text holds. -/
def ofText (raw : String) : Except ConfigError Config :=
  (parse raw).mapError .invalid

/-- The configuration in a file. -/
def ofFile (readText : Path → Except FileError String) (path : Path) :
    Except ConfigError Config :=
  match readText path with
  | .ok raw => ofText raw
  | .error e => .error (.unreadable path e)

end Config

end LintDiscovery
