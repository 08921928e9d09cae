/-
Configurations.

A configuration has three settings, each with a default:

* the extensions, given as a list of names or as names with an argument each;
* the policy for custom kinds;
* the directories to search, where none means the ones that are searched anyway.

`Config.toJson` writes every setting, so it shows a configuration completely.
-/
import LintDiscovery.Json.Printer
import LintDiscovery.Kind
import LintDiscovery.File.Path

namespace LintDiscovery

/-- The extensions of a configuration. A list may repeat a name; a map gives every name an
argument. -/
inductive ExtensionSetting where
  | list (names : List String)
  | map (entries : List (String × Json))
  deriving DecidableEq, Repr

namespace ExtensionSetting

/-- The configured names, in order. -/
def names : ExtensionSetting → List String
  | list names => names
  | map entries => entries.map Prod.fst

/-- The argument of a name. Names of a list have none. -/
def args? (name : String) : ExtensionSetting → Option Json
  | list _ => none
  | map entries => Json.find? name entries

/-- The number of configured names. -/
def size (s : ExtensionSetting) : Nat :=
  s.names.length

/-- A setting as JSON: a list as an array, a map as an object. -/
def toJson : ExtensionSetting → Json
  | list names => .array (names.map .string)
  | map entries => .object entries

/-- The setting that a value stands for: an array of strings, or an object. -/
def ofJson? : Json → Option ExtensionSetting
  | .object fields => some (.map fields)
  | v => v.asStrings?.map .list

end ExtensionSetting

/-- What can be set in a configuration. -/
inductive Setting where
  | extensions
  | policy
  | dirs
  deriving DecidableEq, Repr

namespace Setting

/-- The key of a setting. -/
def key : Setting → String
  | extensions => "extensions"
  | policy => "unknownKindPolicy"
  | dirs => "extensionDirs"

/-- The setting with that key. -/
def ofKey? (key : String) : Option Setting :=
  if key = Setting.extensions.key then some .extensions
  else if key = Setting.policy.key then some .policy
  else if key = Setting.dirs.key then some .dirs
  else none

/-- A setting is found by its key. -/
theorem ofKey?_key (s : Setting) : ofKey? s.key = some s := by
  cases s <;> rfl

end Setting

/-- A configuration. -/
structure Config where
  extensions : ExtensionSetting
  policy : UnknownKindPolicy
  dirs : List Path
  deriving DecidableEq, Repr

namespace Config

/-- No extensions, custom kinds passed through, no directories. -/
def default : Config :=
  ⟨.list [], .passThrough, []⟩

/-- A configuration as JSON, with all its settings. -/
def toJson (c : Config) : Json :=
  .object [
    (Setting.extensions.key, c.extensions.toJson),
    (Setting.policy.key, .string c.policy.name),
    (Setting.dirs.key, .array (c.dirs.map fun p => .string p.text))]

/-- A configuration as text. -/
def text (c : Config) : String :=
  c.toJson.text

end Config

end LintDiscovery
