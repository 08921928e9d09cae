/-
Events that are logged.

Every event has a level and a text of the form `event=<name> module=<module> status=<status>`, with
further values behind it. How long something took is not part of an event: whoever writes it
supplies the figure.

Values are written as they are, except for the detail of a failure to load and the payload of a
panic, which are made fit for one line.
-/
import LintDiscovery.Journal.Level
import LintDiscovery.Host.Error
import LintDiscovery.Text.OneLine

namespace LintDiscovery

/-- Something worth a log record. -/
inductive Event where
  | discoveryStarted (configured : Nat)
  | discoveryFinished (modules extensions diagnostics : Nat)
  | nameResolved (name : String) (path : Path)
  | nameUnresolved (name : String) (error : ResolveError)
  | loaderUnavailable (name : String)
  | moduleLoaded (name : String) (exports : Nat)
  | loadFailed (name : String) (error : LoadError)
  | libraryOpened (path : Path) (exports : Nat)
  | exportAccepted (name kind : String)
  | exportMistyped (name kind actual : String)
  | exportUnsupported (name kind : String)
  | journalStarted (level : Level) (dir : Path) (version : String)
  | panicCaptured (location : String) (panic : Panic)
  | discoveryReported (groups diagnostics : Nat)
  deriving DecidableEq, Repr

namespace Event

/-- How many characters of a detail or a payload are written. -/
def detailLimit : Nat := 240

/-- The level of an event. -/
def level : Event → Level
  | discoveryStarted _ | discoveryFinished _ _ _ | moduleLoaded _ _ => .info
  | journalStarted _ _ _ | discoveryReported _ _ => .info
  | nameResolved _ _ | libraryOpened _ _ | exportAccepted _ _ => .debug
  | nameUnresolved _ _ | loaderUnavailable _ => .warn
  | exportMistyped _ _ _ | exportUnsupported _ _ => .warn
  | loadFailed _ _ | panicCaptured _ _ => .error

/-- The text of an event; `elapsed` is the figure for what took time. -/
def text (elapsed : String) : Event → String
  | discoveryStarted configured =>
    "event=extension_discovery module=extension status=start configured=" ++ toString configured
  | discoveryFinished modules extensions diagnostics =>
    "event=extension_discovery module=extension status=ok modules=" ++ toString modules ++
      " extensions=" ++ toString extensions ++ " diagnostics=" ++ toString diagnostics ++
      " duration_ms=" ++ elapsed
  | nameResolved name path =>
    "event=extension_resolve module=extension status=ok name=" ++ name ++ " path=" ++ path.text
  | nameUnresolved name error =>
    "event=extension_resolve module=extension status=error name=" ++ name ++
      " error=" ++ error.text
  | loaderUnavailable name =>
    "event=extension_load module=extension status=error name=" ++ name ++
      " error_code=loader_unavailable"
  | moduleLoaded name exports =>
    "event=extension_load module=extension status=ok name=" ++ name ++
      " exports=" ++ toString exports ++ " duration_ms=" ++ elapsed
  | loadFailed name error =>
    "event=extension_load module=extension status=error name=" ++ name ++
      " duration_ms=" ++ elapsed ++ " error=" ++ Text.oneLine detailLimit error.detail
  | libraryOpened path exports =>
    "event=dylib_load module=extension status=ok path=" ++ path.text ++
      " exports=" ++ toString exports
  | exportAccepted name kind =>
    "event=extension_validate module=extension status=ok name=" ++ name ++ " kind=" ++ kind
  | exportMistyped name kind actual =>
    "event=extension_validate module=extension status=error name=" ++ name ++
      " kind=" ++ kind ++ " actual_type=" ++ actual
  | exportUnsupported name kind =>
    "event=extension_validate module=extension status=error name=" ++ name ++
      " kind=" ++ kind ++ " error_code=kind_unsupported"
  | journalStarted level dir version =>
    "event=logging_init module=core status=ok level=" ++ level.name ++
      " log_dir=" ++ dir.text ++ " version=" ++ version
  | panicCaptured location panic =>
    "event=panic_captured module=core status=error location=" ++ location ++
      " payload=" ++ Text.oneLine detailLimit panic.message
  | discoveryReported groups diagnostics =>
    "event=cli_discovery module=cli status=ok groups=" ++ toString groups ++
      " diagnostics=" ++ toString diagnostics

/-- An event as a log record. -/
def record (elapsed : String) (e : Event) : String :=
  e.level.label ++ " " ++ e.text elapsed

end Event

end LintDiscovery
