/-
Arguments of the program.

Arguments are read from left to right. An option that takes a value takes it from behind an equals
sign or from the next argument; its short form may also have the value attached. Asking for the
version or for help ends the reading, and so does the first mistake.
-/
import LintDiscovery.About
import LintDiscovery.Discovery.Loading

namespace LintDiscovery

/-- How the program is to run. -/
structure Invocation where
  config : Path
  json : Bool
  logDir : Option String
  logLevel : Option String
  deriving DecidableEq, Repr

/-- What the arguments ask for. -/
inductive Request where
  | version
  | help
  | run (i : Invocation)
  deriving DecidableEq, Repr

/-- A named argument. -/
inductive Flag where
  | config
  | json
  | logDir
  | logLevel
  | help
  | version
  deriving DecidableEq, Repr

namespace Flag

/-- The flag of a long name. -/
def ofLong? (name : String) : Option Flag :=
  if name = "config" then some .config
  else if name = "json" then some .json
  else if name = "log-dir" then some .logDir
  else if name = "log-level" then some .logLevel
  else if name = "help" then some .help
  else if name = "version" then some .version
  else none

/-- The flag of a letter. -/
def ofShort? (letter : Char) : Option Flag :=
  if letter = 'c' then some .config
  else if letter = 'h' then some .help
  else if letter = 'V' then some .version
  else none

/-- Whether a flag takes a value. -/
def takesValue : Flag → Bool
  | config | logDir | logLevel => true
  | json | help | version => false

/-- A flag as usage texts show it. -/
def shown : Flag → String
  | config => "--config <CONFIG>"
  | json => "--json"
  | logDir => "--log-dir <LOG_DIR>"
  | logLevel => "--log-level <LOG_LEVEL>"
  | help => "--help"
  | version => "--version"

end Flag

/-- A mistake in the arguments. -/
inductive UsageError where
  | unexpected (argument : String)
  | missingValue (flag : Flag)
  | unexpectedValue (flag : Flag) (value : String)
  | repeated (flag : Flag)
  deriving DecidableEq, Repr

/-- The wording of a mistake. -/
def UsageError.text : UsageError → String
  | .unexpected argument => "error: unexpected argument '" ++ argument ++ "' found"
  | .missingValue flag =>
    "error: a value is required for '" ++ flag.shown ++ "' but none was supplied"
  | .unexpectedValue flag value =>
    "error: unexpected value '" ++ value ++ "' for '" ++ flag.shown ++
      "' found; no more were expected"
  | .repeated flag => "error: the argument '" ++ flag.shown ++ "' cannot be used multiple times"

/-- The arguments read so far. -/
structure Given where
  config : Option Path
  json : Bool
  logDir : Option String
  logLevel : Option String
  deriving DecidableEq, Repr

namespace Given

/-- No arguments yet. -/
def none : Given := ⟨.none, false, .none, .none⟩

/-- The invocation that the arguments amount to. -/
def invocation (g : Given) : Invocation :=
  ⟨g.config.getD ⟨configFileName⟩, g.json, g.logDir, g.logLevel⟩

/-- Whether a flag has been given. -/
def has (g : Given) : Flag → Bool
  | .config => g.config.isSome
  | .json => g.json
  | .logDir => g.logDir.isSome
  | .logLevel => g.logLevel.isSome
  | .help | .version => false

/-- The arguments with one more flag; `value` is ignored by flags that take none. -/
def set (g : Given) (value : String) : Flag → Given
  | .config => ⟨some ⟨value⟩, g.json, g.logDir, g.logLevel⟩
  | .json => ⟨g.config, true, g.logDir, g.logLevel⟩
  | .logDir => ⟨g.config, g.json, some value, g.logLevel⟩
  | .logLevel => ⟨g.config, g.json, g.logDir, some value⟩
  | .help | .version => g

/-- One more flag. No flag may come twice, and the path of the configuration must not be empty. -/
def add (g : Given) (flag : Flag) (value : String) : Except UsageError Given :=
  if g.has flag then .error (.repeated flag)
  else if flag = .config ∧ value = "" then .error (.missingValue flag)
  else .ok (g.set value flag)

end Given

namespace Request

/-- An argument by its form: a flag with the value that comes with it, the mark behind which there
are no flags, or anything else. -/
inductive Form where
  | flag (f : Flag) (value : Option String)
  | endOfFlags
  | other
  deriving DecidableEq, Repr

/-- A flag by its long name, possibly with a value behind an equals sign. -/
def longForm (cs : List Char) : Form :=
  let name := String.ofList (cs.takeWhile (· != '='))
  match Flag.ofLong? name, cs.dropWhile (· != '=') with
  | some f, [] => .flag f none
  | some f, _ :: value => .flag f (some (String.ofList value))
  | none, _ => .other

/-- A flag by its letter, possibly with a value attached. What is attached to a flag without a value
does not matter. -/
def shortForm (letter : Char) (attached : List Char) : Form :=
  match Flag.ofShort? letter with
  | none => .other
  | some f =>
    if !f.takesValue then .flag f none
    else
      match attached with
      | [] => .flag f none
      | '=' :: value => .flag f (some (String.ofList value))
      | value => .flag f (some (String.ofList value))

/-- The form of an argument. -/
def form (argument : String) : Form :=
  match argument.toList with
  | ['-', '-'] => .endOfFlags
  | '-' :: '-' :: cs => longForm cs
  | '-' :: letter :: attached => shortForm letter attached
  | _ => .other

/-- Whether an argument can be the value of the flag before it. -/
def canBeValue (argument : String) : Bool :=
  match argument.toList with
  | '-' :: _ :: _ => false
  | _ => true

/-- Reads arguments; `pending` is a flag that still waits for its value. -/
def read : (pending : Option Flag) → Given → List String → Except UsageError Request
  | some f, _, [] => .error (.missingValue f)
  | none, g, [] => .ok (.run g.invocation)
  | some f, g, a :: rest =>
    if canBeValue a then do read none (← g.add f a) rest else .error (.missingValue f)
  | none, g, a :: rest =>
    match form a with
    | .other => .error (.unexpected a)
    | .endOfFlags =>
      match rest with
      | [] => .ok (.run g.invocation)
      | b :: _ => .error (.unexpected b)
    | .flag .version none => .ok .version
    | .flag .help none => .ok .help
    | .flag f none =>
      if f.takesValue then read (some f) g rest else do read none (← g.add f "") rest
    | .flag f (some value) =>
      if f.takesValue then do read none (← g.add f value) rest
      else .error (.unexpectedValue f value)

/-- What the arguments ask for. -/
def ofArguments (arguments : List String) : Except UsageError Request :=
  read none .none arguments

end Request

end LintDiscovery
