/-
Configurations read from text.

A configuration is an object, or an array with the first of its settings in order. Other fields of
the object are passed over, whatever they hold. `Config.parse` reads a whole text; `ConfigFault`
says what is wrong with one and where.

Two causes are not noticed at one place: a setting that is there twice, and extensions of a wrong
form. They are blamed on the place behind the bracket that ends the configuration, or on the place
where that bracket is missing.
-/
import LintDiscovery.Config.Basic
import LintDiscovery.Json.Reader
import LintDiscovery.Json.Skipper

namespace LintDiscovery

open Json (Cursor Position Fault Reason)

/-- What was found in the place of something else. -/
inductive Found where
  | null
  | bool (value : Bool)
  | number (value : Number)
  | string (value : String)
  | sequence
  | map
  deriving DecidableEq, Repr

namespace Found

/-- What a value is, seen from outside. -/
def ofJson : Json → Found
  | .null => null
  | .bool b => bool b
  | .number n => number n
  | .string s => string s
  | .array _ => sequence
  | .object _ => map

/-- The wording of what was found. -/
def text : Found → String
  | null => "null"
  | bool b => "boolean `" ++ (if b then "true" else "false") ++ "`"
  | number (.integer n) => "integer `" ++ String.ofList (Number.integerChars n) ++ "`"
  | number (.double d) => "floating point `" ++ String.ofList (Number.double d).chars ++ "`"
  | string s => "string " ++ Text.quoted s
  | sequence => "sequence"
  | map => "map"

end Found

/-- What was expected. -/
inductive Expected where
  | config
  | policyContent
  | dirs
  | dir
  deriving DecidableEq, Repr

/-- The wording of what was expected. -/
def Expected.text : Expected → String
  | .config => "struct LintConfig"
  | .policyContent => "unit"
  | .dirs => "a sequence"
  | .dir => "path string"

/-- Why a text is not a configuration. -/
inductive ConfigCause where
  | malformed (reason : Reason)
  | repeated (setting : Setting)
  | unknownPolicy (name : String)
  | wrongType (found : Found) (expected : Expected)
  | neitherListNorMap
  deriving DecidableEq, Repr

/-- The wording of a cause. -/
def ConfigCause.text : ConfigCause → String
  | .malformed reason => reason.text
  | .repeated setting => "duplicate field `" ++ setting.key ++ "`"
  | .unknownPolicy name =>
    "unknown variant `" ++ name ++ "`, expected `" ++ UnknownKindPolicy.passThrough.name ++
      "` or `" ++ UnknownKindPolicy.reject.name ++ "`"
  | .wrongType found expected => "invalid type: " ++ found.text ++ ", expected " ++ expected.text
  | .neitherListNorMap => "data did not match any variant of untagged enum ExtensionsConfig"

/-- A cause and the position it is blamed on. -/
structure ConfigFault where
  cause : ConfigCause
  pos : Position
  deriving DecidableEq, Repr

/-- The wording of a fault. -/
def ConfigFault.text (f : ConfigFault) : String :=
  f.cause.text ++ " at line " ++ toString f.pos.line ++ " column " ++ toString f.pos.column

namespace Config

/-- A failure whose position may still be open; it holds the place reached then. -/
inductive Failure where
  | placed (fault : ConfigFault)
  | unplaced (cause : ConfigCause) (reached : Cursor)

/-- A failure of the text itself. -/
def Failure.ofFault (f : Fault) : Failure :=
  .placed ⟨.malformed f.reason, f.pos⟩

/-- A step that may find the text itself at fault. -/
def lift {α : Type} : Except Fault α → Except Failure α
  | .ok a => .ok a
  | .error f => .error (.ofFault f)

/-- The failure of a value that is not what was expected. Brackets are blamed where they open,
other values behind them; a value that cannot be read is a failure of its own. -/
def misfit (expected : Expected) (c : Cursor) : Failure :=
  match c.rest with
  | '[' :: _ => .placed ⟨.wrongType .sequence expected, c.pos⟩
  | '\x7b' :: _ => .placed ⟨.wrongType .map expected, c.pos⟩
  | _ =>
    match Json.readValue 1 c with
    | .ok (v, c) => .placed ⟨.wrongType (.ofJson v) expected, c.pos⟩
    | .error f => .ofFault f

/-! ### The settings -/

/-- The levels of brackets left inside a configuration. -/
def innerLevels : Nat := Json.maxLevels - 1

/-- Reads the extensions. -/
def readExtensions (c : Cursor) : Except Failure (ExtensionSetting × Cursor) := do
  let (v, c) ← lift (Json.readValue innerLevels c)
  match ExtensionSetting.ofJson? v with
  | some s => return (s, c)
  | none => .error (.unplaced .neitherListNorMap c)

/-- The policy of a name that ends at a cursor. -/
def policyNamed (name : String) (c : Cursor) : Except Failure UnknownKindPolicy :=
  match UnknownKindPolicy.ofName? name with
  | some p => .ok p
  | none => .error (.placed ⟨.unknownPolicy name, c.pos⟩)

/-- Reads what a policy given as a field holds, which is nothing. -/
def readPolicyContent (c : Cursor) : Except Failure Cursor :=
  let c := c.skipSpace
  match c.rest with
  | 'n' :: _ => lift (Json.readWord ['u', 'l', 'l'] c.advance)
  | _ => .error (misfit .policyContent c)

/-- Reads what a policy given as a field holds, and the brace behind it. -/
def readPolicyRest (c : Cursor) : Except Failure Cursor := do
  let c := (← readPolicyContent (← lift (Json.readColon c))).skipSpace
  match c.rest with
  | '\x7d' :: _ => return c.advance
  | [] => .error (.ofFault (c.fault .endOfObject))
  | _ => .error (.ofFault (c.fault .expectedValue))

/-- Reads a policy: its name, or an object with one field of that name. -/
def readPolicy (c : Cursor) : Except Failure (UnknownKindPolicy × Cursor) :=
  let c := c.skipSpace
  match c.rest with
  | [] => .error (.ofFault (c.fault .endOfValue))
  | '"' :: _ => do
    let (name, c) ← lift (Json.readString c.advance)
    return (← policyNamed name c, c)
  | '\x7b' :: _ => do
    match ← lift (Json.nextKey true c.advance) with
    | (none, c) => .error (.ofFault (c.fault .expectedValue))
    | (some name, c) =>
      let p ← policyNamed name c
      return (p, ← readPolicyRest c)
  | _ => .error (.ofFault (c.peekFault .expectedValue))

/-- Reads the further directories of a list; `done` holds those already read, last first. -/
def readDirsFrom : Nat → Bool → List Path → Cursor → Except Failure (List Path × Cursor)
  | 0, _, _, c => .error (.ofFault (c.fault .endOfList))
  | fuel + 1, first, done, c => do
    match ← lift (Json.nextItem first c) with
    | (false, c) => return (done.reverse, c)
    | (true, c) =>
      match c.rest with
      | '"' :: _ =>
        let (s, c) ← lift (Json.readString c.advance)
        readDirsFrom fuel false (⟨s⟩ :: done) c
      | _ => .error (misfit .dir c)

/-- Reads a list of directories. -/
def readDirs (c : Cursor) : Except Failure (List Path × Cursor) :=
  let c := c.skipSpace
  match c.rest with
  | '[' :: _ => readDirsFrom (c.rest.length + 1) true [] c.advance
  | _ => .error (misfit .dirs c)

/-! ### The whole -/

/-- The settings found so far. -/
structure Settings where
  extensions : Option ExtensionSetting
  policy : Option UnknownKindPolicy
  dirs : Option (List Path)

namespace Settings

/-- Nothing found yet. -/
def none : Settings := ⟨.none, .none, .none⟩

/-- Whether a setting has been found. -/
def has (s : Settings) : Setting → Bool
  | .extensions => s.extensions.isSome
  | .policy => s.policy.isSome
  | .dirs => s.dirs.isSome

/-- A missing setting takes its default. -/
def toConfig (s : Settings) : Config :=
  ⟨s.extensions.getD Config.default.extensions, s.policy.getD Config.default.policy,
    s.dirs.getD Config.default.dirs⟩

end Settings

/-- Reads the value of a setting. -/
def readSetting (setting : Setting) (s : Settings) (c : Cursor) :
    Except Failure (Settings × Cursor) :=
  match setting with
  | .extensions => do
    let (v, c) ← readExtensions c
    return (⟨some v, s.policy, s.dirs⟩, c)
  | .policy => do
    let (v, c) ← readPolicy c
    return (⟨s.extensions, some v, s.dirs⟩, c)
  | .dirs => do
    let (v, c) ← readDirs c
    return (⟨s.extensions, s.policy, some v⟩, c)

/-- Reads the further fields of an object. -/
def readFieldsFrom : Nat → Bool → Settings → Cursor → Except Failure (Settings × Cursor)
  | 0, _, _, c => .error (.ofFault (c.fault .endOfObject))
  | fuel + 1, first, s, c => do
    match ← lift (Json.nextKey first c) with
    | (none, c) => return (s, c)
    | (some key, c) =>
      match Setting.ofKey? key with
      | none =>
        let c ← lift (Json.skipValue (← lift (Json.readColon c)))
        readFieldsFrom fuel false s c
      | some setting =>
        if s.has setting then .error (.unplaced (.repeated setting) c)
        else
          let c ← lift (Json.readColon c)
          let (s, c) ← readSetting setting s c
          readFieldsFrom fuel false s c

/-- Reads the items of an array as settings in the given order. Behind the last setting the array
has to end. -/
def readItems : Bool → List Setting → Settings → Cursor → Except Failure (Settings × Cursor)
  | _, [], s, c =>
    let c := c.skipSpace
    match c.rest with
    | [] => .error (.ofFault (c.fault .endOfList))
    | ']' :: _ => .ok (s, c.advance)
    | ',' :: _ =>
      let c := c.advance.skipSpace
      match c.rest with
      | ']' :: _ => .error (.ofFault (c.peekFault .trailingComma))
      | _ => .error (.ofFault (c.peekFault .trailingCharacters))
    | _ => .error (.ofFault (c.peekFault .trailingCharacters))
  | first, setting :: rest, s, c => do
    match ← lift (Json.nextItem first c) with
    | (false, c) => return (s, c)
    | (true, c) =>
      let (s, c) ← readSetting setting s c
      readItems false rest s c

/-- The place where an object with a failure in it ends, as far as its end can be seen. -/
def objectEnd (c : Cursor) : Cursor :=
  let c := c.skipSpace
  match c.rest with
  | '\x7d' :: _ => c.advance
  | _ => c

/-- The place where an array with a failure in it ends, as far as its end can be seen. -/
def arrayEnd (c : Cursor) : Cursor :=
  let c := c.skipSpace
  match c.rest with
  | ']' :: _ => c.advance
  | ',' :: _ => c.advance.skipSpace
  | _ => c

/-- Settles the position of a failure. -/
def settle {α : Type} (close : Cursor → Cursor) : Except Failure α → Except ConfigFault α
  | .ok a => .ok a
  | .error (.placed f) => .error f
  | .error (.unplaced cause reached) => .error ⟨cause, (close reached).pos⟩

/-- Reads a configuration from a cursor. -/
def read (c : Cursor) : Except ConfigFault (Settings × Cursor) :=
  let c := c.skipSpace
  match c.rest with
  | '\x7b' :: _ => settle objectEnd (readFieldsFrom (c.rest.length + 1) true .none c.advance)
  | '[' :: _ => settle arrayEnd (readItems true [.extensions, .policy, .dirs] .none c.advance)
  | _ => settle id (.error (misfit .config c))

/-- Reads a whole text. -/
def parse (raw : String) : Except ConfigFault Config := do
  let (s, c) ← read (.start raw)
  settle id (lift (Json.finish c))
  return s.toConfig

end Config

end LintDiscovery
