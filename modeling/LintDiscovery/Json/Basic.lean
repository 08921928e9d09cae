/-
JSON values.

Objects keep their fields in the order in which the keys first appeared. `Json.insert` is the
only way fields come in: a new key goes to the end, a known key keeps its place and gets the new
value.

* `Json.insert`, `Json.find?` — one field of an object;
* `find?_insert_self`, `find?_insert_of_ne` — what setting a field changes;
* `Json.merged` — the fields that a sequence of them builds;
* `Json.typeName` — the name of a value's type.
-/
import LintDiscovery.Decimal.Double

namespace LintDiscovery

/-- A number. Whole numbers from `-2 ^ 63` to `2 ^ 64 - 1` are kept as such, all others are
doubles. -/
inductive Number where
  | integer (value : Int)
  | double (value : Double)
  deriving DecidableEq, Repr

/-- A JSON value. -/
inductive Json where
  | null
  | bool (value : Bool)
  | number (value : Number)
  | string (value : String)
  | array (items : List Json)
  | object (fields : List (String × Json))
  deriving Repr, Inhabited

namespace Json

/-! ### Equality is decidable -/

mutual

/-- Decides whether two values are equal. -/
def decEq : (a b : Json) → Decidable (a = b)
  | .null, .null => isTrue rfl
  | .bool a, .bool b => decidable_of_iff (a = b) (by simp)
  | .number a, .number b => decidable_of_iff (a = b) (by simp)
  | .string a, .string b => decidable_of_iff (a = b) (by simp)
  | .array a, .array b => @decidable_of_iff _ (a = b) (by simp) (decEqItems a b)
  | .object a, .object b => @decidable_of_iff _ (a = b) (by simp) (decEqFields a b)
  | .null, .bool _ | .null, .number _ | .null, .string _ | .null, .array _ | .null, .object _
  | .bool _, .null | .bool _, .number _ | .bool _, .string _ | .bool _, .array _
  | .bool _, .object _ | .number _, .null | .number _, .bool _ | .number _, .string _
  | .number _, .array _ | .number _, .object _ | .string _, .null | .string _, .bool _
  | .string _, .number _ | .string _, .array _ | .string _, .object _ | .array _, .null
  | .array _, .bool _ | .array _, .number _ | .array _, .string _ | .array _, .object _
  | .object _, .null | .object _, .bool _ | .object _, .number _ | .object _, .string _
  | .object _, .array _ => isFalse (by simp)

/-- Decides whether two lists of values are equal. -/
def decEqItems : (a b : List Json) → Decidable (a = b)
  | [], [] => isTrue rfl
  | [], _ :: _ => isFalse (by simp)
  | _ :: _, [] => isFalse (by simp)
  | a :: as, b :: bs =>
    match decEq a b, decEqItems as bs with
    | isTrue h, isTrue hs => isTrue (by rw [h, hs])
    | isFalse h, _ => isFalse (by simp [h])
    | _, isFalse hs => isFalse (by simp [hs])

/-- Decides whether two lists of fields are equal. -/
def decEqFields : (a b : List (String × Json)) → Decidable (a = b)
  | [], [] => isTrue rfl
  | [], _ :: _ => isFalse (by simp)
  | _ :: _, [] => isFalse (by simp)
  | (k, a) :: as, (l, b) :: bs =>
    match decEq a b, decEqFields as bs with
    | isTrue h, isTrue hs =>
      if hk : k = l then isTrue (by rw [h, hs, hk]) else isFalse (by simp [hk])
    | isFalse h, _ => isFalse (by simp [h])
    | _, isFalse hs => isFalse (by simp [hs])

end

instance : DecidableEq Json := decEq

/-! ### Fields -/

/-- Sets a field: a known key keeps its place, a new one goes to the end. -/
def insert (key : String) (value : Json) : List (String × Json) → List (String × Json)
  | [] => [(key, value)]
  | (k, v) :: rest => if k = key then (k, value) :: rest else (k, v) :: insert key value rest

/-- The value of a field. -/
def find? (key : String) : List (String × Json) → Option Json
  | [] => none
  | (k, v) :: rest => if k = key then some v else find? key rest

theorem isSome_find?_iff (key : String) (fields : List (String × Json)) :
    (find? key fields).isSome ↔ key ∈ fields.map Prod.fst := by
  induction fields with
  | nil => simp [find?]
  | cons field fields ih =>
    obtain ⟨other, v⟩ := field
    rw [find?, List.map_cons, List.mem_cons]
    by_cases h : other = key
    · simp [h]
    · simp [h, Ne.symm h, ih]

theorem find?_insert_self (key : String) (value : Json) (fields : List (String × Json)) :
    find? key (insert key value fields) = some value := by
  induction fields with
  | nil => simp [insert, find?]
  | cons f rest ih =>
    rw [insert]
    split
    · simp [find?, *]
    · simp [find?, *]

theorem find?_insert_of_ne {key other : String} (h : key ≠ other) (value : Json)
    (fields : List (String × Json)) :
    find? other (insert key value fields) = find? other fields := by
  induction fields with
  | nil => simp [insert, find?, h]
  | cons f rest ih =>
    rw [insert]
    split
    · rename_i heq
      simp [find?, heq ▸ h]
    · simp [find?, ih]

/-- The fields that remain when a sequence of them is set one after the other. -/
def merged (fields : List (String × Json)) : List (String × Json) :=
  fields.foldl (fun done field => insert field.1 field.2 done) []

/-- The value of a field of an object; other values have no fields. -/
def get? (key : String) : Json → Option Json
  | .object fields => find? key fields
  | _ => none

/-- The content of a string; other values have none. -/
def asString? : Json → Option String
  | .string s => some s
  | _ => none

/-- The items of an array, all of which have to be strings. -/
def asStrings? : Json → Option (List String)
  | .array items => items.mapM asString?
  | _ => none

/-- The name of a value's type. -/
def typeName : Json → String
  | .null => "null"
  | .bool _ => "boolean"
  | .number _ => "number"
  | .string _ => "string"
  | .array _ => "array"
  | .object _ => "object"

end Json

end LintDiscovery
