import Rcon.Value.Basic

/-!
# Rules for values

A rule says which values a setting may have. It is used in two ways: `Rule.check` turns a value into
what the setting means by it, or says all that is wrong with it; `Rule.schema` describes the
accepted values as JSON Schema does.

What is wrong is a `Problem`, a cause with its data. An `Issue` is a problem at a place within the
value that was checked.
-/

namespace Rcon

/-! ### Problems -/

/-- A bound on whole numbers from below. -/
inductive Bound
  /-- Above the bound. -/
  | above (n : Nat)
  /-- At the bound or above it. -/
  | atLeast (n : Nat)
  deriving DecidableEq, Repr

namespace Bound

/-- The least whole number within the bound. -/
def least : Bound → Nat
  | .above n => n + 1
  | .atLeast n => n

/-- Is a rational within the bound? -/
def admits : Bound → Rat → Bool
  | .above n, q => (n : Rat) < q
  | .atLeast n, q => (n : Rat) ≤ q

end Bound

/-- What a value was expected to be. -/
inductive Expected
  | number
  | object
  | choice (names : List String)
  deriving DecidableEq, Repr

/-- What is wrong with a value. -/
inductive Problem
  /-- There is no value. -/
  | missing
  /-- The value is of another kind. -/
  | kind (expected : Expected) (received : String)
  /-- The number is not whole. -/
  | fractional
  /-- The number is out of its bound. -/
  | tooSmall (bound : Bound)
  /-- The text is none of the choices. -/
  | notAChoice (names : List String) (received : Units)
  deriving DecidableEq, Repr

namespace Value

/-- The name of the kind of a value. -/
def kindName : Value → String
  | .undefined => "undefined"
  | .null => "null"
  | .bool _ => "boolean"
  | .number .nan => "nan"
  | .number _ => "number"
  | .text _ => "string"
  | .array _ => "array"
  | .object _ => "object"

end Value

namespace Problem

/-- The problem of a value that is of another kind, or is not there. -/
def ofKind (expected : Expected) : Value → Problem
  | .undefined => .missing
  | v => .kind expected v.kindName

/-- Choices in quotes, with bars between them. -/
def choices (names : List String) : String :=
  String.intercalate " | " (names.map fun n ↦ "'" ++ n ++ "'")

/-- The code of a problem. -/
def code : Problem → String
  | .missing | .kind .. | .fractional => "invalid_type"
  | .tooSmall _ => "too_small"
  | .notAChoice .. => "invalid_enum_value"

/-- The wording of a problem. -/
def message : Problem → String
  | .missing => "Required"
  | .kind .number received => "Expected number, received " ++ received
  | .kind .object received => "Expected object, received " ++ received
  | .kind (.choice names) received => "Expected " ++ choices names ++ ", received " ++ received
  | .fractional => "Expected integer, received float"
  | .tooSmall (.above n) => "Number must be greater than " ++ (Nat.repr n)
  | .tooSmall (.atLeast n) => "Number must be greater than or equal to " ++ (Nat.repr n)
  | .notAChoice names received =>
    "Invalid enum value. Expected " ++ choices names ++ ", received '" ++ received.toString ++ "'"

end Problem

/-- A problem at a place within a value. -/
structure Issue where
  /-- The keys that lead to the place. -/
  path : List String
  /-- What is wrong there. -/
  problem : Problem
  deriving DecidableEq, Repr

namespace Issue

/-- An issue in one line. -/
def text (issue : Issue) : String :=
  String.intercalate "." issue.path ++ ": " ++ issue.problem.message

end Issue

/-! ### Rules -/

/-- A rule for the values of a setting. -/
structure Rule (α : Type) where
  /-- What a value means, or all that is wrong with it. -/
  check : Value → Except (List Problem) α
  /-- The accepted values, as JSON Schema describes them. -/
  schema : Fields

namespace Rule

/-- The problems of a number that is not a whole number within a bound. -/
def wholeProblems (bound : Bound) : Number → List Problem
  | .nan => [.kind .number "nan"]
  | .infinite negative => .fractional :: if negative then [.tooSmall bound] else []
  | .finite q =>
    (if q.den = 1 then [] else [.fractional]) ++ (if bound.admits q then [] else [.tooSmall bound])

/-- A whole number within a bound. -/
def whole (bound : Bound) : Rule { n : Nat // bound.least ≤ n } where
  check
    | .number (.finite q) =>
      if h : q.den = 1 ∧ (bound.least : Int) ≤ q.num then .ok ⟨q.num.toNat, by omega⟩
      else .error (wholeProblems bound (.finite q))
    | .number n => .error (wholeProblems bound n)
    | v => .error [.ofKind .number v]
  schema :=
    [(Units.ofString "type", .ofString "integer"),
      match bound with
      | .above n => (Units.ofString "exclusiveMinimum", .ofNat n)
      | .atLeast n => (Units.ofString "minimum", .ofNat n)]

/-- One of several named choices. -/
def choice {α : Type} (choices : List (String × α)) : Rule α where
  check
    | .text u =>
      match choices.find? fun c ↦ Units.ofString c.1 = u with
      | some c => .ok c.2
      | none => .error [.notAChoice (choices.map Prod.fst) u]
    | v => .error [.ofKind (.choice (choices.map Prod.fst)) v]
  schema :=
    [(Units.ofString "type", .ofString "string"),
      (Units.ofString "enum", .array (choices.map fun c ↦ .ofString c.1))]

/-- The issues of checking the value of a key. -/
def issues {α : Type} (key : String) : Except (List Problem) α → List Issue
  | .ok _ => []
  | .error problems => problems.map (Issue.mk [key])

end Rule

end Rcon
