import Rcon.Error
import Rcon.Response
import Rcon.Value.Basic

/-!
# The registry of responses

Empty responses, called for by the tag of their type. The registry is an object, and so **it answers
to the names that every object has** as well as to the tags. They are called like tags, with no
object to work on: some give a value that is no response, and most are a misuse.

* `Registry.inherited` is the table of those names.
* `Registry.call?` is what comes of calling a name. Tags come first (`Registry.call?_tag`), and
  under a name that is neither nothing is registered.
-/

namespace Rcon

namespace Registry

/-- What a call gives. -/
inductive Made
  /-- A response. -/
  | response (response : Response)
  /-- A value that is none. -/
  | value (value : Value)

/-- The names that every object has, and what comes of calling them without one. -/
def inherited : List (String × Except Misuse Value) :=
  [("constructor", .ok (.object [])),
    ("toString", .ok (.ofString "[object Undefined]")),
    ("isPrototypeOf", .ok (.bool false)),
    ("__proto__", .error (.notCallable "factory")),
    ("toLocaleString", .error (.noObjectFor "Object.prototype.toLocaleString")),
    ("valueOf", .error .noObject),
    ("hasOwnProperty", .error .noObject),
    ("propertyIsEnumerable", .error .noObject),
    ("__defineGetter__", .error .noObject),
    ("__defineSetter__", .error .noObject),
    ("__lookupGetter__", .error .noObject),
    ("__lookupSetter__", .error .noObject)]

/-- What comes of calling a name, if there is anything to call. -/
def call? (name : String) : Option (Except Misuse Made) :=
  match ResponseType.ofTag? name with
  | some type => some (.ok (.response (.empty (.ofType type))))
  | none => (inherited.lookup name).map fun called ↦ called.map .value

/-- The tag of a type calls for an empty response of that type. -/
theorem call?_tag (type : ResponseType) :
    call? type.tag = some (.ok (.response (.empty (.ofType type)))) := by
  cases type <;> rfl

end Registry

end Rcon
