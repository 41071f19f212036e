import Rcon.Number.Basic

/-!
# The response protocol

A response frame is a size, a request id and a type, each a signed 32-bit number, then the body, and
two zero bytes:

```
size  id  type  body  0  0
```

The size counts what follows it. This module holds the constants of that layout and the two classes
that a frame is judged by: the request ids a server may answer with (`RequestId.isAccepted`) and the
types of response there are (`ResponseType`).
-/

namespace Rcon

namespace Protocol

/-- The bytes of the size. -/
def sizeFieldBytes : Nat := 4

/-- The bytes in front of the body: size, id and type. -/
def headerBytes : Nat := 12

/-- The bytes of a frame with an empty body. -/
def minFrameBytes : Nat := 14

end Protocol

/-! ### Request ids -/

namespace RequestId

/-- The id of a failed authentication and of output that nobody asked for. -/
def unsolicited : Int := -1

/-- The id of the empty packet that ends a split response. -/
def terminator : Int := 999

/-- The least id that a request may have. -/
def least : Int := 100000000

/-- The greatest id that a request may have. -/
def greatest : Int := 999999999

/-- Is a whole number an id that a server may answer with? -/
def isAccepted (id : Int) : Bool :=
  id = unsolicited || id = terminator || (least ≤ id && id ≤ greatest)

end RequestId

namespace Number

/-- Is a number an id that a server may answer with? Between the least and the greatest id of a
request every number counts, be it whole or not. -/
def isRequestId : Number → Bool
  | .finite q =>
    q = RequestId.unsolicited || q = RequestId.terminator ||
      ((RequestId.least : Rat) ≤ q && q ≤ (RequestId.greatest : Rat))
  | _ => false

/-- On whole numbers the two classes of ids are one. -/
theorem isRequestId_ofInt (id : Int) : (ofInt id).isRequestId = RequestId.isAccepted id := by
  simp only [isRequestId, ofInt, RequestId.isAccepted, Rat.intCast_le_intCast, Rat.intCast_inj]

end Number

/-! ### Types of response -/

/-- The types of response. -/
inductive ResponseType
  /-- Output of a command. -/
  | value
  /-- The answer to an authentication. -/
  | authentication
  deriving DecidableEq, Repr

namespace ResponseType

/-- The types of response, by code. -/
def all : List ResponseType :=
  [.value, .authentication]

/-- The code of a type on the wire. -/
def code : ResponseType → Int
  | .value => 0
  | .authentication => 2

/-- The tag that names a type. -/
def tag : ResponseType → String
  | .value => "RESPONSE_VALUE"
  | .authentication => "AUTH_RESPONSE"

/-- The type with a code. -/
def ofCode? (code : Int) : Option ResponseType :=
  all.find? fun t ↦ t.code = code

/-- The type with a tag. -/
def ofTag? (tag : String) : Option ResponseType :=
  all.find? fun t ↦ t.tag = tag

theorem ofCode?_eq_some_iff {code : Int} {t : ResponseType} :
    ofCode? code = some t ↔ t.code = code := by
  by_cases h0 : code = 0
  · subst h0
    cases t <;> simp [ofCode?, all, ResponseType.code]
  · by_cases h2 : code = 2
    · subst h2
      cases t <;> simp [ofCode?, all, ResponseType.code]
    · cases t <;> simp [ofCode?, all, ResponseType.code, Ne.symm h0, Ne.symm h2]

end ResponseType

end Rcon
