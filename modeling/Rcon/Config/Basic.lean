import Rcon.Config.Rule

/-!
# Decoder configuration

The three settings of a decoder: how many bytes may be buffered without a complete frame, what is
done when there are more, and how much of a body its log line shows.

`Config.ofValue` reads a configuration from a value, each setting by its rule, and gathers the
issues of all settings in their order. Keys that name no setting are dropped. `Config.schema` is the
JSON Schema of what it accepts.
-/

namespace Rcon

/-- What is done when more bytes are buffered than allowed and no frame is complete. -/
inductive StallPolicy
  /-- The buffered bytes are dropped. -/
  | discard
  /-- An error is raised, and the bytes are kept. -/
  | throw
  deriving DecidableEq, Repr, Inhabited

namespace StallPolicy

/-- The name of a policy. -/
def name : StallPolicy → String
  | .discard => "discard"
  | .throw => "throw"

/-- The rule for policies: their names. -/
def rule : Rule StallPolicy :=
  .choice [(discard.name, discard), (throw.name, throw)]

end StallPolicy

/-- The settings of a decoder. -/
structure Config where
  /-- The number of bytes that may be buffered without a complete frame. -/
  maxPendingBytes : Nat
  /-- What is done when there are more. -/
  stallPolicy : StallPolicy
  /-- The number of units of a body that its log line shows. -/
  bodyPreviewChars : Nat
  /-- Some bytes may always be buffered. -/
  maxPendingBytes_pos : 0 < maxPendingBytes := by decide
  deriving DecidableEq, Repr

namespace Config

/-- A packet of the protocol has at most 4096 bytes, so a stream with 64 KiB buffered and no frame
among them does not recover. -/
def default : Config where
  maxPendingBytes := 65536
  stallPolicy := .discard
  bodyPreviewChars := 30

instance : Inhabited Config := ⟨default⟩

/-! ### Keys and rules -/

/-- The key of the bound on buffered bytes. -/
def limitKey : String := "maxPendingBytes"

/-- The key of the policy. -/
def policyKey : String := "stallPolicy"

/-- The key of the preview length. -/
def previewKey : String := "bodyPreviewChars"

/-- The rule for the bound on buffered bytes. -/
def limitRule : Rule { n : Nat // 0 < n } :=
  .whole (.above 0)

/-- The rule for the preview length. -/
def previewRule : Rule { n : Nat // 0 ≤ n } :=
  .whole (.atLeast 0)

/-! ### Reading and writing -/

/-- The configuration that fields hold, or the issues of all of them. -/
def ofFields (fields : Fields) : Except (List Issue) Config :=
  let limit := limitRule.check (fields.get (Units.ofString limitKey))
  let policy := StallPolicy.rule.check (fields.get (Units.ofString policyKey))
  let preview := previewRule.check (fields.get (Units.ofString previewKey))
  match limit, policy, preview with
  | .ok limit, .ok policy, .ok preview => .ok ⟨limit, policy, preview, limit.2⟩
  | limit, policy, preview =>
    .error (Rule.issues limitKey limit ++ Rule.issues policyKey policy ++
      Rule.issues previewKey preview)

/-- The configuration that a value holds. -/
def ofValue : Value → Except (List Issue) Config
  | .object fields => ofFields fields
  | v => .error [⟨[], .ofKind .object v⟩]

/-- The fields of a configuration. -/
def toFields (config : Config) : Fields :=
  [(Units.ofString limitKey, .ofNat config.maxPendingBytes),
    (Units.ofString policyKey, .ofString config.stallPolicy.name),
    (Units.ofString previewKey, .ofNat config.bodyPreviewChars)]

/-- The JSON Schema of a configuration. -/
def schema : Fields :=
  [(Units.ofString "type", .ofString "object"),
    (Units.ofString "properties", .object
      [(Units.ofString limitKey, .object limitRule.schema),
        (Units.ofString policyKey, .object StallPolicy.rule.schema),
        (Units.ofString previewKey, .object previewRule.schema)]),
    (Units.ofString "required",
      .array [.ofString limitKey, .ofString policyKey, .ofString previewKey]),
    (Units.ofString "additionalProperties", .bool false),
    (Units.ofString "$schema", .ofString "http://json-schema.org/draft-07/schema#"),
    (Units.ofString "$id", .ofString "RconDecoderConfig")]

end Config

end Rcon
