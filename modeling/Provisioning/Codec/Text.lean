import Provisioning.Codec
import Provisioning.Json.Printer
import Provisioning.Json.Source
import Provisioning.Yaml.Printer
import Provisioning.Yaml.Source

/-! # Codecs and text

    What a codec makes of JSON and YAML text, and of a JSON value that is part of another.
-/

namespace Provisioning.Codec

variable {τ : Type} (c : Codec τ)

/-- A value as JSON text on one line. -/
def toJson (x : τ) : String :=
  Json.compact (c.encode x)

/-- A value as JSON text over several lines. -/
def toPrettyJson (x : τ) : String :=
  Json.pretty (c.encode x)

/-- A value as YAML text. -/
def toYaml (x : τ) : String :=
  Yaml.text (c.encode x)

/-- The value of a JSON text. -/
def ofJson (s : String) : Except DecodeError τ :=
  (Json.ofText s).bind (c.decode Json.textSource)

/-- The value of a YAML text. -/
def ofYaml (s : String) : Except DecodeError τ :=
  (Yaml.ofText s).bind (c.decode Yaml.source)

/-- The value of a part of a JSON value. -/
def ofPart (j : Json) : Except DecodeError τ :=
  c.decode Json.partSource j

/-- The value of a JSON text, with errors as failures of stable data. -/
def ofStableText (s : String) : Except Failure τ :=
  match c.ofJson s with
  | .ok x => .ok x
  | .error e => .error (.ofStableText e.message)

end Provisioning.Codec
