import ShaderGraph.Json.Basic

/-!
# Records in JSON

A record has named fields in a fixed order. It is written as an object with the fields as
members, in any order and among other members, or as the array of its fields from the first on.

* `Json.record?` — the fields of a record, by name.
* `Json.Record.required`, `Json.Record.optional` — the value of a field that must be there, or
  that has a default.
-/

namespace ShaderGraph.Json

/-- The fields of a record that are present, by name. -/
abbrev Record := List (String × Json)

/-- Reads a record with fields of the given names. In an object every key must spell a text, no
    field may occur twice, and members that are no fields are passed over. An array may leave
    off fields at the end. -/
def record? (names : List String) : Json → Option Record
  | .object members => do
    let members ← members.mapM fun (key, value) => key.map (·, value)
    let fields := members.filter fun (key, _) => names.contains key
    if (fields.map (·.1)).Nodup then some fields else none
  | .array values => if values.length ≤ names.length then some (names.zip values) else none
  | _ => none

namespace Record

/-- The value of a field that must be present. -/
def required {α : Type} (fields : Record) (name : String) (read : Json → Option α) : Option α :=
  (fields.lookup name).bind read

/-- The value of a field that may be left off. -/
def optional {α : Type} (fields : Record) (name : String) (default : α)
    (read : Json → Option α) : Option α :=
  match fields.lookup name with
  | some value => read value
  | none => some default

end Record

end ShaderGraph.Json
