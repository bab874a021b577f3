/-!
# Data types

The kinds of values that flow through sockets.

* `DataType.ofHostName?` — the vocabulary of the host; `color` is another word for `vector`.
  The matrix types have no host name.
* `DataType.targetName?` — the spelling in the shading language, which all types but strings
  have.
-/

namespace ShaderGraph

/-- The kind of a value. -/
inductive DataType where
  | undef
  | int
  | float
  | string
  | color
  | vector
  | vector4
  | matrix
  | matrix3
  | bsdf
  | shader
  | surface
deriving DecidableEq, Repr

namespace DataType

/-- The type that the host calls `name`. -/
def ofHostName? (name : String) : Option DataType :=
  match name with
  | "undef" => some undef
  | "int" => some int
  | "float" => some float
  | "string" => some string
  | "vector" => some vector
  | "color" => some vector
  | "vector4" => some vector4
  | "bsdf" => some bsdf
  | "shader" => some shader
  | "surface" => some surface
  | _ => none

/-- The spelling of a type in the shading language. A socket whose type is not resolved is still
    spelt, so that signatures stay well formed. -/
def targetName? : DataType → Option String
  | int => some "int"
  | float => some "float"
  | color | vector => some "float3"
  | vector4 => some "float4"
  | matrix => some "float4x4"
  | matrix3 => some "float3x3"
  | bsdf => some "bsdf"
  | shader => some "shader"
  | surface => some "surface"
  | undef => some "undef"
  | string => none

/-- Whether values of a type can exist in a shader. -/
def isRepresentable (type : DataType) : Bool := type != string

/-- The name of a type in messages. -/
def label : DataType → String
  | undef => "Undef"
  | int => "Int"
  | float => "Float"
  | string => "String"
  | color => "Color"
  | vector => "Vector"
  | vector4 => "Vector4"
  | matrix => "Matrix"
  | matrix3 => "Matrix3"
  | bsdf => "Bsdf"
  | shader => "Shader"
  | surface => "Surface"

/-- The representable types are those with a spelling. -/
theorem isSome_targetName? (type : DataType) : type.targetName?.isSome = type.isRepresentable := by
  cases type <;> rfl

end DataType

end ShaderGraph
