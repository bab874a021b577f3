import ShaderGraph.Error
import ShaderGraph.Naming

/-!
# Sockets

A socket is a typed connection point of a node. It becomes a parameter of the function generated
for the node: inputs are passed by value, the others carry a qualifier.

* `Direction`, `Direction.qualifier?` — which way values pass, and how a parameter shows it.
* `Socket`, `Socket.varName` — a socket and the variable that stands for it.
* `DataType.resolve`, `Socket.resolve` — a type or a socket from the host's type name.
* `DataType.spell` — the spelling of a type in the shading language.
-/

namespace ShaderGraph

/-! ### Directions -/

/-- Which way values pass through a socket. -/
inductive Direction where
  | input
  | output
  | inOut
deriving DecidableEq, Repr

/-- The qualifier of a parameter with this direction; inputs have none. -/
def Direction.qualifier? : Direction → Option String
  | input => none
  | output => some "out"
  | inOut => some "inout"

/-! ### Sockets -/

/-- A typed connection point of a node. -/
structure Socket where
  name : String
  type : DataType
  direction : Direction
deriving DecidableEq, Repr

namespace Socket

/-- The variable that stands for the socket in generated code. -/
def varName (socket : Socket) : String := Naming.variableName socket.name

/-- Whether the socket only receives. -/
def isInput (socket : Socket) : Bool := socket.direction == .input

/-- Whether the socket only delivers. -/
def isOutput (socket : Socket) : Bool := socket.direction == .output

end Socket

/-! ### Host types -/

/-- The type that the host calls `name`. -/
def DataType.resolve (name : String) : Except Error DataType :=
  match ofHostName? name with
  | some type => .ok type
  | none => .error (.unknownType name)

/-- The spelling of a type in the shading language. -/
def DataType.spell (type : DataType) : Except Error String :=
  match type.targetName? with
  | some typeName => .ok typeName
  | none => .error (.unsupportedType type)

/-- The socket `name` of the type that the host calls `typeName`. -/
def Socket.resolve (name typeName : String) (direction : Direction) : Except Error Socket :=
  (DataType.resolve typeName).map fun type => { name, type, direction }

end ShaderGraph
