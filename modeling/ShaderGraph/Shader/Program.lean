import ShaderGraph.Shader.Expr
import ShaderGraph.Socket

/-!
# Programs

What a graph is compiled to: one function per node, and the interface and bindings of an entry
function that calls them in order.

* `Declaration` — a parameter or a local variable; `Declaration.ofSocket` and
  `Declaration.localFor` declare the variable of a socket and a local variable of its type.
* `NodeCode` — the function of a node and its call.
* `Program` — the whole.
-/

namespace ShaderGraph

/-! ### Declarations -/

/-- A typed variable: a parameter of a function or a local variable. -/
structure Declaration where
  name : String
  typeName : String
  qualifier? : Option String
deriving DecidableEq, Repr

namespace Declaration

/-- A declaration with the target spelling of `type`, if the type has one. -/
def ofType (name : String) (type : DataType) (qualifier? : Option String) :
    Except Error Declaration :=
  type.spell.map fun typeName => { name, typeName, qualifier? }

/-- The parameter that stands for a socket. -/
def ofSocket (socket : Socket) : Except Error Declaration :=
  ofType socket.varName socket.type socket.direction.qualifier?

/-- A local variable of the type of a socket. -/
def localFor (name : String) (socket : Socket) : Except Error Declaration :=
  ofType name socket.type none

/-- The text of a declaration: the qualifier if there is one, the type and the name. -/
def text (d : Declaration) : String :=
  match d.qualifier? with
  | some qualifier => qualifier ++ " " ++ d.typeName ++ " " ++ d.name
  | none => d.typeName ++ " " ++ d.name

end Declaration

/-! ### Programs -/

/-- The code of one node. -/
structure NodeCode where
  name : String
  kind : String
  /-- The parameters of the node's function: connected inputs, then outputs. -/
  parameters : List Declaration
  /-- The body of the node's function. -/
  operations : List Operation
  /-- The arguments of the call, one for each parameter. -/
  arguments : List String
  /-- The local variables of the entry function that receive the outputs. -/
  locals : List Declaration
deriving DecidableEq, Repr

/-- The code of a graph. -/
structure Program where
  /-- The parameters of the entry function: graph inputs, then graph outputs. -/
  parameters : List Declaration := []
  /-- The nodes in the order of their calls. -/
  nodes : List NodeCode := []
  /-- The assignments to the graph outputs. -/
  bindings : List Operation := []
deriving DecidableEq, Repr

namespace Program

/-- The code of the node called `name`. -/
def node? (p : Program) (name : String) : Option NodeCode :=
  p.nodes.find? (·.name == name)

/-- The operations of all nodes in order. -/
def operations (p : Program) : List Operation := p.nodes.flatMap (·.operations)

end Program

end ShaderGraph
