import ShaderGraph.Context

/-!
# Graphs

A graph consists of nodes with declared sockets and of connections between sockets. Its own
inputs and outputs are the sockets of two pseudo nodes: connections read graph inputs from
`Graph.inputNode` and write graph outputs to `Graph.outputNode`.

* `SocketDecl`, `Node`, `Endpoint`, `Connection`, `Graph` — the parts of a graph.
* `Graph.node?`, `Graph.incoming?` — the first node of a name, the first connection into an
  input.
* `Graph.context` — the context of a node: its connected inputs and all of its outputs.
* `Graph.sourceVariable` — the variable that holds what flows out of a connection's source.
-/

namespace ShaderGraph

/-! ### Parts -/

/-- A socket as it is declared: its name and the host's name of its type. -/
structure SocketDecl where
  name : String
  typeName : String
deriving DecidableEq, Repr

/-- The declared socket with its type resolved. -/
def SocketDecl.resolve (decl : SocketDecl) (direction : Direction) : Except Error Socket :=
  Socket.resolve decl.name decl.typeName direction

/-- An operator in a graph. -/
structure Node where
  name : String
  /-- The kind, which selects the adapter that generates code for the node. -/
  kind : String
  inputs : List SocketDecl := []
  outputs : List SocketDecl := []
deriving DecidableEq, Repr

/-- A socket of a node, by names. -/
structure Endpoint where
  node : String
  socket : String
deriving DecidableEq, Repr

/-- A connection from an output to an input. -/
structure Connection where
  source : Endpoint
  target : Endpoint
deriving DecidableEq, Repr

/-- A graph of nodes. -/
structure Graph where
  inputs : List SocketDecl := []
  outputs : List SocketDecl := []
  nodes : List Node := []
  connections : List Connection := []
deriving DecidableEq, Repr

namespace Graph

/-- The pseudo node whose outputs are the graph inputs. -/
def inputNode : String := "subinput"

/-- The pseudo node whose inputs are the graph outputs. -/
def outputNode : String := "suboutput"

/-- Whether a name belongs to a pseudo node. -/
def isReserved (name : String) : Bool := name == inputNode || name == outputNode

/-! ### Look-up -/

/-- The first node called `name`. -/
def node? (g : Graph) (name : String) : Option Node := g.nodes.find? (·.name == name)

/-- The position of the first node called `name`. -/
def nodeIndex? (g : Graph) (name : String) : Option Nat := g.nodes.findIdx? (·.name == name)

/-- The first connection into an input. -/
def incoming? (g : Graph) (target : Endpoint) : Option Connection :=
  g.connections.find? (·.target == target)

/-- Whether some connection reads from the node called `name`. -/
def hasConsumers (g : Graph) (name : String) : Bool :=
  g.connections.any (·.source.node == name)

end Graph

namespace Node

/-- The first input called `name`. -/
def input? (n : Node) (name : String) : Option SocketDecl := n.inputs.find? (·.name == name)

/-- The first output called `name`. -/
def output? (n : Node) (name : String) : Option SocketDecl := n.outputs.find? (·.name == name)

end Node

/-! ### Contexts and variables -/

namespace Graph

/-- The inputs of a node that some connection feeds, in declaration order. -/
def connectedInputs (g : Graph) (n : Node) : List SocketDecl :=
  n.inputs.filter fun input => (g.incoming? ⟨n.name, input.name⟩).isSome

/-- The context of a node. -/
def context (g : Graph) (n : Node) : Except Error Context := do
  let inputs ← (g.connectedInputs n).mapM (·.resolve .input)
  let outputs ← n.outputs.mapM (·.resolve .output)
  return (inputs ++ outputs).foldl Context.add {}

/-- The variable of the entry function that holds the value at the source of a connection. -/
def sourceVariable (c : Connection) : String :=
  if c.source.node = inputNode then Naming.variableName c.source.socket
  else Naming.localName c.source.node c.source.socket

end Graph

end ShaderGraph
