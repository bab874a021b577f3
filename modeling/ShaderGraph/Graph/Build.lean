import ShaderGraph.Graph.Validity

/-!
# Building graphs

Graphs are built up from the empty one. Nodes and connections are checked as they are added, and
a refused one leaves the graph as it was.
-/

namespace ShaderGraph.Graph

/-- Declares a graph input. -/
def addInput (g : Graph) (name typeName : String) : Graph :=
  { g with inputs := g.inputs ++ [{ name, typeName }] }

/-- Declares a graph output. -/
def addOutput (g : Graph) (name typeName : String) : Graph :=
  { g with outputs := g.outputs ++ [{ name, typeName }] }

/-- The graph with a node at the end, unchecked. -/
def pushNode (g : Graph) (n : Node) : Graph := { g with nodes := g.nodes ++ [n] }

/-- The graph with a connection at the end, unchecked. -/
def pushConnection (g : Graph) (c : Connection) : Graph :=
  { g with connections := g.connections ++ [c] }

/-- Adds a node, whose name must be new and not reserved, and tells its index. -/
def addNode (g : Graph) (n : Node) : Except Error (Graph × Nat) :=
  if isReserved n.name || (g.nodeIndex? n.name).isSome then .error (.duplicateNode n.name)
  else .ok (g.pushNode n, g.nodes.length)

/-- Adds a connection, whose ends must exist and whose target must be free. -/
def connect (g : Graph) (c : Connection) : Except Error Graph := do
  g.checkConnection c
  if (g.incoming? c.target).isSome then
    .error (.multipleConnections c.target.node c.target.socket)
  else
    .ok (g.pushConnection c)

end ShaderGraph.Graph
