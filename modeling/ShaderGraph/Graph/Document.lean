import ShaderGraph.Graph.Validity
import ShaderGraph.Json.Printer
import ShaderGraph.Json.Reader
import ShaderGraph.Json.Record

/-!
# Graphs as JSON documents

* `Graph.toJson`, `Graph.print` — the document of a graph and its text.
* `Graph.ofJson?`, `Graph.read` — the graph that a document or a text describes. The lists of a
  graph and the sockets of a node may be left off; everything else must be there.
* `Graph.load` — a graph that is read and checked.
-/

namespace ShaderGraph

/-! ### Printing -/

/-- The document of a socket declaration. -/
def SocketDecl.toJson (decl : SocketDecl) : Json :=
  .ofMembers [("name", .ofText decl.name), ("type", .ofText decl.typeName)]

/-- The document of a node. -/
def Node.toJson (n : Node) : Json :=
  .ofMembers [("name", .ofText n.name), ("kind", .ofText n.kind),
    ("inputs", .array (n.inputs.map (·.toJson))), ("outputs", .array (n.outputs.map (·.toJson)))]

/-- The document of a connection. -/
def Connection.toJson (c : Connection) : Json :=
  .ofMembers [("from_node", .ofText c.source.node), ("from_socket", .ofText c.source.socket),
    ("to_node", .ofText c.target.node), ("to_socket", .ofText c.target.socket)]

namespace Graph

/-- The document of a graph. -/
def toJson (g : Graph) : Json :=
  .ofMembers [("inputs", .array (g.inputs.map (·.toJson))),
    ("outputs", .array (g.outputs.map (·.toJson))), ("nodes", .array (g.nodes.map (·.toJson))),
    ("connections", .array (g.connections.map (·.toJson)))]

/-- The text of a graph. -/
def print (g : Graph) : String := g.toJson.render

end Graph

/-! ### Reading -/

/-- The socket declaration that a document describes. -/
def SocketDecl.ofJson? (document : Json) : Option SocketDecl := do
  let fields ← document.record? ["name", "type"]
  return { name := ← fields.required "name" Json.text?
           typeName := ← fields.required "type" Json.text? }

/-- The node that a document describes. -/
def Node.ofJson? (document : Json) : Option Node := do
  let fields ← document.record? ["name", "kind", "inputs", "outputs"]
  return { name := ← fields.required "name" Json.text?
           kind := ← fields.required "kind" Json.text?
           inputs := ← fields.optional "inputs" [] (Json.list? SocketDecl.ofJson?)
           outputs := ← fields.optional "outputs" [] (Json.list? SocketDecl.ofJson?) }

/-- The connection that a document describes. -/
def Connection.ofJson? (document : Json) : Option Connection := do
  let fields ← document.record? ["from_node", "from_socket", "to_node", "to_socket"]
  return { source := { node := ← fields.required "from_node" Json.text?
                       socket := ← fields.required "from_socket" Json.text? }
           target := { node := ← fields.required "to_node" Json.text?
                       socket := ← fields.required "to_socket" Json.text? } }

namespace Graph

/-- The graph that a document describes. -/
def ofJson? (document : Json) : Option Graph := do
  let fields ← document.record? ["inputs", "outputs", "nodes", "connections"]
  return { inputs := ← fields.optional "inputs" [] (Json.list? SocketDecl.ofJson?)
           outputs := ← fields.optional "outputs" [] (Json.list? SocketDecl.ofJson?)
           nodes := ← fields.optional "nodes" [] (Json.list? Node.ofJson?)
           connections := ← fields.optional "connections" [] (Json.list? Connection.ofJson?) }

/-- The graph that a text describes, unchecked. -/
def read (text : String) : Except Error Graph :=
  match (Json.parse? text).bind ofJson? with
  | some g => .ok g
  | none => .error (.document "the text does not describe a graph")

/-- The valid graph that a text describes. -/
def load (text : String) : Except Error Graph := do
  let g ← read text
  g.validate
  return g

end Graph

end ShaderGraph
