import ShaderGraph.Graph.Document
import ShaderGraph.Proofs.Json.Documents
import ShaderGraph.Proofs.Json.Printing
import ShaderGraph.Proofs.Json.Records

namespace ShaderGraph

/-!
# Documents of graphs

Which documents describe a graph, and that each of them is read as this graph.

* `SocketDecl.WrittenAs`, `Node.WrittenAs`, `Connection.WrittenAs`, `Graph.WrittenAs` — the
  documents in which a part of a graph and a graph may be written. The one that is printed is among
  them.
* `Graph.ofJson?_eq_some` and its likes — what reading finds in a document.
* `Graph.read_of_isText` — a graph is read from each text of each document in which it is written.
* `Graph.isText_print`, `Graph.load_of_read` — what is printed of a graph is such a text, so that
  reading undoes printing, whatever stands in the names of the graph; loading checks what has been
  read.
-/

open Json (Field)

/-! ### Socket declarations -/

namespace SocketDecl

/-- The names of the fields of a socket. -/
def fieldNames : List String := ["name", "type"]

/-- The fields of a socket declaration. -/
def fields (decl : SocketDecl) : List Field :=
  [.required "name" (.ofText decl.name), .required "type" (.ofText decl.typeName)]

/-- The document is one in which the socket declaration is written. -/
def WrittenAs (decl : SocketDecl) (document : Json) : Prop := document.IsRecord decl.fields

/-- A socket is written in the document that is printed for it. -/
theorem writtenAs_toJson (decl : SocketDecl) : decl.WrittenAs decl.toJson :=
  Json.Present.isRecord (.keep rfl (.keep rfl .nil))

/-- The document that is printed for a socket is well formed. -/
@[simp] theorem wellFormed_toJson (decl : SocketDecl) : decl.toJson.WellFormed := by
  simp [toJson]

/-- A socket is read from its fields. -/
theorem ofJson?_eq_some {decl : SocketDecl} {document : Json} :
    ofJson? document = some decl ↔ ∃ record, document.record? fieldNames = some record ∧
      record.required "name" Json.text? = some decl.name ∧
      record.required "type" Json.text? = some decl.typeName := by
  cases decl
  simp [ofJson?, fieldNames, Option.bind_eq_some_iff]

/-- A socket declaration is read from each document in which it is written. -/
theorem ofJson?_of_writtenAs (decl : SocketDecl) (document : Json) (h : decl.WrittenAs document) :
    ofJson? document = some decl := by
  obtain ⟨record, hrecord, hfields⟩ := h.exists_record fieldNames rfl (by decide)
  simp only [fields, List.forall_mem_cons] at hfields
  obtain ⟨hname, htype, -⟩ := hfields
  exact ofJson?_eq_some.mpr ⟨record, hrecord, hname.required_eq rfl, htype.required_eq rfl⟩

end SocketDecl

/-! ### Nodes -/

namespace Node

/-- The names of the fields of a node. -/
def fieldNames : List String := ["name", "kind", "inputs", "outputs"]

/-- The fields of a node. -/
def fields (n : Node) : List Field :=
  [.required "name" (.ofText n.name), .required "kind" (.ofText n.kind),
    .list "inputs" SocketDecl.WrittenAs n.inputs, .list "outputs" SocketDecl.WrittenAs n.outputs]

/-- The document is one in which the node is written. -/
def WrittenAs (n : Node) (document : Json) : Prop := document.IsRecord n.fields

/-- A node is written in the document that is printed for it. -/
theorem writtenAs_toJson (n : Node) : n.WrittenAs n.toJson :=
  have hsockets := Json.isList_map SocketDecl.writtenAs_toJson
  Json.Present.isRecord
    (.keep rfl (.keep rfl (.keep (hsockets n.inputs) (.keep (hsockets n.outputs) .nil))))

/-- The document that is printed for a node is well formed. -/
@[simp] theorem wellFormed_toJson (n : Node) : n.toJson.WellFormed := by
  simp [toJson]

/-- A node is read from its fields. -/
theorem ofJson?_eq_some {n : Node} {document : Json} :
    ofJson? document = some n ↔ ∃ record, document.record? fieldNames = some record ∧
      record.required "name" Json.text? = some n.name ∧
      record.required "kind" Json.text? = some n.kind ∧
      record.optional "inputs" [] (Json.list? SocketDecl.ofJson?) = some n.inputs ∧
      record.optional "outputs" [] (Json.list? SocketDecl.ofJson?) = some n.outputs := by
  cases n
  simp [ofJson?, fieldNames, Option.bind_eq_some_iff]

/-- A node is read from each document in which it is written. -/
theorem ofJson?_of_writtenAs (n : Node) (document : Json) (h : n.WrittenAs document) :
    ofJson? document = some n := by
  have hread := SocketDecl.ofJson?_of_writtenAs
  obtain ⟨record, hrecord, hfields⟩ := h.exists_record fieldNames rfl (by decide)
  simp only [fields, List.forall_mem_cons] at hfields
  obtain ⟨hname, hkind, hinputs, houtputs, -⟩ := hfields
  exact ofJson?_eq_some.mpr ⟨record, hrecord, hname.required_eq rfl, hkind.required_eq rfl,
    hinputs.list_eq hread, houtputs.list_eq hread⟩

end Node

/-! ### Connections -/

namespace Connection

/-- The names of the fields of a connection. -/
def fieldNames : List String := ["from_node", "from_socket", "to_node", "to_socket"]

/-- The fields of a connection. -/
def fields (c : Connection) : List Field :=
  [.required "from_node" (.ofText c.source.node), .required "from_socket" (.ofText c.source.socket),
    .required "to_node" (.ofText c.target.node), .required "to_socket" (.ofText c.target.socket)]

/-- The document is one in which the connection is written. -/
def WrittenAs (c : Connection) (document : Json) : Prop := document.IsRecord c.fields

/-- A connection is written in the document that is printed for it. -/
theorem writtenAs_toJson (c : Connection) : c.WrittenAs c.toJson :=
  Json.Present.isRecord (.keep rfl (.keep rfl (.keep rfl (.keep rfl .nil))))

/-- The document that is printed for a connection is well formed. -/
@[simp] theorem wellFormed_toJson (c : Connection) : c.toJson.WellFormed := by
  simp [toJson]

/-- A connection is read from its fields. -/
theorem ofJson?_eq_some {c : Connection} {document : Json} :
    ofJson? document = some c ↔ ∃ record, document.record? fieldNames = some record ∧
      record.required "from_node" Json.text? = some c.source.node ∧
      record.required "from_socket" Json.text? = some c.source.socket ∧
      record.required "to_node" Json.text? = some c.target.node ∧
      record.required "to_socket" Json.text? = some c.target.socket := by
  obtain ⟨⟨_, _⟩, ⟨_, _⟩⟩ := c
  simp [ofJson?, fieldNames, Option.bind_eq_some_iff]

/-- A connection is read from each document in which it is written. -/
theorem ofJson?_of_writtenAs (c : Connection) (document : Json) (h : c.WrittenAs document) :
    ofJson? document = some c := by
  obtain ⟨record, hrecord, hfields⟩ := h.exists_record fieldNames rfl (by decide)
  simp only [fields, List.forall_mem_cons] at hfields
  obtain ⟨hfromNode, hfromSocket, htoNode, htoSocket, -⟩ := hfields
  exact ofJson?_eq_some.mpr ⟨record, hrecord, hfromNode.required_eq rfl,
    hfromSocket.required_eq rfl,
    htoNode.required_eq rfl, htoSocket.required_eq rfl⟩

end Connection

/-! ### Graphs -/

namespace Graph

/-- The names of the fields of a graph. -/
def fieldNames : List String := ["inputs", "outputs", "nodes", "connections"]

/-- The fields of a graph. -/
def fields (g : Graph) : List Field :=
  [.list "inputs" SocketDecl.WrittenAs g.inputs, .list "outputs" SocketDecl.WrittenAs g.outputs,
    .list "nodes" Node.WrittenAs g.nodes, .list "connections" Connection.WrittenAs g.connections]

/-- The document is one in which the graph is written. -/
def WrittenAs (g : Graph) (document : Json) : Prop := document.IsRecord g.fields

/-- A graph is written in the document that is printed for it. -/
theorem writtenAs_toJson (g : Graph) : g.WrittenAs g.toJson :=
  have hsockets := Json.isList_map SocketDecl.writtenAs_toJson
  have hnodes := Json.isList_map Node.writtenAs_toJson g.nodes
  have hconnections := Json.isList_map Connection.writtenAs_toJson g.connections
  Json.Present.isRecord
    (.keep (hsockets g.inputs)
      (.keep (hsockets g.outputs) (.keep hnodes (.keep hconnections .nil))))

/-- The document that is printed for a graph is well formed. -/
theorem wellFormed_toJson (g : Graph) : g.toJson.WellFormed := by
  simp [toJson]

/-- A graph is read from its fields. -/
theorem ofJson?_eq_some {g : Graph} {document : Json} :
    ofJson? document = some g ↔ ∃ record, document.record? fieldNames = some record ∧
      record.optional "inputs" [] (Json.list? SocketDecl.ofJson?) = some g.inputs ∧
      record.optional "outputs" [] (Json.list? SocketDecl.ofJson?) = some g.outputs ∧
      record.optional "nodes" [] (Json.list? Node.ofJson?) = some g.nodes ∧
      record.optional "connections" [] (Json.list? Connection.ofJson?) = some g.connections := by
  cases g
  simp [ofJson?, fieldNames, Option.bind_eq_some_iff]

/-- A graph is read from each document in which it is written. -/
theorem ofJson?_of_writtenAs {g : Graph} {document : Json} (h : g.WrittenAs document) :
    ofJson? document = some g := by
  have hread := SocketDecl.ofJson?_of_writtenAs
  obtain ⟨record, hrecord, hfields⟩ := h.exists_record fieldNames rfl (by decide)
  simp only [fields, List.forall_mem_cons] at hfields
  obtain ⟨hinputs, houtputs, hnodes, hconnections, -⟩ := hfields
  exact ofJson?_eq_some.mpr ⟨record, hrecord, hinputs.list_eq hread, houtputs.list_eq hread,
    hnodes.list_eq Node.ofJson?_of_writtenAs, hconnections.list_eq Connection.ofJson?_of_writtenAs⟩

/-- A graph is read from each text of each document in which it is written. -/
theorem read_of_isText {g : Graph} {document : Json} (h : g.WrittenAs document) {text : String}
    (htext : document.IsText text) : read text = .ok g := by
  rw [read, Json.parse?_of_isText htext, Option.bind_some, ofJson?_of_writtenAs h]

-- A graph and its node, each as the array of its fields without those at the end that are empty.
example :
    read "[[], [], [[\"n\", \"add\"]]]" = .ok { nodes := [{ name := "n", kind := "add" }] } := by
  decide +kernel

/-- What is printed of a graph is a text of its document. -/
theorem isText_print (g : Graph) : g.toJson.IsText g.print := Json.isText_render g.wellFormed_toJson

/-- A graph that has been read is loaded if it is valid. -/
theorem load_of_read {g : Graph} {text : String} (h : read text = .ok g) :
    load text = g.validate.map fun _ => g := by
  rw [load, h]
  show (do g.validate; return g) = _
  cases g.validate <;> rfl

/-- **Reading undoes printing.** What is printed of a graph is a JSON text of a document of the
    graph. It is read as this very graph, and loading it gives the graph if it is valid and
    otherwise the error of the check. -/
theorem load_print (g : Graph) :
    (g.WrittenAs g.toJson ∧ g.toJson.IsText g.print ∧ Json.parse? g.print = some g.toJson) ∧
      read g.print = .ok g ∧ load g.print = g.validate.map fun _ => g := by
  have htext := g.isText_print
  have hread := read_of_isText g.writtenAs_toJson htext
  exact ⟨⟨g.writtenAs_toJson, htext, Json.parse?_of_isText htext⟩, hread, load_of_read hread⟩

end Graph

end ShaderGraph
