import ShaderGraph.Proofs.Locality

namespace ShaderGraph

/-!
# Unconnected inputs

An input that no connection feeds leaves no trace in the code of a graph. Graphs that pass the
checks and differ in such inputs only compile to the same program, or fail in the same way.

* `Graph.SameNode`, `Graph.AgreesOnConnected` — nodes and graphs that may have other unconnected
  inputs but differ in nothing else.
* `SameNode.context_eq`, `SameNode.compileNode_eq`, `Graph.executionOrder_congr` — the steps of a
  compilation after the checks, none of which tells such graphs apart.
* `AgreesOnConnected.compile_eq` — neither does the compilation, unless the checks do.
* `Graph.retype` — the graph with other types for its unconnected inputs. The checks do not see the
  change, which is why `Registry.compile_retype` asks for nothing.
-/

namespace Graph

/-- The second node may have other inputs that no connection feeds, wherever they stand among those
    that some connection feeds. In all else the two nodes agree. -/
structure SameNode (g : Graph) (n n' : Node) : Prop where
  name : n'.name = n.name
  kind : n'.kind = n.kind
  connected : n'.inputs.filter (g.IsConnected n') = n.inputs.filter (g.IsConnected n)
  outputs : n'.outputs = n.outputs

/-- The nodes of the second graph may have other inputs that no connection feeds. In all else the
    two graphs agree. -/
structure AgreesOnConnected (g g' : Graph) : Prop where
  inputs : g'.inputs = g.inputs
  outputs : g'.outputs = g.outputs
  nodes : List.Forall₂ g.SameNode g.nodes g'.nodes
  connections : g'.connections = g.connections

variable {r : Registry} {g g' : Graph} {n n' : Node}

/-! ### Nodes -/

/-- Unconnected inputs are not in the context of a node. -/
theorem SameNode.context_eq (h : g.SameNode n n') : g.context n' = g.context n := by
  rw [context, context, connectedInputs_eq, connectedInputs_eq, h.connected, h.outputs]

/-- Nodes that agree on what is connected are turned into the same code. -/
theorem SameNode.compileNode_eq (h : g.SameNode n n') : r.compileNode g n' = r.compileNode g n := by
  -- Beside the context, the code of a node depends on its name and its kind.
  have hshape : g.nodeCode n' = g.nodeCode n := by
    have hargument : g.inputArgument n' = g.inputArgument n := by
      funext input
      rw [inputArgument, inputArgument, h.name]
    have hlocal : outputLocal n' = outputLocal n := by
      funext output
      rw [outputLocal, outputLocal, h.name]
    funext ctx operations
    rw [nodeCode, nodeCode, hargument, hlocal, h.name, h.kind]
  have hcode : r.nodeCode g n' = r.nodeCode g n := by
    rw [Registry.nodeCode, Registry.nodeCode, h.context_eq, hshape, h.name, h.kind]
  rw [Registry.compileNode, Registry.compileNode, Traced.inNode, Traced.inNode, hcode, h.name,
    h.kind]

/-! ### Order -/

/-- The last node of a name is found by the names alone. -/
theorem lastIndex?_eq (g : Graph) (name : String) :
    g.lastIndex? name =
      ((g.nodes.map (·.name)).zipIdx.reverse.find? (·.1 == name)).map (·.2) := by
  rw [List.zipIdx_map, ← List.map_reverse, List.find?_map, Option.map_map]
  rfl

/-- The order of the nodes depends on their names and on the connections. -/
theorem executionOrder_congr (hnames : g'.nodes.map (·.name) = g.nodes.map (·.name))
    (hconnections : g'.connections = g.connections) : g'.executionOrder = g.executionOrder := by
  have hdependency : g'.dependency = g.dependency := by
    funext c
    simp only [dependency, position, lastIndex?_eq, hnames]
  have hsize : g'.nodes.length = g.nodes.length := by
    simpa using congrArg List.length hnames
  rw [executionOrder, executionOrder, dependencies, dependencies, hdependency, hconnections, hsize]

/-! ### Compilation -/

namespace AgreesOnConnected

/-- The order of execution is the same. -/
theorem executionOrder_eq (h : g.AgreesOnConnected g') : g'.executionOrder = g.executionOrder := by
  have hnames : g.nodes.map (·.name) = g'.nodes.map (·.name) :=
    map_eq_of_forall₂ (h.nodes.imp fun _ _ hn => hn.name.symm)
  exact executionOrder_congr hnames.symm h.connections

/-- Whatever the order, the nodes are turned into the same code. -/
theorem mapM_compileNode_eq (h : g.AgreesOnConnected g') (order : List Nat) :
    (g'.nodesAt order).mapM (r.compileNode g') = (g.nodesAt order).mapM (r.compileNode g) := by
  have hnodes : List.Forall₂ g.SameNode (g.nodesAt order) (g'.nodesAt order) :=
    forall₂_filterMap_getElem? h.nodes order
  refine (mapM_eq_of_forall₂ (hnodes.imp fun n n' hn => ?_)).symm
  rw [Registry.compileNode_congr h.connections, hn.compileNode_eq]

/-- Nothing but the checks could tell the two graphs apart. -/
theorem compile_eq (h : g.AgreesOnConnected g') (hvalidate : g'.validate = g.validate) :
    r.compile g' = r.compile g := by
  have hbindings : g'.bindings = g.bindings := by
    refine bindings_congr h.outputs fun socket => ?_
    rw [incoming?, incoming?, h.connections]
  rw [Registry.compile, Registry.compile, hvalidate, h.executionOrder_eq,
    interface_congr h.inputs h.outputs, hbindings]
  simp only [h.mapM_compileNode_eq]

end AgreesOnConnected

/-- **Unconnected inputs.** Two graphs that pass the checks and differ in unconnected inputs only,
    be it in their number, their names, their types or their places, compile with the same log to
    the same program or the same failure. -/
theorem compile_of_agreesOnConnected (r : Registry) {g g' : Graph} (h : g.AgreesOnConnected g')
    (hvalid : g.validate = .ok ()) (hvalid' : g'.validate = .ok ()) : r.compile g' = r.compile g :=
  h.compile_eq (hvalid'.trans hvalid.symm)

/-- `tintedColor` with other unconnected inputs: one has another name, another place and a type that
    the host does not know, the others are new. -/
def retouchedTintedColor : Graph :=
  { tintedColor with
    nodes := [
      { name := "scale"
        kind := "multiply"
        inputs := [⟨"input1", "vector"⟩, ⟨"label", "string"⟩, ⟨"input2", "float"⟩]
        outputs := [⟨"product", "vector"⟩] },
      { name := "mix"
        kind := "add"
        inputs :=
          [⟨"input0", "texture"⟩, ⟨"input1", "vector"⟩, ⟨"input2", "vector"⟩, ⟨"spare", "float"⟩]
        outputs := [⟨"sum", "vector"⟩] }] }

/-- The two graphs are compiled to one program. -/
theorem compile_retouchedTintedColor :
    tintedColor.AgreesOnConnected retouchedTintedColor ∧ tintedColor.validate = .ok () ∧
      retouchedTintedColor.validate = .ok () ∧
      (Registry.builtin.compile retouchedTintedColor).result = .ok tintedColorProgram := by
  have hagrees : tintedColor.AgreesOnConnected retouchedTintedColor :=
    { inputs := rfl
      outputs := rfl
      nodes :=
        .cons ⟨rfl, rfl, by decide +kernel, rfl⟩ (.cons ⟨rfl, rfl, by decide +kernel, rfl⟩ .nil)
      connections := rfl }
  have hvalid : tintedColor.validate = .ok () :=
    validate_eq_ok.mpr (valid_of_compile compile_tintedColor)
  have hvalid' : retouchedTintedColor.validate = .ok () := by decide +kernel
  refine ⟨hagrees, hvalid, hvalid', ?_⟩
  rw [compile_of_agreesOnConnected Registry.builtin hagrees hvalid hvalid']
  exact compile_tintedColor

/-! ### Other types -/

/-- An input of a node, with another type if no connection feeds it. -/
def retypeInput (g : Graph) (types : Node → SocketDecl → String) (n : Node) (input : SocketDecl) :
    SocketDecl :=
  if g.IsConnected n input then input else { input with typeName := types n input }

/-- The node with other types for those of its inputs that no connection feeds. -/
def retypeNode (g : Graph) (types : Node → SocketDecl → String) (n : Node) : Node :=
  { n with inputs := n.inputs.map (g.retypeInput types n) }

/-- The graph with other types for the inputs that no connection feeds. -/
def retype (g : Graph) (types : Node → SocketDecl → String) : Graph :=
  { g with nodes := g.nodes.map (g.retypeNode types) }

section Retype

variable (g : Graph) (types : Node → SocketDecl → String)

/-- An input keeps its name when its type is changed. -/
theorem name_retypeInput (n : Node) (input : SocketDecl) :
    (g.retypeInput types n input).name = input.name := by
  unfold retypeInput
  split <;> rfl

/-- The inputs of a node keep their names. -/
theorem names_retypeNode (n : Node) :
    (g.retypeNode types n).inputs.map (·.name) = n.inputs.map (·.name) := by
  unfold retypeNode
  rw [List.map_map]
  exact List.map_congr_left fun input _ => g.name_retypeInput types n input

/-- A node in which types are changed agrees with the node on what is connected. -/
theorem sameNode_retypeNode (n : Node) : g.SameNode n (g.retypeNode types n) := by
  refine { name := rfl, kind := rfl, connected := ?_, outputs := rfl }
  -- Whether an input is connected depends on its name, and those that are have not changed.
  have hconnected :
      ∀ input ∈ n.inputs.filter (g.IsConnected n), g.retypeInput types n input = input := by
    intro input hinput
    exact if_pos (of_decide_eq_true (List.mem_filter.mp hinput).2)
  calc (n.inputs.map (g.retypeInput types n)).filter (g.IsConnected (g.retypeNode types n))
      = (n.inputs.filter (g.IsConnected n)).map (g.retypeInput types n) := by
        rw [List.filter_map]
        refine congrArg _ (List.filter_congr fun input _ => decide_eq_decide.mpr ?_)
        rw [IsConnected, name_retypeInput]
        rfl
    _ = n.inputs.filter (g.IsConnected n) := (List.map_congr_left hconnected).trans (List.map_id _)

/-- A graph in which types are changed agrees with the graph on what is connected. -/
theorem agreesOnConnected_retype : g.AgreesOnConnected (g.retype types) := by
  refine { inputs := rfl, outputs := rfl, nodes := ?_, connections := rfl }
  refine List.forall₂_map_right_iff.mpr (List.forall₂_same.mpr fun n _ => ?_)
  exact g.sameNode_retypeNode types n

/-- The check of names sees no types. -/
theorem checkNames_retype : (g.retype types).checkNames = g.checkNames := by
  have hafter : ∀ (nodes : List Node) (seen : List String),
      checkNamesAfter seen (nodes.map (g.retypeNode types)) = checkNamesAfter seen nodes := by
    intro nodes
    induction nodes with
    | nil => intro seen; rfl
    | cons n nodes ih =>
      intro seen
      rw [List.map_cons, checkNamesAfter, checkNamesAfter, ih]
      rfl
  exact hafter g.nodes []

/-- Neither do the identifiers that a graph claims depend on types. -/
theorem claims_retype : (g.retype types).claims = g.claims := by
  have hnode : ∀ (n : Node) (position : Nat),
      (g.retypeNode types n).claims position = n.claims position := by
    intro n position
    -- What is claimed for an input depends on its name only.
    have hinputs := congrArg (List.map fun name => ({
      scope := .parameters position
      identifier := Naming.variableName name
      owner := n.socketLabel name } : Claim)) (g.names_retypeNode types n)
    rw [List.map_map, List.map_map] at hinputs
    unfold Node.claims
    rw [List.map_append, List.map_append]
    exact congrArg (fun l => _ :: (l ++ _) ++ _) hinputs
  unfold claims
  show g.interfaceClaims ++ (g.nodes.map _).zipIdx.flatMap _ = _
  rw [List.zipIdx_map, List.flatMap_map]
  exact congrArg _ (List.flatMap_congr fun x _ => hnode x.1 x.2)

/-- A node is looked up among those with changed types as it was before. -/
theorem node?_retype (name : String) :
    (g.retype types).node? name = (g.node? name).map (g.retypeNode types) := by
  unfold node?
  show (g.nodes.map _).find? _ = _
  rw [List.find?_map]
  rfl

/-- The check of a connection sees no types. -/
theorem checkConnection_retype (c : Connection) :
    (g.retype types).checkConnection c = g.checkConnection c := by
  have hsource :
      (g.retype types).sourceSockets? c.source.node = g.sourceSockets? c.source.node := by
    unfold sourceSockets?
    rw [node?_retype, Option.map_map]
    rfl
  have htarget : checkEndpoint c.target ((g.retype types).targetSockets? c.target.node) =
      checkEndpoint c.target (g.targetSockets? c.target.node) := by
    unfold targetSockets?
    rw [node?_retype, Option.map_map]
    -- The inputs of the node have changed, but not their names.
    show checkEndpoint c.target (if c.target.node = outputNode then some g.outputs else _) = _
    split
    · rfl
    · cases g.node? c.target.node with
      | none => rfl
      | some n =>
        show checkEndpoint c.target (some (g.retypeNode types n).inputs) =
          checkEndpoint c.target (some n.inputs)
        have hany := congrArg (List.any · (· == c.target.socket)) (g.names_retypeNode types n)
        simp only [List.any_map, Function.comp_def] at hany
        rw [checkEndpoint, checkEndpoint, hany]
  unfold checkConnection
  rw [hsource, htarget]

/-- A change of types that are not connected changes nothing in the checks. -/
theorem validate_retype : (g.retype types).validate = g.validate := by
  have hconnections : ∀ (connections : List Connection) (seen : List Endpoint),
      (g.retype types).checkConnectionsAfter seen connections =
        g.checkConnectionsAfter seen connections := by
    intro connections
    induction connections with
    | nil => intro seen; rfl
    | cons c connections ih =>
      intro seen
      unfold checkConnectionsAfter
      rw [checkConnection_retype, ih]
  unfold validate checkIdentifiers checkConnections
  rw [checkNames_retype, claims_retype, hconnections]
  rfl

end Retype

end Graph

/-- The types of unconnected inputs do not matter. -/
theorem Registry.compile_retype (r : Registry) (g : Graph) (types : Node → SocketDecl → String) :
    r.compile (g.retype types) = r.compile g :=
  (g.agreesOnConnected_retype types).compile_eq (g.validate_retype types)

end ShaderGraph
