import ShaderGraph.Proofs.Shape

namespace ShaderGraph

/-!
# What code depends on

The code of a node depends on the node and on the connections into its inputs, and on nothing else
in the graph. The same holds of the bindings and the graph outputs.

* `Graph.SameIncoming` — two graphs agree on the connections into a node.
* `Registry.nodeCode_congr`, `Registry.compileNode_congr`, `Graph.interface_congr`,
  `Graph.bindings_congr` — the parts of a program are the same in graphs that agree on what they
  depend on.
* `Registry.exists_compile_iff_exists_parts` — a compilation succeeds if that of every part does, in
  whatever order.
* `Graph.map_ok_of_compile`, `Graph.nodup_name_of_compile` — the nodes of a program as the nodes of
  the graph in execution order.
-/

variable {r : Registry} {g g' : Graph} {n : Node} {p : Program}

/-! ### Parts of programs -/

namespace Graph

/-- Two graphs have the same connections into the sockets of the node called `node`. -/
def SameIncoming (g g' : Graph) (node : String) : Prop :=
  ∀ socket, g'.incoming? ⟨node, socket⟩ = g.incoming? ⟨node, socket⟩

/-- The parameters of the entry function depend on the inputs and outputs of a graph. -/
theorem interface_congr (hinputs : g'.inputs = g.inputs) (houtputs : g'.outputs = g.outputs) :
    g'.interface = g.interface := by
  rw [interface, interface, hinputs, houtputs]

/-- The bindings depend on the outputs and on what is connected to them. -/
theorem bindings_congr (houtputs : g'.outputs = g.outputs) (h : g.SameIncoming g' outputNode) :
    g'.bindings = g.bindings := by
  have hbinding : g'.binding = g.binding := by
    funext output
    rw [binding, binding, h]
  rw [bindings, bindings, houtputs, hbinding]

/-- The context of a node depends on what is connected to the node. -/
theorem context_congr (h : g.SameIncoming g' n.name) : g'.context n = g.context n := by
  have hconnected : g'.connectedInputs n = g.connectedInputs n := by
    unfold connectedInputs
    simp only [h _]
  rw [context, context, hconnected]

/-- So does the code of the node. -/
theorem nodeCode_congr (h : g.SameIncoming g' n.name) (ctx : Context)
    (operations : List Operation) :
    g'.nodeCode n ctx operations = g.nodeCode n ctx operations := by
  have hargument : g'.inputArgument n = g.inputArgument n := by
    funext input
    rw [inputArgument, inputArgument, h]
  rw [nodeCode, nodeCode, hargument]

end Graph

namespace Registry

/-- The code of a node depends on nothing but the connections into it. -/
theorem nodeCode_congr (h : g.SameIncoming g' n.name) :
    (r.nodeCode g' n).result = (r.nodeCode g n).result := by
  simp only [nodeCode_result, Graph.context_congr h, Graph.nodeCode_congr h]

/-- The code of a node does not depend on the other nodes. -/
theorem compileNode_congr (hconnections : g'.connections = g.connections) (n : Node) :
    r.compileNode g' n = r.compileNode g n := by
  obtain ⟨_, _, _, _⟩ := g
  obtain ⟨_, _, _, _⟩ := g'
  obtain rfl := hconnections
  rfl

/-! ### Programs -/

/-- A compilation succeeds if and only if the graph is valid and acyclic and each part of the
    program can be generated by itself. -/
theorem exists_compile_iff_exists_parts :
    (∃ p, (r.compile g).result = .ok p) ↔
      g.Valid ∧ g.Acyclic ∧ (∃ parameters, g.interface = .ok parameters) ∧
        (∀ n ∈ g.nodes, ∃ code, (r.nodeCode g n).result = .ok code) ∧
        ∃ bindings, g.bindings = .ok bindings := by
  constructor
  · rintro ⟨p, h⟩
    obtain ⟨-, order, horder, hinterface, -, hbindings⟩ := compile_eq_ok.mp h
    have hg := Graph.valid_of_compile h
    refine ⟨hg, Graph.acyclic_of_executionOrder hg horder, ⟨_, hinterface⟩, ?_, ⟨_, hbindings⟩⟩
    intro n hn
    obtain ⟨code, -, hgenerates⟩ := Graph.exists_code_of_compile h hn
    exact ⟨code, hgenerates.nodeCode_eq⟩
  · rintro ⟨hg, hacyclic, ⟨parameters, hparameters⟩, hnodes, ⟨bindings, hbindings⟩⟩
    obtain ⟨order, horder⟩ := (Graph.exists_executionOrder hg).mpr hacyclic
    have hcodes : ∀ n ∈ g.nodesAt order, ∃ code, (r.nodeCode g n).result = .ok code := by
      intro n hn
      exact hnodes n ((Graph.mem_nodesAt horder).mp hn)
    obtain ⟨nodes, hnodes⟩ := exists_mapM_eq_ok.mpr hcodes
    exact ⟨{ parameters, nodes, bindings }, compile_eq_ok.mpr
      ⟨Graph.validate_eq_ok.mpr hg, order, horder, hparameters, mapM_eq_ok.mp hnodes, hbindings⟩⟩

end Registry

namespace Graph

/-- The nodes of a program are the codes of the nodes of the graph, in execution order. -/
theorem map_ok_of_compile (h : (r.compile g).result = .ok p) :
    ∃ order, g.executionOrder = .ok order ∧
      (g.nodesAt order).map (fun n => (r.nodeCode g n).result) = p.nodes.map .ok := by
  obtain ⟨order, horder, hnodes⟩ := generates_of_compile h
  exact ⟨order, horder, map_eq_of_forall₂ (hnodes.imp fun _ _ hcode => hcode.nodeCode_eq)⟩

/-- The nodes of a program are called like the nodes of the graph, in execution order. -/
theorem map_name_of_compile (h : (r.compile g).result = .ok p) :
    ∃ order, g.executionOrder = .ok order ∧
      p.nodes.map (·.name) = (g.nodesAt order).map (·.name) := by
  obtain ⟨order, horder, hnodes⟩ := generates_of_compile h
  refine ⟨order, horder, (map_eq_of_forall₂ (hnodes.imp ?_)).symm⟩
  rintro n code ⟨-, _, _, _, hshape⟩
  exact hshape.name_eq.symm

/-- The names in the codes of a compiled program are distinct. -/
theorem nodup_name_of_compile (h : (r.compile g).result = .ok p) :
    (p.nodes.map (·.name)).Nodup := by
  obtain ⟨order, horder, hnames⟩ := map_name_of_compile h
  rw [hnames]
  exact ((nodesAt_perm horder).map _).nodup_iff.mpr (valid_of_compile h).names

end Graph

end ShaderGraph
