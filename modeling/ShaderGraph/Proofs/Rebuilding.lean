import ShaderGraph.Proofs.Building
import ShaderGraph.Proofs.FirstDefect
import ShaderGraph.Proofs.Shape

namespace ShaderGraph

/-!
# Rebuilding graphs

The checks that are made when something is added to a graph, against the checks of a graph as a
whole. While the graph is valid they agree, in the errors too, so that every valid graph can be
built up from the empty one.

* `Graph.Valid.connect_eq_validate` — adding a connection is checking the graph with that
  connection.
* `Graph.Valid.validate_pushNode_eq_error` — a node is refused if the graph with that node would be.
* `Graph.attempt`, `Graph.edits` — a call with its failure, and the calls for the parts of a graph.
* `Graph.Valid.foldlM_attempt_edits` — no call for the parts of a valid graph fails, and together
  they make it.
* `Graph.additions_agree` — checks while building and checks of the whole graph agree.
-/

namespace Graph

variable {g g' : Graph}

/-- The names of a valid graph can be told apart. -/
theorem Valid.distinguished (hg : g.Valid) : Distinguished g.nodes :=
  ⟨hg.names, fun n hn => isReserved_eq_false.mp (hg.unreserved n hn)⟩

/-- A valid graph is wired. -/
theorem Valid.wired (hg : g.Valid) : g.Wired :=
  ⟨hg.names, hg.unreserved, hg.sources, hg.targets, hg.fanIn⟩

/-! ### Connections -/

/-- A graph with one more connection is checked in its old parts first, where nothing is wrong. -/
theorem Valid.validate_pushConnection (hg : g.Valid) (c : Connection) :
    (g.pushConnection c).validate = g.checkConnection c >>= fun _ =>
      if (g.incoming? c.target).isSome then
        .error (.multipleConnections c.target.node c.target.socket)
      else .ok () := by
  obtain ⟨hnames, hidentifiers, -⟩ : g.checkNames = .ok () ∧ g.checkIdentifiers = .ok () ∧
      g.checkConnections = .ok () := by
    have hvalidate := validate_eq_ok.mpr hg
    rwa [validate, seq_eq_ok, seq_eq_ok] at hvalidate
  have hold : (g.pushConnection c).checkConnectionsAfter [] g.connections = .ok () :=
    (checkConnectionsAfter_eq_ok_iff_joined (g := g.pushConnection c) hg.distinguished).mpr
      { sources := fun d hd => (hg.sources d hd).of_within (g.within_pushConnection c)
        targets := fun d hd => (hg.targets d hd).of_within (g.within_pushConnection c)
        distinct := hg.fanIn }
  have htaken : (g.connections.foldl (fun seen d => d.target :: seen) []).contains c.target =
      (g.incoming? c.target).isSome := by
    rw [List.foldl_flip_cons_eq_append, Bool.eq_iff_iff, isSome_incoming?]
    simp
  show (do g.checkNames; g.checkIdentifiers; (g.pushConnection c).checkConnections) = _
  rw [hnames, ok_bind, hidentifiers, ok_bind]
  show (g.pushConnection c).checkConnectionsAfter [] (g.connections ++ [c]) = _
  rw [(isScan_checkConnectionsAfter _).concat, hold, ok_bind, htaken]
  rfl

/-- Adding a connection to a valid graph is checking the graph with the connection. -/
theorem Valid.connect_eq_validate (hg : g.Valid) (c : Connection) :
    g.connect c = (g.pushConnection c).validate.map fun _ => g.pushConnection c := by
  rw [hg.validate_pushConnection, connect]
  cases g.checkConnection c with
  | error e => rfl
  | ok =>
    rw [ok_bind, ok_bind]
    split <;> rfl

/-! ### Nodes -/

/-- A graph with one more node has a defect in its names only if that node has it. -/
theorem Valid.checkNames_pushNode (hg : g.Valid) (n : Node) :
    (g.pushNode n).checkNames =
      if isReserved n.name || (g.nodeIndex? n.name).isSome then .error (.duplicateNode n.name)
      else .ok () := by
  have hold : checkNamesAfter [] g.nodes = .ok () :=
    checkNames_eq_ok_iff_distinguished.mpr hg.distinguished
  have htaken : (g.nodes.foldl (fun seen m => m.name :: seen) []).contains n.name =
      (g.nodeIndex? n.name).isSome := by
    rw [List.foldl_flip_cons_eq_append, Bool.eq_iff_iff]
    simp [nodeIndex?]
  show checkNamesAfter [] (g.nodes ++ [n]) = _
  rw [isScan_checkNamesAfter.concat, hold, ok_bind, htaken]

/-- If the graph with the node is refused for the name of a node, that is the new one. -/
theorem Valid.validate_pushNode_eq_error (hg : g.Valid) {n : Node} {name : String} :
    (g.pushNode n).validate = .error (.duplicateNode name) ↔
      name = n.name ∧ ∃ err, g.addNode n = .error err := by
  have hchecks : (g.pushNode n).validate = .error (.duplicateNode name) ↔
      (g.pushNode n).checkNames = .error (.duplicateNode name) := by
    constructor
    · -- No later check complains about the name of a node.
      intro h
      rcases bind_eq_error.mp h with hnames | ⟨⟨⟩, hnames, h⟩
      · exact hnames
      rcases bind_eq_error.mp h with hidentifiers | ⟨⟨⟩, -, hconnections⟩
      · obtain ⟨identifier, first, second, herr⟩ := checkIdentifiers_eq_error hidentifiers
        cases herr
      · have hdistinguished := checkNames_eq_ok_iff_distinguished.mp hnames
        obtain ⟨before, c, after, -, -, hc⟩ :=
          (checkConnections_eq_error hdistinguished).mp hconnections
        rcases hc with ⟨⟨⟩⟩ | ⟨_, ⟨⟩⟩
    · intro h
      rw [validate, h, error_bind]
  rw [hchecks, hg.checkNames_pushNode, addNode]
  split <;> simp [eq_comm]

/-- A node is refused for its name only. -/
theorem eq_duplicateNode_of_addNode {n : Node} {err : Error} (h : g.addNode n = .error err) :
    err = .duplicateNode n.name := by
  unfold addNode at h
  split at h <;> cases h
  rfl

/-- A node that is added is found at the index that the call tells. -/
theorem nodeIndex?_of_addNode {n : Node} {i : Nat} (h : g.addNode n = .ok (g', i)) :
    g'.nodeIndex? n.name = some i := by
  obtain ⟨-, hnew, rfl, rfl⟩ := addNode_eq_ok.mp h
  have hothers : g.nodes.findIdx? (·.name == n.name) = none := by simpa using hnew
  rw [nodeIndex?, pushNode, List.findIdx?_append, hothers]
  simp

/-- A node that is added leaves nothing to complain about but identifiers. -/
theorem Valid.validate_of_addNode (hg : g.Valid) {n : Node} {i : Nat}
    (h : g.addNode n = .ok (g', i)) :
    g'.validate = .ok () ∨ ∃ identifier first second,
      g'.validate = .error (.identifierCollision identifier first second) := by
  rw [(hg.wired.addNode h).validate_eq]
  cases hcheck : g'.checkIdentifiers with
  | ok => exact .inl rfl
  | error err =>
    obtain ⟨identifier, first, second, rfl⟩ := checkIdentifiers_eq_error hcheck
    exact .inr ⟨identifier, first, second, rfl⟩

/-! ### Calls that may fail -/

/-- What a call makes of a graph, or why it is refused. -/
def attempt (g : Graph) : Edit → Except Error Graph
  | .input name typeName => .ok (g.addInput name typeName)
  | .output name typeName => .ok (g.addOutput name typeName)
  | .node n => (g.addNode n).map Prod.fst
  | .connection c => g.connect c

/-- A refused call changes nothing. -/
theorem edit_eq (g : Graph) (e : Edit) :
    g.edit e = match g.attempt e with
      | .ok extended => extended
      | .error _ => g := by
  cases e with
  | node n =>
    rw [edit, attempt]
    cases g.addNode n <;> rfl
  | _ => rfl

/-- Where no call is refused, the calls make what they make together. -/
theorem foldl_edit_eq {edits : List Edit} (h : edits.foldlM attempt g = .ok g') :
    edits.foldl edit g = g' := by
  induction edits generalizing g with
  | nil => exact Except.ok.inj h
  | cons e edits ih =>
    rw [List.foldlM_cons, bind_eq_ok] at h
    obtain ⟨extended, he, hrest⟩ := h
    rw [List.foldl_cons, edit_eq, he]
    exact ih hrest

/-- The calls that add the parts of a graph: inputs, outputs, nodes and connections in their
    order. -/
def edits (g : Graph) : List Edit :=
  g.inputs.map (fun decl => .input decl.name decl.typeName) ++
    g.outputs.map (fun decl => .output decl.name decl.typeName) ++ g.nodes.map .node ++
      g.connections.map .connection

/-! ### Valid graphs from the empty one -/

/-- A valid graph stays valid if connections are left out. -/
theorem Valid.withConnections (hg : g.Valid) {connections : List Connection}
    (h : connections.Sublist g.connections) : ({ g with connections } : Graph).Valid := by
  have hwithin : g.Within { g with connections } :=
    ⟨List.Subset.refl _, List.Subset.refl _, List.Subset.refl _⟩
  exact {
    names := hg.names
    unreserved := hg.unreserved
    functions := hg.functions
    entry := hg.entry
    parameters := hg.parameters
    sources := fun c hc => (hg.sources c (h.subset hc)).of_within hwithin
    targets := fun c hc => (hg.targets c (h.subset hc)).of_within hwithin
    fanIn := hg.fanIn.sublist (h.map _) }

/-- The calls for the nodes of a valid graph add these nodes. -/
theorem Valid.foldlM_attempt_nodes (hg : g.Valid) :
    (g.nodes.map Edit.node).foldlM attempt { inputs := g.inputs, outputs := g.outputs } =
      .ok { inputs := g.inputs, outputs := g.outputs, nodes := g.nodes } := by
  rw [List.foldlM_map]
  refine foldlM_eq_ok
    (fun nodes => ({ inputs := g.inputs, outputs := g.outputs, nodes } : Graph)) ?_
  intro before n after hnodes
  have hnames := hg.names
  rw [hnodes, List.map_append, List.map_cons, List.nodup_append] at hnames
  have hnew : ∀ m ∈ before, m.name ≠ n.name := fun m hm =>
    hnames.2.2 m.name (List.mem_map_of_mem hm) n.name List.mem_cons_self
  have hadded : ({ inputs := g.inputs, outputs := g.outputs, nodes := before } : Graph).addNode n =
      .ok (_, before.length) :=
    addNode_eq_ok.mpr ⟨hg.unreserved n (by simp [hnodes]), hnew, rfl, rfl⟩
  rw [attempt, hadded]
  rfl

/-- The calls for the connections of a valid graph add these connections. -/
theorem Valid.foldlM_attempt_connections (hg : g.Valid) :
    (g.connections.map Edit.connection).foldlM attempt { g with connections := [] } = .ok g := by
  rw [List.foldlM_map]
  refine foldlM_eq_ok (fun connections => { g with connections }) ?_
  intro before c after hconnections
  -- The graph is valid as far as it has come, and with the next connection.
  have hbefore : ({ g with connections := before } : Graph).Valid :=
    hg.withConnections (hconnections ▸ List.sublist_append_left before (c :: after))
  have hnext : ({ g with connections := before ++ [c] } : Graph).Valid := by
    refine hg.withConnections ?_
    rw [hconnections, List.append_cons before c after]
    exact List.sublist_append_left (before ++ [c]) after
  show Graph.connect _ c = _
  rw [hbefore.connect_eq_validate]
  show (Graph.validate { g with connections := before ++ [c] }).map _ = _
  rw [validate_eq_ok.mpr hnext]
  rfl

/-- No call for the parts of a valid graph fails, and together they make the graph. -/
theorem Valid.foldlM_attempt_edits (hg : g.Valid) : g.edits.foldlM attempt {} = .ok g := by
  have hinputs : (g.inputs.map fun decl => Edit.input decl.name decl.typeName).foldlM attempt {} =
      .ok { inputs := g.inputs } := by
    rw [List.foldlM_map]
    exact foldlM_eq_ok (fun inputs => ({ inputs } : Graph)) fun _ _ _ _ => rfl
  have houtputs : (g.outputs.map fun decl => Edit.output decl.name decl.typeName).foldlM attempt
      { inputs := g.inputs } = .ok { inputs := g.inputs, outputs := g.outputs } := by
    rw [List.foldlM_map]
    exact foldlM_eq_ok (fun outputs => ({ inputs := g.inputs, outputs } : Graph))
      fun _ _ _ _ => rfl
  rw [edits, List.foldlM_append, List.foldlM_append, List.foldlM_append, hinputs, ok_bind, houtputs,
    ok_bind, hg.foldlM_attempt_nodes, ok_bind]
  exact hg.foldlM_attempt_connections

/-- Every valid graph is built up by calls. -/
theorem Valid.build_edits (hg : g.Valid) : build g.edits = g :=
  foldl_edit_eq hg.foldlM_attempt_edits

/-- **Checks while building.** Where a graph is valid, what is added to it is checked as the whole
    graph would be. A connection is added if and only if the graph with the connection is valid, and
    refused with the same error otherwise. A node is refused if and only if the graph with the node
    is refused for the name of a node, which is that of the new one; and if it is added, it is found
    at the index that the call tells, and nothing but two equal identifiers can be wrong. So no call
    is refused when the graph is built again from its parts. -/
theorem additions_agree (hg : g.validate = .ok ()) :
    (∀ c,
      (∀ g', g.connect c = .ok g' ↔
        (g.pushConnection c).validate = .ok () ∧ g' = g.pushConnection c) ∧
      ∀ err, g.connect c = .error err ↔ (g.pushConnection c).validate = .error err) ∧
    (∀ n,
      (∀ err, g.addNode n = .error err ↔
        err = .duplicateNode n.name ∧ (g.pushNode n).validate = .error err) ∧
      (∀ name, (g.pushNode n).validate = .error (.duplicateNode name) → name = n.name) ∧
      ∀ g' i, g.addNode n = .ok (g', i) → g' = g.pushNode n ∧ g'.nodeIndex? n.name = some i ∧
        (g'.validate = .ok () ∨ ∃ identifier first second,
          g'.validate = .error (.identifierCollision identifier first second))) ∧
    g.edits.foldlM attempt {} = .ok g := by
  have hvalid : g.Valid := validate_eq_ok.mp hg
  refine ⟨fun c => ?_, fun n => ⟨fun err => ?_, fun name h => ?_, fun g' i h => ?_⟩,
    hvalid.foldlM_attempt_edits⟩
  · rw [hvalid.connect_eq_validate]
    cases (g.pushConnection c).validate <;> simp [Except.map, eq_comm]
  · constructor
    · intro h
      obtain rfl := eq_duplicateNode_of_addNode h
      exact ⟨rfl, hvalid.validate_pushNode_eq_error.mpr ⟨rfl, _, h⟩⟩
    · rintro ⟨rfl, h⟩
      obtain ⟨-, err, herr⟩ := hvalid.validate_pushNode_eq_error.mp h
      obtain rfl := eq_duplicateNode_of_addNode herr
      exact herr
  · exact (hvalid.validate_pushNode_eq_error.mp h).1
  · obtain ⟨-, -, hadded, -⟩ := addNode_eq_ok.mp h
    exact ⟨hadded, nodeIndex?_of_addNode h, hvalid.validate_of_addNode h⟩

/-- A second connection into `mix` and a second node of that name are refused, and the graph can be
    rebuilt. -/
theorem additions_agree_tintedColor :
    tintedColor.validate = .ok () ∧
      (tintedColor.pushConnection ⟨⟨"scale", "product"⟩, ⟨"mix", "input1"⟩⟩).validate =
        .error (.multipleConnections "mix" "input1") ∧
      (tintedColor.pushNode { name := "mix", kind := "divide" }).validate =
        .error (.duplicateNode "mix") ∧
      tintedColor.edits.foldlM attempt {} = .ok tintedColor := by
  have hvalid : tintedColor.validate = .ok () := by decide +kernel
  obtain ⟨hconnect, hnode, hedits⟩ := additions_agree hvalid
  refine ⟨hvalid, ((hconnect _).2 _).mp (by decide +kernel), ?_, hedits⟩
  exact (((hnode { name := "mix", kind := "divide" }).1 _).mp (by decide +kernel)).2

end Graph

end ShaderGraph
