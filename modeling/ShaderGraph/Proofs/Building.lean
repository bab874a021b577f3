import ShaderGraph.Graph.Build
import ShaderGraph.Proofs.Validity

namespace ShaderGraph

/-!
# Built graphs

Nodes and connections are checked as they are added to a graph. Whatever else is added before and
after them, the graph stays such that only its identifiers may be wrong in the end.

* `Graph.Edit`, `Graph.edit`, `Graph.build` — a call that adds something, what it makes of a graph,
  and the graph that calls one after another build up from the empty one.
* `Graph.Wired` — node names can be told apart, and connections join sockets that exist, at most one
  to an input. `Graph.Wired.validate_eq` says that then only identifiers are left to be checked.
* `Graph.Wired.edit` — every call keeps this up.
-/

namespace Graph

variable {g g' : Graph}

/-! ### Calls -/

/-- A call that adds something to a graph. -/
inductive Edit where
  | input (name typeName : String)
  | output (name typeName : String)
  | node (n : Node)
  | connection (c : Connection)
deriving DecidableEq, Repr

/-- The graph after a call. A refused one leaves the graph as it was. -/
def edit (g : Graph) : Edit → Graph
  | .input name typeName => g.addInput name typeName
  | .output name typeName => g.addOutput name typeName
  | .node n =>
    match g.addNode n with
    | .ok added => added.1
    | .error _ => g
  | .connection c =>
    match g.connect c with
    | .ok extended => extended
    | .error _ => g

/-- The graph that calls build up from the empty one. -/
def build (edits : List Edit) : Graph := edits.foldl edit {}

/-! ### The invariant -/

/-- Node names can be told apart, and connections join sockets that exist, at most one to an
    input. -/
structure Wired (g : Graph) : Prop where
  names : (g.nodes.map (·.name)).Nodup
  unreserved : ∀ n ∈ g.nodes, isReserved n.name = false
  sources : ∀ c ∈ g.connections, g.IsSource c.source
  targets : ∀ c ∈ g.connections, g.IsTarget c.target
  fanIn : (g.connections.map (·.target)).Nodup

/-- The empty graph has nothing that could be wrong. -/
theorem wired_empty : ({} : Graph).Wired where
  names := List.nodup_nil
  unreserved := by simp
  sources := by simp
  targets := by simp
  fanIn := List.nodup_nil

/-- The checks of a wired graph come down to that of its identifiers. -/
theorem Wired.validate_eq (hg : g.Wired) : g.validate = g.checkIdentifiers := by
  have hnames : g.checkNames = .ok () := checkNames_eq_ok.mpr ⟨hg.names, hg.unreserved⟩
  have hends : ∀ c ∈ g.connections, g.checkConnection c = .ok () := fun c hc =>
    checkConnection_eq_ok.mpr
      ⟨(checkEndpoint_sourceSockets? hg.names hg.unreserved).mpr (hg.sources c hc),
        (checkEndpoint_targetSockets? hg.names hg.unreserved).mpr (hg.targets c hc)⟩
  have hconnections : g.checkConnections = .ok () :=
    checkConnectionsAfter_eq_ok.mpr ⟨hends, hg.fanIn, by simp⟩
  rw [validate, hnames, ok_bind, hconnections]
  cases g.checkIdentifiers <;> rfl

/-- The check of identifiers has one kind of failure. -/
theorem checkIdentifiers_eq_error {e : Error} (h : g.checkIdentifiers = .error e) :
    ∃ identifier first second, e = .identifierCollision identifier first second := by
  unfold checkIdentifiers at h
  split at h
  · exact ⟨_, _, _, (Except.error.inj h).symm⟩
  · cases h

/-! ### What calls keep -/

/-- All sockets of the first graph are sockets of the second one. -/
structure Within (g g' : Graph) : Prop where
  inputs : g.inputs ⊆ g'.inputs
  outputs : g.outputs ⊆ g'.outputs
  nodes : g.nodes ⊆ g'.nodes

/-- What may be read in a graph may be read in a larger one. -/
theorem IsSource.of_within (h : g.Within g') {e : Endpoint} (he : g.IsSource e) :
    g'.IsSource e := by
  cases he with
  | input hdecl => exact .input (h.inputs hdecl)
  | output hn hdecl => exact .output (h.nodes hn) hdecl

/-- What may be written in a graph may be written in a larger one. -/
theorem IsTarget.of_within (h : g.Within g') {e : Endpoint} (he : g.IsTarget e) :
    g'.IsTarget e := by
  cases he with
  | output hdecl => exact .output (h.outputs hdecl)
  | input hn hdecl => exact .input (h.nodes hn) hdecl

/-- A graph input adds a socket. -/
theorem within_addInput (g : Graph) (name typeName : String) :
    g.Within (g.addInput name typeName) :=
  ⟨List.subset_append_left _ _, List.Subset.refl _, List.Subset.refl _⟩

/-- A graph output adds a socket. -/
theorem within_addOutput (g : Graph) (name typeName : String) :
    g.Within (g.addOutput name typeName) :=
  ⟨List.Subset.refl _, List.subset_append_left _ _, List.Subset.refl _⟩

/-- A node adds sockets. -/
theorem within_pushNode (g : Graph) (n : Node) : g.Within (g.pushNode n) :=
  ⟨List.Subset.refl _, List.Subset.refl _, List.subset_append_left _ _⟩

/-- A connection takes no socket away. -/
theorem within_pushConnection (g : Graph) (c : Connection) : g.Within (g.pushConnection c) :=
  ⟨List.Subset.refl _, List.Subset.refl _, List.Subset.refl _⟩

/-- A node is added under a new name that is not reserved, and at the end. -/
theorem addNode_eq_ok {n : Node} {i : Nat} :
    g.addNode n = .ok (g', i) ↔ isReserved n.name = false ∧ (∀ m ∈ g.nodes, m.name ≠ n.name) ∧
      g' = g.pushNode n ∧ i = g.nodes.length := by
  have hnew : (g.nodeIndex? n.name).isSome = false ↔ ∀ m ∈ g.nodes, m.name ≠ n.name := by
    simp [nodeIndex?]
  rw [← hnew, addNode]
  cases isReserved n.name <;> cases (g.nodeIndex? n.name).isSome <;> simp [eq_comm]

/-- A connection is added if its ends exist and its target is free, and at the end. -/
theorem connect_eq_ok {c : Connection} :
    g.connect c = .ok g' ↔
      g.checkConnection c = .ok () ∧ (∀ d ∈ g.connections, d.target ≠ c.target) ∧
        g' = g.pushConnection c := by
  have hfree : (g.incoming? c.target).isSome = false ↔
      ∀ d ∈ g.connections, d.target ≠ c.target := by
    simp [incoming?]
  rw [← hfree, connect, seq_eq_ok]
  cases (g.incoming? c.target).isSome <;> simp [eq_comm]

namespace Wired

/-- A graph to which sockets are added, but no nodes and connections. -/
theorem of_within (hg : g.Wired) (h : g.Within g') (hnodes : g'.nodes = g.nodes)
    (hconnections : g'.connections = g.connections) : g'.Wired where
  names := hnodes ▸ hg.names
  unreserved := hnodes ▸ hg.unreserved
  sources c hc := (hg.sources c (hconnections ▸ hc)).of_within h
  targets c hc := (hg.targets c (hconnections ▸ hc)).of_within h
  fanIn := hconnections ▸ hg.fanIn

/-- A node that is added has a name of its own, so that no connection changes its ends. -/
theorem addNode (hg : g.Wired) {n : Node} {i : Nat} (h : g.addNode n = .ok (g', i)) : g'.Wired := by
  obtain ⟨hfree, hnew, rfl, -⟩ := addNode_eq_ok.mp h
  have hwithin := g.within_pushNode n
  exact {
    names := nodup_map_concat hg.names hnew
    unreserved := List.forall_mem_append.mpr ⟨hg.unreserved, List.forall_mem_singleton.mpr hfree⟩
    sources := fun c hc => (hg.sources c hc).of_within hwithin
    targets := fun c hc => (hg.targets c hc).of_within hwithin
    fanIn := hg.fanIn }

/-- A connection that is added has been checked against all sockets that exist by then. -/
theorem connect (hg : g.Wired) {c : Connection} (h : g.connect c = .ok g') : g'.Wired := by
  obtain ⟨hends, hfree, rfl⟩ := connect_eq_ok.mp h
  obtain ⟨hsource, htarget⟩ := checkConnection_eq_ok.mp hends
  rw [checkEndpoint_sourceSockets? hg.names hg.unreserved] at hsource
  rw [checkEndpoint_targetSockets? hg.names hg.unreserved] at htarget
  have hwithin := g.within_pushConnection c
  have hjoined : ∀ d ∈ g.connections ++ [c], g.IsSource d.source ∧ g.IsTarget d.target :=
    List.forall_mem_append.mpr
      ⟨fun d hd => ⟨hg.sources d hd, hg.targets d hd⟩,
        List.forall_mem_singleton.mpr ⟨hsource, htarget⟩⟩
  exact {
    names := hg.names
    unreserved := hg.unreserved
    sources := fun d hd => (hjoined d hd).1.of_within hwithin
    targets := fun d hd => (hjoined d hd).2.of_within hwithin
    fanIn := nodup_map_concat hg.fanIn hfree }

/-- Each call keeps a graph wired, whether or not it is refused. -/
theorem edit (hg : g.Wired) (e : Edit) : (g.edit e).Wired := by
  cases e with
  | input name typeName => exact hg.of_within (g.within_addInput name typeName) rfl rfl
  | output name typeName => exact hg.of_within (g.within_addOutput name typeName) rfl rfl
  | node n =>
    rw [Graph.edit]
    cases h : g.addNode n with
    | ok added => exact hg.addNode h
    | error e => exact hg
  | connection c =>
    rw [Graph.edit]
    cases h : g.connect c with
    | ok extended => exact hg.connect h
    | error e => exact hg

/-- So do calls one after another. -/
theorem foldl_edit (hg : g.Wired) (edits : List Edit) : (edits.foldl Graph.edit g).Wired := by
  induction edits generalizing g with
  | nil => exact hg
  | cons e edits ih => exact ih (hg.edit e)

end Wired

/-- **Built graphs.** Whatever calls are made, in whatever order and whichever are refused, node
    names are distinct and not reserved, connections join sockets that exist, and no two have the
    same target. The checks then find nothing wrong but two names that give the same identifier. -/
theorem wired_build (edits : List Edit) :
    (build edits).Wired ∧
      ((build edits).validate = .ok () ∨ ∃ identifier first second,
        (build edits).validate = .error (.identifierCollision identifier first second)) := by
  have hwired : (build edits).Wired := wired_empty.foldl_edit edits
  refine ⟨hwired, ?_⟩
  rw [hwired.validate_eq]
  cases h : (build edits).checkIdentifiers with
  | ok => exact .inl rfl
  | error e =>
    obtain ⟨identifier, first, second, rfl⟩ := checkIdentifiers_eq_error h
    exact .inr ⟨identifier, first, second, rfl⟩

/-- Both outcomes occur: a graph input that is added twice shares its variable with itself. -/
example :
    (build [.input "x" "float", .output "y" "float",
      .connection ⟨⟨"subinput", "x"⟩, ⟨"suboutput", "y"⟩⟩]).validate = .ok () ∧
    (build [.input "x" "float", .output "y" "float",
      .connection ⟨⟨"subinput", "x"⟩, ⟨"suboutput", "y"⟩⟩, .input "x" "int"]).validate =
      .error (.identifierCollision "_x" "x" "x") := by
  decide +kernel

end Graph

end ShaderGraph
