import ShaderGraph.Proofs.Locality
import ShaderGraph.Proofs.ScheduleExtension

namespace ShaderGraph

/-!
# Extended graphs

Nodes that are added to a graph and read what is there leave the code of the graph as it was: their
own code is put in between.

* `Graph.IsExtension` — a graph with nodes added at the end, and with connections into them.
* `IsExtension.valid`, `IsExtension.acyclic`, `IsExtension.sameIncoming` — what the smaller graph
  inherits.
* `IsExtension.extends_dependencies` — the dependencies of the larger graph, by position.
* `IsExtension.filter_nodesAt` — the execution orders agree on the nodes of the smaller graph.
-/

namespace Graph

/-- The second graph is the first one with the nodes `added` at the end of its nodes, and with
    connections into these nodes among its connections. -/
structure IsExtension (g g' : Graph) (added : List Node) : Prop where
  inputs : g'.inputs = g.inputs
  outputs : g'.outputs = g.outputs
  nodes : g'.nodes = g.nodes ++ added
  connections : Inserted (fun c => ∃ n ∈ added, c.target.node = n.name) g.connections g'.connections

namespace IsExtension

variable {r : Registry} {g g' : Graph} {added : List Node}

/-! ### Names -/

/-- All nodes are nodes of the extension. -/
theorem mem_nodes (h : g.IsExtension g' added) {n : Node} (hn : n ∈ g.nodes) : n ∈ g'.nodes := by
  rw [h.nodes]
  exact List.mem_append_left added hn

/-- The nodes that were there have other names than those that are added. -/
theorem name_ne (h : g.IsExtension g' added) (hg' : g'.Valid) {m n : Node} (hm : m ∈ added)
    (hn : n ∈ g.nodes) : n.name ≠ m.name := by
  have hnames := hg'.names
  rw [h.nodes, List.map_append, List.nodup_append] at hnames
  exact hnames.2.2 n.name (List.mem_map_of_mem hn) m.name (List.mem_map_of_mem hm)

/-- No node has the name of an added one. -/
theorem not_mem_added (h : g.IsExtension g' added) (hg' : g'.Valid) {n : Node} (hn : n ∈ g.nodes) :
    n.name ∉ added.map (·.name) := by
  intro hmem
  obtain ⟨m, hm, hname⟩ := List.mem_map.mp hmem
  exact h.name_ne hg' hm hn hname.symm

/-! ### What the smaller graph inherits -/

/-- All connections are connections of the extension. -/
theorem mem_connections (h : g.IsExtension g' added) {c : Connection} (hc : c ∈ g.connections) :
    c ∈ g'.connections :=
  h.connections.mem hc

/-- A loop would be a loop of the extension. -/
theorem acyclic (h : g.IsExtension g' added) (hg' : g'.Acyclic) : g.Acyclic := by
  have hfeeds : ∀ {m n}, g.Feeds m n → g'.Feeds m n := by
    rintro m n ⟨hm, hn, c, hc, hsource, htarget⟩
    exact ⟨h.mem_nodes hm, h.mem_nodes hn, c, h.mem_connections hc, hsource, htarget⟩
  intro n hcycle
  exact hg' n (hcycle.lift id fun _ _ => hfeeds)

/-- The connections into a node are the same unless the node is one of those added. -/
theorem sameIncoming (h : g.IsExtension g' added) {node : String}
    (hnode : node ∉ added.map (·.name)) : g.SameIncoming g' node := by
  intro socket
  refine h.connections.find?_eq fun c hc => ?_
  obtain ⟨n, hn, htarget⟩ := hc
  rw [beq_eq_false_iff_ne]
  intro heq
  rw [heq] at htarget
  exact hnode (List.mem_map.mpr ⟨n, hn, htarget.symm⟩)

/-- No added node has the name of the pseudo node for graph outputs. -/
theorem outputNode_not_mem (h : g.IsExtension g' added) (hg' : g'.Valid) :
    outputNode ∉ added.map (·.name) := by
  intro hmem
  obtain ⟨n, hn, hname⟩ := List.mem_map.mp hmem
  exact hg'.name_ne_outputNode (h.nodes ▸ List.mem_append_right g.nodes hn) hname

/-! ### Dependencies -/

/-- The nodes keep their positions. -/
theorem getElem?_nodes (h : g.IsExtension g' added) {i : Nat} (hi : i < g.nodes.length) :
    g'.nodes[i]? = g.nodes[i]? := by
  rw [h.nodes, List.getElem?_append_left hi]

/-- The nodes that were there keep their positions. -/
theorem position_eq (h : g.IsExtension g' added) (hg : g.Valid) (hg' : g'.Valid) {n : Node}
    (hn : n ∈ g.nodes) : g'.position n.name = g.position n.name := by
  obtain ⟨i, hi⟩ := exists_position hg.names hn
  obtain ⟨m, hm, hname⟩ := (position_eq_ok hg.names).mp hi
  rw [hi, position_eq_ok hg'.names]
  refine ⟨m, ?_, hname⟩
  rwa [h.getElem?_nodes (List.getElem?_eq_some_iff.mp hm).1]

/-- A connection between nodes is the same dependency in the extension. -/
theorem dependency_eq (h : g.IsExtension g' added) (hg : g.Valid) (hg' : g'.Valid) {c : Connection}
    (hc : c ∈ g.connections.filter isInner) : g'.dependency c = g.dependency c := by
  obtain ⟨hc, hinner⟩ := List.mem_filter.mp hc
  simp only [isInner, Bool.and_eq_true, bne_iff_ne] at hinner
  obtain ⟨m, hm, _, _, hsource⟩ := hg.exists_source hc hinner.1
  obtain ⟨n, hn, _, _, htarget⟩ := hg.exists_target hc hinner.2
  rw [dependency, dependency, hsource, htarget, h.position_eq hg hg' hm, h.position_eq hg hg' hn]

/-- A connection into an added node is a dependency of an added node. -/
theorem le_target (h : g.IsExtension g' added) (hg' : g'.Valid) {c : Connection} {d : Dependency}
    (hc : ∃ n ∈ added, c.target.node = n.name) (hd : g'.dependency c = .ok d) :
    g.nodes.length ≤ d.target := by
  obtain ⟨n, hn, hname⟩ := hc
  obtain ⟨m, hm, htarget⟩ := (position_eq_ok hg'.names).mp (dependency_eq_ok.mp hd).2
  by_contra hlt
  rw [h.getElem?_nodes (Nat.lt_of_not_le hlt)] at hm
  exact h.name_ne hg' hn (List.mem_of_getElem? hm) (htarget.trans hname)

/-- The dependencies of the extension are those of the graph and further ones of added nodes. -/
theorem extends_dependencies (h : g.IsExtension g' added) (hg : g.Valid) (hg' : g'.Valid)
    {deps deps' : List Dependency} (hdeps : g.dependencies = .ok deps)
    (hdeps' : g'.dependencies = .ok deps') : Schedule.Extends g.nodes.length deps deps' := by
  refine (h.connections.filter isInner).forall₂ ?_ ?_ (mapM_eq_ok.mp hdeps) (mapM_eq_ok.mp hdeps')
  · intro c hc d d' hd hd'
    rw [h.dependency_eq hg hg' hc, hd] at hd'
    exact (Except.ok.inj hd').symm
  · exact fun c d hc hd => h.le_target hg' hc hd

/-! ### Execution orders -/

/-- The order of the smaller graph is that of the larger one without the positions of added
    nodes. -/
theorem filter_executionOrder (h : g.IsExtension g' added) (hg : g.Valid) (hg' : g'.Valid)
    {order order' : List Nat} (horder : g.executionOrder = .ok order)
    (horder' : g'.executionOrder = .ok order') :
    order'.filter (· < g.nodes.length) = order := by
  obtain ⟨deps, hdeps, -, rfl⟩ := executionOrder_eq_ok.mp horder
  obtain ⟨deps', hdeps', -, rfl⟩ := executionOrder_eq_ok.mp horder'
  have hrange : ∀ d ∈ deps, d.source < g.nodes.length ∧ d.target < g.nodes.length := by
    rintro ⟨i, j⟩ hd
    obtain ⟨m, n, hm, hn, -⟩ := (mem_dependencies hg hdeps).mp hd
    exact ⟨(List.getElem?_eq_some_iff.mp hm).1, (List.getElem?_eq_some_iff.mp hn).1⟩
  have hlength : g'.nodes.length = g.nodes.length + added.length := by
    rw [h.nodes, List.length_append]
  rw [List.filter_reverse, hlength, Schedule.filter_placed_run added.length
    (h.extends_dependencies hg hg' hdeps hdeps') hrange]

/-- Without the added nodes, an order of the extension goes through the nodes of the graph. -/
theorem filter_nodesAt (h : g.IsExtension g' added) (hg' : g'.Valid) (order' : List Nat) :
    (g'.nodesAt order').filter (fun n => n.name ∉ added.map (·.name)) =
      g.nodesAt (order'.filter (· < g.nodes.length)) := by
  unfold nodesAt
  induction order' with
  | nil => rfl
  | cons i order' ih =>
    by_cases hi : i < g.nodes.length
    · -- The position is that of a node that was there.
      have hget : g.nodes[i]? = some g.nodes[i] := List.getElem?_eq_getElem hi
      have hkeep := h.not_mem_added hg' (List.getElem_mem hi)
      rw [List.filter_cons_of_pos (by simpa using hi), List.filterMap_cons_some hget,
        List.filterMap_cons_some ((h.getElem?_nodes hi).trans hget),
        List.filter_cons_of_pos (by simpa using hkeep), ih]
    · rw [List.filter_cons_of_neg (by simpa using hi), ← ih]
      cases hget : g'.nodes[i]? with
      | none => rw [List.filterMap_cons_none hget]
      | some n =>
        rw [List.filterMap_cons_some hget, List.filter_cons_of_neg]
        rw [h.nodes, List.getElem?_append_right (Nat.le_of_not_lt hi)] at hget
        simpa using ⟨n, List.mem_of_getElem? hget, rfl⟩

end IsExtension

variable {r : Registry} {g g' : Graph} {added : List Node}

/-- **Extended graphs.** If nodes are added to a valid graph, with connections into the added nodes,
    and the larger graph compiles, then the smaller one compiles to the same program without the
    code of the added nodes. -/
theorem compile_of_isExtension (hvalid : g.validate = .ok ()) (h : g.IsExtension g' added)
    {p' : Program} (hp' : (r.compile g').result = .ok p') :
    (r.compile g).result =
      .ok { p' with nodes := p'.nodes.filter fun code => code.name ∉ added.map (·.name) } := by
  have hg := validate_eq_ok.mp hvalid
  have hg' := valid_of_compile hp'
  obtain ⟨-, _, -, hinterface, -, hbindings⟩ := Registry.compile_eq_ok.mp hp'
  obtain ⟨order', horder', hnodes⟩ := generates_of_compile hp'
  obtain ⟨order, horder⟩ :=
    (exists_executionOrder hg).mpr (h.acyclic (acyclic_of_executionOrder hg' horder'))
  refine Registry.compile_eq_ok.mpr ⟨hvalid, order, horder, ?_, ?_, ?_⟩
  · rwa [← interface_congr h.inputs h.outputs]
  · rw [← h.filter_executionOrder hg hg' horder horder', ← h.filter_nodesAt hg']
    -- A node and its code have the same name, so both are left out or neither is.
    have hkept : List.Forall₂ (g'.Generates r)
        ((g'.nodesAt order').filter fun n => n.name ∉ added.map (·.name))
        (p'.nodes.filter fun code => code.name ∉ added.map (·.name)) := by
      refine forall₂_filter ?_ hnodes
      rintro n code ⟨-, _, _, _, hshape⟩
      rw [hshape.name_eq]
    have hothers : ∀ n ∈ (g'.nodesAt order').filter (fun n => n.name ∉ added.map (·.name)),
        n.name ∉ added.map (·.name) := by
      intro n hn
      simpa using (List.mem_filter.mp hn).2
    refine ((List.forall₂_and_left _ _).mpr ⟨hothers, hkept⟩).imp ?_
    rintro n code ⟨hn, hcode⟩
    rw [← Registry.nodeCode_congr (h.sameIncoming hn)]
    exact hcode.nodeCode_eq
  · rwa [← bindings_congr h.outputs (h.sameIncoming (h.outputNode_not_mem hg'))]

/-- A node that reads the sum of `tintedColor` and is read by none. -/
def mask : Node where
  name := "mask"
  kind := "multiply"
  inputs := [⟨"input1", "vector"⟩, ⟨"input2", "float"⟩]
  outputs := [⟨"product", "vector"⟩]

/-- `tintedColor` with the node `mask`, which is placed between the other two. -/
def maskedTintedColor : Graph :=
  { tintedColor with
    nodes := tintedColor.nodes ++ [mask]
    connections :=
      ⟨⟨"mix", "sum"⟩, ⟨"mask", "input1"⟩⟩ :: ⟨⟨"subinput", "gain"⟩, ⟨"mask", "input2"⟩⟩ ::
        tintedColor.connections }

/-- The extension by `mask` is compiled to `tintedColorProgram` with the code of `mask` between the
    others. -/
theorem compile_of_isExtension_mask :
    tintedColor.IsExtension maskedTintedColor [mask] ∧
      ∃ p', (Registry.builtin.compile maskedTintedColor).result = .ok p' ∧
        p'.nodes.map (·.name) = ["mix", "mask", "scale"] ∧
        (Registry.builtin.compile tintedColor).result =
          .ok { p' with nodes := p'.nodes.filter fun code => code.name ∉ ["mask"] } := by
  have hextension : tintedColor.IsExtension maskedTintedColor [mask] :=
    { inputs := rfl
      outputs := rfl
      nodes := rfl
      connections := .insert _ ⟨mask, List.mem_cons_self, rfl⟩ <|
        .insert _ ⟨mask, List.mem_cons_self, rfl⟩ (.refl _) }
  have hnames : (Registry.builtin.compile maskedTintedColor).result.map
      (fun p' => p'.nodes.map (·.name)) = .ok ["mix", "mask", "scale"] := by
    decide +kernel
  obtain ⟨p', hp', hnames⟩ := map_eq_ok.mp hnames
  exact ⟨hextension, p', hp', hnames, compile_of_isExtension (by decide +kernel) hextension hp'⟩

end Graph

end ShaderGraph
