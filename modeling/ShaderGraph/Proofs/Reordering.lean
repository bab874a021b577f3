import ShaderGraph.Proofs.Locality

namespace ShaderGraph

/-!
# Order of declarations

The order in which a graph lists its nodes and connections matters for the order of the calls and
for nothing else.

* `Graph.IsReordering` — a graph with the same nodes and connections in another order.
* `IsReordering.valid`, `IsReordering.acyclic`, `IsReordering.sameIncoming` — checks, cycles and
  look-ups do not see the order.
* `IsReordering.perm_nodes` — the nodes of the programs are the same up to their order.
-/

namespace Graph

/-- The second graph lists the nodes and connections of the first one in another order. -/
structure IsReordering (g g' : Graph) : Prop where
  inputs : g'.inputs = g.inputs
  outputs : g'.outputs = g.outputs
  nodes : g'.nodes.Perm g.nodes
  connections : g'.connections.Perm g.connections

namespace IsReordering

variable {r : Registry} {g g' : Graph}

/-- The first order is one of the second graph. -/
theorem symm (h : g.IsReordering g') : g'.IsReordering g where
  inputs := h.inputs.symm
  outputs := h.outputs.symm
  nodes := h.nodes.symm
  connections := h.connections.symm

/-! ### Checks -/

/-- What may be read may be read still. -/
theorem isSource (h : g.IsReordering g') {e : Endpoint} (he : g.IsSource e) : g'.IsSource e := by
  rw [isSource_iff] at he ⊢
  simpa only [h.inputs, h.nodes.mem_iff] using he

/-- What may be written may be written still. -/
theorem isTarget (h : g.IsReordering g') {e : Endpoint} (he : g.IsTarget e) : g'.IsTarget e := by
  rw [isTarget_iff] at he ⊢
  simpa only [h.outputs, h.nodes.mem_iff] using he

/-- The variables of the entry function are the same in another order. -/
theorem entryVariables_perm (h : g.IsReordering g') : g'.entryVariables.Perm g.entryVariables := by
  have hinterface : g'.interfaceVariables = g.interfaceVariables := by
    rw [interfaceVariables, interfaceVariables, h.inputs, h.outputs]
  rw [entryVariables, entryVariables, hinterface]
  exact (h.nodes.flatMap_right _).append_left _

/-- A valid graph is valid in any order. -/
theorem valid (h : g.IsReordering g') (hg : g.Valid) : g'.Valid where
  names := (h.nodes.map _).nodup_iff.mpr hg.names
  unreserved n hn := hg.unreserved n (h.nodes.mem_iff.mp hn)
  functions := (h.nodes.map _).nodup_iff.mpr hg.functions
  entry := h.entryVariables_perm.nodup_iff.mpr hg.entry
  parameters n hn := hg.parameters n (h.nodes.mem_iff.mp hn)
  sources c hc := h.isSource (hg.sources c (h.connections.mem_iff.mp hc))
  targets c hc := h.isTarget (hg.targets c (h.connections.mem_iff.mp hc))
  fanIn := (h.connections.map _).nodup_iff.mpr hg.fanIn

/-! ### Cycles and look-ups -/

/-- The same nodes feed each other. -/
theorem feeds (h : g.IsReordering g') : g'.Feeds = g.Feeds := by
  funext m n
  simp only [Feeds, h.nodes.mem_iff, h.connections.mem_iff]

/-- No loop comes about. -/
theorem acyclic (h : g.IsReordering g') (hg : g.Acyclic) : g'.Acyclic := by
  unfold Acyclic at hg ⊢
  rwa [h.feeds]

/-- Each input has one connection at most, so the first one does not depend on the order. -/
theorem sameIncoming (h : g.IsReordering g') (hg : g.Valid) (node : String) :
    g.SameIncoming g' node := by
  intro socket
  ext c
  rw [(h.valid hg).incoming?_eq_some, hg.incoming?_eq_some, h.connections.mem_iff]

/-- The code of a node is the same. -/
theorem nodeCode_eq (h : g.IsReordering g') (hg : g.Valid) (n : Node) :
    (r.nodeCode g' n).result = (r.nodeCode g n).result :=
  Registry.nodeCode_congr (h.sameIncoming hg n.name)

/-! ### Programs -/

/-- A graph that is compiled is compiled in any order. -/
theorem exists_compile (h : g.IsReordering g') (hp : ∃ p, (r.compile g).result = .ok p) :
    ∃ p', (r.compile g').result = .ok p' := by
  rw [Registry.exists_compile_iff_exists_parts] at hp ⊢
  obtain ⟨hg, hacyclic, hinterface, hnodes, hbindings⟩ := hp
  refine ⟨h.valid hg, h.acyclic hacyclic, ?_, ?_, ?_⟩
  · rwa [interface_congr h.inputs h.outputs]
  · intro n hn
    rw [h.nodeCode_eq hg]
    exact hnodes n (h.nodes.mem_iff.mp hn)
  · rwa [bindings_congr h.outputs (h.sameIncoming hg outputNode)]

variable {p p' : Program}

/-- The programs have the same nodes, perhaps in another order. -/
theorem perm_nodes (h : g.IsReordering g') (hp : (r.compile g).result = .ok p)
    (hp' : (r.compile g').result = .ok p') : p'.nodes.Perm p.nodes := by
  obtain ⟨order, horder, hcodes⟩ := map_ok_of_compile hp
  obtain ⟨order', horder', hcodes'⟩ := map_ok_of_compile hp'
  have hnodes : (g'.nodesAt order').Perm (g.nodesAt order) :=
    ((nodesAt_perm horder').trans h.nodes).trans (nodesAt_perm horder).symm
  have hcode : (fun n => (r.nodeCode g' n).result) = fun n => (r.nodeCode g n).result := by
    funext n
    exact h.nodeCode_eq (valid_of_compile hp) n
  -- Both lists are the images of the nodes under the same function.
  have hok : (p'.nodes.map Except.ok).Perm (p.nodes.map (Except.ok (ε := Error))) := by
    rw [← hcodes, ← hcodes', hcode]
    exact hnodes.map _
  exact (List.map_perm_map_iff fun _ _ => Except.ok.inj).mp hok

/-- Names tell the nodes of a program apart, so a name finds the same code in both programs. -/
theorem code_eq (h : g.IsReordering g') (hp : (r.compile g).result = .ok p)
    (hp' : (r.compile g').result = .ok p') {code code' : NodeCode} (hcode : code ∈ p.nodes)
    (hcode' : code' ∈ p'.nodes) (hname : code'.name = code.name) : code' = code :=
  List.inj_on_of_nodup_map (nodup_name_of_compile hp)
    ((h.perm_nodes hp hp').mem_iff.mp hcode') hcode
    hname

end IsReordering

/-- **Order of declarations.** A graph whose nodes and connections are listed in another order is
    checked and compiled with the same success, and to the same program but for the order of the
    nodes. -/
theorem compile_of_isReordering (r : Registry) {g g' : Graph} (h : g.IsReordering g') :
    (g'.validate = .ok () ↔ g.validate = .ok ()) ∧
    ((∃ p', (r.compile g').result = .ok p') ↔ ∃ p, (r.compile g).result = .ok p) ∧
    ∀ p p', (r.compile g).result = .ok p → (r.compile g').result = .ok p' →
      p'.parameters = p.parameters ∧ p'.bindings = p.bindings ∧ p'.nodes.Perm p.nodes ∧
        ∀ code ∈ p.nodes, ∀ code' ∈ p'.nodes, code'.name = code.name → code' = code := by
  refine ⟨?_, ⟨h.symm.exists_compile, h.exists_compile⟩, ?_⟩
  · rw [validate_eq_ok, validate_eq_ok]
    exact ⟨h.symm.valid, h.valid⟩
  · intro p p' hp hp'
    obtain ⟨-, _, -, hinterface, -, hbindings⟩ := Registry.compile_eq_ok.mp hp
    obtain ⟨-, _, -, hinterface', -, hbindings'⟩ := Registry.compile_eq_ok.mp hp'
    rw [interface_congr h.inputs h.outputs, hinterface] at hinterface'
    rw [bindings_congr h.outputs (h.sameIncoming (valid_of_compile hp) outputNode),
      hbindings] at hbindings'
    refine ⟨(Except.ok.inj hinterface').symm, (Except.ok.inj hbindings').symm, h.perm_nodes hp hp',
      ?_⟩
    intro code hcode code' hcode' hname
    exact h.code_eq hp hp' hcode hcode' hname

/-- `tintedColor` with its nodes and connections listed from the last one back. -/
def reversedTintedColor : Graph :=
  { tintedColor with
    nodes := tintedColor.nodes.reverse
    connections := tintedColor.connections.reverse }

/-- The reversed graph has the same bindings and the same nodes in another order. -/
theorem compile_reversedTintedColor :
    tintedColor.IsReordering reversedTintedColor ∧
      ∃ p, (Registry.builtin.compile reversedTintedColor).result = .ok p ∧
        p.bindings = tintedColorProgram.bindings ∧ p.nodes.Perm tintedColorProgram.nodes := by
  have hreordering : tintedColor.IsReordering reversedTintedColor :=
    { inputs := rfl
      outputs := rfl
      nodes := List.reverse_perm _
      connections := List.reverse_perm _ }
  obtain ⟨-, hexists, hprograms⟩ := compile_of_isReordering Registry.builtin hreordering
  obtain ⟨p, hp⟩ := hexists.mpr ⟨_, compile_tintedColor⟩
  obtain ⟨-, hbindings, hnodes, -⟩ := hprograms _ _ compile_tintedColor hp
  exact ⟨hreordering, p, hp, hbindings, hnodes⟩

end Graph

end ShaderGraph
