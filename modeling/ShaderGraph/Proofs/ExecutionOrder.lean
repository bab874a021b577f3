import ShaderGraph.Proofs.DependencyOrder
import ShaderGraph.Proofs.Validity

namespace ShaderGraph.Graph

/-!
# Execution orders

On a valid graph the execution order exists unless nodes feed each other in a circle, and it puts
every node after those that feed it.

* `Feeds`, `Acyclic` — the connections as a relation on nodes.
* `nodesAt_perm` — an execution order has every node once.
* `Feeds.mem_before` — what feeds a node comes before it.
* `exists_executionOrder` — there is an execution order if and only if the graph is acyclic.
-/

variable {g : Graph} {order : List Nat}

/-- Some connection goes from the node `m` to the node `n`. -/
def Feeds (g : Graph) (m n : Node) : Prop :=
  m ∈ g.nodes ∧ n ∈ g.nodes ∧
    ∃ c ∈ g.connections, c.source.node = m.name ∧ c.target.node = n.name

/-- No node feeds itself, be it through others. -/
def Acyclic (g : Graph) : Prop := ∀ n, ¬ Relation.TransGen g.Feeds n n

/-! ### Dependencies -/

/-- With distinct names, a name stands for the node that has it. -/
theorem position_eq_ok (hnames : (g.nodes.map (·.name)).Nodup) {name : String} {i : Nat} :
    g.position name = .ok i ↔ ∃ n, g.nodes[i]? = some n ∧ n.name = name := by
  rw [position_eq_ok_iff]
  refine ⟨?_, ?_⟩
  · rintro ⟨before, n, after, hnodes, rfl, hname, -⟩
    exact ⟨n, by simp [hnodes], hname⟩
  · rintro ⟨n, hn, hname⟩
    have hsplit := eq_take_append_cons_drop hn
    have hi := (List.getElem?_eq_some_iff.mp hn).1
    refine ⟨_, _, _, hsplit, List.length_take_of_le hi.le, hname, fun m hm hm' => ?_⟩
    rw [hsplit, List.map_append, List.map_cons, List.nodup_append, List.nodup_cons] at hnames
    exact hnames.2.1.1 (List.mem_map.mpr ⟨m, hm, hm'.trans hname.symm⟩)

/-- Each node has a position by its name. -/
theorem exists_position (hnames : (g.nodes.map (·.name)).Nodup) {n : Node} (hn : n ∈ g.nodes) :
    ∃ i, g.position n.name = .ok i := by
  obtain ⟨i, hi⟩ := List.mem_iff_getElem?.mp hn
  exact ⟨i, (position_eq_ok hnames).mpr ⟨n, hi, rfl⟩⟩

/-- The connections of a valid graph name no missing node. -/
theorem exists_dependencies (hg : g.Valid) : ∃ deps, g.dependencies = .ok deps := by
  refine exists_mapM_eq_ok.mpr fun c hc => ?_
  obtain ⟨hc, hinner⟩ := List.mem_filter.mp hc
  simp only [isInner, Bool.and_eq_true, bne_iff_ne] at hinner
  obtain ⟨m, hm, _, _, hsource⟩ := hg.exists_source hc hinner.1
  obtain ⟨n, hn, _, _, htarget⟩ := hg.exists_target hc hinner.2
  obtain ⟨i, hi⟩ := exists_position hg.names hm
  obtain ⟨j, hj⟩ := exists_position hg.names hn
  exact ⟨⟨i, j⟩, dependency_eq_ok.mpr ⟨by rw [hsource, hi], by rw [htarget, hj]⟩⟩

/-- The connections between nodes of a valid graph are its dependencies. -/
theorem mem_dependencies (hg : g.Valid) {deps : List Dependency} (h : g.dependencies = .ok deps)
    {i j : Nat} :
    (⟨i, j⟩ : Dependency) ∈ deps ↔
      ∃ m n, g.nodes[i]? = some m ∧ g.nodes[j]? = some n ∧ g.Feeds m n := by
  rw [dependencies] at h
  rw [mem_of_mapM_eq_ok h]
  simp only [dependency_eq_ok, position_eq_ok hg.names]
  refine ⟨?_, ?_⟩
  · rintro ⟨c, hc, ⟨m, hm, hsource⟩, ⟨n, hn, htarget⟩⟩
    exact ⟨m, n, hm, hn, List.mem_of_getElem? hm, List.mem_of_getElem? hn, c,
      (List.mem_filter.mp hc).1, hsource.symm, htarget.symm⟩
  · rintro ⟨m, n, hm, hn, hmem, hnem, c, hc, hsource, htarget⟩
    have hinner : isInner c := by
      simp [isInner, hsource, htarget, hg.name_ne_inputNode hmem, hg.name_ne_outputNode hnem]
    exact ⟨c, List.mem_filter.mpr ⟨hc, hinner⟩, ⟨m, hm, hsource.symm⟩, ⟨n, hn, htarget.symm⟩⟩

/-! ### Orders -/

/-- All positions in order give all nodes in order. -/
theorem nodesAt_range (g : Graph) : g.nodesAt (List.range g.nodes.length) = g.nodes := by
  have hmap : (List.range g.nodes.length).map (g.nodes[·]?) = g.nodes.map some := by
    apply List.ext_getElem <;> simp
  calc (List.range g.nodes.length).filterMap (g.nodes[·]?)
      = ((List.range g.nodes.length).map (g.nodes[·]?)).filterMap id := by
        rw [List.filterMap_map]; rfl
    _ = g.nodes := by rw [hmap, List.filterMap_map, Function.id_comp, List.filterMap_some]

/-- An execution order has every node once. -/
theorem nodesAt_perm (h : g.executionOrder = .ok order) : (g.nodesAt order).Perm g.nodes := by
  have hnodes := (perm_of_executionOrder h).filterMap (g.nodes[·]?)
  rwa [show (List.range _).filterMap (g.nodes[·]?) = g.nodes from nodesAt_range g] at hnodes

/-- An order of execution goes through the nodes of the graph. -/
theorem mem_nodesAt (h : g.executionOrder = .ok order) {n : Node} :
    n ∈ g.nodesAt order ↔ n ∈ g.nodes :=
  (nodesAt_perm h).mem_iff

/-- What feeds a node comes before it. -/
theorem Feeds.mem_before (hg : g.Valid) (h : g.executionOrder = .ok order)
    {before after : List Node}
    {m n : Node} (hsplit : g.nodesAt order = before ++ n :: after) (hfeeds : g.Feeds m n) :
    m ∈ before := by
  obtain ⟨deps, hdeps, hlength, rfl⟩ := executionOrder_eq_ok.mp h
  have hsettled := ((Schedule.consistent_start g.nodes.length deps).run g.nodes.length).settled
  obtain ⟨front, back, hfront, rfl, hback⟩ := List.filterMap_eq_append_iff.mp hsplit
  obtain ⟨skipped, j, rest, rfl, hskipped, hj, rfl⟩ := List.filterMap_eq_cons_iff.mp hback
  obtain ⟨i, hi⟩ := List.mem_iff_getElem?.mp hfeeds.1
  have hdep : (⟨i, j⟩ : Dependency) ∈ deps :=
    (mem_dependencies hg hdeps).mpr ⟨m, n, hi, hj, hfeeds⟩
  -- The placement lists nodes from the last one back, so `i` is further down than `j`.
  have hplaced := congrArg List.reverse hfront
  simp only [List.reverse_reverse, List.reverse_append, List.reverse_cons, List.append_assoc,
    List.cons_append, List.nil_append] at hplaced
  rw [hplaced] at hsettled
  have hmem := hsettled.mem_of_append hdep rfl
  rw [List.mem_append, List.mem_reverse, List.mem_reverse] at hmem
  rcases hmem with hmem | hmem
  · exact absurd (hskipped i hmem) (by simp [hi])
  · exact List.mem_filterMap.mpr ⟨i, hmem, hi⟩

/-- Along connections, nodes come strictly earlier. -/
theorem mem_before_of_transGen (hg : g.Valid) (h : g.executionOrder = .ok order) {m n : Node}
    (hpath : Relation.TransGen g.Feeds m n) {before after : List Node}
    (hsplit : g.nodesAt order = before ++ n :: after) : m ∈ before := by
  induction hpath generalizing before after with
  | single hfeeds => exact hfeeds.mem_before hg h hsplit
  | tail _ hfeeds ih =>
    obtain ⟨front, back, rfl⟩ := List.append_of_mem (hfeeds.mem_before hg h hsplit)
    exact List.mem_append_left _ (ih (by simpa using hsplit))

/-- A valid graph with an order of execution has no cycle. -/
theorem acyclic_of_executionOrder (hg : g.Valid) (h : g.executionOrder = .ok order) :
    g.Acyclic := by
  intro n hpath
  have hn : n ∈ g.nodesAt order := by
    obtain ⟨m, -, hfeeds⟩ := Relation.TransGen.tail'_iff.mp hpath
    exact (mem_nodesAt h).mpr hfeeds.2.1
  obtain ⟨before, after, hsplit⟩ := List.append_of_mem hn
  have hnodup : (g.nodesAt order).Nodup :=
    (nodesAt_perm h).nodup_iff.mpr (List.Nodup.of_map _ hg.names)
  have hearlier := mem_before_of_transGen hg h hpath hsplit
  -- The node would come before itself.
  rw [hsplit, List.nodup_append] at hnodup
  exact hnodup.2.2 n hearlier n List.mem_cons_self rfl

/-- A valid graph has an execution order if and only if it is acyclic. -/
theorem exists_executionOrder (hg : g.Valid) :
    (∃ order, g.executionOrder = .ok order) ↔ g.Acyclic := by
  refine ⟨?_, ?_⟩
  · rintro ⟨order, h⟩
    exact acyclic_of_executionOrder hg h
  · intro hacyclic
    obtain ⟨deps, hdeps⟩ := exists_dependencies hg
    -- A cycle of positions would be a cycle of nodes.
    have hedge : ∀ {i j : Fin g.nodes.length}, Schedule.Edge deps g.nodes.length i j →
        g.Feeds g.nodes[i] g.nodes[j] := by
      rintro i j ⟨⟨_, _⟩, hd, rfl, rfl⟩
      obtain ⟨m, n, hm, hn, hfeeds⟩ := (mem_dependencies hg hdeps).mp hd
      simp_all
    have hrange : ∀ d ∈ deps, d.source < g.nodes.length := by
      rintro ⟨i, j⟩ hd
      obtain ⟨m, n, hm, -⟩ := (mem_dependencies hg hdeps).mp hd
      exact (List.getElem?_eq_some_iff.mp hm).1
    have hlength := Schedule.length_placed_run_start hrange fun i hpath =>
      hacyclic g.nodes[i] (hpath.lift (fun i : Fin g.nodes.length => g.nodes[i]) fun _ _ => hedge)
    exact ⟨_, executionOrder_eq_ok.mpr ⟨deps, hdeps, hlength, rfl⟩⟩

end ShaderGraph.Graph
