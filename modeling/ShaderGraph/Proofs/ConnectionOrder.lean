import ShaderGraph.Proofs.TieBreaking
import ShaderGraph.Proofs.Validity

namespace ShaderGraph

/-!
# Order of connections

What a change of the order in which a graph lists its connections does to the execution order.

* `Schedule.run_congr`, `Schedule.start_of_perm` — a placement depends on the readers of each node
  in their order, and on how many dependencies each node has.
* `Graph.withConnections` — a graph with other connections; the facts below are about connections
  that are listed in another order.
* `Graph.readers_eq` — the connections out of a node tell its readers.
* `Graph.executionOrder_of_perm` — nodes are exchanged at equal depths only, and not at all if the
  connections out of each node keep their order.
* `Graph.not_executionOrder_eq_of_perm` — otherwise they may be exchanged.
-/

namespace Schedule

variable {deps deps' : List Dependency}

/-- A run depends on the readers of each node, not on the order of all dependencies. -/
theorem run_congr (h : ∀ i, readers deps' i = readers deps i) (steps : Nat) (s : Schedule) :
    run deps' steps s = run deps steps s := by
  induction steps generalizing s with
  | zero => rfl
  | succ steps ih =>
    rw [run, run]
    split
    · rfl
    · rw [ih, place, place, h]

/-- The start depends on how many dependencies each node has. -/
theorem start_of_perm (h : deps'.Perm deps) (size : Nat) : start size deps' = start size deps := by
  have hpending : (start size deps').pending = (start size deps).pending := by
    refine Array.ext_getElem? fun i => ?_
    simp only [start, getElem?_foldl_modify, h.countP_eq]
  unfold start at hpending ⊢
  simp only at hpending
  rw [hpending]

end Schedule

namespace Graph

variable {g : Graph} {connections : List Connection} {deps deps' : List Dependency}
  {order order' : List Nat} {i j d : Nat}

/-- The graph with other connections. -/
def withConnections (g : Graph) (connections : List Connection) : Graph := { g with connections }

/-! ### What stays -/

/-- The links of a graph are those of its connections in any order. -/
theorem links_of_perm (hperm : connections.Perm g.connections) :
    (g.withConnections connections).Links i j ↔ g.Links i j :=
  exists_congr fun _ => and_congr_left fun _ => hperm.mem_iff

/-- So are the nodes without a link to them. -/
theorem isEntry_of_perm (hperm : connections.Perm g.connections) :
    (g.withConnections connections).IsEntry i ↔ g.IsEntry i :=
  forall_congr' fun _ => not_congr (links_of_perm hperm)

/-- Whether a connection names an unknown node does not depend on the order. -/
theorem firstUnknown?_of_perm (hperm : connections.Perm g.connections) :
    (g.withConnections connections).firstUnknown? = none ↔ g.firstUnknown? = none := by
  have hmentioned : (g.withConnections connections).mentioned.Perm g.mentioned :=
    (hperm.filter _).flatMap_right _
  simp only [firstUnknown?, List.find?_eq_none, hmentioned.mem_iff]
  rfl

/-- Whether there is an order of execution does not depend on the order of connections. -/
theorem exists_executionOrder_of_perm (hperm : connections.Perm g.connections) :
    (∃ order', (g.withConnections connections).executionOrder = .ok order') ↔
      ∃ order, g.executionOrder = .ok order := by
  have hlinks : (g.withConnections connections).Links = g.Links :=
    funext fun _ => funext fun _ => propext (links_of_perm hperm)
  rw [exists_executionOrder_iff, exists_executionOrder_iff, firstUnknown?_of_perm hperm, LoopFree,
    LoopFree, hlinks]

/-- Connections in another order have their dependencies in another order. -/
theorem dependencies_perm (hperm : connections.Perm g.connections)
    (hdeps : g.dependencies = .ok deps)
    (hdeps' : (g.withConnections connections).dependencies = .ok deps') : deps'.Perm deps := by
  have hmap := map_eq_of_forall₂ (mapM_eq_ok.mp hdeps)
  have hmap' := map_eq_of_forall₂ (mapM_eq_ok.mp hdeps')
  -- Both lists are the images of the connections under the same function.
  have hok : (deps'.map Except.ok).Perm (deps.map (Except.ok (ε := Error))) := by
    rw [← hmap, ← hmap']
    exact (hperm.filter _).map _
  exact (List.map_perm_map_iff fun _ _ => Except.ok.inj).mp hok

/-! ### Depths -/

/-- A path stays a path. -/
theorem pathTo_of_perm (hperm : connections.Perm g.connections) (h : g.PathTo d i) :
    (g.withConnections connections).PathTo d i := by
  induction h with
  | start hi => exact .start hi
  | step _ hlinks ih => exact .step ih ((links_of_perm hperm).mpr hlinks)

/-- Depths stay the same. -/
theorem isDepth_of_perm (hperm : connections.Perm g.connections) :
    (g.withConnections connections).IsDepth i d ↔ g.IsDepth i d := by
  have hpath : {e | (g.withConnections connections).PathTo e i} = {e | g.PathTo e i} :=
    Set.ext fun e => ⟨pathTo_of_perm hperm.symm, pathTo_of_perm hperm⟩
  rw [IsDepth, IsDepth, hpath]

/-- The depths along an order are sorted. -/
theorem pairwise_depth (h : g.executionOrder = .ok order) {depth : Nat → Nat}
    (hdepth : ∀ i ∈ order, g.IsDepth i (depth i)) : (order.map depth).Pairwise (· ≤ ·) := by
  refine List.pairwise_map.mpr ?_
  refine (pairwise_idxOf_lt (nodup_of_executionOrder h)).imp_of_mem fun hi hj hlt => ?_
  exact (hdepth _ hi).le_of_idxOf_lt h (hdepth _ hj) hj hlt

/-- At each place, two orders have nodes of the same depth. -/
theorem forall₂_isDepth (hperm : connections.Perm g.connections) (h : g.executionOrder = .ok order)
    (h' : (g.withConnections connections).executionOrder = .ok order') :
    List.Forall₂ (fun i j => ∃ d, g.IsDepth i d ∧ g.IsDepth j d) order order' := by
  have horders : order'.Perm order :=
    (perm_of_executionOrder h').trans (perm_of_executionOrder h).symm
  have hexists : ∀ i, ∃ d, i ∈ order → g.IsDepth i d := by
    intro i
    by_cases hi : i ∈ order
    · obtain ⟨d, hd⟩ := exists_isDepth h ((mem_of_executionOrder h).mp hi)
      exact ⟨d, fun _ => hd⟩
    · exact ⟨0, fun hi' => absurd hi' hi⟩
  choose depth hdepth using hexists
  have hsorted := pairwise_depth h hdepth
  have hsorted' := pairwise_depth h' fun i hi =>
    (isDepth_of_perm hperm).mpr (hdepth i (horders.mem_iff.mp hi))
  have hequal : order.map depth = order'.map depth :=
    (horders.symm.map depth).eq_of_pairwise (fun _ _ _ _ => le_antisymm) hsorted hsorted'
  rw [← List.forall₂_eq_eq_eq, List.forall₂_map_left_iff, List.forall₂_map_right_iff,
    List.forall₂_iff_zip] at hequal
  refine List.forall₂_iff_zip.mpr ⟨hequal.1, fun {i j} hij => ⟨depth i, hdepth i ?_, ?_⟩⟩
  · exact (List.of_mem_zip hij).1
  · rw [hequal.2 hij]
    exact hdepth j (horders.mem_iff.mp (List.of_mem_zip hij).2)

/-! ### Connections out of a node -/

/-- A position has one name. -/
theorem StandsFor.name_unique {name name' : String} (h : g.StandsFor name i)
    (h' : g.StandsFor name' i) : name = name' := by
  obtain ⟨before, n, after, hnodes, hi, rfl, -⟩ := h
  obtain ⟨before', n', after', hnodes', hi', rfl, -⟩ := h'
  have hsplit := (hnodes.symm.trans hnodes')
  have hn := (List.append_inj hsplit (hi.trans hi'.symm)).2
  rw [(List.cons.inj hn).1]

/-- The dependencies on a node are the connections out of the name that stands for it. -/
theorem filter_dependencies {name : String} (hdeps : g.dependencies = .ok deps)
    (hname : g.StandsFor name i) :
    List.Forall₂ (fun c d => g.Joins c d.source d.target)
      ((g.connections.filter (·.source.node == name)).filter isInner)
      (deps.filter (·.source == i)) := by
  rw [List.filter_comm]
  refine forall₂_filter (fun c d hjoins => ?_) (joins_of_dependencies hdeps)
  rw [Bool.eq_iff_iff, beq_iff_eq, beq_iff_eq]
  constructor
  · rintro rfl
    exact hjoins.2.1.unique hname
  · rintro rfl
    exact hjoins.2.1.name_unique hname

/-- Nothing reads from a position that no name stands for. -/
theorem filter_dependencies_eq_nil (hdeps : g.dependencies = .ok deps)
    (hnone : ∀ name, ¬ g.StandsFor name i) : deps.filter (·.source == i) = [] := by
  refine List.filter_eq_nil_iff.mpr fun d hd => ?_
  obtain ⟨c, -, hjoins⟩ := exists_of_mem_right (joins_of_dependencies hdeps) hd
  rw [beq_iff_eq]
  rintro rfl
  exact hnone _ hjoins.2.1

/-- The readers of a node depend on the connections out of it only, in their order. -/
theorem readers_eq (hdeps : g.dependencies = .ok deps)
    (hdeps' : (g.withConnections connections).dependencies = .ok deps')
    (hout : ∀ name, connections.filter (·.source.node == name) =
      g.connections.filter (·.source.node == name)) (i : Nat) :
    Schedule.readers deps' i = Schedule.readers deps i := by
  suffices hsame : deps'.filter (·.source == i) = deps.filter (·.source == i) by
    rw [Schedule.readers, Schedule.readers, hsame]
  by_cases hname : ∃ name, g.StandsFor name i
  · obtain ⟨name, hname⟩ := hname
    have hfilter := filter_dependencies hdeps hname
    have hfilter' := filter_dependencies hdeps' hname
    rw [← hout name] at hfilter
    refine List.right_unique_forall₂' (fun c d d' hd hd' => ?_) hfilter' hfilter
    obtain ⟨hsource, htarget⟩ := Joins.unique (g := g) hd hd'
    rw [Dependency.mk.injEq]
    exact ⟨hsource, htarget⟩
  · have hnone : ∀ name, ¬ g.StandsFor name i := not_exists.mp hname
    rw [filter_dependencies_eq_nil hdeps hnone, filter_dependencies_eq_nil hdeps' hnone]

/-! ### The order of nodes -/

/-- Orders begin with the same nodes, those to which nothing leads. -/
theorem exists_entries_of_perm (hperm : connections.Perm g.connections)
    (h : g.executionOrder = .ok order)
    (h' : (g.withConnections connections).executionOrder = .ok order') :
    ∃ entries others others', order = entries ++ others ∧ order' = entries ++ others' ∧
      ∀ i, i ∈ entries ↔ i < g.nodes.length ∧ g.IsEntry i := by
  obtain ⟨deps, hdeps, -⟩ := executionOrder_eq_ok.mp h
  obtain ⟨deps', hdeps', -⟩ := executionOrder_eq_ok.mp h'
  obtain ⟨entries, others, horder, hsorted, hentries, -⟩ := exists_entries hdeps h
  obtain ⟨entries', others', horder', hsorted', hentries', -⟩ := exists_entries hdeps' h'
  have hsame : ∀ i, i ∈ entries' ↔ i ∈ entries := fun i => by
    rw [hentries, hentries', isEntry_of_perm hperm]
    rfl
  -- Both lists are sorted, so they are equal if they have the same elements.
  have hperm' : entries'.Perm entries := (List.perm_ext_iff_of_nodup
    (hsorted'.imp Nat.ne_of_lt) (hsorted.imp Nat.ne_of_lt)).mpr hsame
  obtain rfl : entries' = entries := hperm'.eq_of_pairwise
    (fun _ _ _ _ hij hji => absurd hji (Nat.lt_asymm hij)) hsorted' hsorted
  exact ⟨entries', others, others', horder, horder', hentries⟩

/-- The order does not change while the connections out of each node keep theirs. -/
theorem executionOrder_eq_of_out (hperm : connections.Perm g.connections)
    (h : g.executionOrder = .ok order)
    (h' : (g.withConnections connections).executionOrder = .ok order')
    (hout : ∀ name, connections.filter (·.source.node == name) =
      g.connections.filter (·.source.node == name)) : order' = order := by
  obtain ⟨deps, hdeps, -, rfl⟩ := executionOrder_eq_ok.mp h
  obtain ⟨deps', hdeps', -, rfl⟩ := executionOrder_eq_ok.mp h'
  have hstart := Schedule.start_of_perm (dependencies_perm hperm hdeps hdeps') g.nodes.length
  have hrun := Schedule.run_congr (readers_eq hdeps hdeps' hout) g.nodes.length
    (Schedule.start g.nodes.length deps)
  show ((Schedule.start g.nodes.length deps').run deps' g.nodes.length).placed.reverse = _
  rw [hstart, hrun]

/-- **Order of connections.** A graph has an execution order however its connections are listed. All
    its orders begin with the same nodes, those to which nothing leads, and have nodes of the same
    depth at each place. If the connections out of each node keep their order, the orders are
    equal. -/
theorem executionOrder_of_perm (hperm : connections.Perm g.connections) :
    ((∃ order', (g.withConnections connections).executionOrder = .ok order') ↔
        ∃ order, g.executionOrder = .ok order) ∧
      ∀ order order', g.executionOrder = .ok order →
        (g.withConnections connections).executionOrder = .ok order' →
        order'.Perm order ∧
        (∃ entries others others', order = entries ++ others ∧ order' = entries ++ others' ∧
          ∀ i, i ∈ entries ↔ i < g.nodes.length ∧ g.IsEntry i) ∧
        List.Forall₂ (fun i j => ∃ d, g.IsDepth i d ∧ g.IsDepth j d) order order' ∧
        ((∀ name, connections.filter (·.source.node == name) =
            g.connections.filter (·.source.node == name)) → order' = order) := by
  refine ⟨exists_executionOrder_of_perm hperm, fun order order' h h' => ⟨?_, ?_, ?_, ?_⟩⟩
  · exact (perm_of_executionOrder h').trans (perm_of_executionOrder h).symm
  · exact exists_entries_of_perm hperm h h'
  · exact forall₂_isDepth hperm h h'
  · exact executionOrder_eq_of_out hperm h h'

/-- A node `a` that feeds `b` and `c`. -/
def fan : Graph where
  inputs := [⟨"x", "float"⟩]
  outputs := [⟨"left", "float"⟩, ⟨"right", "float"⟩]
  nodes := ["a", "b", "c"].map fun name =>
    { name, kind := "add", inputs := [⟨"input1", "float"⟩], outputs := [⟨"sum", "float"⟩] }
  connections := [
    ⟨⟨"subinput", "x"⟩, ⟨"a", "input1"⟩⟩,
    ⟨⟨"a", "sum"⟩, ⟨"b", "input1"⟩⟩,
    ⟨⟨"a", "sum"⟩, ⟨"c", "input1"⟩⟩,
    ⟨⟨"b", "sum"⟩, ⟨"suboutput", "left"⟩⟩,
    ⟨⟨"c", "sum"⟩, ⟨"suboutput", "right"⟩⟩]

/-- The connections of `fan` in another order, with the one into `c` before the one into `b`. -/
def fanConnections : List Connection := [
  ⟨⟨"subinput", "x"⟩, ⟨"a", "input1"⟩⟩,
  ⟨⟨"a", "sum"⟩, ⟨"c", "input1"⟩⟩,
  ⟨⟨"a", "sum"⟩, ⟨"b", "input1"⟩⟩,
  ⟨⟨"b", "sum"⟩, ⟨"suboutput", "left"⟩⟩,
  ⟨⟨"c", "sum"⟩, ⟨"suboutput", "right"⟩⟩]

/-- The two lists have the same connections. -/
theorem fanConnections_perm : fanConnections.Perm fan.connections :=
  .cons _ (.swap _ _ _)

/-- The first list gives the declaration order. -/
theorem executionOrder_fan : fan.executionOrder = .ok [0, 1, 2] := by
  decide +kernel

/-- The second list gives the nodes that read from one node in the order of the connections. -/
theorem executionOrder_fan_relisted :
    (fan.withConnections fanConnections).executionOrder = .ok [0, 2, 1] := by
  decide +kernel

/-- The two orders differ in nodes of one depth only. -/
theorem executionOrder_of_perm_fan :
    fanConnections.Perm fan.connections ∧ fan.executionOrder = .ok [0, 1, 2] ∧
      (fan.withConnections fanConnections).executionOrder = .ok [0, 2, 1] ∧
      List.Forall₂ (fun i j => ∃ d, fan.IsDepth i d ∧ fan.IsDepth j d) [0, 1, 2] [0, 2, 1] := by
  obtain ⟨-, horders⟩ := executionOrder_of_perm fanConnections_perm
  exact ⟨fanConnections_perm, executionOrder_fan, executionOrder_fan_relisted,
    (horders _ _ executionOrder_fan executionOrder_fan_relisted).2.2.1⟩

/-- The execution order of a valid graph is not the same however its connections are listed. -/
theorem not_executionOrder_eq_of_perm :
    ¬ ∀ (g : Graph) (connections : List Connection), g.validate = .ok () →
      connections.Perm g.connections →
      (g.withConnections connections).executionOrder = g.executionOrder := by
  intro h
  have hvalid : fan.validate = .ok () := by decide +kernel
  have heq := h fan fanConnections hvalid fanConnections_perm
  rw [executionOrder_fan, executionOrder_fan_relisted] at heq
  exact absurd heq (by decide)

end Graph

end ShaderGraph
