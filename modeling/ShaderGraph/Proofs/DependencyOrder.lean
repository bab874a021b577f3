import ShaderGraph.Proofs.Results
import ShaderGraph.Proofs.Scheduling

namespace ShaderGraph.Graph

/-!
# Orders of dependencies

What the execution order is on any graph, also one whose names repeat or stand for nothing: a
connection means the last node of a name.

* `StandsFor` — the node that a connection means by a name; `position_eq_ok_iff` says that it is
  the one that is looked up.
* `firstUnknown?` — the first name in the connections that stands for no node.
* `Joins`, `Links`, `LoopFree` — what connections say about positions.
* `Links.idxOf_lt`, `perm_of_executionOrder` — an execution order has every position once, and each
  after those that lead to it.
* `executionOrder_characterized` — when there is an execution order, and which failure there is
  otherwise.
-/

variable {g : Graph} {name : String} {i j : Nat} {c : Connection} {deps : List Dependency}
  {order : List Nat}

/-! ### Names -/

/-- The last node called `name` is at `i`. -/
def StandsFor (g : Graph) (name : String) (i : Nat) : Prop :=
  ∃ before n after, g.nodes = before ++ n :: after ∧ before.length = i ∧ n.name = name ∧
    ∀ m ∈ after, m.name ≠ name

/-- A name is looked up as the position of the last node that has it. -/
theorem lastIndex?_eq_some : g.lastIndex? name = some i ↔ g.StandsFor name i := by
  rw [lastIndex?, Option.map_eq_some_iff]
  constructor
  · rintro ⟨⟨n, k⟩, hfind, rfl⟩
    obtain ⟨hname, after, before, hsplit, hafter⟩ := List.find?_eq_some_iff_append.mp hfind
    -- The search goes backwards, so what it has passed comes after the node that it finds.
    have hindexed : g.nodes.zipIdx = before.reverse ++ (n, k) :: after.reverse := by
      rw [← List.reverse_reverse g.nodes.zipIdx, hsplit]
      simp
    have hk : k = before.length := by
      have hget : g.nodes.zipIdx[before.length]? = some (n, k) := by
        rw [hindexed, List.getElem?_append_right (by simp)]
        simp
      rw [List.getElem?_zipIdx, Option.map_eq_some_iff] at hget
      obtain ⟨_, -, hpair⟩ := hget
      simpa using (congrArg Prod.snd hpair).symm
    refine ⟨before.reverse.map Prod.fst, n, after.reverse.map Prod.fst, ?_, by simp [hk],
      by simpa using hname, ?_⟩
    · rw [← List.zipIdx_map_fst 0 g.nodes, hindexed, List.map_append, List.map_cons]
    · intro m hm
      obtain ⟨a, ha, rfl⟩ := List.mem_map.mp hm
      simpa using hafter a (List.mem_reverse.mp ha)
  · rintro ⟨before, n, after, hnodes, rfl, hname, hafter⟩
    refine ⟨(n, before.length), List.find?_eq_some_iff_append.mpr ⟨by simpa using hname,
      (after.zipIdx (before.length + 1)).reverse, before.zipIdx.reverse, ?_, ?_⟩, rfl⟩
    · simp [hnodes, List.zipIdx_append, List.zipIdx_cons]
    · intro a ha
      simpa using hafter a.1 (List.fst_mem_of_mem_zipIdx (List.mem_reverse.mp ha))

/-- The position of a name is the one that it stands for. -/
theorem position_eq_ok_iff : g.position name = .ok i ↔ g.StandsFor name i := by
  rw [← lastIndex?_eq_some, position]
  cases g.lastIndex? name <;> simp

/-- A name stands for one node at most. -/
theorem StandsFor.unique (hi : g.StandsFor name i) (hj : g.StandsFor name j) : i = j :=
  Except.ok.inj ((position_eq_ok_iff.mpr hi).symm.trans (position_eq_ok_iff.mpr hj))

/-- A name stands for a position in the graph. -/
theorem StandsFor.lt_length (h : g.StandsFor name i) : i < g.nodes.length := by
  obtain ⟨before, n, after, hnodes, rfl, -⟩ := h
  simp [hnodes]

/-- Whether some node is called `name`. -/
def isKnown (g : Graph) (name : String) : Bool := g.nodes.any (·.name == name)

/-- A name that is known has a position. -/
theorem position_of_isKnown (h : g.isKnown name = true) : ∃ i, g.position name = .ok i := by
  obtain ⟨n, hn, hname⟩ := List.any_eq_true.mp h
  have hfind : (g.nodes.zipIdx.reverse.find? (·.1.name == name)).isSome := by
    obtain ⟨k, hk⟩ := List.mem_iff_getElem?.mp hn
    exact List.find?_isSome.mpr
      ⟨(n, k), List.mem_reverse.mpr (List.mk_mem_zipIdx_iff_getElem?.mpr hk), hname⟩
  obtain ⟨a, ha⟩ := Option.isSome_iff_exists.mp hfind
  exact ⟨a.2, by rw [position, lastIndex?, ha]; rfl⟩

/-- A name that is not known has none, and is reported. -/
theorem position_of_not_isKnown (h : g.isKnown name = false) :
    g.position name = .error (.unknownNode name) := by
  cases hposition : g.position name with
  | ok i =>
    obtain ⟨before, n, after, hnodes, -, hname, -⟩ := position_eq_ok_iff.mp hposition
    simp [isKnown, hnodes, hname] at h
  | error e =>
    rw [position] at hposition
    split at hposition
    · cases hposition
    · exact hposition.symm

/-! ### Connections -/

/-- The names of nodes in the connections between nodes, in the order in which they are read. -/
def mentioned (g : Graph) : List String :=
  (g.connections.filter isInner).flatMap fun c => [c.source.node, c.target.node]

/-- The first name that stands for no node. -/
def firstUnknown? (g : Graph) : Option String := g.mentioned.find? fun name => !g.isKnown name

/-- The connection goes from the node at `i` to the node at `j`. -/
def Joins (g : Graph) (c : Connection) (i j : Nat) : Prop :=
  isInner c ∧ g.StandsFor c.source.node i ∧ g.StandsFor c.target.node j

/-- Some connection goes from the node at `i` to the node at `j`. -/
def Links (g : Graph) (i j : Nat) : Prop := ∃ c ∈ g.connections, g.Joins c i j

/-- No node leads to itself, be it through others. -/
def LoopFree (g : Graph) : Prop := ∀ i, ¬ Relation.TransGen g.Links i i

/-- A connection between nodes is a dependency between the positions of their names. -/
theorem dependency_eq_ok {d : Dependency} :
    g.dependency c = .ok d ↔
      g.position c.source.node = .ok d.source ∧ g.position c.target.node = .ok d.target := by
  simp only [dependency, bind_eq_ok, pure_eq_ok]
  refine ⟨?_, ?_⟩
  · rintro ⟨source, hsource, target, htarget, rfl⟩
    exact ⟨hsource, htarget⟩
  · rintro ⟨hsource, htarget⟩
    exact ⟨d.source, hsource, d.target, htarget, rfl⟩

/-- A connection joins one pair of positions. -/
theorem Joins.unique {i' j' : Nat} (h : g.Joins c i j) (h' : g.Joins c i' j') : i = i' ∧ j = j' :=
  ⟨h.2.1.unique h'.2.1, h.2.2.unique h'.2.2⟩

/-- Links are between positions in the graph. -/
theorem Links.lt_length (h : g.Links i j) : i < g.nodes.length ∧ j < g.nodes.length := by
  obtain ⟨c, -, -, hi, hj⟩ := h
  exact ⟨hi.lt_length, hj.lt_length⟩

/-- The dependencies are the connections between nodes, one for each. -/
theorem joins_of_dependencies (h : g.dependencies = .ok deps) :
    List.Forall₂ (fun c d => g.Joins c d.source d.target) (g.connections.filter isInner) deps := by
  have hinner : ∀ c ∈ g.connections.filter isInner, isInner c = true :=
    fun c hc => (List.mem_filter.mp hc).2
  refine ((List.forall₂_and_left _ _).mpr ⟨hinner, mapM_eq_ok.mp h⟩).imp fun c d ⟨hc, hd⟩ => ?_
  obtain ⟨hsource, htarget⟩ := dependency_eq_ok.mp hd
  exact ⟨hc, position_eq_ok_iff.mp hsource, position_eq_ok_iff.mp htarget⟩

/-- The dependencies of a graph are its links. -/
theorem mem_dependencies_iff_links (h : g.dependencies = .ok deps) :
    (⟨i, j⟩ : Dependency) ∈ deps ↔ g.Links i j := by
  have hjoins := joins_of_dependencies h
  constructor
  · intro hd
    obtain ⟨c, hc, hcd⟩ := exists_of_mem_right hjoins hd
    exact ⟨c, (List.mem_filter.mp hc).1, hcd⟩
  · rintro ⟨c, hc, hcij⟩
    obtain ⟨d, hd, hcd⟩ := exists_of_mem_left hjoins (List.mem_filter.mpr ⟨hc, hcij.1⟩)
    obtain ⟨rfl, rfl⟩ := hcd.unique hcij
    exact hd

/-- Reading the connections fails at the first name that stands for no node. -/
theorem dependencies_eq_error {e : Error} :
    g.dependencies = .error e ↔ ∃ name, g.firstUnknown? = some name ∧ e = .unknownNode name := by
  rw [dependencies, firstUnknown?, mentioned]
  induction g.connections.filter isInner with
  | nil => simp [pure, Except.pure]
  | cons c connections ih =>
    rw [List.mapM_cons, List.flatMap_cons, List.cons_append, List.cons_append, List.nil_append,
      List.find?_cons, List.find?_cons, dependency]
    cases hsource : g.isKnown c.source.node with
    | false =>
      rw [position_of_not_isKnown hsource]
      simp [error_bind, eq_comm]
    | true =>
      obtain ⟨i, hi⟩ := position_of_isKnown hsource
      cases htarget : g.isKnown c.target.node with
      | false =>
        rw [hi, position_of_not_isKnown htarget]
        simp [error_bind, eq_comm]
      | true =>
        obtain ⟨j, hj⟩ := position_of_isKnown htarget
        simp only [hi, hj, ok_bind, bind_eq_error, ih, Bool.not_true]
        simp [pure, Except.pure]

/-- A graph has dependencies unless a connection names an unknown node. -/
theorem exists_dependencies_iff : (∃ deps, g.dependencies = .ok deps) ↔ g.firstUnknown? = none := by
  cases hdeps : g.dependencies with
  | ok deps =>
    refine iff_of_true ⟨deps, rfl⟩ (Option.eq_none_iff_forall_ne_some.mpr fun name hname => ?_)
    have herror := dependencies_eq_error.mpr ⟨name, hname, rfl⟩
    rw [hdeps] at herror
    cases herror
  | error e =>
    obtain ⟨name, hname, -⟩ := dependencies_eq_error.mp hdeps
    simp [hname]

/-! ### Orders -/

/-- An execution order is a complete placement. -/
theorem executionOrder_eq_ok :
    g.executionOrder = .ok order ↔
      ∃ deps, g.dependencies = .ok deps ∧
        let final := (Schedule.start g.nodes.length deps).run deps g.nodes.length
        final.placed.length = g.nodes.length ∧ final.placed.reverse = order := by
  simp only [executionOrder, bind_eq_ok]
  refine exists_congr fun deps => and_congr_right fun _ => ?_
  split <;> simp [*]

/-- An execution order has the position of every node once. -/
theorem perm_of_executionOrder (h : g.executionOrder = .ok order) :
    order.Perm (List.range g.nodes.length) := by
  obtain ⟨deps, -, hlength, rfl⟩ := executionOrder_eq_ok.mp h
  have hperm := ((Schedule.consistent_start g.nodes.length deps).run _).placed_perm hlength
  exact (List.reverse_perm _).trans hperm

/-- No node is executed twice. -/
theorem nodup_of_executionOrder (h : g.executionOrder = .ok order) : order.Nodup :=
  (perm_of_executionOrder h).nodup_iff.mpr List.nodup_range

/-- The nodes of the graph are executed, and no others. -/
theorem mem_of_executionOrder (h : g.executionOrder = .ok order) :
    i ∈ order ↔ i < g.nodes.length := by
  rw [(perm_of_executionOrder h).mem_iff, List.mem_range]

/-- What leads to a node comes before it. -/
theorem Links.idxOf_lt (hlinks : g.Links i j) (h : g.executionOrder = .ok order) :
    order.idxOf i < order.idxOf j := by
  have hj := (mem_of_executionOrder h).mpr hlinks.lt_length.2
  have hnodup := nodup_of_executionOrder h
  obtain ⟨deps, hdeps, hlength, rfl⟩ := executionOrder_eq_ok.mp h
  have hsettled := ((Schedule.consistent_start g.nodes.length deps).run g.nodes.length).settled
  obtain ⟨after, before, hsplit⟩ := List.append_of_mem (List.mem_reverse.mp hj)
  -- The placement lists nodes from the last one back.
  rw [hsplit] at hsettled hnodup ⊢
  have hi : i ∈ before := hsettled.mem_of_append ((mem_dependencies_iff_links hdeps).mpr hlinks) rfl
  rw [List.reverse_append, List.reverse_cons, List.append_assoc] at hnodup ⊢
  have hj' : j ∉ before.reverse := fun hmem =>
    (List.nodup_append.mp hnodup).2.2 j hmem j (by simp) rfl
  rw [List.idxOf_append_of_mem (List.mem_reverse.mpr hi), List.idxOf_append_of_notMem hj']
  exact Nat.lt_add_right _ (List.idxOf_lt_length_of_mem (List.mem_reverse.mpr hi))

/-- What can be executed in an order has no loop. -/
theorem loopFree_of_executionOrder (h : g.executionOrder = .ok order) : g.LoopFree := by
  have hearlier : ∀ {i j}, Relation.TransGen g.Links i j → order.idxOf i < order.idxOf j := by
    intro i j hpath
    induction hpath with
    | single hlinks => exact hlinks.idxOf_lt h
    | tail _ hlinks ih => exact ih.trans (hlinks.idxOf_lt h)
  exact fun i hpath => Nat.lt_irrefl _ (hearlier hpath)

/-- Without a loop there is an order. -/
theorem exists_executionOrder_of_loopFree (hdeps : g.dependencies = .ok deps) (hloop : g.LoopFree) :
    ∃ order, g.executionOrder = .ok order := by
  have hrange : ∀ d ∈ deps, d.source < g.nodes.length := by
    rintro ⟨i, j⟩ hd
    exact ((mem_dependencies_iff_links hdeps).mp hd).lt_length.1
  have hedge : ∀ {i j : Fin g.nodes.length}, Schedule.Edge deps g.nodes.length i j →
      g.Links i j := by
    rintro i j ⟨⟨_, _⟩, hd, rfl, rfl⟩
    exact (mem_dependencies_iff_links hdeps).mp hd
  have hlength := Schedule.length_placed_run_start hrange fun i hpath =>
    hloop i (hpath.lift Fin.val fun _ _ => hedge)
  exact ⟨_, executionOrder_eq_ok.mpr ⟨deps, hdeps, hlength, rfl⟩⟩

/-- There is an order if and only if all names are known and there is no loop. -/
theorem exists_executionOrder_iff :
    (∃ order, g.executionOrder = .ok order) ↔ g.firstUnknown? = none ∧ g.LoopFree := by
  rw [← exists_dependencies_iff]
  constructor
  · rintro ⟨order, h⟩
    obtain ⟨deps, hdeps, -⟩ := executionOrder_eq_ok.mp h
    exact ⟨⟨deps, hdeps⟩, loopFree_of_executionOrder h⟩
  · rintro ⟨⟨deps, hdeps⟩, hloop⟩
    exact exists_executionOrder_of_loopFree hdeps hloop

/-- Reading the connections may fail, and then nothing but a loop is in the way of an order. -/
theorem executionOrder_eq_error_iff {e : Error} :
    g.executionOrder = .error e ↔
      (∃ name, g.firstUnknown? = some name ∧ e = .unknownNode name) ∨
        g.firstUnknown? = none ∧ ¬ g.LoopFree ∧ e = .cycle := by
  rw [← dependencies_eq_error]
  cases hdeps : g.dependencies with
  | error e' =>
    have hsome : g.firstUnknown? ≠ none := by
      obtain ⟨name, hname, -⟩ := dependencies_eq_error.mp hdeps
      simp [hname]
    simp [executionOrder, hdeps, error_bind, hsome]
  | ok deps =>
    have hnone : g.firstUnknown? = none := exists_dependencies_iff.mp ⟨deps, hdeps⟩
    have hcycle : ∀ e, g.executionOrder = .error e → e = .cycle := by
      intro e h
      rw [executionOrder, hdeps, ok_bind] at h
      simp only at h
      split at h
      · cases h
      · exact (Except.error.inj h).symm
    have hexists := exists_executionOrder_iff (g := g)
    rw [and_iff_right hnone] at hexists
    simp only [reduceCtorEq, false_or, hnone, true_and, ← hexists]
    constructor
    · intro h
      refine ⟨?_, hcycle e h⟩
      rintro ⟨order, horder⟩
      rw [h] at horder
      cases horder
    · rintro ⟨hnot, rfl⟩
      cases horder : g.executionOrder with
      | ok order => exact absurd ⟨order, horder⟩ hnot
      | error e => rw [hcycle e horder]

/-- **Characterization of the order.** The first name in the connections that stands for no node is
    reported. If there is none, there is an order unless some node leads to itself. An order has the
    position of every node once, after the positions of all nodes that lead to it. -/
theorem executionOrder_characterized (g : Graph) :
    (∀ name, g.executionOrder = .error (.unknownNode name) ↔ g.firstUnknown? = some name) ∧
      ((∃ order, g.executionOrder = .ok order) ↔ g.firstUnknown? = none ∧ g.LoopFree) ∧
      (g.executionOrder = .error .cycle ↔ g.firstUnknown? = none ∧ ¬ g.LoopFree) ∧
      ∀ order, g.executionOrder = .ok order →
        order.Perm (List.range g.nodes.length) ∧
          ∀ i j, g.Links i j → order.idxOf i < order.idxOf j := by
  refine ⟨fun name => ?_, exists_executionOrder_iff, ?_, fun order h => ⟨?_, ?_⟩⟩
  · rw [executionOrder_eq_error_iff]
    simp
  · rw [executionOrder_eq_error_iff]
    simp
  · exact perm_of_executionOrder h
  · exact fun i j hlinks => hlinks.idxOf_lt h

/-- Two nodes are called `mix`, and the connections mean the second of them. It gets the value of
    `source` twice. -/
def doubledMix : Graph where
  inputs := []
  outputs := []
  nodes := [
    { name := "tail", kind := "add", inputs := [⟨"input1", "float"⟩, ⟨"input2", "float"⟩] },
    { name := "mix", kind := "add", outputs := [⟨"sum", "float"⟩] },
    { name := "mix"
      kind := "multiply"
      inputs := [⟨"input1", "float"⟩, ⟨"input2", "float"⟩]
      outputs := [⟨"product", "float"⟩] },
    { name := "source", kind := "add", outputs := [⟨"sum", "float"⟩] },
    { name := "side"
      kind := "add"
      inputs := [⟨"input1", "float"⟩]
      outputs := [⟨"sum", "float"⟩] }]
  connections := [
    ⟨⟨"source", "sum"⟩, ⟨"mix", "input1"⟩⟩,
    ⟨⟨"source", "sum"⟩, ⟨"side", "input1"⟩⟩,
    ⟨⟨"source", "sum"⟩, ⟨"mix", "input2"⟩⟩,
    ⟨⟨"mix", "product"⟩, ⟨"tail", "input1"⟩⟩,
    ⟨⟨"side", "sum"⟩, ⟨"tail", "input2"⟩⟩]

/-- The order in which `doubledMix` is executed. -/
theorem executionOrder_doubledMix : doubledMix.executionOrder = .ok [1, 3, 4, 2, 0] := by
  decide +kernel

/-- This order goes through all five nodes of `doubledMix`, two of which have one name. -/
theorem executionOrder_characterized_doubledMix :
    doubledMix.executionOrder = .ok [1, 3, 4, 2, 0] ∧ doubledMix.firstUnknown? = none ∧
      doubledMix.LoopFree ∧ [1, 3, 4, 2, 0].Perm (List.range 5) := by
  obtain ⟨-, hexists, -, horder⟩ := executionOrder_characterized doubledMix
  obtain ⟨hknown, hloop⟩ := hexists.mp ⟨_, executionOrder_doubledMix⟩
  exact ⟨executionOrder_doubledMix, hknown, hloop, (horder _ executionOrder_doubledMix).1⟩

end ShaderGraph.Graph
