import ShaderGraph.Proofs.DependencyOrder

namespace ShaderGraph

/-!
# Safety of the placement

The placement looks up counts and readers by position, takes one off a count for each dependency,
and runs until no node is ready. None of this can go wrong, on any graph.

* `Schedule.Reaches` — the states in which the placement can be, between two releases too, with the
  entries that the queue has had so far. `Schedule.exists_reaches_run` says that runs lead to such
  states.
* `Schedule.Safe` — what keeps the next step from failing. `Schedule.Reaches.safe` says that it
  holds in every state.
* `Graph.placement_safe` — the placement of the nodes of a graph is safe, and ends after as many
  steps as there are nodes.
-/

namespace Schedule

variable {deps : List Dependency} {size : Nat} {entries todo : List Nat} {s : Schedule}

/-! ### States -/

/-- The placement can be in the state `s`, with the nodes `todo` still to be released. The queue has
    had the given `entries` since the start. -/
inductive Reaches (deps : List Dependency) (size : Nat) :
    List Nat → List Nat → Schedule → Prop where
  /-- All nodes without dependencies are in the queue. -/
  | start : Reaches deps size (start size deps).ready [] (start size deps)
  /-- The first node of the queue is placed. -/
  | place {entries : List Nat} {s : Schedule} {i : Nat} {rest : List Nat}
    (h : Reaches deps size entries [] s) (hready : s.ready = i :: rest) :
    Reaches deps size entries (readers deps i) { s with ready := rest, placed := i :: s.placed }
  /-- A reader of that node is released, and whatever that appends to the queue has entered it. -/
  | release {entries todo pushed : List Nat} {s : Schedule} {t : Nat}
    (h : Reaches deps size entries (t :: todo) s)
    (hpushed : (s.release t).ready = s.ready ++ pushed) :
    Reaches deps size (entries ++ pushed) todo (s.release t)

/-- A release leaves the queue as it is or adds to its end. -/
theorem exists_ready_release (s : Schedule) (t : Nat) :
    ∃ pushed, (s.release t).ready = s.ready ++ pushed := by
  rw [release]
  split
  · exact ⟨[t], rfl⟩
  · exact ⟨[], (List.append_nil _).symm⟩

/-- The releases of all readers of a node can be reached. -/
theorem Reaches.foldl_release (h : Reaches deps size entries todo s) :
    ∃ entries', Reaches deps size entries' [] (todo.foldl Schedule.release s) := by
  induction todo generalizing entries s with
  | nil => exact ⟨entries, h⟩
  | cons t todo ih =>
    obtain ⟨pushed, hpushed⟩ := exists_ready_release s t
    exact ih (h.release hpushed)

/-- What a run comes to can be reached. -/
theorem Reaches.run (h : Reaches deps size entries [] s) (steps : Nat) :
    ∃ entries', Reaches deps size entries' [] (run deps steps s) := by
  induction steps generalizing entries s with
  | zero => exact ⟨entries, h⟩
  | succ steps ih =>
    rw [Schedule.run]
    split
    · exact ⟨entries, h⟩
    · next i rest hready =>
      obtain ⟨entries', hplaced⟩ := (h.place hready).foldl_release
      exact ih hplaced

/-- A run leads from the start to a state that the placement can be in. -/
theorem exists_reaches_run (deps : List Dependency) (size steps : Nat) :
    ∃ entries, Reaches deps size entries [] (run deps steps (start size deps)) :=
  Reaches.start.run steps

/-! ### Safety -/

/-- Nothing can go wrong in the next step: all positions are in range, and the counts of the nodes
    to be released are not zero. The counts are exact, no node has entered the queue twice, and
    there are no more placed nodes than nodes. -/
structure Safe (deps : List Dependency) (size : Nat) (entries todo : List Nat) (s : Schedule) :
    Prop where
  size_pending : s.pending.size = size
  ready_lt : ∀ i ∈ s.ready, i < size
  todo_lt : ∀ t ∈ todo, t < size
  positive : ∀ t ∈ todo, ∃ count, s.pending[t]? = some (count + 1)
  counts : ∀ i < size, s.pending[i]? = some (waiting deps s.placed i + todo.count i)
  entries_eq : entries = s.placed.reverse ++ s.ready
  entries_nodup : entries.Nodup
  placed_le : s.placed.length ≤ size

/-- Whatever can be reached is consistent. -/
theorem Reaches.consistent (h : Reaches deps size entries todo s) :
    Consistent deps size todo s := by
  induction h with
  | start => exact consistent_start size deps
  | place _ hready ih => exact ih.advance hready
  | release _ _ ih => exact ih.release

/-- Nodes are to be released on account of dependencies. -/
theorem Reaches.exists_target_eq (h : Reaches deps size entries todo s) :
    ∀ t ∈ todo, ∃ d ∈ deps, d.target = t := by
  induction h with
  | start => exact List.forall_mem_nil _
  | place =>
    intro t ht
    obtain ⟨d, hd, rfl⟩ := List.mem_map.mp ht
    exact ⟨d, (List.mem_filter.mp hd).1, rfl⟩
  | release _ _ ih => exact fun t ht => ih t (List.mem_cons_of_mem _ ht)

/-- What has entered the queue is placed in this order, and the rest of it still waits. -/
theorem Reaches.entries_eq (h : Reaches deps size entries todo s) :
    entries = s.placed.reverse ++ s.ready := by
  induction h with
  | start => rfl
  | place _ hready ih =>
    rw [ih, hready, List.reverse_cons, List.append_assoc, List.singleton_append]
  | release _ hpushed ih => rw [ih, hpushed, List.append_assoc]; rfl

/-- There is a count for each node, and for nothing else. -/
theorem Consistent.size_pending (h : Consistent deps size todo s) : s.pending.size = size := by
  by_contra hne
  rcases Nat.lt_or_gt_of_ne hne with hlt | hlt
  · have hbehind := h.pending s.pending.size
    rw [if_pos hlt, Array.getElem?_size] at hbehind
    cases hbehind
  · have hbehind := h.pending size
    rw [if_neg (Nat.lt_irrefl size), Array.getElem?_eq_none_iff] at hbehind
    omega

/-- Every step of a placement is safe if the dependencies are between nodes. -/
theorem Reaches.safe (htargets : ∀ d ∈ deps, d.target < size)
    (h : Reaches deps size entries todo s) :
    Safe deps size entries todo s := by
  have hconsistent := h.consistent
  have hcounts : ∀ i < size, s.pending[i]? = some (waiting deps s.placed i + todo.count i) := by
    intro i hi
    rw [hconsistent.pending, if_pos hi]
  have htodo : ∀ t ∈ todo, t < size := by
    intro t ht
    obtain ⟨d, hd, rfl⟩ := h.exists_target_eq t ht
    exact htargets d hd
  refine
    { size_pending := hconsistent.size_pending
      ready_lt := fun i hi => hconsistent.lt_size (List.mem_append_right _ hi)
      todo_lt := htodo
      positive := fun t ht => ?_
      counts := hcounts
      entries_eq := h.entries_eq
      entries_nodup := ?_
      placed_le := (Nat.le_add_right _ _).trans hconsistent.length_le }
  · -- The node is among those to be released, which its count includes.
    obtain ⟨k, hk⟩ := Nat.exists_eq_succ_of_ne_zero (List.count_pos_iff.mpr ht).ne'
    exact ⟨waiting deps s.placed t + k, by rw [hcounts t (htodo t ht), hk]; rfl⟩
  · rw [h.entries_eq]
    exact (((List.reverse_perm _).append_right _).nodup_iff).mpr hconsistent.nodup

end Schedule

namespace Graph

/-- **Safety of the placement.** A name stands for a position of the graph. So dependencies are
    between positions of the graph, and all steps of the placement are safe: counts are looked up in
    range, none is reduced that is zero, and no node enters the queue twice. The runs are made of
    such steps, and after one step for each node the queue is empty and nothing happens any more. -/
theorem placement_safe (g : Graph) :
    (∀ name i, g.position name = .ok i → i < g.nodes.length) ∧
    ∀ deps, g.dependencies = .ok deps →
      (∀ d ∈ deps, d.source < g.nodes.length ∧ d.target < g.nodes.length) ∧
      (∀ entries todo s, Schedule.Reaches deps g.nodes.length entries todo s →
        Schedule.Safe deps g.nodes.length entries todo s) ∧
      (∀ steps, ∃ entries, Schedule.Reaches deps g.nodes.length entries []
        ((Schedule.start g.nodes.length deps).run deps steps)) ∧
      ((Schedule.start g.nodes.length deps).run deps g.nodes.length).ready = [] ∧
      ∀ extra, (Schedule.start g.nodes.length deps).run deps (g.nodes.length + extra) =
        (Schedule.start g.nodes.length deps).run deps g.nodes.length := by
  refine ⟨fun name i h => (position_eq_ok_iff.mp h).lt_length, fun deps hdeps => ?_⟩
  have hrange : ∀ d ∈ deps, d.source < g.nodes.length ∧ d.target < g.nodes.length :=
    fun _ hd => ((mem_dependencies_iff_links hdeps).mp hd).lt_length
  have hready := Schedule.ready_run_start g.nodes.length deps
  refine ⟨hrange, fun entries todo s h => h.safe fun d hd => (hrange d hd).2,
    Schedule.exists_reaches_run deps g.nodes.length, hready, fun extra => ?_⟩
  rw [Schedule.run_add, Schedule.run_of_ready_eq_nil hready]

/-- The dependencies of `doubledMix`, of which two are the same. -/
def doubledDependencies : List Dependency := [⟨3, 2⟩, ⟨3, 4⟩, ⟨3, 2⟩, ⟨2, 0⟩, ⟨4, 0⟩]

/-- The state of the placement when the node `source` is placed and none of its readers is
    released. -/
def beforeReleases : Schedule := { pending := #[2, 0, 2, 0, 1], ready := [], placed := [3, 1] }

/-- The node `source` has the second `mix` among its readers twice, and so it is counted: its count
    is zero only after both releases. -/
theorem placement_safe_doubledMix :
    doubledMix.position "mix" = .ok 2 ∧ 2 < doubledMix.nodes.length ∧
    doubledMix.dependencies = .ok doubledDependencies ∧
    Schedule.Reaches doubledDependencies 5 [1, 3] [2, 4, 2] beforeReleases ∧
    Schedule.Safe doubledDependencies 5 [1, 3] [2, 4, 2] beforeReleases ∧
    (Schedule.start 5 doubledDependencies).run doubledDependencies 7 =
      { pending := #[0, 0, 0, 0, 0], ready := [], placed := [0, 2, 4, 3, 1] } := by
  have hposition : doubledMix.position "mix" = .ok 2 := by decide +kernel
  have hdeps : doubledMix.dependencies = .ok doubledDependencies := by decide +kernel
  have hstart : Schedule.start 5 doubledDependencies =
      { beforeReleases with ready := [1, 3], placed := [] } := by decide +kernel
  have hreaches : Schedule.Reaches doubledDependencies 5 [1, 3] []
      { beforeReleases with ready := [1, 3], placed := [] } := hstart ▸ .start
  have hreaches : Schedule.Reaches doubledDependencies 5 [1, 3] [2, 4, 2] beforeReleases :=
    (hreaches.place rfl).place rfl
  obtain ⟨hlt, hgraph⟩ := placement_safe doubledMix
  obtain ⟨-, hsafe, -, -, hend⟩ := hgraph doubledDependencies hdeps
  refine ⟨hposition, hlt _ _ hposition, hdeps, hreaches, hsafe _ _ _ hreaches, (hend 2).trans ?_⟩
  decide +kernel

end Graph

end ShaderGraph
