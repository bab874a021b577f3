import Mathlib.Data.Fintype.EquivFin
import Mathlib.Data.List.Perm.Subperm
import Mathlib.Logic.Relation
import ShaderGraph.Graph.Order

namespace ShaderGraph.Schedule

/-!
# Schedules

The placement of nodes never gets out of step with the dependencies, and it places all nodes
unless some of them form a cycle.

* `waiting` — how many dependencies of a node are on nodes that are not placed.
* `Settled` — placed nodes have all of their dependencies before them.
* `Consistent` — the invariant of the placement. `Consistent.release` and `Consistent.place` are
  its steps, `Consistent.run` is a whole run.
* `run_eq_run` — it does not matter how many steps a run is given, as long as it comes to its end.
* `Edge` — the dependencies as a relation; `length_placed_run_start` says that all nodes are
  placed if the relation has no cycle.
-/

variable {deps : List Dependency} {size : Nat} {s : Schedule}

/-! ### The invariant -/

/-- The number of dependencies of the node at `i` on nodes that are not placed. -/
def waiting (deps : List Dependency) (placed : List Nat) (i : Nat) : Nat :=
  deps.countP fun d => d.target = i ∧ d.source ∉ placed

/-- Each placed node depends on nodes that were placed before it only. -/
def Settled (deps : List Dependency) : List Nat → Prop
  | [] => True
  | i :: placed => (∀ d ∈ deps, d.target = i → d.source ∈ placed) ∧ Settled deps placed

/-- The state of a placement agrees with the dependencies, while the nodes `todo` are still to be
    released. Counts are exact, and the nodes that wait for nothing are those in the queue and
    those placed, each once. -/
structure Consistent (deps : List Dependency) (size : Nat) (todo : List Nat) (s : Schedule) :
    Prop where
  pending : ∀ i, s.pending[i]? =
    if i < size then some (waiting deps s.placed i + todo.count i) else none
  queued : ∀ i, i ∈ s.placed ++ s.ready ↔ s.pending[i]? = some 0
  nodup : (s.placed ++ s.ready).Nodup
  settled : Settled deps s.placed

/-- Whatever a placed node depends on was placed before it. -/
theorem Settled.mem_of_append {after before : List Nat} {i : Nat}
    (h : Settled deps (after ++ i :: before)) {d : Dependency} (hd : d ∈ deps)
    (htarget : d.target = i) : d.source ∈ before := by
  induction after with
  | nil => exact h.1 d hd htarget
  | cons j after ih => exact ih h.2

/-! ### Steps -/

/-- Each node waits for as many others as it has dependencies. -/
theorem getElem?_foldl_modify (deps : List Dependency) (counts : Array Nat) (i : Nat) :
    (deps.foldl (fun counts d => counts.modify d.target (· + 1)) counts)[i]? =
      counts[i]?.map (· + deps.countP fun d => d.target = i) := by
  induction deps generalizing counts with
  | nil => simp
  | cons d deps ih =>
    rw [List.foldl_cons, ih, Array.getElem?_modify, List.countP_cons]
    by_cases h : d.target = i
    · simp only [h, if_true, decide_true, Option.map_map, Function.comp_def]
      congr 1
      funext k
      omega
    · simp [h]

/-- The start is consistent, and no release is open. -/
theorem consistent_start (size : Nat) (deps : List Dependency) :
    Consistent deps size [] (start size deps) := by
  have hpending : ∀ i, (start size deps).pending[i]? =
      if i < size then some (waiting deps [] i) else none := by
    intro i
    simp only [start, getElem?_foldl_modify, waiting, List.not_mem_nil, not_false_eq_true, and_true]
    by_cases h : i < size <;> simp [h]
  refine { pending := ?_, queued := ?_, nodup := ?_, settled := trivial }
  · simpa [start] using hpending
  · intro i
    show i ∈ (List.range size).filter _ ↔ _
    rw [List.mem_filter, List.mem_range, beq_iff_eq]
    refine and_iff_right_of_imp fun hzero => ?_
    by_contra h
    have := hpending i
    rw [if_neg h] at this
    exact absurd (this.symm.trans hzero) (by simp)
  · exact List.nodup_range.filter _

/-- A node that is still to be released is neither ready nor placed. -/
theorem Consistent.not_mem_queue {t : Nat} {todo : List Nat}
    (h : Consistent deps size (t :: todo) s) : t ∉ s.placed ++ s.ready := by
  rw [h.queued, h.pending, List.count_cons_self]
  split <;> simp

/-- Releasing a node takes it off the list of nodes to release. -/
theorem Consistent.release {t : Nat} {todo : List Nat} (h : Consistent deps size (t :: todo) s) :
    Consistent deps size todo (s.release t) := by
  have hpending : ∀ i, (s.release t).pending[i]? =
      if i < size then some (waiting deps s.placed i + todo.count i) else none := by
    intro i
    simp only [Schedule.release, Array.getElem?_modify, h.pending, List.count_cons]
    by_cases hi : t = i <;> by_cases hsize : i < size <;> simp [hi, hsize]
  have hnew := h.not_mem_queue
  have hsame : ∀ i, i ≠ t → (s.release t).pending[i]? = s.pending[i]? := by
    intro i hi
    simp [Schedule.release, Array.getElem?_modify, Ne.symm hi]
  have hready : (s.release t).ready =
      if (s.release t).pending[t]? = some 0 then s.ready ++ [t] else s.ready := by
    simp [Schedule.release]
  have hplaced : (s.release t).placed = s.placed := rfl
  refine { pending := hpending, queued := ?_, nodup := ?_, settled := h.settled }
  · intro i
    rw [hplaced, hready]
    by_cases hi : i = t
    · subst hi
      split
      · next hzero => simp [hzero]
      · next hzero => simp only [hnew, hzero]
    · rw [hsame i hi, ← h.queued]
      split <;> simp [hi]
  · -- The queue grows by `t` at most.
    rw [hplaced, hready]
    split
    · rw [← List.append_assoc]
      exact h.nodup.append (List.nodup_singleton t) (List.disjoint_singleton.mpr hnew)
    · exact h.nodup

/-- When all open releases are made, the schedule is consistent without them. -/
theorem Consistent.foldl_release {todo : List Nat} (h : Consistent deps size todo s) :
    Consistent deps size [] (todo.foldl Schedule.release s) := by
  induction todo generalizing s with
  | nil => exact h
  | cons t todo ih => exact ih h.release

/-- Releases place no node. -/
theorem placed_foldl_release (todo : List Nat) (s : Schedule) :
    (todo.foldl Schedule.release s).placed = s.placed := by
  induction todo generalizing s with
  | nil => rfl
  | cons t todo ih => rw [List.foldl_cons, ih]; rfl

/-- Placing a node takes its readers' dependencies on it off their counts. -/
theorem waiting_cons {placed : List Nat} {i : Nat} (hi : i ∉ placed) (j : Nat) :
    waiting deps placed j = waiting deps (i :: placed) j + (readers deps i).count j := by
  -- Each dependency on `i` moves from one count to the other, and no other dependency does.
  unfold waiting readers
  induction deps with
  | nil => simp
  | cons d deps ih =>
    simp only [List.countP_cons, List.filter_cons, ih]
    by_cases hs : d.source = i <;> by_cases ht : d.target = j <;> grind

/-- When the first ready node is placed, its readers are to be released. -/
theorem Consistent.advance {i : Nat} {rest : List Nat} (h : Consistent deps size [] s)
    (hready : s.ready = i :: rest) :
    Consistent deps size (readers deps i) { s with ready := rest, placed := i :: s.placed } := by
  have hqueue : (s.placed ++ s.ready).Perm ((i :: s.placed) ++ rest) := by
    rw [hready]
    exact List.perm_middle
  have hi : i ∉ s.placed := by
    have := hqueue.nodup_iff.mp h.nodup
    rw [List.cons_append, List.nodup_cons, List.mem_append, not_or] at this
    exact this.1.1
  -- `i` is in the queue, so nothing that it depends on is missing.
  have hnone : waiting deps s.placed i = 0 := by
    have hzero : s.pending[i]? = some 0 := (h.queued i).mp (by simp [hready])
    rw [h.pending] at hzero
    split at hzero <;> simp_all
  refine { pending := ?_, queued := ?_, nodup := ?_, settled := ?_ }
  · intro j
    rw [h.pending, waiting_cons hi, List.count_nil, Nat.add_zero]
  · intro j
    rw [← hqueue.mem_iff, h.queued]
  · exact hqueue.nodup_iff.mp h.nodup
  · refine ⟨fun d hd htarget => ?_, h.settled⟩
    by_contra hsource
    exact List.countP_eq_zero.mp hnone d hd (by simp [htarget, hsource])

/-- Placing the first ready node keeps the schedule consistent. -/
theorem Consistent.place {i : Nat} {rest : List Nat} (h : Consistent deps size [] s)
    (hready : s.ready = i :: rest) : Consistent deps size [] (s.place deps i rest) :=
  (h.advance hready).foldl_release

/-! ### Runs -/

/-- A run keeps a schedule consistent. -/
theorem Consistent.run (h : Consistent deps size [] s) (steps : Nat) :
    Consistent deps size [] (run deps steps s) := by
  induction steps generalizing s with
  | zero => exact h
  | succ steps ih =>
    rw [Schedule.run]
    split
    · exact h
    · next i rest hready => exact ih (h.place hready)

/-- Without ready nodes, nothing happens any more. -/
theorem run_of_ready_eq_nil (h : s.ready = []) (steps : Nat) : run deps steps s = s := by
  cases steps with
  | zero => rfl
  | succ steps => rw [Schedule.run, h]

/-- A run may be taken in two parts. -/
theorem run_add (deps : List Dependency) (steps more : Nat) (s : Schedule) :
    run deps (steps + more) s = run deps more (run deps steps s) := by
  induction steps generalizing s with
  | zero => rw [Nat.zero_add]; rfl
  | succ steps ih =>
    rw [Nat.succ_add, Schedule.run, Schedule.run]
    split
    · next hready => rw [run_of_ready_eq_nil hready]
    · exact ih _

/-- Two runs to the end of a placement end in the same way. -/
theorem run_eq_run {steps more : Nat} (hsteps : (run deps steps s).ready = [])
    (hmore : (run deps more s).ready = []) : run deps steps s = run deps more s :=
  calc run deps steps s
      = run deps (steps + more) s := by rw [run_add, run_of_ready_eq_nil hsteps]
    _ = run deps (more + steps) s := by rw [Nat.add_comm]
    _ = run deps more s := by rw [run_add, run_of_ready_eq_nil hmore]

/-- A run ends because the queue is empty or because it has placed one node in each step. -/
theorem ready_run_eq_nil_or (deps : List Dependency) (steps : Nat) (s : Schedule) :
    (run deps steps s).ready = [] ∨
      (run deps steps s).placed.length = s.placed.length + steps := by
  induction steps generalizing s with
  | zero => exact .inr rfl
  | succ steps ih =>
    rw [Schedule.run]
    split
    · next hready => exact .inl hready
    · next i rest hready =>
      refine (ih _).imp_right fun h => ?_
      rw [h, Schedule.place, placed_foldl_release, List.length_cons]
      omega

/-- Whatever is placed or in the queue is a node. -/
theorem Consistent.lt_size {todo : List Nat} {i : Nat} (h : Consistent deps size todo s)
    (hi : i ∈ s.placed ++ s.ready) : i < size := by
  have hzero := (h.queued i).mp hi
  rw [h.pending] at hzero
  by_contra hsize
  simp [hsize] at hzero

/-- There is no room for more entries than there are nodes. -/
theorem Consistent.length_le {todo : List Nat} (h : Consistent deps size todo s) :
    s.placed.length + s.ready.length ≤ size := by
  have hsub : s.placed ++ s.ready ⊆ List.range size :=
    fun i hi => List.mem_range.mpr (h.lt_size hi)
  simpa using (h.nodup.subperm hsub).length_le

/-- At the end of a run with one step for each node, no node is ready. -/
theorem ready_run_start (size : Nat) (deps : List Dependency) :
    (run deps size (start size deps)).ready = [] := by
  rcases ready_run_eq_nil_or deps size (start size deps) with h | h
  · exact h
  · have hle := ((consistent_start size deps).run size).length_le
    have hstart : (start size deps).placed = [] := rfl
    rw [hstart, List.length_nil, Nat.zero_add] at h
    exact List.length_eq_zero_iff.mp (by omega)

/-- The placed nodes, if there are as many as there are nodes, are all nodes. -/
theorem Consistent.placed_perm (h : Consistent deps size [] s) (hlength : s.placed.length = size) :
    s.placed.Perm (List.range size) := by
  have hsub : s.placed ⊆ List.range size :=
    fun i hi => List.mem_range.mpr (h.lt_size (List.mem_append_left _ hi))
  exact (h.nodup.of_append_left.subperm hsub).perm_of_length_le (by simp [hlength])

/-! ### Cycles -/

/-- The dependencies as a relation on the positions of nodes. -/
def Edge (deps : List Dependency) (size : Nat) (i j : Fin size) : Prop :=
  ∃ d ∈ deps, d.source = i ∧ d.target = j

/-- Without cycles, all nodes are placed. -/
theorem length_placed_run_start (hrange : ∀ d ∈ deps, d.source < size)
    (hacyclic : ∀ i, ¬ Relation.TransGen (Edge deps size) i i) :
    (run deps size (start size deps)).placed.length = size := by
  have hfinal := (consistent_start size deps).run size
  have hready := ready_run_start size deps
  generalize run deps size (start size deps) = final at hfinal hready
  have : Std.Irrefl (Relation.TransGen (Edge deps size)) := ⟨hacyclic⟩
  have hwf : WellFounded (Relation.TransGen (Edge deps size)) :=
    Finite.wellFounded_of_trans_of_irrefl _
  -- By induction along the dependencies: what a node reads is placed, so it waits for nothing.
  have hplaced : ∀ i : Fin size, i.val ∈ final.placed := by
    intro i
    induction i using hwf.induction with
    | _ i ih =>
      have hnone : waiting deps final.placed i = 0 := by
        refine List.countP_eq_zero.mpr fun d hd => ?_
        simp only [decide_eq_true_eq, not_and, not_not]
        intro htarget
        exact ih ⟨d.source, hrange d hd⟩ (.single ⟨d, hd, rfl, htarget⟩)
      have hzero : final.pending[i.val]? = some 0 := by
        rw [hfinal.pending, if_pos i.isLt, hnone, List.count_nil]
      simpa [hready] using (hfinal.queued i).mpr hzero
  have hsub : List.range size ⊆ final.placed :=
    fun i hi => hplaced ⟨i, List.mem_range.mp hi⟩
  have hle := hfinal.length_le
  have hge := (List.nodup_range.subperm hsub).length_le
  rw [List.length_range] at hge
  omega

end ShaderGraph.Schedule
