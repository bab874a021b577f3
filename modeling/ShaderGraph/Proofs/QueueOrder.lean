import ShaderGraph.Proofs.Scheduling

namespace ShaderGraph.Schedule

/-!
# The queue of a schedule

After the nodes that wait for nothing from the start, nodes get into the queue in the order of their
last releases.

* `LastBefore` — one node is released for the last time before another one is.
* `InOrder` — the invariant of the queue. `InOrder.release` and `InOrder.place` are its steps,
  `InOrder.run` is a whole run.
* `exists_placed_run_start` — the order in which a run places the nodes.
-/

variable {deps : List Dependency} {size : Nat} {first released todo rest : List Nat} {s : Schedule}
  {i j t : Nat}

/-! ### Last releases -/

/-- Among the releases, `j` is found after the last `i`. -/
def LastBefore (released : List Nat) (i j : Nat) : Prop :=
  ∃ before after, released = before ++ j :: after ∧ i ∉ j :: after

/-- A further release of another node changes nothing between two nodes. -/
theorem LastBefore.concat (h : LastBefore released i j) (hi : i ≠ t) :
    LastBefore (released ++ [t]) i j := by
  obtain ⟨before, after, rfl, hlast⟩ := h
  refine ⟨before, after ++ [t], by simp, ?_⟩
  rw [← List.cons_append, List.mem_append, List.mem_singleton, not_or]
  exact ⟨hlast, hi⟩

/-- One of two nodes is released last before the other. -/
theorem LastBefore.asymm (h : LastBefore released i j) : ¬ LastBefore released j i := by
  rintro ⟨before', after', hsplit', hlast'⟩
  obtain ⟨before, after, rfl, hlast⟩ := h
  -- The one of the two splits that comes first has the other one's element in its end.
  rcases List.append_eq_append_iff.mp hsplit' with ⟨as, -, has⟩ | ⟨as, -, has⟩
  · exact hlast (by simp [has])
  · exact hlast' (by simp [has])

/-! ### The invariant -/

/-- The nodes that have been in the queue are those of `first`, and then others in the order of
    their last releases. -/
def InOrder (first released : List Nat) (s : Schedule) : Prop :=
  ∃ later, s.placed.reverse ++ s.ready = first ++ later ∧ later.Pairwise (LastBefore released)

/-- At the start, the queue holds the nodes without dependencies and nothing has been released. -/
theorem inOrder_start (size : Nat) (deps : List Dependency) :
    InOrder (start size deps).ready [] (start size deps) :=
  ⟨[], (List.append_nil _).symm, .nil⟩

/-- A node that joins the queue has just been released, and none of the others has. -/
theorem InOrder.release (h : InOrder first released s) (ht : t ∉ s.placed ++ s.ready) :
    InOrder first (released ++ [t]) (s.release t) := by
  obtain ⟨later, hqueue, hlater⟩ := h
  have hne : ∀ i ∈ later, i ≠ t := by
    rintro i hi rfl
    have hmem : i ∈ s.placed.reverse ++ s.ready := hqueue ▸ List.mem_append_right first hi
    exact ht (by simpa using hmem)
  have hkept : later.Pairwise (LastBefore (released ++ [t])) :=
    hlater.imp_of_mem fun hi _ hij => hij.concat (hne _ hi)
  by_cases hzero : ((s.release t).pending[t]? == some 0) = true
  · have hready : (s.release t).ready = s.ready ++ [t] := if_pos hzero
    refine ⟨later ++ [t], ?_, ?_⟩
    · rw [hready, ← List.append_assoc, ← List.append_assoc, ← hqueue]
      rfl
    · refine List.pairwise_append.mpr ⟨hkept, List.pairwise_singleton _ t, fun i hi j hj => ?_⟩
      obtain rfl := List.mem_singleton.mp hj
      exact ⟨released, [], rfl, by simpa using hne i hi⟩
  · have hready : (s.release t).ready = s.ready := if_neg hzero
    refine ⟨later, ?_, hkept⟩
    rw [hready]
    exact hqueue

/-- The releases of all readers of a node keep the queue in order. -/
theorem InOrder.foldl_release (h : InOrder first released s) (hs : Consistent deps size todo s) :
    InOrder first (released ++ todo) (todo.foldl Schedule.release s) := by
  induction todo generalizing released s with
  | nil => rwa [List.append_nil]
  | cons t todo ih =>
    have hrest := ih (h.release hs.not_mem_queue) hs.release
    rwa [List.append_assoc] at hrest

/-- All releases so far, when the nodes `placed` are placed, the last one first. -/
def releases (deps : List Dependency) (placed : List Nat) : List Nat :=
  placed.reverse.flatMap (readers deps)

/-- A node that is placed last releases its readers last. -/
theorem releases_cons (placed : List Nat) :
    releases deps (i :: placed) = releases deps placed ++ readers deps i := by
  simp [releases]

/-- A node that is placed comes first among those placed. -/
theorem placed_place (s : Schedule) (i : Nat) (rest : List Nat) :
    (s.place deps i rest).placed = i :: s.placed :=
  placed_foldl_release _ _

/-- Placing a node keeps the queue in order. -/
theorem InOrder.place (h : InOrder first (releases deps s.placed) s)
    (hs : Consistent deps size [] s)
    (hready : s.ready = i :: rest) :
    InOrder first (releases deps (s.place deps i rest).placed) (s.place deps i rest) := by
  obtain ⟨later, hqueue, hlater⟩ := h
  rw [placed_place, releases_cons]
  refine InOrder.foldl_release ⟨later, ?_, hlater⟩ (hs.advance hready)
  -- The node has moved from the queue to the placed ones, which leaves the history as it is.
  rw [← hqueue, hready]
  simp

/-- A run keeps the queue in order. -/
theorem InOrder.run (h : InOrder first (releases deps s.placed) s) (hs : Consistent deps size [] s)
    (steps : Nat) : InOrder first (releases deps (run deps steps s).placed) (run deps steps s) := by
  induction steps generalizing s with
  | zero => exact h
  | succ steps ih =>
    rw [Schedule.run]
    split
    · exact h
    · next i rest hready => exact ih (h.place hs hready) (hs.place hready)

/-- A run places the nodes that wait for nothing, and then the others in the order of their last
    releases. -/
theorem exists_placed_run_start {order : List Nat}
    (horder : (Schedule.run deps size (start size deps)).placed.reverse = order) :
    ∃ later, order = (start size deps).ready ++ later ∧
      later.Pairwise (LastBefore (order.flatMap (readers deps))) := by
  obtain ⟨later, hqueue, hlater⟩ :=
    (inOrder_start size deps).run (consistent_start size deps) size
  rw [ready_run_start, List.append_nil, horder] at hqueue
  rw [releases, horder] at hlater
  exact ⟨later, hqueue, hlater⟩

/-- The readers of a node are the targets of dependencies on it. -/
theorem mem_readers : j ∈ readers deps i ↔ (⟨i, j⟩ : Dependency) ∈ deps := by
  simp only [readers, List.mem_map, List.mem_filter, beq_iff_eq]
  constructor
  · rintro ⟨d, ⟨hd, rfl⟩, rfl⟩
    exact hd
  · intro hd
    exact ⟨_, ⟨hd, rfl⟩, rfl⟩

/-- The nodes that wait for nothing from the start. -/
theorem mem_ready_start : i ∈ (start size deps).ready ↔ i < size ∧ ∀ d ∈ deps, d.target ≠ i := by
  have hstart := consistent_start size deps
  have hqueued := hstart.queued i
  rw [show (start size deps).placed = [] from rfl, List.nil_append, hstart.pending] at hqueued
  rw [hqueued, show (start size deps).placed = [] from rfl]
  split <;> simp [waiting, List.countP_eq_zero, *]

/-- The queue starts in the order of declarations. -/
theorem pairwise_ready_start : (start size deps).ready.Pairwise (· < ·) :=
  List.pairwise_lt_range.filter _

end ShaderGraph.Schedule
