import ShaderGraph.Proofs.Lists
import ShaderGraph.Proofs.Scheduling

namespace ShaderGraph.Schedule

/-!
# Schedules of more nodes

Nodes that are added at the end, and that no earlier node depends on, do not disturb the placement
of the nodes that were there before.

* `Within` — a schedule is what one of more nodes shows of the first `size` nodes.
* `Within.release`, `Within.release_added`, `Within.place`, `Within.place_added` — the steps: those
  at the first nodes are taken in both placements, those at added nodes in the larger one only.
* `Within.run` — a run of the larger placement shows a run of the smaller one, and
  `filter_placed_run` is what follows for the placed nodes.
-/

variable {deps deps' : List Dependency} {size : Nat} {s s' : Schedule}

/-- The schedule `s` consists of what the schedule `s'` says about the first `size` nodes. -/
structure Within (size : Nat) (s s' : Schedule) : Prop where
  pending : ∀ i < size, s'.pending[i]? = s.pending[i]?
  ready : s'.ready.filter (· < size) = s.ready
  placed : s'.placed.filter (· < size) = s.placed

/-- What is added to dependencies are dependencies of added nodes. -/
def Extends (size : Nat) (deps deps' : List Dependency) : Prop :=
  Inserted (fun d => size ≤ d.target) deps deps'

/-! ### Steps -/

/-- In the beginning, the first nodes wait for as many others in both schedules. -/
theorem within_start (added : Nat) (h : Extends size deps deps') :
    Within size (start size deps) (start (size + added) deps') := by
  have hpending : ∀ i < size,
      (start (size + added) deps').pending[i]? = (start size deps).pending[i]? := by
    intro i hi
    have hcount : deps'.countP (fun d => d.target = i) = deps.countP fun d => d.target = i := by
      refine h.countP_eq fun d hd => ?_
      simp only [decide_eq_false_iff_not]
      omega
    have hi' : i < size + added := by omega
    simp only [start, getElem?_foldl_modify, hcount, Array.getElem?_replicate, hi, hi', if_true]
  refine { pending := hpending, ready := ?_, placed := rfl }
  show ((List.range (size + added)).filter fun i =>
      (start (size + added) deps').pending[i]? == some 0).filter (· < size) =
    (List.range size).filter fun i => (start size deps).pending[i]? == some 0
  rw [List.filter_filter, List.range_add, List.filter_append]
  have hfirst : (List.range size).filter (fun i =>
      decide (i < size) && (start (size + added) deps').pending[i]? == some 0) =
      (List.range size).filter fun i => (start size deps).pending[i]? == some 0 := by
    refine List.filter_congr fun i hi => ?_
    have hi := List.mem_range.mp hi
    rw [hpending i hi, decide_eq_true hi, Bool.true_and]
  have hadded : ((List.range added).map (size + ·)).filter (fun i =>
      decide (i < size) && (start (size + added) deps').pending[i]? == some 0) = [] := by
    refine List.filter_eq_nil_iff.mpr fun i hi => ?_
    obtain ⟨j, -, rfl⟩ := List.mem_map.mp hi
    simp
  rw [hfirst, hadded, List.append_nil]

/-- The release of a first node is one in both schedules. -/
theorem Within.release {t : Nat} (h : Within size s s') (ht : t < size) :
    Within size (s.release t) (s'.release t) := by
  have hpending : ∀ i < size, (s'.release t).pending[i]? = (s.release t).pending[i]? := by
    intro i hi
    simp only [Schedule.release, Array.getElem?_modify, h.pending i hi]
  refine { pending := hpending, ready := ?_, placed := h.placed }
  show (if (s'.release t).pending[t]? == some 0 then s'.ready ++ [t] else s'.ready).filter _ =
    if (s.release t).pending[t]? == some 0 then s.ready ++ [t] else s.ready
  rw [hpending t ht]
  split
  · rw [List.filter_append, h.ready, List.filter_cons_of_pos (by simpa using ht), List.filter_nil]
  · exact h.ready

/-- The release of an added node cannot be seen at the first nodes. -/
theorem Within.release_added {t : Nat} (h : Within size s s') (ht : size ≤ t) :
    Within size s (s'.release t) := by
  refine { pending := ?_, ready := ?_, placed := h.placed }
  · intro i hi
    have hne : t ≠ i := by omega
    rw [← h.pending i hi]
    simp only [Schedule.release, Array.getElem?_modify, hne, if_false]
  · show (if (s'.release t).pending[t]? == some 0 then s'.ready ++ [t] else s'.ready).filter _ =
        s.ready
    split
    · rw [List.filter_append, h.ready, List.filter_cons_of_neg (by simpa using ht), List.filter_nil,
        List.append_nil]
    · exact h.ready

/-- Releases of first and added nodes are those of the first nodes in the smaller schedule. -/
theorem Within.foldl_release {todo todo' : List Nat} (h : Within size s s')
    (htodo : Inserted (size ≤ ·) todo todo') (hsize : ∀ t ∈ todo, t < size) :
    Within size (todo.foldl Schedule.release s) (todo'.foldl Schedule.release s') := by
  induction htodo generalizing s s' with
  | nil => exact h
  | keep t _ ih =>
    obtain ⟨ht, hsize⟩ := List.forall_mem_cons.mp hsize
    exact ih (h.release ht) hsize
  | insert t ht _ ih => exact ih (h.release_added ht) hsize

/-- The readers of a node are the same but for added nodes. -/
theorem Extends.readers (h : Extends size deps deps') (i : Nat) :
    Inserted (size ≤ ·) (readers deps i) (readers deps' i) :=
  (h.filter (·.source == i)).map fun _ hd => hd

/-- Placing a first node is placing it in both schedules. -/
theorem Within.place {i : Nat} {rest rest' : List Nat} (h : Within size s s')
    (hdeps : Extends size deps deps') (htargets : ∀ d ∈ deps, d.target < size) (hi : i < size)
    (hrest : rest'.filter (· < size) = rest) :
    Within size (s.place deps i rest) (s'.place deps' i rest') := by
  refine Within.foldl_release ?_ (hdeps.readers i) ?_
  · refine { pending := h.pending, ready := hrest, placed := ?_ }
    show (i :: s'.placed).filter _ = i :: s.placed
    rw [List.filter_cons_of_pos (by simpa using hi), h.placed]
  · intro t ht
    obtain ⟨d, hd, rfl⟩ := List.mem_map.mp ht
    exact htargets d (List.mem_filter.mp hd).1

/-- No first node reads an added one, so the placement of an added node cannot be seen either. -/
theorem Within.place_added {i : Nat} {rest' : List Nat} (h : Within size s s')
    (hdeps : Extends size deps deps') (hsources : ∀ d ∈ deps, d.source < size) (hi : size ≤ i)
    (hrest : rest'.filter (· < size) = s.ready) : Within size s (s'.place deps' i rest') := by
  have hnone : readers deps i = [] := by
    refine List.map_eq_nil_iff.mpr (List.filter_eq_nil_iff.mpr fun d hd => ?_)
    have := hsources d hd
    simp only [beq_iff_eq]
    omega
  have hreaders := hdeps.readers i
  rw [hnone] at hreaders
  show Within size (([] : List Nat).foldl Schedule.release s) _
  refine Within.foldl_release ?_ hreaders (by simp)
  refine { pending := h.pending, ready := hrest, placed := ?_ }
  show (i :: s'.placed).filter _ = s.placed
  rw [List.filter_cons_of_neg (by simpa using hi), h.placed]

/-! ### Runs -/

/-- What a run of the larger placement shows of the first nodes is a run of the smaller one, which
    may take fewer steps. -/
theorem Within.run (h : Within size s s') (hdeps : Extends size deps deps')
    (hrange : ∀ d ∈ deps, d.source < size ∧ d.target < size) (steps' : Nat) :
    ∃ steps, Within size (run deps steps s) (run deps' steps' s') := by
  induction steps' generalizing s s' with
  | zero => exact ⟨0, h⟩
  | succ steps' ih =>
    rw [Schedule.run]
    split
    · exact ⟨0, h⟩
    · next i rest' hready =>
      have hfilter := h.ready
      rw [hready] at hfilter
      by_cases hi : i < size
      · rw [List.filter_cons_of_pos (by simpa using hi)] at hfilter
        obtain ⟨steps, hrun⟩ :=
          ih (h.place hdeps (fun d hd => (hrange d hd).2) hi rfl)
        refine ⟨steps + 1, ?_⟩
        rw [Schedule.run, ← hfilter]
        exact hrun
      · rw [List.filter_cons_of_neg (by simpa using hi)] at hfilter
        exact ih (h.place_added hdeps (fun d hd => (hrange d hd).1) (Nat.le_of_not_lt hi) hfilter)

/-- The first nodes are placed in the same order whether or not there are others. -/
theorem filter_placed_run (added : Nat) (hdeps : Extends size deps deps')
    (hrange : ∀ d ∈ deps, d.source < size ∧ d.target < size) :
    (run deps' (size + added) (start (size + added) deps')).placed.filter (· < size) =
      (run deps size (start size deps)).placed := by
  obtain ⟨steps, hrun⟩ := (within_start added hdeps).run hdeps hrange (size + added)
  have hready : (run deps steps (start size deps)).ready = [] := by
    rw [← hrun.ready, ready_run_start, List.filter_nil]
  rw [hrun.placed, run_eq_run hready (ready_run_start size deps)]

end ShaderGraph.Schedule
