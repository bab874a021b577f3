import Mathlib.Data.Nat.SuccPred
import Mathlib.Data.Prod.Lex
import Mathlib.Order.SuccPred.Archimedean
import ShaderGraph.Proofs.DependencyOrder
import ShaderGraph.Proofs.QueueOrder

namespace ShaderGraph.Graph

/-!
# Ties between ready nodes

Which of several nodes comes first when nothing but the order itself can tell, on any graph that has
an execution order.

* `IsEntry`, `exists_entries` — the nodes to which nothing leads come first, as they are declared.
* `ReleasedBy` — the connection that makes a node ready, as the order has it.
  `ReleasedBy.idxOf_lt_iff` says that these connections tell which of two nodes comes first.
* `PathTo`, `IsDepth` — the longest path to a node; `IsDepth.le_of_idxOf_lt` says that it does not
  get shorter along an order.
-/

variable {g : Graph} {deps : List Dependency} {order : List Nat} {i j p q k l : Nat}

/-! ### Entries -/

/-- Nothing leads to the node at `i`. -/
def IsEntry (g : Graph) (i : Nat) : Prop := ∀ j, ¬ g.Links j i

/-- An execution order has the nodes to which nothing leads, in order of declaration, and then the
    others in the order of their last releases. -/
theorem exists_entries (hdeps : g.dependencies = .ok deps) (h : g.executionOrder = .ok order) :
    ∃ entries others, order = entries ++ others ∧ entries.Pairwise (· < ·) ∧
      (∀ i, i ∈ entries ↔ i < g.nodes.length ∧ g.IsEntry i) ∧
      others.Pairwise (Schedule.LastBefore (order.flatMap (Schedule.readers deps))) := by
  obtain ⟨deps', hdeps', -, hplaced⟩ := executionOrder_eq_ok.mp h
  obtain rfl : deps' = deps := Except.ok.inj (hdeps'.symm.trans hdeps)
  obtain ⟨others, horder, hothers⟩ := Schedule.exists_placed_run_start hplaced
  refine ⟨_, others, horder, Schedule.pairwise_ready_start, fun i => ?_, hothers⟩
  rw [Schedule.mem_ready_start]
  refine and_congr_right fun _ => ⟨fun hnone j hlinks => ?_, fun hentry d hd htarget => ?_⟩
  · exact hnone _ ((mem_dependencies_iff_links hdeps).mpr hlinks) rfl
  · subst htarget
    exact hentry d.source ((mem_dependencies_iff_links hdeps).mp hd)

/-- Of two nodes to which something leads, the earlier one has its last release first. -/
theorem lastBefore_of_idxOf_lt (hdeps : g.dependencies = .ok deps)
    (h : g.executionOrder = .ok order)
    (hi : ¬ g.IsEntry i) (hj : ¬ g.IsEntry j) (hjmem : j ∈ order)
    (hlt : order.idxOf i < order.idxOf j) :
    Schedule.LastBefore (order.flatMap (Schedule.readers deps)) i j := by
  obtain ⟨entries, others, horder, -, hentries, hothers⟩ := exists_entries hdeps h
  have hout : ∀ {m}, ¬ g.IsEntry m → m ∉ entries := fun hm hmem => hm ((hentries _).mp hmem).2
  refine rel_of_idxOf_lt hothers ?_ ?_
  · rw [horder, List.mem_append] at hjmem
    exact hjmem.resolve_left (hout hj)
  · rw [horder, List.idxOf_append_of_notMem (hout hi), List.idxOf_append_of_notMem (hout hj)] at hlt
    omega

/-- Nothing leads to a node that comes before one to which nothing leads. -/
theorem IsEntry.of_idxOf_lt (hj : g.IsEntry j) (h : g.executionOrder = .ok order)
    (hjmem : j ∈ order) (hlt : order.idxOf i < order.idxOf j) : g.IsEntry i := by
  obtain ⟨deps, hdeps, -⟩ := executionOrder_eq_ok.mp h
  obtain ⟨entries, others, horder, -, hentries, -⟩ := exists_entries hdeps h
  have hj' : j ∈ entries := (hentries j).mpr ⟨(mem_of_executionOrder h).mp hjmem, hj⟩
  refine ((hentries i).mp ?_).2
  rw [horder, List.idxOf_append_of_mem hj'] at hlt
  have hlt' := hlt.trans (List.idxOf_lt_length_of_mem hj')
  by_contra hi
  rw [List.idxOf_append_of_notMem hi] at hlt'
  omega

/-! ### Releases -/

/-- The node at `p` releases the one at `i`: it is the last one in the order that leads there, and
    the connection at place `k` is the last one from `p` to `i`. -/
structure ReleasedBy (g : Graph) (order : List Nat) (i p k : Nat) : Prop where
  joins : ∃ c, g.connections[k]? = some c ∧ g.Joins c p i
  lastSource : ∀ q, g.Links q i → order.idxOf q ≤ order.idxOf p
  lastConnection : ∀ l c, g.connections[l]? = some c → g.Joins c p i → l ≤ k

/-- What releases a node is linked to it. -/
theorem ReleasedBy.links (h : g.ReleasedBy order i p k) : g.Links p i := by
  obtain ⟨c, hc, hjoins⟩ := h.joins
  exact ⟨c, List.mem_of_getElem? hc, hjoins⟩

/-- A node that is released was not in the queue at the start. -/
theorem ReleasedBy.not_isEntry (h : g.ReleasedBy order i p k) : ¬ g.IsEntry i :=
  fun hentry => hentry p h.links

/-- Both nodes have places in the order. -/
theorem ReleasedBy.mem (h : g.ReleasedBy order i p k) (horder : g.executionOrder = .ok order) :
    p ∈ order ∧ i ∈ order := by
  rw [mem_of_executionOrder horder, mem_of_executionOrder horder]
  exact h.links.lt_length

/-- A place in an order belongs to one node. -/
theorem eq_of_idxOf_eq (h : g.executionOrder = .ok order) (hi : i < g.nodes.length)
    (heq : order.idxOf i = order.idxOf j) : i = j :=
  (List.idxOf_inj ((mem_of_executionOrder h).mpr hi)).mp heq

/-- A node is released once. -/
theorem ReleasedBy.unique (h : g.executionOrder = .ok order) (hp : g.ReleasedBy order i p k)
    (hq : g.ReleasedBy order i q l) : p = q ∧ k = l := by
  obtain rfl : p = q := eq_of_idxOf_eq h hp.links.lt_length.1
    (le_antisymm (hq.lastSource p hp.links) (hp.lastSource q hq.links))
  obtain ⟨c, hc, hjoins⟩ := hp.joins
  obtain ⟨d, hd, hjoins'⟩ := hq.joins
  exact ⟨rfl, le_antisymm (hq.lastConnection k c hc hjoins) (hp.lastConnection l d hd hjoins')⟩

/-- A node to which something leads is released. -/
theorem exists_releasedBy (order : List Nat) (hi : ¬ g.IsEntry i) :
    ∃ p k, g.ReleasedBy order i p k := by
  simp only [IsEntry, not_forall, not_not] at hi
  obtain ⟨p₀, hp₀⟩ := hi
  -- First the last place of a node that leads to `i`, and then the last connection from there.
  have hplaces : BddAbove {m | ∃ p, g.Links p i ∧ order.idxOf p = m} := by
    refine ⟨order.length, ?_⟩
    rintro m ⟨p, -, rfl⟩
    exact List.idxOf_le_length
  obtain ⟨m, ⟨p, hp, rfl⟩, hlast⟩ := hplaces.exists_isGreatest_of_nonempty ⟨_, p₀, hp₀, rfl⟩
  have hconnections : BddAbove {l : Nat | ∃ c, g.connections[l]? = some c ∧ g.Joins c p i} := by
    refine ⟨g.connections.length, ?_⟩
    rintro l ⟨c, hc, -⟩
    exact (List.getElem?_eq_some_iff.mp hc).1.le
  obtain ⟨c, hc, hjoins⟩ := hp
  obtain ⟨l₀, hl₀⟩ := List.mem_iff_getElem?.mp hc
  obtain ⟨k, hk, hlast'⟩ := hconnections.exists_isGreatest_of_nonempty ⟨l₀, c, hl₀, hjoins⟩
  exact ⟨p, k, hk, fun q hq => hlast ⟨q, hq, rfl⟩, fun l d hd hd' => hlast' ⟨d, hd, hd'⟩⟩

/-- The dependency that belongs to a connection, among those of the connections around it. -/
theorem exists_split_dependencies (hdeps : g.dependencies = .ok deps) {c : Connection}
    (hc : g.connections[k]? = some c) (hjoins : g.Joins c p i) :
    ∃ before after, deps = before ++ ⟨p, i⟩ :: after ∧
      ∀ d ∈ after, ∃ l c', k < l ∧ g.connections[l]? = some c' ∧ g.Joins c' d.source d.target := by
  have hall := joins_of_dependencies hdeps
  rw [eq_take_append_cons_drop hc, List.filter_append, List.filter_cons_of_pos hjoins.1] at hall
  obtain ⟨before, ⟨source, target⟩, after, hdeps', -, hd, hafter⟩ := forall₂_append_cons_left hall
  obtain ⟨rfl, rfl⟩ := hd.unique hjoins
  refine ⟨before, after, hdeps', fun d hd => ?_⟩
  obtain ⟨c', hc', hjoins'⟩ := exists_of_mem_right hafter hd
  obtain ⟨m, hm⟩ := List.mem_iff_getElem?.mp (List.mem_filter.mp hc').1
  rw [List.getElem?_drop] at hm
  exact ⟨k + 1 + m, c', by omega, hm, hjoins'⟩

/-- What is released earlier is not released again later. -/
theorem ReleasedBy.lastBefore (hdeps : g.dependencies = .ok deps) (h : g.executionOrder = .ok order)
    (hi : g.ReleasedBy order i p k) (hj : g.ReleasedBy order j q l)
    (hlex : toLex (order.idxOf p, k) < toLex (order.idxOf q, l)) :
    Schedule.LastBefore (order.flatMap (Schedule.readers deps)) i j := by
  have hnodup := nodup_of_executionOrder h
  have hle : order.idxOf p ≤ order.idxOf q := by
    rcases Prod.Lex.toLex_lt_toLex.mp hlex with hlt | ⟨heq, -⟩
    · exact hlt.le
    · exact heq.le
  obtain ⟨front, back, horder⟩ := List.append_of_mem (hj.mem h).1
  obtain ⟨c, hc, hjoins⟩ := hj.joins
  obtain ⟨before, after, hdeps', hafter⟩ := exists_split_dependencies hdeps hc hjoins
  -- The last release of `j` is the one by the connection at `l`, when `q` is placed.
  refine ⟨front.flatMap (Schedule.readers deps) ++ Schedule.readers before q,
    Schedule.readers after q ++ back.flatMap (Schedule.readers deps), ?_, ?_⟩
  · have hreaders : Schedule.readers deps q =
        Schedule.readers before q ++ j :: Schedule.readers after q := by
      simp [Schedule.readers, hdeps']
    conv_lhs => rw [horder]
    rw [List.flatMap_append, List.flatMap_cons, hreaders]
    simp
  · rw [List.mem_cons, List.mem_append, not_or, not_or]
    refine ⟨?_, ?_, ?_⟩
    · rintro rfl
      obtain ⟨rfl, rfl⟩ := hi.unique h hj
      exact lt_irrefl _ hlex
    · -- A later connection from `q` to `i` would come after the last one.
      intro hmem
      obtain ⟨m, c', hlm, hc', hjoins'⟩ := hafter _ (Schedule.mem_readers.mp hmem)
      have hqi : g.Links q i := ⟨c', List.mem_of_getElem? hc', hjoins'⟩
      obtain rfl := eq_of_idxOf_eq h hqi.lt_length.1
        (le_antisymm (hi.lastSource q hqi) hle)
      have hml := hi.lastConnection m c' hc' hjoins'
      rcases Prod.Lex.toLex_lt_toLex.mp hlex with hlt | ⟨-, hkl⟩
      · exact lt_irrefl _ hlt
      · simp only at hkl
        omega
    · -- A node after `q` that leads to `i` would come after the last one.
      intro hmem
      obtain ⟨r, hr, hread⟩ := List.mem_flatMap.mp hmem
      have hri := (mem_dependencies_iff_links hdeps).mp (Schedule.mem_readers.mp hread)
      have hlater := pairwise_idxOf_lt hnodup
      rw [horder, List.pairwise_append, List.pairwise_cons, ← horder] at hlater
      have hqr := hlater.2.1.1 r hr
      have hrp := hi.lastSource r hri
      omega

/-- Of two nodes to which something leads, the one that is released first comes first. -/
theorem ReleasedBy.idxOf_lt_iff (h : g.executionOrder = .ok order) (hi : g.ReleasedBy order i p k)
    (hj : g.ReleasedBy order j q l) :
    order.idxOf i < order.idxOf j ↔ toLex (order.idxOf p, k) < toLex (order.idxOf q, l) := by
  obtain ⟨deps, hdeps, -⟩ := executionOrder_eq_ok.mp h
  have hbefore {i j : Nat} (hi : ¬ g.IsEntry i) (hj : ¬ g.IsEntry j) (hjmem : j ∈ order)
      (hlt : order.idxOf i < order.idxOf j) := lastBefore_of_idxOf_lt hdeps h hi hj hjmem hlt
  constructor
  · intro hlt
    have hij := hbefore hi.not_isEntry hj.not_isEntry (hj.mem h).2 hlt
    rcases lt_trichotomy (toLex (order.idxOf p, k)) (toLex (order.idxOf q, l)) with
      hlex | heq | hlex
    · exact hlex
    · -- One connection releases one node.
      obtain ⟨hpq, rfl⟩ := Prod.mk.inj (toLex_inj.mp heq)
      obtain ⟨c, hc, hjoins⟩ := hi.joins
      obtain ⟨d, hd, hjoins'⟩ := hj.joins
      obtain rfl : c = d := Option.some.inj (hc.symm.trans hd)
      rw [(hjoins.unique hjoins').2] at hlt
      exact absurd hlt (lt_irrefl _)
    · exact absurd (hj.lastBefore hdeps h hi hlex) hij.asymm
  · intro hlex
    have hij := hi.lastBefore hdeps h hj hlex
    rcases lt_trichotomy (order.idxOf i) (order.idxOf j) with hlt | heq | hlt
    · exact hlt
    · obtain rfl := eq_of_idxOf_eq h hi.links.lt_length.2 heq
      exact absurd hij hij.asymm
    · exact absurd (hbefore hj.not_isEntry hi.not_isEntry (hi.mem h).2 hlt) hij.asymm

/-! ### Depths -/

/-- A path of `d` connections ends at the node at `i`. -/
inductive PathTo (g : Graph) : Nat → Nat → Prop where
  | start {i : Nat} (hi : i < g.nodes.length) : PathTo g 0 i
  | step {d i j : Nat} (h : PathTo g d i) (hlinks : g.Links i j) : PathTo g (d + 1) j

/-- The longest paths to the node at `i` have `d` connections. -/
def IsDepth (g : Graph) (i d : Nat) : Prop := IsGreatest {e | g.PathTo e i} d

variable {d e : Nat}

/-- The nodes on a path are at different places before its end. -/
theorem PathTo.le_idxOf (hpath : g.PathTo d i) (h : g.executionOrder = .ok order) :
    d ≤ order.idxOf i := by
  induction hpath with
  | start _ => exact Nat.zero_le _
  | step _ hlinks ih => exact Nat.succ_le_of_lt (ih.trans_lt (hlinks.idxOf_lt h))

/-- Where there is an order, each node has a depth. -/
theorem exists_isDepth (h : g.executionOrder = .ok order) (hi : i < g.nodes.length) :
    ∃ d, g.IsDepth i d := by
  have hbounded : BddAbove {e | g.PathTo e i} :=
    ⟨order.idxOf i, fun _ (hpath : g.PathTo _ i) => hpath.le_idxOf h⟩
  exact hbounded.exists_isGreatest_of_nonempty ⟨0, .start hi⟩

/-- Depths do not decrease along an order. -/
theorem IsDepth.le_of_idxOf_lt (h : g.executionOrder = .ok order) (hi : g.IsDepth i d)
    (hj : g.IsDepth j e) (hjmem : j ∈ order) (hlt : order.idxOf i < order.idxOf j) : d ≤ e := by
  induction hplace : order.idxOf j using Nat.strong_induction_on generalizing i j d e with
  | _ place ih =>
    subst hplace
    have hdepth : g.PathTo d i := hi.1
    cases hdepth with
    | start _ => exact Nat.zero_le e
    | @step d r _ hr hri =>
      have hentry : ¬ g.IsEntry i := fun hentry => hentry r hri
      obtain ⟨p, k, hp⟩ := exists_releasedBy order hentry
      obtain ⟨q, l, hq⟩ :=
        exists_releasedBy order fun hentry' => hentry (hentry'.of_idxOf_lt h hjmem hlt)
      have hpq : order.idxOf p ≤ order.idxOf q := by
        rcases Prod.Lex.toLex_lt_toLex.mp ((hp.idxOf_lt_iff h hq).mp hlt) with hpq | ⟨hpq, -⟩
        · exact hpq.le
        · exact hpq.le
      have hqj := hq.links.idxOf_lt h
      obtain ⟨b, hb⟩ := exists_isDepth h hq.links.lt_length.1
      -- The longest path to `i` goes through `r`, which does not come after `q`.
      have hrq : d ≤ b := by
        rcases (hp.lastSource r hri |>.trans hpq).eq_or_lt with heq | hrq
        · obtain rfl := eq_of_idxOf_eq h hri.lt_length.1 heq
          exact hb.2 hr
        · obtain ⟨a, ha⟩ := exists_isDepth h hri.lt_length.1
          exact (ha.2 hr).trans (ih _ hqj ha hb (hq.mem h).1 hrq rfl)
      exact (Nat.succ_le_succ hrq).trans (hj.2 (PathTo.step hb.1 hq.links))

/-! ### The order of nodes -/

/-- **Ties.** An execution order begins with the nodes to which nothing leads, in order of
    declaration. Any other node is released by the last node that leads to it, with the last
    connection from there, and such nodes come in the order of these releases. So nodes at the end
    of longer paths never come before others. -/
theorem executionOrder_ties (h : g.executionOrder = .ok order) :
    (∃ entries others, order = entries ++ others ∧ entries.Pairwise (· < ·) ∧
        ∀ i, i ∈ entries ↔ i < g.nodes.length ∧ g.IsEntry i) ∧
      (∀ i, ¬ g.IsEntry i → ∃! r : Nat × Nat, g.ReleasedBy order i r.1 r.2) ∧
      (∀ i j p q k l, g.ReleasedBy order i p k → g.ReleasedBy order j q l →
        (order.idxOf i < order.idxOf j ↔
          toLex (order.idxOf p, k) < toLex (order.idxOf q, l))) ∧
      (∀ i ∈ order, ∃ d, g.IsDepth i d) ∧
      ∀ i ∈ order, ∀ j ∈ order, ∀ d e, g.IsDepth i d → g.IsDepth j e →
        order.idxOf i < order.idxOf j → d ≤ e := by
  obtain ⟨deps, hdeps, -⟩ := executionOrder_eq_ok.mp h
  refine ⟨?_, ?_, ?_, ?_, ?_⟩
  · obtain ⟨entries, others, horder, hsorted, hentries, -⟩ := exists_entries hdeps h
    exact ⟨entries, others, horder, hsorted, hentries⟩
  · intro i hi
    obtain ⟨p, k, hp⟩ := exists_releasedBy order hi
    refine ⟨(p, k), hp, fun r hr => ?_⟩
    obtain ⟨hpr, hkr⟩ := hr.unique h hp
    exact Prod.ext hpr hkr
  · exact fun i j p q k l hi hj => hi.idxOf_lt_iff h hj
  · exact fun i hi => exists_isDepth h ((mem_of_executionOrder h).mp hi)
  · exact fun i _ j hj d e hd he hlt => hd.le_of_idxOf_lt h he hj hlt

/-- In `doubledMix`, the second connection from `source` to `mix` comes after the one to `side`. -/
theorem executionOrder_ties_doubledMix :
    doubledMix.executionOrder = .ok [1, 3, 4, 2, 0] ∧
      ∃ side mix : Nat × Nat,
        doubledMix.ReleasedBy [1, 3, 4, 2, 0] 4 side.1 side.2 ∧
        doubledMix.ReleasedBy [1, 3, 4, 2, 0] 2 mix.1 mix.2 ∧
        toLex ([1, 3, 4, 2, 0].idxOf side.1, side.2) <
          toLex ([1, 3, 4, 2, 0].idxOf mix.1, mix.2) := by
  obtain ⟨-, hreleased, hlex, -⟩ := executionOrder_ties executionOrder_doubledMix
  have hstands : ∀ name i, doubledMix.position name = .ok i → doubledMix.StandsFor name i :=
    fun _ _ => position_eq_ok_iff.mp
  have hside : doubledMix.Links 3 4 :=
    ⟨⟨⟨"source", "sum"⟩, ⟨"side", "input1"⟩⟩, by decide, by decide,
      hstands _ _ (by decide +kernel), hstands _ _ (by decide +kernel)⟩
  have hmix : doubledMix.Links 3 2 :=
    ⟨⟨⟨"source", "sum"⟩, ⟨"mix", "input1"⟩⟩, by decide, by decide,
      hstands _ _ (by decide +kernel), hstands _ _ (by decide +kernel)⟩
  obtain ⟨side, hside, -⟩ := hreleased 4 fun hentry => hentry 3 hside
  obtain ⟨mix, hmix, -⟩ := hreleased 2 fun hentry => hentry 3 hmix
  exact ⟨executionOrder_doubledMix, side, mix, hside, hmix,
    (hlex _ _ _ _ _ _ hside hmix).mp (by decide)⟩

end ShaderGraph.Graph
