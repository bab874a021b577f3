import ShaderGraph.Graph.Basic

/-!
# Execution order

The nodes of a graph in an order in which each follows all nodes that it reads. Nodes are placed
one after another; a node is ready once all of its dependencies are placed, and ready nodes wait
in a queue, at first in declaration order.

* `Graph.dependencies` — the connections between nodes, as pairs of positions.
* `Schedule` — the state of the placement, with `Schedule.release`, `Schedule.place` and
  `Schedule.run`.
* `Graph.executionOrder` — the order, unless some nodes depend on each other in a circle.
-/

namespace ShaderGraph

/-! ### Dependencies -/

/-- The second node of a pair reads the first; both are given by their position. -/
structure Dependency where
  source : Nat
  target : Nat
deriving DecidableEq, Repr

namespace Graph

/-- The position of the last node called `name`. -/
def lastIndex? (g : Graph) (name : String) : Option Nat :=
  (g.nodes.zipIdx.reverse.find? (·.1.name == name)).map (·.2)

/-- The position of the node called `name`. -/
def position (g : Graph) (name : String) : Except Error Nat :=
  match g.lastIndex? name with
  | some i => .ok i
  | none => .error (.unknownNode name)

/-- Whether a connection joins two nodes, and not the graph's own inputs or outputs. -/
def isInner (c : Connection) : Bool :=
  c.source.node != inputNode && c.target.node != outputNode

/-- The positions of the nodes that a connection joins. -/
def dependency (g : Graph) (c : Connection) : Except Error Dependency := do
  let source ← g.position c.source.node
  let target ← g.position c.target.node
  return { source, target }

/-- The dependencies between the nodes of a graph, in the order of the connections. -/
def dependencies (g : Graph) : Except Error (List Dependency) :=
  (g.connections.filter isInner).mapM g.dependency

end Graph

/-! ### Placement -/

/-- A placement of nodes that has got part of the way. -/
structure Schedule where
  /-- For each node, the number of its dependencies on nodes that are not placed yet. -/
  pending : Array Nat
  /-- The nodes that wait to be placed. -/
  ready : List Nat
  /-- The nodes that are placed, the last one first. -/
  placed : List Nat
deriving DecidableEq, Repr

namespace Schedule

/-- No node is placed, and those without dependencies are ready. -/
def start (size : Nat) (dependencies : List Dependency) : Schedule :=
  let pending := dependencies.foldl (fun counts d => counts.modify d.target (· + 1))
    (Array.replicate size 0)
  { pending
    ready := (List.range size).filter fun i => pending[i]? == some 0
    placed := [] }

/-- Takes one dependency off a node, which becomes ready if that was its last. -/
def release (s : Schedule) (target : Nat) : Schedule :=
  let pending := s.pending.modify target (· - 1)
  { s with
    pending
    ready := if pending[target]? == some 0 then s.ready ++ [target] else s.ready }

/-- The nodes that read the one at `source`, once for each dependency. -/
def readers (dependencies : List Dependency) (source : Nat) : List Nat :=
  (dependencies.filter (·.source == source)).map (·.target)

/-- Places the first ready node `i`, with the others in `rest`, and releases its readers. -/
def place (dependencies : List Dependency) (s : Schedule) (i : Nat) (rest : List Nat) : Schedule :=
  (readers dependencies i).foldl release { s with ready := rest, placed := i :: s.placed }

/-- Places nodes while some are ready, `steps` of them at most. -/
def run (dependencies : List Dependency) : Nat → Schedule → Schedule
  | 0, s => s
  | steps + 1, s =>
    match s.ready with
    | [] => s
    | i :: rest => run dependencies steps (s.place dependencies i rest)

end Schedule

/-! ### The order -/

namespace Graph

/-- The positions of the nodes in execution order. A node is placed once, so there are no more
    steps than nodes; nodes on a circle are never ready. -/
def executionOrder (g : Graph) : Except Error (List Nat) := do
  let dependencies ← g.dependencies
  let size := g.nodes.length
  let final := (Schedule.start size dependencies).run dependencies size
  if final.placed.length = size then .ok final.placed.reverse else .error .cycle

/-- The nodes at the given positions. -/
def nodesAt (g : Graph) (positions : List Nat) : List Node :=
  positions.filterMap (g.nodes[·]?)

end Graph

end ShaderGraph
