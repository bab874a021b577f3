import ShaderGraph.Proofs.Failures

namespace ShaderGraph

/-!
# Generation by hand

A host that walks a graph by itself asks for the operations of one node at a time. It gets what a
compilation puts into the code of the node, and the same failures.

* `Registry.operations` — the operations for a context, with failures as they arise. Both
  `Registry.generate` and `Registry.compileNode` attach the node to what fails in them:
  `Registry.generate_eq`, `Registry.compileNode_result_eq`.
* `Graph.nodeCode_eq_error` — after the operations only the types of sockets can be in the way.
* `Registry.generateAll` — a walk through the whole graph.
-/

/-- A failure without an identity is its own cause. -/
theorem Error.rootCause_of_identity?_eq_none {e : Error} (h : e.identity? = none) :
    e.rootCause = e := by
  cases e with
  | node => cases h
  | _ => rfl

/-! ### The code of a node after its operations -/

namespace Graph

variable {g : Graph} {n : Node}

/-- If no variable can be declared for some of the sockets, the first of them is to blame. -/
theorem declarations_eq_error {sockets : List Socket} {name : Socket → String}
    {qualifier? : Socket → Option String} {e : Error}
    (h : sockets.mapM (fun s => Declaration.ofType (name s) s.type (qualifier? s)) = .error e) :
    ∃ s ∈ sockets, s.type = .string ∧ e = .unsupportedType s.type := by
  obtain ⟨s, hfind, hs⟩ := (mapM_eq_error fun s => isOk_eq_true).mp h
  obtain ⟨htype, rfl⟩ := Declaration.ofType_eq_error.mp hs
  exact ⟨s, List.mem_of_find?_eq_some hfind, htype, by rw [htype]⟩

/-- Once a node has its operations, its code fails with the type of a socket or not at all: all of
    its arguments are there. -/
theorem nodeCode_eq_error (hg : g.Valid) (hn : n ∈ g.nodes) {ctx : Context}
    (hctx : g.context n = .ok ctx) {operations : List Operation} {e : Error}
    (h : g.nodeCode n ctx operations = .error e) :
    ∃ s ∈ ctx.parameters, s.type = .string ∧ e = .unsupportedType s.type := by
  obtain ⟨arguments, harguments⟩ := exists_arguments hg hn hctx
  rw [nodeCode, harguments] at h
  rcases bind_eq_error.mp h with h | ⟨parameters, -, h⟩
  · exact declarations_eq_error h
  rw [ok_bind] at h
  rcases bind_eq_error.mp h with h | ⟨locals, -, h⟩
  · obtain ⟨s, hs, htype, rfl⟩ := declarations_eq_error h
    exact ⟨s, List.mem_append_right _ hs, htype, rfl⟩
  · cases h

/-- The code of a node has the operations that it is given. -/
theorem operations_of_nodeCode_eq_ok {ctx : Context} {operations : List Operation} {code : NodeCode}
    (h : g.nodeCode n ctx operations = .ok code) : code.operations = operations := by
  obtain ⟨_, _, _, -, -, -, rfl⟩ := nodeCode_eq_ok.mp h
  rfl

end Graph

/-! ### Operations -/

namespace Registry

variable {r : Registry} {g : Graph} {n : Node} {ctx : Context}

/-- The operations for a node of a given kind, with failures as they arise. -/
def operations (r : Registry) (kind : String) (ctx : Context) : Except Error (List Operation) := do
  let adapter ← r.lookup kind
  adapter.generate ctx

/-- Generation is the operations of the adapter with the identity of the node on failures. -/
theorem generate_eq (r : Registry) (node kind : String) (ctx : Context) :
    r.generate node kind ctx = (r.operations kind ctx).mapError (·.inNode node kind) := rfl

/-- A compilation asks for the same operations, and then completes the code. -/
theorem compileNode_result_eq (hctx : g.context n = .ok ctx) :
    (r.compileNode g n).result =
      (r.operations n.kind ctx >>= g.nodeCode n ctx).mapError (·.inNode n.name n.kind) := by
  rw [compileNode, Traced.inNode_result, nodeCode_result, hctx, ok_bind, operations]
  cases r.lookup n.kind <;> rfl

/-- If adapters attribute no failures, neither does their registry. -/
theorem unattributed_operations (hr : ∀ a ∈ r.adapters, ∀ ctx, Unattributed (a.generate ctx))
    (kind : String) (ctx : Context) : Unattributed (r.operations kind ctx) := by
  intro e h
  rcases bind_eq_error.mp h with h | ⟨a, ha, h⟩
  · exact r.unattributed_lookup kind e h
  · exact hr a (mem_of_lookup_eq_ok ha) ctx e h

/-- Generation that fails does so in a compilation too. -/
theorem compileNode_eq_error_of_generate (hctx : g.context n = .ok ctx) {e : Error}
    (h : r.generate n.name n.kind ctx = .error e) : (r.compileNode g n).result = .error e := by
  rw [generate_eq] at h
  obtain ⟨cause, hops, rfl⟩ := mapError_eq_error.mp h
  rw [compileNode_result_eq hctx, hops, error_bind]
  rfl

/-- The node is attached once to what fails in a generation. -/
theorem exists_cause_of_generate (hr : ∀ a ∈ r.adapters, ∀ ctx, Unattributed (a.generate ctx))
    {node kind : String} {e : Error} (h : r.generate node kind ctx = .error e) :
    ∃ cause, e = .node node kind cause ∧ cause.identity? = none := by
  rw [generate_eq] at h
  obtain ⟨cause, hops, rfl⟩ := mapError_eq_error.mp h
  have hbare := unattributed_operations hr kind ctx cause hops
  exact ⟨cause, Graph.inNode_of_identity?_eq_none hbare node kind, hbare⟩

/-- Operations that are generated are those of the code, unless a socket cannot be declared. -/
theorem compileNode_of_generate_eq_ok (hg : g.Valid) (hn : n ∈ g.nodes)
    (hctx : g.context n = .ok ctx)
    {ops : List Operation} (h : r.generate n.name n.kind ctx = .ok ops) :
    (∃ code, (r.compileNode g n).result = .ok code ∧ code.operations = ops) ∨
      ∃ s ∈ ctx.parameters, s.type = .string ∧
        (r.compileNode g n).result = .error (.node n.name n.kind (.unsupportedType s.type)) := by
  rw [generate_eq, mapError_eq_ok] at h
  rw [compileNode_result_eq hctx, h, ok_bind]
  cases hcode : g.nodeCode n ctx ops with
  | ok code => exact .inl ⟨code, rfl, Graph.operations_of_nodeCode_eq_ok hcode⟩
  | error e =>
    obtain ⟨s, hs, htype, rfl⟩ := Graph.nodeCode_eq_error hg hn hctx hcode
    exact .inr ⟨s, hs, htype, rfl⟩

/-- The operations of a node whose code is known. -/
theorem generate_of_nodeCode {code : NodeCode} (h : (r.nodeCode g n).result = .ok code) :
    ∃ ctx, g.context n = .ok ctx ∧ r.generate n.name n.kind ctx = .ok code.operations := by
  obtain ⟨ctx, adapter, ops, hctx, hadapter, hops, hcode⟩ := nodeCode_eq_ok.mp h
  refine ⟨ctx, hctx, ?_⟩
  rw [generate_eq, operations, hadapter, ok_bind, hops, Graph.operations_of_nodeCode_eq_ok hcode]
  rfl

/-! ### Graphs -/

/-- The operations of each node of a graph, as a host gets them that walks the graph in execution
    order. -/
def generateAll (r : Registry) (g : Graph) : Except Error (List (List Operation)) := do
  let order ← g.executionOrder
  (g.nodesAt order).mapM fun n => do
    let ctx ← g.context n
    r.generate n.name n.kind ctx

/-- **Generation by hand.** For a node of a valid graph, generation by hand fails as the compilation
    of the node does, and names the node once. If it succeeds, the compilation puts the same
    operations into the code of the node, unless the type of a socket has no spelling. A walk
    through a graph that is compiled gives the operations of its program. -/
theorem generate_agrees (hr : ∀ a ∈ r.adapters, ∀ ctx, Unattributed (a.generate ctx))
    (hvalid : g.validate = .ok ()) :
    (∀ n ∈ g.nodes, ∀ ctx, g.context n = .ok ctx →
      (∀ e, r.generate n.name n.kind ctx = .error e →
        (r.compileNode g n).result = .error e ∧
        ∃ cause, e = .node n.name n.kind cause ∧ e.rootCause = cause ∧ cause.identity? = none) ∧
      ∀ ops, r.generate n.name n.kind ctx = .ok ops →
        (∃ code, (r.compileNode g n).result = .ok code ∧ code.operations = ops) ∨
        ∃ s ∈ ctx.parameters, s.type.targetName? = none ∧
          (r.compileNode g n).result = .error (.node n.name n.kind (.unsupportedType s.type))) ∧
    ∀ p, (r.compile g).result = .ok p → r.generateAll g = .ok (p.nodes.map (·.operations)) := by
  have hg := Graph.validate_eq_ok.mp hvalid
  refine ⟨fun n hn ctx hctx => ⟨?_, ?_⟩, ?_⟩
  · intro e h
    obtain ⟨cause, rfl, hbare⟩ := exists_cause_of_generate hr h
    exact ⟨compileNode_eq_error_of_generate hctx h, cause, rfl,
      Error.rootCause_of_identity?_eq_none hbare, hbare⟩
  · intro ops h
    refine (compileNode_of_generate_eq_ok hg hn hctx h).imp_right ?_
    rintro ⟨s, hs, htype, hresult⟩
    exact ⟨s, hs, DataType.targetName?_eq_none.mpr htype, hresult⟩
  · intro p hp
    obtain ⟨-, order, horder, -, hnodes, -⟩ := compile_eq_ok.mp hp
    rw [generateAll, horder, ok_bind, mapM_eq_ok, List.forall₂_map_right_iff]
    refine hnodes.imp fun n code hcode => ?_
    obtain ⟨ctx, hctx, hops⟩ := generate_of_nodeCode hcode
    rw [hctx, ok_bind, hops]

/-- In `faultyGraph` the lone input of `early` has the wrong name. The program of `tintedColor` is
    the one that a host puts together by itself. -/
theorem generate_agrees_faultyGraph :
    (∀ a ∈ builtin.adapters, ∀ ctx, Unattributed (a.generate ctx)) ∧
      Graph.faultyGraph.validate = .ok () ∧ Graph.tintedColor.validate = .ok () ∧
      (∃ n ∈ Graph.faultyGraph.nodes, ∃ ctx, Graph.faultyGraph.context n = .ok ctx ∧
        builtin.generate n.name n.kind ctx =
          .error (.node "early" "add" (.missingSocket "input1")) ∧
        (builtin.compileNode Graph.faultyGraph n).result =
          .error (.node "early" "add" (.missingSocket "input1"))) ∧
      builtin.generateAll Graph.tintedColor =
        .ok (Graph.tintedColorProgram.nodes.map (·.operations)) := by
  have hr := unattributed_builtin
  have hfaulty : Graph.faultyGraph.validate = .ok () := by decide +kernel
  have htinted : Graph.tintedColor.validate = .ok () := by decide +kernel
  refine ⟨hr, hfaulty, htinted, ?_, ?_⟩
  · let early : Node := {
      name := "early"
      kind := "add"
      inputs := [⟨"amount", "float"⟩]
      outputs := [⟨"sum", "float"⟩] }
    let ctx : Context := {
      inputs := [⟨"amount", .float, .input⟩]
      outputs := [⟨"sum", .float, .output⟩] }
    have hn : early ∈ Graph.faultyGraph.nodes := by decide +kernel
    have hctx : Graph.faultyGraph.context early = .ok ctx := by decide +kernel
    have hfails : builtin.generate early.name early.kind ctx =
        .error (.node "early" "add" (.missingSocket "input1")) := by decide +kernel
    exact ⟨early, hn, ctx, hctx, hfails,
      (((generate_agrees hr hfaulty).1 early hn ctx hctx).1 _ hfails).1⟩
  · exact (generate_agrees hr htinted).2 _ Graph.compile_tintedColor

end Registry

end ShaderGraph
