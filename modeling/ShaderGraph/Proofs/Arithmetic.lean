import ShaderGraph.Proofs.Contexts

namespace ShaderGraph

/-!
# Arithmetic nodes

What the built-in adapters generate, and when they generate anything.

* `Operator.kind`, `Operator.resultSocket` — the nodes that stand for an operator, and the output
  that receives their result.
* `foldInputs_eq_ok` — folding the inputs of a node gives one assignment.
* `Registry.lookup_builtin_eq_ok`, `Operator.generate_adapter` — the adapters by their operators.
* `Graph.nodeCode_builtin_eq_ok` — the code of a node in a valid graph.
-/

/-! ### Operators -/

namespace Operator

/-- The kind of the nodes that stand for the operator. -/
def kind : Operator → String
  | add => "add"
  | subtract => "subtract"
  | multiply => "multiply"
  | divide => "divide"

/-- The output that receives the result of such a node. -/
def resultSocket : Operator → String
  | add => "sum"
  | subtract => "diff"
  | multiply => "product"
  | divide => "div"

/-- The adapter for such nodes. -/
def adapter : Operator → Adapter
  | add => Adapter.add
  | subtract => Adapter.subtract
  | multiply => Adapter.multiply
  | divide => Adapter.divide

/-- The adapter of an operator answers for the kind of the operator. -/
theorem kind_adapter (op : Operator) : op.adapter.kind = op.kind := by
  cases op <;> rfl

/-- Each kind belongs to one operator. -/
theorem kind_injective {op op' : Operator} (h : op.kind = op'.kind) : op = op' := by
  revert h
  cases op <;> cases op' <;> decide

end Operator

/-! ### Folding inputs -/

/-- A combination grows at its right end. -/
theorem combine_concat (op : Operator) (first : String) (others : List String) (last : String) :
    combine op first (others ++ [last]) = .binary op (combine op first others) (.var last) := by
  unfold combine
  rw [List.foldl_concat]

/-- A lone input has the name that it must have, or there is no value. -/
theorem foldedValue_eq_ok {ctx : Context} {op : Operator} {first : Socket} {others : List Socket}
    (hinputs : ctx.inputs = first :: others) {value : Expr} :
    foldedValue ctx op first others = .ok value ↔
      (others = [] → first.name = loneInput) ∧
        value = combine op first.varName (others.map (·.varName)) := by
  cases others with
  | cons second others => simp [foldedValue, eq_comm]
  | nil =>
    rw [foldedValue, map_eq_ok, Context.input, Context.find, hinputs]
    by_cases h : first.name = loneInput
    · simp [h, combine, eq_comm]
    · simp [h]

/-- Folding the inputs of a node gives one assignment to the output, provided that there are
    inputs, that there is the output, and that a lone input has the right name. -/
theorem foldInputs_eq_ok {ctx : Context} {op : Operator} {output : String}
    {operations : List Operation} :
    foldInputs ctx op output = .ok operations ↔
      ∃ first others target, ctx.inputs = first :: others ∧
        (others = [] → first.name = loneInput) ∧ ctx.output output = .ok target ∧
        operations = [.assign target.varName
          (combine op first.varName (others.map (·.varName)))] := by
  cases hinputs : ctx.inputs with
  | nil => simp [foldInputs, hinputs]
  | cons first others =>
    simp only [foldInputs, hinputs, bind_eq_ok, pure_eq_ok, foldedValue_eq_ok hinputs]
    refine ⟨?_, ?_⟩
    · rintro ⟨target, htarget, value, ⟨hlone, rfl⟩, rfl⟩
      exact ⟨first, others, target, rfl, hlone, htarget, rfl⟩
    · rintro ⟨_, _, target, heq, hlone, htarget, rfl⟩
      cases heq
      exact ⟨target, htarget, _, ⟨hlone, rfl⟩, rfl⟩

/-! ### The built-in adapters -/

/-- The adapter for an operator folds the inputs of the node. -/
theorem Operator.generate_adapter (op : Operator) (ctx : Context) :
    op.adapter.generate ctx = foldInputs ctx op op.resultSocket := by
  have hfolding : ∀ kind displayName output description,
      (Adapter.folding op kind displayName output description).generate ctx =
        foldInputs ctx op output := by
    intro kind displayName output description
    show (foldInputs ctx op output >>= fun body => pure ([] ++ body)) = foldInputs ctx op output
    cases foldInputs ctx op output <;> rfl
  cases op <;> exact hfolding ..

namespace Registry

/-- The arithmetic adapters are registered in the order of their kinds. -/
theorem adapters_builtin :
    builtin.adapters = [Adapter.add, Adapter.divide, Adapter.multiply, Adapter.subtract] := by
  rfl

/-- Four kinds of nodes have built-in adapters, those of the operators. -/
theorem lookup_builtin_eq_ok {kind : String} {a : Adapter} :
    builtin.lookup kind = .ok a ↔ ∃ op : Operator, op.kind = kind ∧ op.adapter = a := by
  -- No two adapters have one kind, so the first one found is the only one.
  have hkinds : (builtin.adapters.map (·.kind)).Nodup := by
    rw [adapters_builtin]
    decide
  have hfind : builtin.lookup kind = .ok a ↔ a ∈ builtin.adapters ∧ a.kind = kind := by
    rw [← find?_key_eq_some hkinds, lookup, find?]
    cases builtin.adapters.find? (·.kind == kind) <;> simp
  rw [hfind, adapters_builtin]
  refine ⟨?_, ?_⟩
  · rintro ⟨ha, rfl⟩
    simp only [List.mem_cons, List.not_mem_nil, or_false] at ha
    rcases ha with rfl | rfl | rfl | rfl
    exacts [⟨.add, rfl, rfl⟩, ⟨.divide, rfl, rfl⟩, ⟨.multiply, rfl, rfl⟩, ⟨.subtract, rfl, rfl⟩]
  · rintro ⟨op, rfl, rfl⟩
    refine ⟨?_, op.kind_adapter⟩
    cases op <;> simp [Operator.adapter]

end Registry

/-! ### Nodes -/

/-- The one operation for a node whose connected inputs are `first` and `others`. -/
def Operator.operation (op : Operator) (first : SocketDecl) (others : List SocketDecl) :
    Operation :=
  .assign (Naming.variableName op.resultSocket) (combine op (Naming.variableName first.name)
    (others.map fun decl => Naming.variableName decl.name))

/-- Among sockets of distinct names, the one that has the name is found. -/
theorem Context.find_eq_ok {sockets : List Socket} (hnames : (sockets.map (·.name)).Nodup)
    {name : String} {s : Socket} :
    find name sockets = .ok s ↔ s ∈ sockets ∧ s.name = name := by
  rw [← find?_key_eq_some hnames, find]
  cases sockets.find? (·.name == name) <;> simp

namespace Graph

variable {g : Graph} {n : Node}

/-- Folding the inputs of a node of a valid graph, in terms of its declared sockets. -/
theorem foldInputs_context_eq_ok (hg : g.Valid) (hn : n ∈ g.nodes) {ctx : Context}
    (hctx : g.context n = .ok ctx) {op : Operator} {operations : List Operation} :
    foldInputs ctx op op.resultSocket = .ok operations ↔
      ∃ first others, n.inputs.filter (g.IsConnected n) = first :: others ∧
        (others = [] → first.name = loneInput) ∧
        (∃ decl ∈ n.outputs, decl.name = op.resultSocket) ∧
        operations = [op.operation first others] := by
  obtain ⟨hinputs, houtputs⟩ := (context_eq_ok hg hn).mp hctx
  have houtNames := (names_resolve houtputs).1
  have hdistinct := hg.distinct_sockets hn
  rw [List.map_append, List.nodup_append, houtNames] at hdistinct
  -- The context has the outputs of the node under their names.
  have houtput : (∃ target, ctx.output op.resultSocket = .ok target) ↔
      ∃ decl ∈ n.outputs, decl.name = op.resultSocket := by
    have := congrArg (op.resultSocket ∈ ·) houtNames
    simp only [List.mem_map, eq_iff_iff] at this
    simp only [Context.output, Context.find_eq_ok hdistinct.2.1, this]
  rw [foldInputs_eq_ok, ← houtput]
  generalize n.inputs.filter (g.IsConnected n) = decls at hinputs
  generalize ctx.inputs = sockets at hinputs
  cases hinputs with
  | nil => simp
  | @cons first socket others sockets hfirst hothers =>
    have hfirstName : socket.name = first.name := (SocketDecl.name_resolve hfirst).1
    have hnone : sockets = [] ↔ others = [] := by
      rw [← List.length_eq_zero_iff, ← List.length_eq_zero_iff, hothers.length_eq]
    -- Sockets and declarations agree in their names, hence in their variables.
    have hoperation : ∀ target, ctx.output op.resultSocket = .ok target →
        Operation.assign target.varName (combine op socket.varName (sockets.map (·.varName))) =
          op.operation first others := by
      intro target htarget
      have hvars := congrArg (List.map Naming.variableName) (names_resolve hothers).1
      simp only [List.map_map, Function.comp_def] at hvars
      obtain ⟨-, hname⟩ := (Context.find_eq_ok hdistinct.2.1).mp htarget
      simp only [Operator.operation, hvars, Socket.varName, hname, hfirstName]
    refine ⟨?_, ?_⟩
    · rintro ⟨_, _, target, heq, hlone, htarget, rfl⟩
      cases heq
      rw [hnone, hfirstName] at hlone
      exact ⟨first, others, rfl, hlone, ⟨target, htarget⟩, by rw [hoperation target htarget]⟩
    · rintro ⟨_, _, heq, hlone, ⟨target, htarget⟩, rfl⟩
      cases heq
      rw [← hnone, ← hfirstName] at hlone
      exact ⟨socket, sockets, target, rfl, hlone, htarget, by rw [hoperation target htarget]⟩

/-- The built-in adapters generate code for a node whose kind is that of an operator, which has the
    output of that operator, and whose connected inputs can be folded. -/
theorem nodeCode_builtin_eq_ok (hg : g.Valid) (hn : n ∈ g.nodes) {code : NodeCode} :
    (Registry.builtin.nodeCode g n).result = .ok code ↔
      ∃ op : Operator, op.kind = n.kind ∧ (∃ decl ∈ n.outputs, decl.name = op.resultSocket) ∧
        ∃ first others, n.inputs.filter (g.IsConnected n) = first :: others ∧
          (others = [] → first.name = loneInput) ∧
          ∃ ctx, g.context n = .ok ctx ∧
            g.nodeCode n ctx [op.operation first others] = .ok code := by
  rw [Registry.nodeCode_eq_ok]
  refine ⟨?_, ?_⟩
  · rintro ⟨ctx, _, _, hctx, hlookup, hgenerate, hcode⟩
    obtain ⟨op, hkind, rfl⟩ := Registry.lookup_builtin_eq_ok.mp hlookup
    rw [op.generate_adapter, foldInputs_context_eq_ok hg hn hctx] at hgenerate
    obtain ⟨first, others, hinputs, hlone, houtput, rfl⟩ := hgenerate
    exact ⟨op, hkind, houtput, first, others, hinputs, hlone, ctx, hctx, hcode⟩
  · rintro ⟨op, hkind, houtput, first, others, hinputs, hlone, ctx, hctx, hcode⟩
    refine ⟨ctx, op.adapter, _, hctx, Registry.lookup_builtin_eq_ok.mpr ⟨op, hkind, rfl⟩, ?_, hcode⟩
    rw [op.generate_adapter, foldInputs_context_eq_ok hg hn hctx]
    exact ⟨first, others, hinputs, hlone, houtput, rfl⟩

/-- With the built-in adapters, a node folds its connected inputs in a single operation. -/
theorem operations_of_nodeCode (hg : g.Valid) (hn : n ∈ g.nodes) {code : NodeCode}
    (h : (Registry.builtin.nodeCode g n).result = .ok code) :
    ∃ op : Operator, op.kind = n.kind ∧ (∃ decl ∈ n.outputs, decl.name = op.resultSocket) ∧
      ∃ first others, n.inputs.filter (g.IsConnected n) = first :: others ∧
        code.operations = [op.operation first others] := by
  obtain ⟨op, hkind, hresult, first, others, hinputs, -, ctx, -, hnode⟩ :=
    (nodeCode_builtin_eq_ok hg hn).mp h
  obtain ⟨_, _, _, -, -, -, rfl⟩ := nodeCode_eq_ok.mp hnode
  exact ⟨op, hkind, hresult, first, others, hinputs, rfl⟩

end Graph

end ShaderGraph
