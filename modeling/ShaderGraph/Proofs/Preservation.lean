import ShaderGraph.Proofs.Denotation

namespace ShaderGraph.Graph

/-!
# Preservation of values

Running the program of a graph computes the values of the graph.

* `runCall_eq` — a call leaves in the locals of a node what the node makes of the arguments.
* `runCalls_frame`, `runCalls_locals` — what the calls leave in all variables in the end.
* `denotes_runCalls` — these are values of the graph. What is left then is to copy those of the
  graph outputs.
-/

universe u

variable {α : Type u} {r : Registry} {g : Graph} {n : Node} {p : Program} {order : List Nat}

/-! ### Calls -/

/-- The body of a node's function leaves the fold of its inputs in the output for the result, and
    nothing in other outputs. -/
theorem runAll_operation_output (A : Arithmetic α) (hg : g.Valid) (hn : n ∈ g.nodes) {op : Operator}
    {first : SocketDecl} {others : List SocketDecl}
    (hinputs : n.inputs.filter (g.IsConnected n) = first :: others)
    (hresult : ∃ decl ∈ n.outputs, decl.name = op.resultSocket) {values : List (Option α)}
    (hlength : (first :: others).length = values.length) {decl : SocketDecl}
    (hdecl : decl ∈ n.outputs) :
    runAll A [op.operation first others]
        (Env.empty.setAll ((first :: others).map fun decl => Naming.variableName decl.name) values)
        (Naming.variableName decl.name) =
      if decl.name = op.resultSocket then A.fold op values else none := by
  obtain ⟨hin, hout, hapart⟩ := List.nodup_append.mp (hg.nodup_parameterVariables hn)
  have hsub : ((first :: others).map fun decl => Naming.variableName decl.name).Sublist
      (n.inputs.map fun decl => Naming.variableName decl.name) := by
    rw [← hinputs]
    exact List.filter_sublist.map _
  rw [runAll_operation, Env.map_setAll (hin.sublist hsub) (by rw [List.length_map, hlength])]
  by_cases hname : decl.name = op.resultSocket
  · rw [if_pos hname, hname, Function.update_self]
  · -- Another output has another variable, and that is no variable of an input either.
    obtain ⟨result, hmem, hresultName⟩ := hresult
    have hne : Naming.variableName decl.name ≠ Naming.variableName op.resultSocket := by
      intro heq
      rw [← hresultName] at heq hname
      exact hname (congrArg _ (List.inj_on_of_nodup_map hout hdecl hmem heq))
    have hinput : Naming.variableName decl.name ∉
        (first :: others).map fun decl => Naming.variableName decl.name := by
      intro hmem
      exact hapart _ (hsub.mem hmem) _ (List.mem_map_of_mem hdecl) rfl
    rw [if_neg hname, Function.update_of_ne hne, Env.setAll_of_not_mem hinput]
    rfl

/-- A call leaves in the locals of its node what the node makes of the arguments. -/
theorem runCall_eq (A : Arithmetic α) (hg : g.Valid) (hn : n ∈ g.nodes) {code : NodeCode}
    (h : (Registry.builtin.nodeCode g n).result = .ok code) :
    ∃ op : Operator, op.kind = n.kind ∧ ∀ env : Env α,
      code.runCall A env = env.setAll n.localVariables (n.outputs.map fun decl =>
        if decl.name = op.resultSocket then A.fold op (code.inputArguments.map env) else none) := by
  obtain ⟨ins, outs, passed, hcode⟩ := isCodeOf_of_nodeCode hg hn h
  obtain ⟨op, hkind, hresult, first, others, hinputs, hoperations⟩ := operations_of_nodeCode hg hn h
  obtain ⟨hinNames, houtNames⟩ := hcode.names_parameters
  obtain ⟨hinArguments, houtArguments⟩ := hcode.names_arguments
  refine ⟨op, hkind, fun env => ?_⟩
  -- There is one argument for each connected input.
  have hlength : (first :: others).length = (code.inputArguments.map env).length := by
    rw [List.length_map, hinArguments, ← hcode.passed.length_eq, hinputs]
  unfold NodeCode.runCall NodeCode.frame
  rw [houtArguments, hcode.localNames_eq, hoperations, hinNames, houtNames, hinputs, List.map_map]
  congr 1
  exact List.map_congr_left fun decl hdecl =>
    runAll_operation_output A hg hn hinputs hresult hlength hdecl

/-! ### Runs -/

/-- Calls leave all variables alone but for the locals of their nodes. -/
theorem runCalls_frame (A : Arithmetic α) {nodes : List Node} {codes : List NodeCode}
    (h : List.Forall₂ (g.Generates r) nodes codes)
    {name : String} (hname : name ∉ nodes.flatMap (·.localVariables)) (env : Env α) :
    runCalls A codes env name = env name := by
  induction h generalizing env with
  | nil => rfl
  | @cons n code _ _ hcode _ ih =>
    obtain ⟨ins, outs, passed, hcode⟩ := hcode.isCodeOf
    rw [List.flatMap_cons, List.mem_append, not_or] at hname
    have hcall : name ∉ code.outArguments := by
      rw [hcode.names_arguments.2, hcode.localNames_eq]
      exact hname.1
    exact (ih hname.2 _).trans (NodeCode.runCall_of_not_mem A hcall)

/-- In the end, the locals of a node hold what the node makes of its arguments: those were defined
    before its call, and neither they nor the locals are written after it. -/
theorem runCalls_locals (A : Arithmetic α) (hg : g.Valid) (horder : g.executionOrder = .ok order)
    {codes : List NodeCode}
    (hcodes : List.Forall₂ (g.Generates Registry.builtin) (g.nodesAt order) codes)
    (hn : n ∈ g.nodes) (env : Env α) :
    ∃ op : Operator, op.kind = n.kind ∧ ∃ arguments,
      List.Forall₂ (fun decl a => g.Carries ⟨n.name, decl.name⟩ a)
        (n.inputs.filter (g.IsConnected n)) arguments ∧
      ∀ decl ∈ n.outputs, runCalls A codes env (Naming.localName n.name decl.name) =
        if decl.name = op.resultSocket then A.fold op (arguments.map (runCalls A codes env))
        else none := by
  obtain ⟨before, after, hsplit⟩ := List.append_of_mem ((mem_nodesAt horder).mpr hn)
  have hdistinct := hg.nodup_entry horder
  rw [hsplit] at hcodes hdistinct
  obtain ⟨earlier, code, later, rfl, -, hcode, hlater⟩ := forall₂_append_cons_left hcodes
  obtain ⟨op, hkind, hcall⟩ := runCall_eq A hg hn hcode.nodeCode_eq
  obtain ⟨ins, outs, passed, hshape⟩ := hcode.isCodeOf
  have hfinal : runCalls A (earlier ++ code :: later) env =
      runCalls A (code :: later) (runCalls A earlier env) := List.foldl_append
  rw [hfinal]
  generalize runCalls A earlier env = start
  -- This call and later ones leave the arguments alone, and later ones leave the locals alone.
  have harguments : code.inputArguments.map (runCalls A (code :: later) start) =
      code.inputArguments.map start := by
    refine List.map_congr_left fun a ha => runCalls_frame A (.cons hcode hlater) ?_ start
    exact (mem_inputArguments hg horder hsplit hshape ha).2.2
  rw [List.flatMap_append, List.flatMap_cons] at hdistinct
  obtain ⟨hlocals, -, hapart⟩ :=
    List.nodup_append.mp (List.nodup_append.mp (List.nodup_append.mp hdistinct).2.1).2.1
  have hkept : ∀ name ∈ n.localVariables,
      runCalls A (code :: later) start name = code.runCall A start name := by
    intro name hname
    exact runCalls_frame A hlater (fun hafter => hapart _ hname _ hafter rfl) _
  have hset : n.localVariables.map (code.runCall A start) = n.outputs.map fun decl =>
      if decl.name = op.resultSocket then A.fold op (code.inputArguments.map start) else none := by
    rw [hcall]
    exact Env.map_setAll hlocals (by rw [Node.localVariables, List.length_map, List.length_map])
  refine ⟨op, hkind, code.inputArguments, ?_, ?_⟩
  · rw [hshape.names_arguments.1]
    exact hshape.passed
  · intro decl hdecl
    unfold Node.localVariables at hset
    rw [List.map_map] at hset
    rw [harguments, hkept _ (List.mem_map_of_mem hdecl)]
    exact List.map_inj_left.mp hset decl hdecl

/-! ### Values of the graph -/

/-- A variable that carries what arrives at a socket has the value that arrives there. -/
theorem Valid.arriving_eq (hg : g.Valid) {target : Endpoint} {name : String}
    (h : g.Carries target name) (env : Env α) :
    g.arriving (fun e => env e.varName) target = env name := by
  obtain ⟨c, hc, htarget, rfl⟩ := h.exists_connection
  rw [arriving, hg.incoming?_eq_some.mpr ⟨hc, htarget⟩]
  rfl

/-- After all calls, the variables of the entry function hold values of the graph. -/
theorem denotes_runCalls (A : Arithmetic α) (hg : g.Valid) (horder : g.executionOrder = .ok order)
    {codes : List NodeCode}
    (hcodes : List.Forall₂ (g.Generates Registry.builtin) (g.nodesAt order) codes)
    {inputs : String → Option α} {env : Env α}
    (henv : ∀ decl ∈ g.inputs, env (Naming.variableName decl.name) = inputs decl.name) :
    g.Denotes A inputs fun e => runCalls A codes env e.varName := by
  have hdistinct := hg.nodup_entry horder
  refine { input := ?_, result := ?_, other := ?_ }
  · intro decl hdecl
    have hmem : Naming.variableName decl.name ∈ g.inputVariables := List.mem_map_of_mem hdecl
    show runCalls A codes env (Endpoint.varName _) = _
    -- No call writes a graph input.
    rw [varName_input, runCalls_frame A hcodes, henv decl hdecl]
    intro hlocal
    exact (List.nodup_append.mp hdistinct).2.2 _ (List.mem_append_left _ hmem) _ hlocal rfl
  · -- Kinds tell operators apart, so this is the operator of the node's code.
    intro n hn op hkind decl hdecl hname
    obtain ⟨op', hkind', arguments, harguments, hlocals⟩ :=
      runCalls_locals A hg horder hcodes hn env
    obtain rfl : op = op' := Operator.kind_injective (hkind.trans hkind'.symm)
    have hoperands : g.operands (fun e => runCalls A codes env e.varName) n =
        arguments.map (runCalls A codes env) :=
      map_eq_of_forall₂ (harguments.imp fun _ _ h => hg.arriving_eq h _)
    show runCalls A codes env (Endpoint.varName _) = _
    rw [hg.varName_output hn, hlocals decl hdecl, if_pos hname, hoperands]
  · intro n hn decl hdecl hother
    obtain ⟨op, hkind, arguments, -, hlocals⟩ := runCalls_locals A hg horder hcodes hn env
    show runCalls A codes env (Endpoint.varName _) = _
    rw [hg.varName_output hn, hlocals decl hdecl, if_neg (hother op hkind)]

/-- **Preservation of values.** The graph inputs determine the values of all sources, and the
    program of the graph gives back, for each graph output, the value of the source that is
    connected to it. -/
theorem results_of_compile (h : (Registry.builtin.compile g).result = .ok p) (A : Arithmetic α)
    (inputs : String → Option α) :
    ∃ v, g.Denotes A inputs v ∧
      (∀ w, g.Denotes A inputs w → ∀ e, g.IsSource e → w e = v e) ∧
      List.Forall₂ (fun decl x => ∃ c ∈ g.connections, c.target = ⟨outputNode, decl.name⟩ ∧
        x = v c.source) g.outputs (p.results A (g.inputs.map fun decl => inputs decl.name)) := by
  obtain ⟨hvalid, -, -, hinterface, -, hbindings⟩ := Registry.compile_eq_ok.mp h
  have hg := validate_eq_ok.mp hvalid
  obtain ⟨order, horder, hnodes⟩ := generates_of_compile h
  obtain ⟨hinNames, houtNames⟩ := names_of_interface hinterface
  have hdistinct := hg.nodup_entry horder
  obtain ⟨hinVars, houtVars, -⟩ := List.nodup_append.mp (List.nodup_append.mp hdistinct).1
  -- The variables when the calls begin, and when they have ended.
  let start : Env α := Env.empty.setAll g.inputVariables (g.inputs.map fun decl => inputs decl.name)
  let final : Env α := runCalls A p.nodes start
  have hstart : ∀ decl ∈ g.inputs, start (Naming.variableName decl.name) = inputs decl.name := by
    have hset : g.inputVariables.map start = g.inputs.map fun decl => inputs decl.name :=
      Env.map_setAll hinVars (by rw [inputVariables, List.length_map, List.length_map])
    rw [inputVariables, List.map_map] at hset
    exact List.map_inj_left.mp hset
  have hdenotes : g.Denotes A inputs fun e => final e.varName :=
    denotes_runCalls A hg horder hnodes hstart
  refine ⟨fun e => final e.varName, hdenotes,
    fun w hw e he => hw.eq_of_isSource hg horder hdenotes he, ?_⟩
  obtain ⟨sources, hsources, hzip⟩ := exists_eq_zipWith (carries_of_bindings hg hbindings)
  -- No binding writes what a later one reads.
  have hunwritten : ∀ source ∈ sources, source ∉ g.outputVariables := by
    intro source hsource
    obtain ⟨decl, -, hcarries⟩ := exists_of_mem_right hsources hsource
    obtain ⟨c, hc, -, rfl⟩ := hcarries.exists_connection
    exact hg.varName_not_mem_outputs (hg.sources c hc)
  have hrun : runAll A p.bindings final = final.setAll g.outputVariables (sources.map final) := by
    rw [← runAll_assign A houtVars hunwritten, hzip, outputVariables, List.zipWith_map_left]
  have hlength : g.outputVariables.length = (sources.map final).length := by
    rw [outputVariables, List.length_map, List.length_map, hsources.length_eq]
  have hresults : p.results A (g.inputs.map fun decl => inputs decl.name) = sources.map final := by
    rw [Program.results, houtNames, ← Env.map_setAll houtVars hlength, ← hrun, Program.run,
      hinNames]
  rw [hresults, List.forall₂_map_right_iff]
  refine hsources.imp fun decl source hsource => ?_
  obtain ⟨c, hc, htarget, rfl⟩ := hsource.exists_connection
  exact ⟨c, hc, htarget, rfl⟩

/-- Whatever the arithmetic and the inputs are, the output is the value of the product of
    `scale`. -/
theorem results_of_compile_tintedColor :
    (Registry.builtin.compile tintedColor).result = .ok tintedColorProgram ∧
      ∀ (A : Arithmetic Int) (inputs : String → Option Int), ∃ v, tintedColor.Denotes A inputs v ∧
        tintedColorProgram.results A (["base_color", "tint", "gain"].map inputs) =
          [v ⟨"scale", "product"⟩] := by
  refine ⟨compile_tintedColor, fun A inputs => ?_⟩
  obtain ⟨v, hv, -, hresults⟩ := results_of_compile compile_tintedColor A inputs
  have hsource : ∀ c ∈ tintedColor.connections, c.target = ⟨outputNode, "result"⟩ →
      c.source = ⟨"scale", "product"⟩ := by decide
  obtain ⟨x, rest, ⟨c, hc, htarget, rfl⟩, hrest, heq⟩ := List.forall₂_cons_left_iff.mp hresults
  rw [List.forall₂_nil_left_iff.mp hrest, hsource c hc htarget] at heq
  exact ⟨v, hv, heq⟩

end ShaderGraph.Graph
