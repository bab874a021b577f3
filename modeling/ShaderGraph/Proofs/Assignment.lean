import ShaderGraph.Proofs.Scoping

namespace ShaderGraph

/-!
# Assignment of variables

Every output of a node becomes an out parameter of its function and a local of the entry function,
but a node computes one result. The variables of its other outputs are declared, passed and perhaps
read without ever being written.

* `NodeCode.written`, `NodeCode.assignedArguments` — what the body of a function writes, and the
  variables of the entry function that get a value from that.
* `Program.Assigned` — what the entry function reads has been given a value before.
* `Graph.IsComputed` — the sources that have a value: graph inputs and results.
* `Graph.Valid.varName_inj` — different sources are kept in different variables, so that
  `Graph.mem_assigned_iff` can tell from the variables which sources have a value.

`Graph.strayOutput` is a graph whose program reads a variable that is never written.
-/

/-! ### Programs -/

namespace NodeCode

/-- The variables that the body of the function writes, in order. -/
def written (code : NodeCode) : List String := code.operations.flatMap (·.toExpr.writes)

/-- The variables of the entry function that the call gives a value: those that are passed for out
    parameters that the body writes. -/
def assignedArguments (code : NodeCode) : List String :=
  (((Declaration.outNames code.parameters).zip code.outArguments).filter
    fun passed => code.written.contains passed.1).map (·.2)

end NodeCode

/-- The entry function reads no variable that has not been given a value. -/
structure Program.Assigned (p : Program) : Prop where
  /-- Calls read graph inputs and what earlier calls have written. -/
  inputArguments : ∀ before code after, p.nodes = before ++ code :: after →
    ∀ a ∈ code.inputArguments,
      a ∈ Declaration.inputNames p.parameters ∨ a ∈ before.flatMap (·.assignedArguments)
  /-- Bindings read graph inputs and what calls have written. -/
  bindings : ∀ o ∈ p.bindings, ∀ a ∈ o.toExpr.reads,
    a ∈ Declaration.inputNames p.parameters ∨ a ∈ p.nodes.flatMap (·.assignedArguments)

namespace Graph

variable {g : Graph} {n : Node} {p : Program} {order : List Nat}

/-! ### Sources and their variables -/

/-- All sources, graph inputs first. -/
def sources (g : Graph) : List Endpoint :=
  (g.inputs.map fun decl => ⟨inputNode, decl.name⟩) ++
    g.nodes.flatMap fun n => n.outputs.map fun decl => ⟨n.name, decl.name⟩

/-- What connections may read is among the sources. -/
theorem IsSource.mem_sources {e : Endpoint} (h : g.IsSource e) : e ∈ g.sources := by
  cases h with
  | input hdecl => exact List.mem_append_left _ (List.mem_map_of_mem hdecl)
  | output hn hdecl =>
    exact List.mem_append_right _ (List.mem_flatMap.mpr ⟨_, hn, List.mem_map_of_mem hdecl⟩)

/-- The sources of a valid graph are kept in its inputs and in the locals of its nodes. -/
theorem Valid.map_varName_sources (hg : g.Valid) :
    g.sources.map (·.varName) = g.inputVariables ++ g.nodes.flatMap (·.localVariables) := by
  have hlocals : g.nodes.map (fun n =>
      (n.outputs.map fun decl => (⟨n.name, decl.name⟩ : Endpoint)).map (·.varName)) =
        g.nodes.map (·.localVariables) := by
    refine List.map_congr_left fun n hn => ?_
    rw [List.map_map]
    exact List.map_congr_left fun decl _ => hg.varName_output hn decl
  unfold Graph.sources
  rw [List.map_append, List.map_flatMap, List.map_map, List.flatMap_def, hlocals,
    ← List.flatMap_def]
  rfl

/-- Different sources are kept in different variables. -/
theorem Valid.varName_inj (hg : g.Valid) {e e' : Endpoint} (he : g.IsSource e) (he' : g.IsSource e')
    (h : e.varName = e'.varName) : e = e' := by
  have hdistinct : (g.sources.map (·.varName)).Nodup := by
    -- What is left out are the variables of the graph outputs.
    rw [hg.map_varName_sources]
    exact hg.nodup_entryVariables.sublist ((List.sublist_append_left _ _).append_right _)
  exact List.inj_on_of_nodup_map hdistinct he.mem_sources he'.mem_sources h

/-! ### Sources with a value -/

/-- A source that has a value: a graph input, or the output that receives the result of its node. -/
inductive IsComputed (g : Graph) : Endpoint → Prop where
  | input {decl : SocketDecl} (h : decl ∈ g.inputs) : g.IsComputed ⟨inputNode, decl.name⟩
  | result {n : Node} {decl : SocketDecl} {op : Operator} (hn : n ∈ g.nodes)
    (hdecl : decl ∈ n.outputs) (hkind : op.kind = n.kind) (hname : decl.name = op.resultSocket) :
    g.IsComputed ⟨n.name, decl.name⟩

/-! ### Calls -/

/-- In a valid graph, the outputs of a node have distinct variables. -/
theorem Valid.nodup_outputVariables (hg : g.Valid) (hn : n ∈ g.nodes) :
    (n.outputs.map fun decl => Naming.variableName decl.name).Nodup :=
  (List.nodup_append.mp (hg.nodup_parameterVariables hn)).2.1

/-- The body of a node's function writes the output that receives the result, and the call gives a
    value to the local of that output. -/
theorem written_of_nodeCode (hg : g.Valid) (hn : n ∈ g.nodes) {code : NodeCode}
    (h : (Registry.builtin.nodeCode g n).result = .ok code) :
    ∃ op : Operator, op.kind = n.kind ∧ ∃ decl ∈ n.outputs, decl.name = op.resultSocket ∧
      code.written = [Naming.variableName decl.name] ∧
      code.assignedArguments = [Naming.localName n.name decl.name] := by
  obtain ⟨inputs, outputs, passed, hcode⟩ := isCodeOf_of_nodeCode hg hn h
  obtain ⟨op, hkind, ⟨decl, hdecl, hname⟩, first, others, -, hoperations⟩ :=
    operations_of_nodeCode hg hn h
  have hwritten : code.written = [Naming.variableName decl.name] := by
    rw [NodeCode.written, hoperations, List.flatMap_singleton, hname]
    exact writes_operation op first others
  -- One output has the variable that is written.
  have hfilter : n.outputs.filter (fun output =>
      [Naming.variableName decl.name].contains (Naming.variableName output.name)) = [decl] := by
    rw [← filter_key_eq_singleton (hg.nodup_outputVariables hn) hdecl]
    exact List.filter_congr fun output _ => Bool.or_false _
  refine ⟨op, hkind, decl, hdecl, hname, hwritten, ?_⟩
  rw [NodeCode.assignedArguments, hwritten, hcode.names_parameters.2, hcode.names_arguments.2,
    hcode.localNames_eq, Node.localVariables, List.zip_map', List.filter_map, List.map_map]
  exact congrArg (List.map _) hfilter

/-- All out parameters of a function are written if and only if its node has one output. -/
theorem written_all_iff (hg : g.Valid) (hn : n ∈ g.nodes) {code : NodeCode}
    (h : g.Generates Registry.builtin n code) :
    (∀ name ∈ Declaration.outNames code.parameters, name ∈ code.written) ↔
      n.outputs.length = 1 := by
  obtain ⟨inputs, outputs, passed, hcode⟩ := h.isCodeOf
  obtain ⟨op, -, decl, hdecl, -, hwritten, -⟩ := written_of_nodeCode hg hn h.nodeCode_eq
  rw [hwritten, hcode.names_parameters.2, List.forall_mem_map]
  constructor
  · intro hall
    have hfilter := filter_key_eq_singleton (hg.nodup_outputVariables hn) hdecl
    rw [List.filter_eq_self.mpr fun output houtput =>
      beq_iff_eq.mpr (List.mem_singleton.mp (hall output houtput))] at hfilter
    rw [hfilter, List.length_singleton]
  · intro hlength
    obtain ⟨output, houtputs⟩ := List.length_eq_one_iff.mp hlength
    rw [houtputs] at hdecl ⊢
    rw [List.mem_singleton.mp hdecl, List.forall_mem_singleton]
    exact List.mem_singleton_self _

/-- The sources whose variables are written by the calls of some nodes are those with a value. -/
theorem mem_assigned_iff (hg : g.Valid) {nodes : List Node} {codes : List NodeCode}
    (hnodes : ∀ n ∈ nodes, n ∈ g.nodes)
    (hcodes : List.Forall₂ (g.Generates Registry.builtin) nodes codes) {e : Endpoint}
    (he : (g.withNodes nodes).IsSource e) :
    (e.varName ∈ g.inputVariables ∨ e.varName ∈ codes.flatMap (·.assignedArguments)) ↔
      g.IsComputed e := by
  have hsource : g.IsSource e := by
    cases he with
    | input hdecl => exact .input hdecl
    | output hn hdecl => exact .output (hnodes _ hn) hdecl
  constructor
  · rintro (hinput | hcall)
    · obtain ⟨decl, hdecl, hname⟩ := List.mem_map.mp hinput
      rw [hg.varName_inj hsource (.input hdecl) (hname.symm.trans (varName_input decl).symm)]
      exact .input hdecl
    · obtain ⟨code, hcode, hname⟩ := List.mem_flatMap.mp hcall
      obtain ⟨n, hn, hnode, -⟩ := exists_of_mem_right hcodes hcode
      obtain ⟨op, hkind, decl, hdecl, hresult, -, hassigned⟩ :=
        written_of_nodeCode hg (hnodes n hn) hnode
      rw [hassigned, List.mem_singleton, ← hg.varName_output (hnodes n hn)] at hname
      rw [hg.varName_inj hsource (.output (hnodes n hn) hdecl) hname]
      exact .result (hnodes n hn) hdecl hkind hresult
  · intro hcomputed
    cases hcomputed with
    | @input decl hdecl =>
      left
      rw [varName_input]
      exact List.mem_map_of_mem hdecl
    | @result m decl op hm hdecl hkind hresult =>
      right
      rcases isSource_iff.mp he with ⟨hinput, -⟩ | ⟨n, hn, hname, -⟩
      · exact absurd hinput (hg.name_ne_inputNode hm)
      · -- Names tell nodes apart, and kinds tell operators apart.
        obtain rfl : n = m := List.inj_on_of_nodup_map hg.names (hnodes n hn) hm hname
        obtain ⟨code, hcode, hnode, -⟩ := exists_of_mem_left hcodes hn
        obtain ⟨op', hkind', decl', -, hresult', -, hassigned⟩ := written_of_nodeCode hg hm hnode
        obtain rfl : op = op' := Operator.kind_injective (hkind.trans hkind'.symm)
        refine List.mem_flatMap.mpr ⟨code, hcode, ?_⟩
        rw [hassigned, hg.varName_output hm, hresult, hresult']
        exact List.mem_singleton_self _

/-! ### What is read -/

/-- The bindings read the variables of the sources that are connected to graph outputs. -/
theorem mem_reads_bindings_iff (hg : g.Valid) (h : g.bindings = .ok p.bindings) {a : String} :
    (∃ o ∈ p.bindings, a ∈ o.toExpr.reads) ↔
      ∃ c ∈ g.connections, c.target.node = outputNode ∧ a = c.source.varName := by
  have hbindings := carries_of_bindings hg h
  constructor
  · rintro ⟨o, ho, ha⟩
    obtain ⟨decl, -, name, hcarries, rfl⟩ := exists_of_mem_right hbindings ho
    obtain ⟨c, hc, htarget, rfl⟩ := hcarries.exists_connection
    exact ⟨c, hc, by rw [htarget], List.mem_singleton.mp ha⟩
  · rintro ⟨c, hc, hnode, rfl⟩
    rcases isTarget_iff.mp (hg.targets c hc) with ⟨-, decl, hdecl, hname⟩ | ⟨n, hn, hname, -⟩
    · obtain ⟨o, ho, name, hcarries, rfl⟩ := exists_of_mem_left hbindings hdecl
      rw [hname, ← hnode] at hcarries
      exact ⟨_, ho, List.mem_singleton.mpr (hg.eq_of_carries hc hcarries).symm⟩
    · exact absurd (hname.trans hnode) (hg.name_ne_outputNode hn)

/-- A call reads what has been written before if and only if its node reads sources with a value. -/
theorem IsCodeOf.assigned_iff (hg : g.Valid) (horder : g.executionOrder = .ok order)
    {before after : List Node} (hsplit : g.nodesAt order = before ++ n :: after)
    {codes : List NodeCode}
    (hcodes : List.Forall₂ (g.Generates Registry.builtin) before codes) {code : NodeCode}
    {inputs outputs : List Declaration} {passed : List String}
    (hcode : g.IsCodeOf n code inputs outputs passed) :
    (∀ a ∈ code.inputArguments,
        a ∈ g.inputVariables ∨ a ∈ codes.flatMap (·.assignedArguments)) ↔
      ∀ c ∈ g.connections, c.target.node = n.name → g.IsComputed c.source := by
  have hbefore : ∀ m ∈ before, m ∈ g.nodes :=
    fun m hm => (mem_nodesAt horder).mp (by simp [hsplit, hm])
  have hn : n ∈ g.nodes := (mem_nodesAt horder).mp (by simp [hsplit])
  have hread {c : Connection} (hc : c ∈ g.connections) (htarget : c.target.node = n.name) :=
    mem_assigned_iff hg hbefore hcodes (hg.isSource_withNodes horder hsplit hc htarget)
  constructor
  · intro hassigned c hc htarget
    refine (hread hc htarget).mp (hassigned _ ?_)
    exact (hcode.mem_inputArguments_iff hg hn).mpr ⟨c, hc, htarget, rfl⟩
  · intro hcomputed a ha
    obtain ⟨c, hc, htarget, rfl⟩ := (hcode.mem_inputArguments_iff hg hn).mp ha
    exact (hread hc htarget).mpr (hcomputed c hc htarget)

/-- Bindings read what has been written if and only if graph outputs read sources with a value. -/
theorem bindings_assigned_iff (hg : g.Valid) (horder : g.executionOrder = .ok order)
    {codes : List NodeCode}
    (hcodes : List.Forall₂ (g.Generates Registry.builtin) (g.nodesAt order) codes)
    (h : g.bindings = .ok p.bindings) :
    (∀ o ∈ p.bindings, ∀ a ∈ o.toExpr.reads,
        a ∈ g.inputVariables ∨ a ∈ codes.flatMap (·.assignedArguments)) ↔
      ∀ c ∈ g.connections, c.target.node = outputNode → g.IsComputed c.source := by
  -- After all calls, every source may be read.
  have hsources : ∀ c ∈ g.connections, (g.withNodes (g.nodesAt order)).IsSource c.source := by
    intro c hc
    have hsource := isSource_iff.mp (hg.sources c hc)
    simp only [← mem_nodesAt horder] at hsource
    exact isSource_iff.mpr hsource
  have hread {c : Connection} (hc : c ∈ g.connections) :=
    mem_assigned_iff hg (fun n => (mem_nodesAt horder).mp) hcodes (hsources c hc)
  constructor
  · intro hassigned c hc htarget
    obtain ⟨o, ho, ha⟩ := (mem_reads_bindings_iff hg h).mpr ⟨c, hc, htarget, rfl⟩
    exact (hread hc).mp (hassigned o ho _ ha)
  · intro hcomputed o ho a ha
    obtain ⟨c, hc, htarget, rfl⟩ := (mem_reads_bindings_iff hg h).mp ⟨o, ho, ha⟩
    exact (hread hc).mpr (hcomputed c hc htarget)

/-! ### Whole programs -/

/-- Everything is written before it is read if and only if all connections come from sources with a
    value. -/
theorem assigned_iff (h : (Registry.builtin.compile g).result = .ok p) :
    p.Assigned ↔ ∀ c ∈ g.connections, g.IsComputed c.source := by
  obtain ⟨hvalid, -, -, hinterface, -, hbindings⟩ := Registry.compile_eq_ok.mp h
  have hg := validate_eq_ok.mp hvalid
  obtain ⟨order, horder, hnodes⟩ := generates_of_compile h
  have hinNames := (names_of_interface hinterface).1
  have hbound := bindings_assigned_iff hg horder hnodes hbindings
  rw [← hinNames] at hbound
  constructor
  · intro hassigned c hc
    by_cases hnode : c.target.node = outputNode
    · exact hbound.mp hassigned.bindings c hc hnode
    · obtain ⟨n, hn, decl, -, htarget⟩ := hg.exists_target hc hnode
      obtain ⟨before, after, hsplit⟩ := List.append_of_mem ((mem_nodesAt horder).mpr hn)
      rw [hsplit] at hnodes
      obtain ⟨earlier, code, later, hcodes, hbefore, ⟨-, _, _, _, hcode⟩, -⟩ :=
        forall₂_append_cons_left hnodes
      have harguments := hassigned.inputArguments earlier code later hcodes
      rw [hinNames] at harguments
      exact (hcode.assigned_iff hg horder hsplit hbefore).mp harguments c hc (by rw [htarget])
  · intro hcomputed
    refine { inputArguments := ?_, bindings := hbound.mpr fun c hc _ => hcomputed c hc }
    intro before code after hcodes
    rw [hcodes] at hnodes
    obtain ⟨earlier, n, later, hsplit, hbefore, ⟨-, _, _, _, hcode⟩, -⟩ :=
      forall₂_append_cons_right hnodes
    rw [hinNames]
    exact (hcode.assigned_iff hg horder hsplit hbefore).mpr fun c hc _ => hcomputed c hc

/-- **Assignment of variables.** The body of each function writes one of its out parameters, the one
    for the result of its node, and so all of them if and only if its node declares no other output.
    The entry function reads no variable before it has been given a value if and only if every
    connection comes from a graph input or from a result. -/
theorem assigned_of_compile (h : (Registry.builtin.compile g).result = .ok p) :
    (∀ code ∈ p.nodes, ∃ op : Operator, op.kind = code.kind ∧
      Naming.variableName op.resultSocket ∈ Declaration.outNames code.parameters ∧
      code.written = [Naming.variableName op.resultSocket]) ∧
    ((∀ code ∈ p.nodes, ∀ name ∈ Declaration.outNames code.parameters, name ∈ code.written) ↔
      ∀ n ∈ g.nodes, n.outputs.length = 1) ∧
    (p.Assigned ↔ ∀ c ∈ g.connections, g.IsComputed c.source) := by
  have hg := valid_of_compile h
  refine ⟨?_, ⟨?_, ?_⟩, assigned_iff h⟩
  · intro code hcode
    obtain ⟨n, hn, hgenerates⟩ := exists_node_of_compile h hcode
    obtain ⟨inputs, outputs, passed, hshape⟩ := hgenerates.isCodeOf
    obtain ⟨op, hkind, decl, hdecl, hname, hwritten, -⟩ :=
      written_of_nodeCode hg hn hgenerates.nodeCode_eq
    refine ⟨op, hkind.trans hshape.kind_eq.symm, ?_, by rw [hwritten, hname]⟩
    rw [hshape.names_parameters.2, ← hname]
    exact List.mem_map_of_mem hdecl
  · intro hall n hn
    obtain ⟨code, hcode, hgenerates⟩ := exists_code_of_compile h hn
    exact (written_all_iff hg hn hgenerates).mp (hall code hcode)
  · intro hlength code hcode
    obtain ⟨n, hn, hgenerates⟩ := exists_node_of_compile h hcode
    exact (written_all_iff hg hn hgenerates).mpr (hlength n hn)

/-- In `tintedColorProgram`, everything that is read has been assigned. -/
theorem assigned_of_compile_tintedColor :
    (Registry.builtin.compile tintedColor).result = .ok tintedColorProgram ∧
      tintedColorProgram.Assigned ∧
      ∀ code ∈ tintedColorProgram.nodes, ∀ name ∈ Declaration.outNames code.parameters,
        name ∈ code.written := by
  obtain ⟨-, hwritten, hassigned⟩ := assigned_of_compile compile_tintedColor
  have hinput : ∀ decl ∈ tintedColor.inputs, tintedColor.IsComputed ⟨"subinput", decl.name⟩ :=
    fun decl hdecl => .input hdecl
  have hsum : tintedColor.IsComputed ⟨"mix", "sum"⟩ :=
    @IsComputed.result _ tintedColor.nodes[1] ⟨"sum", "vector"⟩ .add (by decide) (by decide) rfl rfl
  have hproduct : tintedColor.IsComputed ⟨"scale", "product"⟩ :=
    @IsComputed.result _ tintedColor.nodes[0] ⟨"product", "vector"⟩ .multiply (by decide)
      (by decide)
      rfl rfl
  have hresult : ∀ c ∈ tintedColor.connections, tintedColor.IsComputed c.source := by
    refine List.forall_mem_cons.mpr ⟨hinput ⟨"base_color", "color"⟩ (by decide), ?_⟩
    refine List.forall_mem_cons.mpr ⟨hinput ⟨"tint", "color"⟩ (by decide), ?_⟩
    refine List.forall_mem_cons.mpr ⟨hsum, ?_⟩
    refine List.forall_mem_cons.mpr ⟨hinput ⟨"gain", "float"⟩ (by decide), ?_⟩
    exact List.forall_mem_singleton.mpr hproduct
  exact ⟨compile_tintedColor, hassigned.mpr hresult, hwritten.mpr (by decide)⟩

/-! ### A variable without a value -/

/-- The graph output is connected to an output that the node does not compute. -/
def strayOutput : Graph where
  inputs := [⟨"x", "float"⟩]
  outputs := [⟨"result", "float"⟩]
  nodes := [
    { name := "mix"
      kind := "add"
      inputs := [⟨"input1", "float"⟩]
      outputs := [⟨"sum", "float"⟩, ⟨"weight", "float"⟩] }]
  connections := [
    ⟨⟨"subinput", "x"⟩, ⟨"mix", "input1"⟩⟩,
    ⟨⟨"mix", "weight"⟩, ⟨"suboutput", "result"⟩⟩]

/-- The program of `strayOutput`. -/
def strayOutputProgram : Program where
  parameters := [⟨"_x", "float", none⟩, ⟨"_result", "float", some "out"⟩]
  nodes := [
    { name := "mix"
      kind := "add"
      parameters := [⟨"_input1", "float", none⟩, ⟨"_sum", "float", some "out"⟩,
        ⟨"_weight", "float", some "out"⟩]
      operations := [.assign "_sum" (.var "_input1")]
      arguments := ["_x", "mix_sum", "mix_weight"]
      locals := [⟨"mix_sum", "float", none⟩, ⟨"mix_weight", "float", none⟩] }]
  bindings := [.assign "_result" (.var "mix_weight")]

/-- Out parameters need not be written, and a graph output may be bound to a local that no call
    writes. -/
theorem not_assigned_strayOutput :
    (Registry.builtin.compile strayOutput).result = .ok strayOutputProgram ∧
      (¬ ∀ code ∈ strayOutputProgram.nodes, ∀ name ∈ Declaration.outNames code.parameters,
        name ∈ code.written) ∧
      ¬ strayOutputProgram.Assigned := by
  refine ⟨by decide +kernel, by decide +kernel, fun hassigned => ?_⟩
  have hread := hassigned.bindings (.assign "_result" (.var "mix_weight"))
    (List.mem_singleton_self _) "mix_weight" (List.mem_singleton_self _)
  exact absurd hread (by decide +kernel)

end Graph

end ShaderGraph
