import ShaderGraph.Proofs.Arithmetic
import ShaderGraph.Proofs.Shape

namespace ShaderGraph

/-!
# Scopes of variables

Compiled programs are closed: every variable is defined before it is used, in the entry function
and in the functions of the nodes.

* `Expr.reads`, `Expr.writes` — the variables of an expression.
* `Declaration.isRead`, `Declaration.isWritten` — which way a parameter passes values.
* `Program.Closed` — calls and bindings use what is defined at that point, and nothing else.
* `Graph.Valid.isSource_withNodes` — what a node reads is a graph input or an output of a node
  before it.
-/

/-! ### Reading and writing -/

/-- The variables that an expression reads, in the order of its evaluation. -/
def Expr.reads : Expr → List String
  | var name => [name]
  | assign _ value => value.reads
  | binary _ lhs rhs => lhs.reads ++ rhs.reads

/-- The variables that an expression writes, in the order of its evaluation. -/
def Expr.writes : Expr → List String
  | var _ => []
  | assign target value => value.writes ++ [target]
  | binary _ lhs rhs => lhs.writes ++ rhs.writes

/-- A combination reads its variables from left to right. -/
theorem reads_combine (op : Operator) (first : String) (others : List String) :
    (combine op first others).reads = first :: others := by
  -- Combinations are nested to the left, so the induction takes variables off at the right.
  induction others using List.reverseRecOn with
  | nil => rfl
  | append_singleton others last ih =>
    rw [combine_concat, Expr.reads, ih, Expr.reads, List.cons_append]

/-- A chain of variables assigns nothing. -/
theorem writes_combine (op : Operator) (first : String) (others : List String) :
    (combine op first others).writes = [] := by
  induction others using List.reverseRecOn with
  | nil => rfl
  | append_singleton others last ih =>
    rw [combine_concat, Expr.writes, ih, Expr.writes, List.append_nil]

/-- An operation writes what its expression does, which is nothing, and then its target. -/
theorem writes_operation (op : Operator) (first : SocketDecl) (others : List SocketDecl) :
    (op.operation first others).toExpr.writes = [Naming.variableName op.resultSocket] := by
  show (combine _ _ _).writes ++ [_] = _
  rw [writes_combine, List.nil_append]

namespace Declaration

/-- Whether a function gets a value through the parameter. -/
def isRead (d : Declaration) : Bool := d.qualifier? != some "out"

/-- Whether a function gives a value back through the parameter. -/
def isWritten (d : Declaration) : Bool := d.qualifier? != none

/-- The names of the parameters through which a function gets values. -/
def inputNames (parameters : List Declaration) : List String :=
  (parameters.filter (·.isRead)).map (·.name)

/-- The names of the parameters through which a function gives values back. -/
def outNames (parameters : List Declaration) : List String :=
  (parameters.filter (·.isWritten)).map (·.name)

end Declaration

namespace NodeCode

/-- The arguments of the call that the function reads. -/
def inputArguments (code : NodeCode) : List String :=
  ((code.parameters.zip code.arguments).filter (·.1.isRead)).map (·.2)

/-- The arguments of the call that the function writes. -/
def outArguments (code : NodeCode) : List String :=
  ((code.parameters.zip code.arguments).filter (·.1.isWritten)).map (·.2)

/-- The variables of the entry function that are declared for the call. -/
def localNames (code : NodeCode) : List String := code.locals.map (·.name)

/-- The body of a function reads each of its inputs once, in order, and writes one output. -/
structure ReadsInputs (code : NodeCode) : Prop where
  distinct : (code.parameters.map (·.name)).Nodup
  reads : code.operations.flatMap (·.toExpr.reads) = Declaration.inputNames code.parameters
  writes : ∃ name ∈ Declaration.outNames code.parameters,
    code.operations.flatMap (·.toExpr.writes) = [name]

end NodeCode

/-- The entry function defines every variable before it uses it. -/
structure Program.Closed (p : Program) : Prop where
  /-- A call has one argument for each parameter. -/
  arity : ∀ code ∈ p.nodes, code.arguments.length = code.parameters.length
  /-- A call reads graph inputs and locals of earlier calls, and neither graph outputs nor locals
      of its own or of later calls. -/
  inputArguments : ∀ before code after, p.nodes = before ++ code :: after →
    ∀ a ∈ code.inputArguments,
      (a ∈ Declaration.inputNames p.parameters ∨ a ∈ before.flatMap (·.localNames)) ∧
      a ∉ Declaration.outNames p.parameters ∧ a ∉ (code :: after).flatMap (·.localNames)
  /-- A call writes its own locals. -/
  outArguments : ∀ code ∈ p.nodes, ∀ a ∈ code.outArguments, a ∈ code.localNames
  /-- A binding copies a graph input or a local to a graph output. -/
  bindings : ∀ o ∈ p.bindings, ∃ target source, o = .assign target (.var source) ∧
    target ∈ Declaration.outNames p.parameters ∧
    (source ∈ Declaration.inputNames p.parameters ∨ source ∈ p.nodes.flatMap (·.localNames))

/-! ### Signatures and calls -/

namespace Declaration

variable {decls : List SocketDecl} {ds : List Declaration} {names : SocketDecl → String}

/-- Variables that are declared for sockets have the names that are given to them. -/
theorem names_of_declares {qualifier? : Option String}
    (h : List.Forall₂ (fun decl d => d.Declares decl (names decl) qualifier?) decls ds) :
    ds.map (·.name) = decls.map names :=
  (map_eq_of_forall₂ (h.imp fun _ _ hd => hd.name_eq.symm)).symm

/-- They have the qualifier with which they are declared. -/
theorem qualifier_of_declares {qualifier? : Option String}
    (h : List.Forall₂ (fun decl d => d.Declares decl (names decl) qualifier?) decls ds) :
    ∀ d ∈ ds, d.qualifier? = qualifier? := by
  induction h with
  | nil => simp
  | cons hd _ ih => exact List.forall_mem_cons.mpr ⟨hd.qualifier_eq, ih⟩

/-- A parameter without a qualifier is read and not written. -/
theorem passes_in {d : Declaration} (h : d.qualifier? = none) :
    d.isRead = true ∧ d.isWritten = false := by
  unfold isRead isWritten
  rw [h]
  decide

/-- A parameter with the qualifier for outputs is written and not read. -/
theorem passes_out {d : Declaration} (h : d.qualifier? = some "out") :
    d.isRead = false ∧ d.isWritten = true := by
  unfold isRead isWritten
  rw [h]
  decide

/-- The parameters of a signature, read from its inputs and outputs. -/
theorem names_signature {inputs outputs : List Declaration}
    (hin : ∀ d ∈ inputs, d.qualifier? = none)
    (hout : ∀ d ∈ outputs, d.qualifier? = some "out") :
    inputNames (inputs ++ outputs) = inputs.map (·.name) ∧
      outNames (inputs ++ outputs) = outputs.map (·.name) := by
  have hin d hd := passes_in (hin d hd)
  have hout d hd := passes_out (hout d hd)
  unfold inputNames outNames
  rw [filter_append_eq_left (fun d hd => (hin d hd).1) fun d hd => (hout d hd).1,
    filter_append_eq_right (fun d hd => (hin d hd).2) fun d hd => (hout d hd).2]
  exact ⟨rfl, rfl⟩

end Declaration

namespace Graph.IsCodeOf

variable {g : Graph} {n : Node} {code : NodeCode} {inputs outputs : List Declaration}
  {passed : List String}

/-- The locals in the code of a node are those of the node. -/
theorem localNames_eq (h : g.IsCodeOf n code inputs outputs passed) :
    code.localNames = n.localVariables :=
  Declaration.names_of_declares h.locals

/-- The function of a node reads its connected inputs and writes its outputs. -/
theorem names_parameters (h : g.IsCodeOf n code inputs outputs passed) :
    Declaration.inputNames code.parameters =
        (n.inputs.filter (g.IsConnected n)).map (fun decl => Naming.variableName decl.name) ∧
      Declaration.outNames code.parameters =
        n.outputs.map (fun decl => Naming.variableName decl.name) := by
  have hsignature := Declaration.names_signature (Declaration.qualifier_of_declares h.inputs)
    (Declaration.qualifier_of_declares h.outputs)
  rwa [Declaration.names_of_declares h.inputs, Declaration.names_of_declares h.outputs,
    ← h.parameters_eq] at hsignature

/-- The parameters of the function of a node are its connected inputs and its outputs, in this
    order. -/
theorem map_name_parameters (h : g.IsCodeOf n code inputs outputs passed) :
    code.parameters.map (·.name) =
      (n.inputs.filter (g.IsConnected n) ++ n.outputs).map fun decl =>
        Naming.variableName decl.name := by
  rw [h.parameters_eq, List.map_append, Declaration.names_of_declares h.inputs,
    Declaration.names_of_declares h.outputs, ← List.map_append]

/-- The parameters are some of those that there would be if all inputs were connected. -/
theorem nodup_parameters (hg : g.Valid) (hn : n ∈ g.nodes)
    (h : g.IsCodeOf n code inputs outputs passed) : (code.parameters.map (·.name)).Nodup := by
  rw [h.map_name_parameters]
  exact (hg.parameters n hn).sublist ((List.filter_sublist.append_right _).map _)

/-- The call hands the connected variables in and gets the locals back. -/
theorem names_arguments (h : g.IsCodeOf n code inputs outputs passed) :
    code.inputArguments = passed ∧ code.outArguments = code.localNames := by
  have hpassed : inputs.length = passed.length := h.inputs.length_eq.symm.trans h.passed.length_eq
  have hlocals : outputs.length = code.localNames.length := by
    rw [NodeCode.localNames, List.length_map, ← h.outputs.length_eq, h.locals.length_eq]
  -- Parameters and arguments fall apart at the same place.
  have hzip : code.parameters.zip code.arguments =
      inputs.zip passed ++ outputs.zip code.localNames := by
    rw [h.parameters_eq, h.arguments_eq, List.zip_append hpassed, NodeCode.localNames]
  have hin : ∀ x ∈ inputs.zip passed, x.1.isRead = true ∧ x.1.isWritten = false := by
    intro x hx
    apply Declaration.passes_in
    exact Declaration.qualifier_of_declares h.inputs _ (List.of_mem_zip hx).1
  have hout : ∀ x ∈ outputs.zip code.localNames, x.1.isRead = false ∧ x.1.isWritten = true := by
    intro x hx
    apply Declaration.passes_out
    exact Declaration.qualifier_of_declares h.outputs _ (List.of_mem_zip hx).1
  unfold NodeCode.inputArguments NodeCode.outArguments
  rw [hzip, filter_append_eq_left (fun x hx => (hin x hx).1) fun x hx => (hout x hx).1,
    filter_append_eq_right (fun x hx => (hin x hx).2) fun x hx => (hout x hx).2]
  exact ⟨List.map_snd_zip hpassed.ge, List.map_snd_zip hlocals.ge⟩

end Graph.IsCodeOf

/-! ### Sources -/

/-- The variable of the entry function that holds the value at the source of a connection. -/
def Endpoint.varName (e : Endpoint) : String :=
  if e.node = Graph.inputNode then Naming.variableName e.socket
  else Naming.localName e.node e.socket

namespace Graph

variable {r : Registry} {g : Graph} {n : Node} {p : Program} {order : List Nat}

/-- The variables that stand for the graph inputs. -/
def inputVariables (g : Graph) : List String :=
  g.inputs.map fun decl => Naming.variableName decl.name

/-- The variables that stand for the graph outputs. -/
def outputVariables (g : Graph) : List String :=
  g.outputs.map fun decl => Naming.variableName decl.name

/-- The graph with the given nodes only. -/
def withNodes (g : Graph) (nodes : List Node) : Graph := { g with nodes }

/-- A graph input is kept in its variable. -/
theorem varName_input (decl : SocketDecl) :
    (⟨inputNode, decl.name⟩ : Endpoint).varName = Naming.variableName decl.name := if_pos rfl

/-- The output of a node is kept in the local of the node. -/
theorem Valid.varName_output (hg : g.Valid) (hn : n ∈ g.nodes) (decl : SocketDecl) :
    (⟨n.name, decl.name⟩ : Endpoint).varName = Naming.localName n.name decl.name :=
  if_neg (hg.name_ne_inputNode hn)

/-- The value of a source is in the variable of a graph input or in a local of its node. -/
theorem IsSource.varName_mem (hfree : ∀ n ∈ g.nodes, n.name ≠ inputNode) {e : Endpoint}
    (he : g.IsSource e) :
    e.varName ∈ g.inputVariables ∨ e.varName ∈ g.nodes.flatMap (·.localVariables) := by
  unfold Endpoint.varName
  cases he with
  | @input decl hdecl =>
    left
    rw [if_pos rfl]
    exact List.mem_map_of_mem hdecl
  | @output n decl hn hdecl =>
    right
    rw [if_neg (hfree n hn)]
    exact List.mem_flatMap.mpr ⟨n, hn, List.mem_map_of_mem hdecl⟩

/-- The variables of graph inputs, graph outputs and locals are told apart in this order. -/
theorem Valid.nodup_entryVariables (hg : g.Valid) :
    (g.inputVariables ++ g.outputVariables ++ g.nodes.flatMap (·.localVariables)).Nodup := by
  have hentry := hg.entry
  unfold entryVariables interfaceVariables at hentry
  rwa [List.map_append] at hentry

/-- The variables of a node's inputs and outputs are told apart. -/
theorem Valid.nodup_parameterVariables (hg : g.Valid) (hn : n ∈ g.nodes) :
    ((n.inputs.map fun decl => Naming.variableName decl.name) ++
      n.outputs.map fun decl => Naming.variableName decl.name).Nodup := by
  have hparameters := hg.parameters n hn
  unfold Node.parameterVariables at hparameters
  rwa [List.map_append] at hparameters

/-- No source is kept in the variable of a graph output. -/
theorem Valid.varName_not_mem_outputs (hg : g.Valid) {e : Endpoint} (he : g.IsSource e) :
    e.varName ∉ g.outputVariables := by
  obtain ⟨hinterface, -, hapart⟩ := List.nodup_append.mp hg.nodup_entryVariables
  intro hout
  rcases he.varName_mem fun n hn => hg.name_ne_inputNode hn with hin | hlocal
  · exact (List.nodup_append.mp hinterface).2.2 _ hin _ hout rfl
  · exact hapart _ (List.mem_append_right _ hout) _ hlocal rfl

/-- What a target carries comes from the source of a connection. -/
theorem Carries.exists_connection {target : Endpoint} {name : String} (h : g.Carries target name) :
    ∃ c ∈ g.connections, c.target = target ∧ name = c.source.varName := by
  obtain ⟨c, hc, rfl⟩ := h
  have hmem : c ∈ g.connections.filter (·.target == target) := by simp [hc]
  obtain ⟨hmem, htarget⟩ := List.mem_filter.mp hmem
  exact ⟨c, hmem, beq_iff_eq.mp htarget, rfl⟩

/-- Only one connection arrives at a socket. -/
theorem Valid.eq_of_carries (hg : g.Valid) {c : Connection} (hc : c ∈ g.connections) {a : String}
    (h : g.Carries c.target a) : a = c.source.varName := by
  obtain ⟨c', hc', htarget, rfl⟩ := h.exists_connection
  rw [List.inj_on_of_nodup_map hg.fanIn hc' hc htarget]

/-- A call reads the variables of the sources that are connected to its node. -/
theorem IsCodeOf.mem_inputArguments_iff (hg : g.Valid) (hn : n ∈ g.nodes) {code : NodeCode}
    {inputs outputs : List Declaration} {passed : List String}
    (h : g.IsCodeOf n code inputs outputs passed) {a : String} :
    a ∈ code.inputArguments ↔ ∃ c ∈ g.connections, c.target.node = n.name ∧
      a = c.source.varName := by
  rw [h.names_arguments.1]
  constructor
  · intro ha
    obtain ⟨decl, -, hcarries⟩ := exists_of_mem_right h.passed ha
    obtain ⟨c, hc, htarget, rfl⟩ := hcarries.exists_connection
    exact ⟨c, hc, by rw [htarget], rfl⟩
  · rintro ⟨c, hc, hnode, rfl⟩
    obtain ⟨m, hm, decl, hdecl, htarget⟩ := hg.exists_target hc (hnode ▸ hg.name_ne_outputNode hn)
    obtain rfl : m = n := by
      rw [htarget] at hnode
      exact List.inj_on_of_nodup_map hg.names hm hn hnode
    have hconnected : decl ∈ m.inputs.filter (g.IsConnected m) :=
      List.mem_filter.mpr ⟨hdecl, decide_eq_true ⟨c, hc, htarget⟩⟩
    obtain ⟨a, ha, hcarries⟩ := exists_of_mem_left h.passed hconnected
    rw [← htarget] at hcarries
    rwa [← hg.eq_of_carries hc hcarries]

/-- What a node reads is a graph input or an output of a node before it. -/
theorem Valid.isSource_withNodes (hg : g.Valid) (horder : g.executionOrder = .ok order)
    {before after : List Node} (hsplit : g.nodesAt order = before ++ n :: after) {c : Connection}
    (hc : c ∈ g.connections) (htarget : c.target.node = n.name) :
    (g.withNodes before).IsSource c.source := by
  have hn : n ∈ g.nodes := (mem_nodesAt horder).mp (by simp [hsplit])
  have hsource := hg.sources c hc
  obtain ⟨source, target⟩ := c
  cases hsource with
  | input hdecl => exact .input hdecl
  | output hm hdecl =>
    have hfeeds : g.Feeds _ n := ⟨hm, hn, _, hc, rfl, htarget⟩
    exact .output (hfeeds.mem_before hg horder hsplit) hdecl

/-- The variables of the entry function are distinct, in the order of their declarations too. -/
theorem Valid.nodup_entry (hg : g.Valid) (horder : g.executionOrder = .ok order) :
    (g.inputVariables ++ g.outputVariables ++
      (g.nodesAt order).flatMap (·.localVariables)).Nodup := by
  have hlocals := (nodesAt_perm horder).flatMap_right (·.localVariables)
  exact (hlocals.append_left _).nodup_iff.mpr hg.nodup_entryVariables

/-! ### Nodes -/

/-- With the built-in adapters, the body of a node's function folds the inputs into an output. -/
theorem readsInputs_of_nodeCode (hg : g.Valid) (hn : n ∈ g.nodes) {code : NodeCode}
    (h : (Registry.builtin.nodeCode g n).result = .ok code) : code.ReadsInputs := by
  obtain ⟨inputs, outputs, passed, hcode⟩ := isCodeOf_of_nodeCode hg hn h
  obtain ⟨hinNames, houtNames⟩ := hcode.names_parameters
  obtain ⟨op, -, ⟨result, hresult, hname⟩, first, others, hinputs, hoperations⟩ :=
    operations_of_nodeCode hg hn h
  refine { distinct := hcode.nodup_parameters hg hn, reads := ?_, writes := ?_ }
  · rw [hoperations, List.flatMap_singleton, hinNames, hinputs, List.map_cons]
    exact reads_combine _ _ _
  · refine ⟨Naming.variableName result.name, ?_, ?_⟩
    · rw [houtNames]
      exact List.mem_map_of_mem hresult
    · rw [hoperations, List.flatMap_singleton, hname]
      exact writes_operation op first others

/-! ### Programs -/

/-- The entry function reads the graph inputs and writes the graph outputs. -/
theorem names_of_interface (h : g.interface = .ok p.parameters) :
    Declaration.inputNames p.parameters = g.inputVariables ∧
      Declaration.outNames p.parameters = g.outputVariables := by
  obtain ⟨inputs, outputs, hparameters, hinputs, houtputs⟩ := declares_of_interface h
  rw [hparameters, inputVariables, outputVariables, ← Declaration.names_of_declares hinputs,
    ← Declaration.names_of_declares houtputs]
  exact Declaration.names_signature (Declaration.qualifier_of_declares hinputs)
    (Declaration.qualifier_of_declares houtputs)

/-- The locals of codes are those of their nodes. -/
theorem flatMap_localNames {nodes : List Node} {codes : List NodeCode}
    (h : List.Forall₂ (g.Generates r) nodes codes) :
    codes.flatMap (·.localNames) = nodes.flatMap (·.localVariables) := by
  have hmap : nodes.map (·.localVariables) = codes.map (·.localNames) := by
    refine map_eq_of_forall₂ (h.imp ?_)
    rintro n code ⟨-, _, _, _, hcode⟩
    exact hcode.localNames_eq.symm
  rw [List.flatMap_def, List.flatMap_def, hmap]

/-- The arguments that a call reads are defined before it, and nothing that is written later. -/
theorem mem_inputArguments (hg : g.Valid) (horder : g.executionOrder = .ok order)
    {before after : List Node} (hsplit : g.nodesAt order = before ++ n :: after)
    {code : NodeCode} {inputs outputs : List Declaration} {passed : List String}
    (hcode : g.IsCodeOf n code inputs outputs passed) {a : String} (ha : a ∈ code.inputArguments) :
    (a ∈ g.inputVariables ∨ a ∈ before.flatMap (·.localVariables)) ∧
      a ∉ g.outputVariables ∧ a ∉ (n :: after).flatMap (·.localVariables) := by
  have hn : n ∈ g.nodes := (mem_nodesAt horder).mp (by simp [hsplit])
  obtain ⟨c, hc, htarget, rfl⟩ := (hcode.mem_inputArguments_iff hg hn).mp ha
  have hsource := hg.isSource_withNodes horder hsplit hc htarget
  have hfree : ∀ m ∈ before, m.name ≠ inputNode := by
    intro m hm
    apply hg.name_ne_inputNode
    exact (mem_nodesAt horder).mp (by simp [hsplit, hm])
  have hdefined : c.source.varName ∈ g.inputVariables ∨
      c.source.varName ∈ before.flatMap (·.localVariables) := hsource.varName_mem hfree
  have hdistinct := hg.nodup_entry horder
  rw [hsplit, List.flatMap_append] at hdistinct
  obtain ⟨-, hlocals, hapart⟩ := List.nodup_append.mp hdistinct
  refine ⟨hdefined, hg.varName_not_mem_outputs (hg.sources c hc), ?_⟩
  -- A local of this node or of a later one is neither a graph input nor a local before it.
  intro hlater
  rcases hdefined with hin | hearlier
  · exact hapart _ (List.mem_append_left _ hin) _ (List.mem_append_right _ hlater) rfl
  · exact (List.nodup_append.mp hlocals).2.2 _ hearlier _ hlater rfl

/-- **Closed programs.** Every variable of the entry function is defined before it is used. With the
    built-in adapters this holds of the functions of the nodes as well. -/
theorem closed_of_compile (h : (r.compile g).result = .ok p) :
    Declaration.inputNames p.parameters = g.inputVariables ∧
    Declaration.outNames p.parameters = g.outputVariables ∧
    p.Closed ∧
    (r = Registry.builtin → ∀ code ∈ p.nodes, code.ReadsInputs) := by
  obtain ⟨hvalid, -, -, hinterface, -, hbindings⟩ := Registry.compile_eq_ok.mp h
  have hg := validate_eq_ok.mp hvalid
  obtain ⟨order, horder, hnodes⟩ := generates_of_compile h
  obtain ⟨hinNames, houtNames⟩ := names_of_interface hinterface
  refine ⟨hinNames, houtNames, ?_, ?_⟩
  · refine { arity := ?_, inputArguments := ?_, outArguments := ?_, bindings := ?_ }
    · intro code hcode
      obtain ⟨n, -, -, inputs, outputs, passed, hn⟩ := exists_of_mem_right hnodes hcode
      exact hn.length_arguments
    · intro before code after hsplit a ha
      -- The codes before and after this one are those of the nodes before and after its node.
      rw [hsplit] at hnodes
      obtain ⟨earlier, n, later, horderSplit, hbefore, hn, hafter⟩ :=
        forall₂_append_cons_right hnodes
      obtain ⟨inputs, outputs, passed, hcode⟩ := hn.isCodeOf
      rw [hinNames, houtNames, flatMap_localNames hbefore,
        flatMap_localNames (.cons hn hafter)]
      exact mem_inputArguments hg horder horderSplit hcode ha
    · intro code hcode a ha
      obtain ⟨n, -, -, inputs, outputs, passed, hn⟩ := exists_of_mem_right hnodes hcode
      rwa [hn.names_arguments.2] at ha
    · intro o ho
      obtain ⟨decl, hdecl, source, hsource, rfl⟩ :=
        exists_of_mem_right (carries_of_bindings hg hbindings) ho
      refine ⟨_, source, rfl, ?_, ?_⟩
      · rw [houtNames]
        exact List.mem_map_of_mem hdecl
      · obtain ⟨c, hc, -, rfl⟩ := hsource.exists_connection
        rw [hinNames, flatMap_localNames hnodes]
        have hlocals := (nodesAt_perm horder).flatMap_right (·.localVariables)
        rw [hlocals.mem_iff]
        exact (hg.sources c hc).varName_mem fun n hn => hg.name_ne_inputNode hn
  · rintro rfl code hcode
    obtain ⟨n, hn, hnode, -⟩ := exists_of_mem_right hnodes hcode
    exact readsInputs_of_nodeCode hg ((mem_nodesAt horder).mp hn) hnode

/-- Everything that `tintedColorProgram` reads is there before, and its functions read their inputs
    only. -/
theorem closed_of_compile_tintedColor :
    (Registry.builtin.compile tintedColor).result = .ok tintedColorProgram ∧
      tintedColorProgram.Closed ∧ ∀ code ∈ tintedColorProgram.nodes, code.ReadsInputs := by
  obtain ⟨-, -, hclosed, hbodies⟩ := closed_of_compile compile_tintedColor
  exact ⟨compile_tintedColor, hclosed, hbodies rfl⟩

end Graph

end ShaderGraph
