import ShaderGraph.Proofs.Naming
import ShaderGraph.Proofs.Scoping

namespace ShaderGraph

/-!
# Names of compiled programs

The checks of a graph compare names that the program of the graph is then made of. Here the names
are collected from the program, to say which of them are told apart and which are not.

* `Program.variables` — the variables of the entry function.
* `NodeCode.isIdentifier_functionName`, `Graph.map_functionName` — the functions of the nodes.
* `Program.CallsResolve` — what is called in the entry function are the functions of the nodes.
  Variables can get in the way: `Graph.shadowedCall` is a valid graph whose program calls a local
  variable.
-/

/-! ### Functions -/

/-- The name of the function that is generated for a node. -/
def Node.qualifiedName (options : Options) (n : Node) : String :=
  options.functionPrefix ++ "_" ++ n.functionName

/-- A prefix that is empty or an identifier makes identifiers of function names. -/
theorem NodeCode.isIdentifier_functionName {options : Options}
    (hlead : options.functionPrefix = "" ∨ Naming.isIdentifier options.functionPrefix = true)
    (code : NodeCode) : Naming.isIdentifier (code.functionName options) = true := by
  have hunderscore : ∀ c ∈ "_".toList, Naming.isIdentifierChar c = true := by
    intro c hc
    rw [List.mem_singleton.mp hc]
    decide
  have hname : ∀ name : String, ∀ c ∈ (Naming.identifier name).toList,
      Naming.isIdentifierChar c = true := by
    intro name c hc
    rw [Naming.toList_identifier] at hc
    exact Naming.isIdentifierChar_of_mem_identifierChars hc
  have hstart : Naming.isIdentifier (options.functionPrefix ++ "_") = true := by
    rcases hlead with hempty | hlead
    · rw [hempty]
      decide
    · exact Naming.isIdentifier_append hlead hunderscore
  have hkind := Naming.isIdentifier_append hstart (hname code.kind)
  exact Naming.isIdentifier_append (Naming.isIdentifier_append hkind hunderscore) (hname code.name)

/-- The characters of a function's name: the prefix, the kind and the node between underscores. -/
theorem Node.toList_qualifiedName (options : Options) (n : Node) :
    (n.qualifiedName options).toList =
      (options.functionPrefix.toList ++ '_' :: (Naming.identifier n.kind).toList) ++
        '_' :: (Naming.identifier n.name).toList := by
  simp [qualifiedName, functionName]

/-! ### Scopes -/

/-- The variables of the entry function: its parameters and the locals of all calls. -/
def Program.variables (p : Program) : List String :=
  p.parameters.map (·.name) ++ p.nodes.flatMap (·.localNames)

/-- Each call of the entry function refers to the function of its node: no other function has the
    same name, the entry function has another, and so has every variable that is in scope. -/
structure Program.CallsResolve (options : Options) (p : Program) : Prop where
  functions : (p.nodes.map (·.functionName options)).Nodup
  entryPoint : ∀ code ∈ p.nodes, code.functionName options ≠ options.entryPoint
  scope : ∀ code ∈ p.nodes, code.functionName options ∉ p.variables

namespace Graph

variable {r : Registry} {g : Graph} {n : Node} {code : NodeCode} {p : Program}

/-- The parameters of the entry function are the variables of graph inputs and outputs. -/
theorem map_name_of_interface {parameters : List Declaration} (h : g.interface = .ok parameters) :
    parameters.map (·.name) = g.inputVariables ++ g.outputVariables := by
  obtain ⟨inputs, outputs, rfl, hinputs, houtputs⟩ := declares_of_interface h
  rw [List.map_append, Declaration.names_of_declares hinputs,
    Declaration.names_of_declares houtputs]
  rfl

/-- The name under which a node is called follows from the node. -/
theorem Generates.functionName_eq (h : g.Generates r n code) (options : Options) :
    code.functionName options = n.qualifiedName options := by
  obtain ⟨inputs, outputs, passed, hcode⟩ := h.isCodeOf
  rw [NodeCode.functionName, hcode.name_eq, hcode.kind_eq, Node.qualifiedName, Node.functionName]
  simp only [String.append_assoc]

/-- The functions of codes are named after their nodes. -/
theorem map_functionName {nodes : List Node} {codes : List NodeCode}
    (h : List.Forall₂ (g.Generates r) nodes codes) (options : Options) :
    codes.map (·.functionName options) = nodes.map (·.qualifiedName options) := by
  have heq := h.imp fun n code hcode => (hcode.functionName_eq options).symm
  exact (map_eq_of_forall₂ heq).symm

/-- The functions of the nodes of a valid graph have distinct names, whatever is put in front. -/
theorem Valid.nodup_qualifiedName (hg : g.Valid) (options : Options) :
    (g.nodes.map (·.qualifiedName options)).Nodup := by
  have hinjective : Function.Injective (options.functionPrefix ++ "_" ++ ·) :=
    fun _ _ h => (String.append_right_inj _).mp h
  have hmap := hg.functions.map hinjective
  rwa [List.map_map] at hmap

/-! ### Programs -/

/-- No two functions of a compiled program have one name. -/
theorem nodup_functionName_of_compile (h : (r.compile g).result = .ok p) (options : Options) :
    (p.nodes.map (·.functionName options)).Nodup := by
  obtain ⟨order, horder, hnodes⟩ := generates_of_compile h
  rw [map_functionName hnodes]
  have hdistinct := (valid_of_compile h).nodup_qualifiedName options
  exact ((nodesAt_perm horder).map _).nodup_iff.mpr hdistinct

/-- The variables of the entry function are those of the graph's interface and of its nodes. -/
theorem variables_of_compile (h : (r.compile g).result = .ok p) :
    p.parameters.map (·.name) = g.inputVariables ++ g.outputVariables ∧
      ∃ order, g.executionOrder = .ok order ∧
        p.nodes.flatMap (·.localNames) = (g.nodesAt order).flatMap (·.localVariables) := by
  obtain ⟨-, -, -, hinterface, -, -⟩ := Registry.compile_eq_ok.mp h
  obtain ⟨order, horder, hnodes⟩ := generates_of_compile h
  exact ⟨map_name_of_interface hinterface, order, horder, flatMap_localNames hnodes⟩

/-- No two variables of its entry function have one name. -/
theorem nodup_variables_of_compile (h : (r.compile g).result = .ok p) : p.variables.Nodup := by
  obtain ⟨hparameters, order, horder, hlocals⟩ := variables_of_compile h
  rw [Program.variables, hparameters, hlocals]
  exact (valid_of_compile h).nodup_entry horder

/-- The locals of a compiled program are those of the nodes of the graph. -/
theorem mem_locals_of_compile (h : (r.compile g).result = .ok p) {name : String} :
    name ∈ p.nodes.flatMap (·.localNames) ↔ ∃ n ∈ g.nodes, name ∈ n.localVariables := by
  obtain ⟨-, order, horder, hlocals⟩ := variables_of_compile h
  rw [hlocals, List.mem_flatMap]
  exact exists_congr fun n => and_congr_left fun _ => mem_nodesAt horder

/-- **Distinct names.** The functions of a compiled program have distinct names, which are
    identifiers; each function has distinct parameters; and the variables of the entry function
    are distinct. -/
theorem distinct_names_of_compile {options : Options}
    (hlead : options.functionPrefix = "" ∨ Naming.isIdentifier options.functionPrefix = true)
    (h : (r.compile g).result = .ok p) :
    (∀ code ∈ p.nodes, Naming.isIdentifier (code.functionName options) = true) ∧
    (p.nodes.map (·.functionName options)).Nodup ∧
    (∀ code ∈ p.nodes, (code.parameters.map (·.name)).Nodup) ∧
    (p.parameters.map (·.name) ++ p.nodes.flatMap fun code => code.locals.map (·.name)).Nodup := by
  have hg := valid_of_compile h
  have hparameters : ∀ code ∈ p.nodes, (code.parameters.map (·.name)).Nodup := by
    intro code hcode
    obtain ⟨n, hn, -, inputs, outputs, passed, hshape⟩ := exists_node_of_compile h hcode
    exact hshape.nodup_parameters hg hn
  exact ⟨fun code _ => code.isIdentifier_functionName hlead,
    nodup_functionName_of_compile h options,
    hparameters, nodup_variables_of_compile h⟩

/-- With the prefix `fx`, the functions and variables of `tintedColorProgram` have these names. -/
theorem distinct_names_of_compile_tintedColor :
    Naming.isIdentifier "fx" = true ∧
      (Registry.builtin.compile tintedColor).result = .ok tintedColorProgram ∧
      tintedColorProgram.nodes.map (·.functionName { functionPrefix := "fx" }) =
        ["fx_add_mix", "fx_multiply_scale"] ∧
      ["fx_add_mix", "fx_multiply_scale"].Nodup ∧ tintedColorProgram.variables.Nodup := by
  have hlead : Naming.isIdentifier ({ functionPrefix := "fx" } : Options).functionPrefix = true :=
    by decide
  have hnames : tintedColorProgram.nodes.map (·.functionName { functionPrefix := "fx" }) =
      ["fx_add_mix", "fx_multiply_scale"] := by decide +kernel
  obtain ⟨-, hfunctions, -, hvariables⟩ :=
    distinct_names_of_compile (.inr hlead) compile_tintedColor
  exact ⟨hlead, compile_tintedColor, hnames, hnames ▸ hfunctions, hvariables⟩

/-! ### Calls -/

/-- The first letter of the default prefix sets functions apart from the parameters of the entry
    function, which start with an underscore, and from the entry function itself. -/
theorem qualifiedName_default_ne (n : Node) :
    n.qualifiedName {} ≠ ({} : Options).entryPoint ∧
      ∀ socket, n.qualifiedName {} ≠ Naming.variableName socket := by
  have hhead : (n.qualifiedName {}).toList.head? = some 'v' := by
    rw [Node.toList_qualifiedName]
    rfl
  constructor
  · intro heq
    rw [heq] at hhead
    exact absurd hhead (by decide)
  · intro socket heq
    rw [heq, Naming.head?_variableName] at hhead
    exact absurd hhead (by decide)

/-- The name of an operator's kind is an identifier as it stands, without underscores. -/
theorem toList_identifier_kind (op : Operator) :
    (Naming.identifier op.kind).toList = op.kind.toList ∧ '_' ∉ op.kind.toList ∧
      op.kind.toList ≠ [] := by
  cases op <;> decide

/-- A local variable has the name of a function only if the name of its node starts like that of the
    function, with the prefix and the kind. -/
theorem prefix_of_qualifiedName_mem {op : Operator} {caller owner : Node}
    (hkind : op.kind = caller.kind) (h : caller.qualifiedName {} ∈ owner.localVariables) :
    ("vop_" ++ caller.kind).toList <+: (Naming.identifier owner.name).toList := by
  obtain ⟨decl, -, hname⟩ := List.mem_map.mp h
  obtain ⟨hidentifier, hletters, hne⟩ := toList_identifier_kind op
  have hchars := congrArg String.toList hname
  rw [Naming.localName, String.toList_append, Node.toList_qualifiedName, ← hkind,
    hidentifier] at hchars
  have hlead := Naming.prefix_of_append_variableName (by decide) hletters hne hchars
  rw [← hkind, String.toList_append]
  exact hlead

/-- With the options of the host, a function is named neither as the entry function nor as a
    parameter. -/
theorem functionName_default_ne_of_compile (h : (r.compile g).result = .ok p)
    (hcode : code ∈ p.nodes) :
    code.functionName {} ≠ ({} : Options).entryPoint ∧
      code.functionName {} ∉ p.parameters.map (·.name) := by
  obtain ⟨n, -, hgenerates⟩ := exists_node_of_compile h hcode
  obtain ⟨hentryPoint, hvariable⟩ := qualifiedName_default_ne n
  rw [hgenerates.functionName_eq, (variables_of_compile h).1, inputVariables, outputVariables,
    ← List.map_append]
  refine ⟨hentryPoint, fun hmem => ?_⟩
  obtain ⟨decl, -, hname⟩ := List.mem_map.mp hmem
  exact hvariable decl.name hname.symm

/-- **Names of calls.** Functions have names apart from each other, from the entry function and from
    its parameters. What calls can be confused with are locals, and only those of nodes whose names
    start with the default prefix and the kind of a node. -/
theorem callsResolve_iff_of_compile (h : (Registry.builtin.compile g).result = .ok p) :
    (p.nodes.map (·.functionName {})).Nodup ∧
    (∀ code ∈ p.nodes, code.functionName {} ≠ ({} : Options).entryPoint ∧
      code.functionName {} ∉ p.parameters.map (·.name)) ∧
    (p.CallsResolve {} ↔
      ∀ caller ∈ g.nodes, ∀ owner ∈ g.nodes, caller.qualifiedName {} ∉ owner.localVariables) ∧
    ∀ caller ∈ g.nodes, ∀ owner ∈ g.nodes, caller.qualifiedName {} ∈ owner.localVariables →
      ("vop_" ++ caller.kind).toList <+: (Naming.identifier owner.name).toList := by
  have hfunctions := nodup_functionName_of_compile h {}
  have hentry : ∀ code ∈ p.nodes, code.functionName {} ≠ ({} : Options).entryPoint ∧
      code.functionName {} ∉ p.parameters.map (·.name) := by
    intro code hcode
    exact functionName_default_ne_of_compile h hcode
  refine ⟨hfunctions, hentry, ⟨fun hresolve => ?_, fun hapart => ?_⟩, ?_⟩
  · intro caller hcaller owner howner hmem
    obtain ⟨code, hcode, hgenerates⟩ := exists_code_of_compile h hcaller
    apply hresolve.scope code hcode
    rw [hgenerates.functionName_eq]
    exact List.mem_append_right _ ((mem_locals_of_compile h).mpr ⟨owner, howner, hmem⟩)
  · refine {
      functions := hfunctions
      entryPoint := fun code hcode => (hentry code hcode).1
      scope := ?_ }
    intro code hcode hmem
    rcases List.mem_append.mp hmem with hparameter | hlocal
    · exact (hentry code hcode).2 hparameter
    · obtain ⟨caller, hcaller, hgenerates⟩ := exists_node_of_compile h hcode
      obtain ⟨owner, howner, hlocal⟩ := (mem_locals_of_compile h).mp hlocal
      rw [hgenerates.functionName_eq] at hlocal
      exact hapart caller hcaller owner howner hlocal
  · intro caller hcaller owner _ hmem
    obtain ⟨code, -, hgenerates⟩ := exists_code_of_compile h hcaller
    obtain ⟨op, hkind, -⟩ :=
      operations_of_nodeCode (valid_of_compile h) hcaller hgenerates.nodeCode_eq
    exact prefix_of_qualifiedName_mem hkind hmem

/-- In `tintedColorProgram`, all calls reach their functions. -/
theorem callsResolve_tintedColor :
    (Registry.builtin.compile tintedColor).result = .ok tintedColorProgram ∧
      tintedColorProgram.CallsResolve {} := by
  obtain ⟨-, -, hresolve, hlead⟩ := callsResolve_iff_of_compile compile_tintedColor
  have hnames : ∀ caller ∈ tintedColor.nodes, ∀ owner ∈ tintedColor.nodes,
      ¬ ("vop_" ++ caller.kind).toList <+:
        (Naming.identifier owner.name).toList := by decide +kernel
  refine ⟨compile_tintedColor, hresolve.mpr fun caller hcaller owner howner hmem => ?_⟩
  exact hnames caller hcaller owner howner (hlead caller hcaller owner howner hmem)

/-! ### A call of a variable -/

/-- The output of the first node and the function of the second one get the same name. -/
def shadowedCall : Graph where
  inputs := [⟨"x", "float"⟩]
  outputs := [⟨"result", "float"⟩]
  nodes := [
    { name := "vop_add"
      kind := "multiply"
      inputs := [⟨"input1", "float"⟩]
      outputs := [⟨"product", "float"⟩] },
    { name := "product"
      kind := "add"
      inputs := [⟨"input1", "float"⟩]
      outputs := [⟨"sum", "float"⟩] }]
  connections := [
    ⟨⟨"subinput", "x"⟩, ⟨"vop_add", "input1"⟩⟩,
    ⟨⟨"vop_add", "product"⟩, ⟨"product", "input1"⟩⟩,
    ⟨⟨"product", "sum"⟩, ⟨"suboutput", "result"⟩⟩]

/-- The program of `shadowedCall`. -/
def shadowedCallProgram : Program where
  parameters := [⟨"_x", "float", none⟩, ⟨"_result", "float", some "out"⟩]
  nodes := [
    { name := "vop_add"
      kind := "multiply"
      parameters := [⟨"_input1", "float", none⟩, ⟨"_product", "float", some "out"⟩]
      operations := [.assign "_product" (.var "_input1")]
      arguments := ["_x", "vop_add_product"]
      locals := [⟨"vop_add_product", "float", none⟩] },
    { name := "product"
      kind := "add"
      parameters := [⟨"_input1", "float", none⟩, ⟨"_sum", "float", some "out"⟩]
      operations := [.assign "_sum" (.var "_input1")]
      arguments := ["vop_add_product", "product_sum"]
      locals := [⟨"product_sum", "float", none⟩] }]
  bindings := [.assign "_result" (.var "product_sum")]

/-- Calls need not refer to functions: this valid graph calls a local variable. -/
theorem not_callsResolve_shadowedCall :
    (Registry.builtin.compile shadowedCall).result = .ok shadowedCallProgram ∧
      "    float vop_add_product;" ∈ shadowedCallProgram.entryBody {} ∧
      "    vop_add_product(vop_add_product, product_sum);" ∈ shadowedCallProgram.entryBody {} ∧
      ¬ shadowedCallProgram.CallsResolve {} := by
  have hcall : ∃ code ∈ shadowedCallProgram.nodes,
      code.functionName {} ∈ shadowedCallProgram.variables := by decide +kernel
  obtain ⟨code, hcode, hvariable⟩ := hcall
  exact ⟨by decide +kernel, by decide +kernel, by decide +kernel,
    fun hresolve => hresolve.scope code hcode hvariable⟩

end Graph

end ShaderGraph
