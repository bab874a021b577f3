import ShaderGraph.Proofs.Contexts
import ShaderGraph.Proofs.ExecutionOrder

namespace ShaderGraph

/-!
# Shape of compiled programs

Which declarations, arguments and assignments the program of a graph consists of, whatever the
adapters generate for its nodes.

* `Declaration.Declares` — a declaration stands for a socket.
* `Graph.Carries` — a variable holds what the one connection into a socket carries.
* `Graph.IsCodeOf` — the signature and the call of a node's function.
* `Graph.isCodeOf_of_nodeCode`, `Graph.declares_of_interface`, `Graph.carries_of_bindings` — the
  parts of a program, from what the compilation of each part returned.
-/

/-! ### Declarations -/

/-- The declaration of the variable `name` for a socket: it has the target's spelling of the
    socket's type. -/
structure Declaration.Declares (d : Declaration) (decl : SocketDecl) (name : String)
    (qualifier? : Option String) : Prop where
  name_eq : d.name = name
  typeName_eq : (DataType.ofHostName? decl.typeName).bind DataType.targetName? = some d.typeName
  qualifier_eq : d.qualifier? = qualifier?

/-- A variable is declared if a shader can hold its type, and then with the name of that type. -/
theorem Declaration.ofType_eq_ok {name : String} {type : DataType} {qualifier? : Option String}
    {d : Declaration} :
    Declaration.ofType name type qualifier? = .ok d ↔
      ∃ typeName, type.targetName? = some typeName ∧ d = ⟨name, typeName, qualifier?⟩ := by
  simp only [Declaration.ofType, DataType.spell, map_eq_ok]
  cases type.targetName? <;> simp [eq_comm]

/-- What is declared for a resolved socket is declared for the socket. -/
theorem SocketDecl.declares {decl : SocketDecl} {direction : Direction} {s : Socket}
    (hs : decl.resolve direction = .ok s) {name : String} {qualifier? : Option String}
    {d : Declaration} (hd : Declaration.ofType name s.type qualifier? = .ok d) :
    d.Declares decl name qualifier? := by
  obtain ⟨type, htype, rfl⟩ := SocketDecl.resolve_eq_ok.mp hs
  obtain ⟨typeName, htypeName, rfl⟩ := Declaration.ofType_eq_ok.mp hd
  exact { name_eq := rfl, typeName_eq := by simp [htype, htypeName], qualifier_eq := rfl }

/-- The parameter for a resolved socket. -/
theorem SocketDecl.declares_ofSocket (direction : Direction) {decl : SocketDecl} {s : Socket}
    {d : Declaration} (hs : decl.resolve direction = .ok s) (hd : Declaration.ofSocket s = .ok d) :
    d.Declares decl (Naming.variableName decl.name) direction.qualifier? := by
  obtain ⟨hname, hdirection⟩ := SocketDecl.name_resolve hs
  rw [← hname, ← hdirection]
  exact decl.declares hs hd

namespace Graph

variable {r : Registry} {g : Graph} {n : Node} {p : Program}

/-! ### Connections -/

/-- The variable holds what the one connection into `target` carries. -/
def Carries (g : Graph) (target : Endpoint) (name : String) : Prop :=
  ∃ c, g.connections.filter (·.target == target) = [c] ∧ name = sourceVariable c

/-- In a valid graph, a connection that is found is the only one into its target. -/
theorem Valid.carries (hg : g.Valid) {target : Endpoint} {c : Connection}
    (hc : g.incoming? target = some c) : g.Carries target (sourceVariable c) := by
  obtain ⟨hmem, rfl⟩ := hg.incoming?_eq_some.mp hc
  exact ⟨c, filter_key_eq_singleton hg.fanIn hmem, rfl⟩

/-! ### Nodes -/

/-- The signature and the call of the function of a node. The parameters `inputs` stand for the
    connected inputs, to which the variables `passed` are handed, and `outputs` for the outputs,
    which the locals receive. -/
structure IsCodeOf (g : Graph) (n : Node) (code : NodeCode) (inputs outputs : List Declaration)
    (passed : List String) : Prop where
  name_eq : code.name = n.name
  kind_eq : code.kind = n.kind
  parameters_eq : code.parameters = inputs ++ outputs
  arguments_eq : code.arguments = passed ++ code.locals.map (·.name)
  inputs : List.Forall₂ (fun decl d => d.Declares decl (Naming.variableName decl.name) none)
    (n.inputs.filter (g.IsConnected n)) inputs
  passed : List.Forall₂ (fun decl a => g.Carries ⟨n.name, decl.name⟩ a)
    (n.inputs.filter (g.IsConnected n)) passed
  outputs : List.Forall₂
    (fun decl d => d.Declares decl (Naming.variableName decl.name) (some "out")) n.outputs outputs
  locals : List.Forall₂ (fun decl d => d.Declares decl (Naming.localName n.name decl.name) none)
    n.outputs code.locals

/-- The adapters generate `code` for the node, with a signature and a call of the right shape. -/
structure Generates (g : Graph) (r : Registry) (n : Node) (code : NodeCode) : Prop where
  nodeCode_eq : (r.nodeCode g n).result = .ok code
  isCodeOf : ∃ inputs outputs passed, g.IsCodeOf n code inputs outputs passed

/-- The code of a node in a valid graph declares, passes and receives what it should. -/
theorem isCodeOf_of_nodeCode (hg : g.Valid) (hn : n ∈ g.nodes) {code : NodeCode}
    (h : (r.nodeCode g n).result = .ok code) :
    ∃ inputs outputs passed, g.IsCodeOf n code inputs outputs passed := by
  obtain ⟨ctx, adapter, operations, hctx, -, -, hcode⟩ := Registry.nodeCode_eq_ok.mp h
  obtain ⟨hinputs, houtputs⟩ := (context_eq_ok hg hn).mp hctx
  obtain ⟨parameters, passed, locals, hparameters, hpassed, hlocals, rfl⟩ :=
    nodeCode_eq_ok.mp hcode
  rw [mapM_eq_ok, Context.parameters, forall₂_append_left] at hparameters
  obtain ⟨inputs, outputs, rfl, hin, hout⟩ := hparameters
  -- Declarations, sockets and what is generated for them are three lists side by side.
  have hpassed := mapM_eq_ok.mp hpassed
  have hlocals := mapM_eq_ok.mp hlocals
  refine ⟨inputs, outputs, passed, {
    name_eq := rfl
    kind_eq := rfl
    parameters_eq := rfl
    arguments_eq := rfl
    inputs := forall₂_comp ?_ hinputs hin
    passed := forall₂_comp ?_ hinputs hpassed
    outputs := forall₂_comp ?_ houtputs hout
    locals := forall₂_comp ?_ houtputs hlocals }⟩
  · intro decl s d hs hd
    exact SocketDecl.declares_ofSocket .input hs hd
  · intro decl s a hs ha
    rw [inputArgument, (SocketDecl.name_resolve hs).1] at ha
    split at ha
    · next c hc => exact Except.ok.inj ha ▸ hg.carries hc
    · exact absurd ha (by simp)
  · intro decl s d hs hd
    exact SocketDecl.declares_ofSocket .output hs hd
  · intro decl s d hs hd
    rw [← (SocketDecl.name_resolve hs).1]
    exact decl.declares hs hd

namespace IsCodeOf

variable {code : NodeCode} {inputs outputs : List Declaration} {passed : List String}

/-- A call has one argument for each parameter. -/
theorem length_arguments (h : g.IsCodeOf n code inputs outputs passed) :
    code.arguments.length = code.parameters.length := by
  have hinputs := h.inputs.length_eq
  have hpassed := h.passed.length_eq
  have houtputs := h.outputs.length_eq
  have hlocals := h.locals.length_eq
  rw [h.arguments_eq, h.parameters_eq, List.length_append, List.length_append, List.length_map]
  omega

/-- The locals have the types of the parameters that they are passed for. -/
theorem types_locals (h : g.IsCodeOf n code inputs outputs passed) :
    List.Forall₂ (fun d l => l.typeName = d.typeName ∧ l.qualifier? = none) outputs
      code.locals := by
  refine forall₂_comp ?_ (List.Forall₂.flip (R := flip _) h.outputs) h.locals
  intro d decl l hd hl
  -- Both are declared for the same output.
  have htypes := hd.typeName_eq.symm.trans hl.typeName_eq
  exact ⟨(Option.some.inj htypes).symm, hl.qualifier_eq⟩

end IsCodeOf

/-! ### Interface and bindings -/

/-- The parameters of the entry function for sockets of one direction are declared with its
    qualifier. -/
theorem declares_of_parameter {direction : Direction} {decls : List SocketDecl}
    {ds : List Declaration} (h : decls.mapM (parameter direction) = .ok ds) :
    List.Forall₂ (fun decl d => d.Declares decl (Naming.variableName decl.name)
      direction.qualifier?) decls ds := by
  refine (mapM_eq_ok.mp h).imp fun decl d hd => ?_
  obtain ⟨s, hs, hd⟩ := bind_eq_ok.mp hd
  exact SocketDecl.declares_ofSocket direction hs hd

/-- The parameters of the entry function are those of the graph inputs, then those of the graph
    outputs. -/
theorem declares_of_interface {parameters : List Declaration} (h : g.interface = .ok parameters) :
    ∃ inputs outputs, parameters = inputs ++ outputs ∧
      List.Forall₂ (fun decl d => d.Declares decl (Naming.variableName decl.name) none)
        g.inputs inputs ∧
      List.Forall₂ (fun decl d => d.Declares decl (Naming.variableName decl.name) (some "out"))
        g.outputs outputs := by
  simp only [interface, bind_eq_ok, pure_eq_ok] at h
  obtain ⟨inputs, hinputs, outputs, houtputs, rfl⟩ := h
  exact ⟨inputs, outputs, rfl, declares_of_parameter hinputs, declares_of_parameter houtputs⟩

/-- Each graph output is assigned what its connection carries. -/
theorem carries_of_bindings (hg : g.Valid) {bindings : List Operation}
    (h : g.bindings = .ok bindings) :
    List.Forall₂ (fun decl o => ∃ name, g.Carries ⟨outputNode, decl.name⟩ name ∧
      o = .assign (Naming.variableName decl.name) (.var name)) g.outputs bindings := by
  refine (mapM_eq_ok.mp h).imp fun decl o ho => ?_
  rw [binding] at ho
  split at ho
  · next c hc => exact ⟨sourceVariable c, hg.carries hc, (Except.ok.inj ho).symm⟩
  · exact absurd ho (by simp)

/-! ### Programs -/

/-- The nodes of a graph in the order of their calls, with their code. -/
theorem generates_of_compile (h : (r.compile g).result = .ok p) :
    ∃ order, g.executionOrder = .ok order ∧
      List.Forall₂ (g.Generates r) (g.nodesAt order) p.nodes := by
  obtain ⟨-, order, horder, -, hnodes, -⟩ := Registry.compile_eq_ok.mp h
  have hg := valid_of_compile h
  have hmem : ∀ n ∈ g.nodesAt order, n ∈ g.nodes := fun n => (mem_nodesAt horder).mp
  refine ⟨order, horder, ?_⟩
  refine ((List.forall₂_and_left _ _).mpr ⟨hmem, hnodes⟩).imp ?_
  rintro n code ⟨hn, hcode⟩
  exact { nodeCode_eq := hcode, isCodeOf := isCodeOf_of_nodeCode hg hn hcode }

/-- Each code in a compiled program is that of a node. -/
theorem exists_node_of_compile (h : (r.compile g).result = .ok p) {code : NodeCode}
    (hcode : code ∈ p.nodes) : ∃ n ∈ g.nodes, g.Generates r n code := by
  obtain ⟨order, horder, hnodes⟩ := generates_of_compile h
  obtain ⟨n, hn, hgenerates⟩ := exists_of_mem_right hnodes hcode
  exact ⟨n, (mem_nodesAt horder).mp hn, hgenerates⟩

/-- Each node has its code in a compiled program. -/
theorem exists_code_of_compile (h : (r.compile g).result = .ok p) (hn : n ∈ g.nodes) :
    ∃ code ∈ p.nodes, g.Generates r n code := by
  obtain ⟨order, horder, hnodes⟩ := generates_of_compile h
  exact exists_of_mem_left hnodes ((mem_nodesAt horder).mpr hn)

/-- **Shape of compiled programs.** Each node has one function and one call, whose parameters and
    arguments are those of its connected inputs and its outputs; the entry function has one
    parameter for each graph input and output, and assigns each output once. -/
theorem shape_of_compile (h : (r.compile g).result = .ok p) :
    (∃ nodes, nodes.Perm g.nodes ∧
      List.Forall₂ (fun n code => ∃ inputs outputs passed,
        g.IsCodeOf n code inputs outputs passed ∧
        code.arguments.length = code.parameters.length ∧
        List.Forall₂ (fun d l => l.typeName = d.typeName ∧ l.qualifier? = none) outputs
          code.locals) nodes p.nodes) ∧
    (p.nodes.map (·.name)).Nodup ∧
    (∃ inputs outputs, p.parameters = inputs ++ outputs ∧
      List.Forall₂ (fun decl d => d.Declares decl (Naming.variableName decl.name) none)
        g.inputs inputs ∧
      List.Forall₂ (fun decl d => d.Declares decl (Naming.variableName decl.name) (some "out"))
        g.outputs outputs) ∧
    List.Forall₂ (fun decl o => ∃ name, g.Carries ⟨outputNode, decl.name⟩ name ∧
      o = .assign (Naming.variableName decl.name) (.var name)) g.outputs p.bindings := by
  obtain ⟨hvalid, -, -, hinterface, -, hbindings⟩ := Registry.compile_eq_ok.mp h
  have hg := validate_eq_ok.mp hvalid
  obtain ⟨order, horder, hnodes⟩ := generates_of_compile h
  have hperm := nodesAt_perm horder
  have hnames : (g.nodesAt order).map (·.name) = p.nodes.map (·.name) := by
    refine map_eq_of_forall₂ (hnodes.imp ?_)
    rintro n code ⟨-, _, _, _, hcode⟩
    exact hcode.name_eq.symm
  refine ⟨⟨g.nodesAt order, hperm, hnodes.imp ?_⟩, ?_, declares_of_interface hinterface,
    carries_of_bindings hg hbindings⟩
  · rintro n code ⟨-, inputs, outputs, passed, hcode⟩
    exact ⟨inputs, outputs, passed, hcode, hcode.length_arguments, hcode.types_locals⟩
  · rw [← hnames]
    exact (hperm.map _).nodup_iff.mpr hg.names

/-! ### An example -/

/-- Two colors are added and the sum is scaled. The node that comes last in the execution order is
    declared first, and one input is not connected. -/
def tintedColor : Graph where
  inputs := [⟨"base_color", "color"⟩, ⟨"tint", "color"⟩, ⟨"gain", "float"⟩]
  outputs := [⟨"result", "color"⟩]
  nodes := [
    { name := "scale"
      kind := "multiply"
      inputs := [⟨"input1", "vector"⟩, ⟨"input2", "float"⟩]
      outputs := [⟨"product", "vector"⟩] },
    { name := "mix"
      kind := "add"
      inputs := [⟨"input1", "vector"⟩, ⟨"input2", "vector"⟩, ⟨"input3", "vector"⟩]
      outputs := [⟨"sum", "vector"⟩] }]
  connections := [
    ⟨⟨"subinput", "base_color"⟩, ⟨"mix", "input1"⟩⟩,
    ⟨⟨"subinput", "tint"⟩, ⟨"mix", "input2"⟩⟩,
    ⟨⟨"mix", "sum"⟩, ⟨"scale", "input1"⟩⟩,
    ⟨⟨"subinput", "gain"⟩, ⟨"scale", "input2"⟩⟩,
    ⟨⟨"scale", "product"⟩, ⟨"suboutput", "result"⟩⟩]

/-- The program of `tintedColor`. -/
def tintedColorProgram : Program where
  parameters := [⟨"_baseColor", "float3", none⟩, ⟨"_tint", "float3", none⟩,
    ⟨"_gain", "float", none⟩, ⟨"_result", "float3", some "out"⟩]
  nodes := [
    { name := "mix"
      kind := "add"
      parameters := [⟨"_input1", "float3", none⟩, ⟨"_input2", "float3", none⟩,
        ⟨"_sum", "float3", some "out"⟩]
      operations := [.assign "_sum" (.binary .add (.var "_input1") (.var "_input2"))]
      arguments := ["_baseColor", "_tint", "mix_sum"]
      locals := [⟨"mix_sum", "float3", none⟩] },
    { name := "scale"
      kind := "multiply"
      parameters := [⟨"_input1", "float3", none⟩, ⟨"_input2", "float", none⟩,
        ⟨"_product", "float3", some "out"⟩]
      operations := [.assign "_product" (.binary .multiply (.var "_input1") (.var "_input2"))]
      arguments := ["mix_sum", "_gain", "scale_product"]
      locals := [⟨"scale_product", "float3", none⟩] }]
  bindings := [.assign "_result" (.var "scale_product")]

/-- The graph is compiled to the program. -/
theorem compile_tintedColor :
    (Registry.builtin.compile tintedColor).result = .ok tintedColorProgram := by
  decide +kernel

/-- The program has as many parameters and bindings as the graph has sockets and outputs. -/
theorem shape_of_compile_tintedColor :
    (Registry.builtin.compile tintedColor).result = .ok tintedColorProgram ∧
      tintedColorProgram.parameters.length = 4 ∧ tintedColorProgram.bindings.length = 1 := by
  obtain ⟨-, -, ⟨inputs, outputs, hparameters, hinputs, houtputs⟩, hbindings⟩ :=
    shape_of_compile compile_tintedColor
  refine ⟨compile_tintedColor, ?_, hbindings.length_eq.symm⟩
  rw [hparameters, List.length_append, ← hinputs.length_eq, ← houtputs.length_eq]
  rfl

end Graph

end ShaderGraph
