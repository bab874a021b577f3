import ShaderGraph.Proofs.Assignment
import ShaderGraph.Proofs.GeneratedNames

namespace ShaderGraph

/-!
# Variables and identifiers

The name of a node is made an identifier wherever it is generated into code. The name of a socket is
only put into camel case, and no check looks at its characters. Whether the variables of a program
are identifiers therefore depends on the names of the sockets.

* `Program.generatedNames` — the names that a program declares, passes and assigns.
* `Graph.namedSockets` — the sockets from whose names they are made; `Graph.exists_namedSocket` and
  `Graph.variableName_mem_generatedNames` lead from the one to the other.

`Graph.spacedName` is a graph whose program has a parameter with a space in its name.
-/

/-! ### Programs -/

/-- The names that are declared, passed and assigned for a node. -/
def NodeCode.generatedNames (code : NodeCode) : List String :=
  code.parameters.map (·.name) ++ code.localNames ++ code.arguments ++ code.written

/-- The names that a program declares, passes and assigns. -/
def Program.generatedNames (p : Program) : List String :=
  p.parameters.map (·.name) ++ p.nodes.flatMap (·.generatedNames) ++
    p.bindings.flatMap (·.toExpr.writes)

namespace Graph

variable {g : Graph} {n : Node} {p : Program} {code : NodeCode} {name : String}

/-! ### Sockets -/

/-- The sockets that are given variables: those of the graph, and the connected inputs and the
    outputs of its nodes. -/
def namedSockets (g : Graph) : List SocketDecl :=
  g.inputs ++ g.outputs ++ g.nodes.flatMap fun n => n.inputs.filter (g.IsConnected n) ++ n.outputs

/-- The name is that of a variable for the socket: a parameter, or a local of some node. -/
def NamedAfter (name : String) (decl : SocketDecl) : Prop :=
  name = Naming.variableName decl.name ∨ ∃ node, name = Naming.localName node decl.name

/-- Whether a variable is an identifier depends on its socket only. -/
theorem NamedAfter.isIdentifier_iff {decl : SocketDecl} (h : NamedAfter name decl) :
    Naming.isIdentifier name = true ↔
      ∀ c ∈ Naming.camelCaseChars decl.name.toList, Naming.isIdentifierChar c = true := by
  rcases h with rfl | ⟨node, rfl⟩
  · exact Naming.isIdentifier_variableName_iff
  · exact Naming.isIdentifier_localName_iff

/-- The sockets that a node has in the program are among those of the graph that give names. -/
theorem mem_namedSockets_of_node (hn : n ∈ g.nodes) {decl : SocketDecl}
    (h : decl ∈ n.inputs.filter (g.IsConnected n) ++ n.outputs) : decl ∈ g.namedSockets :=
  List.mem_append_right _ (List.mem_flatMap.mpr ⟨n, hn, h⟩)

/-! ### Names and sockets -/

/-- Sources are kept in variables that are named after sockets. -/
theorem IsSource.exists_namedSocket {e : Endpoint} (hg : g.Valid) (h : g.IsSource e) :
    ∃ decl ∈ g.namedSockets, NamedAfter e.varName decl := by
  cases h with
  | @input decl hdecl =>
    exact ⟨decl, List.mem_append_left _ (List.mem_append_left _ hdecl), .inl (varName_input decl)⟩
  | @output n decl hn hdecl =>
    exact ⟨decl, mem_namedSockets_of_node hn (List.mem_append_right _ hdecl),
      .inr ⟨n.name, hg.varName_output hn decl⟩⟩

/-- All names in the code of a node are named after such sockets. -/
theorem exists_namedSocket_of_node (hg : g.Valid) (hn : n ∈ g.nodes)
    (h : g.Generates Registry.builtin n code) (hname : name ∈ code.generatedNames) :
    ∃ decl ∈ g.namedSockets, NamedAfter name decl := by
  obtain ⟨inputs, outputs, passed, hcode⟩ := h.isCodeOf
  have hlocal : ∀ name ∈ code.localNames, ∃ decl ∈ g.namedSockets, NamedAfter name decl := by
    intro name hname
    rw [hcode.localNames_eq] at hname
    obtain ⟨decl, hdecl, rfl⟩ := List.mem_map.mp hname
    exact ⟨decl, mem_namedSockets_of_node hn (List.mem_append_right _ hdecl), .inr ⟨n.name, rfl⟩⟩
  simp only [NodeCode.generatedNames, List.mem_append] at hname
  rcases hname with ((hparameter | hname) | hargument) | hwritten
  · rw [hcode.map_name_parameters] at hparameter
    obtain ⟨decl, hdecl, rfl⟩ := List.mem_map.mp hparameter
    exact ⟨decl, mem_namedSockets_of_node hn hdecl, .inl rfl⟩
  · exact hlocal name hname
  · rw [hcode.arguments_eq] at hargument
    rcases List.mem_append.mp hargument with hpassed | hname
    · rw [← hcode.names_arguments.1] at hpassed
      obtain ⟨c, hc, -, rfl⟩ := (hcode.mem_inputArguments_iff hg hn).mp hpassed
      exact (hg.sources c hc).exists_namedSocket hg
    · exact hlocal name hname
  · obtain ⟨op, -, decl, hdecl, -, hwrites, -⟩ := written_of_nodeCode hg hn h.nodeCode_eq
    rw [hwrites, List.mem_singleton] at hwritten
    exact ⟨decl, mem_namedSockets_of_node hn (List.mem_append_right _ hdecl), .inl hwritten⟩

/-- Every name is made from that of a socket. -/
theorem exists_namedSocket (h : (Registry.builtin.compile g).result = .ok p)
    (hname : name ∈ p.generatedNames) : ∃ decl ∈ g.namedSockets, NamedAfter name decl := by
  obtain ⟨hvalid, -, -, hinterface, -, hbindings⟩ := Registry.compile_eq_ok.mp h
  have hg := validate_eq_ok.mp hvalid
  simp only [Program.generatedNames, List.mem_append] at hname
  rcases hname with (hparameter | hnode) | hbinding
  · rw [map_name_of_interface hinterface, inputVariables, outputVariables,
      ← List.map_append] at hparameter
    obtain ⟨decl, hdecl, rfl⟩ := List.mem_map.mp hparameter
    exact ⟨decl, List.mem_append_left _ hdecl, .inl rfl⟩
  · obtain ⟨code, hcode, hname⟩ := List.mem_flatMap.mp hnode
    obtain ⟨n, hn, hgenerates⟩ := exists_node_of_compile h hcode
    exact exists_namedSocket_of_node hg hn hgenerates hname
  · obtain ⟨o, ho, hname⟩ := List.mem_flatMap.mp hbinding
    obtain ⟨decl, hdecl, source, -, rfl⟩ :=
      exists_of_mem_right (carries_of_bindings hg hbindings) ho
    refine ⟨decl, List.mem_append_left _ (List.mem_append_right _ hdecl), .inl ?_⟩
    exact List.mem_singleton.mp hname

/-- Every such socket has a parameter. -/
theorem variableName_mem_generatedNames (h : (Registry.builtin.compile g).result = .ok p)
    {decl : SocketDecl} (hdecl : decl ∈ g.namedSockets) :
    Naming.variableName decl.name ∈ p.generatedNames := by
  rcases List.mem_append.mp hdecl with hinterface | hnode
  · refine List.mem_append_left _ (List.mem_append_left _ ?_)
    rw [(variables_of_compile h).1, inputVariables, outputVariables, ← List.map_append]
    exact List.mem_map_of_mem hinterface
  · obtain ⟨n, hn, hdecl⟩ := List.mem_flatMap.mp hnode
    obtain ⟨code, hcode, -, inputs, outputs, passed, hshape⟩ := exists_code_of_compile h hn
    refine List.mem_append_left _ (List.mem_append_right _ (List.mem_flatMap.mpr ⟨code, hcode, ?_⟩))
    have hparameter : Naming.variableName decl.name ∈ code.parameters.map (·.name) := by
      rw [hshape.map_name_parameters]
      exact List.mem_map_of_mem hdecl
    simp only [NodeCode.generatedNames, List.mem_append]
    exact .inl (.inl (.inl hparameter))

/-! ### Identifiers -/

/-- **Variables and identifiers.** The parameters, locals, arguments and targets of a compiled
    program are identifiers if and only if in camel case, the names of their sockets have no other
    characters than identifiers may have. If the names have no others to begin with, that is so. The
    names of nodes do not matter. -/
theorem isIdentifier_generatedNames_iff (h : (Registry.builtin.compile g).result = .ok p) :
    ((∀ name ∈ p.generatedNames, Naming.isIdentifier name = true) ↔
      ∀ decl ∈ g.namedSockets, ∀ c ∈ Naming.camelCaseChars decl.name.toList,
        Naming.isIdentifierChar c = true) ∧
    ((∀ decl ∈ g.namedSockets, ∀ c ∈ decl.name.toList, Naming.isIdentifierChar c = true) →
      ∀ name ∈ p.generatedNames, Naming.isIdentifier name = true) := by
  have hiff : (∀ name ∈ p.generatedNames, Naming.isIdentifier name = true) ↔
      ∀ decl ∈ g.namedSockets, ∀ c ∈ Naming.camelCaseChars decl.name.toList,
        Naming.isIdentifierChar c = true := by
    constructor
    · intro hnames decl hdecl
      exact Naming.isIdentifier_variableName_iff.mp
        (hnames _ (variableName_mem_generatedNames h hdecl))
    · intro hsockets name hname
      obtain ⟨decl, hdecl, hafter⟩ := exists_namedSocket h hname
      exact hafter.isIdentifier_iff.mpr (hsockets decl hdecl)
  refine ⟨hiff, fun hsockets => hiff.mpr fun decl hdecl => ?_⟩
  exact Naming.isIdentifierChar_of_mem_camelCaseChars (hsockets decl hdecl)

/-- All names in `tintedColorProgram` are identifiers. -/
theorem isIdentifier_generatedNames_tintedColor :
    (Registry.builtin.compile tintedColor).result = .ok tintedColorProgram ∧
      ∀ name ∈ tintedColorProgram.generatedNames, Naming.isIdentifier name = true := by
  obtain ⟨-, hplain⟩ := isIdentifier_generatedNames_iff compile_tintedColor
  have hsockets : (tintedColor.namedSockets.all fun decl =>
      decl.name.toList.all Naming.isIdentifierChar) = true := by decide +kernel
  simp only [List.all_eq_true] at hsockets
  exact ⟨compile_tintedColor, hplain hsockets⟩

/-! ### A parameter that is no identifier -/

/-- The name of the graph input has a space. -/
def spacedName : Graph where
  inputs := [⟨"base color", "float"⟩]
  outputs := [⟨"result", "float"⟩]
  nodes := [
    { name := "mix"
      kind := "add"
      inputs := [⟨"input1", "float"⟩]
      outputs := [⟨"sum", "float"⟩] }]
  connections := [
    ⟨⟨"subinput", "base color"⟩, ⟨"mix", "input1"⟩⟩,
    ⟨⟨"mix", "sum"⟩, ⟨"suboutput", "result"⟩⟩]

/-- The program of `spacedName`. -/
def spacedNameProgram : Program where
  parameters := [⟨"_base color", "float", none⟩, ⟨"_result", "float", some "out"⟩]
  nodes := [
    { name := "mix"
      kind := "add"
      parameters := [⟨"_input1", "float", none⟩, ⟨"_sum", "float", some "out"⟩]
      operations := [.assign "_sum" (.var "_input1")]
      arguments := ["_base color", "mix_sum"]
      locals := [⟨"mix_sum", "float", none⟩] }]
  bindings := [.assign "_result" (.var "mix_sum")]

/-- A parameter of the entry function, which is also an argument, need not be an identifier. -/
theorem not_isIdentifier_spacedName :
    (Registry.builtin.compile spacedName).result = .ok spacedNameProgram ∧
      "_base color" ∈ spacedNameProgram.generatedNames ∧
      Naming.isIdentifier "_base color" = false :=
  ⟨by decide +kernel, by decide +kernel, by decide⟩

end Graph

end ShaderGraph
