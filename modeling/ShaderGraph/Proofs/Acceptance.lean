import ShaderGraph.Proofs.Arithmetic
import ShaderGraph.Proofs.Shape
import ShaderGraph.Proofs.Unconnected

namespace ShaderGraph

/-!
# Accepted graphs

Which graphs the built-in adapters compile. A compilation can fail in every one of its steps; what
makes a step succeed is said here in terms of the graph alone.

* `SocketDecl.IsRepresentable` — a shader can hold the values of a socket.
* `Graph.exists_interface`, `Graph.exists_bindings` — the entry function.
* `Graph.AcceptsNode`, `Graph.exists_nodeCode` — the nodes.

All steps together are at the end.
-/

/-! ### Types -/

/-- The host's names of types. -/
def hostTypeNames : List String :=
  ["undef", "int", "float", "string", "vector", "color", "vector4", "bsdf", "shader", "surface"]

/-- The host knows the type of a socket, and values of the type can exist in a shader. -/
def SocketDecl.IsRepresentable (decl : SocketDecl) : Prop :=
  decl.typeName ∈ hostTypeNames ∧ decl.typeName ≠ "string"

/-- There is a type of this name with values in shaders unless the host does not know it or it is
    that of texts. -/
theorem DataType.exists_targetName_iff {name : String} :
    (∃ type, ofHostName? name = some type ∧ ∃ typeName, type.targetName? = some typeName) ↔
      name ∈ hostTypeNames ∧ name ≠ "string" := by
  unfold ofHostName?
  split <;> simp_all [hostTypeNames, targetName?]

/-- A representable socket can be resolved. -/
theorem SocketDecl.exists_resolve {decl : SocketDecl} (h : decl.IsRepresentable)
    (direction : Direction) : ∃ s, decl.resolve direction = .ok s := by
  obtain ⟨type, htype, -⟩ := DataType.exists_targetName_iff.mpr h
  exact ⟨_, SocketDecl.resolve_eq_ok.mpr ⟨type, htype, rfl⟩⟩

/-- A variable can be declared for a socket if and only if the socket is representable. -/
theorem SocketDecl.exists_ofType {decl : SocketDecl} {direction : Direction} {s : Socket}
    (hs : decl.resolve direction = .ok s) {name : String} {qualifier? : Option String} :
    (∃ d, Declaration.ofType name s.type qualifier? = .ok d) ↔ decl.IsRepresentable := by
  obtain ⟨type, htype, rfl⟩ := SocketDecl.resolve_eq_ok.mp hs
  simp only [IsRepresentable, ← DataType.exists_targetName_iff, Declaration.ofType_eq_ok]
  refine ⟨?_, ?_⟩
  · rintro ⟨_, typeName, htypeName, -⟩
    exact ⟨type, htype, typeName, htypeName⟩
  · rintro ⟨type', htype', typeName, htypeName⟩
    obtain rfl : type' = type := Option.some.inj (htype'.symm.trans htype)
    exact ⟨_, typeName, htypeName, rfl⟩

namespace Graph

variable {g : Graph} {n : Node}

/-! ### The entry function -/

/-- A parameter can be declared for a representable socket only. -/
theorem exists_parameter {direction : Direction} {decl : SocketDecl} :
    (∃ d, parameter direction decl = .ok d) ↔ decl.IsRepresentable := by
  refine ⟨?_, ?_⟩
  · rintro ⟨d, hd⟩
    obtain ⟨s, hs, hd⟩ := bind_eq_ok.mp hd
    exact (SocketDecl.exists_ofType hs).mp ⟨d, hd⟩
  · intro h
    obtain ⟨s, hs⟩ := SocketDecl.exists_resolve h direction
    obtain ⟨d, hd⟩ := (SocketDecl.exists_ofType hs).mpr h
    exact ⟨d, bind_eq_ok.mpr ⟨s, hs, hd⟩⟩

/-- The parameters of the entry function can be declared if their types are representable. -/
theorem exists_interface :
    (∃ parameters, g.interface = .ok parameters) ↔
      ∀ decl ∈ g.inputs ++ g.outputs, decl.IsRepresentable := by
  have hside : ∀ (direction : Direction) (decls : List SocketDecl),
      (∃ ds, decls.mapM (parameter direction) = .ok ds) ↔ ∀ decl ∈ decls, decl.IsRepresentable := by
    intro direction decls
    simp only [exists_mapM_eq_ok, exists_parameter]
  rw [List.forall_mem_append, ← hside .input, ← hside .output]
  simp only [interface, bind_eq_ok, pure_eq_ok]
  refine ⟨?_, ?_⟩
  · rintro ⟨_, inputs, hinputs, outputs, houtputs, rfl⟩
    exact ⟨⟨inputs, hinputs⟩, outputs, houtputs⟩
  · rintro ⟨⟨inputs, hinputs⟩, outputs, houtputs⟩
    exact ⟨_, inputs, hinputs, outputs, houtputs, rfl⟩

/-- A graph output is bound if and only if something is connected to it. -/
theorem exists_binding {decl : SocketDecl} :
    (∃ o, g.binding decl = .ok o) ↔
      ∃ c ∈ g.connections, c.target = ⟨outputNode, decl.name⟩ := by
  unfold binding
  rw [← isSome_incoming?]
  cases g.incoming? ⟨outputNode, decl.name⟩ <;> simp

/-- The graph outputs can be assigned if they are connected. -/
theorem exists_bindings :
    (∃ bindings, g.bindings = .ok bindings) ↔
      ∀ decl ∈ g.outputs, ∃ c ∈ g.connections, c.target = ⟨outputNode, decl.name⟩ := by
  unfold bindings
  rw [exists_mapM_eq_ok]
  exact forall₂_congr fun decl _ => exists_binding

/-! ### Nodes -/

/-- The built-in adapters generate code for a node. -/
structure AcceptsNode (g : Graph) (n : Node) : Prop where
  /-- The kind is that of an operator, and the node has the output for the result. -/
  operator : ∃ op : Operator, n.kind = op.kind ∧ ∃ decl ∈ n.outputs, decl.name = op.resultSocket
  /-- Some input is connected. -/
  connected : ∃ input ∈ n.inputs, g.IsConnected n input
  /-- An input that alone is connected has the right name. -/
  lone : ∀ input, n.inputs.filter (g.IsConnected n) = [input] → input.name = "input1"
  /-- The connected inputs are declared in the shader. -/
  inputs : ∀ input ∈ n.inputs, g.IsConnected n input → input.IsRepresentable
  /-- All outputs are declared in the shader. -/
  outputs : ∀ output ∈ n.outputs, output.IsRepresentable

/-- There is an argument for an input if and only if something is connected to it. -/
theorem exists_inputArgument {input : Socket} :
    (∃ a, g.inputArgument n input = .ok a) ↔
      ∃ c ∈ g.connections, c.target = ⟨n.name, input.name⟩ := by
  unfold inputArgument
  rw [← isSome_incoming?]
  cases g.incoming? ⟨n.name, input.name⟩ <;> simp

/-- The inputs in the context of a node are connected, so that there is an argument for each. -/
theorem exists_arguments (hg : g.Valid) (hn : n ∈ g.nodes) {ctx : Context}
    (hctx : g.context n = .ok ctx) :
    ∃ arguments, ctx.inputs.mapM (g.inputArgument n) = .ok arguments := by
  rw [exists_mapM_eq_ok]
  intro s hs
  obtain ⟨input, hinput, hresolve⟩ := exists_of_mem_right ((context_eq_ok hg hn).mp hctx).1 hs
  rw [exists_inputArgument, (SocketDecl.name_resolve hresolve).1]
  exact of_decide_eq_true (List.mem_filter.mp hinput).2

/-- The sockets of a node can be resolved and declared if their types are representable, but for
    the inputs that are not connected. -/
theorem exists_context_nodeCode (hg : g.Valid) (hn : n ∈ g.nodes) (operations : List Operation) :
    (∃ ctx, g.context n = .ok ctx ∧ ∃ code, g.nodeCode n ctx operations = .ok code) ↔
      (∀ input ∈ n.inputs.filter (g.IsConnected n), input.IsRepresentable) ∧
        ∀ output ∈ n.outputs, output.IsRepresentable := by
  refine ⟨?_, ?_⟩
  · rintro ⟨ctx, hctx, code, hcode⟩
    obtain ⟨hinputs, houtputs⟩ := (context_eq_ok hg hn).mp hctx
    obtain ⟨parameters, _, _, hparameters, -, -, -⟩ := nodeCode_eq_ok.mp hcode
    have hdeclared := exists_mapM_eq_ok.mp ⟨parameters, hparameters⟩
    constructor
    · intro input hinput
      obtain ⟨s, hs, hresolve⟩ := exists_of_mem_left hinputs hinput
      exact (SocketDecl.exists_ofType hresolve).mp (hdeclared s (List.mem_append_left _ hs))
    · intro output houtput
      obtain ⟨s, hs, hresolve⟩ := exists_of_mem_left houtputs houtput
      exact (SocketDecl.exists_ofType hresolve).mp (hdeclared s (List.mem_append_right _ hs))
  · rintro ⟨hinputs, houtputs⟩
    obtain ⟨inputs, hins⟩ := exists_mapM_eq_ok.mpr fun input hinput =>
      SocketDecl.exists_resolve (hinputs input hinput) .input
    obtain ⟨outputs, houts⟩ := exists_mapM_eq_ok.mpr fun output houtput =>
      SocketDecl.exists_resolve (houtputs output houtput) .output
    rw [mapM_eq_ok] at hins houts
    -- What has been resolved is representable, so all of it can be declared.
    have hdeclared : ∀ s ∈ inputs ++ outputs, ∀ name qualifier?,
        ∃ d, Declaration.ofType name s.type qualifier? = .ok d := by
      intro s hs name qualifier?
      rcases List.mem_append.mp hs with hs | hs
      · obtain ⟨input, hinput, hresolve⟩ := exists_of_mem_right hins hs
        exact (SocketDecl.exists_ofType hresolve).mpr (hinputs input hinput)
      · obtain ⟨output, houtput, hresolve⟩ := exists_of_mem_right houts hs
        exact (SocketDecl.exists_ofType hresolve).mpr (houtputs output houtput)
    have hctx : g.context n = .ok ⟨inputs, outputs⟩ := (context_eq_ok hg hn).mpr ⟨hins, houts⟩
    obtain ⟨parameters, hparameters⟩ := exists_mapM_eq_ok.mpr fun s hs =>
      hdeclared s hs s.varName s.direction.qualifier?
    obtain ⟨arguments, harguments⟩ := exists_arguments hg hn hctx
    obtain ⟨locals, hlocals⟩ := exists_mapM_eq_ok.mpr fun s (hs : s ∈ outputs) =>
      hdeclared s (List.mem_append_right _ hs) (Naming.localName n.name s.name) none
    exact ⟨⟨inputs, outputs⟩, hctx, _,
      nodeCode_eq_ok.mpr ⟨parameters, arguments, locals, hparameters, harguments, hlocals, rfl⟩⟩

/-- The built-in adapters generate code for the nodes that they accept, and for no others. -/
theorem exists_nodeCode (hg : g.Valid) (hn : n ∈ g.nodes) :
    (∃ code, (Registry.builtin.nodeCode g n).result = .ok code) ↔ g.AcceptsNode n := by
  have hfilter : ∀ {input}, input ∈ n.inputs.filter (g.IsConnected n) ↔
      input ∈ n.inputs ∧ g.IsConnected n input := by
    intro input
    rw [List.mem_filter, decide_eq_true_eq]
  refine ⟨?_, ?_⟩
  · rintro ⟨code, hcode⟩
    obtain ⟨op, hkind, hresult, first, others, hinputs, hlone, ctx, hctx, hcode⟩ :=
      (nodeCode_builtin_eq_ok hg hn).mp hcode
    obtain ⟨hin, hout⟩ := (exists_context_nodeCode hg hn _).mp ⟨ctx, hctx, code, hcode⟩
    refine {
      operator := ⟨op, hkind.symm, hresult⟩
      connected := ⟨first, hfilter.mp (by rw [hinputs]; exact List.mem_cons_self)⟩
      lone := ?_
      inputs := fun input hinput hconnected => hin input (hfilter.mpr ⟨hinput, hconnected⟩)
      outputs := hout }
    intro input hinput
    rw [hinputs, List.cons.injEq] at hinput
    obtain ⟨rfl, hothers⟩ := hinput
    exact hlone hothers
  · intro h
    obtain ⟨op, hkind, hresult⟩ := h.operator
    obtain ⟨input, hinput⟩ := h.connected
    obtain ⟨first, others, hinputs⟩ := List.exists_cons_of_ne_nil
      (List.ne_nil_of_mem (hfilter.mpr hinput))
    have hlone : others = [] → first.name = loneInput := by
      rintro rfl
      exact h.lone first hinputs
    obtain ⟨ctx, hctx, code, hcode⟩ :=
      (exists_context_nodeCode hg hn [op.operation first others]).mpr
      ⟨fun input hinput => (hfilter.mp hinput).elim (h.inputs input), h.outputs⟩
    exact ⟨code, (nodeCode_builtin_eq_ok hg hn).mpr
      ⟨op, hkind.symm, hresult, first, others, hinputs, hlone, ctx, hctx, hcode⟩⟩

/-! ### Graphs -/

/-- **Accepted graphs.** The built-in adapters compile exactly the graphs that are valid and
    acyclic, have representable types wherever values flow, have nodes that can be folded, and have
    connected outputs. The types of inputs that no connection feeds do not matter. -/
theorem exists_compile_iff (g : Graph) :
    ((∃ p, (Registry.builtin.compile g).result = .ok p) ↔
      g.validate = .ok () ∧ g.Acyclic ∧
      (∀ decl ∈ g.inputs ++ g.outputs, decl.IsRepresentable) ∧
      (∀ n ∈ g.nodes, g.AcceptsNode n) ∧
      ∀ decl ∈ g.outputs, ∃ c ∈ g.connections, c.target = ⟨outputNode, decl.name⟩) ∧
    ∀ types, Registry.builtin.compile (g.retype types) = Registry.builtin.compile g := by
  refine ⟨?_, Registry.builtin.compile_retype g⟩
  simp only [Registry.compile_eq_ok]
  refine ⟨?_, ?_⟩
  · rintro ⟨p, hvalid, order, horder, hinterface, hnodes, hbindings⟩
    have hg := validate_eq_ok.mp hvalid
    refine ⟨hvalid, acyclic_of_executionOrder hg horder, exists_interface.mp ⟨_, hinterface⟩, ?_,
      exists_bindings.mp ⟨_, hbindings⟩⟩
    intro n hn
    obtain ⟨code, -, hcode⟩ := exists_of_mem_left hnodes ((mem_nodesAt horder).mpr hn)
    exact (exists_nodeCode hg hn).mp ⟨code, hcode⟩
  · -- Validity leaves no way for the order to fail but a cycle, and then no way for a step after
    -- it.
    rintro ⟨hvalid, hacyclic, hinterface, hnodes, hbindings⟩
    have hg := validate_eq_ok.mp hvalid
    obtain ⟨order, horder⟩ := (exists_executionOrder hg).mpr hacyclic
    obtain ⟨parameters, hparameters⟩ := exists_interface.mpr hinterface
    obtain ⟨bindings, hbindings⟩ := exists_bindings.mpr hbindings
    have hcodes :
        ∀ n ∈ g.nodesAt order, ∃ code, (Registry.builtin.nodeCode g n).result = .ok code := by
      intro n hn
      rw [mem_nodesAt horder] at hn
      exact (exists_nodeCode hg hn).mpr (hnodes n hn)
    obtain ⟨codes, hcodes⟩ := exists_mapM_eq_ok.mpr hcodes
    exact ⟨{ parameters, nodes := codes, bindings }, hvalid, order, horder, hparameters,
      mapM_eq_ok.mp hcodes, hbindings⟩

end Graph

end ShaderGraph
