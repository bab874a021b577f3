import ShaderGraph.Proofs.Acceptance

namespace ShaderGraph

/-!
# Failures of compilations

Which failure a compilation reports when a graph has several faults. The steps of a compilation
come one after another, and each reports its first failure.

* `Unattributed` — the failures of a computation name no node. All steps are of this kind but for
  the code of nodes, where the node is attached to what the step reports.
* `SocketDecl.TypeError` — why no variable can be declared for a socket.
* `Graph.interface_eq_error`, `Graph.executionOrder_eq_error`, `Graph.bindings_eq_error` — the
  failures of the single steps.
* `Graph.FailsWith` — the failure of a graph, in the order of the steps; `Graph.FailsAtNode` — it
  arises in a node.
-/

/-! ### Failures without a node -/

/-- The failures of a computation name no node. -/
def Unattributed {α : Type} (x : Except Error α) : Prop := ∀ e, x = .error e → e.identity? = none

namespace Unattributed

variable {α β : Type}

/-- A success has no failure to attribute. -/
theorem ok (a : α) : Unattributed (.ok a) := by
  intro e h
  cases h

/-- A failure without an identity may be returned as it is. -/
theorem error {e : Error} (h : e.identity? = none) : Unattributed (.error e : Except Error α) := by
  intro e' he
  cases he
  exact h

/-- Steps that attribute nothing are a computation that attributes nothing. -/
theorem bind {x : Except Error α} {f : α → Except Error β} (hx : Unattributed x)
    (hf : ∀ a, Unattributed (f a)) : Unattributed (x >>= f) := by
  intro e h
  rcases bind_eq_error.mp h with h | ⟨a, -, h⟩
  · exact hx e h
  · exact hf a e h

/-- What is made of the result does not matter. -/
theorem map {x : Except Error α} {f : α → β} (hx : Unattributed x) : Unattributed (x.map f) := by
  cases x with
  | error e => exact error (hx e rfl)
  | ok a => exact ok (f a)

/-- A traversal attributes no failure if it attributes none for any element. -/
theorem mapM {f : α → Except Error β} {l : List α} (hf : ∀ a, Unattributed (f a)) :
    Unattributed (l.mapM f) := by
  intro e h
  obtain ⟨a, -, ha⟩ := (mapM_eq_error fun a => isOk_eq_true).mp h
  exact hf a e ha

end Unattributed

/-- That the host does not know a type is attributed to no node. -/
theorem SocketDecl.unattributed_resolve (decl : SocketDecl) (direction : Direction) :
    Unattributed (decl.resolve direction) := by
  refine Unattributed.map ?_
  unfold DataType.resolve
  split
  · exact .ok _
  · exact .error rfl

/-- That no shader can hold a type is attributed to no node. -/
theorem Declaration.unattributed_ofType (name : String) (type : DataType)
    (qualifier? : Option String) : Unattributed (Declaration.ofType name type qualifier?) := by
  refine Unattributed.map ?_
  unfold DataType.spell
  split
  · exact .ok _
  · exact .error rfl

namespace Graph

variable {r : Registry} {g : Graph} {n : Node}

/-- That a name is taken is no failure of the node that has it. -/
theorem unattributed_checkNamesAfter (seen : List String) (nodes : List Node) :
    Unattributed (checkNamesAfter seen nodes) := by
  induction nodes generalizing seen with
  | nil => exact .ok ()
  | cons n nodes ih =>
    unfold checkNamesAfter
    split
    · exact .error rfl
    · exact ih _

/-- A collision of identifiers is no failure of a node either. -/
theorem unattributed_checkIdentifiers (g : Graph) : Unattributed g.checkIdentifiers := by
  unfold checkIdentifiers
  split
  · exact .error rfl
  · exact .ok ()

/-- That an endpoint is missing is attributed to no node. -/
theorem unattributed_checkEndpoint (e : Endpoint) (sockets? : Option (List SocketDecl)) :
    Unattributed (checkEndpoint e sockets?) := by
  unfold checkEndpoint
  split
  · exact .error rfl
  · split
    · exact .ok ()
    · exact .error rfl

/-- What is wrong with connections is attributed to no node. -/
theorem unattributed_checkConnectionsAfter (g : Graph) (seen : List Endpoint)
    (connections : List Connection) : Unattributed (g.checkConnectionsAfter seen connections) := by
  induction connections generalizing seen with
  | nil => exact .ok ()
  | cons c connections ih =>
    have hends : Unattributed (g.checkConnection c) :=
      (unattributed_checkEndpoint _ _).bind fun _ => unattributed_checkEndpoint _ _
    refine hends.bind fun _ => ?_
    split
    · exact .error rfl
    · exact ih _

/-- No check of a graph attributes its failure to a node. -/
theorem unattributed_validate (g : Graph) : Unattributed g.validate :=
  (unattributed_checkNamesAfter [] g.nodes).bind fun _ =>
    g.unattributed_checkIdentifiers.bind fun _ =>
      g.unattributed_checkConnectionsAfter [] g.connections

/-- The context of a node can fail, but it does not tell for which node it is. -/
theorem unattributed_context (g : Graph) (n : Node) : Unattributed (g.context n) :=
  (Unattributed.mapM fun decl => decl.unattributed_resolve .input).bind fun _ =>
    (Unattributed.mapM fun decl => decl.unattributed_resolve .output).bind fun _ => .ok _

/-- That nothing is connected to an input is attributed to no node yet. -/
theorem unattributed_inputArgument (g : Graph) (n : Node) (input : Socket) :
    Unattributed (g.inputArgument n input) := by
  unfold inputArgument
  split
  · exact .ok _
  · exact .error rfl

/-- Neither do the declarations and arguments of a node tell its name. -/
theorem unattributed_nodeCode (g : Graph) (n : Node) (ctx : Context) (operations : List Operation) :
    Unattributed (g.nodeCode n ctx operations) :=
  (Unattributed.mapM fun _ => Declaration.unattributed_ofType _ _ _).bind fun _ =>
    (Unattributed.mapM (g.unattributed_inputArgument n)).bind fun _ =>
      (Unattributed.mapM fun _ => Declaration.unattributed_ofType _ _ _).bind fun _ => .ok _

end Graph

namespace Registry

variable {r : Registry}

/-- That there is no adapter for a kind is attributed to no node. -/
theorem unattributed_lookup (r : Registry) (kind : String) : Unattributed (r.lookup kind) := by
  unfold lookup
  split
  · exact .ok _
  · exact .error rfl

/-- Look-ups find adapters of the registry. -/
theorem mem_of_lookup_eq_ok {kind : String} {a : Adapter} (h : r.lookup kind = .ok a) :
    a ∈ r.adapters := by
  unfold lookup at h
  split at h
  · next hfind => exact Except.ok.inj h ▸ List.mem_of_find?_eq_some hfind
  · cases h

/-- The failures of an adapter are the only ones in the code of a node that could name one. -/
theorem unattributed_nodeCode (hr : ∀ a ∈ r.adapters, ∀ ctx, Unattributed (a.generate ctx))
    (g : Graph) (n : Node) : Unattributed (r.nodeCode g n).result := by
  rw [nodeCode_result]
  refine (g.unattributed_context n).bind fun ctx => ?_
  intro e h
  rcases bind_eq_error.mp h with h | ⟨a, ha, h⟩
  · exact r.unattributed_lookup n.kind e h
  · refine (Unattributed.bind (hr a (mem_of_lookup_eq_ok ha) ctx) fun operations => ?_) e h
    exact g.unattributed_nodeCode n ctx operations

end Registry

/-- That a socket is missing from a context is attributed to no node. -/
theorem Context.unattributed_find (name : String) (sockets : List Socket) :
    Unattributed (Context.find name sockets) := by
  unfold Context.find
  split
  · exact .ok _
  · exact .error rfl

/-- Folding knows the sockets of a node but not the node, so that its failures name none. -/
theorem unattributed_foldInputs (ctx : Context) (op : Operator) (output : String) :
    Unattributed (foldInputs ctx op output) := by
  unfold foldInputs
  split
  · exact .error rfl
  · refine (Context.unattributed_find _ _).bind fun target => Unattributed.bind ?_ fun value =>
      .ok _
    unfold foldedValue
    split
    · exact (Context.unattributed_find _ _).map
    · exact .ok _

/-- The built-in adapters leave it to the compilation to name nodes. -/
theorem Registry.unattributed_builtin :
    ∀ a ∈ builtin.adapters, ∀ ctx, Unattributed (a.generate ctx) := by
  have hoperator : ∀ a ∈ builtin.adapters, ∃ op : Operator, op.adapter = a := by
    intro a ha
    rw [adapters_builtin] at ha
    simp only [List.mem_cons, List.not_mem_nil, or_false] at ha
    rcases ha with rfl | rfl | rfl | rfl
    exacts [⟨.add, rfl⟩, ⟨.divide, rfl⟩, ⟨.multiply, rfl⟩, ⟨.subtract, rfl⟩]
  intro a ha ctx
  obtain ⟨op, rfl⟩ := hoperator a ha
  rw [op.generate_adapter]
  exact unattributed_foldInputs ctx op op.resultSocket

/-! ### Types -/

namespace DataType

/-- The host has no other names of types than those of the list. -/
theorem ofHostName?_eq_none {name : String} : ofHostName? name = none ↔ name ∉ hostTypeNames := by
  unfold ofHostName?
  split <;> simp_all [hostTypeNames]

/-- Only the name of the type of texts is read as this type. -/
theorem ofHostName?_eq_string {name : String} :
    ofHostName? name = some string ↔ name = "string" := by
  unfold ofHostName?
  split <;> simp_all

/-- There is one type that no shader can hold: that of texts. -/
theorem targetName?_eq_none {type : DataType} : type.targetName? = none ↔ type = string := by
  cases type <;> decide

end DataType

namespace SocketDecl

/-- Whether a socket is representable can be decided. -/
instance (decl : SocketDecl) : Decidable decl.IsRepresentable :=
  inferInstanceAs (Decidable (_ ∧ _))

/-- Why no variable can be declared for a socket: the host does not know its type, or the type has
    no spelling in the shading language. -/
inductive TypeError (decl : SocketDecl) : Error → Prop where
  | unknown (h : decl.typeName ∉ hostTypeNames) : decl.TypeError (.unknownType decl.typeName)
  | unsupported (h : decl.typeName = "string") : decl.TypeError (.unsupportedType .string)

/-- A socket cannot be resolved if and only if the host does not know its type. -/
theorem resolve_eq_error {decl : SocketDecl} {direction : Direction} {e : Error} :
    decl.resolve direction = .error e ↔
      decl.typeName ∉ hostTypeNames ∧ e = .unknownType decl.typeName := by
  rw [← DataType.ofHostName?_eq_none, SocketDecl.resolve, Socket.resolve, DataType.resolve]
  cases DataType.ofHostName? decl.typeName <;> simp [Except.map, eq_comm]

end SocketDecl

/-- A variable cannot be declared if and only if its type is that of texts. -/
theorem Declaration.ofType_eq_error {name : String} {type : DataType} {qualifier? : Option String}
    {e : Error} :
    Declaration.ofType name type qualifier? = .error e ↔
      type = .string ∧ e = .unsupportedType .string := by
  rw [← DataType.targetName?_eq_none, Declaration.ofType, DataType.spell]
  cases type <;> simp [DataType.targetName?, Except.map, eq_comm]

namespace Graph

variable {r : Registry} {g : Graph} {n : Node}

/-- The parameter for a socket fails with what is wrong with the type of the socket. -/
theorem parameter_eq_error {direction : Direction} {decl : SocketDecl} {e : Error} :
    parameter direction decl = .error e ↔ decl.TypeError e := by
  have hbind : parameter direction decl = decl.resolve direction >>= Declaration.ofSocket := rfl
  rw [hbind, bind_eq_error, SocketDecl.resolve_eq_error]
  constructor
  · rintro (⟨hname, rfl⟩ | ⟨s, hs, he⟩)
    · exact .unknown hname
    · obtain ⟨type, htype, rfl⟩ := SocketDecl.resolve_eq_ok.mp hs
      obtain ⟨rfl, rfl⟩ := Declaration.ofType_eq_error.mp he
      exact .unsupported (DataType.ofHostName?_eq_string.mp htype)
  · intro h
    cases h with
    | unknown hname => exact .inl ⟨hname, rfl⟩
    | unsupported hname =>
      refine .inr ⟨⟨decl.name, .string, direction⟩, ?_, Declaration.ofType_eq_error.mpr ⟨rfl, rfl⟩⟩
      exact SocketDecl.resolve_eq_ok.mpr ⟨.string, DataType.ofHostName?_eq_string.mpr hname, rfl⟩

/-- The parameters of the entry function fail with the first declaration for which there is no type,
    graph inputs coming before graph outputs. -/
theorem interface_eq_error {e : Error} :
    g.interface = .error e ↔
      ∃ decl, (g.inputs ++ g.outputs).find? (¬ ·.IsRepresentable) = some decl ∧
        decl.TypeError e := by
  have hfails : ∀ (direction : Direction) (decls : List SocketDecl),
      decls.mapM (parameter direction) = .error e ↔
        ∃ decl, decls.find? (¬ ·.IsRepresentable) = some decl ∧ decl.TypeError e := by
    intro direction decls
    rw [mapM_eq_error fun decl => (@exists_parameter direction decl).symm]
    simp only [parameter_eq_error]
  have hsucceeds : (∃ inputs, g.inputs.mapM (parameter .input) = .ok inputs) ↔
      g.inputs.find? (¬ ·.IsRepresentable) = none := by
    simp only [exists_mapM_eq_ok, exists_parameter, List.find?_eq_none, decide_eq_true_eq, not_not]
  have hreturn : ∀ inputs, (g.outputs.mapM (parameter .output) >>= fun outputs =>
      pure (inputs ++ outputs)) = .error e ↔ g.outputs.mapM (parameter .output) = .error e := by
    intro inputs
    simp [bind_eq_error, pure, Except.pure]
  simp only [interface, bind_eq_error, hreturn, exists_and_right, hsucceeds, hfails,
    List.find?_append, Option.or_eq_some_iff, or_and_right, exists_or, and_assoc, exists_and_left]

/-- A graph output to which nothing is connected is reported by its name. -/
theorem binding_eq_error {decl : SocketDecl}
    (h : ¬ ∃ c ∈ g.connections, c.target = ⟨outputNode, decl.name⟩) {e : Error} :
    g.binding decl = .error e ↔ e = .unboundOutput decl.name := by
  rw [← isSome_incoming?, Option.not_isSome_iff_eq_none] at h
  rw [binding, h]
  simp [eq_comm]

/-- The assignments to graph outputs fail with the first graph output that is not connected. -/
theorem bindings_eq_error {e : Error} :
    g.bindings = .error e ↔
      ∃ decl,
        g.outputs.find? (fun decl => ¬ ∃ c ∈ g.connections, c.target = ⟨outputNode, decl.name⟩)
          = some decl ∧ e = .unboundOutput decl.name := by
  rw [bindings, mapM_eq_error fun decl => exists_binding.symm]
  refine exists_congr fun decl => and_congr_right fun hfind => binding_eq_error ?_
  have hunbound := List.find?_some hfind
  exact of_decide_eq_true hunbound

/-- On a valid graph, nothing but a cycle is in the way of an execution order. -/
theorem executionOrder_eq_error (hg : g.Valid) {e : Error} :
    g.executionOrder = .error e ↔ ¬ g.Acyclic ∧ e = .cycle := by
  have hknown : g.firstUnknown? = none := exists_dependencies_iff.mp (exists_dependencies hg)
  have hloop : g.LoopFree ↔ g.Acyclic := by
    rw [← exists_executionOrder hg, exists_executionOrder_iff, and_iff_right hknown]
  simp [executionOrder_eq_error_iff, hknown, hloop]

/-! ### Nodes -/

/-- Putting the nodes of an order into code fails with the first node whose code fails, which is
    attached to that failure. -/
theorem mapM_compileNode_eq_error {nodes : List Node} {e : Error} :
    (nodes.mapM fun n => (r.compileNode g n).result) = .error e ↔
      ∃ n, nodes.find? (fun n => ¬ (r.nodeCode g n).result.isOk = true) = some n ∧
        ∃ cause, (r.nodeCode g n).result = .error cause ∧ e = cause.inNode n.name n.kind := by
  have hok : ∀ n, (r.nodeCode g n).result.isOk = true ↔
      ∃ code, (r.compileNode g n).result = .ok code := by
    intro n
    simp only [isOk_eq_true, Registry.compileNode, Traced.inNode_result_eq_ok]
  rw [mapM_eq_error hok]
  simp only [Registry.compileNode, Traced.inNode_result_eq_error]

/-! ### Graphs -/

/-- The failure that a graph has first. Each stage presupposes that those before it succeed. -/
inductive FailsWith (g : Graph) (r : Registry) : Error → Prop where
  /-- The graph is not valid. -/
  | invalid {e : Error} (h : g.validate = .error e) : g.FailsWith r e
  /-- Nodes feed each other in a circle. -/
  | cyclic (hvalid : g.validate = .ok ()) (h : ¬ g.Acyclic) : g.FailsWith r .cycle
  /-- There is no type for this graph input or output, but for all those before it. -/
  | interface {decl : SocketDecl} {e : Error} (hvalid : g.validate = .ok ()) (hacyclic : g.Acyclic)
      (h : (g.inputs ++ g.outputs).find? (¬ ·.IsRepresentable) = some decl)
      (he : decl.TypeError e) : g.FailsWith r e
  /-- The code of this node fails, and that of the nodes before it does not. -/
  | node {order : List Nat} {n : Node} {cause : Error} (hvalid : g.validate = .ok ())
      (horder : g.executionOrder = .ok order)
      (hinterface : ∀ decl ∈ g.inputs ++ g.outputs, decl.IsRepresentable)
      (h : (g.nodesAt order).find? (fun n => ¬ (r.nodeCode g n).result.isOk = true) = some n)
      (hcause : (r.nodeCode g n).result = .error cause) (hbare : cause.identity? = none) :
      g.FailsWith r (.node n.name n.kind cause)
  /-- Nothing is connected to this graph output, but something to all those before it. -/
  | output {decl : SocketDecl} (hvalid : g.validate = .ok ()) (hacyclic : g.Acyclic)
      (hinterface : ∀ decl ∈ g.inputs ++ g.outputs, decl.IsRepresentable)
      (hnodes : ∀ n ∈ g.nodes, ∃ code, (r.nodeCode g n).result = .ok code)
      (h : g.outputs.find? (fun decl => ¬ ∃ c ∈ g.connections, c.target = ⟨outputNode, decl.name⟩)
        = some decl) : g.FailsWith r (.unboundOutput decl.name)

/-- The compilation gets as far as the nodes, and the code of one of them fails. -/
structure FailsAtNode (g : Graph) (r : Registry) : Prop where
  valid : g.validate = .ok ()
  acyclic : g.Acyclic
  interface : ∀ decl ∈ g.inputs ++ g.outputs, decl.IsRepresentable
  node : ∃ n ∈ g.nodes, ∃ cause, (r.nodeCode g n).result = .error cause

/-- A failure without an identity gets that of the node. -/
theorem inNode_of_identity?_eq_none {e : Error} (h : e.identity? = none) (name kind : String) :
    e.inNode name kind = .node name kind e := by
  cases e with
  | node => cases h
  | _ => rfl

/-- A compilation that fails reports the failure that the graph has first. -/
theorem failsWith_of_compile (hr : ∀ a ∈ r.adapters, ∀ ctx, Unattributed (a.generate ctx))
    {e : Error} (h : (r.compile g).result = .error e) : g.FailsWith r e := by
  rw [Registry.compile_result] at h
  rcases bind_eq_error.mp h with h | ⟨⟨⟩, hvalid, h⟩
  · exact .invalid h
  have hg := validate_eq_ok.mp hvalid
  rcases bind_eq_error.mp h with h | ⟨order, horder, h⟩
  · obtain ⟨hcyclic, rfl⟩ := (executionOrder_eq_error hg).mp h
    exact .cyclic hvalid hcyclic
  have hacyclic := acyclic_of_executionOrder hg horder
  rcases bind_eq_error.mp h with h | ⟨parameters, hparameters, h⟩
  · obtain ⟨decl, hdecl, he⟩ := interface_eq_error.mp h
    exact .interface hvalid hacyclic hdecl he
  have hinterface := exists_interface.mp ⟨parameters, hparameters⟩
  rcases bind_eq_error.mp h with h | ⟨codes, hcodes, h⟩
  · obtain ⟨n, hn, cause, hcause, rfl⟩ := mapM_compileNode_eq_error.mp h
    have hbare := Registry.unattributed_nodeCode hr g n cause hcause
    rw [inNode_of_identity?_eq_none hbare]
    exact .node hvalid horder hinterface hn hcause hbare
  have hnodes : ∀ n ∈ g.nodes, ∃ code, (r.nodeCode g n).result = .ok code := by
    intro n hn
    obtain ⟨code, hcode⟩ := exists_mapM_eq_ok.mp ⟨codes, hcodes⟩ n ((mem_nodesAt horder).mpr hn)
    exact ⟨code, Traced.inNode_result_eq_ok.mp hcode⟩
  rcases bind_eq_error.mp h with h | ⟨bindings, -, h⟩
  · obtain ⟨decl, hdecl, rfl⟩ := bindings_eq_error.mp h
    exact .output hvalid hacyclic hinterface hnodes hdecl
  · cases h

/-- A compilation reports the failure that the graph has first, if it has one. -/
theorem compile_of_failsWith {e : Error} (h : g.FailsWith r e) :
    (r.compile g).result = .error e := by
  rw [Registry.compile_result]
  cases h with
  | invalid h =>
    rw [h]
    rfl
  | cyclic hvalid h =>
    have horder := (executionOrder_eq_error (validate_eq_ok.mp hvalid)).mpr ⟨h, rfl⟩
    rw [hvalid, ok_bind, horder]
    rfl
  | @interface decl _ hvalid hacyclic h he =>
    obtain ⟨order, horder⟩ := (exists_executionOrder (validate_eq_ok.mp hvalid)).mpr hacyclic
    rw [hvalid, ok_bind, horder, ok_bind, interface_eq_error.mpr ⟨decl, h, he⟩]
    rfl
  | @node order n cause hvalid horder hinterface h hcause hbare =>
    obtain ⟨parameters, hparameters⟩ := exists_interface.mpr hinterface
    have hnodes := mapM_compileNode_eq_error.mpr ⟨n, h, cause, hcause, rfl⟩
    rw [hvalid, ok_bind, horder, ok_bind, hparameters, ok_bind, hnodes,
      inNode_of_identity?_eq_none hbare]
    rfl
  | @output decl hvalid hacyclic hinterface hnodes h =>
    obtain ⟨order, horder⟩ := (exists_executionOrder (validate_eq_ok.mp hvalid)).mpr hacyclic
    obtain ⟨parameters, hparameters⟩ := exists_interface.mpr hinterface
    have hcode : ∀ n ∈ g.nodesAt order, ∃ code, (r.compileNode g n).result = .ok code := by
      intro n hn
      obtain ⟨code, hcode⟩ := hnodes n ((mem_nodesAt horder).mp hn)
      exact ⟨code, Traced.inNode_result_eq_ok.mpr hcode⟩
    obtain ⟨codes, hcodes⟩ := exists_mapM_eq_ok.mpr hcode
    rw [hvalid, ok_bind, horder, ok_bind, hparameters, ok_bind, hcodes, ok_bind,
      bindings_eq_error.mpr ⟨decl, h, rfl⟩]
    rfl

/-- The failure of a graph names a node if and only if it arises in one. -/
theorem FailsWith.isSome_identity? {e : Error} (h : g.FailsWith r e) :
    e.identity?.isSome ↔ g.FailsAtNode r := by
  cases h with
  | invalid h =>
    rw [g.unattributed_validate e h]
    refine iff_of_false (by simp) fun hnode => ?_
    rw [hnode.valid] at h
    cases h
  | cyclic hvalid h => exact iff_of_false (by simp [Error.identity?]) fun hnode => h hnode.acyclic
  | @interface decl _ hvalid hacyclic h he =>
    refine iff_of_false (by cases he <;> simp [Error.identity?]) fun hnode => ?_
    have hbad := List.find?_some h
    exact of_decide_eq_true hbad (hnode.interface decl (List.mem_of_find?_eq_some h))
  | @node order n cause hvalid horder hinterface h hcause hbare =>
    refine iff_of_true (by simp [Error.identity?]) ?_
    exact {
      valid := hvalid
      acyclic := acyclic_of_executionOrder (validate_eq_ok.mp hvalid) horder
      interface := hinterface
      node := ⟨n, (mem_nodesAt horder).mp (List.mem_of_find?_eq_some h), cause, hcause⟩ }
  | output hvalid hacyclic hinterface hnodes h =>
    refine iff_of_false (by simp [Error.identity?]) fun hnode => ?_
    obtain ⟨n, hn, cause, hcause⟩ := hnode.node
    obtain ⟨code, hcode⟩ := hnodes n hn
    rw [hcause] at hcode
    cases hcode

/-- **Failures of compilations.** If no adapter attributes its failures to nodes, a compilation
    fails with the failure that the graph has first: of its checks, of the execution order, of its
    interface, of a node or of an output. The failure names a node if and only if it arises in one,
    and the execution order of a valid graph misses no nodes. -/
theorem compile_eq_error_iff_failsWith
    (hr : ∀ a ∈ r.adapters, ∀ ctx, Unattributed (a.generate ctx)) (g : Graph) :
    (∀ e, (r.compile g).result = .error e ↔ g.FailsWith r e) ∧
    (∀ e, (r.compile g).result = .error e → (e.identity?.isSome ↔ g.FailsAtNode r)) ∧
    (g.validate = .ok () → ∀ name, g.executionOrder ≠ .error (.unknownNode name)) := by
  refine ⟨fun e => ⟨failsWith_of_compile hr, compile_of_failsWith⟩, ?_, ?_⟩
  · intro e h
    exact (failsWith_of_compile hr h).isSome_identity?
  · intro hvalid name h
    exact absurd ((executionOrder_eq_error (validate_eq_ok.mp hvalid)).mp h).2 (by simp)

/-- Two nodes fail and two outputs are not connected. The node that is declared last fails first: it
    comes first in the execution order, and its lone input has the wrong name. -/
def faultyGraph : Graph where
  inputs := [⟨"x", "float"⟩]
  outputs := [⟨"result", "float"⟩, ⟨"spare", "float"⟩]
  nodes := [
    { name := "late"
      kind := "noise"
      inputs := [⟨"input1", "float"⟩]
      outputs := [⟨"sum", "float"⟩] },
    { name := "early"
      kind := "add"
      inputs := [⟨"amount", "float"⟩]
      outputs := [⟨"sum", "float"⟩] }]
  connections := [
    ⟨⟨"subinput", "x"⟩, ⟨"early", "amount"⟩⟩,
    ⟨⟨"early", "sum"⟩, ⟨"late", "input1"⟩⟩]

/-- Of the faults of `faultyGraph`, the failure of `early` is the one that is reported. -/
theorem compile_eq_error_iff_failsWith_faultyGraph :
    (∀ a ∈ Registry.builtin.adapters, ∀ ctx, Unattributed (a.generate ctx)) ∧
      faultyGraph.FailsWith Registry.builtin (.node "early" "add" (.missingSocket "input1")) ∧
      faultyGraph.FailsAtNode Registry.builtin ∧
      ∀ name, faultyGraph.executionOrder ≠ .error (.unknownNode name) := by
  obtain ⟨hfails, hidentity, horder⟩ :=
    compile_eq_error_iff_failsWith Registry.unattributed_builtin faultyGraph
  have hcompile : (Registry.builtin.compile faultyGraph).result =
      .error (.node "early" "add" (.missingSocket "input1")) := by decide +kernel
  exact ⟨Registry.unattributed_builtin, (hfails _).mp hcompile, (hidentity _ hcompile).mp rfl,
    horder (by decide +kernel)⟩

end Graph

end ShaderGraph
