import ShaderGraph.Proofs.Results

namespace ShaderGraph

/-!
# Validity of graphs

What the checks of a graph establish, without reference to the order in which they are made.

* `Graph.IsSource`, `Graph.IsTarget` — the sockets that connections may read and write.
* `Graph.entryVariables` — the variables of the entry function, one for each graph input, graph
  output and node output.
* `Graph.Valid` — names, identifiers and connections are as they should be;
  `Graph.validate_eq_ok` says that the checks accept exactly the valid graphs, and
  `Graph.valid_of_compile` that no others are compiled.
-/

/-! ### Valid graphs -/

namespace Graph

/-- A socket that connections may read: a graph input or an output of a node. -/
inductive IsSource (g : Graph) : Endpoint → Prop where
  | input {decl : SocketDecl} (h : decl ∈ g.inputs) : g.IsSource ⟨inputNode, decl.name⟩
  | output {n : Node} {decl : SocketDecl} (hn : n ∈ g.nodes) (h : decl ∈ n.outputs) :
    g.IsSource ⟨n.name, decl.name⟩

/-- A socket that connections may write: a graph output or an input of a node. -/
inductive IsTarget (g : Graph) : Endpoint → Prop where
  | output {decl : SocketDecl} (h : decl ∈ g.outputs) : g.IsTarget ⟨outputNode, decl.name⟩
  | input {n : Node} {decl : SocketDecl} (hn : n ∈ g.nodes) (h : decl ∈ n.inputs) :
    g.IsTarget ⟨n.name, decl.name⟩

/-- A socket that connections may read, by the names of the endpoint. -/
theorem isSource_iff {g : Graph} {e : Endpoint} :
    g.IsSource e ↔ (e.node = inputNode ∧ ∃ decl ∈ g.inputs, decl.name = e.socket) ∨
      ∃ n ∈ g.nodes, n.name = e.node ∧ ∃ decl ∈ n.outputs, decl.name = e.socket := by
  obtain ⟨node, socket⟩ := e
  constructor
  · intro h
    cases h with
    | @input decl h => exact .inl ⟨rfl, decl, h, rfl⟩
    | @output n decl hn h => exact .inr ⟨n, hn, rfl, decl, h, rfl⟩
  · rintro (⟨rfl, decl, h, rfl⟩ | ⟨n, hn, rfl, decl, h, rfl⟩)
    · exact .input h
    · exact .output hn h

/-- A socket that connections may write, by the names of the endpoint. -/
theorem isTarget_iff {g : Graph} {e : Endpoint} :
    g.IsTarget e ↔ (e.node = outputNode ∧ ∃ decl ∈ g.outputs, decl.name = e.socket) ∨
      ∃ n ∈ g.nodes, n.name = e.node ∧ ∃ decl ∈ n.inputs, decl.name = e.socket := by
  obtain ⟨node, socket⟩ := e
  constructor
  · intro h
    cases h with
    | @output decl h => exact .inl ⟨rfl, decl, h, rfl⟩
    | @input n decl hn h => exact .inr ⟨n, hn, rfl, decl, h, rfl⟩
  · rintro (⟨rfl, decl, h, rfl⟩ | ⟨n, hn, rfl, decl, h, rfl⟩)
    · exact .output h
    · exact .input hn h

/-- Two names are reserved: those of the pseudo nodes. -/
theorem isReserved_eq_false {name : String} :
    isReserved name = false ↔ name ≠ inputNode ∧ name ≠ outputNode := by
  simp [isReserved]

/-- The variables that stand for the graph's own inputs and outputs. -/
def interfaceVariables (g : Graph) : List String :=
  (g.inputs ++ g.outputs).map fun decl => Naming.variableName decl.name

end Graph

namespace Node

/-- The parameters of a node's function, if all of its inputs were connected. -/
def parameterVariables (n : Node) : List String :=
  (n.inputs ++ n.outputs).map fun decl => Naming.variableName decl.name

/-- The local variables that receive the outputs of a node. -/
def localVariables (n : Node) : List String :=
  n.outputs.map fun decl => Naming.localName n.name decl.name

end Node

namespace Graph

/-- The variables of the entry function. -/
def entryVariables (g : Graph) : List String :=
  g.interfaceVariables ++ g.nodes.flatMap (·.localVariables)

/-- Names and identifiers can be told apart, and connections join sockets that exist, at most one
    to an input. -/
structure Valid (g : Graph) : Prop where
  names : (g.nodes.map (·.name)).Nodup
  unreserved : ∀ n ∈ g.nodes, isReserved n.name = false
  functions : (g.nodes.map (·.functionName)).Nodup
  entry : g.entryVariables.Nodup
  parameters : ∀ n ∈ g.nodes, n.parameterVariables.Nodup
  sources : ∀ c ∈ g.connections, g.IsSource c.source
  targets : ∀ c ∈ g.connections, g.IsTarget c.target
  fanIn : (g.connections.map (·.target)).Nodup

namespace Valid

variable {g : Graph}

/-- No node has the name of the pseudo node for graph inputs. -/
theorem name_ne_inputNode (hg : g.Valid) {n : Node} (hn : n ∈ g.nodes) : n.name ≠ inputNode :=
  (isReserved_eq_false.mp (hg.unreserved n hn)).1

/-- No node has the name of the pseudo node for graph outputs. -/
theorem name_ne_outputNode (hg : g.Valid) {n : Node} (hn : n ∈ g.nodes) : n.name ≠ outputNode :=
  (isReserved_eq_false.mp (hg.unreserved n hn)).2

/-- A connection that reads no graph input reads an output of a node. -/
theorem exists_source (hg : g.Valid) {c : Connection} (hc : c ∈ g.connections)
    (hne : c.source.node ≠ inputNode) :
    ∃ n ∈ g.nodes, ∃ decl ∈ n.outputs, c.source = ⟨n.name, decl.name⟩ := by
  have hsource := hg.sources c hc
  obtain ⟨source, target⟩ := c
  cases hsource with
  | input h => exact absurd rfl hne
  | output hn hdecl => exact ⟨_, hn, _, hdecl, rfl⟩

/-- A connection that writes no graph output writes an input of a node. -/
theorem exists_target (hg : g.Valid) {c : Connection} (hc : c ∈ g.connections)
    (hne : c.target.node ≠ outputNode) :
    ∃ n ∈ g.nodes, ∃ decl ∈ n.inputs, c.target = ⟨n.name, decl.name⟩ := by
  have htarget := hg.targets c hc
  obtain ⟨source, target⟩ := c
  cases htarget with
  | output h => exact absurd rfl hne
  | input hn hdecl => exact ⟨_, hn, _, hdecl, rfl⟩

end Valid

/-! ### Names -/

/-- Names pass that are new, distinct and not reserved. -/
theorem checkNamesAfter_eq_ok {seen : List String} {nodes : List Node} :
    checkNamesAfter seen nodes = .ok () ↔
      (nodes.map (·.name)).Nodup ∧ ∀ n ∈ nodes, isReserved n.name = false ∧ n.name ∉ seen := by
  induction nodes generalizing seen with
  | nil => simp [checkNamesAfter]
  | cons n nodes ih =>
    simp only [checkNamesAfter, Bool.or_eq_true, List.contains_iff_mem]
    split
    · next hbad =>
      -- The name of `n` is reserved or taken, so the check fails, and rightly.
      refine ⟨fun h => absurd h (by simp), ?_⟩
      rintro ⟨-, hall⟩
      obtain ⟨hfree, hnew⟩ := hall n List.mem_cons_self
      rw [hfree] at hbad
      exact absurd (hbad.resolve_left (by decide)) hnew
    · next hgood =>
      rw [not_or, Bool.not_eq_true] at hgood
      rw [ih, List.map_cons, List.nodup_cons, List.mem_map, List.forall_mem_cons]
      simp only [List.mem_cons, not_or]
      refine ⟨?_, ?_⟩
      · rintro ⟨hnames, hall⟩
        refine ⟨⟨?_, hnames⟩, hgood, fun m hm => ⟨(hall m hm).1, (hall m hm).2.2⟩⟩
        rintro ⟨m, hm, hname⟩
        exact (hall m hm).2.1 hname
      · rintro ⟨⟨hnew, hnames⟩, -, hall⟩
        exact ⟨hnames, fun m hm => ⟨(hall m hm).1, fun h => hnew ⟨m, hm, h⟩, (hall m hm).2⟩⟩

/-- The check of names accepts distinct ones that are not reserved. -/
theorem checkNames_eq_ok {g : Graph} :
    g.checkNames = .ok () ↔
      (g.nodes.map (·.name)).Nodup ∧ ∀ n ∈ g.nodes, isReserved n.name = false := by
  simp [checkNames, checkNamesAfter_eq_ok]

/-! ### Identifiers -/

end Graph

namespace Claim

/-- No claim clashes with an earlier one if and only if no two claims do. -/
theorem firstClash?_eq_none {seen claims : List Claim} :
    firstClash? seen claims = none ↔
      claims.Pairwise (fun c d => ¬ c.clashes d) ∧ ∀ c ∈ seen, ∀ d ∈ claims, ¬ c.clashes d := by
  induction claims generalizing seen with
  | nil => simp [firstClash?]
  | cons c claims ih =>
    simp only [firstClash?]
    split
    · next earlier h =>
      refine ⟨fun h => absurd h (by simp), ?_⟩
      rintro ⟨-, hall⟩
      exact absurd (List.find?_some h)
        (hall earlier (List.mem_of_find?_eq_some h) c List.mem_cons_self)
    · next h =>
      rw [List.find?_eq_none] at h
      simp only [ih, List.pairwise_cons, List.forall_mem_cons]
      refine ⟨?_, ?_⟩
      · rintro ⟨hclaims, hc, hseen⟩
        exact ⟨⟨hc, hclaims⟩, fun d hd => ⟨h d hd, hseen d hd⟩⟩
      · rintro ⟨⟨hc, hclaims⟩, hseen⟩
        exact ⟨hclaims, hc, fun d hd => (hseen d hd).2⟩

/-- The identifiers that claims ask for in a scope. -/
def inScope (scope : Scope) (claims : List Claim) : List String :=
  (claims.filter (·.scope = scope)).map (·.identifier)

/-- The identifiers of claims in sequence. -/
@[simp] theorem inScope_append (scope : Scope) (claims others : List Claim) :
    inScope scope (claims ++ others) = inScope scope claims ++ inScope scope others := by
  simp [inScope]

/-- The identifiers of claims that are collected along a list. -/
theorem inScope_flatMap {α : Type} (scope : Scope) (l : List α) (f : α → List Claim) :
    inScope scope (l.flatMap f) = l.flatMap fun a => inScope scope (f a) := by
  induction l with
  | nil => rfl
  | cons a l ih => rw [List.flatMap_cons, inScope_append, ih, List.flatMap_cons]

/-- Claims do not clash if and only if the identifiers of each scope are distinct. -/
theorem pairwise_not_clashes {claims : List Claim} :
    claims.Pairwise (fun c d => ¬ c.clashes d) ↔ ∀ scope, (inScope scope claims).Nodup := by
  simp only [inScope, List.Nodup, List.pairwise_map, List.pairwise_filter]
  induction claims with
  | nil => simp
  | cons c claims ih =>
    simp only [List.pairwise_cons, ih, forall_and]
    refine and_congr_left fun _ => ?_
    simp only [clashes, Bool.and_eq_true, beq_iff_eq, decide_eq_true_eq]
    refine ⟨?_, ?_⟩
    · rintro h scope d hd rfl hscope heq
      exact h d hd ⟨hscope.symm, heq⟩
    · rintro h d hd ⟨hscope, heq⟩
      exact h c.scope d hd rfl hscope.symm heq

end Claim

section ZipIdx

variable {α β : Type}

/-- A list that is gone through with positions which nothing looks at. -/
theorem flatMap_zipIdx_fst (l : List α) (f : α → List β) :
    (l.zipIdx.flatMap fun a => f a.1) = l.flatMap f := by
  rw [← List.flatMap_map Prod.fst f, List.zipIdx_map_fst]

/-- A list that is gone through for the element at one position. -/
theorem flatMap_zipIdx_at (l : List α) (f : α → List β) (i : Nat) :
    (l.zipIdx.flatMap fun a => if a.2 = i then f a.1 else []) = (l[i]?.map f).getD [] := by
  induction l generalizing i with
  | nil => rfl
  | cons a l ih =>
    rw [List.zipIdx_cons, List.zipIdx_succ, List.flatMap_cons, List.flatMap_map]
    cases i with
    | zero => simp
    | succ i => simpa using ih i

end ZipIdx

namespace Node

variable (n : Node) (position : Nat)

/-- A node claims one name of a function. -/
theorem inScope_functions_claims :
    Claim.inScope .functions (n.claims position) = [n.functionName] := by
  simp [Node.claims, Claim.inScope, List.filter_eq_nil_iff]

/-- In the entry function a node claims its local variables. -/
theorem inScope_entry_claims :
    Claim.inScope .entry (n.claims position) = n.localVariables := by
  simp [Node.claims, Claim.inScope, localVariables, List.filter_map, Function.comp_def]

/-- A node claims parameters in its own scope only. -/
theorem inScope_parameters_claims (i : Nat) :
    Claim.inScope (.parameters i) (n.claims position) =
      if position = i then n.parameterVariables else [] := by
  split
  · next h => 
    simp [Node.claims, Claim.inScope, parameterVariables, List.filter_map, Function.comp_def, h]
  · next h =>
    simp [Node.claims, Claim.inScope, h]

end Node

namespace Graph

variable {g : Graph}

/-- The graph itself claims variables of the entry function only. -/
theorem inScope_interfaceClaims (scope : Scope) :
    Claim.inScope scope g.interfaceClaims =
      if scope = .entry then g.interfaceVariables else [] := by
  cases scope <;>
    simp [interfaceClaims, Claim.inScope, interfaceVariables, List.filter_map, Function.comp_def]

/-- In the scope of functions, a graph claims one name for each node. -/
theorem inScope_functions_claims :
    Claim.inScope .functions g.claims = g.nodes.map (·.functionName) := by
  simp only [claims, Claim.inScope_append, Claim.inScope_flatMap, inScope_interfaceClaims,
    Node.inScope_functions_claims, reduceCtorEq, if_false, List.nil_append]
  rw [flatMap_zipIdx_fst g.nodes fun n => [n.functionName], List.map_eq_flatMap]

/-- In the entry function, a graph claims the variables of that function. -/
theorem inScope_entry_claims : Claim.inScope .entry g.claims = g.entryVariables := by
  simp only [claims, Claim.inScope_append, Claim.inScope_flatMap, inScope_interfaceClaims,
    Node.inScope_entry_claims, if_true, entryVariables]
  rw [flatMap_zipIdx_fst g.nodes (·.localVariables)]

/-- The parameters that a graph claims in a scope are those of the node at its position. -/
theorem inScope_parameters_claims (i : Nat) :
    Claim.inScope (.parameters i) g.claims = (g.nodes[i]?.map (·.parameterVariables)).getD [] := by
  simp only [claims, Claim.inScope_append, Claim.inScope_flatMap, inScope_interfaceClaims,
    Node.inScope_parameters_claims, reduceCtorEq, if_false, List.nil_append]
  exact flatMap_zipIdx_at g.nodes (·.parameterVariables) i

/-- The check of identifiers accepts those that are distinct in each scope. -/
theorem checkIdentifiers_eq_ok :
    g.checkIdentifiers = .ok () ↔
      (g.nodes.map (·.functionName)).Nodup ∧ g.entryVariables.Nodup ∧
        ∀ n ∈ g.nodes, n.parameterVariables.Nodup := by
  have hcheck : g.checkIdentifiers = .ok () ↔ Claim.firstClash? [] g.claims = none := by
    unfold checkIdentifiers
    split <;> simp_all
  rw [hcheck, Claim.firstClash?_eq_none, Claim.pairwise_not_clashes]
  refine ⟨?_, ?_⟩
  · rintro ⟨h, -⟩
    refine ⟨inScope_functions_claims ▸ h .functions, inScope_entry_claims ▸ h .entry, ?_⟩
    intro n hn
    obtain ⟨i, hi⟩ := List.mem_iff_getElem?.mp hn
    have := h (.parameters i)
    rwa [inScope_parameters_claims, hi] at this
  · rintro ⟨hfunctions, hentry, hparameters⟩
    refine ⟨fun scope => ?_, by simp⟩
    cases scope with
    | functions => rwa [inScope_functions_claims]
    | entry => rwa [inScope_entry_claims]
    | parameters i =>
      rw [inScope_parameters_claims]
      cases hi : g.nodes[i]? with
      | none => exact List.nodup_nil
      | some n => exact hparameters n (List.mem_of_getElem? hi)

/-! ### Connections -/

/-- With distinct names, none of them reserved, a node is looked up by its name. -/
theorem node?_eq_some (hnames : (g.nodes.map (·.name)).Nodup) {name : String} {n : Node} :
    g.node? name = some n ↔ n ∈ g.nodes ∧ n.name = name :=
  find?_key_eq_some hnames

/-- The check of an endpoint at a node of the graph or at a pseudo node called `own`. -/
theorem checkEndpoint_eq_ok (hnames : (g.nodes.map (·.name)).Nodup) {own : String}
    (hown : ∀ n ∈ g.nodes, n.name ≠ own) {ownSockets : List SocketDecl}
    {sockets : Node → List SocketDecl} {e : Endpoint} :
    checkEndpoint e (if e.node = own then some ownSockets else (g.node? e.node).map sockets)
        = .ok () ↔
      (∃ decl ∈ ownSockets, ⟨own, decl.name⟩ = e) ∨
        ∃ n ∈ g.nodes, ∃ decl ∈ sockets n, ⟨n.name, decl.name⟩ = e := by
  obtain ⟨node, socket⟩ := e
  have hcheck : ∀ l : List SocketDecl, checkEndpoint ⟨node, socket⟩ (some l) = .ok () ↔
      ∃ decl ∈ l, decl.name = socket := by simp [checkEndpoint]
  simp only [Endpoint.mk.injEq]
  split
  · next h =>
    -- The pseudo node has no other sockets: no node of the graph has its name.
    subst h
    rw [hcheck]
    refine ⟨?_, ?_⟩
    · rintro ⟨decl, hdecl, hname⟩
      exact .inl ⟨decl, hdecl, rfl, hname⟩
    · rintro (⟨decl, hdecl, -, hname⟩ | ⟨n, hn, -, -, hnode, -⟩)
      · exact ⟨decl, hdecl, hname⟩
      · exact absurd hnode (hown n hn)
  · next h =>
    cases hfind : g.node? node with
    | none =>
      have hmissing : ∀ n ∈ g.nodes, n.name ≠ node := by simpa [node?] using hfind
      refine ⟨fun h => absurd h (by simp [checkEndpoint]), ?_⟩
      rintro (⟨-, -, hnode, -⟩ | ⟨n, hn, -, -, hnode, -⟩)
      · exact absurd hnode.symm h
      · exact absurd hnode (hmissing n hn)
    | some n =>
      obtain ⟨hn, rfl⟩ := (node?_eq_some hnames).mp hfind
      rw [Option.map_some, hcheck]
      refine ⟨?_, ?_⟩
      · rintro ⟨decl, hdecl, hname⟩
        exact .inr ⟨n, hn, decl, hdecl, rfl, hname⟩
      · rintro (⟨-, -, hnode, -⟩ | ⟨m, hm, decl, hdecl, hnode, hname⟩)
        · exact absurd hnode.symm h
        · obtain rfl := List.inj_on_of_nodup_map hnames hm hn hnode
          exact ⟨decl, hdecl, hname⟩

/-- A connection passes if both of its ends do. -/
theorem checkConnection_eq_ok {c : Connection} :
    g.checkConnection c = .ok () ↔
      (checkEndpoint c.source (g.sourceSockets? c.source.node) = .ok () ∧
        checkEndpoint c.target (g.targetSockets? c.target.node) = .ok ()) := by
  rw [checkConnection, seq_eq_ok]

/-- Connections pass if each of them does and their targets are new and distinct. -/
theorem checkConnectionsAfter_eq_ok {seen : List Endpoint} {connections : List Connection} :
    g.checkConnectionsAfter seen connections = .ok () ↔
      (∀ c ∈ connections, g.checkConnection c = .ok ()) ∧ (connections.map (·.target)).Nodup ∧
        ∀ c ∈ connections, c.target ∉ seen := by
  induction connections generalizing seen with
  | nil => simp [checkConnectionsAfter]
  | cons c connections ih =>
    simp only [checkConnectionsAfter, seq_eq_ok, List.contains_iff_mem]
    split
    · next hseen => simp [hseen]
    · next hseen =>
      rw [ih, List.map_cons, List.nodup_cons, List.mem_map, List.forall_mem_cons,
        List.forall_mem_cons]
      simp only [List.mem_cons, not_or]
      refine ⟨?_, ?_⟩
      · rintro ⟨hc, hchecks, htargets, hall⟩
        refine ⟨⟨hc, hchecks⟩, ⟨?_, htargets⟩, hseen, fun d hd => (hall d hd).2⟩
        rintro ⟨d, hd, htarget⟩
        exact (hall d hd).1 htarget
      · rintro ⟨⟨hc, hchecks⟩, ⟨hnew, htargets⟩, -, hall⟩
        exact ⟨hc, hchecks, htargets, fun d hd => ⟨fun h => hnew ⟨d, hd, h⟩, hall d hd⟩⟩

/-- What connections may read, provided that node names are as they should be. -/
theorem checkEndpoint_sourceSockets? (hnames : (g.nodes.map (·.name)).Nodup)
    (hfree : ∀ n ∈ g.nodes, isReserved n.name = false) {e : Endpoint} :
    checkEndpoint e (g.sourceSockets? e.node) = .ok () ↔ g.IsSource e := by
  have hown : ∀ n ∈ g.nodes, n.name ≠ inputNode :=
    fun n hn => (isReserved_eq_false.mp (hfree n hn)).1
  rw [sourceSockets?, checkEndpoint_eq_ok hnames hown]
  refine ⟨?_, ?_⟩
  · rintro (⟨decl, hdecl, rfl⟩ | ⟨n, hn, decl, hdecl, rfl⟩)
    · exact .input hdecl
    · exact .output hn hdecl
  · rintro (hdecl | ⟨hn, hdecl⟩)
    · exact .inl ⟨_, hdecl, rfl⟩
    · exact .inr ⟨_, hn, _, hdecl, rfl⟩

/-- What connections may write, provided that node names are as they should be. -/
theorem checkEndpoint_targetSockets? (hnames : (g.nodes.map (·.name)).Nodup)
    (hfree : ∀ n ∈ g.nodes, isReserved n.name = false) {e : Endpoint} :
    checkEndpoint e (g.targetSockets? e.node) = .ok () ↔ g.IsTarget e := by
  have hown : ∀ n ∈ g.nodes, n.name ≠ outputNode :=
    fun n hn => (isReserved_eq_false.mp (hfree n hn)).2
  rw [targetSockets?, checkEndpoint_eq_ok hnames hown]
  refine ⟨?_, ?_⟩
  · rintro (⟨decl, hdecl, rfl⟩ | ⟨n, hn, decl, hdecl, rfl⟩)
    · exact .output hdecl
    · exact .input hn hdecl
  · rintro (hdecl | ⟨hn, hdecl⟩)
    · exact .inl ⟨_, hdecl, rfl⟩
    · exact .inr ⟨_, hn, _, hdecl, rfl⟩

/-! ### All checks -/

/-- The checks accept exactly the valid graphs. -/
theorem validate_eq_ok : g.validate = .ok () ↔ g.Valid := by
  simp only [validate, seq_eq_ok, checkNames_eq_ok, checkIdentifiers_eq_ok, checkConnections,
    checkConnectionsAfter_eq_ok, checkConnection_eq_ok]
  refine ⟨?_, ?_⟩
  · rintro ⟨⟨hnames, hfree⟩, ⟨hfunctions, hentry, hparameters⟩, hends, hfanIn, -⟩
    exact {
      names := hnames
      unreserved := hfree
      functions := hfunctions
      entry := hentry
      parameters := hparameters
      sources := fun c hc => (checkEndpoint_sourceSockets? hnames hfree).mp (hends c hc).1
      targets := fun c hc => (checkEndpoint_targetSockets? hnames hfree).mp (hends c hc).2
      fanIn := hfanIn }
  · intro hg
    refine ⟨⟨hg.names, hg.unreserved⟩, ⟨hg.functions, hg.entry, hg.parameters⟩,
      fun c hc => ⟨?_, ?_⟩, hg.fanIn, by simp⟩
    · exact (checkEndpoint_sourceSockets? hg.names hg.unreserved).mpr (hg.sources c hc)
    · exact (checkEndpoint_targetSockets? hg.names hg.unreserved).mpr (hg.targets c hc)

/-- Compiled graphs are valid. -/
theorem valid_of_compile {r : Registry} {p : Program} (h : (r.compile g).result = .ok p) :
    g.Valid :=
  validate_eq_ok.mp (Registry.compile_eq_ok.mp h).1

/-- **Accepted graphs.** The checks accept a graph if and only if its node names are distinct and
    not reserved, the generated names are distinct in every scope, its connections join sockets that
    are declared, and no two of them have the same target. -/
theorem validate_eq_ok_iff_distinct (g : Graph) :
    g.validate = .ok () ↔
      (g.nodes.map (·.name)).Nodup ∧
      (∀ n ∈ g.nodes, n.name ≠ "subinput" ∧ n.name ≠ "suboutput") ∧
      ((g.inputs ++ g.outputs).map (fun decl => Naming.variableName decl.name) ++
        g.nodes.flatMap fun n =>
          n.outputs.map fun decl => Naming.localName n.name decl.name).Nodup ∧
      (∀ n ∈ g.nodes,
        ((n.inputs ++ n.outputs).map fun decl => Naming.variableName decl.name).Nodup) ∧
      (g.nodes.map fun n => Naming.identifier n.kind ++ "_" ++ Naming.identifier n.name).Nodup ∧
      (∀ c ∈ g.connections,
        ((c.source.node = "subinput" ∧ ∃ decl ∈ g.inputs, decl.name = c.source.socket) ∨
          ∃ n ∈ g.nodes, n.name = c.source.node ∧ ∃ decl ∈ n.outputs, decl.name = c.source.socket) ∧
        ((c.target.node = "suboutput" ∧ ∃ decl ∈ g.outputs, decl.name = c.target.socket) ∨
          ∃ n ∈ g.nodes, n.name = c.target.node ∧ ∃ decl ∈ n.inputs, decl.name = c.target.socket)) ∧
      g.connections.Pairwise fun c d =>
        ¬ (c.target.node = d.target.node ∧ c.target.socket = d.target.socket) := by
  have htargets : (g.connections.map (·.target)).Nodup ↔ g.connections.Pairwise fun c d =>
      ¬ (c.target.node = d.target.node ∧ c.target.socket = d.target.socket) := by
    rw [List.Nodup, List.pairwise_map]
    refine List.Pairwise.iff fun c d => not_congr ?_
    obtain ⟨_, ⟨node, socket⟩⟩ := c
    obtain ⟨_, ⟨node', socket'⟩⟩ := d
    rw [Endpoint.mk.injEq]
  rw [validate_eq_ok, ← htargets]
  constructor
  · intro hg
    refine ⟨hg.names, ?_, hg.entry, hg.parameters, hg.functions, ?_, hg.fanIn⟩
    · exact fun n hn => isReserved_eq_false.mp (hg.unreserved n hn)
    · exact fun c hc => ⟨isSource_iff.mp (hg.sources c hc), isTarget_iff.mp (hg.targets c hc)⟩
  · rintro ⟨hnames, hfree, hentry, hparameters, hfunctions, hends, hfanIn⟩
    exact {
      names := hnames
      unreserved := fun n hn => isReserved_eq_false.mpr (hfree n hn)
      functions := hfunctions
      entry := hentry
      parameters := hparameters
      sources := fun c hc => isSource_iff.mpr (hends c hc).1
      targets := fun c hc => isTarget_iff.mpr (hends c hc).2
      fanIn := hfanIn }

end Graph

end ShaderGraph
