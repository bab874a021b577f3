import ShaderGraph.Proofs.Validity

namespace ShaderGraph

/-!
# Contexts of nodes

In a valid graph the sockets of a node have distinct names, so that none of them replaces another
in the context of the node.

* `foldl_put` — sockets with new, distinct names are lined up in the order in which they come.
* `Context.received`, `Context.delivered` — the additions to either side of a context. Each side
  depends on its own additions only: `Context.inputs_foldl_add`, `Context.outputs_foldl_add`.
* `Graph.IsConnected` — some connection feeds an input.
* `Graph.context_eq_ok` — the context of a node holds its connected inputs and all its outputs,
  each side in declaration order.
-/

/-! ### Sockets -/

/-- A socket is resolved if the host knows its type, and then to that type. -/
theorem SocketDecl.resolve_eq_ok {decl : SocketDecl} {direction : Direction} {s : Socket} :
    decl.resolve direction = .ok s ↔
      ∃ type, DataType.ofHostName? decl.typeName = some type ∧
        s = ⟨decl.name, type, direction⟩ := by
  simp only [SocketDecl.resolve, Socket.resolve, DataType.resolve, map_eq_ok]
  cases DataType.ofHostName? decl.typeName <;> simp [eq_comm]

/-- A resolved socket keeps its name and gets the direction. -/
theorem SocketDecl.name_resolve {decl : SocketDecl} {direction : Direction} {s : Socket}
    (hs : decl.resolve direction = .ok s) : s.name = decl.name ∧ s.direction = direction := by
  obtain ⟨type, -, rfl⟩ := SocketDecl.resolve_eq_ok.mp hs
  exact ⟨rfl, rfl⟩

/-- A socket of a new name is put at the end. -/
theorem Socket.put_eq_append {socket : Socket} {sockets : List Socket}
    (hnew : ∀ s ∈ sockets, s.name ≠ socket.name) : socket.put sockets = sockets ++ [socket] := by
  induction sockets with
  | nil => rfl
  | cons s sockets ih =>
    obtain ⟨hs, hrest⟩ := List.forall_mem_cons.mp hnew
    rw [Socket.put, if_neg hs, ih hrest, List.cons_append]

/-- Sockets with new, distinct names are lined up in the order in which they come. -/
theorem foldl_put {present sockets : List Socket}
    (hnames : ((present ++ sockets).map (·.name)).Nodup) :
    sockets.foldl (fun l s => s.put l) present = present ++ sockets := by
  induction sockets generalizing present with
  | nil => simp
  | cons s sockets ih =>
    -- The next socket replaces none of those that are present.
    have hnew : ∀ t ∈ present, t.name ≠ s.name := by
      simp only [List.map_append, List.map_cons, List.nodup_append, List.mem_map,
        List.mem_cons] at hnames
      intro t ht
      exact hnames.2.2 t.name ⟨t, ht, rfl⟩ s.name (.inl rfl)
    rw [List.foldl_cons, Socket.put_eq_append hnew, ih (by simpa using hnames)]
    simp

namespace Context

/-- The sockets of a history that are added to the inputs. -/
def received (history : List Socket) : List Socket := history.filter (·.direction = .input)

/-- The sockets of a history that are added to the outputs. -/
def delivered (history : List Socket) : List Socket := history.filter (·.direction ≠ .input)

/-- An input is put among the inputs. -/
theorem add_of_input (hs : s.direction = .input) (ctx : Context) :
    ctx.add s = { ctx with inputs := s.put ctx.inputs } := by
  rw [add, hs]

/-- Sockets that pass values both ways are added like outputs. -/
theorem add_of_ne_input (hs : s.direction ≠ .input) (ctx : Context) :
    ctx.add s = { ctx with outputs := s.put ctx.outputs } := by
  rw [add]
  cases h : s.direction with
  | input => exact absurd h hs
  | output => rfl
  | inOut => rfl

/-- What happens to the inputs is told by the additions to them. -/
theorem inputs_foldl_add (history : List Socket) (ctx : Context) :
    (history.foldl add ctx).inputs = (received history).foldl (fun l s => s.put l) ctx.inputs := by
  induction history generalizing ctx with
  | nil => rfl
  | cons s history ih =>
    rw [List.foldl_cons, ih]
    by_cases hs : s.direction = .input
    · rw [received, received, List.filter_cons_of_pos (by simpa using hs), List.foldl_cons,
        add_of_input hs]
    · rw [received, received, List.filter_cons_of_neg (by simpa using hs), add_of_ne_input hs]

/-- What happens to the outputs is told by the additions to them. -/
theorem outputs_foldl_add (history : List Socket) (ctx : Context) :
    (history.foldl add ctx).outputs =
      (delivered history).foldl (fun l s => s.put l) ctx.outputs := by
  induction history generalizing ctx with
  | nil => rfl
  | cons s history ih =>
    rw [List.foldl_cons, ih]
    by_cases hs : s.direction = .input
    · rw [delivered, delivered, List.filter_cons_of_neg (by simpa using hs), add_of_input hs]
    · rw [delivered, delivered, List.filter_cons_of_pos (by simpa using hs), List.foldl_cons,
        add_of_ne_input hs]

/-- Inputs and outputs whose names are distinct on either side form a context as they are. -/
theorem foldl_add {inputs outputs : List Socket} (hin : ∀ s ∈ inputs, s.direction = .input)
    (hout : ∀ s ∈ outputs, s.direction = .output) (hinputs : (inputs.map (·.name)).Nodup)
    (houtputs : (outputs.map (·.name)).Nodup) :
    (inputs ++ outputs).foldl add {} = { inputs, outputs } := by
  have hreceived : received (inputs ++ outputs) = inputs := by
    have hkept : inputs.filter (·.direction = .input) = inputs :=
      List.filter_eq_self.mpr (by simpa using hin)
    have hgone : outputs.filter (·.direction = .input) = [] :=
      List.filter_eq_nil_iff.mpr (by simp_all)
    rw [received, List.filter_append, hkept, hgone, List.append_nil]
  have hdelivered : delivered (inputs ++ outputs) = outputs := by
    have hgone : inputs.filter (·.direction ≠ .input) = [] :=
      List.filter_eq_nil_iff.mpr (by simpa using hin)
    have hkept : outputs.filter (·.direction ≠ .input) = outputs :=
      List.filter_eq_self.mpr (by simp_all)
    rw [delivered, List.filter_append, hgone, hkept, List.nil_append]
  have hleft := inputs_foldl_add (inputs ++ outputs) {}
  have hright := outputs_foldl_add (inputs ++ outputs) {}
  rw [hreceived, foldl_put (by simpa using hinputs)] at hleft
  rw [hdelivered, foldl_put (by simpa using houtputs)] at hright
  exact congrArg₂ Context.mk hleft hright

end Context

/-! ### Contexts -/

namespace Graph

variable {g : Graph} {n : Node}

/-- Some connection feeds an input of a node. -/
def IsConnected (g : Graph) (n : Node) (input : SocketDecl) : Prop :=
  ∃ c ∈ g.connections, c.target = ⟨n.name, input.name⟩

/-- Whether an input is connected can be decided. -/
instance (g : Graph) (n : Node) : DecidablePred (g.IsConnected n) :=
  fun input => inferInstanceAs (Decidable (∃ c ∈ g.connections, c.target = ⟨n.name, input.name⟩))

/-- A connection into a target is found if there is one. -/
theorem isSome_incoming? {target : Endpoint} :
    (g.incoming? target).isSome ↔ ∃ c ∈ g.connections, c.target = target :=
  isSome_find?_key

/-- The inputs that a context keeps are the connected ones. -/
theorem connectedInputs_eq (g : Graph) (n : Node) :
    g.connectedInputs n = n.inputs.filter (g.IsConnected n) := by
  refine List.filter_congr fun input _ => ?_
  rw [Bool.eq_iff_iff, isSome_incoming?, decide_eq_true_eq, IsConnected]

/-- The connection into an input of a valid graph is the only one. -/
theorem Valid.incoming?_eq_some (hg : g.Valid) {target : Endpoint} {c : Connection} :
    g.incoming? target = some c ↔ c ∈ g.connections ∧ c.target = target :=
  find?_key_eq_some hg.fanIn

/-- Resolved sockets have the names of their declarations and one direction. -/
theorem names_resolve {decls : List SocketDecl} {direction : Direction} {sockets : List Socket}
    (h : List.Forall₂ (fun decl s => decl.resolve direction = .ok s) decls sockets) :
    decls.map (·.name) = sockets.map (·.name) ∧ ∀ s ∈ sockets, s.direction = direction := by
  induction h with
  | nil => simp
  | cons hs _ ih =>
    obtain ⟨hname, hdirection⟩ := SocketDecl.name_resolve hs
    exact ⟨by simp [ih.1, hname], List.forall_mem_cons.mpr ⟨hdirection, ih.2⟩⟩

/-- In a valid graph, no two sockets of a node have one name. -/
theorem Valid.distinct_sockets (hg : g.Valid) (hn : n ∈ g.nodes) :
    ((n.inputs ++ n.outputs).map (·.name)).Nodup := by
  have := hg.parameters n hn
  rw [Node.parameterVariables] at this
  refine List.Nodup.of_map Naming.variableName ?_
  rwa [List.map_map]

/-- The context of a node holds its connected inputs and all its outputs, each side in
    declaration order. -/
theorem context_eq_ok (hg : g.Valid) (hn : n ∈ g.nodes) {ctx : Context} :
    g.context n = .ok ctx ↔
      List.Forall₂ (fun decl s => decl.resolve .input = .ok s) (n.inputs.filter (g.IsConnected n))
          ctx.inputs ∧
        List.Forall₂ (fun decl s => decl.resolve .output = .ok s) n.outputs ctx.outputs := by
  have hdistinct := hg.distinct_sockets hn
  rw [List.map_append, List.nodup_append] at hdistinct
  -- Sockets resolved from the declarations do not replace each other.
  have hfold : ∀ {inputs outputs : List Socket},
      List.Forall₂ (fun decl s => decl.resolve .input = .ok s)
        (n.inputs.filter (g.IsConnected n)) inputs →
      List.Forall₂ (fun decl s => decl.resolve .output = .ok s) n.outputs outputs →
      (inputs ++ outputs).foldl Context.add {} = { inputs, outputs } := by
    intro inputs outputs hinputs houtputs
    obtain ⟨hinNames, hin⟩ := names_resolve hinputs
    obtain ⟨houtNames, hout⟩ := names_resolve houtputs
    refine Context.foldl_add hin hout (hinNames ▸ ?_) (houtNames ▸ hdistinct.2.1)
    exact hdistinct.1.sublist (List.filter_sublist.map _)
  simp only [context, bind_eq_ok, pure_eq_ok, mapM_eq_ok, connectedInputs_eq]
  refine ⟨?_, ?_⟩
  · rintro ⟨inputs, hinputs, outputs, houtputs, rfl⟩
    rw [hfold hinputs houtputs]
    exact ⟨hinputs, houtputs⟩
  · rintro ⟨hinputs, houtputs⟩
    exact ⟨_, hinputs, _, houtputs, hfold hinputs houtputs⟩

end Graph

end ShaderGraph
