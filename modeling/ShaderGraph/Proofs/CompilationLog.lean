import ShaderGraph.Proofs.Generation

namespace ShaderGraph

/-!
# Logs of compilations

What a compilation records, whatever comes of it. Nothing is recorded before the nodes. Each node
whose code is complete leaves its events behind, and the first failure of a node is the last event.

* `Traced.bind_of_ok`, `Traced.bind_of_error`, `Traced.mapM_of_forall₂`, `Traced.mapM_of_error` —
  the events of sequences and traversals: those up to a failure.
* `Graph.codeEvents` — the events of a node whose code is complete.
  `Registry.nodeCode_of_operations` takes the code of a node apart at its first event.
* `Graph.preparation` — what a compilation does before the nodes.
* `Graph.Logs` — the log and the result of a compilation, one rule for each way in which it can end.
* `Event.RecordedAt` — the events of compilations and the level of each.
-/

/-! ### Sequences and traversals -/

namespace Traced

variable {α β : Type} {x : Traced α} {e : Error}

/-- After a success, the events of a sequence are those of both parts. -/
theorem bind_of_ok {a : α} (h : x.result = .ok a) (f : α → Traced β) :
    x >>= f = { log := x.log ++ (f a).log, result := (f a).result } := by
  show andThen x f = _
  simp [andThen, h]

/-- After a failure, the events of a sequence are those of its first part. -/
theorem bind_of_error (h : x.result = .error e) (f : α → Traced β) :
    x >>= f = { log := x.log, result := .error e } := by
  show andThen x f = _
  simp [andThen, h]

/-- A success without events can be passed on directly. -/
theorem lift_ok_bind (a : α) (f : α → Traced β) :
    (liftM (.ok a : Except Error α) : Traced α) >>= f = f a :=
  bind_of_ok rfl f

/-- After a failure without events there are none. -/
theorem lift_error_bind (e : Error) (f : α → Traced β) :
    (liftM (.error e : Except Error α) : Traced α) >>= f = { log := [], result := .error e } :=
  bind_of_error rfl f

/-- A traversal that succeeds records the events of each element. -/
theorem mapM_of_forall₂ {f : α → Traced β} {events : β → List Event} {l : List α} {l' : List β}
    (h : List.Forall₂ (fun a b => f a = { log := events b, result := .ok b }) l l') :
    l.mapM f = { log := l'.flatMap events, result := .ok l' } := by
  induction h with
  | nil => rfl
  | @cons a b l l' hab _ ih =>
    rw [List.mapM_cons, hab, bind_of_ok rfl, ih, bind_of_ok rfl]
    simp

/-- A traversal ends with the events of the first element that fails. -/
theorem mapM_of_error {f : α → Traced β} {events : β → List Event} {before : List α} {l' : List β}
    (h : List.Forall₂ (fun a b => f a = { log := events b, result := .ok b }) before l') {a : α}
    (ha : (f a).result = .error e) (after : List α) :
    (before ++ a :: after).mapM f =
      { log := l'.flatMap events ++ (f a).log, result := .error e } := by
  rw [List.mapM_append, mapM_of_forall₂ h, bind_of_ok rfl, List.mapM_cons, bind_of_error ha,
    bind_of_error rfl]

end Traced

/-! ### Nodes -/

/-- The events of a node whose code is complete: its operations are there, and it may be that
    nothing reads from it. -/
def Graph.codeEvents (g : Graph) (code : NodeCode) : List Event :=
  .generated code.name code.kind code.operations.length ::
    if ∃ c ∈ g.connections, c.source.node = code.name then [] else [.unused code.name code.kind]

namespace Registry

variable {r : Registry} {g : Graph} {n : Node}

/-- The operations that the registry generates for a node of a graph. -/
def nodeOperations (r : Registry) (g : Graph) (n : Node) : Except Error (List Operation) := do
  let ctx ← g.context n
  r.operations n.kind ctx

/-- Without operations, nothing is recorded in the code of a node. -/
theorem nodeCode_of_operations_error {cause : Error} (h : r.nodeOperations g n = .error cause) :
    r.nodeCode g n = { log := [], result := .error cause } := by
  unfold nodeCode
  rcases bind_eq_error.mp h with hctx | ⟨ctx, hctx, hops⟩
  · rw [hctx, Traced.lift_error_bind]
  · rw [hctx, Traced.lift_ok_bind]
    rcases bind_eq_error.mp hops with hadapter | ⟨adapter, hadapter, hops⟩
    · rw [hadapter, Traced.lift_error_bind]
    · rw [hadapter, Traced.lift_ok_bind, hops, Traced.lift_error_bind]

/-- The operations of a node are recorded before its code is completed. -/
theorem nodeCode_of_operations {ops : List Operation} (h : r.nodeOperations g n = .ok ops) :
    ∃ ctx, g.context n = .ok ctx ∧ r.nodeCode g n = do
      Traced.record (.generated n.name n.kind ops.length)
      let code ← g.nodeCode n ctx ops
      unless g.hasConsumers n.name do
        Traced.record (.unused n.name n.kind)
      return code := by
  obtain ⟨ctx, hctx, hops⟩ := bind_eq_ok.mp h
  obtain ⟨adapter, hadapter, hops⟩ := bind_eq_ok.mp hops
  refine ⟨ctx, hctx, ?_⟩
  unfold nodeCode
  rw [hctx, Traced.lift_ok_bind, hadapter, Traced.lift_ok_bind, hops, Traced.lift_ok_bind]

/-- If the code of a node fails after its operations, they are all that is recorded. -/
theorem nodeCode_of_error {ops : List Operation} {cause : Error}
    (hops : r.nodeOperations g n = .ok ops)
    (h : (r.nodeCode g n).result = .error cause) :
    r.nodeCode g n = { log := [.generated n.name n.kind ops.length], result := .error cause } := by
  obtain ⟨ctx, -, hsteps⟩ := nodeCode_of_operations hops
  rw [hsteps] at h ⊢
  rw [Traced.bind_of_ok rfl] at h ⊢
  cases hcode : g.nodeCode n ctx ops with
  | error e =>
    rw [hcode, Traced.lift_error_bind] at h
    rw [Traced.lift_error_bind, Except.error.inj h]
    rfl
  | ok code =>
    -- What is left is a warning at most, which cannot fail.
    rw [hcode, Traced.lift_ok_bind] at h
    split at h <;> cases h

/-- A node whose code is complete leaves its events. -/
theorem nodeCode_of_ok {code : NodeCode} (h : (r.nodeCode g n).result = .ok code) :
    r.nodeCode g n = { log := g.codeEvents code, result := .ok code } := by
  obtain ⟨ctx, adapter, ops, hctx, hadapter, hops, hcode⟩ := nodeCode_eq_ok.mp h
  have hoperations : r.nodeOperations g n = .ok ops := by
    rw [nodeOperations, hctx, ok_bind, operations, hadapter, ok_bind, hops]
  obtain ⟨ctx', hctx', hsteps⟩ := nodeCode_of_operations hoperations
  obtain rfl : ctx = ctx' := Except.ok.inj (hctx.symm.trans hctx')
  obtain ⟨parameters, arguments, locals, -, -, -, rfl⟩ := Graph.nodeCode_eq_ok.mp hcode
  rw [hsteps, Traced.bind_of_ok rfl, hcode, Traced.lift_ok_bind]
  by_cases hread : ∃ c ∈ g.connections, c.source.node = n.name
  · have hconsumers : g.hasConsumers n.name = true := by simpa [Graph.hasConsumers] using hread
    simp [hconsumers, hread, Graph.codeEvents, Traced.record]
  · have hconsumers : g.hasConsumers n.name = false := by simpa [Graph.hasConsumers] using hread
    simp only [hconsumers, Graph.codeEvents, if_neg hread]
    rfl

/-- The same holds where failures would be reported. -/
theorem compileNode_of_ok {code : NodeCode} (h : (r.nodeCode g n).result = .ok code) :
    r.compileNode g n = { log := g.codeEvents code, result := .ok code } := by
  rw [compileNode, nodeCode_of_ok h]
  rfl

/-- A failure of a node is recorded after what the node has recorded before. -/
theorem compileNode_of_error {cause : Error} (h : (r.nodeCode g n).result = .error cause)
    (hbare : cause.identity? = none) :
    r.compileNode g n = { log := (r.nodeCode g n).log ++ [.failed n.name n.kind cause]
                          result := .error (.node n.name n.kind cause) } := by
  rw [compileNode, Traced.inNode, h]
  simp only [Graph.inNode_of_identity?_eq_none hbare]

end Registry

/-! ### Graphs -/

namespace Graph

/-- What a compilation does before it comes to the nodes: the checks, the execution order and the
    parameters of the entry function. -/
def preparation (g : Graph) : Except Error (List Nat × List Declaration) := do
  g.validate
  let order ← g.executionOrder
  let parameters ← g.interface
  return (order, parameters)

/-- The log of a compilation and what comes of it. -/
inductive Logs (g : Graph) (r : Registry) : List Event → Except Error Program → Prop where
  /-- The compilation does not come to the nodes. -/
  | unprepared {e : Error} (h : g.preparation = .error e) : g.Logs r [] (.error e)
  /-- There are no operations for this node, but the code of all those before it is complete. -/
  | ungenerated {order : List Nat} {parameters : List Declaration} {before after : List Node}
      {n : Node} {codes : List NodeCode} {cause : Error}
      (hprepared : g.preparation = .ok (order, parameters))
      (hsplit : g.nodesAt order = before ++ n :: after)
      (hbefore : List.Forall₂ (fun m code => (r.nodeCode g m).result = .ok code) before codes)
      (h : r.nodeOperations g n = .error cause) :
      g.Logs r (codes.flatMap g.codeEvents ++ [.failed n.name n.kind cause])
        (.error (.node n.name n.kind cause))
  /-- The code of this node fails after its operations, and that of those before it is complete. -/
  | incomplete {order : List Nat} {parameters : List Declaration} {before after : List Node}
      {n : Node} {codes : List NodeCode} {ops : List Operation} {cause : Error}
      (hprepared : g.preparation = .ok (order, parameters))
      (hsplit : g.nodesAt order = before ++ n :: after)
      (hbefore : List.Forall₂ (fun m code => (r.nodeCode g m).result = .ok code) before codes)
      (hops : r.nodeOperations g n = .ok ops) (h : (r.nodeCode g n).result = .error cause) :
      g.Logs r
        (codes.flatMap g.codeEvents ++
          [.generated n.name n.kind ops.length, .failed n.name n.kind cause])
        (.error (.node n.name n.kind cause))
  /-- The code of all nodes is complete, but nothing is connected to this graph output. -/
  | unbound {order : List Nat} {parameters : List Declaration} {codes : List NodeCode}
      {decl : SocketDecl} (hprepared : g.preparation = .ok (order, parameters))
      (hcodes : List.Forall₂ (fun m code => (r.nodeCode g m).result = .ok code)
        (g.nodesAt order) codes)
      (h : g.outputs.find? (fun decl => ¬ ∃ c ∈ g.connections, c.target = ⟨outputNode, decl.name⟩)
        = some decl) :
      g.Logs r (codes.flatMap g.codeEvents) (.error (.unboundOutput decl.name))
  /-- The code of all nodes is complete, and all graph outputs are connected. -/
  | compiled {order : List Nat} {p : Program}
      (hprepared : g.preparation = .ok (order, p.parameters))
      (hcodes : List.Forall₂ (fun m code => (r.nodeCode g m).result = .ok code)
        (g.nodesAt order) p.nodes)
      (houtputs : ∀ decl ∈ g.outputs, ∃ c ∈ g.connections, c.target = ⟨outputNode, decl.name⟩)
      (hbindings : g.bindings = .ok p.bindings) :
      g.Logs r
        (p.nodes.flatMap g.codeEvents ++ [.compiled g.nodes.length p.operations.length])
        (.ok p)

end Graph

/-- The events of compilations, each with its level. -/
inductive Event.RecordedAt : Event → Level → Prop where
  | generated {node kind : String} {operations : Nat} :
    RecordedAt (.generated node kind operations) .debug
  | unused {node kind : String} : RecordedAt (.unused node kind) .warn
  | failed {node kind : String} {cause : Error} : RecordedAt (.failed node kind cause) .error
  | compiled {nodes operations : Nat} : RecordedAt (.compiled nodes operations) .info

namespace Graph

variable {r : Registry} {g : Graph}

/-- A compilation after its preparation. -/
theorem compile_eq_preparation (r : Registry) (g : Graph) :
    r.compile g = (liftM g.preparation : Traced (List Nat × List Declaration)) >>=
      fun prepared => do
      let nodes ← (g.nodesAt prepared.1).mapM (r.compileNode g)
      let bindings ← g.bindings
      let program : Program := { parameters := prepared.2, nodes, bindings }
      Traced.record (.compiled nodes.length program.operations.length)
      return program := by
  unfold Registry.compile preparation
  cases g.validate with
  | error e => simp only [error_bind, Traced.lift_error_bind]
  | ok =>
    simp only [ok_bind, Traced.lift_ok_bind]
    cases g.executionOrder with
    | error e => simp only [error_bind, Traced.lift_error_bind]
    | ok order =>
      simp only [ok_bind, Traced.lift_ok_bind]
      cases g.interface with
      | error e => simp only [error_bind, Traced.lift_error_bind]
      | ok parameters =>
        have hpure : (pure (order, parameters) : Except Error (List Nat × List Declaration)) =
            .ok (order, parameters) := rfl
        simp only [ok_bind, Traced.lift_ok_bind, hpure]

/-- A compilation whose nodes are all complete has the assignments to graph outputs ahead of it. -/
theorem compile_of_codes {order : List Nat} {parameters : List Declaration} {codes : List NodeCode}
    (hprepared : g.preparation = .ok (order, parameters))
    (hcodes : List.Forall₂ (fun m code => (r.nodeCode g m).result = .ok code)
      (g.nodesAt order) codes) :
    r.compile g =
      match g.bindings with
      | .error e => { log := codes.flatMap g.codeEvents, result := .error e }
      | .ok bindings =>
        { log := codes.flatMap g.codeEvents ++
            [.compiled codes.length (codes.flatMap (·.operations)).length]
          result := .ok { parameters, nodes := codes, bindings } } := by
  have hnodes := Traced.mapM_of_forall₂ (hcodes.imp fun _ _ => Registry.compileNode_of_ok)
  rw [compile_eq_preparation, hprepared, Traced.lift_ok_bind, hnodes, Traced.bind_of_ok rfl]
  cases g.bindings with
  | error e => simp [Traced.lift_error_bind]
  | ok bindings =>
    rw [Traced.lift_ok_bind]
    rfl

/-- A compilation ends with the first node that fails. -/
theorem compile_of_cause {order : List Nat} {parameters : List Declaration}
    {before after : List Node} {n : Node} {codes : List NodeCode} {cause : Error}
    (hprepared : g.preparation = .ok (order, parameters))
    (hsplit : g.nodesAt order = before ++ n :: after)
    (hbefore : List.Forall₂ (fun m code => (r.nodeCode g m).result = .ok code) before codes)
    (h : (r.nodeCode g n).result = .error cause) (hbare : cause.identity? = none) :
    r.compile g =
      { log := codes.flatMap g.codeEvents ++ ((r.nodeCode g n).log ++ [.failed n.name n.kind cause])
        result := .error (.node n.name n.kind cause) } := by
  have hcompile := Registry.compileNode_of_error h hbare
  have hresult : (r.compileNode g n).result = .error (.node n.name n.kind cause) := by rw [hcompile]
  have hnodes :=
    Traced.mapM_of_error (hbefore.imp fun _ _ => Registry.compileNode_of_ok) hresult after
  rw [compile_eq_preparation, hprepared, Traced.lift_ok_bind, hsplit, hnodes,
    Traced.bind_of_error rfl, hcompile]

/-- There is code for all nodes of the graph. -/
theorem length_of_preparation {order : List Nat} {parameters : List Declaration}
    {codes : List NodeCode} (hprepared : g.preparation = .ok (order, parameters))
    (hcodes : List.Forall₂ (fun m code => (r.nodeCode g m).result = .ok code)
      (g.nodesAt order) codes) :
    codes.length = g.nodes.length := by
  obtain ⟨-, hprepared⟩ := seq_eq_ok.mp hprepared
  obtain ⟨order', horder, hprepared⟩ := bind_eq_ok.mp hprepared
  obtain ⟨parameters', -, hpair⟩ := bind_eq_ok.mp hprepared
  obtain ⟨rfl, rfl⟩ := Prod.mk.inj (pure_eq_ok.mp hpair)
  rw [← hcodes.length_eq]
  exact (nodesAt_perm horder).length_eq

/-- The rules tell what a compilation does. -/
theorem compile_of_logs (hr : ∀ a ∈ r.adapters, ∀ ctx, Unattributed (a.generate ctx))
    {log : List Event} {result : Except Error Program} (h : g.Logs r log result) :
    r.compile g = { log, result } := by
  cases h with
  | unprepared h => rw [compile_eq_preparation, h, Traced.lift_error_bind]
  | @ungenerated order parameters before after n codes cause hprepared hsplit hbefore h =>
    have hcode := Registry.nodeCode_of_operations_error h
    have hcause : (r.nodeCode g n).result = .error cause := by rw [hcode]
    have hbare := Registry.unattributed_nodeCode hr g n cause hcause
    rw [compile_of_cause hprepared hsplit hbefore hcause hbare, hcode, List.nil_append]
  | @incomplete order parameters before after n codes ops cause hprepared hsplit hbefore hops h =>
    have hbare := Registry.unattributed_nodeCode hr g n cause h
    rw [compile_of_cause hprepared hsplit hbefore h hbare, Registry.nodeCode_of_error hops h]
    rfl
  | @unbound order parameters codes decl hprepared hcodes h =>
    have hbindings := bindings_eq_error.mpr ⟨decl, h, rfl⟩
    rw [compile_of_codes hprepared hcodes, hbindings]
  | @compiled order p hprepared hcodes houtputs hbindings =>
    have hlength := length_of_preparation hprepared hcodes
    rw [compile_of_codes hprepared hcodes, hbindings, hlength]
    rfl

/-- One of the rules applies to each compilation. -/
theorem exists_logs (r : Registry) (g : Graph) : ∃ log result, g.Logs r log result := by
  cases hprepared : g.preparation with
  | error e => exact ⟨_, _, .unprepared hprepared⟩
  | ok prepared =>
    obtain ⟨order, parameters⟩ := prepared
    cases hnodes : (g.nodesAt order).mapM (fun n => (r.nodeCode g n).result) with
    | error cause =>
      obtain ⟨before, n, after, codes, hsplit, hbefore, hcode⟩ :=
        exists_split_of_mapM_eq_error hnodes
      cases hops : r.nodeOperations g n with
      | error e => exact ⟨_, _, .ungenerated hprepared hsplit hbefore hops⟩
      | ok ops => exact ⟨_, _, .incomplete hprepared hsplit hbefore hops hcode⟩
    | ok codes =>
      have hcodes := mapM_eq_ok.mp hnodes
      cases hbindings : g.bindings with
      | error e =>
        obtain ⟨decl, hfind, -⟩ := bindings_eq_error.mp hbindings
        exact ⟨_, _, .unbound hprepared hcodes hfind⟩
      | ok bindings =>
        exact ⟨_, .ok { parameters, nodes := codes, bindings },
          .compiled hprepared hcodes (exists_bindings.mp ⟨bindings, hbindings⟩) hbindings⟩

/-- The events of complete nodes are those that report operations and those that warn. -/
theorem recordedAt_of_mem_codeEvents {codes : List NodeCode} {event : Event}
    (h : event ∈ codes.flatMap g.codeEvents) :
    event.RecordedAt event.level ∧ event.level ≠ .error := by
  obtain ⟨code, -, hevent⟩ := List.mem_flatMap.mp h
  rcases List.mem_cons.mp hevent with rfl | hevent
  · exact ⟨.generated, Level.noConfusion⟩
  · split at hevent
    · cases hevent
    · obtain rfl := List.mem_singleton.mp hevent
      exact ⟨.unused, Level.noConfusion⟩

/-- Each event of a compilation has the level of its kind. -/
theorem Logs.recordedAt {log : List Event} {result : Except Error Program}
    (h : g.Logs r log result) :
    ∀ event ∈ log, event.RecordedAt event.level := by
  have hcodes : ∀ codes : List NodeCode, ∀ event ∈ codes.flatMap g.codeEvents,
      event.RecordedAt event.level := fun _ _ hevent => (recordedAt_of_mem_codeEvents hevent).1
  cases h with
  | unprepared => simp
  | ungenerated =>
    exact List.forall_mem_append.mpr ⟨hcodes _, List.forall_mem_singleton.mpr .failed⟩
  | incomplete =>
    exact List.forall_mem_append.mpr
      ⟨hcodes _, List.forall_mem_cons.mpr ⟨.generated, List.forall_mem_singleton.mpr .failed⟩⟩
  | unbound => exact hcodes _
  | compiled => exact List.forall_mem_append.mpr ⟨hcodes _, List.forall_mem_singleton.mpr .compiled⟩

/-- Either no error is recorded, or one at the end: that a node failed, which is then the result. -/
theorem Logs.quiet_or {log : List Event} {result : Except Error Program} (h : g.Logs r log result) :
    (∀ event ∈ log, event.level ≠ .error) ∨
      ∃ quiet name kind cause, log = quiet ++ [.failed name kind cause] ∧
        (∀ event ∈ quiet, event.level ≠ .error) ∧ result = .error (.node name kind cause) := by
  have hquiet : ∀ codes : List NodeCode, ∀ event ∈ codes.flatMap g.codeEvents,
      event.level ≠ .error := fun _ _ hevent => (recordedAt_of_mem_codeEvents hevent).2
  cases h with
  | unprepared => exact .inl (by simp)
  | ungenerated => exact .inr ⟨_, _, _, _, rfl, hquiet _, rfl⟩
  | @incomplete order parameters before after n codes ops cause =>
    refine .inr ⟨codes.flatMap g.codeEvents ++ [.generated n.name n.kind ops.length], _, _, _, ?_,
      ?_, rfl⟩
    · rw [List.append_assoc, List.singleton_append]
    · exact List.forall_mem_append.mpr ⟨hquiet codes, by simp [Event.level]⟩
  | unbound => exact .inl (hquiet _)
  | compiled => exact .inl (List.forall_mem_append.mpr ⟨hquiet _, by simp [Event.level]⟩)

/-- **Logs of compilations.** If no adapter attributes its failures to nodes, the rules tell for
    each graph what its compilation records and what comes of it. An error is recorded at the end of
    the log only; it says that a node failed, and the compilation fails with this node and this
    cause. Operations are recorded for those who debug, nodes from which nothing reads as warnings,
    and that the graph is compiled as information. -/
theorem compile_eq_iff_logs (hr : ∀ a ∈ r.adapters, ∀ ctx, Unattributed (a.generate ctx))
    (g : Graph) :
    (∀ log result, (r.compile g).log = log ∧ (r.compile g).result = result ↔ g.Logs r log result) ∧
    (∀ before event after, (r.compile g).log = before ++ event :: after → event.level = .error →
      after = [] ∧ ∃ name kind cause, event = .failed name kind cause ∧
        (r.compile g).result = .error (.node name kind cause)) ∧
    ∀ event ∈ (r.compile g).log, event.RecordedAt event.level := by
  obtain ⟨log, result, hlogs⟩ := exists_logs r g
  have hcompile := compile_of_logs hr hlogs
  refine ⟨?_, ?_, ?_⟩
  · intro log' result'
    constructor
    · rintro ⟨rfl, rfl⟩
      rwa [hcompile]
    · intro hlogs'
      rw [compile_of_logs hr hlogs']
      exact ⟨rfl, rfl⟩
  · intro before event after hsplit hlevel
    rw [hcompile] at hsplit ⊢
    change log = _ at hsplit
    rcases hlogs.quiet_or with hquiet | ⟨quiet, name, kind, cause, rfl, hquiet, rfl⟩
    · exact absurd hlevel (hquiet event (by simp [hsplit]))
    · rcases List.eq_nil_or_concat after with rfl | ⟨rest, last, rfl⟩
      · obtain ⟨-, hevent⟩ := List.append_singleton_inj.mp hsplit
        exact ⟨rfl, name, kind, cause, hevent.symm, rfl⟩
      · -- The event would be one of those before the failure.
        rw [List.concat_eq_append, ← List.cons_append, ← List.append_assoc] at hsplit
        obtain ⟨hbefore, -⟩ := List.append_singleton_inj.mp hsplit
        exact absurd hlevel (hquiet event (by simp [hbefore]))
  · rw [hcompile]
    exact hlogs.recordedAt

/-- Nothing reads from `spare`, and `label` has an output for which there is no type in the target.
    Its operations are generated before that is found out. -/
def brokenLabel : Graph where
  inputs := [⟨"x", "float"⟩]
  outputs := [⟨"result", "float"⟩]
  nodes := [
    { name := "label"
      kind := "add"
      inputs := [⟨"input1", "float"⟩]
      outputs := [⟨"sum", "float"⟩, ⟨"caption", "string"⟩] },
    { name := "mix"
      kind := "add"
      inputs := [⟨"input1", "float"⟩]
      outputs := [⟨"sum", "float"⟩] },
    { name := "spare"
      kind := "multiply"
      inputs := [⟨"input1", "float"⟩, ⟨"input2", "float"⟩]
      outputs := [⟨"product", "float"⟩] }]
  connections := [
    ⟨⟨"subinput", "x"⟩, ⟨"mix", "input1"⟩⟩,
    ⟨⟨"mix", "sum"⟩, ⟨"label", "input1"⟩⟩,
    ⟨⟨"subinput", "x"⟩, ⟨"spare", "input1"⟩⟩,
    ⟨⟨"subinput", "x"⟩, ⟨"spare", "input2"⟩⟩,
    ⟨⟨"label", "sum"⟩, ⟨"suboutput", "result"⟩⟩]

/-- The log of `brokenLabel`. -/
def brokenLabelLog : List Event := [
  .generated "mix" "add" 1,
  .generated "spare" "multiply" 1, .unused "spare" "multiply",
  .generated "label" "add" 1, .failed "label" "add" (.unsupportedType .string)]

/-- Three nodes of `brokenLabel` are compiled up to the failure of the last one, which is at the end
    of the log. -/
theorem compile_eq_iff_logs_brokenLabel :
    (∀ a ∈ Registry.builtin.adapters, ∀ ctx, Unattributed (a.generate ctx)) ∧
      (Registry.builtin.compile brokenLabel).log = brokenLabelLog ∧
      brokenLabel.Logs Registry.builtin brokenLabelLog
        (.error (.node "label" "add" (.unsupportedType .string))) ∧
      (Event.failed "label" "add" (.unsupportedType .string)).level = .error ∧
      (∃ name kind cause,
        Event.failed "label" "add" (.unsupportedType .string) = .failed name kind cause ∧
          (Registry.builtin.compile brokenLabel).result = .error (.node name kind cause)) ∧
      ∀ event ∈ brokenLabelLog, event.RecordedAt event.level := by
  obtain ⟨hrules, hlast, hlevels⟩ := compile_eq_iff_logs Registry.unattributed_builtin brokenLabel
  have hlog : (Registry.builtin.compile brokenLabel).log = brokenLabelLog := by decide +kernel
  have hresult : (Registry.builtin.compile brokenLabel).result =
      .error (.node "label" "add" (.unsupportedType .string)) := by decide +kernel
  have hlevel : (Event.failed "label" "add" (.unsupportedType .string)).level = .error := rfl
  obtain ⟨-, hnamed⟩ := hlast (brokenLabelLog.take 4) _ [] hlog hlevel
  exact ⟨Registry.unattributed_builtin, hlog, (hrules _ _).mp ⟨hlog, hresult⟩, hlevel,
    hnamed, hlog ▸ hlevels⟩

end Graph

end ShaderGraph
