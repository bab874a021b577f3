import Mathlib.Data.List.Induction
import ShaderGraph.Compile
import ShaderGraph.Proofs.Lists

namespace ShaderGraph

/-!
# Results of computations

When computations that may fail succeed, and with what. Everything that is proved about
compilations starts from these equivalences.

* `bind_eq_ok`, `mapM_eq_ok` — sequences and traversals in `Except`; `bind_eq_error` and
  `mapM_eq_error` tell which of their failures comes first, `exists_split_of_mapM_eq_error` what is
  done before it.
* `IsScan` — a check that goes along a list; `IsScan.append` and `IsScan.eq_error` tell how it goes
  on and where it fails. `foldlM_eq_ok` is for constructions that come from stage to stage.
* `Traced.mapM_result` — the result of a traced traversal is the traversal of the results.
* `Registry.compile_result`, `Registry.compile_eq_ok` — a compilation, its events left out.
* `Registry.nodeCode_eq_ok`, `Graph.nodeCode_eq_ok` — the code of one node.
-/

/-! ### Sequences and traversals -/

section Except

variable {ε α β : Type}

/-- A sequence succeeds if its steps do. -/
theorem bind_eq_ok {x : Except ε α} {f : α → Except ε β} {b : β} :
    x >>= f = .ok b ↔ ∃ a, x = .ok a ∧ f a = .ok b := by
  cases x <;> simp [bind, Except.bind]

/-- A sequence fails with the first failure of a step. -/
theorem bind_eq_error {x : Except ε α} {f : α → Except ε β} {e : ε} :
    x >>= f = .error e ↔ x = .error e ∨ ∃ a, x = .ok a ∧ f a = .error e := by
  cases x <;> simp [bind, Except.bind]

/-- A check in front of a computation has to be passed. -/
theorem seq_eq_ok {x : Except ε Unit} {f : Unit → Except ε β} {b : β} :
    x >>= f = .ok b ↔ x = .ok () ∧ f () = .ok b := by
  cases x <;> simp [bind, Except.bind]

/-- After a success, a computation goes on with its result. -/
@[simp] theorem ok_bind (a : α) (f : α → Except ε β) : Except.ok a >>= f = f a := rfl

/-- After a failure, a computation does not go on. -/
theorem error_bind (e : ε) (f : α → Except ε β) : Except.error e >>= f = .error e := rfl

/-- A result that is returned is the result. -/
theorem pure_eq_ok {a b : α} : (pure a : Except ε α) = .ok b ↔ a = b := by
  simp [pure, Except.pure]

/-- What is made of a result is a result if there is one. -/
theorem map_eq_ok {x : Except ε α} {f : α → β} {b : β} :
    x.map f = .ok b ↔ ∃ a, x = .ok a ∧ f a = b := by
  cases x <;> simp [Except.map]

/-- A change of failures leaves results alone. -/
theorem mapError_eq_ok {ε' : Type} {x : Except ε α} {f : ε → ε'} {a : α} :
    x.mapError f = .ok a ↔ x = .ok a := by
  cases x <;> simp [Except.mapError]

/-- A failure that has been changed is made of a failure. -/
theorem mapError_eq_error {ε' : Type} {x : Except ε α} {f : ε → ε'} {e : ε'} :
    x.mapError f = .error e ↔ ∃ cause, x = .error cause ∧ f cause = e := by
  cases x <;> simp [Except.mapError]

/-- A traversal succeeds with the list of what it gives for each element. -/
theorem mapM_eq_ok {f : α → Except ε β} {l : List α} {l' : List β} :
    l.mapM f = .ok l' ↔ List.Forall₂ (fun a b => f a = .ok b) l l' := by
  induction l generalizing l' with
  | nil => rw [List.mapM_nil, pure_eq_ok, List.forall₂_nil_left_iff, eq_comm]
  | cons a l ih =>
    simp only [List.mapM_cons, bind_eq_ok, pure_eq_ok, List.forall₂_cons_left_iff]
    refine ⟨?_, ?_⟩
    · rintro ⟨b, hb, rest, hrest, rfl⟩
      exact ⟨b, rest, hb, ih.mp hrest, rfl⟩
    · rintro ⟨b, rest, hb, hrest, rfl⟩
      exact ⟨b, hb, rest, ih.mpr hrest, rfl⟩

/-- The results of a traversal are the results for the elements. -/
theorem mem_of_mapM_eq_ok {f : α → Except ε β} {l : List α} {l' : List β}
    (h : l.mapM f = .ok l') {b : β} : b ∈ l' ↔ ∃ a ∈ l, f a = .ok b := by
  rw [mapM_eq_ok] at h
  induction h with
  | nil => simp
  | cons hab _ ih => simp [ih, hab, eq_comm]

/-- A traversal succeeds if and only if it does so on each element. -/
theorem exists_mapM_eq_ok {f : α → Except ε β} {l : List α} :
    (∃ l', l.mapM f = .ok l') ↔ ∀ a ∈ l, ∃ b, f a = .ok b := by
  induction l with
  | nil => simp [pure_eq_ok]
  | cons a l ih =>
    simp only [List.forall_mem_cons, ← ih, List.mapM_cons, bind_eq_ok, pure_eq_ok]
    refine ⟨?_, ?_⟩
    · rintro ⟨_, b, hb, rest, hrest, rfl⟩
      exact ⟨⟨b, hb⟩, rest, hrest⟩
    · rintro ⟨⟨b, hb⟩, rest, hrest⟩
      exact ⟨b :: rest, b, hb, rest, hrest, rfl⟩

/-- A computation succeeds if and only if it has a result. -/
theorem isOk_eq_true {x : Except ε α} : x.isOk = true ↔ ∃ a, x = .ok a := by
  cases x <;> simp [Except.isOk, Except.toBool]

/-- A traversal fails with the failure of the first element on which it does not succeed. -/
theorem mapM_eq_error {f : α → Except ε β} {P : α → Prop} [DecidablePred P]
    (hP : ∀ a, P a ↔ ∃ b, f a = .ok b) {l : List α} {e : ε} :
    l.mapM f = .error e ↔ ∃ a, l.find? (¬ P ·) = some a ∧ f a = .error e := by
  induction l with
  | nil => simp [pure, Except.pure]
  | cons a l ih =>
    rw [List.mapM_cons, List.find?_cons, bind_eq_error]
    cases hfa : f a with
    | error e' =>
      have hfails : decide (¬ P a) = true := by simp [hP, hfa]
      simp only [hfails, Except.error.injEq, reduceCtorEq, false_and, exists_false, or_false,
        Option.some.injEq]
      constructor
      · rintro rfl
        exact ⟨a, rfl, hfa⟩
      · rintro ⟨_, rfl, hfa'⟩
        exact Except.error.inj (hfa.symm.trans hfa')
    | ok b =>
      have hsucceeds : decide (¬ P a) = false := by simp [hP, hfa]
      simp only [hsucceeds, ← ih, reduceCtorEq, false_or, Except.ok.injEq, bind_eq_error, pure]
      constructor
      · rintro ⟨_, -, hrest | ⟨_, -, hdone⟩⟩
        · exact hrest
        · exact absurd hdone (by simp [Except.pure])
      · intro hrest
        exact ⟨b, rfl, .inl hrest⟩

/-- A traversal that fails has succeeded on all elements before the one that ends it. -/
theorem exists_split_of_mapM_eq_error {f : α → Except ε β} {l : List α} {e : ε}
    (h : l.mapM f = .error e) :
    ∃ before a after l', l = before ++ a :: after ∧
      List.Forall₂ (fun a b => f a = .ok b) before l' ∧ f a = .error e := by
  induction l with
  | nil => cases h
  | cons a l ih =>
    rw [List.mapM_cons] at h
    rcases bind_eq_error.mp h with ha | ⟨b, hb, hrest⟩
    · exact ⟨[], a, l, [], rfl, .nil, ha⟩
    · rcases bind_eq_error.mp hrest with hrest | ⟨_, -, hdone⟩
      · obtain ⟨before, c, after, l', rfl, hbefore, hc⟩ := ih hrest
        exact ⟨a :: before, c, after, b :: l', rfl, .cons hb hbefore, hc⟩
      · cases hdone

end Except

/-! ### Scans -/

section Scans

variable {σ α ε : Type} {scan : σ → List α → Except ε Unit} {check : σ → α → Except ε Unit}
  {next : σ → α → σ}

/-- The computation goes through a list element by element. It carries along what `next` makes of
    the elements so far, and ends at the first one at which `check` fails. -/
structure IsScan (scan : σ → List α → Except ε Unit) (check : σ → α → Except ε Unit)
    (next : σ → α → σ) : Prop where
  nil : ∀ s, scan s [] = .ok ()
  cons : ∀ s a l, scan s (a :: l) = check s a >>= fun _ => scan (next s a) l

/-- A scan goes on from where it has come to. -/
theorem IsScan.append (h : IsScan scan check next) (s : σ) (l l' : List α) :
    scan s (l ++ l') = scan s l >>= fun _ => scan (l.foldl next s) l' := by
  induction l generalizing s with
  | nil => rw [h.nil]; rfl
  | cons a l ih =>
    rw [List.cons_append, h.cons, h.cons, List.foldl_cons, bind_assoc]
    exact bind_congr fun _ => ih _

/-- One more element is checked after all others. -/
theorem IsScan.concat (h : IsScan scan check next) (s : σ) (l : List α) (a : α) :
    scan s (l ++ [a]) = scan s l >>= fun _ => check (l.foldl next s) a := by
  rw [h.append]
  refine bind_congr fun _ => ?_
  rw [h.cons]
  cases check (l.foldl next s) a with
  | error e => rfl
  | ok => exact h.nil _

/-- A scan fails at the first element at which its check fails. -/
theorem IsScan.eq_error (h : IsScan scan check next) {s : σ} {l : List α} {e : ε} :
    scan s l = .error e ↔ ∃ before a after, l = before ++ a :: after ∧ scan s before = .ok () ∧
      check (before.foldl next s) a = .error e := by
  constructor
  · intro hscan
    induction l generalizing s with
    | nil => 
      rw [h.nil] at hscan
      cases hscan
    | cons a l ih =>
      rw [h.cons, bind_eq_error] at hscan
      rcases hscan with ha | ⟨_, ha, hl⟩
      · exact ⟨[], a, l, rfl, h.nil s, ha⟩
      · obtain ⟨before, b, after, rfl, hbefore, hb⟩ := ih hl
        refine ⟨a :: before, b, after, rfl, ?_, hb⟩
        rw [h.cons, ha, ok_bind, hbefore]
  · rintro ⟨before, a, after, rfl, hbefore, ha⟩
    rw [h.append, hbefore, ok_bind, h.cons, ha]
    rfl

/-- A fold that comes from each stage of a construction to the next one comes through to the
    last. -/
theorem foldlM_eq_ok {β : Type} {step : β → α → Except ε β} (stage : List α → β) {l : List α}
    (h : ∀ before a after, l = before ++ a :: after →
      step (stage before) a = .ok (stage (before ++ [a]))) :
    l.foldlM step (stage []) = .ok (stage l) := by
  induction l using List.reverseRecOn with
  | nil => rfl
  | append_singleton l a ih =>
    have hl : l.foldlM step (stage []) = .ok (stage l) :=
      ih fun before b after hsplit => h before b (after ++ [a]) (by simp [hsplit])
    rw [List.foldlM_append, hl, ok_bind, List.foldlM_cons, h l a [] rfl]
    rfl

end Scans

/-! ### Traced computations -/

namespace Traced

variable {α β γ : Type}

/-- A computation without events has the result that it had. -/
@[simp] theorem lift_result (x : Except Error α) : (liftM x : Traced α).result = x := rfl
@[simp] theorem record_result (e : Event) : (record e).result = .ok () := rfl

/-- Doing nothing with the result changes nothing. -/
theorem id_map' (x : Traced α) : id <$> x = x := by
  show andThen x (fun a => ofExcept (.ok a)) = x
  obtain ⟨log, result⟩ := x
  cases result <;> simp [andThen, ofExcept]

/-- A result without events can be passed on directly. -/
theorem pure_bind' (a : α) (f : α → Traced β) : pure a >>= f = f a := by
  show andThen (ofExcept (.ok a)) f = f a
  simp [andThen, ofExcept]

/-- Events are in the same order however a sequence is grouped. -/
theorem bind_assoc' (x : Traced α) (f : α → Traced β) (h : β → Traced γ) :
    x >>= f >>= h = x >>= fun a => f a >>= h := by
  show andThen (andThen x f) h = andThen x fun a => andThen (f a) h
  obtain ⟨log, result⟩ := x
  cases result with
  | error e => rfl
  | ok a => cases hf : (f a).result <;> simp [andThen, hf]

/-- Computations that record events are a lawful monad. -/
instance : LawfulMonad Traced := LawfulMonad.mk' Traced id_map' pure_bind' bind_assoc'

/-- The result of a traversal is the traversal of the results. -/
theorem mapM_result (f : α → Traced β) (l : List α) :
    (l.mapM f).result = l.mapM fun a => (f a).result := by
  induction l with
  | nil => rfl
  | cons a l ih => simp only [List.mapM_cons, bind_result, pure_result, ih]; rfl

/-- The failures of a node get its identity, and results stay as they are. -/
theorem inNode_result (n : Node) (x : Traced α) :
    (x.inNode n).result = x.result.mapError (·.inNode n.name n.kind) := by
  unfold inNode
  cases h : x.result <;> simp [h, Except.mapError]

/-- Attaching a node to failures changes no success. -/
theorem inNode_result_eq_ok {n : Node} {x : Traced α} {a : α} :
    (x.inNode n).result = .ok a ↔ x.result = .ok a := by
  rw [inNode_result, mapError_eq_ok]

/-- A failure in a node is a failure to which the node is attached. -/
theorem inNode_result_eq_error {n : Node} {x : Traced α} {e : Error} :
    (x.inNode n).result = .error e ↔
      ∃ cause, x.result = .error cause ∧ e = cause.inNode n.name n.kind := by
  rw [inNode_result, mapError_eq_error]
  exact exists_congr fun cause => and_congr_right fun _ => eq_comm

end Traced

/-! ### Compilations -/

/-- The parts of the code of a node, each of which must succeed. -/
theorem Graph.nodeCode_eq_ok {g : Graph} {n : Node} {ctx : Context} {operations : List Operation}
    {code : NodeCode} :
    g.nodeCode n ctx operations = .ok code ↔
      ∃ parameters arguments locals,
        ctx.parameters.mapM Declaration.ofSocket = .ok parameters ∧
        ctx.inputs.mapM (g.inputArgument n) = .ok arguments ∧
        ctx.outputs.mapM (outputLocal n) = .ok locals ∧
        code = { name := n.name, kind := n.kind, parameters, operations
                 arguments := arguments ++ locals.map (·.name), locals } := by
  simp only [Graph.nodeCode, bind_eq_ok, pure_eq_ok]
  refine ⟨?_, ?_⟩
  · rintro ⟨parameters, hp, arguments, ha, locals, hl, rfl⟩
    exact ⟨parameters, arguments, locals, hp, ha, hl, rfl⟩
  · rintro ⟨parameters, arguments, locals, hp, ha, hl, rfl⟩
    exact ⟨parameters, hp, arguments, ha, locals, hl, rfl⟩

namespace Registry

variable {r : Registry} {g : Graph} {n : Node}

/-- The code of a node, its events left out. -/
theorem nodeCode_result (r : Registry) (g : Graph) (n : Node) :
    (r.nodeCode g n).result = (do
      let ctx ← g.context n
      let adapter ← r.lookup n.kind
      let operations ← adapter.generate ctx
      g.nodeCode n ctx operations) := by
  unfold Registry.nodeCode
  simp only [Traced.bind_result, Traced.lift_result, Traced.record_result, ok_bind]
  refine bind_congr fun ctx => bind_congr fun adapter => bind_congr fun operations => ?_
  -- Whether or not an event is recorded at the end, the code is returned.
  cases g.nodeCode n ctx operations with
  | error e => rfl
  | ok code => rw [ok_bind]; split <;> rfl

/-- The steps to the code of a node, each of which must succeed. -/
theorem nodeCode_eq_ok {code : NodeCode} :
    (r.nodeCode g n).result = .ok code ↔
      ∃ ctx adapter operations, g.context n = .ok ctx ∧ r.lookup n.kind = .ok adapter ∧
        adapter.generate ctx = .ok operations ∧ g.nodeCode n ctx operations = .ok code := by
  rw [nodeCode_result]
  simp only [bind_eq_ok]
  refine ⟨?_, ?_⟩
  · rintro ⟨ctx, hctx, adapter, hadapter, operations, hops, hcode⟩
    exact ⟨ctx, adapter, operations, hctx, hadapter, hops, hcode⟩
  · rintro ⟨ctx, adapter, operations, hctx, hadapter, hops, hcode⟩
    exact ⟨ctx, hctx, adapter, hadapter, operations, hops, hcode⟩

/-- A compilation, its events left out. -/
theorem compile_result (r : Registry) (g : Graph) :
    (r.compile g).result = (do
      g.validate
      let order ← g.executionOrder
      let parameters ← g.interface
      let nodes ← (g.nodesAt order).mapM fun n => (r.compileNode g n).result
      let bindings ← g.bindings
      return ({ parameters, nodes, bindings } : Program)) := by
  unfold compile
  simp only [Traced.bind_result, Traced.lift_result, Traced.record_result, Traced.pure_result,
    Traced.mapM_result, ok_bind]
  rfl

/-- The steps of a compilation, each of which must succeed. -/
theorem compile_eq_ok {p : Program} :
    (r.compile g).result = .ok p ↔
      g.validate = .ok () ∧ ∃ order, g.executionOrder = .ok order ∧
        g.interface = .ok p.parameters ∧
        List.Forall₂ (fun n code => (r.nodeCode g n).result = .ok code) (g.nodesAt order) p.nodes ∧
        g.bindings = .ok p.bindings := by
  rw [compile_result, seq_eq_ok]
  simp only [bind_eq_ok, pure_eq_ok, mapM_eq_ok, compileNode, Traced.inNode_result_eq_ok]
  refine and_congr_right fun _ => exists_congr fun order => and_congr_right fun _ => ?_
  refine ⟨?_, ?_⟩
  · rintro ⟨parameters, hp, nodes, hn, bindings, hb, rfl⟩
    exact ⟨hp, hn, hb⟩
  · rintro ⟨hp, hn, hb⟩
    exact ⟨_, hp, _, hn, _, hb, rfl⟩

end Registry

end ShaderGraph
