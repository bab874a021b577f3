import ShaderGraph.Proofs.Scoping

namespace ShaderGraph

/-!
# Evaluation of programs

What the variables of a program hold when it runs, over any type of values with an operation for
each operator. A variable that nothing has been assigned to is undefined, and so is the outcome of
an operation on it.

* `Arithmetic`, `Env` — operations on values, and the values of variables.
* `Env.setAll` — parameters and locals get their values side by side.
* `Expr.eval`, `runAll` — expressions, and operations one after another.
* `NodeCode.runCall` — the function of a node runs on variables of its own, and the arguments for
  its outputs get what it leaves in them.
* `Program.run`, `Program.results` — the entry function.
-/

universe u

variable {α : Type u}

/-! ### Values -/

/-- What the operators do to values. -/
abbrev Arithmetic (α : Type u) : Type u := Operator → α → α → α

namespace Arithmetic

/-- An operation on values, undefined if one of them is. -/
def apply (A : Arithmetic α) (op : Operator) : Option α → Option α → Option α
  | some x, some y => some (A op x y)
  | _, _ => none

/-- The left fold of values. A lone value is copied. -/
def fold (A : Arithmetic α) (op : Operator) : List (Option α) → Option α
  | [] => none
  | x :: values => values.foldl (A.apply op) x

/-- A fold applies the operator to the last value at the end. -/
theorem fold_concat (A : Arithmetic α) (op : Operator) (x : Option α) (values : List (Option α))
    (y : Option α) : A.fold op (x :: (values ++ [y])) = A.apply op (A.fold op (x :: values)) y :=
  List.foldl_concat ..

end Arithmetic

/-- The values of variables, some of which are undefined. -/
abbrev Env (α : Type u) : Type u := String → Option α

namespace Env

/-- No variable has a value. -/
def empty : Env α := fun _ => none

/-- Gives variables their values, as far as there are both. -/
def setAll (env : Env α) : List String → List (Option α) → Env α
  | name :: names, x :: values => setAll (Function.update env name x) names values
  | _, _ => env

/-- Variables that are not assigned keep their values. -/
theorem setAll_of_not_mem {env : Env α} {names : List String} {values : List (Option α)}
    {name : String} (h : name ∉ names) : env.setAll names values name = env name := by
  induction names generalizing env values with
  | nil => rfl
  | cons other names ih =>
    rw [List.mem_cons, not_or] at h
    cases values with
    | nil => rfl
    | cons x values => rw [setAll, ih h.2, Function.update_of_ne h.1]

/-- Distinct variables get the values that they are given. -/
theorem map_setAll {env : Env α} {names : List String} {values : List (Option α)}
    (hnames : names.Nodup) (hlength : names.length = values.length) :
    names.map (env.setAll names values) = values := by
  induction names generalizing env values with
  | nil => rw [List.map_nil, List.length_eq_zero_iff.mp hlength.symm]
  | cons name names ih =>
    obtain ⟨hname, hnames⟩ := List.nodup_cons.mp hnames
    cases values with
    | nil => exact absurd hlength (by simp)
    | cons x values =>
      have hlength : names.length = values.length := by simpa using hlength
      rw [List.map_cons, setAll, setAll_of_not_mem hname, Function.update_self, ih hnames hlength]

end Env

/-! ### Expressions and operations -/

/-- The value of an expression, and what the variables hold after its evaluation. -/
def Expr.eval (A : Arithmetic α) : Expr → Env α → Option α × Env α
  | var name, env => (env name, env)
  | assign target value, env =>
    let (x, env) := value.eval A env
    (x, Function.update env target x)
  | binary op lhs rhs, env =>
    let (x, env) := lhs.eval A env
    let (y, env) := rhs.eval A env
    (A.apply op x y, env)

/-- What the variables hold after an operation. -/
def Operation.run (A : Arithmetic α) (o : Operation) (env : Env α) : Env α :=
  (o.toExpr.eval A env).2

/-- What the variables hold after operations one after another. -/
def runAll (A : Arithmetic α) (operations : List Operation) (env : Env α) : Env α :=
  operations.foldl (fun env o => o.run A env) env

/-- A combination of variables is the left fold of their values. -/
theorem eval_combine (A : Arithmetic α) (env : Env α) (op : Operator) (first : String)
    (others : List String) :
    (combine op first others).eval A env = (A.fold op ((first :: others).map env), env) := by
  -- The last variable is evaluated last, and combined with the value of all before it.
  induction others using List.reverseRecOn with
  | nil => rfl
  | append_singleton others last ih =>
    rw [combine_concat, Expr.eval, ih]
    show (A.apply op (A.fold op ((first :: others).map env)) (env last), env) = _
    rw [List.map_cons, List.map_cons, List.map_append, List.map_singleton, A.fold_concat]

/-- The operation for a node assigns the left fold of its inputs. -/
theorem runAll_operation (A : Arithmetic α) (op : Operator) (first : SocketDecl)
    (others : List SocketDecl) (env : Env α) :
    runAll A [op.operation first others] env =
      Function.update env (Naming.variableName op.resultSocket)
        (A.fold op
          (((first :: others).map fun decl => Naming.variableName decl.name).map env)) := by
  show Function.update ((combine op _ _).eval A env).2 _ ((combine op _ _).eval A env).1 = _
  rw [eval_combine]
  rfl

/-- Distinct variables that are assigned others one by one could as well get them side by side. -/
theorem runAll_assign (A : Arithmetic α) {targets sources : List String} (htargets : targets.Nodup)
    (hsources : ∀ source ∈ sources, source ∉ targets) (env : Env α) :
    runAll A
      (List.zipWith (fun target source => .assign target (.var source)) targets sources) env =
      env.setAll targets (sources.map env) := by
  induction targets generalizing sources env with
  | nil => rfl
  | cons target targets ih =>
    obtain ⟨-, htargets⟩ := List.nodup_cons.mp htargets
    cases sources with
    | nil => rfl
    | cons source sources =>
      obtain ⟨-, hsources⟩ := List.forall_mem_cons.mp hsources
      -- The first assignment leaves the other sources as they are.
      have hkeep : sources.map (Function.update env target (env source)) = sources.map env := by
        refine List.map_congr_left fun other hother => Function.update_of_ne ?_ _ _
        exact List.ne_of_not_mem_cons (hsources other hother)
      have hrest : ∀ other ∈ sources, other ∉ targets := fun other hother =>
        List.not_mem_of_not_mem_cons (hsources other hother)
      rw [List.zipWith_cons_cons, runAll, List.foldl_cons, List.map_cons, Env.setAll, ← hkeep]
      exact ih htargets hrest (Function.update env target (env source))

/-! ### Calls and programs -/

/-- The variables of a node's function when its body begins. -/
def NodeCode.frame (code : NodeCode) (env : Env α) : Env α :=
  Env.empty.setAll (Declaration.inputNames code.parameters) (code.inputArguments.map env)

/-- What the variables of the entry function hold after a call. -/
def NodeCode.runCall (A : Arithmetic α) (code : NodeCode) (env : Env α) : Env α :=
  env.setAll code.outArguments
    ((Declaration.outNames code.parameters).map (runAll A code.operations (code.frame env)))

/-- What the variables of the entry function hold after calls one after another. -/
def runCalls (A : Arithmetic α) (codes : List NodeCode) (env : Env α) : Env α :=
  codes.foldl (fun env code => code.runCall A env) env

namespace Program

/-- What the variables of the entry function hold in the end. -/
def run (A : Arithmetic α) (p : Program) (arguments : List (Option α)) : Env α :=
  runAll A p.bindings
    (runCalls A p.nodes (Env.empty.setAll (Declaration.inputNames p.parameters) arguments))

/-- What the entry function gives back. -/
def results (A : Arithmetic α) (p : Program) (arguments : List (Option α)) : List (Option α) :=
  (Declaration.outNames p.parameters).map (p.run A arguments)

end Program

/-- A call changes nothing but its out arguments. -/
theorem NodeCode.runCall_of_not_mem (A : Arithmetic α) {code : NodeCode} {env : Env α}
    {name : String} (h : name ∉ code.outArguments) : code.runCall A env name = env name :=
  Env.setAll_of_not_mem h

end ShaderGraph
