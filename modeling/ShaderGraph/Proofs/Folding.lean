import Mathlib.Data.List.Induction
import ShaderGraph.Proofs.Arithmetic

namespace ShaderGraph

/-!
# Folded inputs

What folding the inputs of a node gives in every case: which failure comes first, and else an
assignment of a chain that leans to the left. Operators associate to the left, so such a chain is
written without parentheses.

* `Expr.ReadsDown` — what is read off an expression, from the whole to its left operand and so on.
* `readsDown_combine`, `render_combine` — the operands of a chain, and its text.
* `foldInputs_eq_of_nil`, `foldInputs_eq_of_cons` — the cases of a fold.
* `foldInputs_characterized` — the cases together with what is assigned.
-/

/-! ### Readings -/

/-- What is read off an expression if the operation that it is, then its left operand and so on are
    taken apart: the first operand, and the others with the operators in front of them. The reading
    ends where there is no arithmetic operation. -/
inductive Expr.ReadsDown : Expr → Expr → List (Operator × Expr) → Prop where
  | head {e : Expr} (h : ∀ o : Operation, o.toExpr = e → o.binary? = none) : ReadsDown e e []
  | operand {e lhs rhs head : Expr} {o : Operation} {op : Operator} {rest : List (Operator × Expr)}
    (he : o.toExpr = e) (h : o.binary? = some (op, lhs, rhs)) (hlhs : ReadsDown lhs head rest) :
    ReadsDown e head (rest ++ [(op, rhs)])

/-- Nothing but itself is read off a variable. -/
theorem readsDown_var {name : String} {head : Expr} {rest : List (Operator × Expr)} :
    (Expr.var name).ReadsDown head rest ↔ head = .var name ∧ rest = [] := by
  constructor
  · intro h
    cases h with
    | head => exact ⟨rfl, rfl⟩
    | @operand _ _ _ _ o _ _ he => cases o <;> cases he
  · rintro ⟨rfl, rfl⟩
    refine .head fun o ho => ?_
    cases o <;> cases ho

/-- The reading of an arithmetic operation is that of its left operand, and then the right one. -/
theorem readsDown_binary {op : Operator} {lhs rhs head : Expr} {rest : List (Operator × Expr)} :
    (Expr.binary op lhs rhs).ReadsDown head rest ↔
      ∃ others, lhs.ReadsDown head others ∧ rest = others ++ [(op, rhs)] := by
  constructor
  · intro h
    cases h with
    | head h => cases h (.binary op lhs rhs) rfl
    | @operand _ lhs rhs _ o op rest he h hlhs =>
      cases o with
      | assign => cases he
      | binary =>
        cases he
        cases h
        exact ⟨rest, hlhs, rfl⟩
  · rintro ⟨others, hlhs, rfl⟩
    exact .operand (o := .binary op lhs rhs) rfl rfl hlhs

variable (op : Operator) (first : String) (others : List String)

/-- A chain is read off as it is, and in no other way. -/
theorem readsDown_combine {head : Expr} {rest : List (Operator × Expr)} :
    (combine op first others).ReadsDown head rest ↔
      head = .var first ∧ rest = others.map fun name => (op, .var name) := by
  induction others using List.reverseRecOn generalizing rest with
  | nil => exact readsDown_var
  | append_singleton others last ih =>
    rw [combine_concat, readsDown_binary, List.map_append]
    constructor
    · rintro ⟨read, hread, rfl⟩
      obtain ⟨rfl, rfl⟩ := ih.mp hread
      exact ⟨rfl, rfl⟩
    · rintro ⟨rfl, rfl⟩
      exact ⟨_, ih.mpr ⟨rfl, rfl⟩, rfl⟩

/-! ### Texts -/

/-- A chain is written without parentheses wherever its operator may stand. -/
theorem render_combine {level : Nat} (hlevel : level ≤ op.precedence) :
    (combine op first others).render level =
      (" " ++ op.symbol ++ " ").intercalate (first :: others) := by
  induction others using List.reverseRecOn generalizing level with
  | nil => exact String.intercalate_singleton.symm
  | append_singleton others last ih =>
    have hopen : decide (op.precedence < level) = false := by simpa using hlevel
    rw [combine_concat, Expr.render, hopen, ih (Nat.le_refl _), ← List.cons_append,
      String.intercalate_append_of_ne_nil (List.cons_ne_nil _ _) (List.cons_ne_nil _ _),
      String.intercalate_singleton]
    rfl

/-- A chain is assigned in a statement that holds nothing but names, operators and blanks. -/
theorem statement_combine (target : String) :
    (Operation.assign target (combine op first others)).statement =
      target ++ " = " ++ (" " ++ op.symbol ++ " ").intercalate (first :: others) ++ ";" := by
  have hlevel : 1 ≤ op.precedence := by cases op <;> decide
  rw [Operation.statement, Operation.toExpr, Expr.render, render_combine op first others hlevel]
  rfl

/-- A character that is not in the separator is in one of the parts. -/
theorem mem_intercalate {c : Char} {separator : String} (hc : c ∉ separator.toList)
    {names : List String} :
    c ∈ (separator.intercalate names).toList ↔ ∃ name ∈ names, c ∈ name.toList := by
  induction names with
  | nil => simp
  | cons name names ih =>
    cases names with
    | nil => simp
    | cons next names =>
      rw [String.intercalate_cons_cons, String.toList_append, String.toList_append, List.mem_append,
        List.mem_append, ih]
      simp [hc]

/-- Parentheses in such a statement are parts of the names. -/
theorem parenthesis_mem_statement {c : Char} (hc : c = '(' ∨ c = ')') (target : String) :
    c ∈ (Operation.assign target (combine op first others)).statement.toList ↔
      ∃ name ∈ target :: first :: others, c ∈ name.toList := by
  have hseparator : c ∉ (" " ++ op.symbol ++ " ").toList := by
    rcases hc with rfl | rfl <;> cases op <;> decide
  rw [statement_combine, String.toList_append, String.toList_append, String.toList_append,
    List.mem_append, List.mem_append, List.mem_append, mem_intercalate hseparator]
  have hmarks : c ∉ " = ".toList ∧ c ∉ ";".toList := by
    rcases hc with rfl | rfl <;> decide
  simp only [hmarks.1, hmarks.2, or_false, List.mem_cons, exists_eq_or_imp]

/-! ### Folds -/

/-- A name that no socket has is reported as missing. -/
theorem Context.find_eq_error {sockets : List Socket} {name : String}
    (h : name ∉ sockets.map (·.name)) : find name sockets = .error (.missingSocket name) := by
  have hnone : sockets.find? (·.name == name) = none := by
    rw [List.find?_eq_none]
    intro s hs hname
    exact h (List.mem_map.mpr ⟨s, hs, by simpa using hname⟩)
  rw [find, hnone]

/-- A socket of a name is found if there is one. -/
theorem Context.exists_find_eq_ok {sockets : List Socket} {name : String}
    (h : name ∈ sockets.map (·.name)) : ∃ s, find name sockets = .ok s ∧ s.name = name := by
  obtain ⟨s, hs, hname⟩ := List.mem_map.mp h
  cases hfind : sockets.find? (·.name == name) with
  | none => exact absurd (by simpa using hname) (List.find?_eq_none.mp hfind s hs)
  | some found =>
    have hfound := List.find?_some hfind
    exact ⟨found, by rw [find, hfind], by simpa using hfound⟩

variable (ctx : Context) (output : String)

/-- Without inputs there is nothing to fold. -/
theorem foldInputs_eq_of_nil (hinputs : ctx.inputs = []) :
    foldInputs ctx op output =
      .error
        (.contractViolation s!"node writing '{output}' requires at least one bound input") := by
  rw [foldInputs, hinputs]

/-- With inputs, the output is looked for first, and then the name of a lone input is looked at. -/
theorem foldInputs_eq_of_cons {input : Socket} {inputs : List Socket}
    (hinputs : ctx.inputs = input :: inputs) :
    foldInputs ctx op output =
      if output ∉ ctx.outputs.map (·.name) then .error (.missingSocket output)
      else if inputs = [] ∧ input.name ≠ loneInput then .error (.missingSocket loneInput)
      else .ok [.assign (Naming.variableName output)
        (combine op input.varName (inputs.map (·.varName)))] := by
  have hfold : foldInputs ctx op output = ctx.output output >>= fun target =>
      foldedValue ctx op input inputs >>= fun value => pure [.assign target.varName value] := by
    rw [foldInputs, hinputs]
  rw [hfold]
  by_cases houtput : output ∈ ctx.outputs.map (·.name)
  · obtain ⟨target, htarget, rfl⟩ := Context.exists_find_eq_ok houtput
    rw [if_neg (not_not_intro houtput), Context.output, htarget, ok_bind]
    by_cases hlone : inputs = [] ∧ input.name ≠ loneInput
    · obtain ⟨rfl, hname⟩ := hlone
      have hmissing : loneInput ∉ [input].map (·.name) := by simpa using hname.symm
      rw [if_pos ⟨rfl, hname⟩, foldedValue, Context.input, hinputs, Context.find_eq_error hmissing]
      rfl
    · -- A lone input that has the right name is a chain by itself.
      have hvalue : foldedValue ctx op input inputs =
          .ok (combine op input.varName (inputs.map (·.varName))) := by
        refine (foldedValue_eq_ok hinputs).mpr ⟨fun hnil => ?_, rfl⟩
        by_contra hname
        exact hlone ⟨hnil, hname⟩
      rw [if_neg hlone, hvalue]
      rfl
  · rw [if_pos houtput, Context.output, Context.find_eq_error houtput]
    rfl

/-- **Folded inputs.** Folding fails for want of inputs if there are none, else for want of the
    output if there is none of that name, else for want of a first input if the only one is called
    otherwise. Else it gives one assignment to the variable of the output. Its value leans to the
    left, and what is read down from it are the variables of all inputs, in their order and with the
    operator between them. Its statement joins the same variables by that operator. No parentheses
    are put in: those that the statement has are in the names. -/
theorem foldInputs_characterized (ctx : Context) (op : Operator) (output : String) :
    ((∃ reason, foldInputs ctx op output = .error (.contractViolation reason)) ↔ ctx.inputs = []) ∧
    ∀ first others, ctx.inputs = first :: others →
      ∃ value,
        foldInputs ctx op output =
          (if output ∉ ctx.outputs.map (·.name) then .error (.missingSocket output)
          else if others = [] ∧ first.name ≠ "input1" then .error (.missingSocket "input1")
          else .ok [.assign (Naming.variableName output) value]) ∧
        value =
          others.foldl (fun lhs input => .binary op lhs (.var input.varName)) (.var first.varName) ∧
        (∀ head rest, value.ReadsDown head rest ↔
          head = .var first.varName ∧ rest = others.map fun input => (op, .var input.varName)) ∧
        (Operation.assign (Naming.variableName output) value).statement =
          Naming.variableName output ++ " = " ++
            (" " ++ op.symbol ++ " ").intercalate (ctx.inputs.map (·.varName)) ++ ";" ∧
        ∀ c, c = '(' ∨ c = ')' →
          (c ∈ (Operation.assign (Naming.variableName output) value).statement.toList ↔
            ∃ name ∈ Naming.variableName output :: ctx.inputs.map (·.varName),
              c ∈ name.toList) := by
  constructor
  · constructor
    · rintro ⟨reason, h⟩
      cases hinputs : ctx.inputs with
      | nil => rfl
      | cons input inputs =>
        rw [foldInputs_eq_of_cons op ctx output hinputs] at h
        split at h
        · cases h
        · split at h <;> cases h
    · intro hinputs
      exact ⟨_, foldInputs_eq_of_nil op ctx output hinputs⟩
  · intro first others hinputs
    refine ⟨combine op first.varName (others.map Socket.varName),
      foldInputs_eq_of_cons op ctx output hinputs, ?_, fun head rest => ?_, ?_, fun c hc => ?_⟩
    · rw [combine, List.foldl_map]
    · rw [readsDown_combine, List.map_map]
      rfl
    · rw [statement_combine, hinputs, List.map_cons]
    · rw [parenthesis_mem_statement op _ _ hc, hinputs, List.map_cons]

/-- Three inputs whose order is not that of their names. -/
def shuffledContext : Context where
  inputs := [⟨"input3", .float, .input⟩, ⟨"input1", .float, .input⟩, ⟨"input2", .float, .input⟩]
  outputs := [⟨"out", .float, .output⟩]

/-- The inputs of `shuffledContext` are subtracted in the order in which they were added. -/
theorem foldInputs_characterized_shuffledContext :
    shuffledContext.inputs =
        ⟨"input3", .float, .input⟩ :: [⟨"input1", .float, .input⟩, ⟨"input2", .float, .input⟩] ∧
      ∃ value, foldInputs shuffledContext .subtract "out" = .ok [.assign "_out" value] ∧
        value.ReadsDown (.var "_input3")
          [(.subtract, .var "_input1"), (.subtract, .var "_input2")] ∧
        (Operation.assign "_out" value).statement = "_out = _input3 - _input1 - _input2;" := by
  obtain ⟨value, hfold, -, hreads, hstatement, -⟩ :=
    (foldInputs_characterized shuffledContext .subtract "out").2 _ _ rfl
  have htarget : Naming.variableName "out" = "_out" := by decide +kernel
  rw [htarget] at hfold hstatement
  exact ⟨rfl, value, hfold, (hreads _ _).mpr (by decide +kernel),
    hstatement.trans (by decide +kernel)⟩

end ShaderGraph
