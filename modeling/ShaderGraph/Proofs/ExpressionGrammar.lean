import ShaderGraph.Proofs.Evaluation
import ShaderGraph.Proofs.ExpressionReader

namespace ShaderGraph

/-!
# Grammar of expressions

How the shading language reads the text of an expression, and that it cannot be read in two ways.

* `Interpretation` — what is made of the parts of an expression: its tree, its value, or anything
  else.
* `Derives` — the grammar: sums of terms, terms of factors, and factors, which are names or stand in
  parentheses. `DerivesOperation` adds assignments that end in a semicolon.
* `Derives.exists_tree`, `Derives.interpret` — whatever is made of a text is made of a tree of it.
* `Derives.readsOperand` — a text has one tree at most, the one that `ExprReader` reads.
* `derives_tokens` — an expression is a tree of its text.
* `text_unambiguous` — what the grammar makes of the text of an expression or an operation.
-/

universe u

variable {β : Type u}

/-! ### Interpretations -/

/-- What is made of the parts of an expression. -/
structure Interpretation (β : Type u) where
  var : String → β
  assign : String → β → β
  binary : Operator → β → β → β

/-- What is made of an expression. -/
def Expr.interpret (I : Interpretation β) : Expr → β
  | var name => I.var name
  | assign target value => I.assign target (value.interpret I)
  | binary op lhs rhs => I.binary op (lhs.interpret I) (rhs.interpret I)

/-- Parts are put together as a tree. -/
def Interpretation.tree : Interpretation Expr := ⟨.var, .assign, .binary⟩

/-- As a tree, an expression is itself. -/
@[simp] theorem Expr.interpret_tree (e : Expr) : e.interpret .tree = e := by
  induction e with
  | var name => rfl
  | assign target value ih => rw [interpret, ih]; rfl
  | binary op lhs rhs ihl ihr => rw [interpret, ihl, ihr]; rfl

/-- Parts are evaluated from left to right. -/
def Arithmetic.evaluation {α : Type u} (A : Arithmetic α) :
    Interpretation (Env α → Option α × Env α) where
  var name env := (env name, env)
  assign target value env :=
    let (x, env) := value env
    (x, Function.update env target x)
  binary op lhs rhs env :=
    let (x, env) := lhs env
    let (y, env) := rhs env
    (A.apply op x y, env)

/-- Under an arithmetic, an expression is its value. -/
theorem Expr.interpret_evaluation {α : Type u} (A : Arithmetic α) (e : Expr) :
    e.interpret A.evaluation = e.eval A := by
  induction e with
  | var name => rfl
  | assign target value ih => rw [interpret, ih]; rfl
  | binary op lhs rhs ihl ihr => rw [interpret, ihl, ihr]; rfl

/-! ### The grammar -/

/-- The kinds of expressions that the grammar tells apart. -/
inductive Phrase where
  | sum
  | term
  | factor
deriving DecidableEq, Repr

/-- The grammar of expressions: the tokens are a phrase of which `I` makes the given result. Sums
    and terms are made from the left. -/
inductive Derives (I : Interpretation β) : Phrase → List Token → β → Prop where
  | name {x : String} (hx : Naming.isIdentifier x = true) : Derives I .factor [.word x] (I.var x)
  | enclosed {ts : List Token} {b : β} (h : Derives I .sum ts b) :
    Derives I .factor (.mark '(' :: ts ++ [.mark ')']) b
  | assignment {x : String} {ts : List Token} {b : β} (hx : Naming.isIdentifier x = true)
    (h : Derives I .sum ts b) :
    Derives I .factor (.mark '(' :: (.word x :: .mark '=' :: ts) ++ [.mark ')']) (I.assign x b)
  | factor {ts : List Token} {b : β} (h : Derives I .factor ts b) : Derives I .term ts b
  | product {op : Operator} {ts us : List Token} {a b : β} (hop : op = .multiply ∨ op = .divide)
    (hl : Derives I .term ts a) (hr : Derives I .factor us b) :
    Derives I .term (ts ++ .operator op :: us) (I.binary op a b)
  | term {ts : List Token} {b : β} (h : Derives I .term ts b) : Derives I .sum ts b
  | sum {op : Operator} {ts us : List Token} {a b : β} (hop : op = .add ∨ op = .subtract)
    (hl : Derives I .sum ts a) (hr : Derives I .term us b) :
    Derives I .sum (ts ++ .operator op :: us) (I.binary op a b)

/-- The grammar of operations: an assignment that ends in a semicolon, or an expression. -/
inductive DerivesOperation (I : Interpretation β) : List Token → β → Prop where
  | assignment {x : String} {ts : List Token} {b : β} (hx : Naming.isIdentifier x = true)
    (h : Derives I .sum ts b) :
    DerivesOperation I (.word x :: .mark '=' :: ts ++ [.mark ';']) (I.assign x b)
  | expression {ts : List Token} {b : β} (h : Derives I .sum ts b) : DerivesOperation I ts b

variable {I : Interpretation β} {phrase : Phrase} {ts : List Token} {b : β} {e : Expr}

/-! ### Trees -/

/-- Whatever is made of a text is made of a tree of it. -/
theorem Derives.exists_tree (h : Derives I phrase ts b) :
    ∃ e, Derives .tree phrase ts e ∧ e.interpret I = b := by
  induction h with
  | @name x hx => exact ⟨.var x, .name hx, rfl⟩
  | enclosed _ ih =>
    obtain ⟨e, he, rfl⟩ := ih
    exact ⟨e, .enclosed he, rfl⟩
  | @assignment x _ _ hx _ ih =>
    obtain ⟨e, he, rfl⟩ := ih
    exact ⟨.assign x e, .assignment hx he, rfl⟩
  | factor _ ih =>
    obtain ⟨e, he, rfl⟩ := ih
    exact ⟨e, .factor he, rfl⟩
  | @product op _ _ _ _ hop _ _ ihl ihr =>
    obtain ⟨lhs, hlhs, rfl⟩ := ihl
    obtain ⟨rhs, hrhs, rfl⟩ := ihr
    exact ⟨.binary op lhs rhs, .product hop hlhs hrhs, rfl⟩
  | term _ ih =>
    obtain ⟨e, he, rfl⟩ := ih
    exact ⟨e, .term he, rfl⟩
  | @sum op _ _ _ _ hop _ _ ihl ihr =>
    obtain ⟨lhs, hlhs, rfl⟩ := ihl
    obtain ⟨rhs, hrhs, rfl⟩ := ihr
    exact ⟨.binary op lhs rhs, .sum hop hlhs hrhs, rfl⟩

/-- What derives an expression as a tree derives it in any interpretation. -/
theorem Derives.interpret (h : Derives .tree phrase ts e) (I : Interpretation β) :
    Derives I phrase ts (e.interpret I) := by
  induction h with
  | name hx => exact .name hx
  | enclosed _ ih => exact .enclosed ih
  | assignment hx _ ih => exact .assignment hx ih
  | factor _ ih => exact .factor ih
  | product hop _ _ ihl ihr => exact .product hop ihl ihr
  | term _ ih => exact .term ih
  | sum hop _ _ ihl ihr => exact .sum hop ihl ihr

/-! ### Precedence -/

/-- How tightly a phrase binds. -/
def Phrase.level : Phrase → Nat
  | sum => 1
  | term => 2
  | factor => 3

/-- There are two precedences, with two operators each. -/
theorem Operator.precedence_cases (op : Operator) :
    op.precedence = 1 ∧ (op = .add ∨ op = .subtract) ∨
      op.precedence = 2 ∧ (op = .multiply ∨ op = .divide) := by
  cases op <;> decide

/-- Sums have the lower precedence. -/
theorem Operator.precedence_eq_one {op : Operator} (h : op = .add ∨ op = .subtract) :
    op.precedence = 1 := by
  rcases h with rfl | rfl <;> rfl

/-- Products have the higher precedence. -/
theorem Operator.precedence_eq_two {op : Operator} (h : op = .multiply ∨ op = .divide) :
    op.precedence = 2 := by
  rcases h with rfl | rfl <;> rfl

/-- The reader reads a phrase as its tree, so a phrase has one tree. -/
theorem Derives.readsOperand (h : Derives .tree phrase ts e) :
    ExprReader.ReadsOperand phrase.level ts e := by
  induction h with
  | @name x _ => exact ExprReader.readsOperand_name 3 x
  | enclosed _ ih => exact ih.alone.enclosed 3
  | @assignment x _ _ _ _ ih => exact (ih.assign x).enclosed 3
  | factor _ ih => exact ih.mono (by decide)
  | product hop _ _ ihl ihr => exact .binary (Operator.precedence_eq_two hop) ihl ihr
  | term _ ih => exact ih.mono (by decide)
  | sum hop _ _ ihl ihr => exact .binary (Operator.precedence_eq_one hop) ihl ihr

/-- Tokens derive one tree as a phrase. -/
theorem Derives.unique {e' : Expr} (h : Derives .tree phrase ts e)
    (h' : Derives .tree phrase ts e') :
    e = e' :=
  Option.some.inj (h.readsOperand.alone.read?_eq.symm.trans h'.readsOperand.alone.read?_eq)

/-- A factor may stand for any phrase. -/
theorem Derives.of_factor (h : Derives I .factor ts b) (phrase : Phrase) : Derives I phrase ts b :=
  match phrase with
  | .sum => .term (.factor h)
  | .term => .factor h
  | .factor => h

/-- The marks in a phrase are parentheses and equals signs. -/
theorem Derives.mark_mem {c : Char} (h : Derives I phrase ts b) (hc : .mark c ∈ ts) :
    c = '(' ∨ c = ')' ∨ c = '=' := by
  induction h with
  | name _ => simp at hc
  | enclosed _ ih =>
    simp only [List.cons_append, List.mem_cons, List.mem_append, Token.mark.injEq,
      List.not_mem_nil, or_false] at hc
    tauto
  | assignment _ _ ih =>
    simp only [List.cons_append, List.mem_cons, List.mem_append, Token.mark.injEq, reduceCtorEq,
      List.not_mem_nil, or_false, false_or] at hc
    tauto
  | factor _ ih => exact ih hc
  | product _ _ _ ihl ihr =>
    simp only [List.mem_append, List.mem_cons, reduceCtorEq, false_or] at hc
    exact hc.elim ihl ihr
  | term _ ih => exact ih hc
  | sum _ _ _ ihl ihr =>
    simp only [List.mem_append, List.mem_cons, reduceCtorEq, false_or] at hc
    exact hc.elim ihl ihr

/-! ### Tokens of expressions -/

/-- An operation without parentheses is a phrase unless more is asked for than its operator
    gives. -/
theorem derives_open {op : Operator} {lhs rhs : Expr}
    (hl : ∀ phrase : Phrase, Derives .tree phrase (lhs.tokens phrase.level) lhs)
    (hr : ∀ phrase : Phrase, Derives .tree phrase (rhs.tokens phrase.level) rhs)
    (hlevel : phrase.level ≤ op.precedence) :
    Derives .tree phrase
      (lhs.tokens op.precedence ++ .operator op :: rhs.tokens (op.precedence + 1))
      (.binary op lhs rhs) := by
  rcases op.precedence_cases with ⟨hone, hop⟩ | ⟨htwo, hop⟩
  · rw [hone] at hlevel ⊢
    have hsum := Derives.sum hop (hl .sum) (hr .term)
    cases phrase with
    | sum => exact hsum
    | term => exact absurd hlevel (by decide)
    | factor => exact absurd hlevel (by decide)
  · rw [htwo] at hlevel ⊢
    have hterm := Derives.product hop (hl .term) (hr .factor)
    cases phrase with
    | sum => exact .term hterm
    | term => exact hterm
    | factor => exact absurd hlevel (by decide)

/-- An expression over identifiers is a tree of its tokens. -/
theorem derives_tokens (he : ∀ name ∈ e.names, Naming.isIdentifier name = true) (phrase : Phrase) :
    Derives .tree phrase (e.tokens phrase.level) e := by
  induction e generalizing phrase with
  | var name => exact (Derives.name (he name List.mem_cons_self)).of_factor phrase
  | assign target value ih =>
    obtain ⟨htarget, hvalue⟩ := List.forall_mem_cons.mp he
    have hlevel : 0 < phrase.level := by cases phrase <;> decide
    rw [Expr.tokens, ExprReader.encloseTokens_of_lt hlevel]
    exact (Derives.assignment htarget (ih hvalue .sum)).of_factor phrase
  | binary op lhs rhs ihl ihr =>
    obtain ⟨hlhs, hrhs⟩ := List.forall_mem_append.mp he
    have hopen : ∀ {phrase : Phrase}, phrase.level ≤ op.precedence → Derives .tree phrase _ _ :=
      derives_open (ihl hlhs) (ihr hrhs)
    rw [Expr.tokens]
    rcases Nat.lt_or_ge op.precedence phrase.level with hlevel | hlevel
    · rw [ExprReader.encloseTokens_of_lt hlevel]
      have hsum : Derives .tree .sum _ _ := hopen (ExprReader.precedence_pos op)
      exact hsum.enclosed.of_factor phrase
    · rw [ExprReader.encloseTokens_of_le hlevel]
      exact hopen hlevel

/-! ### Texts -/

/-- What the grammar makes of the tokens of an expression is what is made of its tree. -/
theorem derives_tokens_iff (he : ∀ name ∈ e.names, Naming.isIdentifier name = true)
    (I : Interpretation β) : Derives I .sum (e.tokens 1) b ↔ b = e.interpret I := by
  have htree := derives_tokens he .sum
  constructor
  · intro h
    obtain ⟨e', he', rfl⟩ := h.exists_tree
    rw [he'.unique htree]
  · rintro rfl
    exact htree.interpret I

/-- The tokens of the text of an expression are those of the expression. -/
theorem tokens_text (he : ∀ name ∈ e.names, Naming.isIdentifier name = true) :
    tokens e.text = e.tokens 1 :=
  (Expr.spells_render he 1).tokens_eq

namespace Operation

/-- The tokens of the text of an assignment are its target, the mark, those of its value and the
    end. -/
theorem tokens_text_assign {target : String} {value : Expr}
    (ho : ∀ name ∈ target :: value.names, Naming.isIdentifier name = true) :
    tokens (assign target value).text =
      .word target :: .mark '=' :: value.tokens 1 ++ [.mark ';'] := by
  have hsemicolon : Parted ";" [.mark ';'] := parted_of_all (by decide) (by decide)
  have hrender := Expr.spells_render (e := .assign target value) ho 0
  exact (hrender.append_parted hsemicolon rfl (by decide)).spells.tokens_eq

/-- An arithmetic operation has the text of its expression. -/
theorem text_binary (op : Operator) (lhs rhs : Expr) :
    (binary op lhs rhs).text = (Expr.binary op lhs rhs).text := by
  have hlevel : ¬ op.precedence < 1 := Nat.not_lt_of_le (ExprReader.precedence_pos op)
  simp [text, toExpr, Expr.text, Expr.render, hlevel]

/-- Different operations are different expressions. -/
theorem toExpr_injective : Function.Injective toExpr := by
  intro o o' h
  cases o <;> cases o' <;> simp_all [toExpr]

end Operation

/-- What the grammar makes of the text of an operation is what is made of its tree. -/
theorem derivesOperation_text_iff {o : Operation}
    (ho : ∀ name ∈ o.toExpr.names, Naming.isIdentifier name = true) (I : Interpretation β) :
    DerivesOperation I (tokens o.text) b ↔ b = o.toExpr.interpret I := by
  -- The semicolon tells assignments from expressions.
  cases o with
  | assign target value =>
    obtain ⟨htarget, hvalue⟩ := List.forall_mem_cons.mp ho
    rw [Operation.tokens_text_assign ho]
    constructor
    · intro h
      generalize hts : Token.word target :: .mark '=' :: value.tokens 1 ++ [.mark ';'] = ts at h
      cases h with
      | assignment hx h =>
        simp only [List.cons_append, List.cons.injEq, Token.word.injEq, true_and,
          List.append_cancel_right_eq] at hts
        obtain ⟨rfl, rfl⟩ := hts
        rw [(derives_tokens_iff hvalue I).mp h]
        rfl
      | expression h => exact absurd (h.mark_mem (c := ';') (by simp [← hts])) (by decide)
    · rintro rfl
      exact .assignment htarget ((derives_tokens_iff hvalue I).mpr rfl)
  | binary op lhs rhs =>
    rw [Operation.text_binary, tokens_text (e := .binary op lhs rhs) ho]
    constructor
    · intro h
      generalize hts : (Expr.binary op lhs rhs).tokens 1 = ts at h
      cases h with
      | assignment _ _ =>
        have hsemicolon : .mark ';' ∈ (Expr.binary op lhs rhs).tokens 1 := by simp [hts]
        exact absurd (Expr.mark_mem_tokens hsemicolon) (by decide)
      | expression h => exact (derives_tokens_iff ho I).mp (hts ▸ h)
    · rintro rfl
      exact .expression ((derives_tokens_iff ho I).mpr rfl)

/-- **Unambiguous texts.** By the grammar, the text of an expression or an operation over
    identifiers has exactly one tree, the one that it was written from. So no two of them have the
    same text, and the value of the text, evaluated along the grammar, is that of the tree. -/
theorem text_unambiguous {e : Expr} {o : Operation}
    (he : ∀ name ∈ e.names, Naming.isIdentifier name = true)
    (ho : ∀ name ∈ o.toExpr.names, Naming.isIdentifier name = true) :
    ((∀ e', Derives .tree .sum (tokens e.text) e' ↔ e' = e) ∧
      (∀ e', (∀ name ∈ e'.names, Naming.isIdentifier name = true) → e'.text = e.text → e' = e) ∧
      ∀ (α : Type) (A : Arithmetic α) value,
        Derives A.evaluation .sum (tokens e.text) value ↔ value = e.eval A) ∧
    (∀ e', DerivesOperation .tree (tokens o.text) e' ↔ e' = o.toExpr) ∧
      (∀ o' : Operation, (∀ name ∈ o'.toExpr.names, Naming.isIdentifier name = true) →
        o'.text = o.text → o' = o) ∧
      ∀ (α : Type) (A : Arithmetic α) value,
        DerivesOperation A.evaluation (tokens o.text) value ↔ value = o.toExpr.eval A := by
  have htree : ∀ e', Derives .tree .sum (tokens e.text) e' ↔ e' = e := by
    intro e'
    rw [tokens_text he, derives_tokens_iff he, Expr.interpret_tree]
  have htree' : ∀ e', DerivesOperation .tree (tokens o.text) e' ↔ e' = o.toExpr := by
    intro e'
    rw [derivesOperation_text_iff ho, Expr.interpret_tree]
  refine ⟨⟨htree, fun e' he' htext => ?_, fun α A value => ?_⟩, htree', fun o' ho' htext => ?_,
    fun α A value => ?_⟩
  · rw [← htree e', ← htext, tokens_text he', derives_tokens_iff he', Expr.interpret_tree]
  · rw [tokens_text he, derives_tokens_iff he, Expr.interpret_evaluation]
  · refine Operation.toExpr_injective ((htree' o'.toExpr).mp ?_)
    rw [← htext, derivesOperation_text_iff ho', Expr.interpret_tree]
  · rw [derivesOperation_text_iff ho, Expr.interpret_evaluation]

/-- A difference whose right operand is a product of a difference and an assignment. -/
def nestedExpr : Expr :=
  .binary .subtract (.var "a") (.binary .multiply (.binary .subtract (.var "b") (.var "c"))
    (.assign "t" (.binary .divide (.var "d") (.binary .divide (.var "x") (.var "y")))))

/-- The texts of `nestedExpr` and of an assignment of it, from whose tokens the trees are
    derived. -/
theorem text_unambiguous_nestedExpr :
    (∀ name ∈ nestedExpr.names, Naming.isIdentifier name = true) ∧
      nestedExpr.text = "a - (b - c) * (t = d / (x / y))" ∧
      (Operation.assign "r" nestedExpr).text = "r = a - (b - c) * (t = d / (x / y));" ∧
      Derives .tree .sum (tokens "a - (b - c) * (t = d / (x / y))") nestedExpr ∧
      DerivesOperation .tree (tokens "r = a - (b - c) * (t = d / (x / y));")
        (.assign "r" nestedExpr) := by
  have he : ∀ name ∈ nestedExpr.names, Naming.isIdentifier name = true := by decide +kernel
  have ho : ∀ name ∈ (Operation.assign "r" nestedExpr).toExpr.names,
      Naming.isIdentifier name = true := by decide +kernel
  have htext : nestedExpr.text = "a - (b - c) * (t = d / (x / y))" := by decide +kernel
  have htext' :
      (Operation.assign "r" nestedExpr).text = "r = a - (b - c) * (t = d / (x / y));" := by
    decide +kernel
  obtain ⟨⟨htree, -, -⟩, htree', -⟩ := text_unambiguous he ho
  refine ⟨he, htext, htext', ?_, ?_⟩
  · rw [← htext]
    exact (htree _).mpr rfl
  · rw [← htext']
    exact (htree' _).mpr rfl

end ShaderGraph
