import ShaderGraph.Proofs.ExpressionGrammar
import ShaderGraph.Proofs.Nesting

namespace ShaderGraph

/-!
# No superfluous parentheses

Without any pair of its parentheses, the text of an expression would be the text of another one.

* `Alternates`, `Expr.alternates_tokens` — names and operators alternate, and parentheses pair up.
* `Alternates.unwrap` — they go on doing so when a pair of parentheses is deleted.
* `Alternates.exists_derives` — such tokens are an expression.
* `Derives.count_le` — no text of an expression has fewer parentheses than the one that is written.
* `unwrapped_text` — so a text without one of its pairs is the text of another expression.
-/

/-! ### Names and operators in turn -/

/-- Whether there is an assignment in an expression. -/
def Expr.hasAssignment : Expr → Bool
  | var _ => false
  | assign _ _ => true
  | binary _ lhs rhs => lhs.hasAssignment || rhs.hasAssignment

/-- Whether a token leaves an operand complete. Before it, an operand is `complete` or expected;
    there is no answer if the token must not follow. -/
def Token.turn (complete : Bool) (t : Token) : Option Bool :=
  match complete, t with
  | false, .word _ => some true
  | false, .mark '(' => some false
  | true, .operator _ => some false
  | true, .mark ')' => some true
  | _, _ => none

/-- A parenthesis opens where an operand is expected, and one is expected in it. -/
theorem Token.turn_open {complete complete' : Bool} :
    turn complete (.mark '(') = some complete' ↔ complete = false ∧ complete' = false := by
  cases complete <;> simp [turn]

/-- A parenthesis closes where an operand is complete, and it is complete behind it. -/
theorem Token.turn_close {complete complete' : Bool} :
    turn complete (.mark ')') = some complete' ↔ complete = true ∧ complete' = true := by
  cases complete <;> simp [turn]

/-- The marks that may follow are parentheses. -/
theorem Token.eq_of_turn_mark {complete complete' : Bool} {c : Char}
    (h : turn complete (.mark c) = some complete') : c = '(' ∨ c = ')' := by
  unfold turn at h
  split at h <;> simp_all

/-- From an operand that is `complete` or expected to one that is complete, names and operators
    alternate in the tokens, and their parentheses pair up. -/
structure Alternates (complete : Bool) (ts : List Token) : Prop where
  turns : ts.foldlM Token.turn complete = some true
  nested : ts.foldlM Token.nest 0 = some 0
  names : ∀ x, .word x ∈ ts → Naming.isIdentifier x = true

namespace Alternates

variable {ts us before inside after : List Token}

/-- A name is an operand. -/
theorem name {x : String} (hx : Naming.isIdentifier x = true) : Alternates false [.word x] where
  turns := rfl
  nested := rfl
  names y hy := by
    obtain rfl : y = x := by simpa using hy
    exact hx

/-- What is an operand is one in parentheses. -/
theorem enclosed (h : Alternates false ts) : Alternates false (.mark '(' :: ts ++ [.mark ')']) where
  turns := by
    simp only [List.cons_append, List.foldlM_cons, List.foldlM_append, Token.turn,
      Option.bind_eq_bind, Option.bind_some, h.turns]
    rfl
  nested := by
    have hinside : ts.foldlM Token.nest 1 = some 1 := foldlM_nest_add h.nested 1
    simp only [List.cons_append, List.foldlM_cons, List.foldlM_append, Token.nest, nest,
      Option.bind_eq_bind, Option.bind_some, hinside]
    rfl
  names x hx := h.names x (by simpa using hx)

/-- Two operands with an operator between them are an operand. -/
theorem operation (h : Alternates false ts) (op : Operator) (hright : Alternates false us) :
    Alternates false (ts ++ .operator op :: us) where
  turns := by
    simp only [List.foldlM_append, List.foldlM_cons, h.turns, Token.turn, Option.bind_eq_bind,
      Option.bind_some, hright.turns]
  nested := by
    simp only [List.foldlM_append, List.foldlM_cons, h.nested, Token.nest, Option.bind_eq_bind,
      Option.bind_some, hright.nested]
  names x hx := by
    have hmem : .word x ∈ ts ∨ .word x ∈ us := by simpa using hx
    exact hmem.elim (h.names x) (hright.names x)

/-- Deleting a pair of parentheses keeps names and operators in turn. -/
theorem unwrap (h : Alternates false (before ++ .mark '(' :: (inside ++ .mark ')' :: after)))
    (hinside : inside.foldlM Token.nest 0 = some 0) :
    Alternates false (before ++ (inside ++ after)) where
  turns := by
    have hturns := h.turns
    simp only [List.foldlM_append, List.foldlM_cons, Option.bind_eq_bind, Option.bind_eq_some_iff,
      Token.turn_open, Token.turn_close] at hturns
    obtain ⟨_, hbefore, _, ⟨rfl, rfl⟩, _, hin, _, ⟨rfl, rfl⟩, hafter⟩ := hturns
    simp only [List.foldlM_append, hbefore, hin, Option.bind_eq_bind, Option.bind_some, hafter]
  nested := by
    have hnested := h.nested
    simp only [List.foldlM_append, List.foldlM_cons, Option.bind_eq_bind,
      Option.bind_eq_some_iff] at hnested
    obtain ⟨depth, hbefore, _, hopen, _, hin, _, hclose, hafter⟩ := hnested
    -- What stands inside leaves all parentheses open that are open before it.
    have hkeeps : ∀ depth, inside.foldlM Token.nest depth = some depth := by
      intro depth
      simpa using foldlM_nest_add hinside depth
    obtain rfl := Option.some.inj hopen
    rw [hkeeps] at hin
    obtain rfl := Option.some.inj hin
    obtain rfl := Option.some.inj hclose
    simp only [List.foldlM_append, hbefore, hkeeps, Option.bind_eq_bind, Option.bind_some, hafter]
  names x hx := by
    refine h.names x ?_
    simp only [List.mem_append, List.mem_cons, reduceCtorEq, false_or] at hx ⊢
    exact hx

end Alternates

/-- Names and operators alternate in the tokens of an expression without assignments. -/
theorem Expr.alternates_tokens {e : Expr} (hassign : e.hasAssignment = false)
    (he : ∀ name ∈ e.names, Naming.isIdentifier name = true) (level : Nat) :
    Alternates false (e.tokens level) := by
  induction e generalizing level with
  | var name => exact .name (he name List.mem_cons_self)
  | assign target value => cases hassign
  | binary op lhs rhs ihl ihr =>
    obtain ⟨hlhs, hrhs⟩ := List.forall_mem_append.mp he
    obtain ⟨hassignl, hassignr⟩ := Bool.or_eq_false_iff.mp hassign
    have hopen :=
      (ihl hassignl hlhs op.precedence).operation op (ihr hassignr hrhs (op.precedence + 1))
    rw [tokens]
    rcases Nat.lt_or_ge op.precedence level with hlevel | hlevel
    · rw [ExprReader.encloseTokens_of_lt hlevel]
      exact hopen.enclosed
    · rw [ExprReader.encloseTokens_of_le hlevel]
      exact hopen

/-! ### Expressions from tokens -/

/-- Whatever factor follows the tokens, they are a sum together. -/
def Opens (ts : List Token) : Prop :=
  ∀ us b, Derives .tree .factor us b → ∃ e, Derives .tree .sum (ts ++ us) e

/-- Nothing in front of a factor leaves the factor. -/
theorem opens_nil : Opens [] := fun _ b h => ⟨b, h.of_factor .sum⟩

/-- An operator after a sum takes a factor as its right operand, be it for the whole sum or for the
    last term of it. -/
theorem Derives.opens {ts : List Token} {a : Expr} (h : Derives .tree .sum ts a) (op : Operator) :
    Opens (ts ++ [.operator op]) := by
  intro us b hus
  rw [List.append_assoc, List.singleton_append]
  rcases op.precedence_cases with ⟨-, hop⟩ | ⟨-, hop⟩
  · exact ⟨_, .sum hop h (.factor hus)⟩
  · -- A product or quotient takes the last term only.
    cases h with
    | term h => exact ⟨_, .term (.product hop h hus)⟩
    | sum hop' hl hr =>
      rw [List.append_assoc, List.cons_append]
      exact ⟨_, .sum hop' hl (.product hop hr hus)⟩

namespace Alternates

variable {ts : List Token}

/-- After an operand, there is nothing or an operator. -/
theorem operator_of_true (h : Alternates true ts) :
    ts = [] ∨ ∃ op us, ts = .operator op :: us ∧ Alternates false us := by
  cases ts with
  | nil => exact .inl rfl
  | cons t us =>
    have hturns := h.turns
    have hnested := h.nested
    cases t with
    | word x => cases hturns
    | number digits => cases hturns
    | operator op =>
      exact .inr ⟨op, us, rfl, hturns, hnested, fun x hx => h.names x (List.mem_cons_of_mem _ hx)⟩
    | mark c =>
      -- There is nothing to open an operand, and no open parenthesis to close.
      rw [List.foldlM_cons, Option.bind_eq_bind, Option.bind_eq_some_iff] at hturns
      obtain ⟨_, hturn, -⟩ := hturns
      rcases Token.eq_of_turn_mark hturn with rfl | rfl
      · cases hturn
      · cases hnested

/-- Where an operand is expected, there is a name or there are parentheses around an operand. -/
theorem operand_of_false (h : Alternates false ts) :
    (∃ x us, ts = [.word x] ++ us ∧ Naming.isIdentifier x = true ∧ Alternates true us) ∨
      ∃ inside us, ts = (.mark '(' :: inside ++ [.mark ')']) ++ us ∧ Alternates false inside ∧
        Alternates true us := by
  cases ts with
  | nil => cases h.turns
  | cons t us =>
    have hturns := h.turns
    have hnested := h.nested
    have hnames : ∀ x, .word x ∈ us → Naming.isIdentifier x = true := fun x hx =>
      h.names x (List.mem_cons_of_mem _ hx)
    cases t with
    | word x => exact .inl ⟨x, us, rfl, h.names x List.mem_cons_self, hturns, hnested, hnames⟩
    | number digits => cases hturns
    | operator op => cases hturns
    | mark c =>
      rw [List.foldlM_cons, Option.bind_eq_bind, Option.bind_eq_some_iff] at hturns
      obtain ⟨_, hturn, hturns⟩ := hturns
      rcases Token.eq_of_turn_mark hturn with rfl | rfl
      · obtain rfl := Option.some.inj hturn
        have hopen : us.foldlM Token.nest (0 + 1) = some 0 := hnested
        obtain ⟨inside, after, rfl, hinside, hafter⟩ := exists_close hopen
        simp only [List.foldlM_append, List.foldlM_cons, Option.bind_eq_bind,
          Option.bind_eq_some_iff, Token.turn_close] at hturns
        obtain ⟨_, hin, _, ⟨rfl, rfl⟩, hout⟩ := hturns
        refine .inr ⟨inside, after, by simp, ⟨hin, hinside, fun x hx => hnames x ?_⟩,
          ⟨hout, hafter, fun x hx => hnames x ?_⟩⟩
        · simp [hx]
        · simp [hx]
      · cases hturn

/-- Names and operators in turn are an expression. -/
theorem exists_derives (h : Alternates false ts) {left : List Token} (hleft : Opens left) :
    ∃ e, Derives .tree .sum (left ++ ts) e := by
  induction hlength : ts.length using Nat.strong_induction_on generalizing ts left with
  | h n ih =>
    subst hlength
    -- A factor comes first, which may be an expression in parentheses, and the rest is shorter too.
    obtain ⟨us, rest, rfl, b, hus, hrest⟩ : ∃ us rest, ts = us ++ rest ∧
        ∃ b, Derives .tree .factor us b ∧ Alternates true rest := by
      rcases h.operand_of_false with ⟨x, us, rfl, hx, hrest⟩ | ⟨inside, us, rfl, hinside, hrest⟩
      · exact ⟨_, us, rfl, _, .name hx, hrest⟩
      · have hlt : inside.length < (Token.mark '(' :: inside ++ [Token.mark ')'] ++ us).length := by
          simp only [List.length_append, List.length_cons]
          omega
        obtain ⟨e, he⟩ := ih _ hlt hinside opens_nil rfl
        exact ⟨_, us, rfl, e, .enclosed he, hrest⟩
    obtain ⟨e, he⟩ := hleft us b hus
    rcases hrest.operator_of_true with rfl | ⟨op, rest, rfl, hnext⟩
    · rw [List.append_nil]
      exact ⟨e, he⟩
    · have hlt : rest.length < (us ++ Token.operator op :: rest).length := by
        simp only [List.length_append, List.length_cons]
        omega
      have hwhole := ih _ hlt hnext (he.opens op) rfl
      simpa using hwhole

end Alternates

/-! ### The number of parentheses -/

/-- Enclosing tokens adds one opening parenthesis. -/
theorem count_encloseTokens (loose : Bool) (ts : List Token) :
    (encloseTokens loose ts).count (.mark '(') = ts.count (.mark '(') + loose.toNat := by
  cases loose with
  | false => rfl
  | true => simp [encloseTokens]

/-- What a level adds to the parentheses of an expression is at most a pair around the whole. -/
theorem Expr.count_tokens_le_add (e : Expr) {level level' extra : Nat}
    (h : ∀ n, (decide (n < level)).toNat ≤ (decide (n < level')).toNat + extra) :
    (e.tokens level).count (.mark '(') ≤ (e.tokens level').count (.mark '(') + extra := by
  cases e with
  | var name => exact Nat.le_add_right _ _
  | assign target value =>
    rw [tokens, tokens, count_encloseTokens, count_encloseTokens, Nat.add_assoc]
    exact Nat.add_le_add_left (h 0) _
  | binary op lhs rhs =>
    rw [tokens, tokens, count_encloseTokens, count_encloseTokens, Nat.add_assoc]
    exact Nat.add_le_add_left (h op.precedence) _

/-- Where more tightly bound expressions are expected, there are at least as many parentheses. -/
theorem Expr.count_tokens_mono (e : Expr) {level level' : Nat} (hlevel : level ≤ level') :
    (e.tokens level).count (.mark '(') ≤ (e.tokens level').count (.mark '(') := by
  have hloose : ∀ n, (decide (n < level)).toNat ≤ (decide (n < level')).toNat + 0 := by
    intro n
    apply Bool.toNat_le_toNat
    intro hn
    exact decide_eq_true ((of_decide_eq_true hn).trans_le hlevel)
  exact e.count_tokens_le_add hloose

/-- There is at most one more pair of parentheses than in a sum. -/
theorem Expr.count_tokens_le (e : Expr) (level : Nat) :
    (e.tokens level).count (.mark '(') ≤ (e.tokens 1).count (.mark '(') + 1 := by
  apply e.count_tokens_le_add
  intro n
  have hpair := Bool.toNat_le (decide (n < level))
  omega

/-- An operator between operands adds no parenthesis. -/
theorem count_operation (ts us : List Token) (op : Operator) :
    (ts ++ .operator op :: us).count (.mark '(') = ts.count (.mark '(') + us.count (.mark '(') := by
  simp [List.count_append]

/-- An operation at the level of its operator is not enclosed itself. -/
theorem Expr.count_tokens_binary {op : Operator} {level : Nat} (hop : op.precedence = level)
    (lhs rhs : Expr) :
    ((binary op lhs rhs).tokens level).count (.mark '(') =
      (lhs.tokens level).count (.mark '(') + (rhs.tokens (level + 1)).count (.mark '(') := by
  subst hop
  rw [tokens, ExprReader.encloseTokens_of_le le_rfl, count_operation]

/-- No text of an expression has fewer parentheses than the one that is written. -/
theorem Derives.count_le {phrase : Phrase} {ts : List Token} {e : Expr}
    (h : Derives .tree phrase ts e) :
    (e.tokens phrase.level).count (.mark '(') ≤ ts.count (.mark '(') := by
  induction h with
  | name _ => exact le_rfl
  | @enclosed ts e _ ih =>
    have hpair : (e.tokens 3).count (.mark '(') ≤ (e.tokens 1).count (.mark '(') + 1 :=
      e.count_tokens_le 3
    show _ ≤ (encloseTokens true ts).count (.mark '(')
    rw [count_encloseTokens]
    exact hpair.trans (Nat.succ_le_succ ih)
  | @assignment x ts e _ _ ih =>
    show (encloseTokens true (.word x :: .mark '=' :: e.tokens 1)).count (.mark '(') ≤
      (encloseTokens true (.word x :: .mark '=' :: ts)).count (.mark '(')
    rw [count_encloseTokens, count_encloseTokens]
    have hvalue : (e.tokens 1).count (.mark '(') ≤ ts.count (.mark '(') := ih
    simpa [List.count_cons] using hvalue
  | @factor ts e _ ih => exact (e.count_tokens_mono (by decide)).trans ih
  | @product op ts us a b hop _ _ ihl ihr =>
    show ((Expr.binary op a b).tokens 2).count (.mark '(') ≤ _
    rw [Expr.count_tokens_binary (Operator.precedence_eq_two hop), count_operation]
    exact Nat.add_le_add ihl ihr
  | @term ts e _ ih => exact (e.count_tokens_mono (by decide)).trans ih
  | @sum op ts us a b hop _ _ ihl ihr =>
    show ((Expr.binary op a b).tokens 1).count (.mark '(') ≤ _
    rw [Expr.count_tokens_binary (Operator.precedence_eq_one hop), count_operation]
    exact Nat.add_le_add ihl ihr

/-! ### Texts without a pair of parentheses -/

/-- **No superfluous parentheses.** Deleting a matching pair of parentheses from the text of an
    expression over identifiers without assignments leaves the text of exactly one expression, which
    is a different one. -/
theorem unwrapped_text {e : Expr} {before inside after : String}
    (he : ∀ name ∈ e.names, Naming.isIdentifier name = true) (hassign : e.hasAssignment = false)
    (htext : e.text = before ++ "(" ++ inside ++ ")" ++ after) (hinside : Balanced inside) :
    ∃ e', e' ≠ e ∧
      ∀ e'', Derives .tree .sum (tokens (before ++ inside ++ after)) e'' ↔ e'' = e' := by
  have hchain : (before ++ "(" ++ inside ++ ")" ++ after).toList.IsChain Beside := by
    rw [← htext]
    exact Expr.isChain_render he 1
  obtain ⟨hfull, hrest, hbeside⟩ := tokens_unwrap hchain
  have htokens : e.tokens 1 =
      tokens before ++ .mark '(' :: (tokens inside ++ .mark ')' :: tokens after) := by
    rw [← tokens_text he, htext, hfull]
  have hnested : (tokens inside).foldlM Token.nest 0 = some 0 := by
    rw [tokens, foldlM_nest_tokenize hbeside]
    exact hinside
  have halternates := Expr.alternates_tokens hassign he 1
  rw [htokens] at halternates
  obtain ⟨e', he'⟩ := (halternates.unwrap hnested).exists_derives opens_nil
  rw [List.nil_append] at he'
  refine ⟨e', ?_, fun e'' => ?_⟩
  · -- The text of `e` would have more parentheses than needed.
    rintro rfl
    have hcount : (e'.tokens 1).count (.mark '(') ≤ _ := he'.count_le
    have hclose : Token.mark ')' ≠ .mark '(' := by decide
    simp only [htokens, List.count_append, List.count_cons_self, List.count_cons_of_ne hclose]
      at hcount
    omega
  · rw [hrest]
    refine ⟨fun h => h.unique he', ?_⟩
    rintro rfl
    exact he'

/-- A product of a sum and a quotient by a difference. -/
def groupedExpr : Expr :=
  .binary .multiply (.binary .add (.var "a") (.var "b"))
    (.binary .divide (.var "c") (.binary .subtract (.var "d") (.var "e")))

/-- Without its inner parentheses, the text of `groupedExpr` has one tree, which is another one. -/
theorem unwrapped_text_groupedExpr :
    (∀ name ∈ groupedExpr.names, Naming.isIdentifier name = true) ∧
      groupedExpr.hasAssignment = false ∧ groupedExpr.text = "(a + b) * (c / (d - e))" ∧
      Balanced "c / (d - e)" ∧
      ∃ e', e' ≠ groupedExpr ∧
        ∀ e'', Derives .tree .sum (tokens "(a + b) * c / (d - e)") e'' ↔ e'' = e' := by
  have he : ∀ name ∈ groupedExpr.names, Naming.isIdentifier name = true := by decide +kernel
  have htext : groupedExpr.text = "(a + b) * " ++ "(" ++ "c / (d - e)" ++ ")" ++ "" := by
    decide +kernel
  have hinside : Balanced "c / (d - e)" := by decide +kernel
  exact ⟨he, rfl, htext, hinside, unwrapped_text he rfl htext hinside⟩

end ShaderGraph
