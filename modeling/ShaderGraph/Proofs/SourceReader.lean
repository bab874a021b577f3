import ShaderGraph.Proofs.ExpressionReader
import ShaderGraph.Proofs.GeneratedNames

namespace ShaderGraph

/-!
# Reading source text

A reader of the shading language as far as generated code uses it: functions without a result, whose
statements are declarations, calls and operations. It gives back what a program was written from.

* `Statement`, `FunctionDef` — the syntax of functions; `Program.functions` is that of a program.
* `Statement.tokens`, `FunctionDef.tokens` — the tokens of a function, and `Program.tokens_source`
  those of the text of a program.
* `readStatement?`, `readFunction?`, `readSource?` — the reader.
* `Program.Spellable` — the names of a program are identifiers, and comments stay on their lines.

That the reader gives back the functions of a program is at the end.
-/

/-! ### Syntax -/

/-- A statement of a function. -/
inductive Statement where
  | declare (d : Declaration)
  | call (callee : String) (arguments : List String)
  | evaluate (o : Operation)
deriving DecidableEq, Repr

/-- A function of the shading language without a result. -/
structure FunctionDef where
  name : String
  parameters : List Declaration
  body : List Statement
deriving DecidableEq, Repr

/-- The function of a node: its operations in order. -/
def NodeCode.function (options : Options) (n : NodeCode) : FunctionDef where
  name := n.functionName options
  parameters := n.parameters
  body := n.operations.map .evaluate

/-- The entry function of a program: the locals of all nodes, a call for each node, and the
    assignments to the graph outputs. -/
def Program.entryFunction (options : Options) (p : Program) : FunctionDef where
  name := options.entryPoint
  parameters := p.parameters
  body := (p.nodes.flatMap (·.locals)).map .declare
    ++ p.nodes.map (fun n => .call (n.functionName options) n.arguments)
    ++ p.bindings.map .evaluate

/-- The functions of a program in the order of its text. -/
def Program.functions (options : Options) (p : Program) : List FunctionDef :=
  p.nodes.map (·.function options) ++ [p.entryFunction options]

/-! ### Tokens of functions -/

/-- Lists of tokens with commas between them. -/
def commas (l : List (List Token)) : List Token := [Token.mark ','].intercalate l

/-- The words of a declaration: the qualifier if there is one, the type and the name. -/
def Declaration.words (d : Declaration) : List String := d.qualifier?.toList ++ [d.typeName, d.name]

/-- The tokens of a declaration. -/
def Declaration.tokens (d : Declaration) : List Token := d.words.map .word

namespace Statement

/-- The tokens of a statement but for its semicolon. -/
def tokens : Statement → List Token
  | declare d => d.tokens
  | call callee arguments =>
    .word callee :: .mark '(' :: commas (arguments.map fun name => [.word name]) ++ [.mark ')']
  | evaluate o => o.toExpr.tokens 0

end Statement

/-- The tokens of statements, each with its semicolon. -/
def bodyTokens (body : List Statement) : List Token := body.flatMap fun s => s.tokens ++ [.mark ';']

/-- The tokens of a function but for its closing brace. -/
def FunctionDef.tokens (f : FunctionDef) : List Token :=
  .word "void" :: .word f.name :: .mark '(' :: commas (f.parameters.map (·.tokens))
    ++ .mark ')' :: .mark '\x7b' :: bodyTokens f.body

/-! ### The reader -/

/-- The parts of a list of tokens each of which ends with the mark `c`. -/
def terminated? (c : Char) (ts : List Token) : Option (List (List Token)) :=
  let parts := ts.splitOn (.mark c)
  if parts.getLast? = some [] then some parts.dropLast else none

/-- The parts of a list of tokens between commas. -/
def separated (ts : List Token) : List (List Token) :=
  if ts = [] then [] else ts.splitOn (.mark ',')

/-- Reads a declaration, which may have a qualifier. -/
def readDeclaration? : List Token → Option Declaration
  | [.word typeName, .word name] => some ⟨name, typeName, none⟩
  | [.word qualifier, .word typeName, .word name] => some ⟨name, typeName, some qualifier⟩
  | _ => none

/-- Reads an argument of a call. -/
def readArgument? : List Token → Option String
  | [.word name] => some name
  | _ => none

/-- An expression as an operation, if it does something. -/
def Expr.operation? : Expr → Option Operation
  | var _ => none
  | assign target value => some (.assign target value)
  | binary op lhs rhs => some (.binary op lhs rhs)

/-- Reads a statement. The first two tokens tell declarations and calls from operations. -/
def readStatement? : List Token → Option Statement
  | .word first :: .word second :: rest =>
    (readDeclaration? (.word first :: .word second :: rest)).map .declare
  | .word callee :: .mark '(' :: rest =>
    if rest.getLast? = some (.mark ')') then
      ((separated rest.dropLast).mapM readArgument?).map (.call callee)
    else none
  | ts => ((ExprReader.read? ts).bind Expr.operation?).map .evaluate

/-- Reads a function up to its closing brace. -/
def readFunction? : List Token → Option FunctionDef
  | .word "void" :: .word name :: .mark '(' :: rest => do
    let parameters ← (separated (rest.takeWhile (· ≠ .mark ')'))).mapM readDeclaration?
    match rest.dropWhile (· ≠ .mark ')') with
    | .mark ')' :: .mark '\x7b' :: rest =>
      let body ← (← terminated? ';' rest).mapM readStatement?
      return { name, parameters, body }
    | _ => none
  | _ => none

/-- Reads the functions of a source text. -/
def readSource? (text : String) : Option (List FunctionDef) := do
  (← terminated? '\x7d' (tokens text)).mapM readFunction?

/-! ### Lists -/

/-- A traversal of texts gives back the elements of which each text is read back. -/
theorem mapM_map_eq_some {α β : Type} {l : List α} {f : β → Option α} {g : α → β}
    (hf : ∀ a ∈ l, f (g a) = some a) : (l.map g).mapM f = some l := by
  induction l with
  | nil => rfl
  | cons a l ih =>
    obtain ⟨ha, hl⟩ := List.forall_mem_cons.mp hf
    simp only [List.map_cons, List.mapM_cons, ha, ih hl]
    rfl

/-- Between lists of tokens there are commas, and all other tokens come from the lists. -/
theorem mem_commas {t : Token} {l : List (List Token)} (h : t ∈ commas l) :
    t = .mark ',' ∨ ∃ ts ∈ l, t ∈ ts := by
  unfold commas at h
  induction l with
  | nil => simp at h
  | cons ts l ih =>
    cases l with
    | nil => exact .inr ⟨ts, List.mem_cons_self, by simpa using h⟩
    | cons us l =>
      rw [List.intercalate_cons_cons, List.append_assoc, List.mem_append, List.mem_append,
        List.mem_singleton] at h
      rcases h with hts | hcomma | hl
      · exact .inr ⟨ts, List.mem_cons_self, hts⟩
      · exact .inl hcomma
      · obtain hcomma | ⟨vs, hvs, ht⟩ := ih hl
        · exact .inl hcomma
        · exact .inr ⟨vs, List.mem_cons_of_mem ts hvs, ht⟩

/-- What was joined by commas is separated at them, if there are no others. -/
theorem separated_commas {l : List (List Token)} (hne : ∀ ts ∈ l, ts ≠ [])
    (hcomma : ∀ ts ∈ l, .mark ',' ∉ ts) : separated (commas l) = l := by
  cases l with
  | nil => rfl
  | cons ts l =>
    have hhead : commas (ts :: l) ≠ [] := by
      have hts := hne ts List.mem_cons_self
      cases l with
      | nil => simpa [commas] using hts
      | cons us l => simp [commas, List.intercalate_cons_cons, hts]
    rw [separated, if_neg hhead]
    exact List.splitOn_intercalate _ hcomma (by simp)

/-- What was ended by a mark one by one is taken apart at that mark. -/
theorem terminated?_flatMap {α : Type} {c : Char} {l : List α} {f : α → List Token}
    (h : ∀ a ∈ l, .mark c ∉ f a) :
    terminated? c (l.flatMap fun a => f a ++ [.mark c]) = some (l.map f) := by
  have hsplit : (l.flatMap fun a => f a ++ [.mark c]).splitOn (.mark c) = l.map f ++ [[]] := by
    induction l with
    | nil => rfl
    | cons a l ih =>
      obtain ⟨ha, hl⟩ := List.forall_mem_cons.mp h
      rw [List.flatMap_cons, List.append_assoc, List.singleton_append,
        List.splitOn_append_cons_self_of_not_mem ha, ih hl, List.map_cons, List.cons_append]
  rw [terminated?, hsplit]
  simp

/-! ### Reading back -/

/-- There are no marks in a declaration. -/
theorem Declaration.mark_not_mem_tokens (d : Declaration) (c : Char) : .mark c ∉ d.tokens := by
  simp [Declaration.tokens]

/-- A declaration is read back from its tokens. -/
theorem readDeclaration?_tokens (d : Declaration) : readDeclaration? d.tokens = some d := by
  obtain ⟨name, typeName, qualifier?⟩ := d
  cases qualifier? <;> rfl

/-- Declarations are read back from a list with commas. -/
theorem separated_declarations (ds : List Declaration) :
    (separated (commas (ds.map (·.tokens)))).mapM readDeclaration? = some ds := by
  have hparts : separated (commas (ds.map (·.tokens))) = ds.map (·.tokens) := by
    refine separated_commas ?_ ?_
    · rw [List.forall_mem_map]
      intro d _
      simp [Declaration.tokens, Declaration.words]
    · rw [List.forall_mem_map]
      exact fun d _ => d.mark_not_mem_tokens ','
  rw [hparts, mapM_map_eq_some fun d _ => readDeclaration?_tokens d]

/-- Arguments are read back from a list with commas. -/
theorem separated_arguments (names : List String) :
    (separated (commas (names.map fun name => [.word name]))).mapM readArgument? = some names := by
  have hparts : separated (commas (names.map fun name => [.word name])) =
      names.map fun name => [.word name] := by
    refine separated_commas ?_ ?_ <;> simp
  rw [hparts]
  exact mapM_map_eq_some fun name _ => rfl

/-- An operation is read back from its expression. -/
theorem Operation.operation?_toExpr (o : Operation) : o.toExpr.operation? = some o := by
  cases o <;> rfl

/-- Statements of every kind are read back. -/
theorem readStatement?_tokens (s : Statement) : readStatement? s.tokens = some s := by
  cases s with
  | declare d =>
    -- With or without a qualifier, a declaration starts with two words.
    obtain ⟨name, typeName, qualifier?⟩ := d
    cases qualifier? <;> rfl
  | call callee arguments =>
    show (if (commas _ ++ [Token.mark ')']).getLast? = some (.mark ')') then
      ((separated (commas _ ++ [Token.mark ')']).dropLast).mapM readArgument?).map
        (Statement.call callee) else none) = _
    rw [if_pos (by simp), List.dropLast_concat, separated_arguments]
    rfl
  | evaluate o =>
    -- After a first name, an operation goes on neither with a name nor with a parenthesis.
    have hread : readStatement? (o.toExpr.tokens 0) =
        ((ExprReader.read? (o.toExpr.tokens 0)).bind Expr.operation?).map .evaluate := by
      rcases o.toExpr.tokens_start 0 with ⟨rest, hrest⟩ | ⟨name, rest, hrest, hnext⟩
      · rw [hrest]
        rfl
      · rw [hrest]
        cases rest with
        | nil => rfl
        | cons t rest =>
          obtain rfl | ⟨op, rfl⟩ := hnext t rfl
          · rfl
          · rfl
    show readStatement? (o.toExpr.tokens 0) = _
    rw [hread, ExprReader.read?_tokens, Option.bind_some, o.operation?_toExpr, Option.map_some]

/-- Statements have no marks but these. -/
theorem Statement.mark_mem_tokens {s : Statement} {c : Char} (h : .mark c ∈ s.tokens) :
    c = '(' ∨ c = ')' ∨ c = '=' ∨ c = ',' := by
  cases s with
  | declare d => exact absurd h (d.mark_not_mem_tokens c)
  | call callee arguments =>
    simp only [Statement.tokens, List.cons_append, List.mem_cons, List.mem_append, reduceCtorEq,
      Token.mark.injEq, List.not_mem_nil, or_false, false_or] at h
    rcases h with rfl | hcommas | rfl
    · exact .inl rfl
    · obtain hcomma | ⟨ts, hts, hmem⟩ := mem_commas hcommas
      · exact .inr (.inr (.inr (Token.mark.inj hcomma)))
      · obtain ⟨name, -, rfl⟩ := List.mem_map.mp hts
        simp at hmem
    · exact .inr (.inl rfl)
  | evaluate o =>
    rcases Expr.mark_mem_tokens h with hc | hc | hc
    · exact .inl hc
    · exact .inr (.inl hc)
    · exact .inr (.inr (.inl hc))

/-- The statements of a body are taken apart at their semicolons. -/
theorem terminated?_bodyTokens (body : List Statement) :
    terminated? ';' (bodyTokens body) = some (body.map (·.tokens)) := by
  refine terminated?_flatMap fun s _ hmem => ?_
  exact absurd (Statement.mark_mem_tokens hmem) (by decide)

/-- The only marks between declarations are commas. -/
theorem mark_not_mem_commas (ds : List Declaration) {c : Char} (hc : c ≠ ',') :
    .mark c ∉ commas (ds.map (·.tokens)) := by
  intro h
  obtain hcomma | ⟨ts, hts, hmem⟩ := mem_commas h
  · exact hc (Token.mark.inj hcomma)
  · obtain ⟨d, -, rfl⟩ := List.mem_map.mp hts
    exact d.mark_not_mem_tokens c hmem

/-- Functions are read back. -/
theorem readFunction?_tokens (f : FunctionDef) : readFunction? f.tokens = some f := by
  have hall : ∀ t ∈ commas (f.parameters.map (·.tokens)), decide (t ≠ .mark ')') = true := by
    intro t ht
    rw [decide_eq_true_eq]
    rintro rfl
    exact mark_not_mem_commas f.parameters (by decide) ht
  have htake : (commas (f.parameters.map (·.tokens)) ++ .mark ')' :: .mark '\x7b' ::
      bodyTokens f.body).takeWhile (· ≠ .mark ')') = commas (f.parameters.map (·.tokens)) := by
    rw [List.takeWhile_append_of_pos hall]
    simp
  have hdrop : (commas (f.parameters.map (·.tokens)) ++ .mark ')' :: .mark '\x7b' ::
      bodyTokens f.body).dropWhile (· ≠ .mark ')') =
        .mark ')' :: .mark '\x7b' :: bodyTokens f.body := by
    rw [List.dropWhile_append_of_pos hall]
    simp
  show readFunction? (.word "void" :: .word f.name :: .mark '(' :: (commas _ ++ _)) = _
  rw [readFunction?, htake, hdrop, separated_declarations]
  simp only [terminated?_bodyTokens, Option.bind_eq_bind, Option.bind_some,
    mapM_map_eq_some fun s _ => readStatement?_tokens s]
  rfl

/-- No brace stands in a function before the one that closes it. -/
theorem FunctionDef.brace_not_mem_tokens (f : FunctionDef) : .mark '\x7d' ∉ f.tokens := by
  intro h
  simp only [FunctionDef.tokens, bodyTokens, List.cons_append, List.mem_cons, List.mem_append,
    List.mem_flatMap, List.not_mem_nil, reduceCtorEq, Token.mark.injEq, Char.reduceEq, false_or,
    or_false] at h
  rcases h with hparameters | ⟨s, -, hs⟩
  · exact mark_not_mem_commas f.parameters (by decide) hparameters
  · exact absurd (Statement.mark_mem_tokens hs) (by decide)

/-- A text of functions is read back. -/
theorem readSource?_eq {text : String} {fs : List FunctionDef}
    (h : tokens text = fs.flatMap fun f => f.tokens ++ [.mark '\x7d']) :
    readSource? text = some fs := by
  rw [readSource?, h, terminated?_flatMap fun f _ => f.brace_not_mem_tokens]
  exact mapM_map_eq_some fun f _ => readFunction?_tokens f

/-! ### The text of programs -/

/-- A blank is no token. -/
theorem parted_blank : Parted " " [] := parted_of_all (by decide) (by decide)

/-- A semicolon is a token of its own. -/
theorem parted_semicolon : Parted ";" [.mark ';'] := parted_of_all (by decide) (by decide)

/-- An indentation is no token, whatever its width is. -/
theorem parted_indent (options : Options) : Parted options.indent [] := by
  have hblank : ∀ c ∈ options.indent.toList, c = ' ' := by
    intro c hc
    rw [toList_indent] at hc
    exact List.eq_of_mem_replicate hc
  refine parted_of_all (List.all_eq_true.mpr fun c hc => ?_)
    (List.flatMap_eq_nil_iff.mpr fun c hc => ?_)
  · rw [hblank c hc]
    decide
  · rw [hblank c hc]
    rfl

/-- A declaration has its tokens wherever a word may end. -/
theorem Declaration.spells_text {d : Declaration}
    (hd : ∀ name ∈ d.words, Naming.isIdentifier name = true) : Spells d.text d.tokens := by
  obtain ⟨name, typeName, qualifier?⟩ := d
  have hname : Spells name [.word name] := spells_name (hd name (by simp [words]))
  have htype : Parted (typeName ++ " ") [.word typeName] :=
    (spells_name (hd typeName (by simp [words]))).append_parted parted_blank rfl (by decide)
  cases qualifier? with
  | none => exact htype.append_spells hname
  | some qualifier =>
    have hqualifier : Parted (qualifier ++ " ") [.word qualifier] :=
      (spells_name (hd qualifier (by simp [words]))).append_parted parted_blank rfl (by decide)
    have hwhole := (hqualifier.append htype).append_spells hname
    rw [← String.append_assoc] at hwhole
    exact hwhole

/-- A line that declares a local variable. -/
theorem parted_declare (options : Options) {d : Declaration}
    (hd : ∀ name ∈ d.words, Naming.isIdentifier name = true) :
    Parted (joinLines [options.indent ++ d.text ++ ";"])
      ((Statement.declare d).tokens ++ [.mark ';']) := by
  have hline := (parted_indent options).append_spells (Declaration.spells_text hd)
  exact (hline.append_parted parted_semicolon rfl (by decide)).spells.parted_line

/-- A line with an operation. -/
theorem parted_evaluate (options : Options) {o : Operation}
    (ho : ∀ name ∈ o.toExpr.names, Naming.isIdentifier name = true) :
    Parted (joinLines [options.indent ++ o.statement])
      ((Statement.evaluate o).tokens ++ [.mark ';']) := by
  have hstatement := (Expr.spells_render ho 0).append_parted parted_semicolon rfl (by decide)
  exact ((parted_indent options).append hstatement).spells.parted_line

/-- A line that calls the function of a node. -/
theorem parted_call (options : Options) {n : NodeCode}
    (hfunction : Naming.isIdentifier (n.functionName options) = true)
    (hn : ∀ name ∈ n.arguments, Naming.isIdentifier name = true) :
    Parted (joinLines [n.call options])
      ((Statement.call (n.functionName options) n.arguments).tokens ++ [.mark ';']) := by
  have hend : Parted ");" [.mark ')', .mark ';'] := parted_of_all (by decide) (by decide)
  have harguments : Spells (", ".intercalate n.arguments)
      (commas (n.arguments.map fun name => [.word name])) := by
    have hmap := spells_intercalate (f := id) fun name hname => spells_name (hn name hname)
    rwa [List.map_id] at hmap
  have hcallee := ((parted_indent options).append_spells (spells_name hfunction)).append_parted
    parted_open rfl (by decide)
  have hline := (hcallee.append_spells harguments).append_parted hend rfl (by decide)
  have htokens : (Statement.call (n.functionName options) n.arguments).tokens ++ [.mark ';'] =
      [] ++ [.word (n.functionName options)] ++ [.mark '('] ++
        commas (n.arguments.map fun name => [.word name]) ++ [.mark ')', .mark ';'] := by
    simp [Statement.tokens]
  rw [htokens]
  exact hline.spells.parted_line

/-- A line with a comment, or no line. -/
theorem parted_comment_of_node (options : Options) {n : NodeCode} (hname : '\n' ∉ n.name.toList)
    (hkind : '\n' ∉ n.kind.toList) : Parted (joinLines (n.comment options)) [] := by
  unfold NodeCode.comment
  split
  · have hcomment : Parted ("//" ++ (" " ++ n.name ++ " (" ++ n.kind ++ ")") ++ "\n") [] :=
      parted_comment (by simp [hname, hkind])
    have hline : joinLines [options.indent ++ "// " ++ n.name ++ " (" ++ n.kind ++ ")"] =
        options.indent ++ ("//" ++ (" " ++ n.name ++ " (" ++ n.kind ++ ")") ++ "\n") := by
      have hslashes : "// " = "//" ++ " " := rfl
      rw [joinLines_cons, hslashes]
      simp only [String.append_assoc]
      rfl
    rw [hline]
    exact (parted_indent options).append hcomment
  · exact parted_empty

/-- The lines of a function stand for its tokens if its lines do for its statements. -/
theorem parted_functionLines {f : FunctionDef} {lines : List String}
    (hname : Naming.isIdentifier f.name = true)
    (hparameters : ∀ d ∈ f.parameters, ∀ name ∈ d.words, Naming.isIdentifier name = true)
    (hbody : Parted (joinLines lines) (bodyTokens f.body)) :
    Parted (joinLines (functionLines f.name f.parameters lines)) (f.tokens ++ [.mark '\x7d']) := by
  have hvoid : Parted ("void" ++ " ") [.word "void"] :=
    (spells_name (by decide +kernel)).append_parted parted_blank rfl (by decide)
  have hhead := (hvoid.append_spells (spells_name hname)).append_parted parted_open rfl (by decide)
  have hlist := hhead.append_spells (spells_intercalate fun d hd =>
    Declaration.spells_text (hparameters d hd))
  have hsignature := (hlist.append_parted parted_close rfl (by decide)).spells.parted_line
  have hbrace : Parted "\x7b" [.mark '\x7b'] := parted_of_all (by decide) (by decide)
  have hend : Parted "\x7d" [.mark '\x7d'] := parted_of_all (by decide) (by decide)
  have htokens : f.tokens ++ [.mark '\x7d'] = ([.word "void"] ++ [.word f.name] ++ [.mark '('] ++
      commas (f.parameters.map (·.tokens)) ++ [.mark ')']) ++ ([.mark '\x7b'] ++
        (bodyTokens f.body ++ [.mark '\x7d'])) := by
    simp [FunctionDef.tokens]
  rw [htokens]
  exact hsignature.joinLines_append
    (hbrace.spells.parted_line.joinLines_append (hbody.joinLines_append hend.spells.parted_line))

/-- Lines that are made of statements one by one stand for the tokens of the statements. -/
theorem parted_body {α : Type} {l : List α} {line : α → String} {s : α → Statement}
    (h : ∀ a ∈ l, Parted (joinLines [line a]) ((s a).tokens ++ [.mark ';'])) :
    Parted (joinLines (l.map line)) (bodyTokens (l.map s)) := by
  rw [bodyTokens, List.flatMap_map, List.map_eq_flatMap]
  exact parted_joinLines_flatMap h

/-! ### Programs -/

/-- The names in the code of a node, but for those of its comment. -/
def NodeCode.words (n : NodeCode) : List String :=
  (n.parameters ++ n.locals).flatMap (·.words) ++ n.arguments ++
    n.operations.flatMap (·.toExpr.names)

/-- The names in a program. -/
def Program.words (p : Program) : List String :=
  p.parameters.flatMap (·.words) ++ p.nodes.flatMap (·.words) ++ p.bindings.flatMap (·.toExpr.names)

/-- The names in a program are identifiers, and its comments stay on their lines. -/
structure Program.Spellable (options : Options) (p : Program) : Prop where
  entryPoint : Naming.isIdentifier options.entryPoint = true
  functionPrefix : Naming.isIdentifier options.functionPrefix = true
  words : ∀ name ∈ p.words, Naming.isIdentifier name = true
  comments : ∀ n ∈ p.nodes, '\n' ∉ n.name.toList ∧ '\n' ∉ n.kind.toList

namespace Program

variable {options : Options} {p : Program}

namespace Spellable

/-- The names in the parameters of a spellable program are identifiers. -/
theorem parameters (h : p.Spellable options) :
    ∀ d ∈ p.parameters, ∀ name ∈ d.words, Naming.isIdentifier name = true := by
  intro d hd name hname
  refine h.words name ?_
  simp only [Program.words, List.mem_append, List.mem_flatMap]
  exact .inl (.inl ⟨d, hd, hname⟩)

/-- The names in the assignments to its outputs are identifiers. -/
theorem bindings (h : p.Spellable options) :
    ∀ o ∈ p.bindings, ∀ name ∈ o.toExpr.names, Naming.isIdentifier name = true := by
  intro o ho name hname
  refine h.words name ?_
  simp only [Program.words, List.mem_append, List.mem_flatMap]
  exact .inr ⟨o, ho, hname⟩

/-- The names in the code of its nodes are identifiers. -/
theorem node (h : p.Spellable options) {n : NodeCode} (hn : n ∈ p.nodes) :
    ∀ name ∈ n.words, Naming.isIdentifier name = true := by
  intro name hname
  refine h.words name ?_
  simp only [Program.words, List.mem_append, List.mem_flatMap]
  exact .inl (.inr ⟨n, hn, hname⟩)

/-- The functions of its nodes have identifiers for names. -/
theorem functionName (h : p.Spellable options) (n : NodeCode) :
    Naming.isIdentifier (n.functionName options) = true :=
  n.isIdentifier_functionName (.inr h.functionPrefix)

end Spellable

/-- The function of a node. -/
theorem parted_node (h : p.Spellable options) {n : NodeCode} (hn : n ∈ p.nodes) :
    Parted (joinLines ("" :: n.sourceLines options))
      ((n.function options).tokens ++ [.mark '\x7d']) := by
  have hwords := h.node hn
  simp only [NodeCode.words, List.forall_mem_append, List.forall_mem_flatMap] at hwords
  obtain ⟨⟨⟨hparameters, -⟩, -⟩, hoperations⟩ := hwords
  have hbody : Parted (joinLines (n.operations.map fun o => options.indent ++ o.statement))
      (bodyTokens (n.function options).body) :=
    parted_body fun o ho => parted_evaluate options (hoperations o ho)
  have hlines := parted_functionLines (f := n.function options) (h.functionName n) hparameters hbody
  exact parted_empty.spells.parted_line.joinLines_append hlines

/-- The statements of the entry function. -/
theorem parted_entryBody (h : p.Spellable options) :
    Parted (joinLines (p.entryBody options)) (bodyTokens (p.entryFunction options).body) := by
  have hlocals : ∀ d ∈ p.nodes.flatMap (·.locals), ∀ name ∈ d.words,
      Naming.isIdentifier name = true := by
    intro d hd name hname
    obtain ⟨n, hn, hd⟩ := List.mem_flatMap.mp hd
    refine h.node hn name ?_
    simp only [NodeCode.words, List.mem_append, List.mem_flatMap]
    exact .inl (.inl ⟨d, .inr hd, hname⟩)
  have harguments : ∀ n ∈ p.nodes, ∀ name ∈ n.arguments, Naming.isIdentifier name = true := by
    intro n hn name hname
    refine h.node hn name ?_
    simp only [NodeCode.words, List.mem_append]
    exact .inl (.inr hname)
  have hdeclared := parted_body fun d hd => parted_declare options (hlocals d hd)
  have hbound := parted_body fun o ho => parted_evaluate options (h.bindings o ho)
  -- A comment adds no token to the call that follows it.
  have hcalled : Parted
      (joinLines (p.nodes.flatMap fun n => n.comment options ++ [n.call options]))
      (bodyTokens (p.nodes.map fun n => .call (n.functionName options) n.arguments)) := by
    rw [bodyTokens, List.flatMap_map]
    refine parted_joinLines_flatMap fun n hn => ?_
    obtain ⟨hname, hkind⟩ := h.comments n hn
    exact (parted_comment_of_node options hname hkind).joinLines_append
      (parted_call options (h.functionName n) (harguments n hn))
  have hwhole := (hdeclared.joinLines_append hcalled).joinLines_append hbound
  simp only [bodyTokens, ← List.flatMap_append] at hwhole
  exact hwhole

/-- The tokens of the text of a program are those of its functions. -/
theorem tokens_source (h : p.Spellable options) :
    tokens (p.source options) =
      (p.functions options).flatMap fun f => f.tokens ++ [.mark '\x7d'] := by
  have hcomment : Parted ("//" ++ " Generated by slangvop" ++ "\n") [] :=
    parted_comment (by decide +kernel)
  have hheader : Parted (joinLines ["// Generated by slangvop"]) [] := by
    rw [joinLines_cons]
    exact hcomment.append parted_empty
  have hnodes := parted_joinLines_flatMap fun n hn => parted_node h (n := n) hn
  have hentry := parted_functionLines (f := p.entryFunction options) h.entryPoint h.parameters
    (parted_entryBody h)
  have hlines := hheader.joinLines_append
    (hnodes.joinLines_append (parted_empty.spells.parted_line.joinLines_append hentry))
  rw [source_eq, functions, List.flatMap_append, List.flatMap_map, List.flatMap_singleton]
  exact hlines.spells.tokens_eq

/-- Programs with the same text have the same functions. -/
theorem functions_eq_of_source_eq {options' : Options} {q : Program} (hp : p.Spellable options)
    (hq : q.Spellable options') (h : p.source options = q.source options') :
    p.functions options = q.functions options' := by
  have hread := readSource?_eq (tokens_source hp)
  rw [h, readSource?_eq (tokens_source hq)] at hread
  exact (Option.some.inj hread).symm

/-- **Source text determines the program.** From the text of a program over identifiers, the reader
    gives back, whatever the options are, the name, the parameters and the operations of the
    function of each node, and then the entry function: its parameters, its locals, its calls and
    its assignments. -/
theorem readSource?_source (h : p.Spellable options) :
    readSource? (p.source options) = some (p.functions options) :=
  readSource?_eq (tokens_source h)

/-- The functions of `tintedColorProgram` are read back from its source. -/
theorem readSource?_source_tintedColor :
    Graph.tintedColorProgram.Spellable {} ∧
      ∃ fs, readSource? (Graph.tintedColorProgram.source {}) = some fs ∧
        fs.map (·.name) = ["vop_add_mix", "vop_multiply_scale", "shade"] := by
  have hspellable : Graph.tintedColorProgram.Spellable {} :=
    { entryPoint := by decide
      functionPrefix := by decide
      words := by decide +kernel
      comments := by decide +kernel }
  exact ⟨hspellable, _, readSource?_source hspellable, by decide +kernel⟩

end Program

end ShaderGraph
