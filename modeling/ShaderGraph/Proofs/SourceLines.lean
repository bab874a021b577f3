import ShaderGraph.Proofs.Arithmetic
import ShaderGraph.Proofs.ExecutionOrder
import ShaderGraph.Proofs.Shape

namespace ShaderGraph

/-!
# Lines of source text

A source text is a list of lines, and the comments that name nodes are lines of their own among
them. What stands in a comment is the name of a node as the host spells it, line breaks included.

* `textLines` — the lines of a text; `textLines_joinLines` says what becomes of lines that are
  joined although some have line breaks.
* `Program.sourceLines`, `source_eq` — the source text of a program as joined lines.
* `IsComment`, `Program.inserted_comments` — comments, and the source text with and without them.
* `Graph.smuggledLine` — a valid graph, the name of one of whose nodes becomes a statement.
-/

/-! ### Lines of a text -/

/-- The lines of a text, without the breaks between them. -/
def textLines (text : String) : List (List Char) := text.toList.splitOn '\n'

/-- A line break parts the lines before it from the lines after it. -/
theorem textLines_append_break (front back : String) :
    textLines (front ++ "\n" ++ back) = textLines front ++ textLines back := by
  have hchars : (front ++ "\n" ++ back).toList = front.toList ++ '\n' :: back.toList := by simp
  rw [textLines, hchars, List.splitOn_append_cons_self]
  rfl

/-- Lines are joined with a line feed behind each. -/
theorem joinLines_cons (line : String) (lines : List String) :
    joinLines (line :: lines) = line ++ "\n" ++ joinLines lines := by
  simp [joinLines, String.join_cons]

/-- Lines in sequence are joined in sequence. -/
theorem joinLines_append (lines others : List String) :
    joinLines (lines ++ others) = joinLines lines ++ joinLines others := by
  simp [joinLines, String.join_append]

/-- Joined lines with line breaks of their own become several lines. -/
theorem textLines_joinLines (lines : List String) :
    textLines (joinLines lines) = lines.flatMap textLines ++ [[]] := by
  induction lines with
  | nil => rfl
  | cons line lines ih =>
    rw [joinLines_cons, textLines_append_break, ih, List.flatMap_cons, List.append_assoc]

/-- A text without line breaks goes on the last line of the text before it. -/
theorem exists_textLines_append (front back : String) (hback : '\n' ∉ back.toList) :
    ∃ lines last, textLines front = lines ++ [last] ∧
      textLines (front ++ back) = lines ++ [last ++ back.toList] := by
  unfold textLines
  rw [String.toList_append]
  induction front.toList with
  | nil => exact ⟨[], [], by simp, by simp [List.splitOn_eq_singleton hback]⟩
  | cons c chars ih =>
    obtain ⟨lines, last, hfront, hwhole⟩ := ih
    rw [List.cons_append, List.splitOn_cons_eq_if_modifyHead, List.splitOn_cons_eq_if_modifyHead,
      hfront, hwhole]
    split
    · exact ⟨[] :: lines, last, rfl, rfl⟩
    · cases lines with
      | nil => exact ⟨[], c :: last, rfl, rfl⟩
      | cons line lines => exact ⟨(c :: line) :: lines, last, rfl, rfl⟩

/-- A text without line breaks goes on the first line of the text after it. -/
theorem textLines_append (front back : String) (hfront : '\n' ∉ front.toList) :
    textLines (front ++ back) = (textLines back).modifyHead (front.toList ++ ·) := by
  unfold textLines
  rw [String.toList_append]
  generalize front.toList = chars at hfront
  induction chars with
  | nil => cases h : back.toList.splitOn '\n' <;> simp [h]
  | cons c chars ih =>
    rw [List.mem_cons, not_or] at hfront
    have hc : ¬ (c == '\n') = true := by simpa using Ne.symm hfront.1
    rw [List.cons_append, List.splitOn_cons_eq_if_modifyHead, if_neg hc, ih hfront.2,
      List.modifyHead_modifyHead]
    rfl

/-! ### Lines of a program -/

/-- The lines of the function of a node. -/
def NodeCode.sourceLines (options : Options) (n : NodeCode) : List String :=
  functionLines (n.functionName options) n.parameters
    (n.operations.map fun o => options.indent ++ o.statement)

namespace Program

/-- The lines of the entry function. -/
def entryLines (options : Options) (p : Program) : List String :=
  functionLines options.entryPoint p.parameters (p.entryBody options)

/-- The lines of the source text of a program, each with what the host put into it. -/
def sourceLines (options : Options) (p : Program) : List String :=
  "// Generated by slangvop" :: (p.nodes.flatMap (fun n => "" :: n.sourceLines options)
    ++ "" :: p.entryLines options)

/-- The source text of a program consists of its lines. -/
theorem source_eq (options : Options) (p : Program) :
    p.source options = joinLines (p.sourceLines options) := by
  have hnodes : ∀ nodes : List NodeCode,
      String.join (nodes.map fun n => "\n" ++ n.functionText options) =
        joinLines (nodes.flatMap fun n => "" :: n.sourceLines options) := by
    intro nodes
    induction nodes with
    | nil => rfl
    | cons n nodes ih =>
      rw [List.map_cons, String.join_cons, ih, List.flatMap_cons, joinLines_append, joinLines_cons,
        String.empty_append]
      rfl
  have hentry : p.entryText options = joinLines (p.entryLines options) := rfl
  unfold source
  rw [hnodes, hentry, sourceLines, joinLines_cons, joinLines_append, joinLines_cons,
    String.empty_append]
  simp [String.append_assoc]

/-- The lines of a source text are those of its parts, and an empty one at the end. -/
theorem textLines_source (options : Options) (p : Program) :
    textLines (p.source options) = (p.sourceLines options).flatMap textLines ++ [[]] := by
  rw [source_eq, textLines_joinLines]

/-- Only the lines in front of the calls depend on whether comments are wanted. -/
theorem exists_sourceLines (options : Options) (p : Program) :
    ∃ front back : List String, ∀ shown,
      p.sourceLines { options with nodeComments := shown } =
        front ++ p.nodes.flatMap (fun n =>
          n.comment { options with nodeComments := shown } ++ [n.call options]) ++ back := by
  let declared := (p.nodes.flatMap (·.locals)).map fun d => options.indent ++ d.text ++ ";"
  let bound := p.bindings.map fun o => options.indent ++ o.statement
  -- Without a body, the entry function is what stands around its body.
  obtain ⟨signature, hsignature⟩ : ∃ signature, ∀ body,
      functionLines options.entryPoint p.parameters body =
        signature :: "\x7b" :: body ++ ["\x7d"] :=
    ⟨_, fun _ => rfl⟩
  refine ⟨"// Generated by slangvop" :: p.nodes.flatMap (fun n => "" :: n.sourceLines options)
    ++ "" :: signature :: "\x7b" :: declared, bound ++ ["\x7d"], fun shown => ?_⟩
  have hbody : p.entryBody { options with nodeComments := shown } =
      declared ++ p.nodes.flatMap (fun n =>
        n.comment { options with nodeComments := shown } ++ [n.call options]) ++ bound := rfl
  show "// Generated by slangvop" :: (p.nodes.flatMap (fun n => "" :: n.sourceLines options)
    ++ "" :: functionLines options.entryPoint p.parameters (p.entryBody _)) = _
  rw [hsignature, hbody]
  simp

end Program

/-! ### Comments -/

/-- The line is indented as statements are, and all that follows is a comment. -/
def IsComment (options : Options) (line : List Char) : Prop :=
  (options.indent ++ "//").toList <+: line

/-- Whether a line is a comment can be decided. -/
instance (options : Options) : DecidablePred (IsComment options) :=
  fun line => inferInstanceAs (Decidable ((options.indent ++ "//").toList <+: line))

/-- An indentation consists of blanks. -/
theorem toList_indent (options : Options) :
    options.indent.toList = List.replicate options.indentWidth ' ' := by
  have hpush : ∀ w, (Nat.repeat (fun text : String => text.push ' ') w "").toList =
      List.replicate w ' ' := by
    intro w
    induction w with
    | zero => rfl
    | succ w ih => rw [Nat.repeat, String.toList_push, ih, List.replicate_succ']
  exact hpush options.indentWidth

/-- What stands in parentheses after a line does not start a comment. -/
theorem isComment_append_iff {options : Options} {line rest : List Char} :
    IsComment options (line ++ ' ' :: '(' :: rest) ↔ IsComment options line := by
  refine ⟨fun h => ?_, fun h => h.trans (List.prefix_append _ _)⟩
  unfold IsComment at h ⊢
  rw [String.toList_append, toList_indent] at h ⊢
  generalize options.indentWidth = w at h ⊢
  induction line generalizing w with
  | nil =>
    -- The blank would have to be the last one of the indentation.
    match w with
    | 0 => simp at h
    | 1 => simp [List.cons_prefix_cons] at h
    | w + 2 => simp [List.replicate_succ, List.cons_prefix_cons] at h
  | cons c line ih =>
    match w with
    | 0 =>
      cases line with
      | nil => simp [List.cons_prefix_cons] at h
      | cons d line => simpa [List.cons_prefix_cons] using h
    | w + 1 =>
      rw [List.replicate_succ, List.cons_append, List.cons_append, List.cons_prefix_cons] at h
      rw [List.replicate_succ, List.cons_append, List.cons_prefix_cons]
      exact ⟨h.1, ih w h.2⟩

/-- The lines of the comment that names a node: the first one starts the comment, the others are
    those on which the name goes on. -/
theorem NodeCode.exists_textLines_comment (options : Options) {n : NodeCode}
    (hkind : '\n' ∉ n.kind.toList) :
    ∃ first rest,
      (n.comment { options with nodeComments := true }).flatMap textLines = first :: rest ∧
      IsComment options first ∧
      List.Forall₂
        (fun part line => part <+: line ∧ (IsComment options line ↔ IsComment options part))
        (textLines n.name).tail rest := by
  have hsuffix : (" (" ++ n.kind ++ ")").toList = ' ' :: '(' :: (n.kind.toList ++ [')']) := by simp
  have hfront : '\n' ∉ (options.indent ++ "// ").toList := by
    simp [toList_indent, List.mem_replicate]
  have htext : (n.comment { options with nodeComments := true }).flatMap textLines =
      textLines ((options.indent ++ "// ") ++ (n.name ++ (" (" ++ n.kind ++ ")"))) := by
    show textLines (options.indent ++ "// " ++ n.name ++ " (" ++ n.kind ++ ")") ++ [] = _
    simp only [String.append_assoc, List.append_nil]
  have hstarts : ∀ line, IsComment options ((options.indent ++ "// ").toList ++ line) := by
    intro line
    refine List.IsPrefix.trans ?_ (List.prefix_append _ line)
    exact ⟨[' '], by simp⟩
  obtain ⟨lines, last, hname, hwhole⟩ :=
    exists_textLines_append n.name (" (" ++ n.kind ++ ")") (by simp [hkind])
  rw [htext, textLines_append _ _ hfront, hwhole, hname, hsuffix]
  have hlast : last <+: last ++ ' ' :: '(' :: (n.kind.toList ++ [')']) ∧
      (IsComment options (last ++ ' ' :: '(' :: (n.kind.toList ++ [')'])) ↔
        IsComment options last) :=
    ⟨List.prefix_append _ _, isComment_append_iff⟩
  cases lines with
  | nil => exact ⟨_, [], rfl, hstarts _, .nil⟩
  | cons line lines =>
    refine ⟨_, lines ++ [_], rfl, hstarts line, ?_⟩
    exact List.rel_append (List.forall₂_same.mpr fun part _ => ⟨List.prefix_rfl, Iff.rfl⟩)
      (.cons hlast .nil)

/-- A line of the comment of a node is a comment, or it begins with a further line of the name. -/
theorem NodeCode.textLines_comment_or (options : Options) {n : NodeCode}
    (hkind : '\n' ∉ n.kind.toList) {line : List Char}
    (hline : line ∈ (n.comment { options with nodeComments := true }).flatMap textLines) :
    IsComment options line ∨ ∃ part ∈ (textLines n.name).tail, part <+: line := by
  obtain ⟨first, rest, hcomment, hfirst, hrest⟩ := n.exists_textLines_comment options hkind
  rw [hcomment, List.mem_cons] at hline
  rcases hline with rfl | hline
  · exact .inl hfirst
  · obtain ⟨part, hpart, hprefix, -⟩ := exists_of_mem_right hrest hline
    exact .inr ⟨part, hpart, hprefix⟩

/-- The lines of a comment are comments if and only if those are on which the name goes on. -/
theorem NodeCode.isComment_textLines_comment_iff (options : Options) {n : NodeCode}
    (hkind : '\n' ∉ n.kind.toList) :
    (∀ line ∈ (n.comment { options with nodeComments := true }).flatMap textLines,
        IsComment options line) ↔
      ∀ part ∈ (textLines n.name).tail, IsComment options part := by
  obtain ⟨first, rest, hcomment, hfirst, hrest⟩ := n.exists_textLines_comment options hkind
  rw [hcomment, List.forall_mem_cons, and_iff_right hfirst]
  constructor
  · intro h part hpart
    obtain ⟨line, hline, -, hiff⟩ := exists_of_mem_left hrest hpart
    exact hiff.mp (h line hline)
  · intro h line hline
    obtain ⟨part, hpart, -, hiff⟩ := exists_of_mem_right hrest hline
    exact hiff.mpr (h part hpart)

/-! ### Source text with and without comments -/

/-- Comments add lines to the source text. All of them are comments if and only if this holds of
    every line on which a node's name goes on. -/
theorem Program.inserted_comments (options : Options) {p : Program}
    (hkinds : ∀ n ∈ p.nodes, '\n' ∉ n.kind.toList) :
    Inserted (fun line => IsComment options line ∨
        ∃ n ∈ p.nodes, ∃ part ∈ (textLines n.name).tail, part <+: line)
      (textLines (p.source { options with nodeComments := false }))
      (textLines (p.source { options with nodeComments := true })) ∧
    (Inserted (IsComment options) (textLines (p.source { options with nodeComments := false }))
        (textLines (p.source { options with nodeComments := true })) ↔
      ∀ n ∈ p.nodes, ∀ part ∈ (textLines n.name).tail, IsComment options part) := by
  obtain ⟨front, back, hlines⟩ := p.exists_sourceLines options
  let comments := fun n : NodeCode =>
    (n.comment { options with nodeComments := true }).flatMap textLines
  let calls := fun n : NodeCode => textLines (n.call options)
  have htext : ∀ shown, textLines (p.source { options with nodeComments := shown }) =
      front.flatMap textLines ++ p.nodes.flatMap (fun n =>
        (n.comment { options with nodeComments := shown }).flatMap textLines ++ calls n)
        ++ (back.flatMap textLines ++ [[]]) := by
    intro shown
    rw [textLines_source, hlines]
    simp [List.flatMap_assoc, calls]
  have hplain : textLines (p.source { options with nodeComments := false }) =
      front.flatMap textLines ++ p.nodes.flatMap calls ++ (back.flatMap textLines ++ [[]]) :=
    htext false
  have hannotated : textLines (p.source { options with nodeComments := true }) =
      front.flatMap textLines ++ p.nodes.flatMap (fun n => comments n ++ calls n)
        ++ (back.flatMap textLines ++ [[]]) := htext true
  rw [hplain, hannotated, Inserted.flatMap_iff, Inserted.flatMap_iff]
  refine ⟨fun n hn line hline => ?_, forall₂_congr fun n hn => ?_⟩
  · refine (n.textLines_comment_or options (hkinds n hn) hline).imp_right ?_
    rintro ⟨part, hpart, hprefix⟩
    exact ⟨n, hn, part, hpart, hprefix⟩
  · exact n.isComment_textLines_comment_iff options (hkinds n hn)

namespace Graph

variable {g : Graph}

/-- The kinds of the arithmetic nodes have no line feeds. -/
theorem break_not_mem_kind (op : Operator) : '\n' ∉ op.kind.toList := by
  cases op <;> decide

/-- **Comments.** A graph that compiles without comments compiles with them, and the text with
    comments is the one without them with lines put in. Each is a comment or a line on which the
    name of a node goes on, and all are comments if and only if these further lines of names look
    like comments themselves. -/
theorem inserted_comments_of_compileToSource (options : Options) {plain : String}
    (h : compileToSource { options with nodeComments := false } g = .ok plain) :
    ∃ annotated, compileToSource { options with nodeComments := true } g = .ok annotated ∧
      Inserted (fun line => IsComment options line ∨
          ∃ n ∈ g.nodes, ∃ part ∈ (textLines n.name).tail, part <+: line)
        (textLines plain) (textLines annotated) ∧
      (Inserted (IsComment options) (textLines plain) (textLines annotated) ↔
        ∀ n ∈ g.nodes, ∀ part ∈ (textLines n.name).tail, IsComment options part) := by
  obtain ⟨p, hp, rfl⟩ := map_eq_ok.mp h
  have hkinds : ∀ code ∈ p.nodes, '\n' ∉ code.kind.toList := by
    intro code hcode
    obtain ⟨n, hn, hgenerates⟩ := exists_node_of_compile hp hcode
    obtain ⟨_, _, _, hshape⟩ := hgenerates.isCodeOf
    obtain ⟨op, hop, -⟩ := operations_of_nodeCode (valid_of_compile hp) hn hgenerates.nodeCode_eq
    rw [hshape.kind_eq, ← hop]
    exact break_not_mem_kind op
  -- The nodes of the program have the names of the nodes of the graph.
  have hnames : ∀ {P : String → Prop}, (∀ code ∈ p.nodes, P code.name) ↔
      ∀ n ∈ g.nodes, P n.name := by
    intro P
    refine ⟨fun hall n hn => ?_, fun hall code hcode => ?_⟩
    · obtain ⟨code, hcode, -, _, _, _, hshape⟩ := exists_code_of_compile hp hn
      exact hshape.name_eq ▸ hall code hcode
    · obtain ⟨n, hn, -, _, _, _, hshape⟩ := exists_node_of_compile hp hcode
      exact hshape.name_eq ▸ hall n hn
  obtain ⟨hinserted, hiff⟩ := Program.inserted_comments options hkinds
  refine ⟨_, map_eq_ok.mpr ⟨p, hp, rfl⟩, hinserted.imp ?_, hiff.trans
    (hnames (P := fun name => ∀ part ∈ (textLines name).tail, IsComment options part))⟩
  refine fun line => Or.imp_right ?_
  rintro ⟨code, hcode, part, hpart, hprefix⟩
  obtain ⟨n, hn, -, _, _, _, hshape⟩ := exists_node_of_compile hp hcode
  exact ⟨n, hn, part, hshape.name_eq ▸ hpart, hprefix⟩

/-- No name in `tintedColor` has a line break, so its comments are comments. -/
theorem inserted_comments_tintedColor :
    compileToSource { nodeComments := false } tintedColor =
        .ok (tintedColorProgram.source { nodeComments := false }) ∧
      ∃ annotated, compileToSource {} tintedColor = .ok annotated ∧
        Inserted (IsComment {}) (textLines (tintedColorProgram.source { nodeComments := false }))
          (textLines annotated) := by
  have hplain : compileToSource { nodeComments := false } tintedColor =
      .ok (tintedColorProgram.source { nodeComments := false }) :=
    map_eq_ok.mpr ⟨_, compile_tintedColor, rfl⟩
  obtain ⟨annotated, hannotated, -, hiff⟩ := inserted_comments_of_compileToSource {} hplain
  exact ⟨hplain, annotated, hannotated, hiff.mpr (by decide +kernel)⟩

/-! ### A name that becomes a statement -/

/-- The name of the node goes on after a line break like a statement of the entry function. -/
def smuggledLine : Graph where
  inputs := [⟨"x", "float"⟩]
  outputs := [⟨"result", "float"⟩]
  nodes := [
    { name := "mix\n    _result = _x; //"
      kind := "add"
      inputs := [⟨"input1", "float"⟩]
      outputs := [⟨"sum", "float"⟩] }]
  connections := [
    ⟨⟨"subinput", "x"⟩, ⟨"mix\n    _result = _x; //", "input1"⟩⟩,
    ⟨⟨"mix\n    _result = _x; //", "sum"⟩, ⟨"suboutput", "result"⟩⟩]

/-- The program of `smuggledLine`. -/
def smuggledLineProgram : Program where
  parameters := [⟨"_x", "float", none⟩, ⟨"_result", "float", some "out"⟩]
  nodes := [
    { name := "mix\n    _result = _x; //"
      kind := "add"
      parameters := [⟨"_input1", "float", none⟩, ⟨"_sum", "float", some "out"⟩]
      operations := [.assign "_sum" (.var "_input1")]
      arguments := ["_x", "mix______result____x_____sum"]
      locals := [⟨"mix______result____x_____sum", "float", none⟩] }]
  bindings := [.assign "_result" (.var "mix______result____x_____sum")]

/-- Comments need not be comments: on this valid graph they put an assignment in. -/
theorem not_inserted_comments_smuggledLine :
    (Registry.builtin.compile smuggledLine).result = .ok smuggledLineProgram ∧
      "    _result = _x; // (add)".toList ∈ textLines (smuggledLineProgram.source {}) ∧
      ¬ Inserted (IsComment {}) (textLines (smuggledLineProgram.source { nodeComments := false }))
        (textLines (smuggledLineProgram.source {})) := by
  have hline : "    _result = _x; // (add)".toList ∈ textLines (smuggledLineProgram.source {}) := by
    rw [Program.textLines_source]
    decide +kernel
  refine ⟨by decide +kernel, hline, fun h => ?_⟩
  -- The line is not there without comments, and it is none.
  rcases h.mem_or hline with hplain | hcomment
  · rw [Program.textLines_source] at hplain
    exact absurd hplain (by decide +kernel)
  · exact absurd hcomment (by decide +kernel)

end Graph

end ShaderGraph
