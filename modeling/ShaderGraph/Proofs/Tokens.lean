import ShaderGraph.Proofs.Naming
import ShaderGraph.Proofs.SourceLines

namespace ShaderGraph

/-!
# Tokens of source text

A compiler of the shading language sees a text as tokens. Blanks and comments part tokens and are
none; names and numbers are as long as they can be.

* `Token`, `tokenize`, `tokens` — the tokens of a text.
* `Spells`, `Parted` — a text stands for certain tokens, if nothing that follows goes on with its
  last name, or whatever follows.
* `Spells.append`, `Spells.append_parted`, `Parted.append` — texts side by side.
* `spells_name`, `parted_of_all`, `parted_operator`, `parted_comment` — what texts are made of.
-/

/-! ### Tokens -/

/-- A token of the shading language. -/
inductive Token where
  | word (name : String)
  | number (digits : String)
  | operator (op : Operator)
  | mark (c : Char)
deriving DecidableEq, Repr

namespace Token

/-- The token of the characters that have been read since the last break, if there are any. -/
def ofRun : List Char → List Token
  | [] => []
  | c :: chars =>
    let text := String.ofList (c :: chars)
    if Naming.isIdentifier text then [word text] else [number text]

/-- The token of a character that belongs to no name, unless it is a blank. -/
def ofChar (c : Char) : List Token :=
  match c with
  | '+' => [operator .add]
  | '-' => [operator .subtract]
  | '*' => [operator .multiply]
  | '/' => [operator .divide]
  | c => if c.isWhitespace then [] else [mark c]

end Token

/-- What a text is being read in. -/
inductive Reading where
  /-- Code, with these characters since the last break. -/
  | code (run : List Char)
  /-- A comment, which ends with the line. -/
  | comment
deriving DecidableEq, Repr

/-- The tokens of what is left of a text. -/
def tokenize : Reading → List Char → List Token
  | .comment, [] => []
  | .comment, c :: rest => if c = '\n' then tokenize (.code []) rest else tokenize .comment rest
  | .code run, [] => Token.ofRun run
  | .code run, '/' :: '/' :: rest => Token.ofRun run ++ tokenize .comment rest
  | .code run, c :: rest =>
    if Naming.isIdentifierChar c then tokenize (.code (run ++ [c])) rest
    else Token.ofRun run ++ (Token.ofChar c ++ tokenize (.code []) rest)

/-- The tokens of a text. -/
def tokens (text : String) : List Token := tokenize (.code []) text.toList

/-! ### Breaks -/

/-- No name goes on in a text. -/
def Apart (text : List Char) : Prop := ∀ c ∈ text.head?, Naming.isIdentifierChar c = false

/-- At the end of a text no name goes on. -/
theorem apart_nil : Apart [] := by simp [Apart]

/-- A character that no identifier may hold ends a name. -/
theorem apart_cons {c : Char} (hc : Naming.isIdentifierChar c = false) (rest : List Char) :
    Apart (c :: rest) := by
  simpa [Apart] using hc

/-- No character of identifiers starts a comment. -/
theorem ne_slash_of_isIdentifierChar {c : Char} (hc : Naming.isIdentifierChar c = true) :
    c ≠ '/' := by
  rintro rfl
  exact absurd hc (by decide)

/-- Where no comment starts, a character goes on with a word or ends it. -/
theorem tokenize_code_cons {run : List Char} {c : Char} {rest : List Char}
    (hc : c ≠ '/' ∨ ∀ more, rest ≠ '/' :: more) :
    tokenize (.code run) (c :: rest) =
      if Naming.isIdentifierChar c then tokenize (.code (run ++ [c])) rest
      else Token.ofRun run ++ (Token.ofChar c ++ tokenize (.code []) rest) := by
  rw [tokenize]
  rintro more rfl rfl
  rcases hc with hc | hc
  · exact hc rfl
  · exact hc more rfl

/-- At a break, the characters since the last one are a token. -/
theorem tokenize_code_of_apart {rest : List Char} (hrest : Apart rest) (run : List Char) :
    tokenize (.code run) rest = Token.ofRun run ++ tokenize (.code []) rest := by
  have hempty : Token.ofRun [] = [] := rfl
  cases rest with
  | nil => simp [tokenize, hempty]
  | cons c rest =>
    by_cases hcomment : c = '/' ∧ ∃ more, rest = '/' :: more
    · obtain ⟨rfl, more, rfl⟩ := hcomment
      simp [tokenize, hempty]
    · have hc : c ≠ '/' ∨ ∀ more, rest ≠ '/' :: more := by
        rw [not_and_or, not_exists] at hcomment
        exact hcomment
      have hapart : Naming.isIdentifierChar c = false := hrest c rfl
      rw [tokenize_code_cons hc, tokenize_code_cons hc]
      simp [hapart, hempty]

/-- The characters of a name are read as one run. -/
theorem tokenize_code_append {name : List Char}
    (hname : ∀ c ∈ name, Naming.isIdentifierChar c = true) (run rest : List Char) :
    tokenize (.code run) (name ++ rest) = tokenize (.code (run ++ name)) rest := by
  induction name generalizing run with
  | nil => rw [List.nil_append, List.append_nil]
  | cons c name ih =>
    obtain ⟨hc, hname⟩ := List.forall_mem_cons.mp hname
    rw [List.cons_append, tokenize_code_cons (.inl (ne_slash_of_isIdentifierChar hc)), if_pos hc,
      ih hname, List.append_assoc, List.singleton_append]

/-! ### Texts that stand for tokens -/

/-- The text stands for the tokens `ts` if its last name does not go on in what follows. -/
def Spells (text : String) (ts : List Token) : Prop :=
  ∀ rest, Apart rest → tokenize (.code []) (text.toList ++ rest) = ts ++ tokenize (.code []) rest

/-- The text stands for the tokens `ts` whatever follows. -/
def Parted (text : String) (ts : List Token) : Prop :=
  ∀ rest, tokenize (.code []) (text.toList ++ rest) = ts ++ tokenize (.code []) rest

variable {text more : String} {ts us : List Token}

/-- A part of a text is one wherever a word may end. -/
theorem Parted.spells (h : Parted text ts) : Spells text ts := fun rest _ => h rest

/-- The tokens of a text that spells them by itself. -/
theorem Spells.tokens_eq (h : Spells text ts) : tokens text = ts := by
  have htext := h [] apart_nil
  rw [List.append_nil] at htext
  rw [tokens, htext]
  exact List.append_nil ts

/-- The empty text has no tokens. -/
theorem parted_empty : Parted "" [] := fun _ => rfl

/-- A part may be followed by a text that needs a break behind it. -/
theorem Parted.append_spells (h : Parted text ts) (hmore : Spells more us) :
    Spells (text ++ more) (ts ++ us) := by
  intro rest hrest
  rw [String.toList_append, List.append_assoc, h, hmore rest hrest, List.append_assoc]

/-- Parts in sequence are a part. -/
theorem Parted.append (h : Parted text ts) (hmore : Parted more us) :
    Parted (text ++ more) (ts ++ us) := by
  intro rest
  rw [String.toList_append, List.append_assoc, h, hmore, List.append_assoc]

/-- A name ends where a text begins that no name can begin with. -/
theorem Spells.append_parted (h : Spells text ts) (hmore : Parted more us) {c : Char}
    {chars : List Char} (hchars : more.toList = c :: chars)
    (hc : Naming.isIdentifierChar c = false) : Parted (text ++ more) (ts ++ us) := by
  intro rest
  have hapart : Apart (more.toList ++ rest) := by
    rw [hchars]
    exact apart_cons hc _
  rw [String.toList_append, List.append_assoc, h _ hapart, hmore, List.append_assoc]

/-- An identifier is one token. -/
theorem spells_name {name : String} (hname : Naming.isIdentifier name = true) :
    Spells name [.word name] := by
  intro rest hrest
  have hall : ∀ c ∈ name.toList, Naming.isIdentifierChar c = true := fun _ hc =>
    Naming.isIdentifierChar_of_mem_identifier hname hc
  have hrun : Token.ofRun name.toList = [.word name] := by
    cases htext : name.toList with
    | nil => simp [Naming.isIdentifier, htext] at hname
    | cons first others => rw [Token.ofRun, ← htext, String.ofList_toList, if_pos hname]
  rw [tokenize_code_append hall, tokenize_code_of_apart hrest, List.nil_append, hrun]

/-- A text without slashes and names is read one character at a time. -/
theorem parted_of_all
    (htext : (text.toList.all fun c => !Naming.isIdentifierChar c && c != '/') = true)
    (hts : text.toList.flatMap Token.ofChar = ts) : Parted text ts := by
  intro rest
  rw [← hts]
  generalize text.toList = chars at htext
  induction chars with
  | nil => rfl
  | cons c chars ih =>
    simp only [List.all_cons, Bool.and_eq_true, Bool.not_eq_true', bne_iff_ne] at htext
    obtain ⟨⟨hchar, hslash⟩, htext⟩ := htext
    rw [List.cons_append, tokenize_code_cons (.inl hslash), hchar, ih htext, List.flatMap_cons,
      List.append_assoc]
    rfl

/-- An operator stands between blanks, so that a division does not start a comment. -/
theorem parted_operator (op : Operator) : Parted (" " ++ op.symbol ++ " ") [.operator op] := by
  intro rest
  cases op <;> simp [Operator.symbol, tokenize, Token.ofRun, Token.ofChar, Naming.isIdentifierChar]

/-- A comment is read over. -/
theorem parted_comment (htext : '\n' ∉ text.toList) : Parted ("//" ++ text ++ "\n") [] := by
  intro rest
  have hskip : ∀ chars : List Char, '\n' ∉ chars →
      tokenize .comment (chars ++ '\n' :: rest) = tokenize (.code []) rest := by
    intro chars hchars
    induction chars with
    | nil => simp [tokenize]
    | cons c chars ih =>
      rw [List.mem_cons, not_or] at hchars
      rw [List.cons_append, tokenize, if_neg (Ne.symm hchars.1), ih hchars.2]
  have hlist :
      ("//" ++ text ++ "\n").toList ++ rest = '/' :: '/' :: (text.toList ++ '\n' :: rest) := by
    simp
  rw [hlist, tokenize, hskip _ htext]
  rfl

/-! ### Lists of texts -/

/-- A line feed is no token. -/
theorem parted_break : Parted "\n" [] := parted_of_all (by decide) (by decide)

/-- A line ends every name. -/
theorem Spells.parted_line {line : String} (h : Spells line ts) : Parted (joinLines [line]) ts := by
  have hline := (h.append_parted parted_break rfl (by decide)).append parted_empty
  rw [List.append_nil, List.append_nil] at hline
  rw [joinLines_cons]
  exact hline

/-- Lines in sequence have their tokens in sequence. -/
theorem Parted.joinLines_append {lines others : List String} (h : Parted (joinLines lines) ts)
    (hothers : Parted (joinLines others) us) : Parted (joinLines (lines ++ others)) (ts ++ us) := by
  rw [ShaderGraph.joinLines_append]
  exact h.append hothers

/-- The lines of several things stand for the tokens of one after another. -/
theorem parted_joinLines_flatMap {α : Type} {l : List α} {lines : α → List String}
    {t : α → List Token} (h : ∀ a ∈ l, Parted (joinLines (lines a)) (t a)) :
    Parted (joinLines (l.flatMap lines)) (l.flatMap t) := by
  induction l with
  | nil => exact parted_empty
  | cons a l ih =>
    obtain ⟨ha, hl⟩ := List.forall_mem_cons.mp h
    exact ha.joinLines_append (ih hl)

/-- Texts with commas between them stand for their tokens with commas between them. -/
theorem spells_intercalate {α : Type} {l : List α} {f : α → String} {t : α → List Token}
    (h : ∀ a ∈ l, Spells (f a) (t a)) :
    Spells (", ".intercalate (l.map f)) ([Token.mark ','].intercalate (l.map t)) := by
  have hcomma : Parted ", " [.mark ','] := parted_of_all (by decide) (by decide)
  induction l with
  | nil => exact parted_empty.spells
  | cons a l ih =>
    obtain ⟨ha, hl⟩ := List.forall_mem_cons.mp h
    cases l with
    | nil => simpa using ha
    | cons b l =>
      simp only [List.map_cons, String.intercalate_cons_cons, List.intercalate_cons_cons]
      exact (ha.append_parted hcomma rfl (by decide)).append_spells (ih hl)

end ShaderGraph
