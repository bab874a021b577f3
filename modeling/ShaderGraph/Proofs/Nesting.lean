import Mathlib.Data.List.Chain
import ShaderGraph.Proofs.ExpressionReader

namespace ShaderGraph

/-!
# Nested parentheses

Which parentheses of a text belong together, and what becomes of the tokens of a text that is cut at
parentheses.

* `nest`, `Balanced` — the number of open parentheses along a text; texts whose parentheses pair up.
  Two parentheses match if the text between them is balanced.
* `Token.nest` — the same along tokens. `exists_close` finds the parenthesis that closes one.
* `Beside`, `Expr.isChain_render` — what stands side by side in the text of an expression.
* `tokenize_append`, `tokenize_append_of_break` — the tokens of texts side by side; `tokens_unwrap`
  says what they are with a pair of parentheses and without it.
* `foldlM_nest_tokenize` — parentheses are open in the tokens as they are in the text.
-/

/-! ### Open parentheses -/

/-- The number of parentheses that are open after a character, `depth` before it. There is none if
    the character closes a parenthesis and none is open. -/
def nest : Nat → Char → Option Nat
  | depth, '(' => some (depth + 1)
  | 0, ')' => none
  | depth + 1, ')' => some depth
  | depth, _ => some depth

/-- Every parenthesis in the text is matched by another one in it. -/
def Balanced (text : String) : Prop := text.toList.foldlM nest 0 = some 0

/-- Whether a text is balanced can be decided. -/
instance : DecidablePred Balanced := fun _ => inferInstanceAs (Decidable (_ = _))

/-- Other characters than parentheses keep the depth. -/
theorem nest_of_ne {c : Char} (hopen : c ≠ '(') (hclose : c ≠ ')') (depth : Nat) :
    nest depth c = some depth := by
  unfold nest
  split
  · exact absurd rfl hopen
  · exact absurd rfl hclose
  · exact absurd rfl hclose
  · rfl

/-- The characters of names keep the depth. -/
theorem nest_of_isIdentifierChar {c : Char} (hc : Naming.isIdentifierChar c = true) (depth : Nat) :
    nest depth c = some depth := by
  apply nest_of_ne
  · rintro rfl
    exact absurd hc (by decide)
  · rintro rfl
    exact absurd hc (by decide)

/-- Blanks keep the depth. -/
theorem nest_of_isWhitespace {c : Char} (hc : c.isWhitespace = true) (depth : Nat) :
    nest depth c = some depth := by
  apply nest_of_ne
  · rintro rfl
    exact absurd hc (by decide)
  · rintro rfl
    exact absurd hc (by decide)

/-- The number of parentheses that are open after a token. -/
def Token.nest (depth : Nat) : Token → Option Nat
  | .mark c => ShaderGraph.nest depth c
  | _ => some depth

/-- Tokens open a parenthesis, close one or leave all as they are. -/
theorem Token.nest_cases (t : Token) :
    t = .mark '(' ∨ t = .mark ')' ∨ ∀ depth, t.nest depth = some depth := by
  cases t with
  | mark c =>
    by_cases hopen : c = '('
    · exact .inl (congrArg Token.mark hopen)
    · by_cases hclose : c = ')'
      · exact .inr (.inl (congrArg Token.mark hclose))
      · exact .inr (.inr fun depth => nest_of_ne hopen hclose depth)
  | word name => exact .inr (.inr fun _ => rfl)
  | number digits => exact .inr (.inr fun _ => rfl)
  | operator op => exact .inr (.inr fun _ => rfl)

variable {ts : List Token}

/-- More parentheses may be open around tokens. -/
theorem foldlM_nest_add {depth depth' : Nat} (h : ts.foldlM Token.nest depth = some depth')
    (more : Nat) : ts.foldlM Token.nest (depth + more) = some (depth' + more) := by
  induction ts generalizing depth with
  | nil =>
    obtain rfl := Option.some.inj h
    rfl
  | cons t ts ih =>
    rw [List.foldlM_cons] at h ⊢
    rcases t.nest_cases with rfl | rfl | hkeeps
    · show ts.foldlM Token.nest (depth + more + 1) = _
      rw [Nat.add_right_comm]
      exact ih h
    · cases depth with
      | zero => cases h
      | succ depth =>
        rw [Nat.add_right_comm]
        exact ih h
    · rw [hkeeps] at h ⊢
      exact ih h

/-- What is open is closed somewhere, and the parentheses before and after that pair up. -/
theorem exists_close {depth : Nat} (h : ts.foldlM Token.nest (depth + 1) = some 0) :
    ∃ inside after, ts = inside ++ .mark ')' :: after ∧ inside.foldlM Token.nest depth = some 0 ∧
      after.foldlM Token.nest 0 = some 0 := by
  induction ts generalizing depth with
  | nil => cases h
  | cons t ts ih =>
    rw [List.foldlM_cons] at h
    rcases t.nest_cases with rfl | rfl | hkeeps
    · have htail : ts.foldlM Token.nest (depth + 1 + 1) = some 0 := h
      obtain ⟨inside, after, rfl, hinside, hafter⟩ := ih htail
      exact ⟨.mark '(' :: inside, after, rfl, hinside, hafter⟩
    · cases depth with
      | zero => exact ⟨[], ts, rfl, rfl, h⟩
      | succ depth =>
        obtain ⟨inside, after, rfl, hinside, hafter⟩ := ih h
        exact ⟨.mark ')' :: inside, after, rfl, hinside, hafter⟩
    · rw [hkeeps] at h
      obtain ⟨inside, after, rfl, hinside, hafter⟩ := ih h
      refine ⟨t :: inside, after, rfl, ?_, hafter⟩
      rw [List.foldlM_cons, hkeeps]
      exact hinside

/-! ### Characters side by side -/

/-- Names and operators end before a blank and before a parenthesis. -/
def Breaks (c : Char) : Prop := c = ' ' ∨ c = '(' ∨ c = ')'

/-- Characters at which words end are none of identifiers. -/
theorem Breaks.isIdentifierChar {c : Char} (hc : Breaks c) : Naming.isIdentifierChar c = false := by
  rcases hc with rfl | rfl | rfl <;> decide

/-- No comment begins with them. -/
theorem Breaks.ne_slash {c : Char} (hc : Breaks c) : c ≠ '/' := by
  rcases hc with rfl | rfl | rfl <;> decide

/-- What may stand side by side in the text of an expression: two slashes may not, before an opening
    parenthesis stands a blank or another one, and after a closing one likewise. -/
def Beside (c d : Char) : Prop :=
  (c = '/' → d ≠ '/') ∧ (d = '(' → c = ' ' ∨ c = '(') ∧ (c = ')' → d = ' ' ∨ d = ')')

/-- Two characters of identifiers may stand side by side. -/
theorem beside_of_isIdentifierChar {c d : Char} (hc : Naming.isIdentifierChar c = true)
    (hd : Naming.isIdentifierChar d = true) : Beside c d := by
  refine ⟨fun _ => ne_slash_of_isIdentifierChar hd, ?_, ?_⟩
  · rintro rfl
    exact absurd hd (by decide)
  · rintro rfl
    exact absurd hc (by decide)

/-- Any texts may stand on the two sides of a blank. -/
theorem isChain_around_blank {front back : List Char} (hfront : front.IsChain Beside)
    (hback : back.IsChain Beside) : (front ++ ' ' :: back).IsChain Beside := by
  rw [List.isChain_append, List.isChain_cons]
  exact ⟨hfront, ⟨by simp [Beside], hback⟩, by simp [Beside]⟩

/-- Any text may stand in parentheses. -/
theorem isChain_in_parentheses {chars : List Char} (h : chars.IsChain Beside) :
    ('(' :: (chars ++ [')'])).IsChain Beside := by
  have hopen : ∀ d, Beside '(' d := by simp [Beside]
  rw [List.isChain_cons, List.isChain_append]
  exact ⟨fun d _ => hopen d, h, List.isChain_singleton _, by simp [Beside]⟩

/-- In an identifier, all characters may stand side by side. -/
theorem isChain_name {name : String} (hname : Naming.isIdentifier name = true) :
    name.toList.IsChain Beside := by
  have hchars : ∀ c ∈ name.toList, Naming.isIdentifierChar c = true := fun _ hc =>
    Naming.isIdentifierChar_of_mem_identifier hname hc
  refine (List.pairwise_of_forall_mem_list fun c hc d hd => ?_).isChain
  exact beside_of_isIdentifierChar (hchars c hc) (hchars d hd)

/-- In a text that is enclosed, characters may stand side by side that might in the text itself. -/
theorem isChain_enclose {text : String} (h : text.toList.IsChain Beside) (loose : Bool) :
    (enclose loose text).toList.IsChain Beside := by
  cases loose with
  | false => exact h
  | true =>
    have htext : (enclose true text).toList = '(' :: (text.toList ++ [')']) := by simp [enclose]
    rw [htext]
    exact isChain_in_parentheses h

/-- What stands side by side in the text of an expression may do so. -/
theorem Expr.isChain_render {e : Expr} (he : ∀ name ∈ e.names, Naming.isIdentifier name = true)
    (level : Nat) : (e.render level).toList.IsChain Beside := by
  induction e generalizing level with
  | var name => exact isChain_name (he name List.mem_cons_self)
  | assign target value ih =>
    obtain ⟨htarget, hvalue⟩ := List.forall_mem_cons.mp he
    refine isChain_enclose ?_ _
    have htext : (target ++ " = " ++ value.render 1).toList =
        target.toList ++ ' ' :: (['='] ++ ' ' :: (value.render 1).toList) := by simp
    rw [htext]
    exact isChain_around_blank (isChain_name htarget)
      (isChain_around_blank (List.isChain_singleton _) (ih hvalue 1))
  | binary op lhs rhs ihl ihr =>
    obtain ⟨hlhs, hrhs⟩ := List.forall_mem_append.mp he
    refine isChain_enclose ?_ _
    have htext : (lhs.render op.precedence ++ (" " ++ op.symbol ++ " ") ++
          rhs.render (op.precedence + 1)).toList =
        (lhs.render op.precedence).toList ++
          ' ' :: (op.symbol.toList ++ ' ' :: (rhs.render (op.precedence + 1)).toList) := by simp
    have hsymbol : op.symbol.toList.IsChain Beside := by
      cases op <;> exact List.isChain_singleton _
    rw [htext]
    exact isChain_around_blank (ihl hlhs _) (isChain_around_blank hsymbol (ihr hrhs _))

/-! ### Texts side by side -/

variable {chars rest : List Char}

/-- At the end of the code, the word that has been read is complete. -/
theorem tokenize_code_nil (run : List Char) : tokenize (.code run) [] = Token.ofRun run := by
  simp [tokenize]

/-- No comment starts at a character, so it goes on with the run or is read by itself. -/
theorem tokenize_code_cons_append {c : Char} (h : (c :: chars).IsChain Beside)
    (hrest : ∀ d ∈ rest.head?, Breaks d) (run : List Char) :
    tokenize (.code run) (c :: (chars ++ rest)) =
      if Naming.isIdentifierChar c then tokenize (.code (run ++ [c])) (chars ++ rest)
      else Token.ofRun run ++ (Token.ofChar c ++ tokenize (.code []) (chars ++ rest)) := by
  refine tokenize_code_cons (or_iff_not_imp_left.mpr fun hc more hmore => ?_)
  cases chars with
  | nil =>
    have hbreak : Breaks '/' := hrest '/' (by rw [show rest = _ from hmore]; rfl)
    exact hbreak.ne_slash rfl
  | cons d chars =>
    obtain rfl : d = '/' := (List.cons.inj hmore).1
    exact (List.isChain_cons_cons.mp h).1.1 (not_not.mp hc) rfl

/-- Where characters may stand side by side there is no comment, and a word ends at the first
    character that is none of its own. -/
theorem tokenize_code_cons_of_isChain {c : Char} (h : (c :: chars).IsChain Beside)
    (run : List Char) :
    tokenize (.code run) (c :: chars) =
      if Naming.isIdentifierChar c then tokenize (.code (run ++ [c])) chars
      else Token.ofRun run ++ (Token.ofChar c ++ tokenize (.code []) chars) := by
  have hself : tokenize (.code run) (c :: (chars ++ [])) = _ :=
    tokenize_code_cons_append h (by simp) run
  rwa [List.append_nil] at hself

/-- The tokens before a break and those after it. -/
theorem tokenize_append (h : chars.IsChain Beside) (hrest : ∀ d ∈ rest.head?, Breaks d)
    (run : List Char) :
    tokenize (.code run) (chars ++ rest) =
      tokenize (.code run) chars ++ tokenize (.code []) rest := by
  induction chars generalizing run with
  | nil =>
    have hapart : Apart rest := fun c hc => (hrest c hc).isIdentifierChar
    rw [tokenize_code_nil]
    exact tokenize_code_of_apart hapart run
  | cons c chars ih =>
    rw [List.cons_append, tokenize_code_cons_append h hrest, tokenize_code_cons_of_isChain h,
      ih h.tail, ih h.tail]
    split
    · rfl
    · simp only [List.append_assoc]

/-- A break is a token by itself, unless it is a blank. -/
theorem tokenize_append_cons {c : Char} (h : chars.IsChain Beside) (hc : Breaks c)
    (run rest : List Char) :
    tokenize (.code run) (chars ++ c :: rest) =
      tokenize (.code run) chars ++ (Token.ofChar c ++ tokenize (.code []) rest) := by
  have hcode : tokenize (.code []) (c :: rest) = Token.ofChar c ++ tokenize (.code []) rest := by
    rw [tokenize_code_cons (.inl hc.ne_slash), hc.isIdentifierChar]
    rfl
  rw [← hcode]
  exact tokenize_append h (by simpa using hc) run

/-- The tokens up to a break and those after it. -/
theorem tokenize_append_of_break (h : chars.IsChain Beside)
    (hchars : ∀ c ∈ chars.getLast?, Breaks c) (rest : List Char) :
    tokenize (.code []) (chars ++ rest) =
      tokenize (.code []) chars ++ tokenize (.code []) rest := by
  rcases List.eq_nil_or_concat chars with rfl | ⟨front, c, rfl⟩
  · rfl
  · have hc : Breaks c := hchars c (by simp)
    rw [List.concat_eq_append] at h ⊢
    have hfront := h.left_of_append
    rw [List.append_assoc, List.singleton_append, tokenize_append_cons hfront hc,
      tokenize_append_cons hfront hc, tokenize_code_nil, Token.ofRun, List.append_nil,
      List.append_assoc]

/-- A text with a pair of parentheses is read around and in between them, and no two tokens become
    one when they are deleted. -/
theorem tokens_unwrap {before inside after : String}
    (h : (before ++ "(" ++ inside ++ ")" ++ after).toList.IsChain Beside) :
    tokens (before ++ "(" ++ inside ++ ")" ++ after) =
        tokens before ++ .mark '(' :: (tokens inside ++ .mark ')' :: tokens after) ∧
      tokens (before ++ inside ++ after) = tokens before ++ (tokens inside ++ tokens after) ∧
      inside.toList.IsChain Beside := by
  have htext : (before ++ "(" ++ inside ++ ")" ++ after).toList =
      before.toList ++ '(' :: (inside.toList ++ ')' :: after.toList) := by simp
  rw [htext, List.isChain_append, List.isChain_cons, List.isChain_append, List.isChain_cons] at h
  obtain ⟨hbefore, ⟨-, hinside, ⟨hclose, -⟩, -⟩, hopen⟩ := h
  -- There is a break before an opening parenthesis, and one after a closing parenthesis.
  have hend : ∀ c ∈ before.toList.getLast?, Breaks c := by
    intro c hc
    exact ((hopen c hc '(' rfl).2.1 rfl).imp_right .inl
  have hstart : ∀ d ∈ after.toList.head?, Breaks d := by
    intro d hd
    exact ((hclose d hd).2.2 rfl).imp_right .inr
  have hfull : tokens (before ++ "(" ++ inside ++ ")" ++ after) =
      tokens before ++ .mark '(' :: (tokens inside ++ .mark ')' :: tokens after) := by
    rw [tokens, htext, tokenize_append_cons hbefore (.inr (.inl rfl)),
      tokenize_append_cons hinside (.inr (.inr rfl))]
    rfl
  have hrest :
      tokens (before ++ inside ++ after) = tokens before ++ (tokens inside ++ tokens after) := by
    rw [tokens, String.toList_append, String.toList_append, List.append_assoc,
      tokenize_append_of_break hbefore hend, tokenize_append hinside hstart]
    rfl
  exact ⟨hfull, hrest, hinside⟩

/-! ### Open parentheses in texts and tokens -/

/-- A word keeps the depth. -/
theorem foldlM_nest_ofRun (run : List Char) (depth : Nat) :
    (Token.ofRun run).foldlM Token.nest depth = some depth := by
  cases run with
  | nil => rfl
  | cons c run =>
    rw [Token.ofRun]
    split <;> rfl

/-- A character as a token nests as the character does. -/
theorem foldlM_nest_ofChar (c : Char) (depth : Nat) :
    (Token.ofChar c).foldlM Token.nest depth = nest depth c := by
  unfold Token.ofChar
  split
  · rfl
  · rfl
  · rfl
  · rfl
  · split
    next hblank =>
      rw [nest_of_isWhitespace hblank]
      rfl
    next =>
      show (nest depth c).bind some = _
      exact Option.bind_fun_some _

/-- Along the tokens of a text, the same parentheses are open as along the text. -/
theorem foldlM_nest_tokenize (h : chars.IsChain Beside) (run : List Char) (depth : Nat) :
    (tokenize (.code run) chars).foldlM Token.nest depth = chars.foldlM nest depth := by
  induction chars generalizing run depth with
  | nil =>
    rw [tokenize_code_nil, foldlM_nest_ofRun]
    rfl
  | cons c chars ih =>
    rw [tokenize_code_cons_of_isChain h, List.foldlM_cons]
    split
    next hc =>
      rw [ih h.tail, nest_of_isIdentifierChar hc]
      rfl
    next =>
      have htail : (fun depth => (tokenize (.code []) chars).foldlM Token.nest depth) =
          fun depth => chars.foldlM nest depth := funext fun depth => ih h.tail [] depth
      rw [List.foldlM_append, foldlM_nest_ofRun, Option.bind_eq_bind, Option.bind_some,
        List.foldlM_append, foldlM_nest_ofChar, htail]
      rfl

end ShaderGraph
