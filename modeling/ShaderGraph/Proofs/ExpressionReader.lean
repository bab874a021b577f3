import ShaderGraph.Proofs.Tokens

namespace ShaderGraph

/-!
# Reading expressions

A reader that goes through the tokens of an expression from left to right. Operators bind as their
precedences say and associate to the left; parentheses hold an expression or an assignment.

* `Expr.tokens`, `Expr.spells_render` — the tokens of the text of an expression.
* `ExprReader.State`, `ExprReader.step`, `ExprReader.read?` — the reader. Operands whose operators
  wait for their right operand are kept in a `Frame`, one for each open parenthesis.
* `ExprReader.settle` — combines waiting operands before an operator that binds no more tightly.
* `ExprReader.After` — what the reader has made of an expression, as far as anything that may follow
  can tell.
* `ExprReader.ReadsAlone`, `ExprReader.ReadsOperand` — some tokens are read as an expression, by
  themselves or as an operand. There is one lemma for each form of expressions.
* `ExprReader.read?_tokens` — the reader gives back the expression whose tokens it reads.
-/

/-! ### Tokens of expressions -/

/-- The tokens in parentheses if `loose` holds. -/
def encloseTokens (loose : Bool) (ts : List Token) : List Token :=
  if loose then .mark '(' :: ts ++ [.mark ')'] else ts

/-- An opening parenthesis is a token of its own. -/
theorem parted_open : Parted "(" [.mark '('] := parted_of_all (by decide) (by decide)

/-- A closing parenthesis is a token of its own. -/
theorem parted_close : Parted ")" [.mark ')'] := parted_of_all (by decide) (by decide)

/-- A text that is enclosed has its tokens between parentheses. -/
theorem Spells.enclose {text : String} {ts : List Token} (h : Spells text ts) (loose : Bool) :
    Spells (enclose loose text) (encloseTokens loose ts) := by
  cases loose with
  | false => exact h
  | true => exact ((parted_open.append_spells h).append_parted parted_close rfl (by decide)).spells

namespace Expr

/-- The names in an expression. -/
def names : Expr → List String
  | var name => [name]
  | assign target value => target :: value.names
  | binary _ lhs rhs => lhs.names ++ rhs.names

/-- The tokens of an expression where one of precedence `level` or more is expected. -/
def tokens (level : Nat) : Expr → List Token
  | var name => [.word name]
  | assign target value => encloseTokens (0 < level) (.word target :: .mark '=' :: value.tokens 1)
  | binary op lhs rhs =>
    encloseTokens (op.precedence < level)
      (lhs.tokens op.precedence ++ .operator op :: rhs.tokens (op.precedence + 1))

/-- Enclosing tokens adds no marks but parentheses. -/
theorem mark_mem_encloseTokens {c : Char} {loose : Bool} {ts : List Token}
    (h : .mark c ∈ encloseTokens loose ts) : c = '(' ∨ c = ')' ∨ .mark c ∈ ts := by
  cases loose with
  | false => exact .inr (.inr h)
  | true =>
    rw [encloseTokens, if_pos rfl, List.mem_append, List.mem_cons, List.mem_singleton,
      Token.mark.injEq, Token.mark.injEq] at h
    rcases h with (hc | hts) | hc
    · exact .inl hc
    · exact .inr (.inr hts)
    · exact .inr (.inl hc)

/-- The marks in an expression are parentheses and equals signs. -/
theorem mark_mem_tokens {c : Char} {e : Expr} {level : Nat} (h : .mark c ∈ e.tokens level) :
    c = '(' ∨ c = ')' ∨ c = '=' := by
  induction e generalizing level with
  | var name => simp [tokens] at h
  | assign target value ih =>
    rcases mark_mem_encloseTokens h with hc | hc | hc
    · exact .inl hc
    · exact .inr (.inl hc)
    · simp only [List.mem_cons, reduceCtorEq, Token.mark.injEq, false_or] at hc
      exact hc.elim (fun hc => .inr (.inr hc)) ih
  | binary op lhs rhs ihl ihr =>
    rcases mark_mem_encloseTokens h with hc | hc | hc
    · exact .inl hc
    · exact .inr (.inl hc)
    · simp only [List.mem_append, List.mem_cons, reduceCtorEq, false_or] at hc
      exact hc.elim ihl ihr

/-- An expression starts with a parenthesis or with a name that is no other name's type and no
    function. -/
theorem tokens_start (e : Expr) (level : Nat) :
    (∃ rest, e.tokens level = .mark '(' :: rest) ∨
      ∃ name rest, e.tokens level = .word name :: rest ∧
        ∀ t ∈ rest.head?, t = .mark '=' ∨ ∃ op, t = .operator op := by
  have henclosed : ∀ {loose : Bool} {ts : List Token}, loose = true →
      ∃ rest, encloseTokens loose ts = .mark '(' :: rest := by
    rintro loose ts rfl
    exact ⟨_, rfl⟩
  induction e generalizing level with
  | var name => exact .inr ⟨name, [], rfl, by simp⟩
  | assign target value ih =>
    by_cases hloose : decide (0 < level) = true
    · exact .inl (henclosed hloose)
    · refine .inr ⟨target, .mark '=' :: value.tokens 1, ?_, by simp⟩
      rw [tokens, encloseTokens, if_neg hloose]
  | binary op lhs rhs ihl ihr =>
    by_cases hloose : decide (op.precedence < level) = true
    · exact .inl (henclosed hloose)
    · rw [tokens, encloseTokens, if_neg hloose]
      rcases ihl op.precedence with ⟨rest, hrest⟩ | ⟨name, rest, hrest, hnext⟩
      · rw [hrest]
        exact .inl ⟨_, rfl⟩
      · -- After a name alone comes the operator.
        rw [hrest]
        refine .inr ⟨name, rest ++ .operator op :: rhs.tokens (op.precedence + 1), rfl, ?_⟩
        cases rest with
        | nil => simp
        | cons t rest => simpa using hnext

/-- An expression over identifiers is written with its tokens. -/
theorem spells_render {e : Expr} (he : ∀ name ∈ e.names, Naming.isIdentifier name = true)
    (level : Nat) : Spells (e.render level) (e.tokens level) := by
  induction e generalizing level with
  | var name => exact spells_name (he name List.mem_cons_self)
  | assign target value ih =>
    obtain ⟨htarget, hvalue⟩ := List.forall_mem_cons.mp he
    have hequals : Parted " = " [.mark '='] := parted_of_all (by decide) (by decide)
    have hleft := (spells_name htarget).append_parted hequals rfl (by decide)
    exact (hleft.append_spells (ih hvalue 1)).enclose _
  | binary op lhs rhs ihl ihr =>
    obtain ⟨hlhs, hrhs⟩ := List.forall_mem_append.mp he
    have hsymbol : (" " ++ op.symbol ++ " ").toList = ' ' :: (op.symbol ++ " ").toList := by simp
    have hleft := (ihl hlhs op.precedence).append_parted (parted_operator op) hsymbol (by decide)
    have hwhole := hleft.append_spells (ihr hrhs (op.precedence + 1))
    rw [List.append_assoc] at hwhole
    exact hwhole.enclose _

end Expr

/-! ### The reader -/

namespace ExprReader

/-- An operand: a name, which may turn out to be a target, or anything else. -/
inductive Operand where
  | name (x : String)
  | value (e : Expr)
deriving DecidableEq, Repr

/-- An operand as an expression. -/
def Operand.expr : Operand → Expr
  | .name x => .var x
  | .value e => e

/-- What has been read since a parenthesis was opened. -/
structure Frame where
  /-- The target, if an assignment is being read. -/
  target? : Option String := none
  /-- The operands whose operators wait for their right operands, the last one first. -/
  pending : List (Expr × Operator) := []
deriving DecidableEq, Repr

/-- An expression that has been read up to some token. -/
structure State where
  /-- The operand that has been read last, unless one has to follow. -/
  operand? : Option Operand := none
  frame : Frame := {}
  /-- The frames around the open parentheses. -/
  outer : List Frame := []
deriving DecidableEq, Repr

/-- Combines an expression with the operands before it as long as their operators bind at least as
    tightly as `level` says. -/
def settle (level : Nat) (e : Expr) : List (Expr × Operator) → Expr × List (Expr × Operator)
  | [] => (e, [])
  | (lhs, op) :: pending =>
    if level ≤ op.precedence then settle level (.binary op lhs e) pending
    else (e, (lhs, op) :: pending)

namespace Frame

/-- The expression that is complete when `e` is its last operand. -/
def finish (frame : Frame) (e : Expr) : Expr :=
  let value := (settle 0 e frame.pending).1
  match frame.target? with
  | some target => .assign target value
  | none => value

/-- The operand `e` waits for the right operand of `op`. -/
def push (frame : Frame) (op : Operator) (e : Expr) : Frame :=
  let (lhs, pending) := settle op.precedence e frame.pending
  { frame with pending := (lhs, op) :: pending }

end Frame

/-- Reads one token. -/
def step (s : State) (t : Token) : Option State :=
  match s.operand?, t with
  | none, .word name => some { s with operand? := some (.name name) }
  | none, .mark '(' => some { outer := s.frame :: s.outer }
  | some last, .operator op => some { s with operand? := none, frame := s.frame.push op last.expr }
  | some last, .mark ')' =>
    match s.outer with
    | [] => none
    | around :: outer => some ⟨some (.value (s.frame.finish last.expr)), around, outer⟩
  | some (.name target), .mark '=' =>
    -- A target is the first name in its frame.
    if s.frame = {} then
      some { s with operand? := none, frame := { target? := some target } }
    else none
  | _, _ => none

/-- The expression that has been read, if nothing is missing in its frame. -/
def State.finish? (s : State) : Option Expr := s.operand?.map fun last => s.frame.finish last.expr

/-- The expression that the tokens stand for. -/
def read? (ts : List Token) : Option Expr := do
  let s ← ts.foldlM step {}
  if s.outer.isEmpty then s.finish? else none

/-! ### Waiting operands -/

/-- Operators that bind less tightly go on waiting. -/
theorem settle_eq_self {level : Nat} {e : Expr} {pending : List (Expr × Operator)}
    (h : ∀ w ∈ pending, w.2.precedence < level) : settle level e pending = (e, pending) := by
  cases pending with
  | nil => rfl
  | cons w pending =>
    have hw := (List.forall_mem_cons.mp h).1
    rw [settle, if_neg (Nat.not_le_of_lt hw)]

/-- An operator that binds tightly enough takes its operands. -/
theorem settle_cons {level : Nat} {op : Operator} (hlevel : level ≤ op.precedence) (lhs e : Expr)
    (pending : List (Expr × Operator)) :
    settle level e ((lhs, op) :: pending) = settle level (.binary op lhs e) pending := by
  rw [settle, if_pos hlevel]

/-- The reader has read `e` in `frame`: it will find `e` as an operand before anything that can end
    one of precedence `level`. -/
structure After (level : Nat) (e : Expr) (frame : Frame) (outer : List Frame) (s : State) :
    Prop where
  outer : s.outer = outer
  target : s.frame.target? = frame.target?
  operand : ∃ last, s.operand? = some last ∧
    ∀ p ≤ level, settle p last.expr s.frame.pending = settle p e frame.pending

variable {e : Expr} {level : Nat} {frame : Frame} {outer : List Frame} {s : State}

/-- At the end of the frame, the expression is its last operand. -/
theorem After.finish?_eq (h : After level e frame outer s) : s.finish? = some (frame.finish e) := by
  obtain ⟨last, hlast, hsettle⟩ := h.operand
  have hvalue := hsettle 0 (Nat.zero_le level)
  rw [State.finish?, hlast, Option.map_some, Frame.finish, Frame.finish, hvalue, h.target]

/-- An operator that binds more tightly than what waits takes the expression as its left operand. -/
theorem After.step_operator {op : Operator} (h : After op.precedence e frame outer s)
    (hpending : ∀ w ∈ frame.pending, w.2.precedence < op.precedence) :
    step s (.operator op) =
      some ⟨none, { frame with pending := (e, op) :: frame.pending }, outer⟩ := by
  obtain ⟨last, hlast, hsettle⟩ := h.operand
  have hpush := hsettle op.precedence (Nat.le_refl _)
  rw [settle_eq_self hpending] at hpush
  obtain ⟨operand?, ⟨target?, pending⟩, outer'⟩ := s
  obtain rfl : operand? = some last := hlast
  obtain rfl : outer' = outer := h.outer
  obtain rfl : target? = frame.target? := h.target
  show some (State.mk none (Frame.push _ op last.expr) outer') = _
  rw [Frame.push, show settle _ _ pending = _ from hpush]

/-- A closing parenthesis makes an operand of all that has been read in it. -/
theorem step_close {around : Frame} (hs : s.outer = around :: outer) (he : s.finish? = some e) :
    step s (.mark ')') = some ⟨some (.value e), around, outer⟩ := by
  obtain ⟨operand?, frame, outer'⟩ := s
  obtain rfl : outer' = around :: outer := hs
  obtain ⟨last, hlast, rfl⟩ := Option.map_eq_some_iff.mp he
  obtain rfl : operand? = some last := hlast
  rfl

/-! ### Forms of expressions -/

/-- The tokens are read as `e` where they stand by themselves. -/
def ReadsAlone (ts : List Token) (e : Expr) : Prop :=
  ∀ outer, ∃ s, ts.foldlM step ⟨none, {}, outer⟩ = some s ∧ s.outer = outer ∧ s.finish? = some e

/-- The tokens are read as `e` where an operand of precedence `level` is expected. -/
def ReadsOperand (level : Nat) (ts : List Token) (e : Expr) : Prop :=
  ∀ frame outer, (∀ w ∈ frame.pending, w.2.precedence < level) →
    ∃ s, ts.foldlM step ⟨none, frame, outer⟩ = some s ∧ After level e frame outer s

variable {ts us : List Token} {lhs rhs value : Expr}

/-- Tokens that are read alone are read. -/
theorem ReadsAlone.read?_eq (h : ReadsAlone ts e) : read? ts = some e := by
  obtain ⟨s, hs, houter, hfinish⟩ := h []
  show (ts.foldlM step ⟨none, {}, []⟩).bind _ = _
  rw [hs, Option.bind_some, houter, if_pos List.isEmpty_nil, hfinish]

/-- An operand may stand alone. -/
theorem ReadsOperand.alone (h : ReadsOperand level ts e) : ReadsAlone ts e := by
  intro outer
  obtain ⟨s, hs, hafter⟩ := h {} outer (by simp)
  exact ⟨s, hs, hafter.outer, hafter.finish?_eq⟩

/-- What binds tightly is an operand also where less is asked for. -/
theorem ReadsOperand.mono {lower : Nat} (h : ReadsOperand level ts e) (hlower : lower ≤ level) :
    ReadsOperand lower ts e := by
  intro frame outer hpending
  obtain ⟨s, hs, hafter⟩ := h frame outer fun w hw => (hpending w hw).trans_le hlower
  obtain ⟨last, hlast, hsettle⟩ := hafter.operand
  refine ⟨s, hs, { outer := hafter.outer, target := hafter.target, operand := ⟨last, hlast, ?_⟩ }⟩
  exact fun p hp => hsettle p (hp.trans hlower)

/-- A name is read as an operand wherever one is expected. -/
theorem readsOperand_name (level : Nat) (name : String) :
    ReadsOperand level [.word name] (.var name) :=
  fun _ _ _ => ⟨_, rfl, { outer := rfl, target := rfl, operand := ⟨_, rfl, fun _ _ => rfl⟩ }⟩

/-- In parentheses, what is read by itself is an operand. -/
theorem ReadsAlone.enclosed (h : ReadsAlone ts e) (level : Nat) :
    ReadsOperand level (.mark '(' :: ts ++ [.mark ')']) e := by
  intro frame outer _
  obtain ⟨s, hs, houter, hfinish⟩ := h (frame :: outer)
  have hopen : step ⟨none, frame, outer⟩ (.mark '(') = some ⟨none, {}, frame :: outer⟩ := rfl
  refine ⟨⟨some (.value e), frame, outer⟩, ?_, ?_⟩
  · simp only [List.cons_append, List.foldlM_cons, hopen, Option.bind_eq_bind, Option.bind_some,
      List.foldlM_append, hs, step_close houter hfinish, List.foldlM_nil]
    rfl
  · exact { outer := rfl, target := rfl, operand := ⟨_, rfl, fun _ _ => rfl⟩ }

/-- An assignment is read by itself if its value is. -/
theorem ReadsOperand.assign (h : ReadsOperand 1 ts value) (target : String) :
    ReadsAlone (.word target :: .mark '=' :: ts) (.assign target value) := by
  intro outer
  obtain ⟨s, hs, hafter⟩ := h ⟨some target, []⟩ outer (by simp)
  exact ⟨s, hs, hafter.outer, hafter.finish?_eq⟩

/-- An operation without parentheses is read if its operands are. -/
theorem ReadsOperand.binary {op : Operator} (hop : op.precedence = level)
    (hlhs : ReadsOperand level ts lhs) (hrhs : ReadsOperand (level + 1) us rhs) :
    ReadsOperand level (ts ++ .operator op :: us) (.binary op lhs rhs) := by
  subst hop
  intro frame outer hpending
  obtain ⟨s, hs, hafter⟩ := hlhs frame outer hpending
  let inner : Frame := { frame with pending := (lhs, op) :: frame.pending }
  have hinner : ∀ w ∈ inner.pending, w.2.precedence < op.precedence + 1 := by
    refine List.forall_mem_cons.mpr ⟨Nat.lt_succ_self _, fun w hw => ?_⟩
    exact Nat.lt_succ_of_lt (hpending w hw)
  obtain ⟨s', hs', hafter'⟩ := hrhs inner outer hinner
  refine ⟨s', ?_, { outer := hafter'.outer, target := hafter'.target, operand := ?_ }⟩
  · simp only [List.foldlM_append, hs, Option.bind_eq_bind, Option.bind_some, List.foldlM_cons,
      hafter.step_operator hpending]
    exact hs'
  · -- Whatever settles the right operand settles the whole, since it binds less tightly than `op`.
    obtain ⟨last, hlast, hsettle⟩ := hafter'.operand
    refine ⟨last, hlast, fun p hp => ?_⟩
    rw [hsettle p (hp.trans (Nat.le_succ _))]
    exact settle_cons hp lhs rhs frame.pending

/-! ### Reading back -/

/-- Operators bind more tightly than assignments. -/
theorem precedence_pos (op : Operator) : 0 < op.precedence := by
  cases op <;> decide

/-- What binds less tightly is enclosed. -/
theorem encloseTokens_of_lt {n : Nat} (h : n < level) (ts : List Token) :
    encloseTokens (n < level) ts = .mark '(' :: ts ++ [.mark ')'] :=
  if_pos (decide_eq_true h)

/-- What binds as tightly as expected is not enclosed. -/
theorem encloseTokens_of_le {n : Nat} (h : level ≤ n) (ts : List Token) :
    encloseTokens (n < level) ts = ts :=
  if_neg (by simpa using h)

/-- An expression is read back by itself and, unless it is an assignment without parentheses, as an
    operand. -/
theorem reads (e : Expr) :
    ReadsAlone (e.tokens 0) e ∧ ∀ level, 0 < level → ReadsOperand level (e.tokens level) e := by
  induction e with
  | var name =>
    exact ⟨(readsOperand_name 0 name).alone, fun level _ => readsOperand_name level name⟩
  | assign target value ih =>
    have halone := (ih.2 1 Nat.one_pos).assign target
    refine ⟨halone, fun level hlevel => ?_⟩
    rw [Expr.tokens, encloseTokens_of_lt hlevel]
    exact halone.enclosed level
  | binary op lhs rhs ihl ihr =>
    have hopen := ReadsOperand.binary rfl (ihl.2 _ (precedence_pos op)) (ihr.2 _ (Nat.succ_pos _))
    refine ⟨?_, fun level _ => ?_⟩
    · rw [Expr.tokens, encloseTokens_of_le (Nat.zero_le _)]
      exact hopen.alone
    · rw [Expr.tokens]
      rcases Nat.lt_or_ge op.precedence level with hlevel | hlevel
      · rw [encloseTokens_of_lt hlevel]
        exact hopen.alone.enclosed level
      · rw [encloseTokens_of_le hlevel]
        exact hopen.mono hlevel

/-- The reader gives back every expression. -/
theorem read?_tokens (e : Expr) : read? (e.tokens 0) = some e := (reads e).1.read?_eq

example : read? (ShaderGraph.tokens "a - b * (c = d)") =
    some (.binary .subtract (.var "a")
      (.binary .multiply (.var "b") (.assign "c" (.var "d")))) := by
  decide +kernel

end ExprReader

end ShaderGraph
