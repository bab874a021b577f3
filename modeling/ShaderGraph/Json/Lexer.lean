import ShaderGraph.Json.Basic

/-!
# Words of a JSON text

A text is read character by character. The state of the reader is the list of finished words and
the word at hand, and each character either extends that word, ends it, or is out of place.

* `Json.NumberPhase` — how far a number literal has got.
* `Json.Spelling` — what a string literal spells so far, from characters and UTF-16 code units.
* `Json.Lexer`, `Json.Lexer.step` — the state and its reaction to a character.
* `Json.tokenize` — the words of a text, if it consists of words and blanks.
-/

namespace ShaderGraph.Json

/-! ### Numbers -/

/-- The part of a number literal that was read last. -/
inductive NumberPhase where
  | sign
  | zero
  | whole
  | point
  | fraction
  | exponent
  | exponentSign
  | exponentDigits
deriving DecidableEq, Repr

namespace NumberPhase

/-- The part to which the next character belongs, if the literal goes on with it. A whole part
    that starts with a zero has no other digit. -/
def next? (phase : NumberPhase) (c : Char) : Option NumberPhase :=
  match phase with
  | sign => if c = '0' then some zero else if c.isDigit then some whole else none
  | zero => if c = '.' then some point else if c = 'e' ∨ c = 'E' then some exponent else none
  | whole =>
    if c.isDigit then some whole
    else if c = '.' then some point
    else if c = 'e' ∨ c = 'E' then some exponent
    else none
  | point => if c.isDigit then some fraction else none
  | fraction =>
    if c.isDigit then some fraction else if c = 'e' ∨ c = 'E' then some exponent else none
  | exponent =>
    if c.isDigit then some exponentDigits
    else if c = '+' ∨ c = '-' then some exponentSign
    else none
  | exponentSign => if c.isDigit then some exponentDigits else none
  | exponentDigits => if c.isDigit then some exponentDigits else none

/-- Whether the literal may end here. -/
def isComplete : NumberPhase → Bool
  | zero | whole | fraction | exponentDigits => true
  | sign | point | exponent | exponentSign => false

end NumberPhase

/-! ### Strings -/

/-- Whether a code unit is the first half of a surrogate pair. -/
def isLeadingSurrogate (unit : Nat) : Bool := 0xD800 ≤ unit && unit ≤ 0xDBFF

/-- Whether a code unit is the second half of a surrogate pair. -/
def isTrailingSurrogate (unit : Nat) : Bool := 0xDC00 ≤ unit && unit ≤ 0xDFFF

/-- What a string literal spells so far. -/
structure Spelling where
  /-- The characters in reverse; `none` once a surrogate stands alone. -/
  chars? : Option (List Char) := some []
  /-- A first half that waits for the second. -/
  leading? : Option Nat := none
deriving DecidableEq, Repr

namespace Spelling

/-- A string that spells no text. -/
def broken : Spelling := { chars? := none }

/-- The spelling with one more character. -/
def addChar (s : Spelling) (c : Char) : Spelling :=
  match s.leading? with
  | none => { s with chars? := s.chars?.map (c :: ·) }
  | some _ => broken

/-- The spelling with one more code unit. -/
def addUnit (s : Spelling) (unit : Nat) : Spelling :=
  match s.leading? with
  | none =>
    if isLeadingSurrogate unit then { s with leading? := some unit }
    else if isTrailingSurrogate unit then broken
    else s.addChar (Char.ofNat unit)
  | some leading =>
    if isTrailingSurrogate unit then
      let c := Char.ofNat (0x10000 + (leading - 0xD800) * 0x400 + (unit - 0xDC00))
      { chars? := s.chars?.map (c :: ·) }
    else
      broken

/-- The text that is spelt. -/
def text? (s : Spelling) : Option String :=
  match s.leading? with
  | none => s.chars?.map fun chars => String.ofList chars.reverse
  | some _ => none

end Spelling

/-- The character that stands for itself or another after a backslash, other than `u`. -/
def escapedChar? (c : Char) : Option Char :=
  match c with
  | '\x22' => some '\x22'
  | '\\' => some '\\'
  | '/' => some '/'
  | 'b' => some '\x08'
  | 'f' => some '\x0c'
  | 'n' => some '\n'
  | 'r' => some '\r'
  | 't' => some '\t'
  | _ => none

/-- The value of a hexadecimal digit. -/
def hexValue? (c : Char) : Option Nat :=
  if '0' ≤ c ∧ c ≤ '9' then some (c.toNat - '0'.toNat)
  else if 'a' ≤ c ∧ c ≤ 'f' then some (c.toNat - 'a'.toNat + 10)
  else if 'A' ≤ c ∧ c ≤ 'F' then some (c.toNat - 'A'.toNat + 10)
  else none

/-! ### Words -/

/-- The word at hand. -/
inductive Lexer.Mode where
  /-- None: between two words. -/
  | blank
  /-- A word of fixed spelling, of which `next` and `rest` are still to come. -/
  | keyword (next : Char) (rest : List Char) (token : Token)
  /-- A number literal, with its characters in reverse. -/
  | number (phase : NumberPhase) (chars : List Char)
  /-- A string literal. -/
  | string (spelling : Spelling)
  /-- A string literal, after a backslash. -/
  | escape (spelling : Spelling)
  /-- A string literal, within a code unit of which `left + 1` digits are to come. -/
  | unit (spelling : Spelling) (left value : Nat)
deriving DecidableEq, Repr

/-- A text read in part. -/
structure Lexer where
  /-- The finished words in reverse. -/
  done : List Token := []
  mode : Lexer.Mode := .blank
deriving DecidableEq, Repr

/-- Whether a character may stand between words. -/
def isBlank (c : Char) : Bool := c == ' ' || c == '\t' || c == '\n' || c == '\r'

namespace Lexer

/-- The state after a word has ended. -/
def push (done : List Token) (token : Token) : Lexer := { done := token :: done }

/-- Reads a character that does not belong to the word before it. -/
def start (done : List Token) (c : Char) : Option Lexer :=
  if isBlank c then some { done }
  else if c = '[' then some (push done .openArray)
  else if c = ']' then some (push done .closeArray)
  else if c = '\x7b' then some (push done .openObject)
  else if c = '\x7d' then some (push done .closeObject)
  else if c = ',' then some (push done .comma)
  else if c = ':' then some (push done .colon)
  else if c = '\x22' then some { done, mode := .string {} }
  else if c = '-' then some { done, mode := .number .sign [c] }
  else if c = '0' then some { done, mode := .number .zero [c] }
  else if c.isDigit then some { done, mode := .number .whole [c] }
  else if c = 'n' then some { done, mode := .keyword 'u' ['l', 'l'] .null }
  else if c = 't' then some { done, mode := .keyword 'r' ['u', 'e'] (.bool true) }
  else if c = 'f' then some { done, mode := .keyword 'a' ['l', 's', 'e'] (.bool false) }
  else none

/-- Reads one character. -/
def step (l : Lexer) (c : Char) : Option Lexer :=
  match l.mode with
  | .blank => start l.done c
  | .keyword next rest token =>
    if c ≠ next then none
    else match rest with
      | [] => some (push l.done token)
      | d :: ds => some { l with mode := .keyword d ds token }
  | .number phase chars =>
    match phase.next? c with
    | some next => some { l with mode := .number next (c :: chars) }
    | none =>
      if phase.isComplete then start (.number (String.ofList chars.reverse) :: l.done) c else none
  | .string spelling =>
    if c = '\x22' then some (push l.done (.string spelling.text?))
    else if c = '\\' then some { l with mode := .escape spelling }
    else if c.toNat < 0x20 then none
    else some { l with mode := .string (spelling.addChar c) }
  | .escape spelling =>
    if c = 'u' then some { l with mode := .unit spelling 3 0 }
    else (escapedChar? c).map fun d => { l with mode := .string (spelling.addChar d) }
  | .unit spelling left value =>
    (hexValue? c).map fun digit =>
      match left with
      | 0 => { l with mode := .string (spelling.addUnit (16 * value + digit)) }
      | left + 1 => { l with mode := .unit spelling left (16 * value + digit) }

/-- Reads the characters of a text. -/
def run (l : Lexer) : List Char → Option Lexer
  | [] => some l
  | c :: cs =>
    match l.step c with
    | some next => next.run cs
    | none => none

/-- The words of a text that ends here. -/
def finish (l : Lexer) : Option (List Token) :=
  match l.mode with
  | .blank => some l.done.reverse
  | .number phase chars =>
    if phase.isComplete then some (.number (String.ofList chars.reverse) :: l.done).reverse
    else none
  | _ => none

end Lexer

/-- The words of a text. -/
def tokenize (text : List Char) : Option (List Token) :=
  (({} : Lexer).run text).bind (·.finish)

end ShaderGraph.Json
