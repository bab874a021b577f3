import Mathlib.Data.List.Chain
import ShaderGraph.Json.Lexer

namespace ShaderGraph.Json

/-!
# Words of JSON texts

How the words of a document may be spelt, by the grammar of JSON: with blanks between them, with any
escapes in strings, and with numbers of any size. A text that is written in such a way is read as
these words.

* `IsNumber`, `Spelling.Extends`, `Token.IsSpelt` — the spellings of numbers, of what stands in a
  string and of words; `IsWritten` puts words and blanks together.
* `Lexer.Holds` — the words that have been read, the last of which may be a number that could go on.
* `tokenize_of_isWritten` — reading finds the words that are written, since no number follows
  another.
-/

/-! ### Numbers -/

/-- All characters are digits. -/
def IsDigits (chars : List Char) : Prop := ∀ c ∈ chars, c.isDigit = true

/-- The whole part of a number. It starts with a zero only if it is one. -/
inductive IsWhole : List Char → Prop where
  | zero : IsWhole ['0']
  | digits {d : Char} {ds : List Char} (hd : d.isDigit = true) (hne : d ≠ '0') (hds : IsDigits ds) :
    IsWhole (d :: ds)

/-- The part of a number after the point, if it has one. -/
inductive IsFraction : List Char → Prop where
  | absent : IsFraction []
  | digits {d : Char} {ds : List Char} (hd : d.isDigit = true) (hds : IsDigits ds) :
    IsFraction ('.' :: d :: ds)

/-- The exponent of a number, if it has one. -/
inductive IsExponent : List Char → Prop where
  | absent : IsExponent []
  | digits {e d : Char} {sign ds : List Char} (he : e = 'e' ∨ e = 'E')
    (hsign : sign = [] ∨ sign = ['+'] ∨ sign = ['-']) (hd : d.isDigit = true) (hds : IsDigits ds) :
    IsExponent (e :: (sign ++ d :: ds))

/-- The spelling of a number. -/
inductive IsNumber : List Char → Prop where
  | parts {sign whole fraction exponent : List Char} (hsign : sign = [] ∨ sign = ['-'])
    (hwhole : IsWhole whole) (hfraction : IsFraction fraction) (hexponent : IsExponent exponent) :
    IsNumber (sign ++ (whole ++ (fraction ++ exponent)))

/-! ### Strings -/

/-- Characters inside of a string literal take what it spells from `s` to `t`. -/
inductive Spelling.Extends : Spelling → List Char → Spelling → Prop where
  | refl (s : Spelling) : s.Extends [] s
  /-- A character that stands for itself. -/
  | char {s t : Spelling} {c : Char} {rest : List Char}
    (hquote : c ≠ '\x22') (hbackslash : c ≠ '\\') (hcontrol : 0x20 ≤ c.toNat)
    (h : (s.addChar c).Extends rest t) : s.Extends (c :: rest) t
  /-- A short escape. -/
  | escape {s t : Spelling} {c d : Char} {rest : List Char} (hc : escapedChar? c = some d)
    (h : (s.addChar d).Extends rest t) : s.Extends ('\\' :: c :: rest) t
  /-- A code unit in four hexadecimal digits. -/
  | unit {s t : Spelling} {a b c d : Char} {i j k l : Nat} {rest : List Char}
    (ha : hexValue? a = some i) (hb : hexValue? b = some j)
    (hc : hexValue? c = some k) (hd : hexValue? d = some l)
    (h : (s.addUnit (0x1000 * i + 0x100 * j + 0x10 * k + l)).Extends rest t) :
    s.Extends ('\\' :: 'u' :: a :: b :: c :: d :: rest) t

/-! ### Words -/

/-- The characters spell a word. -/
inductive Token.IsSpelt : Token → List Char → Prop where
  | openArray : IsSpelt .openArray ['[']
  | closeArray : IsSpelt .closeArray [']']
  | openObject : IsSpelt .openObject ['\x7b']
  | closeObject : IsSpelt .closeObject ['\x7d']
  | comma : IsSpelt .comma [',']
  | colon : IsSpelt .colon [':']
  | null : IsSpelt .null ['n', 'u', 'l', 'l']
  | boolTrue : IsSpelt (.bool true) ['t', 'r', 'u', 'e']
  | boolFalse : IsSpelt (.bool false) ['f', 'a', 'l', 's', 'e']
  | number {literal : String} (h : IsNumber literal.toList) :
      IsSpelt (.number literal) literal.toList
  | string {s : Spelling} {chars : List Char} (h : Spelling.Extends {} chars s) :
    IsSpelt (.string s.text?) ('\x22' :: (chars ++ ['\x22']))

/-- Whether a word is a number. -/
def Token.isNumber : Token → Bool
  | number _ => true
  | _ => false

/-- All characters are blanks. -/
def IsBlanks (chars : List Char) : Prop := ∀ c ∈ chars, isBlank c = true

/-- The text consists of the spellings of these words, with blanks before, between and after
    them. -/
inductive IsWritten : List Token → List Char → Prop where
  | blanks {chars : List Char} (h : IsBlanks chars) : IsWritten [] chars
  | word {token : Token} {tokens : List Token} {chars word rest : List Char}
    (hblanks : IsBlanks chars) (hword : token.IsSpelt word) (h : IsWritten tokens rest) :
    IsWritten (token :: tokens) (chars ++ (word ++ rest))

/-! ### States of the reader -/

/-- A number may go on with these characters only. -/
def continuesNumber (c : Char) : Bool :=
  c.isDigit || c == '.' || c == 'e' || c == 'E' || c == '+' || c == '-'

/-- A number does not go on with other characters than those of numbers. -/
theorem NumberPhase.next?_eq_none (phase : NumberPhase) {c : Char}
    (hc : continuesNumber c = false) :
    phase.next? c = none := by
  simp only [continuesNumber, Bool.or_eq_false_iff, beq_eq_false_iff_ne] at hc
  have hzero : c ≠ '0' := by
    rintro rfl
    exact absurd hc.1.1.1.1.1 (by decide)
  cases phase <;> simp [NumberPhase.next?, hc, hzero]

namespace Lexer

variable {l : Lexer} {done : List Token}

/-- A run takes one step for the first character. -/
theorem run_cons {next : Lexer} {c : Char} (h : l.step c = some next) (cs : List Char) :
    l.run (c :: cs) = next.run cs := by
  rw [run, h]

/-- A text in two parts is run through one after the other. -/
theorem run_append (l : Lexer) (cs ds : List Char) :
    l.run (cs ++ ds) = (l.run cs).bind (·.run ds) := by
  induction cs generalizing l with
  | nil => rfl
  | cons c cs ih =>
    rw [List.cons_append, run, run]
    cases l.step c with
    | none => rfl
    | some next => exact ih next

/-- These words have been read, the last one first. If that is a number, it may not have been ended
    yet. -/
inductive Holds : Lexer → List Token → Prop where
  | blank (done : List Token) : Holds { done } done
  | number {phase : NumberPhase} (hphase : phase.isComplete = true) (chars : List Char)
    (done : List Token) :
    Holds { done, mode := .number phase chars } (.number (String.ofList chars.reverse) :: done)

/-- A lexer that holds words has nothing else left at the end. -/
theorem Holds.finish_eq (h : l.Holds done) : l.finish = some done.reverse := by
  cases h with
  | blank => rfl
  | number hphase => simp [finish, hphase]

/-- A character that no number goes on with starts something new. -/
theorem Holds.step_eq (h : l.Holds done) {c : Char}
    (hc : continuesNumber c = false ∨ ∀ t ∈ done.head?, t.isNumber = false) :
    l.step c = start done c := by
  cases h with
  | blank => rfl
  | @number phase hphase chars done =>
    have hnone : phase.next? c = none := by
      rcases hc with hc | hc
      · exact phase.next?_eq_none hc
      · exact absurd (hc _ rfl) (by simp [Token.isNumber])
    simp [step, hnone, hphase]

/-- Blanks end a number and change nothing else. -/
theorem Holds.run_blanks (h : l.Holds done) {chars : List Char} (hblanks : IsBlanks chars) :
    ∃ next, l.run chars = some next ∧ next.Holds done := by
  induction chars generalizing l with
  | nil => exact ⟨l, rfl, h⟩
  | cons c chars ih =>
    obtain ⟨hc, hchars⟩ := List.forall_mem_cons.mp hblanks
    have hnumber : continuesNumber c = false := by
      simp only [isBlank, Bool.or_eq_true, beq_iff_eq] at hc
      rcases hc with ((rfl | rfl) | rfl) | rfl <;> decide
    have hstep : l.step c = some { done } := by
      rw [h.step_eq (.inl hnumber), start, if_pos hc]
    rw [run_cons hstep]
    exact ih (.blank done) hchars

/-! ### Numbers -/

/-- The characters of a number move it from one part to the next. -/
theorem run_number {phase final : NumberPhase} {cs : List Char}
    (h : cs.foldlM NumberPhase.next? phase = some final) (done : List Token) (chars : List Char) :
    ({ done, mode := .number phase chars } : Lexer).run cs =
      some { done, mode := .number final (cs.reverse ++ chars) } := by
  induction cs generalizing phase chars with
  | nil =>
    obtain rfl : phase = final := by simpa using h
    rfl
  | cons c cs ih =>
    rw [List.foldlM_cons] at h
    obtain ⟨next, hnext, h⟩ := Option.bind_eq_some_iff.mp h
    have hstep : ({ done, mode := .number phase chars } : Lexer).step c =
        some { done, mode := .number next (c :: chars) } := by simp [step, hnext]
    rw [run_cons hstep, ih h]
    simp

end Lexer

namespace NumberPhase

variable {phase next final : NumberPhase}

/-- The phases of a number in two parts follow one another. -/
theorem foldlM_append {cs ds : List Char} (hcs : cs.foldlM next? phase = some next)
    (hds : ds.foldlM next? next = some final) : (cs ++ ds).foldlM next? phase = some final := by
  rw [List.foldlM_append, hcs]
  exact hds

/-- The phases of a number begin with that of its first character. -/
theorem foldlM_cons {c : Char} {cs : List Char} (hc : phase.next? c = some next)
    (hcs : cs.foldlM next? next = some final) : (c :: cs).foldlM next? phase = some final := by
  rw [List.foldlM_cons, hc]
  exact hcs

variable (phase) in
/-- Digits keep a number in a part that is made of digits. -/
theorem foldlM_digits (hphase : ∀ c : Char, c.isDigit = true → phase.next? c = some phase)
    {ds : List Char} (hds : IsDigits ds) : ds.foldlM next? phase = some phase := by
  induction ds with
  | nil => rfl
  | cons d ds ih =>
    obtain ⟨hd, hds⟩ := List.forall_mem_cons.mp hds
    exact foldlM_cons (hphase d hd) (ih hds)

/-- A fraction may follow the whole part and ends in a phase that is complete. -/
theorem foldlM_fraction (hphase : phase = zero ∨ phase = whole) {chars : List Char}
    (h : IsFraction chars) :
    ∃ next, (next = zero ∨ next = whole ∨ next = fraction) ∧
      chars.foldlM next? phase = some next := by
  cases h with
  | absent => exact ⟨phase, hphase.imp_right .inl, rfl⟩
  | @digits d ds hd hds =>
    have hpoint : phase.next? '.' = some point := by rcases hphase with rfl | rfl <;> rfl
    have hfirst : point.next? d = some fraction := by simp [next?, hd]
    have hrest := foldlM_digits fraction (fun c hc => by simp [next?, hc]) hds
    exact ⟨fraction, .inr (.inr rfl), foldlM_cons hpoint (foldlM_cons hfirst hrest)⟩

/-- An exponent may follow what comes before it and completes the number. -/
theorem foldlM_exponent (hphase : phase = zero ∨ phase = whole ∨ phase = fraction)
    {chars : List Char} (h : IsExponent chars) :
    ∃ final : NumberPhase, final.isComplete = true ∧ chars.foldlM next? phase = some final := by
  cases h with
  | absent => exact ⟨phase, by rcases hphase with rfl | rfl | rfl <;> rfl, rfl⟩
  | @digits e d sign ds he hsign hd hds =>
    have hmark : phase.next? e = some exponent := by
      rcases hphase with rfl | rfl | rfl <;> rcases he with rfl | rfl <;> rfl
    have hsigned : (sign ++ [d]).foldlM next? exponent = some exponentDigits := by
      rcases hsign with rfl | rfl | rfl <;> simp [next?, hd]
    have hrest := foldlM_digits exponentDigits (fun c hc => by simp [next?, hc]) hds
    refine ⟨exponentDigits, rfl, foldlM_cons hmark ?_⟩
    rw [List.append_cons]
    exact foldlM_append hsigned hrest

/-- What follows the whole part of a number leads to a part in which the number may end. -/
theorem foldlM_rest (hphase : phase = zero ∨ phase = whole) {chars chars' : List Char}
    (hfraction : IsFraction chars) (hexponent : IsExponent chars') :
    ∃ final : NumberPhase,
      final.isComplete = true ∧ (chars ++ chars').foldlM next? phase = some final := by
  obtain ⟨next, hnext, hchars⟩ := foldlM_fraction hphase hfraction
  obtain ⟨final, hfinal, hchars'⟩ := foldlM_exponent hnext hexponent
  exact ⟨final, hfinal, foldlM_append hchars hchars'⟩

end NumberPhase

namespace Lexer

/-- A digit other than zero starts a number. -/
theorem start_digit (done : List Token) {d : Char} (hd : d.isDigit = true) (hne : d ≠ '0') :
    start done d = some { done, mode := .number .whole [d] } := by
  have hother : ∀ c : Char, c.isDigit = false → d ≠ c := by
    rintro c hc rfl
    rw [hd] at hc
    cases hc
  simp [start, isBlank, hd, hne, hother ' ' rfl, hother '\t' rfl, hother '\n' rfl, hother '\r' rfl,
    hother '[' rfl, hother ']' rfl, hother '\x7b' rfl, hother '\x7d' rfl, hother ',' rfl,
    hother ':' rfl, hother '\x22' rfl, hother '-' rfl]

/-- The whole part of a number is read alike with and without a sign before it. -/
theorem exists_phase_of_isWhole {chars : List Char} (h : IsWhole chars) (done : List Token) :
    ∃ c cs phase next, chars = c :: cs ∧ start done c = some { done, mode := .number phase [c] } ∧
      NumberPhase.sign.next? c = some phase ∧ (next = .zero ∨ next = .whole) ∧
      cs.foldlM NumberPhase.next? phase = some next := by
  cases h with
  | zero => exact ⟨'0', [], .zero, .zero, rfl, rfl, rfl, .inl rfl, rfl⟩
  | @digits d ds hd hne hds =>
    have hsign : NumberPhase.sign.next? d = some .whole := by simp [NumberPhase.next?, hd, hne]
    have hrest := NumberPhase.foldlM_digits .whole (fun c hc => by simp [NumberPhase.next?, hc]) hds
    exact ⟨d, ds, .whole, .whole, rfl, start_digit done hd hne, hsign, .inr rfl, hrest⟩

/-- A number is read up to a part in which it may end. -/
theorem exists_run_of_isNumber {chars : List Char} (h : IsNumber chars) (done : List Token) :
    ∃ c cs next phase, chars = c :: cs ∧ start done c = some next ∧ phase.isComplete = true ∧
      next.run cs = some { done, mode := .number phase chars.reverse } := by
  cases h with
  | @parts sign whole fraction exponent hsign hwhole hfraction hexponent =>
    -- With or without a sign, what comes after the first digit is read in the same parts.
    obtain ⟨c, cs, phase, next, rfl, hstart, hnext, hwhole, hcs⟩ :=
      exists_phase_of_isWhole hwhole done
    obtain ⟨final, hfinal, hrest⟩ := NumberPhase.foldlM_rest hwhole hfraction hexponent
    have hall := NumberPhase.foldlM_append hcs hrest
    rcases hsign with rfl | rfl
    · refine ⟨c, cs ++ (fraction ++ exponent), _, final, rfl, hstart, hfinal, ?_⟩
      rw [run_number hall]
      simp
    · refine ⟨'-', c :: (cs ++ (fraction ++ exponent)), _, final, rfl, rfl, hfinal, ?_⟩
      rw [run_number (NumberPhase.foldlM_cons hnext hall)]
      simp

/-! ### Words -/

/-- A string literal spells what its characters say. -/
theorem run_extends {s t : Spelling} {chars : List Char} (h : s.Extends chars t)
    (done : List Token) :
    ({ done, mode := .string s } : Lexer).run chars = some { done, mode := .string t } := by
  induction h with
  | refl => rfl
  | @char s t c rest hquote hbackslash hcontrol _ ih =>
    have hstep : ({ done, mode := .string s } : Lexer).step c =
        some { done, mode := .string (s.addChar c) } := by
      simp [step, hquote, hbackslash, hcontrol]
    rw [run_cons hstep, ih]
  | @escape s t c d rest hc _ ih =>
    have hu : c ≠ 'u' := by
      rintro rfl
      cases hc
    have hopen :
        ({ done, mode := .string s } : Lexer).step '\\' = some { done, mode := .escape s } := rfl
    have hstep : ({ done, mode := .escape s } : Lexer).step c =
        some { done, mode := .string (s.addChar d) } := by
      simp [step, hu, hc]
    rw [run_cons hopen, run_cons hstep, ih]
  | @unit s t a b c d i j k l rest ha hb hc hd _ ih =>
    -- The value of the digits so far is the state; the last digit ends the escape.
    have hopen :
        ({ done, mode := .string s } : Lexer).step '\\' = some { done, mode := .escape s } := rfl
    have hunit :
        ({ done, mode := .escape s } : Lexer).step 'u' = some { done, mode := .unit s 3 0 } := rfl
    have hstep : ∀ {digit : Char} {n : Nat} (left value : Nat), hexValue? digit = some n →
        ({ done, mode := .unit s (left + 1) value } : Lexer).step digit =
          some { done, mode := .unit s left (16 * value + n) } := by
      intro digit n left value hdigit
      simp [step, hdigit]
    have hlast : ({ done, mode := .unit s 0 (16 * (16 * (16 * 0 + i) + j) + k) } : Lexer).step d =
        some { done, mode := .string (s.addUnit (0x1000 * i + 0x100 * j + 0x10 * k + l)) } := by
      have hvalue : 16 * (16 * (16 * (16 * 0 + i) + j) + k) + l =
          0x1000 * i + 0x100 * j + 0x10 * k + l := by omega
      simp only [step, hd, Option.map_some, hvalue]
    rw [run_cons hopen, run_cons hunit, run_cons (hstep 2 0 ha), run_cons (hstep 1 _ hb),
      run_cons (hstep 0 _ hc), run_cons hlast, ih]

/-- A word is read as it is spelt, unless it is a number and goes on with another one. -/
theorem Holds.run_isSpelt {l : Lexer} {done : List Token} (h : l.Holds done) {token : Token}
    {word : List Char} (hword : token.IsSpelt word)
    (hapart : token.isNumber = false ∨ ∀ t ∈ done.head?, t.isNumber = false) :
    ∃ next, l.run word = some next ∧ next.Holds (token :: done) := by
  -- All words but numbers begin with a character that ends a number, and are complete at their end.
  have hmark : ∀ {t : Token} {c : Char} {cs : List Char} {next : Lexer}, continuesNumber c = false →
      start done c = some next → next.run cs = some (push done t) →
      ∃ next, l.run (c :: cs) = some next ∧ next.Holds (t :: done) := by
    intro t c cs next hc hstart hrun
    refine ⟨push done t, ?_, .blank (t :: done)⟩
    rw [run_cons ((h.step_eq (.inl hc)).trans hstart), hrun]
  cases hword with
  | openArray => exact hmark (by decide) rfl rfl
  | closeArray => exact hmark (by decide) rfl rfl
  | openObject => exact hmark (by decide) rfl rfl
  | closeObject => exact hmark (by decide) rfl rfl
  | comma => exact hmark (by decide) rfl rfl
  | colon => exact hmark (by decide) rfl rfl
  | null => exact hmark (by decide) rfl rfl
  | boolTrue => exact hmark (by decide) rfl rfl
  | boolFalse => exact hmark (by decide) rfl rfl
  | @string s chars hchars =>
    have hopen : start done '\x22' = some { done, mode := .string {} } := rfl
    refine hmark (by decide) hopen ?_
    rw [run_append, run_extends hchars]
    rfl
  | @number literal hliteral =>
    obtain ⟨c, cs, next, phase, hchars, hstart, hphase, hrun⟩ :=
      exists_run_of_isNumber hliteral done
    have hlast : ∀ t ∈ done.head?, t.isNumber = false :=
      hapart.resolve_left (by simp [Token.isNumber])
    have hholds := Holds.number hphase literal.toList.reverse done
    rw [List.reverse_reverse, String.ofList_toList] at hholds
    refine ⟨_, ?_, hholds⟩
    rw [hchars] at hrun ⊢
    rw [run_cons ((h.step_eq (.inr hlast)).trans hstart), hrun]

end Lexer

/-! ### Texts -/

/-- No number comes right after another one. -/
def NumbersApart (tokens : List Token) : Prop :=
  tokens.IsChain fun t u => u.isNumber = false ∨ t.isNumber = false

/-- The lexer reads a text of words after those that it holds, if numbers are apart. -/
theorem Lexer.Holds.run_isWritten {l : Lexer} {done tokens : List Token} {text : List Char}
    (h : l.Holds done) (htext : IsWritten tokens text)
    (hapart : NumbersApart (done.reverse ++ tokens)) :
    ∃ next, l.run text = some next ∧ next.Holds (tokens.reverse ++ done) := by
  -- What has been read and what is still to come stay one list of words in which numbers are apart.
  induction htext generalizing l done with
  | blanks hblanks => exact h.run_blanks hblanks
  | @word token tokens chars word rest hblanks hword _ ih =>
    have hseam : token.isNumber = false ∨ ∀ t ∈ done.head?, t.isNumber = false := by
      have hlast := (List.isChain_append.mp hapart).2.2
      rw [List.getLast?_reverse] at hlast
      cases hhead : done.head? with
      | none => exact .inr (by simp)
      | some t => exact (hlast t hhead token rfl).imp_right fun ht => by simpa using ht
    obtain ⟨between, hbetween, hholds⟩ := h.run_blanks hblanks
    obtain ⟨after, hafter, hholds⟩ := hholds.run_isSpelt hword hseam
    obtain ⟨final, hfinal, hholds⟩ := ih hholds (by simpa using hapart)
    refine ⟨final, ?_, by simpa using hholds⟩
    rw [run_append, hbetween, Option.bind_some, run_append, hafter, Option.bind_some, hfinal]

/-- Reading a text finds the words of which it consists. -/
theorem tokenize_of_isWritten {tokens : List Token} {text : List Char}
    (htext : IsWritten tokens text)
    (hapart : NumbersApart tokens) : tokenize text = some tokens := by
  obtain ⟨final, hfinal, hholds⟩ := (Lexer.Holds.blank []).run_isWritten htext hapart
  rw [tokenize, hfinal, Option.bind_some, hholds.finish_eq, List.append_nil, List.reverse_reverse]

end ShaderGraph.Json
