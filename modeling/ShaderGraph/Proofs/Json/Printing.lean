import ShaderGraph.Proofs.Json.Documents

namespace ShaderGraph.Json

/-!
# Printed documents

What is printed of a document is one of its texts.

* `Spelling.extends_flatMap_escape` — escaped characters spell what they stand for.
* `WellFormed`, `isText_render` — documents of which all numbers are spelt as numbers are, and their
  text.
* `wellFormed_ofNat`, `natural?_ofNat` — natural numbers.
-/

/-! ### Strings -/

/-- A hexadecimal digit has the value that it is printed for. -/
theorem hexValue?_hexDigit {n : Nat} (h : n < 16) : hexValue? (hexDigit n) = some n := by
  have hall : ∀ n < 16, hexValue? (hexDigit n) = some n := by decide
  exact hall n h

namespace Spelling

/-- A spelling to which characters are added one after another. -/
def addChars (s : Spelling) (chars : List Char) : Spelling := chars.foldl addChar s

/-- A character leaves no half of a pair open. -/
theorem leading?_addChar {s : Spelling} (hs : s.leading? = none) (c : Char) :
    (s.addChar c).leading? = none := by
  simp [addChar, hs]

/-- The escape of a control character is the code unit of that character. -/
theorem addUnit_toNat {s : Spelling} (hs : s.leading? = none) {c : Char} (hc : c.toNat < 0x20) :
    s.addUnit c.toNat = s.addChar c := by
  have hleading : isLeadingSurrogate c.toNat = false := by simp [isLeadingSurrogate]; omega
  have htrailing : isTrailingSurrogate c.toNat = false := by simp [isTrailingSurrogate]; omega
  simp [addUnit, hs, hleading, htrailing, Char.ofNat_toNat]

/-- The escape of a character adds the character. -/
theorem extends_escape {s t : Spelling} (hs : s.leading? = none) {c : Char} {rest : List Char}
    (h : (s.addChar c).Extends rest t) : s.Extends (escape c ++ rest) t := by
  fun_cases escape c with
  | case1 => exact .escape rfl h
  | case2 => exact .escape rfl h
  | case3 => exact .escape rfl h
  | case4 => exact .escape rfl h
  | case5 => exact .escape rfl h
  | case6 => exact .escape rfl h
  | case7 => exact .escape rfl h
  | case8 c _ _ _ _ _ _ _ hcontrol =>
    -- A control character without a short escape is spelt by its code unit, of which two digits
    -- vary.
    have hunit : 0x1000 * 0 + 0x100 * 0 + 0x10 * (c.toNat / 16) + c.toNat % 16 = c.toNat := by omega
    have hhigh := hexValue?_hexDigit (n := c.toNat / 16) (by omega)
    have hlow := hexValue?_hexDigit (n := c.toNat % 16) (by omega)
    refine .unit (i := 0) (j := 0) rfl rfl hhigh hlow ?_
    rw [hunit, addUnit_toNat hs hcontrol]
    exact h
  | case9 c hquote hbackslash _ _ _ _ _ hcontrol =>
    exact .char hquote hbackslash (by omega) h

/-- Escaped characters spell what they stand for. -/
theorem extends_flatMap_escape {s : Spelling} (hs : s.leading? = none) (chars : List Char) :
    s.Extends (chars.flatMap escape) (s.addChars chars) := by
  induction chars generalizing s with
  | nil => exact .refl s
  | cons c chars ih => exact extends_escape hs (ih (leading?_addChar hs c))

/-- The characters that are added to a spelling come in front of it in reverse. -/
theorem addChars_eq (chars : List Char) (acc : List Char) :
    ({ chars? := some acc } : Spelling).addChars chars =
      { chars? := some (chars.reverse ++ acc) } := by
  induction chars generalizing acc with
  | nil => rfl
  | cons c chars ih =>
    show ({ chars? := some (c :: acc) } : Spelling).addChars chars = _
    rw [ih]
    simp

/-- A text is what its characters spell. -/
theorem text?_addChars (text : String) :
    (({} : Spelling).addChars text.toList).text? = some text := by
  show (({ chars? := some [] } : Spelling).addChars text.toList).text? = some text
  rw [addChars_eq]
  simp [text?]

end Spelling

/-! ### Words -/

/-- Words that are no numbers are printed as they may be spelt. -/
theorem isSpelt_chars {token : Token} (h : token.isNumber = false) : token.IsSpelt token.chars := by
  cases token with
  | openArray => exact .openArray
  | closeArray => exact .closeArray
  | openObject => exact .openObject
  | closeObject => exact .closeObject
  | comma => exact .comma
  | colon => exact .colon
  | null => exact .null
  | bool b =>
    cases b with
    | false => exact .boolFalse
    | true => exact .boolTrue
  | number literal => cases h
  | string text? =>
    cases text? with
    | some text =>
      have hspelt :=
        Token.IsSpelt.string (Spelling.extends_flatMap_escape (s := {}) rfl text.toList)
      rwa [Spelling.text?_addChars] at hspelt
    | none =>
      have hhalf :
          Spelling.Extends {} ['\\', 'u', 'd', '8', '0', '0'] { leading? := some 0xD800 } :=
        .unit (i := 13) (j := 8) (k := 0) (l := 0) rfl rfl rfl rfl (.refl _)
      exact .string hhalf

/-- Words that are printed without blanks between them are written. -/
theorem isWritten_flatMap_chars {tokens : List Token} (h : ∀ t ∈ tokens, t.IsSpelt t.chars) :
    IsWritten tokens (tokens.flatMap Token.chars) := by
  have hnone : IsBlanks [] := by simp [IsBlanks]
  induction tokens with
  | nil => exact .blanks hnone
  | cons token tokens ih =>
    obtain ⟨htoken, htokens⟩ := List.forall_mem_cons.mp h
    exact .word hnone htoken (ih htokens)

/-! ### Documents -/

/-- All numbers of a document are spelt as numbers are. -/
inductive WellFormed : Json → Prop where
  | null : WellFormed .null
  | bool (b : Bool) : WellFormed (.bool b)
  | number {literal : String} (h : IsNumber literal.toList) : WellFormed (.number literal)
  | string (text? : Option String) : WellFormed (.string text?)
  | array {elements : List Json} (h : ∀ e ∈ elements, WellFormed e) : WellFormed (.array elements)
  | object {members : List (Option String × Json)} (h : ∀ m ∈ members, WellFormed m.2) :
    WellFormed (.object members)

attribute [simp] WellFormed.null WellFormed.bool WellFormed.string

/-- The document of a text is well formed. -/
@[simp] theorem wellFormed_ofText (text : String) : (ofText text).WellFormed := .string (some text)

/-- A list is well formed if its elements are. -/
@[simp] theorem wellFormed_array {elements : List Json} :
    (array elements).WellFormed ↔ ∀ e ∈ elements, e.WellFormed := by
  refine ⟨fun h => ?_, .array⟩
  cases h with
  | array h => exact h

/-- A record is well formed if its values are. -/
@[simp] theorem wellFormed_ofMembers {members : List (String × Json)} :
    (ofMembers members).WellFormed ↔ ∀ m ∈ members, m.2.WellFormed := by
  refine ⟨fun h => ?_, fun h => .object (List.forall_mem_map.mpr h)⟩
  cases h with
  | object h => exact fun m hm => h _ (List.mem_map_of_mem hm)

section Mem

variable {P : Token → Prop} (hP : ∀ t : Token, t.isNumber = false → P t)

include hP

/-- What holds of all words but numbers, and of the numbers of a document, holds of its words. -/
theorem forall_mem_array {elements : List Json} (h : ∀ e ∈ elements, ∀ t ∈ e.tokens, P t) :
    ∀ t ∈ (Json.array elements).tokens, P t := by
  rw [tokens, List.forall_mem_cons, List.forall_mem_append, List.forall_mem_singleton]
  refine ⟨hP _ rfl, ?_, hP _ rfl⟩
  cases elements with
  | nil => simp [elementTokens]
  | cons e elements =>
    obtain ⟨he, helements⟩ := List.forall_mem_cons.mp h
    rw [elementTokens, furtherElementTokens_eq, List.forall_mem_append, List.forall_mem_flatMap]
    exact ⟨he, fun a ha => List.forall_mem_cons.mpr ⟨hP _ rfl, helements a ha⟩⟩

/-- What holds of the words of all values, of names and of marks holds of all words of an object. -/
theorem forall_mem_object {members : List (Option String × Json)}
    (h : ∀ m ∈ members, ∀ t ∈ m.2.tokens, P t) : ∀ t ∈ (Json.object members).tokens, P t := by
  have hmember : ∀ m ∈ members, ∀ t ∈ .string m.1 :: .colon :: m.2.tokens, P t := fun m hm =>
    List.forall_mem_cons.mpr ⟨hP _ rfl, List.forall_mem_cons.mpr ⟨hP _ rfl, h m hm⟩⟩
  rw [tokens, List.forall_mem_cons, List.forall_mem_append, List.forall_mem_singleton]
  refine ⟨hP _ rfl, ?_, hP _ rfl⟩
  cases members with
  | nil => simp [memberTokens]
  | cons m members =>
    obtain ⟨hm, hmembers⟩ := List.forall_mem_cons.mp hmember
    rw [memberTokens, furtherMemberTokens_eq, ← List.cons_append, ← List.cons_append,
      List.forall_mem_append, List.forall_mem_flatMap]
    exact ⟨hm, fun a ha => List.forall_mem_cons.mpr ⟨hP _ rfl, hmembers a ha⟩⟩

end Mem

/-- The words of a well-formed document are spelt by the characters that are printed for them. -/
theorem WellFormed.isSpelt_tokens {document : Json} (h : document.WellFormed) :
    ∀ t ∈ document.tokens, t.IsSpelt t.chars := by
  induction h with
  | null | bool | string => simpa [tokens] using isSpelt_chars rfl
  | number hliteral => simpa [tokens] using .number hliteral
  | array _ ih => exact forall_mem_array (fun _ => isSpelt_chars) ih
  | object _ ih => exact forall_mem_object (fun _ => isSpelt_chars) ih

/-- What is printed of a document is one of its texts. -/
theorem isText_render {document : Json} (h : document.WellFormed) :
    document.IsText document.render := by
  rw [IsText, render, String.toList_ofList]
  exact isWritten_flatMap_chars h.isSpelt_tokens

/-! ### Natural numbers -/

/-- The digits of a positive number do not begin with zero. -/
theorem exists_toDigits {n : Nat} (h : 0 < n) :
    ∃ d ds, Nat.toDigits 10 n = d :: ds ∧ d ≠ '0' := by
  induction n using Nat.strongRecOn with
  | ind n ih =>
    rcases Nat.lt_or_ge n 10 with hlt | hge
    · exact ⟨n.digitChar, [], Nat.toDigits_of_lt_base hlt, by simpa using h.ne'⟩
    · obtain ⟨d, ds, hds, hne⟩ := ih (n / 10) (by omega) (by omega)
      refine ⟨d, ds ++ [(n % 10).digitChar], ?_, hne⟩
      rw [Nat.toDigits_of_base_le (by omega) hge, hds, List.cons_append]

/-- The digits of a number are a whole number. -/
theorem isWhole_toDigits (n : Nat) : IsWhole (Nat.toDigits 10 n) := by
  rcases Nat.eq_zero_or_pos n with rfl | h
  · exact .zero
  · have hdigits : IsDigits (Nat.toDigits 10 n) :=
      fun c hc => Nat.isDigit_of_mem_toDigits (by omega) (by omega) hc
    obtain ⟨d, ds, hds, hne⟩ := exists_toDigits h
    rw [hds] at hdigits ⊢
    obtain ⟨hd, hrest⟩ := List.forall_mem_cons.mp hdigits
    exact .digits hd hne hrest

/-- The document of a number is well formed. -/
@[simp] theorem wellFormed_ofNat (n : Nat) : (ofNat n).WellFormed := by
  have hnumber := IsNumber.parts (.inl rfl) (isWhole_toDigits n) .absent .absent
  refine .number ?_
  rw [Nat.toString_eq_repr, Nat.toList_repr]
  simpa using hnumber

/-- A number is read back from its document. -/
theorem natural?_ofNat (n : Nat) : (ofNat n).natural? = some n := by
  have hdigits : (Nat.toDigits 10 n).all Char.isDigit = true :=
    List.all_eq_true.mpr fun c hc => Nat.isDigit_of_mem_toDigits (by omega) (by omega) hc
  have hvalue : Nat.ofDigitChars 10 (Nat.toDigits 10 n) 0 = n :=
    Nat.ofDigitChars_toDigits (by omega) (by omega)
  simp only [ofNat, natural?, Nat.toString_eq_repr, Nat.toList_repr, if_pos hdigits]
  exact congrArg some hvalue

end ShaderGraph.Json
