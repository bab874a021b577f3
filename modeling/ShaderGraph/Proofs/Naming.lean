import Mathlib.Data.List.Basic
import Mathlib.Data.List.TakeWhile
import ShaderGraph.Naming

namespace ShaderGraph

/-!
# Names in generated code

What the rules for generated names guarantee, whatever characters the names of the host hold.

* `Naming.isIdentifier` — the names that the shading language allows; `isIdentifier_identifier`
  says that host names become such names, `isIdentifier_append_iff` how they stay so as they grow.
* `Unicode.underscore_not_mem_toLower`, `Unicode.underscore_not_mem_toUpper` — a change of case
  makes no underscores.
* `Naming.isIdentifierChar_of_mem_camelCaseChars` — a change of case leads from identifier
  characters to identifier characters.
* `Naming.toList_variableName` — the variable of a socket has its underscores in front, so that
  `Naming.isIdentifier_variableName_iff` leaves the camel case of the name to look at.
* `Naming.prefix_of_append_variableName` — how a name with a variable at its end can also be read
  as a name of three parts.
-/

/-! ### Identifiers -/

namespace Naming

/-- Whether a name is a letter or an underscore followed by letters, digits and underscores. -/
def isIdentifier (name : String) : Bool :=
  match name.toList with
  | [] => false
  | first :: rest => (first.isAlpha || first == '_') && rest.all isIdentifierChar

/-- What replaces the characters of a name may stand in an identifier. -/
theorem isIdentifierChar_of_mem_replaceForeign {name : List Char} {c : Char}
    (hc : c ∈ replaceForeign name) : isIdentifierChar c = true := by
  obtain ⟨d, -, rfl⟩ := List.mem_map.mp hc
  by_cases hd : isIdentifierChar d = true
  · rwa [if_pos hd]
  · rw [if_neg hd]
    decide

/-- The characters of a name as an identifier may stand in one. -/
theorem isIdentifierChar_of_mem_identifierChars {name : List Char} {c : Char}
    (hc : c ∈ identifierChars name) : isIdentifierChar c = true := by
  simp only [identifierChars] at hc
  split at hc
  · rcases List.mem_cons.mp hc with rfl | hc
    · decide
    · exact isIdentifierChar_of_mem_replaceForeign hc
  · exact isIdentifierChar_of_mem_replaceForeign hc

/-- Identifiers have a first character, which is not a digit. -/
theorem exists_identifierChars_eq_cons (name : List Char) :
    ∃ first rest, identifierChars name = first :: rest ∧ first.isDigit = false := by
  unfold identifierChars
  cases hchars : replaceForeign name with
  | nil => exact ⟨'_', [], by simp, by decide⟩
  | cons first rest =>
    by_cases hdigit : first.isDigit = true
    · exact ⟨'_', first :: rest, by simp [hdigit], by decide⟩
    · exact ⟨first, rest, by simp [hdigit], by simpa using hdigit⟩

/-- Any name becomes an identifier. -/
theorem isIdentifier_identifier (name : String) : isIdentifier (identifier name) = true := by
  obtain ⟨first, rest, hchars, hdigit⟩ := exists_identifierChars_eq_cons name.toList
  have hall : ∀ c ∈ first :: rest, isIdentifierChar c = true := by
    intro c hc
    rw [← hchars] at hc
    exact isIdentifierChar_of_mem_identifierChars hc
  have hfirst : (first.isAlpha || first == '_') = true := by
    -- The first character may stand somewhere, and it is not a digit.
    have h := hall first List.mem_cons_self
    unfold isIdentifierChar Char.isAlphanum at h
    rwa [hdigit, Bool.or_false] at h
  have hrest : rest.all isIdentifierChar = true :=
    List.all_eq_true.mpr fun c hc => hall c (List.mem_cons_of_mem _ hc)
  simp [isIdentifier, hchars, hfirst, hrest]

/-- An identifier may be continued with identifier characters, and with nothing else. -/
theorem isIdentifier_append_iff {front back : String} (hfront : isIdentifier front = true) :
    isIdentifier (front ++ back) = true ↔ ∀ c ∈ back.toList, isIdentifierChar c = true := by
  unfold isIdentifier at hfront ⊢
  rw [String.toList_append]
  cases hchars : front.toList with
  | nil => simp [hchars] at hfront
  | cons first rest =>
    rw [hchars] at hfront
    rw [Bool.and_eq_true] at hfront
    simp [hfront.1, hfront.2, List.all_append]

/-- All characters of an identifier may stand in one. -/
theorem isIdentifierChar_of_mem_identifier {name : String} {c : Char}
    (hname : isIdentifier name = true) (hc : c ∈ name.toList) : isIdentifierChar c = true := by
  unfold isIdentifier at hname
  cases hchars : name.toList with
  | nil => simp [hchars] at hname
  | cons first rest =>
    rw [hchars] at hname hc
    rw [Bool.and_eq_true, List.all_eq_true] at hname
    obtain ⟨hfirst, hrest⟩ := hname
    rcases List.mem_cons.mp hc with rfl | hc
    · rw [Bool.or_eq_true] at hfirst
      simp only [isIdentifierChar, Char.isAlphanum, Bool.or_eq_true]
      exact hfirst.imp_left .inl
    · exact hrest c hc

/-- An identifier stays one if more of its characters are put behind it. -/
theorem isIdentifier_append {front back : String} (hfront : isIdentifier front = true)
    (hback : ∀ c ∈ back.toList, isIdentifierChar c = true) : isIdentifier (front ++ back) = true :=
  (isIdentifier_append_iff hfront).mpr hback

end Naming

/-! ### Underscores and case -/

namespace Unicode

/-- A run sends no code point to `code`. -/
def CaseRun.Avoids (run : CaseRun) (code : Nat) : Prop :=
  code < run.target ∨ run.target + (run.last - run.first) < code

/-- Whether a run avoids a code can be decided. -/
instance (run : CaseRun) (code : Nat) : Decidable (run.Avoids code) :=
  inferInstanceAs (Decidable (_ ∨ _))

/-- No image of a run is a code that it avoids. -/
theorem CaseRun.Avoids.image?_ne {run : CaseRun} {code : Nat} (h : run.Avoids code) {n image : Nat}
    (himage : run.image? n = some image) : image ≠ code := by
  unfold CaseRun.image? at himage
  split at himage
  · next hn =>
    have himage := Option.some.inj himage
    unfold CaseRun.Avoids at h
    omega
  · exact absurd himage (by simp)

/-- A code that all runs avoid is the image of itself only. -/
theorem caseImage_ne {runs : List CaseRun} {code : Nat} (hruns : ∀ run ∈ runs, run.Avoids code)
    {n : Nat} (hn : n ≠ code) : caseImage n runs ≠ code := by
  induction runs with
  | nil => exact hn
  | cons run runs ih =>
    obtain ⟨hrun, hrest⟩ := List.forall_mem_cons.mp hruns
    unfold caseImage
    split
    · exact hn
    · cases himage : run.image? n with
      | none => exact ih hrest
      | some image => exact hrun.image?_ne himage

/-- Other code points are other characters than the underscore. -/
theorem ofNat_ne_underscore {n : Nat} (hn : n ≠ '_'.toNat) : Char.ofNat n ≠ '_' := by
  intro h
  by_cases hvalid : n.isValidChar
  · have hcode : (Char.ofNat n).toNat = n := by
      rw [Char.ofNat, dif_pos hvalid]
      rfl
    exact hn (by rw [← hcode, h])
  · rw [Char.ofNat, dif_neg hvalid] at h
    exact absurd h (by decide)

/-- Tables without underscores spell nothing but the underscore with an underscore. -/
theorem underscore_not_mem_spelling {expansions : List (Nat × List Nat)} {runs : List CaseRun}
    (hexpansions : ∀ e ∈ expansions, '_'.toNat ∉ e.2)
    (hruns : ∀ run ∈ runs, run.Avoids '_'.toNat) {c : Char} (hc : c ≠ '_') :
    '_' ∉ spelling expansions runs c := by
  unfold spelling
  split
  · next codes hcodes =>
    intro hmem
    obtain ⟨code, hcode, heq⟩ := List.mem_map.mp hmem
    have hne : code ≠ '_'.toNat := by
      rintro rfl
      obtain ⟨before, after, hsplit, -⟩ := List.lookup_eq_some_iff.mp hcodes
      exact hexpansions (c.toNat, codes) (by simp [hsplit]) hcode
    exact ofNat_ne_underscore hne heq
  · have hcode : c.toNat ≠ '_'.toNat := fun h => hc (Char.toNat_inj.mp h)
    have himage := ofNat_ne_underscore (caseImage_ne hruns hcode)
    simpa using himage.symm

/-- No lower case has an underscore, but that of the underscore itself. -/
theorem underscore_not_mem_toLower {c : Char} (hc : c ≠ '_') : '_' ∉ toLower c :=
  underscore_not_mem_spelling (by decide +kernel) (by decide +kernel) hc

/-- No upper case has one either. -/
theorem underscore_not_mem_toUpper {c : Char} (hc : c ≠ '_') : '_' ∉ toUpper c :=
  underscore_not_mem_spelling (by decide +kernel) (by decide +kernel) hc

end Unicode

/-! ### Identifier characters and case -/

namespace Naming

/-- The characters of identifiers are characters of ASCII. -/
theorem toNat_lt_of_isIdentifierChar {c : Char} (hc : isIdentifierChar c = true) :
    c.toNat < 128 := by
  have hcode : c.toNat = c.val.toNat := rfl
  unfold isIdentifierChar Char.isAlphanum Char.isAlpha Char.isUpper Char.isLower Char.isDigit at hc
  simp only [Bool.or_eq_true, Bool.and_eq_true, decide_eq_true_eq, beq_iff_eq,
    UInt32.le_iff_toNat_le, ge_iff_le] at hc
  rcases hc with ((hc | hc) | hc) | rfl
  · have : c.val.toNat ≤ 90 := hc.2
    omega
  · have : c.val.toNat ≤ 122 := hc.2
    omega
  · have : c.val.toNat ≤ 57 := hc.2
    omega
  · decide

/-- What is true of the first characters is true of all identifier characters. -/
theorem of_isIdentifierChar {P : Char → Prop} (h : ∀ n < 128, P (Char.ofNat n)) {c : Char}
    (hc : isIdentifierChar c = true) : P c := by
  have hcode := h c.toNat (toNat_lt_of_isIdentifierChar hc)
  rwa [Char.ofNat_toNat] at hcode

/-- Identifier characters keep to themselves when they change their case. -/
theorem isIdentifierChar_of_mem_spellings {c d : Char} (hc : isIdentifierChar c = true)
    (hd : d ∈ Unicode.toLower c ∨ d ∈ Unicode.toUpper c) : isIdentifierChar d = true := by
  have hspellings : isIdentifierChar c = true →
      (Unicode.toLower c ++ Unicode.toUpper c).all isIdentifierChar = true := by
    apply of_isIdentifierChar _ hc
    decide +kernel
  exact List.all_eq_true.mp (hspellings hc) d (List.mem_append.mpr hd)

/-- Title case leads from characters of identifiers to such characters. -/
theorem isIdentifierChar_of_mem_titleCase {afterLetter : Bool} {name : List Char}
    (hname : ∀ c ∈ name, isIdentifierChar c = true) :
    ∀ c ∈ titleCase afterLetter name, isIdentifierChar c = true := by
  fun_induction titleCase afterLetter name with
  | case1 afterLetter => simp
  | case2 afterLetter cs ih => exact ih (List.forall_mem_cons.mp hname).2
  | case3 afterLetter c cs hc halphabetic ih =>
    obtain ⟨hfirst, hrest⟩ := List.forall_mem_cons.mp hname
    refine List.forall_mem_append.mpr ⟨fun d hd => ?_, ih hrest⟩
    split at hd
    · exact isIdentifierChar_of_mem_spellings hfirst (.inl hd)
    · exact isIdentifierChar_of_mem_spellings hfirst (.inr hd)
  | case4 afterLetter c cs hc halphabetic ih =>
    obtain ⟨hfirst, hrest⟩ := List.forall_mem_cons.mp hname
    exact List.forall_mem_cons.mpr ⟨hfirst, ih hrest⟩

/-- A first character in lower case is a character of identifiers still. -/
theorem isIdentifierChar_of_mem_lowerFirst {name : List Char}
    (hname : ∀ c ∈ name, isIdentifierChar c = true) :
    ∀ c ∈ lowerFirst name, isIdentifierChar c = true := by
  cases name with
  | nil => exact hname
  | cons first rest =>
    obtain ⟨hfirst, hrest⟩ := List.forall_mem_cons.mp hname
    exact List.forall_mem_append.mpr
      ⟨fun d hd => isIdentifierChar_of_mem_spellings hfirst (.inl hd), hrest⟩

/-- The camel case of a name made of identifier characters is made of them as well. -/
theorem isIdentifierChar_of_mem_camelCaseChars {name : List Char}
    (hname : ∀ c ∈ name, isIdentifierChar c = true) :
    ∀ c ∈ camelCaseChars name, isIdentifierChar c = true := by
  have hlowered := isIdentifierChar_of_mem_lowerFirst hname
  refine List.forall_mem_append.mpr
    ⟨fun c hc => ?_, isIdentifierChar_of_mem_titleCase fun c hc => ?_⟩
  · exact hlowered c ((List.takeWhile_sublist _).mem hc)
  · exact hlowered c ((List.dropWhile_sublist _).mem hc)

end Naming

/-! ### Variables -/

namespace Naming

/-- Title case leaves no underscores. -/
theorem underscore_not_mem_titleCase (afterLetter : Bool) (name : List Char) :
    '_' ∉ titleCase afterLetter name := by
  fun_induction titleCase afterLetter name with
  | case1 afterLetter => exact List.not_mem_nil
  | case2 afterLetter cs ih => exact ih
  | case3 afterLetter c cs hc halphabetic ih =>
    have hspelling : '_' ∉ if afterLetter then Unicode.toLower c else Unicode.toUpper c := by
      split
      · exact Unicode.underscore_not_mem_toLower hc
      · exact Unicode.underscore_not_mem_toUpper hc
    rw [List.mem_append]
    exact not_or.mpr ⟨hspelling, ih⟩
  | case4 afterLetter c cs hc halphabetic ih =>
    rw [List.mem_cons]
    exact not_or.mpr ⟨Ne.symm hc, ih⟩

/-- Camel case has no underscores. -/
theorem underscore_not_mem_camelCaseChars (name : List Char) : '_' ∉ camelCaseChars name := by
  intro h
  rcases List.mem_append.mp h with h | h
  · exact absurd (List.mem_takeWhile_imp h) (by simp)
  · exact underscore_not_mem_titleCase _ _ h

/-- The variable of a socket is the camel case of its name after one underscore or two. -/
theorem toList_variableName (socket : String) :
    (variableName socket).toList = '_' :: camelCaseChars socket.toList ∨
      (variableName socket).toList = '_' :: '_' :: camelCaseChars socket.toList := by
  simp only [variableName]
  split
  · right
    simp
  · left
    simp

/-- A variable begins with an underscore. -/
theorem head?_variableName (socket : String) : (variableName socket).toList.head? = some '_' := by
  rcases toList_variableName socket with h | h <;> rw [h, List.head?_cons]

/-- Whether the variable of a socket is an identifier depends on the camel case of its name. -/
theorem isIdentifierChar_variableName_iff {socket : String} :
    (∀ c ∈ (variableName socket).toList, isIdentifierChar c = true) ↔
      ∀ c ∈ camelCaseChars socket.toList, isIdentifierChar c = true := by
  have hunderscore : isIdentifierChar '_' = true := by decide
  rcases toList_variableName socket with h | h <;> simp [h, hunderscore]

/-- A variable is an identifier if the camel case of its socket has the characters of one. -/
theorem isIdentifier_variableName_iff {socket : String} :
    isIdentifier (variableName socket) = true ↔
      ∀ c ∈ camelCaseChars socket.toList, isIdentifierChar c = true := by
  have hhead := head?_variableName socket
  rw [← isIdentifierChar_variableName_iff, isIdentifier]
  cases hchars : (variableName socket).toList with
  | nil => simp [hchars] at hhead
  | cons first rest =>
    rw [hchars, List.head?_cons, Option.some.injEq] at hhead
    rw [hhead, List.forall_mem_cons, Bool.and_eq_true, List.all_eq_true]
    exact and_congr_left fun _ => by decide

/-- The name of the node is made an identifier, so it does not matter for the local of an output. -/
theorem isIdentifier_localName_iff {node socket : String} :
    isIdentifier (localName node socket) = true ↔
      ∀ c ∈ camelCaseChars socket.toList, isIdentifierChar c = true := by
  rw [localName, isIdentifier_append_iff (isIdentifier_identifier node),
    isIdentifierChar_variableName_iff]

/-- Behind a letter, a variable has no underscores. -/
theorem toList_variableName_ne {socket : String} {letters tail : List Char}
    (hletters : '_' ∉ letters) (hne : letters ≠ []) :
    (variableName socket).toList ≠ '_' :: (letters ++ '_' :: tail) := by
  intro heq
  have hcamel := underscore_not_mem_camelCaseChars socket.toList
  rcases toList_variableName socket with hname | hname
  · have hrest := (List.cons.inj (hname.symm.trans heq)).2
    rw [hrest] at hcamel
    exact hcamel (by simp)
  · -- The second underscore would be the first of the letters.
    have hrest := (List.cons.inj (hname.symm.trans heq)).2
    obtain ⟨letter, letters, rfl⟩ := List.exists_cons_of_ne_nil hne
    have hletter : '_' = letter := (List.cons.inj hrest).1
    exact hletters (List.mem_cons.mpr (.inl hletter))

/-- A name that ends in a variable may also be readable as three parts, the first two of which hold
    no underscores. Then these two lie in front of the variable. -/
theorem prefix_of_append_variableName {front first second third : List Char} {socket : String}
    (hfirst : '_' ∉ first) (hsecond : '_' ∉ second) (hne : second ≠ [])
    (h : front ++ (variableName socket).toList = (first ++ '_' :: second) ++ '_' :: third) :
    first ++ '_' :: second <+: front := by
  rcases List.append_eq_append_iff.mp h with ⟨overlap, hparts, hvariable⟩ | ⟨rest, hrest, -⟩
  · cases overlap with
    | nil => exact ⟨[], by rw [hparts, List.append_nil, List.append_nil]⟩
    | cons c overlap =>
      -- The variable starts with the underscore between the first two parts, so it also holds the
      -- one in front of the third.
      have hhead := head?_variableName socket
      rw [hvariable, List.cons_append, List.head?_cons, Option.some.injEq] at hhead
      subst hhead
      obtain ⟨-, -, rfl⟩ := (List.append_cons_inj_of_notMem hfirst hsecond).mp hparts
      exact absurd hvariable (toList_variableName_ne hsecond hne)
  · exact ⟨rest, hrest.symm⟩

end Naming

end ShaderGraph
