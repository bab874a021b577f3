import ShaderGraph.Proofs.Collisions
import ShaderGraph.Proofs.FirstDefect

namespace ShaderGraph

/-!
# Names in snake case

Camel case loses the underscores of a name, and with them different names may become one. Names in
snake case are safe: each of their underscores is followed by a small letter, whose capital tells
where it was.

* `Naming.IsSnakeCase` — components of small letters and digits with single underscores between
  them.
* `Naming.recover` — reads a variable back. `Naming.recover_variableName` says that the variable of
  a name in snake case is read back as this name.
* `Graph.ClaimedFor` — the claims that a graph makes for a socket. All others are made for
  functions: `Graph.functions_or_exists_claimedFor`.
* `Naming.snakeCase_recovered` — no two sockets with different names in snake case ask for one
  identifier, so a graph is never refused on their account.
-/

namespace Naming

/-! ### Snake case -/

/-- Whether a component of a name is made of small letters, of which there is at least one, and of
    digits after them. -/
def isComponent (component : List Char) : Bool :=
  component.head?.any Char.isLower && (component.dropWhile Char.isLower).all Char.isDigit

/-- The name is made of one component or more, with single underscores between them. -/
def IsSnakeCase (name : String) : Prop :=
  ∀ component ∈ name.toList.splitOn '_', isComponent component = true

/-- Whether a name is in snake case can be decided. -/
instance (name : String) : Decidable (IsSnakeCase name) := inferInstanceAs (Decidable (∀ _ ∈ _, _))

/-- A component is a letter, further letters and then digits. -/
theorem exists_of_isComponent {component : List Char} (h : isComponent component = true) :
    ∃ first letters digits, component = first :: (letters ++ digits) ∧ first.isLower = true ∧
      (∀ c ∈ letters, c.isLower = true) ∧ ∀ c ∈ digits, c.isDigit = true := by
  unfold isComponent at h
  cases component with
  | nil => simp at h
  | cons first rest =>
    rw [List.head?_cons, Option.any_some, Bool.and_eq_true] at h
    obtain ⟨hfirst, hdigits⟩ := h
    rw [List.dropWhile_cons_of_pos hfirst, List.all_eq_true] at hdigits
    exact ⟨first, rest.takeWhile Char.isLower, rest.dropWhile Char.isLower,
      by rw [List.takeWhile_append_dropWhile], hfirst, fun c hc => List.mem_takeWhile_imp hc,
      hdigits⟩

/-- Joining puts the separator in front of all parts but the first. -/
theorem intercalate_cons_eq {separator : Char} (first : List Char) (others : List (List Char)) :
    [separator].intercalate (first :: others) = first ++ others.flatMap (separator :: ·) := by
  induction others generalizing first with
  | nil => simp
  | cons next others ih => rw [List.intercalate_cons_cons, ih, List.flatMap_cons]; simp

/-- A name in snake case starts with a component, and each further one has an underscore in front of
    it. -/
theorem IsSnakeCase.exists_components {name : String} (h : IsSnakeCase name) :
    ∃ first others, name.toList = first ++ others.flatMap ('_' :: ·) ∧
      ∀ component ∈ first :: others, isComponent component = true := by
  obtain ⟨first, others, hsplit⟩ := List.exists_cons_of_ne_nil (List.splitOn_ne_nil '_' name.toList)
  refine ⟨first, others, ?_, fun component hc => h component (hsplit ▸ hc)⟩
  rw [← intercalate_cons_eq, ← hsplit, List.intercalate_splitOn]

/-! ### Reading back -/

/-- The characters that stand for a character of camel case: an underscore in front of a capital
    letter, and letters in lower case. -/
def recoverChar (c : Char) : List Char :=
  if c.isUpper then '_' :: Unicode.toLower c else Unicode.toLower c

/-- Reads a variable back. Its first underscore is dropped, every capital letter gets an underscore
    in front of it, and all letters become small. -/
def recover (name : String) : String := String.ofList ((name.toList.drop 1).flatMap recoverChar)

/-- What title case makes of a small letter, and how that is read back. -/
theorem recover_small {c : Char} (hc : c.isLower = true) :
    Unicode.isAlphabetic c = true ∧ Unicode.toLower c = [c] ∧ recoverChar c = [c] ∧
      (Unicode.toUpper c).flatMap recoverChar = ['_', c] := by
  have hletter : c.isAlpha = true := (Bool.or_eq_true _ _).mpr (.inr hc)
  have hchar : isIdentifierChar c = true := by simp [isIdentifierChar, Char.isAlphanum, hletter]
  revert hc
  apply of_isIdentifierChar _ hchar
  decide +kernel

/-- A digit is no letter and is read back as itself. -/
theorem recover_digit {c : Char} (hc : c.isDigit = true) :
    Unicode.isAlphabetic c = false ∧ recoverChar c = [c] := by
  have hchar : isIdentifierChar c = true := by simp [isIdentifierChar, Char.isAlphanum, hc]
  revert hc
  apply of_isIdentifierChar _ hchar
  decide +kernel

/-- A small letter is no underscore. -/
theorem ne_underscore_of_isLower {c : Char} (hc : c.isLower = true) : c ≠ '_' := by
  rintro rfl
  exact absurd hc (by decide)

/-- A digit is no underscore. -/
theorem ne_underscore_of_isDigit {c : Char} (hc : c.isDigit = true) : c ≠ '_' := by
  rintro rfl
  exact absurd hc (by decide)

/-- Small letters and digits are read back as they are. -/
theorem recover_component {component : List Char} (h : isComponent component = true) :
    component.flatMap recoverChar = component := by
  obtain ⟨first, letters, digits, rfl, hfirst, hletters, hdigits⟩ := exists_of_isComponent h
  have hkept : ∀ c ∈ first :: (letters ++ digits), recoverChar c = [c] := by
    intro c hc
    rcases List.mem_cons.mp hc with rfl | hc
    · exact (recover_small hfirst).2.2.1
    · rcases List.mem_append.mp hc with hc | hc
      · exact (recover_small (hletters c hc)).2.2.1
      · exact (recover_digit (hdigits c hc)).2
  rw [List.flatMap_congr hkept]
  simp

section TitleCase

variable {rest : List Char}

/-- Digits are the same in title case, wherever they stand. -/
theorem recover_titleCase_digits (hrest : ∀ b, (titleCase b rest).flatMap recoverChar = rest)
    {digits : List Char} (hdigits : ∀ c ∈ digits, c.isDigit = true) (b : Bool) :
    (titleCase b (digits ++ rest)).flatMap recoverChar = digits ++ rest := by
  induction digits generalizing b with
  | nil => exact hrest b
  | cons c digits ih =>
    obtain ⟨hc, hdigits⟩ := List.forall_mem_cons.mp hdigits
    obtain ⟨halphabetic, hkept⟩ := recover_digit hc
    rw [List.cons_append, titleCase, if_neg (ne_underscore_of_isDigit hc), halphabetic,
      if_neg Bool.false_ne_true, List.flatMap_cons, hkept, ih hdigits]
    rfl

/-- Behind a letter, small letters are the same in title case. -/
theorem recover_titleCase_letters {letters : List Char} (hletters : ∀ c ∈ letters, c.isLower = true)
    (hrest : (titleCase true rest).flatMap recoverChar = rest) :
    (titleCase true (letters ++ rest)).flatMap recoverChar = letters ++ rest := by
  induction letters with
  | nil => exact hrest
  | cons c letters ih =>
    obtain ⟨hc, hletters⟩ := List.forall_mem_cons.mp hletters
    obtain ⟨halphabetic, hlower, hkept, -⟩ := recover_small hc
    rw [List.cons_append, titleCase, if_neg (ne_underscore_of_isLower hc), if_pos halphabetic,
      if_pos rfl, hlower, List.flatMap_append, List.flatMap_singleton, hkept, ih hletters]
    rfl

/-- The capital at the start of a component is read back as the underscore in front of it. -/
theorem recover_titleCase {components : List (List Char)}
    (h : ∀ component ∈ components, isComponent component = true) (b : Bool) :
    (titleCase b (components.flatMap ('_' :: ·))).flatMap recoverChar =
      components.flatMap ('_' :: ·) := by
  induction components generalizing b with
  | nil => rfl
  | cons component components ih =>
    obtain ⟨hcomponent, hcomponents⟩ := List.forall_mem_cons.mp h
    obtain ⟨first, letters, digits, rfl, hfirst, hletters, hdigits⟩ :=
      exists_of_isComponent hcomponent
    obtain ⟨halphabetic, -, -, hcapital⟩ := recover_small hfirst
    -- The component ends in a letter or in a digit, so the next one is read in either state.
    have hdigits := recover_titleCase_digits (ih hcomponents) hdigits true
    have hletters := recover_titleCase_letters hletters hdigits
    rw [List.flatMap_cons, List.cons_append, List.cons_append, titleCase, if_pos rfl, titleCase,
      if_neg (ne_underscore_of_isLower hfirst), if_pos halphabetic, if_neg Bool.false_ne_true,
      List.flatMap_append, hcapital, List.append_assoc, hletters]
    rfl

end TitleCase

/-- There is no underscore in a component. -/
theorem underscore_not_mem_of_isComponent {component : List Char}
    (h : isComponent component = true) :
    ∀ c ∈ component, c ≠ '_' := by
  obtain ⟨first, letters, digits, rfl, hfirst, hletters, hdigits⟩ := exists_of_isComponent h
  refine List.forall_mem_cons.mpr
    ⟨ne_underscore_of_isLower hfirst, List.forall_mem_append.mpr ⟨?_, ?_⟩⟩
  · exact fun c hc => ne_underscore_of_isLower (hletters c hc)
  · exact fun c hc => ne_underscore_of_isDigit (hdigits c hc)

/-- A component begins with a small letter already. -/
theorem lowerFirst_component {component : List Char} (h : isComponent component = true)
    (rest : List Char) :
    lowerFirst (component ++ rest) = component ++ rest := by
  obtain ⟨first, letters, digits, rfl, hfirst, -, -⟩ := exists_of_isComponent h
  rw [List.cons_append, lowerFirst, (recover_small hfirst).2.1]
  rfl

/-- The first component of a name stays as it is, and the others are put in title case. -/
theorem camelCaseChars_components {first : List Char} (hfirst : isComponent first = true)
    (others : List (List Char)) :
    camelCaseChars (first ++ others.flatMap ('_' :: ·)) =
      first ++ titleCase false (others.flatMap ('_' :: ·)) := by
  have hnone : ∀ c ∈ first, decide (c ≠ '_') = true := by
    simpa using underscore_not_mem_of_isComponent hfirst
  -- What follows is empty or starts with an underscore, and there the first component ends.
  have hothers : (others.flatMap ('_' :: ·)).takeWhile (· ≠ '_') = [] ∧
      (others.flatMap ('_' :: ·)).dropWhile (· ≠ '_') = others.flatMap ('_' :: ·) := by
    cases others <;> simp
  simp only [camelCaseChars]
  rw [lowerFirst_component hfirst, List.takeWhile_append_of_pos hnone,
    List.dropWhile_append_of_pos hnone, hothers.1, hothers.2, List.append_nil]

/-- A name in snake case does not begin with an underscore, so that it is no variable in form. -/
theorem IsSnakeCase.not_isGenerated {name : String} (h : IsSnakeCase name) :
    ¬ IsGenerated name := by
  intro hgenerated
  obtain ⟨first, others, hname, hcomponents⟩ := h.exists_components
  have hfirst := hcomponents first List.mem_cons_self
  obtain ⟨c, letters, digits, rfl, hc, -, -⟩ := exists_of_isComponent hfirst
  -- Such a name would start with an underscore and not with a letter.
  rw [hgenerated, String.toList_append] at hname
  exact ne_underscore_of_isLower hc (List.cons.inj hname).1.symm

/-- The variable of a name in snake case is read back as this name. -/
theorem recover_variableName {name : String} (h : IsSnakeCase name) :
    recover (variableName name) = name := by
  obtain ⟨first, others, hname, hcomponents⟩ := h.exists_components
  obtain ⟨hfirst, hothers⟩ := List.forall_mem_cons.mp hcomponents
  have hcamel : (camelCaseChars name.toList).flatMap recoverChar = name.toList := by
    rw [hname, camelCaseChars_components hfirst, List.flatMap_append, recover_component hfirst,
      recover_titleCase hothers]
  have hchars : (variableName name).toList.drop 1 = camelCaseChars name.toList := by
    rw [variableName_of_not_isGenerated h.not_isGenerated, String.toList_append, toList_camelCase]
    rfl
  rw [recover, hchars, hcamel, String.ofList_toList]

/-- Two names that end in the variables of names in snake case can only be the same if these are. -/
theorem IsSnakeCase.eq_of_append_variableName_eq {s t front front' : String} (hs : IsSnakeCase s)
    (ht : IsSnakeCase t) (h : front ++ variableName s = front' ++ variableName t) : s = t := by
  have hcamel : camelCase s = camelCase t := (append_variableName_eq_iff.mp h).2
  have hvariable : variableName s = variableName t :=
    variableName_eq_variableName_iff.mpr ⟨iff_of_false hs.not_isGenerated ht.not_isGenerated,
      hcamel⟩
  rw [← recover_variableName hs, hvariable, recover_variableName ht]

end Naming

/-! ### Claims for sockets -/

namespace Graph

variable {g : Graph}

/-- The graph makes the claim for a socket with the given name: for a socket of its interface, for a
    parameter of the function of a node, or for the local that holds the output of a node. -/
inductive ClaimedFor (g : Graph) : String → Claim → Prop where
  | interface {decl : SocketDecl} (hdecl : decl ∈ g.inputs ++ g.outputs) :
    ClaimedFor g decl.name
      { scope := .entry, identifier := Naming.variableName decl.name, owner := decl.name }
  | parameter {n : Node} {position : Nat} {decl : SocketDecl} (hn : (n, position) ∈ g.nodes.zipIdx)
    (hdecl : decl ∈ n.inputs ++ n.outputs) :
    ClaimedFor g decl.name
      { scope := .parameters position
        identifier := Naming.variableName decl.name
        owner := n.socketLabel decl.name }
  | output {n : Node} {decl : SocketDecl} (hn : n ∈ g.nodes) (hdecl : decl ∈ n.outputs) :
    ClaimedFor g decl.name
      { scope := .entry
        identifier := Naming.localName n.name decl.name
        owner := n.socketLabel decl.name }

/-- Whatever is claimed for a socket ends in its variable. -/
theorem ClaimedFor.exists_identifier_eq {socket : String} {c : Claim} (h : g.ClaimedFor socket c) :
    ∃ front, c.identifier = front ++ Naming.variableName socket := by
  cases h with
  | interface => exact ⟨"", String.empty_append.symm⟩
  | parameter => exact ⟨"", String.empty_append.symm⟩
  | @output n => exact ⟨Naming.identifier n.name, rfl⟩

/-- A claim that is for no socket is for a function. -/
theorem functions_or_exists_claimedFor {c : Claim} (hc : c ∈ g.claims) :
    c.scope = .functions ∨ ∃ socket, g.ClaimedFor socket c := by
  rcases List.mem_append.mp hc with hc | hc
  · obtain ⟨decl, hdecl, rfl⟩ := List.mem_map.mp hc
    exact .inr ⟨_, .interface hdecl⟩
  · obtain ⟨⟨n, position⟩, hn, hc⟩ := List.mem_flatMap.mp hc
    rcases List.mem_append.mp hc with hc | hc
    · rcases List.mem_cons.mp hc with rfl | hc
      · exact .inl rfl
      · obtain ⟨decl, hdecl, rfl⟩ := List.mem_map.mp hc
        exact .inr ⟨_, .parameter hn hdecl⟩
    · obtain ⟨decl, hdecl, rfl⟩ := List.mem_map.mp hc
      exact .inr ⟨_, .output (List.fst_mem_of_mem_zipIdx hn) hdecl⟩

end Graph

/-! ### Distinct names -/

namespace Naming

/-- Sockets with different names in snake case ask for different identifiers. -/
theorem IsSnakeCase.eq_of_claimedFor {g : Graph} {s t : String} {c d : Claim} (hs : IsSnakeCase s)
    (ht : IsSnakeCase t) (hc : g.ClaimedFor s c) (hd : g.ClaimedFor t d)
    (h : c.identifier = d.identifier) : s = t := by
  obtain ⟨front, hfront⟩ := hc.exists_identifier_eq
  obtain ⟨front', hfront'⟩ := hd.exists_identifier_eq
  rw [hfront, hfront'] at h
  exact hs.eq_of_append_variableName_eq ht h

/-- **Snake case.** The variable of a name in snake case is read back as this name, so two names in
    snake case have one variable only if they are one name. If a graph is refused since an
    identifier is claimed twice, then the two claims are either both for functions or both for
    sockets, and the sockets do not have two different names in snake case. -/
theorem snakeCase_recovered :
    (∀ name, IsSnakeCase name → recover (variableName name) = name) ∧
    (∀ s t, IsSnakeCase s → IsSnakeCase t → variableName s = variableName t → s = t) ∧
    ∀ (g : Graph) (err : Error), g.checkIdentifiers = .error err → ∃ first second : Claim,
      Claim.firstClash? [] g.claims = some (first, second) ∧
      err = .identifierCollision second.identifier first.owner second.owner ∧
      ((first.scope = .functions ∧ second.scope = .functions) ∨
        ∃ s t, g.ClaimedFor s first ∧ g.ClaimedFor t second) ∧
      ∀ s t, g.ClaimedFor s first → g.ClaimedFor t second → IsSnakeCase s → IsSnakeCase t →
        s = t := by
  refine ⟨fun name => recover_variableName, fun s t hs ht h => ?_, fun g err herror => ?_⟩
  · rw [← recover_variableName hs, h, recover_variableName ht]
  obtain ⟨first, second, hclash, rfl⟩ := Graph.checkIdentifiers_eq_error_iff.mp herror
  obtain ⟨before, after, hclaims, -, hfirst⟩ := Claim.firstClash?_eq_some.mp hclash
  have hmem : first ∈ before ∧ first.clashes second = true :=
    List.mem_filter.mp (hfirst ▸ List.mem_singleton_self first)
  obtain ⟨hscope, hidentifier⟩ :
      first.scope = second.scope ∧ first.identifier = second.identifier := by
    simpa [Claim.clashes] using hmem.2
  refine ⟨first, second, hclash, rfl, ?_,
    fun s t hc hd hs ht => hs.eq_of_claimedFor ht hc hd hidentifier⟩
  have hfirst : first ∈ g.claims := by simp [hclaims, hmem.1]
  have hsecond : second ∈ g.claims := by simp [hclaims]
  rcases Graph.functions_or_exists_claimedFor hfirst with hfunctions | ⟨s, hs⟩
  · exact .inl ⟨hfunctions, hscope ▸ hfunctions⟩
  · rcases Graph.functions_or_exists_claimedFor hsecond with hfunctions | ⟨t, ht⟩
    · exact .inl ⟨hscope.trans hfunctions, hfunctions⟩
    · exact .inr ⟨s, t, hs, ht⟩

/-- A graph with an input and an output of one name. -/
def passThrough : Graph :=
  { inputs := [⟨"uv2_coord3_x", "vec2"⟩], outputs := [⟨"uv2_coord3_x", "vec2"⟩] }

/-- The graph is refused on account of the one name `uv2_coord3_x`, which its variable tells. -/
theorem snakeCase_recovered_passThrough :
    IsSnakeCase "uv2_coord3_x" ∧ variableName "uv2_coord3_x" = "_uv2Coord3X" ∧
    recover "_uv2Coord3X" = "uv2_coord3_x" ∧
    (∀ s, IsSnakeCase s → variableName s = "_uv2Coord3X" → s = "uv2_coord3_x") ∧
    passThrough.checkIdentifiers =
      .error (.identifierCollision "_uv2Coord3X" "uv2_coord3_x" "uv2_coord3_x") ∧
    ∀ s t, passThrough.ClaimedFor s ⟨.entry, "_uv2Coord3X", "uv2_coord3_x"⟩ →
      passThrough.ClaimedFor t ⟨.entry, "_uv2Coord3X", "uv2_coord3_x"⟩ →
      IsSnakeCase s → IsSnakeCase t → s = t := by
  have hname : IsSnakeCase "uv2_coord3_x" := by decide +kernel
  have hvariable : variableName "uv2_coord3_x" = "_uv2Coord3X" := by decide +kernel
  have herror : passThrough.checkIdentifiers =
      .error (.identifierCollision "_uv2Coord3X" "uv2_coord3_x" "uv2_coord3_x") := by decide +kernel
  have hpair : Claim.firstClash? [] passThrough.claims =
      some (⟨.entry, "_uv2Coord3X", "uv2_coord3_x"⟩, ⟨.entry, "_uv2Coord3X", "uv2_coord3_x"⟩) := by
    decide +kernel
  obtain ⟨hrecover, hinjective, hclaims⟩ := snakeCase_recovered
  obtain ⟨first, second, hclash, -, -, hequal⟩ := hclaims passThrough _ herror
  rw [hpair, Option.some.injEq, Prod.mk.injEq] at hclash
  obtain ⟨rfl, rfl⟩ := hclash
  exact ⟨hname, hvariable, hvariable ▸ hrecover _ hname,
    fun s hs h => hinjective s _ hs hname (h.trans hvariable.symm), herror, hequal⟩

/-- A name that is not in snake case, and has the variable of one that is. -/
example :
    variableName "Uv2_coord3__x" = variableName "uv2_coord3_x" ∧ ¬ IsSnakeCase "Uv2_coord3__x" := by
  decide +kernel

end Naming

end ShaderGraph
