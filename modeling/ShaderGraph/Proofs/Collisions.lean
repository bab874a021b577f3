import ShaderGraph.Proofs.Lists
import ShaderGraph.Proofs.Naming

namespace ShaderGraph

/-!
# Collisions of names

Different names of the host can give one name in generated code. Here it is told for all names when
that happens, for the variables of sockets and for the locals of the entry function.

* `Naming.IsGenerated` — a name that has the form of a variable already. Its own variable gets a
  second underscore: `Naming.isDoubled_iff`.
* `Naming.lead` — what stands in front of the last underscore of a variable. The last underscore is
  where camel case starts, so `Naming.append_variableName_eq_iff` takes any two names apart that end
  in variables, and both main results are read off from there.
-/

namespace Naming

variable {s t : String}

/-! ### Generated names -/

/-- The name has the form of a variable: it is its own camel case after an underscore. -/
def IsGenerated (name : String) : Prop := name = "_" ++ camelCase name

/-- The variable of a socket has two underscores in front of the camel case. -/
def IsDoubled (socket : String) : Prop := variableName socket = "__" ++ camelCase socket

/-- Whether a name has the form of a variable can be decided. -/
instance (name : String) : Decidable (IsGenerated name) := inferInstanceAs (Decidable (_ = _))

/-- Whether a socket has a variable with two underscores can be decided. -/
instance (socket : String) : Decidable (IsDoubled socket) := inferInstanceAs (Decidable (_ = _))

/-- Two underscores are one and another one. -/
theorem underscores_append (name : String) : "__" ++ name = "_" ++ ("_" ++ name) := by
  rw [← String.append_assoc]
  rfl

/-- One underscore and two are different however a text goes on. -/
theorem underscores_append_ne (name : String) : "__" ++ name ≠ "_" ++ name := by
  intro h
  have hlead := (String.append_left_inj name).mp h
  exact absurd hlead (by decide)

/-- A name that is a variable in form gets a second underscore. -/
theorem variableName_of_isGenerated (h : IsGenerated s) : variableName s = "__" ++ camelCase s := by
  rw [underscores_append]
  exact if_pos (Eq.symm h)

/-- All other names get one underscore. -/
theorem variableName_of_not_isGenerated (h : ¬ IsGenerated s) :
    variableName s = "_" ++ camelCase s :=
  if_neg fun hs => h (Eq.symm hs)

/-- The second underscore is for those names that are variables in form already. -/
theorem isDoubled_iff : IsDoubled s ↔ IsGenerated s := by
  refine ⟨fun h => ?_, variableName_of_isGenerated⟩
  by_contra hs
  -- Otherwise the same camel case would follow one underscore and two.
  exact underscores_append_ne _ (h.symm.trans (variableName_of_not_isGenerated hs))

/-- Names that are variables in form are known by their camel case. -/
theorem IsGenerated.eq_of_camelCase_eq (hs : IsGenerated s) (ht : IsGenerated t)
    (h : camelCase s = camelCase t) : s = t := by
  rw [hs, h]
  exact ht.symm

/-- A variable never has the name of its socket. -/
theorem variableName_ne (s : String) : variableName s ≠ s := by
  by_cases hs : IsGenerated s
  · intro h
    rw [variableName_of_isGenerated hs] at h
    exact underscores_append_ne _ (h.trans hs)
  · intro h
    rw [variableName_of_not_isGenerated hs] at h
    exact hs h.symm

/-! ### Names that end in variables -/

/-- Camel case has no underscores. -/
theorem underscore_not_mem_camelCase (name : String) : '_' ∉ (camelCase name).toList := by
  rw [toList_camelCase]
  exact underscore_not_mem_camelCaseChars name.toList

/-- What stands in front of the last underscore of a variable. -/
def lead (socket : String) : String := if IsGenerated socket then "_" else ""

/-- An underscore leads if the name is a variable in form. -/
theorem lead_of_isGenerated (h : IsGenerated s) : lead s = "_" := if_pos h

/-- Nothing leads in front of the variables of other names. -/
theorem lead_of_not_isGenerated (h : ¬ IsGenerated s) : lead s = "" := if_neg h

/-- The leads of two variables are equal, or one of them has an underscore more, which then ends
    what stands in front of the other. -/
theorem append_lead_eq_iff {front front' : String} :
    front ++ lead s = front' ++ lead t ↔
      ((IsGenerated s ↔ IsGenerated t) ∧ front = front') ∨
      (IsGenerated s ∧ ¬ IsGenerated t ∧ front' = front ++ "_") ∨
      (¬ IsGenerated s ∧ IsGenerated t ∧ front = front' ++ "_") := by
  by_cases hs : IsGenerated s
  · by_cases ht : IsGenerated t
    · simp [lead, hs, ht]
    · simp [lead, hs, ht, eq_comm]
  · by_cases ht : IsGenerated t
    · simp [lead, hs, ht]
    · simp [lead, hs, ht]

/-- A variable is its lead, an underscore and the camel case of its socket. -/
theorem variableName_eq (s : String) : variableName s = lead s ++ ("_" ++ camelCase s) := by
  by_cases hs : IsGenerated s
  · rw [variableName_of_isGenerated hs, lead_of_isGenerated hs, underscores_append]
  · rw [variableName_of_not_isGenerated hs, lead_of_not_isGenerated hs, String.empty_append]

/-- Camel case has no underscores, so a name that ends in a variable can be read from its end in one
    way only. -/
theorem append_variableName_eq_iff {front front' : String} :
    front ++ variableName s = front' ++ variableName t ↔
      front ++ lead s = front' ++ lead t ∧ camelCase s = camelCase t := by
  have hchars : ∀ (front name : String), (front ++ variableName name).toList =
      (front ++ lead name).toList ++ '_' :: (camelCase name).toList := by
    intro front name
    simp [variableName_eq]
  rw [← String.toList_inj, hchars, hchars,
    append_cons_inj_of_notMem_right (underscore_not_mem_camelCase s)
      (underscore_not_mem_camelCase t),
    String.toList_inj, String.toList_inj]

/-! ### Variables -/

/-- Two sockets have one variable if and only if their names are variables in form both or neither,
    and have one camel case. -/
theorem variableName_eq_variableName_iff :
    variableName s = variableName t ↔ (IsGenerated s ↔ IsGenerated t) ∧
      camelCase s = camelCase t := by
  rw [← String.empty_append (s := variableName s), ← String.empty_append (s := variableName t),
    append_variableName_eq_iff, append_lead_eq_iff]
  simp

/-- No other name has the variable of a name that is a variable in form. -/
theorem IsGenerated.eq_of_variableName_eq (hs : IsGenerated s)
    (h : variableName s = variableName t) :
    s = t := by
  obtain ⟨hboth, hcamel⟩ := variableName_eq_variableName_iff.mp h
  exact hs.eq_of_camelCase_eq (hboth.mp hs) hcamel

/-- **Variables.** Camel case has no underscores, and no socket has the name of its variable. Two
    sockets have one variable if and only if their names have one camel case and neither name is a
    variable in form. Those that are keep a variable of their own. -/
theorem variables_collide_iff (s : String) :
    '_' ∉ (camelCase s).toList ∧ variableName s ≠ s ∧
    (∀ t, s ≠ t → (variableName s = variableName t ↔
      camelCase s = camelCase t ∧ ¬ IsGenerated s ∧ ¬ IsGenerated t)) ∧
    (IsGenerated s → ∀ t, variableName s = variableName t → s = t) := by
  refine ⟨underscore_not_mem_camelCase s, variableName_ne s, fun t hne => ?_,
    fun hs t => hs.eq_of_variableName_eq⟩
  rw [variableName_eq_variableName_iff]
  constructor
  · rintro ⟨hboth, hcamel⟩
    -- Two different names with one camel case are not both variables in form, so neither is.
    have hs : ¬ IsGenerated s := fun hs => hne (hs.eq_of_camelCase_eq (hboth.mp hs) hcamel)
    exact ⟨hcamel, hs, fun ht => hs (hboth.mpr ht)⟩
  · rintro ⟨hcamel, hs, ht⟩
    exact ⟨iff_of_false hs ht, hcamel⟩

/-- A letter whose upper case takes two letters, and two components of one letter. Beside them, a
    name that is the variable of neither but looks like it. -/
theorem variables_collide_iff_sharpS :
    "_ß" ≠ "_s_s" ∧ variableName "_ß" = variableName "_s_s" ∧
      IsGenerated "_Ss" ∧ ∀ t, variableName "_Ss" = variableName t → "_Ss" = t := by
  have hne : "_ß" ≠ "_s_s" := by decide
  have hcamel : camelCase "_ß" = camelCase "_s_s" := by decide +kernel
  have hplain : ¬ IsGenerated "_ß" ∧ ¬ IsGenerated "_s_s" := by decide +kernel
  have hgenerated : IsGenerated "_Ss" := by decide +kernel
  obtain ⟨-, -, hcollide, -⟩ := variables_collide_iff "_ß"
  obtain ⟨-, -, -, hown⟩ := variables_collide_iff "_Ss"
  exact ⟨hne, (hcollide "_s_s" hne).mpr ⟨hcamel, hplain⟩, hgenerated, hown hgenerated⟩

/-! ### Locals -/

/-- No name becomes an empty identifier. -/
theorem identifier_ne_empty (name : String) : identifier name ≠ "" := by
  obtain ⟨first, rest, hchars, -⟩ := exists_identifierChars_eq_cons name.toList
  intro h
  rw [← String.toList_inj, toList_identifier, hchars] at h
  simp at h

/-- Two locals have one name if their parts have, or if the underscore that one variable has more
    ends the identifier of the other node. -/
theorem localName_eq_localName_iff {n₁ n₂ s₁ s₂ : String} :
    localName n₁ s₁ = localName n₂ s₂ ↔
      (identifier n₁ = identifier n₂ ∧ variableName s₁ = variableName s₂) ∨
      (camelCase s₁ = camelCase s₂ ∧
        ((IsDoubled s₁ ∧ ¬ IsDoubled s₂ ∧ identifier n₂ = identifier n₁ ++ "_") ∨
         (¬ IsDoubled s₁ ∧ IsDoubled s₂ ∧ identifier n₁ = identifier n₂ ++ "_"))) := by
  rw [localName, localName, append_variableName_eq_iff, append_lead_eq_iff,
    variableName_eq_variableName_iff, isDoubled_iff, isDoubled_iff, or_and_right]
  exact or_congr (and_assoc.trans and_left_comm) and_comm

/-- A variable is the name of a local only for a node whose identifier is an underscore. -/
theorem variableName_eq_localName_iff {n t s : String} :
    variableName t = localName n s ↔
      identifier n = "_" ∧ IsDoubled t ∧ ¬ IsDoubled s ∧ camelCase t = camelCase s := by
  -- The identifier is not empty, so it takes the place of the underscore that the variable has
  -- more.
  have hsame : ¬ "" = identifier n := Ne.symm (identifier_ne_empty n)
  have hlonger : ¬ "" = identifier n ++ "_" := by
    intro h
    exact identifier_ne_empty n (String.append_eq_empty_iff.mp h.symm).1
  rw [localName, ← String.empty_append (s := variableName t), append_variableName_eq_iff,
    append_lead_eq_iff, isDoubled_iff, isDoubled_iff]
  simp only [hsame, hlonger, and_false, false_or, or_false, String.empty_append]
  constructor
  · rintro ⟨⟨ht, hs, hname⟩, hcamel⟩
    exact ⟨hname, ht, hs, hcamel⟩
  · rintro ⟨hname, ht, hs, hcamel⟩
    exact ⟨⟨ht, hs, hname⟩, hcamel⟩

/-- **Locals.** Two outputs have one local if and only if their nodes have one identifier and the
    sockets one variable, or if the camel cases are the same and the underscore that one of the two
    variables has more stands at the end of the other node's identifier. A variable of the graph's
    interface is a local if and only if it has two underscores and the node's identifier is the
    first of them. -/
theorem locals_collide_iff (n₁ n₂ s₁ s₂ : String) :
    (localName n₁ s₁ = localName n₂ s₂ ↔
      (identifier n₁ = identifier n₂ ∧ variableName s₁ = variableName s₂) ∨
      (camelCase s₁ = camelCase s₂ ∧
        ((IsDoubled s₁ ∧ ¬ IsDoubled s₂ ∧ identifier n₂ = identifier n₁ ++ "_") ∨
         (¬ IsDoubled s₁ ∧ IsDoubled s₂ ∧ identifier n₁ = identifier n₂ ++ "_")))) ∧
    ∀ t : String, (variableName t = localName n₁ s₁ ↔
      identifier n₁ = "_" ∧ IsDoubled t ∧ ¬ IsDoubled s₁ ∧ camelCase t = camelCase s₁) :=
  ⟨localName_eq_localName_iff, fun _ => variableName_eq_localName_iff⟩

/-- Nodes with different identifiers, of which one output is a variable in form. -/
example : localName "mix" "_Sum" = "mix__Sum" ∧ localName "mix_" "Sum_" = "mix__sum" ∧
    localName "mix" "_" = localName "mix_" "" := by decide +kernel

end Naming

end ShaderGraph
