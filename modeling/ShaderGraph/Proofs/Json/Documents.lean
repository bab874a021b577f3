import ShaderGraph.Json.Printer
import ShaderGraph.Json.Reader
import ShaderGraph.Proofs.Json.Words

namespace ShaderGraph.Json

/-!
# Documents in JSON texts

A document is read from every text in which its words are written.

* `Json.induction` — induction over documents, with the parts of containers as members of lists.
* `Reader.run_tokens` — the words of a document are read as this document, whatever containers wait.
* `numbersApart_tokens` — in a document no number comes right after another one.
* `IsText`, `parse?_of_isText` — the texts of a document, and what is read from them.
-/

/-! ### Induction -/

/-- What holds of containers if it holds of their parts, and of all other documents, holds of
    all. -/
theorem induction {P : Json → Prop} (null : P .null) (bool : ∀ b, P (.bool b))
    (number : ∀ literal, P (.number literal)) (string : ∀ text?, P (.string text?))
    (array : ∀ elements, (∀ e ∈ elements, P e) → P (.array elements))
    (object : ∀ members : List (Option String × Json), (∀ m ∈ members, P m.2) → P (.object members))
    (document : Json) : P document := by
  match document with
  | .null => exact null
  | .bool b => exact bool b
  | .number literal => exact number literal
  | .string text? => exact string text?
  | .array elements =>
    exact array elements fun e he => induction null bool number string array object e
  | .object members =>
    exact object members fun m hm => induction null bool number string array object m.2
termination_by sizeOf document
decreasing_by
  · have := List.sizeOf_lt_of_mem he
    simp only [Json.array.sizeOf_spec]
    omega
  · have := List.sizeOf_lt_of_mem hm
    obtain ⟨key, value⟩ := m
    simp only [Json.object.sizeOf_spec, Prod.mk.sizeOf_spec] at this ⊢
    omega

/-! ### Words of containers -/

/-- Further elements come each after a comma. -/
theorem furtherElementTokens_eq (elements : List Json) :
    furtherElementTokens elements = elements.flatMap fun e => .comma :: e.tokens := by
  induction elements with
  | nil => rfl
  | cons e elements ih => rw [furtherElementTokens, ih, List.flatMap_cons, List.cons_append]

/-- Further members come each after a comma. -/
theorem furtherMemberTokens_eq (members : List (Option String × Json)) :
    furtherMemberTokens members =
      members.flatMap fun m => .comma :: .string m.1 :: .colon :: m.2.tokens := by
  induction members with
  | nil => rfl
  | cons m members ih =>
    rw [furtherMemberTokens, ih, List.flatMap_cons, List.cons_append, List.cons_append,
      List.cons_append]

/-! ### Reading words -/

namespace Reader

/-- A run takes one step for the first word. -/
theorem run_cons {r next : Reader} {token : Token} (h : r.step token = some next)
    (tokens : List Token) : r.run (token :: tokens) = next.run tokens := by
  rw [run, h]

/-- Words in two parts are read one after the other. -/
theorem run_append (r : Reader) (tokens others : List Token) :
    r.run (tokens ++ others) = (r.run tokens).bind (·.run others) := by
  induction tokens generalizing r with
  | nil => rfl
  | cons token tokens ih =>
    rw [List.cons_append, run, run]
    cases r.step token with
    | none => rfl
    | some next => exact ih next

/-- A single word is read in one step. -/
theorem run_singleton (r : Reader) (token : Token) : r.run [token] = r.step token := by
  rw [run]
  cases r.step token <;> rfl

/-- The words of a document are read as the document. -/
def ReadsBack (document : Json) : Prop :=
  ∀ stack, ({ stack } : Reader).run document.tokens = close document stack

/-- Further elements of an array and its end. -/
theorem run_furtherElements {elements : List Json} (h : ∀ e ∈ elements, ReadsBack e)
    (acc : List Json) (stack : List Frame) :
    ({ stack := .array acc :: stack, expected := .moreElements } : Reader).run
        (furtherElementTokens elements ++ [.closeArray]) =
      close (.array (acc.reverse ++ elements)) stack := by
  induction elements generalizing acc with
  | nil => rw [furtherElementTokens, List.nil_append, run_singleton, List.append_nil]; rfl
  | cons e elements ih =>
    obtain ⟨he, helements⟩ := List.forall_mem_cons.mp h
    have hcomma :
        ({ stack := .array acc :: stack, expected := .moreElements } : Reader).step .comma =
          some { stack := .array acc :: stack } := rfl
    have hvalue := he (.array acc :: stack)
    rw [furtherElementTokens, List.cons_append, run_cons hcomma, List.append_assoc, run_append,
      hvalue, close, Option.bind_some, ih helements]
    simp

/-- Further members of an object and its end. -/
theorem run_furtherMembers {members : List (Option String × Json)}
    (h : ∀ m ∈ members, ReadsBack m.2)
    (acc : List (Option String × Json)) (stack : List Frame) :
    ({ stack := .object acc :: stack, expected := .moreMembers } : Reader).run
        (furtherMemberTokens members ++ [.closeObject]) =
      close (.object (acc.reverse ++ members)) stack := by
  induction members generalizing acc with
  | nil => rw [furtherMemberTokens, List.nil_append, run_singleton, List.append_nil]; rfl
  | cons m members ih =>
    obtain ⟨hm, hmembers⟩ := List.forall_mem_cons.mp h
    obtain ⟨key, value⟩ := m
    have hcomma :
        ({ stack := .object acc :: stack, expected := .moreMembers } : Reader).step .comma =
          some { stack := .object acc :: stack, expected := .key } := rfl
    have hkey : ({ stack := .object acc :: stack, expected := .key } : Reader).step (.string key) =
        some { stack := .member acc key :: stack, expected := .colon } := rfl
    have hcolon : ({ stack := .member acc key :: stack, expected := .colon } : Reader).step .colon =
        some { stack := .member acc key :: stack } := rfl
    have hvalue := hm (.member acc key :: stack)
    rw [furtherMemberTokens, List.cons_append, run_cons hcomma, List.cons_append, run_cons hkey,
      List.cons_append, run_cons hcolon, List.append_assoc, run_append, hvalue, close,
      Option.bind_some, ih hmembers]
    simp

/-- A document begins with a word that ends no list. -/
theorem tokens_eq_cons (document : Json) :
    ∃ token tokens, document.tokens = token :: tokens ∧ token ≠ .closeArray := by
  cases document <;> exact ⟨_, _, by rw [tokens], by simp⟩

/-- No document begins with the end of an array. -/
theorem run_firstElement (document : Json) (stack : List Frame) (rest : List Token) :
    ({ stack, expected := .firstElement } : Reader).run (document.tokens ++ rest) =
      ({ stack } : Reader).run (document.tokens ++ rest) := by
  obtain ⟨token, tokens, htokens, hne⟩ := tokens_eq_cons document
  have hstep : ({ stack, expected := .firstElement } : Reader).step token =
      ({ stack } : Reader).step token := by simp [step, hne]
  rw [htokens, List.cons_append, run, run, hstep]

/-- A list is read back if its elements are. -/
theorem readsBack_array {elements : List Json} (h : ∀ e ∈ elements, ReadsBack e) :
    ReadsBack (.array elements) := by
  intro stack
  have hopen : ({ stack } : Reader).step .openArray =
      some { stack := .array [] :: stack, expected := .firstElement } := rfl
  rw [tokens, run_cons hopen]
  cases elements with
  | nil => rw [elementTokens, List.nil_append, run_singleton]; rfl
  | cons e elements =>
    obtain ⟨he, helements⟩ := List.forall_mem_cons.mp h
    have hvalue := he (.array [] :: stack)
    -- The end of the array may come here as well, but a document does not begin with it.
    rw [elementTokens, List.append_assoc, run_firstElement, run_append, hvalue, close,
      Option.bind_some, run_furtherElements helements]
    rfl

/-- An object is read back if its values are. -/
theorem readsBack_object {members : List (Option String × Json)}
    (h : ∀ m ∈ members, ReadsBack m.2) :
    ReadsBack (.object members) := by
  intro stack
  have hopen : ({ stack } : Reader).step .openObject =
      some { stack := .object [] :: stack, expected := .firstKey } := rfl
  rw [tokens, run_cons hopen]
  cases members with
  | nil => rw [memberTokens, List.nil_append, run_singleton]; rfl
  | cons m members =>
    obtain ⟨hm, hmembers⟩ := List.forall_mem_cons.mp h
    obtain ⟨key, value⟩ := m
    have hkey :
        ({ stack := .object [] :: stack, expected := .firstKey } : Reader).step (.string key) =
        some { stack := .member [] key :: stack, expected := .colon } := rfl
    have hcolon : ({ stack := .member [] key :: stack, expected := .colon } : Reader).step .colon =
        some { stack := .member [] key :: stack } := rfl
    have hvalue := hm (.member [] key :: stack)
    rw [memberTokens, List.cons_append, run_cons hkey, List.cons_append, run_cons hcolon,
      List.append_assoc, run_append, hvalue, close, Option.bind_some, run_furtherMembers hmembers]
    rfl

/-- Whatever containers wait for it, a document is read from its words. -/
theorem run_tokens (document : Json) : ReadsBack document := by
  induction document using Json.induction with
  | null => exact fun stack => run_singleton { stack } .null
  | bool b => exact fun stack => run_singleton { stack } (.bool b)
  | number literal => exact fun stack => run_singleton { stack } (.number literal)
  | string text? => exact fun stack => run_singleton { stack } (.string text?)
  | array elements ih => exact readsBack_array ih
  | object members ih => exact readsBack_object ih

end Reader

/-- The words of a document make up this document. -/
theorem ofTokens?_tokens (document : Json) : ofTokens? document.tokens = some document := by
  rw [ofTokens?, Reader.run_tokens document []]
  rfl

/-! ### Numbers side by side -/

/-- In words of two parts, numbers are apart if the second part begins with no number. -/
theorem NumbersApart.append {tokens others : List Token} (h : NumbersApart tokens)
    (hothers : NumbersApart others) (hseam : ∀ t ∈ others.head?, t.isNumber = false) :
    NumbersApart (tokens ++ others) :=
  List.isChain_append.mpr ⟨h, hothers, fun _ _ u hu => .inl (hseam u hu)⟩

/-- A word that is no number may come before other words. -/
theorem NumbersApart.cons {token : Token} {tokens : List Token} (htoken : token.isNumber = false)
    (h : NumbersApart tokens) : NumbersApart (token :: tokens) :=
  List.isChain_cons.mpr ⟨fun _ _ => .inr htoken, h⟩

/-- A single word has no number beside it. -/
theorem numbersApart_singleton (token : Token) : NumbersApart [token] :=
  List.isChain_singleton token

/-- What follows an element or a member starts with a comma. -/
theorem numbersApart_flatMap {α : Type} {f : α → List Token} {l : List α}
    (h : ∀ a ∈ l, NumbersApart (f a)) :
    NumbersApart (l.flatMap fun a => .comma :: f a) ∧
      ∀ t ∈ (l.flatMap fun a => .comma :: f a).head?, t.isNumber = false := by
  induction l with
  | nil => exact ⟨List.isChain_nil, by simp⟩
  | cons a l ih =>
    obtain ⟨ha, hl⟩ := List.forall_mem_cons.mp h
    obtain ⟨hfurther, hseam⟩ := ih hl
    rw [List.flatMap_cons]
    refine ⟨.append (.cons rfl ha) hfurther hseam, ?_⟩
    rintro t ⟨⟩
    rfl

/-- Neither the first nor the last word of a container is a number. -/
theorem NumbersApart.enclose {first last : Token} {tokens : List Token}
    (hfirst : first.isNumber = false)
    (hlast : last.isNumber = false) (h : NumbersApart tokens) :
    NumbersApart (first :: (tokens ++ [last])) := by
  refine .cons hfirst (.append h (numbersApart_singleton last) ?_)
  rintro t ⟨⟩
  exact hlast

/-- In a document no number comes right after another one. -/
theorem numbersApart_tokens (document : Json) : NumbersApart document.tokens := by
  induction document using Json.induction with
  | null | bool | number | string => exact numbersApart_singleton _
  | array elements ih =>
    rw [tokens]
    refine .enclose rfl rfl ?_
    cases elements with
    | nil => exact List.isChain_nil
    | cons e elements =>
      obtain ⟨he, helements⟩ := List.forall_mem_cons.mp ih
      obtain ⟨hfurther, hseam⟩ := numbersApart_flatMap helements
      rw [elementTokens, furtherElementTokens_eq]
      exact he.append hfurther hseam
  | object members ih =>
    have hmember : ∀ m ∈ members, NumbersApart (.string m.1 :: .colon :: m.2.tokens) :=
      fun m hm => .cons rfl (.cons rfl (ih m hm))
    rw [tokens]
    refine .enclose rfl rfl ?_
    cases members with
    | nil => exact List.isChain_nil
    | cons m members =>
      obtain ⟨hm, hmembers⟩ := List.forall_mem_cons.mp hmember
      obtain ⟨hfurther, hseam⟩ := numbersApart_flatMap hmembers
      rw [memberTokens, furtherMemberTokens_eq]
      exact hm.append hfurther hseam

/-! ### Texts -/

/-- The text is one of those in which the document can be written. -/
def IsText (document : Json) (text : String) : Prop := IsWritten document.tokens text.toList

/-- From each of its texts a document is read back. -/
theorem parse?_of_isText {document : Json} {text : String} (h : document.IsText text) :
    parse? text = some document := by
  rw [parse?, tokenize_of_isWritten h (numbersApart_tokens document), Option.bind_some,
    ofTokens?_tokens]

end ShaderGraph.Json
