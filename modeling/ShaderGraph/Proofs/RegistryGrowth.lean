import ShaderGraph.Proofs.Failures

namespace ShaderGraph

/-!
# Growing registries

Adapters can be added to a registry, but no adapter takes the place of another. A graph is therefore
compiled as before while the registry grows, unless it was refused for want of an adapter.

* `Registry.Request`, `Registry.serveAll` — requests to add adapters, any of which may be refused.
* `Registry.Extends` — what one registry answers, another one does too; `Registry.extends_serveAll`
  says so of a registry before and after requests.
* `Traced.AgreesUnless` — two computations do the same unless the first one fails in a certain way.
  The relation passes to sequences and traversals, and so from look-ups to compilations.
* `Error.LacksAdapter` — the failure of a compilation for want of an adapter.
-/

/-! ### Requests -/

namespace Registry

/-- A request to add adapters. -/
inductive Request where
  /-- Adds an adapter. -/
  | single (a : Adapter)
  /-- Adds adapters one after another, up to the first that is refused. -/
  | bulk (adapters : List Adapter)

/-- The registry after a request. A refusal changes nothing. -/
def serve (r : Registry) : Request → Registry
  | .single a =>
    match r.register a with
    | .ok extended => extended
    | .error _ => r
  | .bulk adapters => (r.registerAll adapters).registry

/-- The registry after requests one after another. -/
def serveAll (r : Registry) (requests : List Request) : Registry := requests.foldl serve r

/-- For each kind for which there is an adapter in the first registry, the second one has the
    same. -/
def Extends (r r' : Registry) : Prop := ∀ kind a, r.find? kind = some a → r'.find? kind = some a

variable {r r' r'' : Registry}

/-- A registry extends itself. -/
theorem Extends.refl (r : Registry) : r.Extends r := fun _ _ h => h

/-- What extends an extension extends the registry. -/
theorem Extends.trans (h : r.Extends r') (h' : r'.Extends r'') : r.Extends r'' :=
  fun kind a ha => h' kind a (h kind a ha)

/-- An adapter is not found under another kind than its own. -/
theorem find?_insertByKind {a : Adapter} {kind : String} (hne : a.kind ≠ kind)
    (adapters : List Adapter) :
    (insertByKind a adapters).find? (·.kind == kind) = adapters.find? (·.kind == kind) := by
  have hskip : ∀ rest : List Adapter,
      (a :: rest).find? (·.kind == kind) = rest.find? (·.kind == kind) :=
    fun rest => List.find?_cons_of_neg (by simpa using hne)
  induction adapters with
  | nil => exact hskip []
  | cons b rest ih =>
    rw [insertByKind]
    split
    · exact hskip (b :: rest)
    · rw [List.find?_cons, List.find?_cons, ih]

/-- An adapter is added only where there was none. -/
theorem extends_of_register {a : Adapter} (h : r.register a = .ok r') : r.Extends r' := by
  unfold register at h
  split at h
  · cases h
  · next hnew =>
    obtain rfl := Except.ok.inj h
    intro kind b hb
    have hne : a.kind ≠ kind := by
      rintro rfl
      exact hnew (by rw [contains, hb, Option.isSome_some])
    exact (find?_insertByKind hne r.adapters).trans hb

/-- Registrations one after another extend a registry, up to the first that is refused. -/
theorem extends_registerAll (r : Registry) (adapters : List Adapter) :
    r.Extends (r.registerAll adapters).registry := by
  induction adapters generalizing r with
  | nil => exact .refl r
  | cons a rest ih =>
    unfold registerAll
    split
    · exact .refl r
    · next extended h => exact (extends_of_register h).trans (ih extended)

/-- Each request extends a registry. -/
theorem extends_serve (r : Registry) (request : Request) : r.Extends (r.serve request) := by
  cases request with
  | bulk adapters => exact r.extends_registerAll adapters
  | single a =>
    rw [serve]
    cases h : r.register a with
    | ok extended => exact extends_of_register h
    | error e => exact .refl r

/-- Whatever requests are made, and whichever are refused, adapters stay. -/
theorem extends_serveAll (r : Registry) (requests : List Request) :
    r.Extends (r.serveAll requests) := by
  induction requests generalizing r with
  | nil => exact .refl r
  | cons request requests ih => exact (r.extends_serve request).trans (ih (r.serve request))

end Registry

/-! ### Computations -/

namespace Traced

variable {α β : Type} {P Q : Error → Prop}

/-- The two computations do the same, unless the first one fails with an error that satisfies
    `P`. -/
def AgreesUnless (P : Error → Prop) (x y : Traced α) : Prop :=
  y = x ∨ ∃ e, x.result = .error e ∧ P e

namespace AgreesUnless

variable {x y : Traced α}

/-- A computation agrees with itself. -/
theorem refl (x : Traced α) : AgreesUnless P x x := .inl rfl

/-- Sequences agree if their steps do. -/
theorem bind {f f' : α → Traced β} (hx : AgreesUnless P x y)
    (hf : ∀ a, AgreesUnless P (f a) (f' a)) :
    AgreesUnless P (x >>= f) (y >>= f') := by
  rcases hx with rfl | ⟨e, he, hP⟩
  · show andThen y f' = andThen y f ∨ ∃ e, (y >>= f).result = .error e ∧ P e
    rw [bind_result]
    cases hresult : y.result with
    | error e => exact .inl (by simp [andThen, hresult])
    | ok a =>
      rcases hf a with heq | hfails
      · exact .inl (by simp [andThen, hresult, heq])
      · exact .inr hfails
  · exact .inr ⟨e, by rw [bind_result, he]; rfl, hP⟩

/-- Traversals agree if they do for each element. -/
theorem mapM {f f' : α → Traced β} (hf : ∀ a, AgreesUnless P (f a) (f' a)) (l : List α) :
    AgreesUnless P (l.mapM f) (l.mapM f') := by
  induction l with
  | nil => exact .refl _
  | cons a l ih =>
    rw [List.mapM_cons, List.mapM_cons]
    exact (hf a).bind fun _ => ih.bind fun _ => .refl _

/-- Whether computations agree does not depend on the node to which failures are attributed. -/
theorem inNode {n : Node} (hQ : ∀ e, P e → Q (e.inNode n.name n.kind)) (hx : AgreesUnless P x y) :
    AgreesUnless Q (x.inNode n) (y.inNode n) := by
  rcases hx with rfl | ⟨e, he, hP⟩
  · exact .refl _
  · exact .inr ⟨_, inNode_result_eq_error.mpr ⟨e, he, rfl⟩, hQ e hP⟩

end AgreesUnless

end Traced

/-! ### Compilations -/

/-- The failure arose in a node because no adapter answers for a kind. -/
def Error.LacksAdapter (e : Error) : Prop :=
  e.identity?.isSome ∧ ∃ kind, e.rootCause = .unknownKind kind

namespace Registry

variable {r r' : Registry}

/-- A look-up has the same result in an extension unless there was no adapter. -/
theorem Extends.lookup (h : r.Extends r') (kind : String) :
    Traced.AgreesUnless (fun e => ∃ kind, e = .unknownKind kind) (.ofExcept (r.lookup kind))
      (.ofExcept (r'.lookup kind)) := by
  unfold Registry.lookup
  cases hfind : r.find? kind with
  | none => exact .inr ⟨_, rfl, kind, rfl⟩
  | some a =>
    rw [h kind a hfind]
    exact .refl _

/-- The registry is asked for one adapter for each node. -/
theorem Extends.compileNode (h : r.Extends r') (g : Graph) (n : Node) :
    Traced.AgreesUnless Error.LacksAdapter (r.compileNode g n) (r'.compileNode g n) := by
  have hcode : Traced.AgreesUnless (fun e => ∃ kind, e = .unknownKind kind) (r.nodeCode g n)
      (r'.nodeCode g n) :=
    .bind (.refl _) fun _ => (h.lookup n.kind).bind fun _ => .refl _
  refine hcode.inNode ?_
  rintro _ ⟨kind, rfl⟩
  exact ⟨rfl, kind, rfl⟩

/-- A graph is compiled alike by an extension unless an adapter was lacking. -/
theorem Extends.compile (h : r.Extends r') (g : Graph) :
    Traced.AgreesUnless Error.LacksAdapter (r.compile g) (r'.compile g) :=
  .bind (.refl _) fun _ => .bind (.refl _) fun order => .bind (.refl _) fun _ =>
    (Traced.AgreesUnless.mapM (h.compileNode g) (g.nodesAt order)).bind fun _ => .refl _

/-- **Growing registries.** Unless a graph is refused for want of an adapter, it is compiled with
    the same log to the same program or the same failure after any requests to add adapters. -/
theorem compile_serveAll (r : Registry) (requests : List Request) (g : Graph)
    (h : ∀ e, (r.compile g).result = .error e → ¬ e.LacksAdapter) :
    (r.serveAll requests).compile g = r.compile g := by
  rcases (r.extends_serveAll requests).compile g with heq | ⟨e, he, hlacks⟩
  · exact heq
  · exact absurd hlacks (h e he)

/-- Requests of which all are refused but for the adapter of a new kind. -/
def noiseRequests : List Request :=
  [.bulk Adapter.arithmetic,
    .single (Adapter.folding .add "noise" "Noise" "sum" "Adds all connected inputs together"),
    .single (Adapter.folding .subtract "add" "Add" "sum" "Subtracts instead")]

/-- The new kind is that of a node of `faultyGraph`, but another node fails before it. -/
theorem compile_serveAll_faultyGraph :
    (builtin.serveAll noiseRequests).kinds = ["add", "divide", "multiply", "noise", "subtract"] ∧
      (∀ e, (builtin.compile Graph.faultyGraph).result = .error e → ¬ e.LacksAdapter) ∧
      ((builtin.serveAll noiseRequests).compile Graph.faultyGraph).result =
        .error (.node "early" "add" (.missingSocket "input1")) := by
  have hfails : (builtin.compile Graph.faultyGraph).result =
      .error (.node "early" "add" (.missingSocket "input1")) := by decide +kernel
  have hother : ∀ e, (builtin.compile Graph.faultyGraph).result = .error e → ¬ e.LacksAdapter := by
    rintro e he ⟨-, kind, hroot⟩
    rw [hfails] at he
    cases he
    cases hroot
  refine ⟨by decide +kernel, hother, ?_⟩
  rw [compile_serveAll builtin noiseRequests Graph.faultyGraph hother]
  exact hfails

end Registry

end ShaderGraph
