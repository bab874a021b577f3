import Mathlib.Data.List.Find
import Mathlib.Data.String.Basic
import ShaderGraph.Proofs.RegistryGrowth

namespace ShaderGraph

/-!
# Histories of registries

A registry is built up by requests, some of which may be refused. What it answers in the end is told
by the adapters that were offered to it on the way: for each kind, the first one counts.

* `Registry.offered` — the adapters that requests have offered, one after another. A request for
  several adapters offers none after the first that is refused.
* `Registry.Ordered` — the kinds of a registry ascend, so that each is there once. A registry with
  this property is known by what it finds: `Registry.Ordered.eq_of_find?_eq`.
* `Registry.Records` — the invariant: a registry is ordered and finds what its history offers first.
  `Registry.Records.register` is the step and `Registry.records_built` the run.
* `Registry.FirstWins`, `Registry.Listed` — what look-ups and listings make of that.
-/

namespace Registry

variable {r r' : Registry} {a : Adapter} {kind : String} {offers : List Adapter}

/-! ### Order -/

/-- The kinds of the adapters ascend. -/
def Ordered (r : Registry) : Prop := r.adapters.Pairwise (·.kind < ·.kind)

/-- An adapter that is inserted is there once more, and so are all others. -/
theorem insertByKind_perm (a : Adapter) (adapters : List Adapter) :
    (insertByKind a adapters).Perm (a :: adapters) := by
  induction adapters with
  | nil => exact .refl _
  | cons b rest ih =>
    rw [insertByKind]
    split
    · exact .refl _
    · exact (ih.cons b).trans (.swap a b rest)

/-- An adapter of a new kind is inserted in its place. -/
theorem pairwise_insertByKind {adapters : List Adapter}
    (h : adapters.Pairwise (·.kind < ·.kind)) (hnew : ∀ b ∈ adapters, b.kind ≠ a.kind) :
    (insertByKind a adapters).Pairwise (·.kind < ·.kind) := by
  induction adapters with
  | nil => exact List.pairwise_singleton _ _
  | cons b rest ih =>
    obtain ⟨hb, hrest⟩ := List.pairwise_cons.mp h
    rw [insertByKind]
    split
    · next hlt =>
      refine List.pairwise_cons.mpr ⟨fun c hc => ?_, h⟩
      rcases List.mem_cons.mp hc with rfl | hc
      · exact hlt
      · exact hlt.trans (hb c hc)
    · next hnot =>
      -- The kinds differ, so the new one comes after this one.
      have hlt : b.kind < a.kind := lt_of_le_of_ne (not_lt.mp hnot) (hnew b List.mem_cons_self)
      refine List.pairwise_cons.mpr
        ⟨fun c hc => ?_, ih hrest fun c hc => hnew c (List.mem_cons_of_mem _ hc)⟩
      rcases List.mem_cons.mp ((insertByKind_perm a rest).mem_iff.mp hc) with rfl | hc
      · exact hlt
      · exact hb c hc

/-- In a registry that is in order, no kind occurs twice. -/
theorem Ordered.nodup_kinds (h : r.Ordered) : r.kinds.Nodup :=
  (List.pairwise_map.mpr h).imp ne_of_lt

/-- In a registry that is in order, each adapter is found by its kind. -/
theorem Ordered.find?_eq_some (h : r.Ordered) :
    r.find? kind = some a ↔ a ∈ r.adapters ∧ a.kind = kind :=
  find?_key_eq_some h.nodup_kinds

/-- What an ordered registry finds leaves nothing about it open. -/
theorem Ordered.eq_of_find?_eq (h : r.Ordered) (h' : r'.Ordered)
    (hfind : ∀ kind, r.find? kind = r'.find? kind) : r = r' := by
  have hmem : ∀ a, a ∈ r.adapters ↔ a ∈ r'.adapters := by
    intro a
    have hsame : r.find? a.kind = some a ↔ r'.find? a.kind = some a := by rw [hfind]
    simpa [h.find?_eq_some, h'.find?_eq_some] using hsame
  have hperm : r.adapters.Perm r'.adapters :=
    (List.perm_ext_iff_of_nodup h.nodup_kinds.of_map h'.nodup_kinds.of_map).mpr hmem
  -- Two ascending lists of the same adapters are equal.
  have hadapters : r.adapters = r'.adapters :=
    hperm.eq_of_pairwise (fun a b _ _ hab hba => absurd hab (lt_asymm hba)) h h'
  cases r
  cases r'
  exact congrArg Registry.mk hadapters

/-! ### Registration -/

/-- There is an adapter for a kind if one is found. -/
theorem contains_iff : r.contains kind = true ↔ ∃ a, r.find? kind = some a := by
  rw [contains, Option.isSome_iff_exists]

/-- An adapter for a kind that has one is refused. -/
theorem register_of_contains (h : r.contains a.kind = true) :
    r.register a = .error (.duplicateAdapter a.kind) := by
  rw [register, if_pos h]

/-- An adapter for a new kind is inserted. -/
theorem register_of_not_contains (h : ¬ r.contains a.kind = true) :
    r.register a = .ok { adapters := insertByKind a r.adapters } := by
  rw [register, if_neg h]

/-- A registration keeps a registry in order. -/
theorem Ordered.insert (h : r.Ordered) (hnew : ¬ r.contains a.kind = true) :
    Ordered { adapters := insertByKind a r.adapters } := by
  refine pairwise_insertByKind h fun b hb hkind => hnew ?_
  exact contains_iff.mpr ⟨b, h.find?_eq_some.mpr ⟨hb, hkind⟩⟩

/-- A new adapter is found under its kind, and what was found before is found as before. -/
theorem Ordered.find?_insert (h : r.Ordered) (hnew : ¬ r.contains a.kind = true) (kind : String) :
    find? { adapters := insertByKind a r.adapters } kind =
      (r.find? kind).or ([a].find? (·.kind == kind)) := by
  by_cases hkind : a.kind = kind
  · subst hkind
    have hnone : r.find? a.kind = none := by simpa [contains] using hnew
    have hmem : a ∈ insertByKind a r.adapters :=
      (insertByKind_perm a r.adapters).mem_iff.mpr List.mem_cons_self
    rw [hnone, (h.insert hnew).find?_eq_some.mpr ⟨hmem, rfl⟩]
    simp
  · have hother : [a].find? (·.kind == kind) = none := by simpa using hkind
    rw [hother, Option.or_none]
    exact find?_insertByKind hkind r.adapters

/-! ### Offers -/

/-- The adapters of a request. -/
def Request.adapters : Request → List Adapter
  | .single a => [a]
  | .bulk adapters => adapters

/-- The adapters that are offered one after another when others have been offered before: all up to
    the first whose kind is among those of earlier offers. That one is refused, and the rest is not
    offered. -/
def offersAfter (earlier : List Adapter) : List Adapter → List Adapter
  | [] => []
  | a :: rest =>
    if earlier.any (·.kind == a.kind) then [a]
    else a :: offersAfter (earlier ++ [a]) rest

/-- The adapters that requests have offered to an empty registry. -/
def offered (requests : List Request) : List Adapter :=
  requests.foldl (fun earlier request => earlier ++ offersAfter earlier request.adapters) []

/-- The registry that requests build up from an empty one. -/
def built (requests : List Request) : Registry := ({} : Registry).serveAll requests

/-- A single registration is the registration of a list of one. -/
theorem serve_eq (r : Registry) (request : Request) :
    r.serve request = (r.registerAll request.adapters).registry := by
  cases request with
  | bulk adapters => rfl
  | single a =>
    simp only [serve, Request.adapters, registerAll]
    cases r.register a <;> rfl

/-- Of a single adapter, one is offered. -/
theorem offersAfter_singleton (earlier : List Adapter) (a : Adapter) :
    offersAfter earlier [a] = [a] := by
  simp [offersAfter]

/-- The last request offers what it comes to. -/
theorem offered_concat (requests : List Request) (request : Request) :
    offered (requests ++ [request]) =
      offered requests ++ offersAfter (offered requests) request.adapters := by
  simp [offered]

/-- Requests for single adapters offer all of them. -/
theorem offered_append_singles (requests : List Request) (adapters : List Adapter) :
    offered (requests ++ adapters.map .single) = offered requests ++ adapters := by
  induction adapters using List.reverseRecOn with
  | nil => simp
  | append_singleton adapters a ih =>
    rw [List.map_append, List.map_singleton, ← List.append_assoc, offered_concat, ih,
      Request.adapters, offersAfter_singleton, List.append_assoc]

/-! ### The invariant -/

/-- The registry is ordered and finds the first adapter of each kind that was offered. -/
structure Records (r : Registry) (offers : List Adapter) : Prop where
  ordered : r.Ordered
  find?_eq : ∀ kind, r.find? kind = offers.find? (·.kind == kind)

/-- An empty registry records that nothing was offered. -/
theorem records_empty : Records {} [] := ⟨.nil, fun _ => rfl⟩

namespace Records

/-- There is an adapter for a kind if one was offered. -/
theorem contains_eq (h : r.Records offers) (kind : String) :
    r.contains kind = offers.any (·.kind == kind) := by
  rw [contains, h.find?_eq, List.isSome_find?]

/-- One more offer: it is refused if there was one of its kind before. -/
theorem register (h : r.Records offers) (a : Adapter) :
    (r.serve (.single a)).Records (offers ++ [a]) := by
  by_cases hcontains : r.contains a.kind = true
  · rw [serve, register_of_contains hcontains]
    refine ⟨h.ordered, fun kind => ?_⟩
    rw [List.find?_append, ← h.find?_eq]
    by_cases hkind : a.kind = kind
    · subst hkind
      obtain ⟨b, hb⟩ := contains_iff.mp hcontains
      rw [hb, Option.some_or]
    · have hother : [a].find? (·.kind == kind) = none := by simpa using hkind
      rw [hother, Option.or_none]
  · rw [serve, register_of_not_contains hcontains]
    refine ⟨h.ordered.insert hcontains, fun kind => ?_⟩
    rw [List.find?_append, ← h.find?_eq]
    exact h.ordered.find?_insert hcontains kind

/-- A registration of several adapters records those that it comes to. -/
theorem registerAll (h : r.Records offers) (adapters : List Adapter) :
    (r.registerAll adapters).registry.Records (offers ++ offersAfter offers adapters) := by
  induction adapters generalizing r offers with
  | nil => simpa [offersAfter, Registry.registerAll] using h
  | cons a rest ih =>
    have hstep := h.register a
    rw [offersAfter, ← h.contains_eq]
    by_cases hcontains : r.contains a.kind = true
    · rw [if_pos hcontains]
      rw [serve, register_of_contains hcontains] at hstep
      rwa [Registry.registerAll, register_of_contains hcontains]
    · rw [if_neg hcontains]
      rw [serve, register_of_not_contains hcontains] at hstep
      rw [Registry.registerAll, register_of_not_contains hcontains]
      simpa using ih hstep

end Records

/-- Whatever requests are made, the registry records what they have offered. -/
theorem records_built (requests : List Request) : (built requests).Records (offered requests) := by
  induction requests using List.reverseRecOn with
  | nil => exact records_empty
  | append_singleton requests request ih =>
    rw [built, serveAll, List.foldl_concat, offered_concat, serve_eq]
    exact ih.registerAll request.adapters

/-! ### Look-ups and listings -/

/-- For each kind, the first adapter that was offered answers. -/
structure FirstWins (r : Registry) (offers : List Adapter) : Prop where
  lookup_eq_ok : ∀ kind a, r.lookup kind = .ok a ↔ offers.find? (·.kind == kind) = some a
  lookup_eq_error : ∀ kind e,
    r.lookup kind = .error e ↔ (∀ a ∈ offers, a.kind ≠ kind) ∧ e = .unknownKind kind
  contains_iff : ∀ kind, r.contains kind = true ↔ ∃ a, r.lookup kind = .ok a
  kind_eq : ∀ kind a, r.lookup kind = .ok a → a.kind = kind

/-- The kinds are listed in ascending order, each with the description of its adapter. -/
structure Listed (r : Registry) : Prop where
  ascending : r.kinds.Pairwise (· < ·)
  complete : ∀ kind, kind ∈ r.kinds ↔ r.contains kind = true
  described : List.Forall₂ (fun kind m => ∃ a, r.lookup kind = .ok a ∧ m = a.metadata)
    r.kinds r.metadata
  counted : r.size = r.kinds.length

/-- A look-up succeeds with the adapter that is found. -/
theorem lookup_eq_ok : r.lookup kind = .ok a ↔ r.find? kind = some a := by
  rw [lookup]
  cases r.find? kind <;> simp

/-- A look-up fails with the kind if nothing is found. -/
theorem lookup_eq_error {e : Error} :
    r.lookup kind = .error e ↔ r.find? kind = none ∧ e = .unknownKind kind := by
  rw [lookup]
  cases r.find? kind <;> simp [eq_comm]

/-- In a registry that records what was offered, the first adapters answer. -/
theorem Records.firstWins (h : r.Records offers) : r.FirstWins offers where
  lookup_eq_ok kind a := by rw [Registry.lookup_eq_ok, h.find?_eq]
  lookup_eq_error kind e := by
    rw [Registry.lookup_eq_error, h.find?_eq]
    simp
  contains_iff kind := by simp only [Registry.contains_iff, Registry.lookup_eq_ok]
  kind_eq kind a hlookup := (h.ordered.find?_eq_some.mp (Registry.lookup_eq_ok.mp hlookup)).2

/-- A registry that is in order is listed in order. -/
theorem Ordered.listed (h : r.Ordered) : r.Listed where
  ascending := List.pairwise_map.mpr h
  complete kind := by
    simp only [Registry.contains_iff, h.find?_eq_some, kinds, List.mem_map]
  described := by
    rw [kinds, metadata, List.forall₂_map_left_iff, List.forall₂_map_right_iff, List.forall₂_same]
    intro a ha
    exact ⟨a, Registry.lookup_eq_ok.mpr (h.find?_eq_some.mpr ⟨ha, rfl⟩), rfl⟩
  counted := by rw [size, kinds, List.length_map]

/-! ### Several adapters at once -/

/-- The adapters in front of the first one for whose kind there is an adapter already. -/
def newcomers (r : Registry) (adapters : List Adapter) : List Adapter :=
  adapters.takeWhile fun a => !r.contains a.kind

/-- A registration of adapters of distinct kinds adds the newcomers one by one and reports the
    adapter after them. -/
theorem registerAll_eq (r : Registry) (adapters : List Adapter)
    (hdistinct : (adapters.map (·.kind)).Nodup) :
    r.registerAll adapters =
      { registry := r.serveAll ((r.newcomers adapters).map .single)
        added := (r.newcomers adapters).map (·.kind)
        refusal? := (adapters.find? (r.contains ·.kind)).map fun a =>
          .duplicateAdapter a.kind } := by
  induction adapters generalizing r with
  | nil => rfl
  | cons a rest ih =>
    obtain ⟨ha, hdistinct⟩ := List.nodup_cons.mp hdistinct
    by_cases hcontains : r.contains a.kind = true
    · rw [registerAll, register_of_contains hcontains]
      simp [newcomers, hcontains, serveAll]
    · -- The other kinds are there after this adapter if and only if they were there before it.
      have hsame : ∀ b ∈ rest, contains { adapters := insertByKind a r.adapters } b.kind =
        r.contains b.kind := by
        intro b hb
        have hne : a.kind ≠ b.kind := fun h => ha (List.mem_map.mpr ⟨b, hb, h.symm⟩)
        rw [contains, contains, find?, find?_insertByKind hne, find?]
      have hnewcomers :
          newcomers { adapters := insertByKind a r.adapters } rest = r.newcomers rest :=
        takeWhile_congr fun b hb => by rw [hsame b hb]
      rw [registerAll, register_of_not_contains hcontains]
      simp only [ih _ hdistinct, hnewcomers, List.find?_congr hsame]
      simp [newcomers, hcontains, serveAll, serve, register_of_not_contains]

/-- An adapter is refused for one reason only. -/
theorem register_eq_error {e : Error} :
    r.register a = .error e ↔ r.contains a.kind = true ∧ e = .duplicateAdapter a.kind := by
  by_cases hcontains : r.contains a.kind = true
  · simp [register_of_contains hcontains, hcontains, eq_comm]
  · simp [register_of_not_contains hcontains, hcontains]

/-! ### Runs -/

/-- Further requests are served by the registry that was built before them. -/
theorem built_append (requests further : List Request) :
    built (requests ++ further) = (built requests).serveAll further := by
  rw [built, serveAll, List.foldl_append]
  rfl

/-- Newcomers are found after what was found before. -/
theorem find?_built_append_singles (requests : List Request) (adapters : List Adapter)
    (kind : String) :
    (built (requests ++ adapters.map .single)).find? kind =
      ((built requests).find? kind).or (adapters.find? (·.kind == kind)) := by
  rw [(records_built _).find?_eq, offered_append_singles, List.find?_append,
    (records_built requests).find?_eq]

/-- Adapters of distinct kinds may be registered in any order. -/
theorem built_append_of_perm (requests : List Request) {adapters adapters' : List Adapter}
    (hperm : adapters.Perm adapters') (hdistinct : (adapters.map (·.kind)).Nodup) :
    built (requests ++ adapters.map .single) = built (requests ++ adapters'.map .single) := by
  have hdistinct' : (adapters'.map (·.kind)).Nodup := (hperm.map _).nodup_iff.mp hdistinct
  have hfind : ∀ kind, adapters.find? (·.kind == kind) = adapters'.find? (·.kind == kind) := by
    intro kind
    apply Option.ext
    intro a
    rw [find?_key_eq_some hdistinct, find?_key_eq_some hdistinct', hperm.mem_iff]
  apply (records_built _).ordered.eq_of_find?_eq (records_built _).ordered
  intro kind
  rw [find?_built_append_singles, find?_built_append_singles, hfind]

/-- **First adapters win.** After any requests to an empty registry, the first adapter that was
    offered for a kind answers for it, and the kinds are listed in ascending order with the
    descriptions of their adapters. An adapter is refused if and only if there is one for its kind,
    and then nothing changes. The arithmetic adapters are added up to the first for whose kind there
    is one, which is reported. The order in which adapters of distinct kinds are registered does not
    matter. -/
theorem first_wins (requests : List Request) :
    (built requests).FirstWins (offered requests) ∧ (built requests).Listed ∧
    (∀ a e, (built requests).register a = .error e ↔
      (built requests).contains a.kind = true ∧ e = .duplicateAdapter a.kind) ∧
    (∀ a, (built requests).contains a.kind = true →
      built (requests ++ [.single a]) = built requests) ∧
    (built requests).registerAll Adapter.arithmetic =
      { registry := built (requests ++ ((built requests).newcomers Adapter.arithmetic).map .single)
        added := ((built requests).newcomers Adapter.arithmetic).map (·.kind)
        refusal? := (Adapter.arithmetic.find? ((built requests).contains ·.kind)).map
          fun a => .duplicateAdapter a.kind } ∧
    (∀ kind, ((built requests).registerAll Adapter.arithmetic).registry.find? kind =
      ((built requests).find? kind).or
        (((built requests).newcomers Adapter.arithmetic).find? (·.kind == kind))) ∧
    ∀ adapters adapters' : List Adapter, adapters.Perm adapters' → (adapters.map (·.kind)).Nodup →
      built (requests ++ adapters.map .single) = built (requests ++ adapters'.map .single) := by
  have hrecords := records_built requests
  have hrefused : ∀ a, (built requests).contains a.kind = true →
      built (requests ++ [.single a]) = built requests := by
    intro a hcontains
    rw [built_append, serveAll, List.foldl_cons, List.foldl_nil, serve,
      register_of_contains hcontains]
  have hbulk := registerAll_eq (built requests) Adapter.arithmetic (by decide)
  rw [← built_append] at hbulk
  refine ⟨hrecords.firstWins, hrecords.ordered.listed, fun _ _ => register_eq_error, hrefused,
    hbulk, ?_, ?_⟩
  · intro kind
    rw [hbulk]
    exact find?_built_append_singles requests _ kind
  · intro adapters adapters' hperm hdistinct
    exact built_append_of_perm requests hperm hdistinct

/-- An adapter for products that sums. -/
def wrongMultiply : Adapter := Adapter.folding .add "multiply" "Multiply" "sum" "Adds instead"

/-- The arithmetic adapters come second: quotients stand after the adapter that is refused. -/
def lateArithmetic : List Request := [.single wrongMultiply, .bulk Adapter.arithmetic]

/-- The adapter that adds was there first, and what is wrong with its kind changes nothing later. -/
theorem first_wins_lateArithmetic :
    (built lateArithmetic).kinds = ["add", "multiply", "subtract"] ∧
      (built lateArithmetic).lookup "multiply" = .ok wrongMultiply ∧
      (built lateArithmetic).contains Adapter.multiply.kind = true ∧
      (built lateArithmetic).register Adapter.multiply = .error (.duplicateAdapter "multiply") ∧
      [Adapter.divide, Adapter.add].Perm [Adapter.add, Adapter.divide] ∧
      ([Adapter.divide, Adapter.add].map (·.kind)).Nodup ∧
      built (lateArithmetic ++ [.single Adapter.divide, .single Adapter.add]) =
        built (lateArithmetic ++ [.single Adapter.add, .single Adapter.divide]) := by
  obtain ⟨hwins, -, hrefused, -, -, -, horder⟩ := first_wins lateArithmetic
  have hcontains : (built lateArithmetic).contains Adapter.multiply.kind = true := by decide +kernel
  have hperm : [Adapter.divide, Adapter.add].Perm [Adapter.add, Adapter.divide] := .swap _ _ _
  have hdistinct : ([Adapter.divide, Adapter.add].map (·.kind)).Nodup := by decide
  exact ⟨by decide +kernel, (hwins.lookup_eq_ok _ _).mpr rfl, hcontains,
    (hrefused _ _).mpr ⟨hcontains, rfl⟩, hperm, hdistinct, horder _ _ hperm hdistinct⟩

end Registry

end ShaderGraph
