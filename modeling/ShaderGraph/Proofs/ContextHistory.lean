import Mathlib.Data.List.Induction
import ShaderGraph.Proofs.Contexts

namespace ShaderGraph

/-!
# Histories of contexts

Sockets are added to a context one after another, in any directions, and names may come again. What
the context holds in the end can be read off the history of additions.

* `Socket.IsLatest` — a socket of a history after which no other of its name is added.
* `Socket.SumsUp` — what a history leaves on one side of a context: its names in the order in which
  they came first, each with its latest socket. `Socket.SumsUp.put` is the step and
  `Socket.sumsUp_foldl_put` the run.
* `Context.collect` — the context after a history. Each of its sides sums up the additions to it:
  `Context.sumsUp_inputs`, `Context.sumsUp_outputs`.
* `Context.additions_sum_up` — what a context holds, lists and finds after any history.
-/

/-! ### One side -/

namespace Socket

variable {history sockets : List Socket} {s t : Socket}

/-- The socket is in the history, and no socket of its name comes after it. -/
def IsLatest (history : List Socket) (s : Socket) : Prop :=
  ∃ before after, history = before ++ s :: after ∧ ∀ t ∈ after, t.name ≠ s.name

/-- The latest socket of a name has been added. -/
theorem IsLatest.mem (h : IsLatest history s) : s ∈ history := by
  obtain ⟨before, after, rfl, -⟩ := h
  simp

/-- The last socket is the latest of its name. -/
theorem isLatest_concat_self (history : List Socket) (s : Socket) : IsLatest (history ++ [s]) s :=
  ⟨history, [], rfl, by simp⟩

/-- A socket of another name does not make one less than the latest. -/
theorem IsLatest.concat (h : IsLatest history s) (hne : s.name ≠ t.name) :
    IsLatest (history ++ [t]) s := by
  obtain ⟨before, after, rfl, hafter⟩ := h
  refine ⟨before, after ++ [t], by simp, fun u hu => ?_⟩
  rcases List.mem_append.mp hu with hu | hu
  · exact hafter u hu
  · obtain rfl := List.mem_singleton.mp hu
    exact hne.symm

/-- A name has one latest socket at most. -/
theorem IsLatest.unique (hs : IsLatest history s) (ht : IsLatest history t)
    (hname : s.name = t.name) :
    s = t := by
  obtain ⟨before, after, hsplit, hafter⟩ := hs
  obtain ⟨before', after', hsplit', hafter'⟩ := ht
  -- Otherwise the one that comes first would have the other one after it.
  rcases List.append_eq_append_iff.mp (hsplit.symm.trans hsplit') with
    ⟨overlap, -, h⟩ | ⟨overlap, -, h⟩
  · cases overlap with
    | nil => exact (List.cons.inj h).1
    | cons u overlap =>
      have hmem : t ∈ after := by simp [(List.cons.inj h).2]
      exact absurd hname.symm (hafter t hmem)
  · cases overlap with
    | nil => exact (List.cons.inj h).1.symm
    | cons u overlap =>
      have hmem : s ∈ after' := by simp [(List.cons.inj h).2]
      exact absurd hname (hafter' s hmem)

/-- The sockets have the names of the history, each once and in the order in which the names came
    first, and each name has its latest socket. -/
structure SumsUp (history sockets : List Socket) : Prop where
  names : sockets.map (·.name) = (history.map (·.name)).eraseDups
  latest : ∀ s ∈ sockets, IsLatest history s

/-- A name that is there keeps its place, and a new one goes to the end. -/
theorem map_name_put (socket : Socket) (sockets : List Socket) :
    (socket.put sockets).map (·.name) =
      if socket.name ∈ sockets.map (·.name) then sockets.map (·.name)
      else sockets.map (·.name) ++ [socket.name] := by
  induction sockets with
  | nil => rfl
  | cons s sockets ih =>
    by_cases hs : s.name = socket.name
    · simp [put, hs]
    · simp [put, hs, Ne.symm hs, ih]
      split <;> rfl

/-- Where names are distinct, a socket leaves none of its name beside it. -/
theorem mem_put (hnames : (sockets.map (·.name)).Nodup) (ht : t ∈ s.put sockets) :
    t = s ∨ t ∈ sockets ∧ t.name ≠ s.name := by
  induction sockets with
  | nil => exact .inl (List.mem_singleton.mp ht)
  | cons u sockets ih =>
    obtain ⟨hu, hnames⟩ := List.nodup_cons.mp hnames
    rw [put] at ht
    split at ht
    · next hname =>
      refine (List.mem_cons.mp ht).imp_right fun ht =>
        ⟨List.mem_cons_of_mem u ht, fun htname => hu ?_⟩
      exact List.mem_map.mpr ⟨t, ht, htname.trans hname.symm⟩
    · next hname =>
      rcases List.mem_cons.mp ht with rfl | ht
      · exact .inr ⟨List.mem_cons_self, hname⟩
      · exact (ih hnames ht).imp_right (And.imp_left (List.mem_cons_of_mem u))

namespace SumsUp

/-- What sums a history up has one socket for each name. -/
theorem nodup_names (h : SumsUp history sockets) : (sockets.map (·.name)).Nodup :=
  h.names ▸ nodup_eraseDups _

/-- Adding a socket adds it to the history. -/
theorem put (h : SumsUp history sockets) (s : Socket) :
    SumsUp (history ++ [s]) (s.put sockets) where
  names := by
    rw [map_name_put, h.names, List.map_append, List.map_singleton, eraseDups_concat]
    simp only [List.mem_eraseDups]
  latest t ht := by
    rcases mem_put h.nodup_names ht with rfl | ⟨ht, hname⟩
    · exact isLatest_concat_self history t
    · exact (h.latest t ht).concat hname

/-- It consists of the latest socket of each name. -/
theorem mem_iff (h : SumsUp history sockets) : s ∈ sockets ↔ IsLatest history s := by
  refine ⟨h.latest s, fun hs => ?_⟩
  have hname : s.name ∈ sockets.map (·.name) := by
    rw [h.names, List.mem_eraseDups]
    exact List.mem_map_of_mem hs.mem
  obtain ⟨t, ht, htname⟩ := List.mem_map.mp hname
  obtain rfl := (h.latest t ht).unique hs htname
  exact ht

/-- A name is bound to its latest socket. -/
theorem find_eq_ok (h : SumsUp history sockets) {name : String} :
    Context.find name sockets = .ok s ↔ IsLatest history s ∧ s.name = name := by
  rw [← h.mem_iff, ← find?_key_eq_some h.nodup_names, Context.find]
  cases sockets.find? (·.name == name) <;> simp

/-- A name is missing if it was never added. -/
theorem find_eq_error (h : SumsUp history sockets) {name : String} {e : Error} :
    Context.find name sockets = .error e ↔
      (∀ s ∈ history, s.name ≠ name) ∧ e = .missingSocket name := by
  have hname : (∃ s ∈ sockets, s.name = name) ↔ ∃ s ∈ history, s.name = name := by
    rw [← List.mem_map, h.names, List.mem_eraseDups, List.mem_map]
  have hnone : sockets.find? (·.name == name) = none ↔ ∀ s ∈ history, s.name ≠ name := by
    rw [List.find?_eq_none]
    simpa using not_congr hname
  rw [Context.find, ← hnone]
  cases sockets.find? (·.name == name) <;> simp [eq_comm]

end SumsUp

/-- Sockets that are added to nothing sum up to their history. -/
theorem sumsUp_foldl_put (history : List Socket) :
    SumsUp history (history.foldl (fun l s => s.put l) []) := by
  induction history using List.reverseRecOn with
  | nil => exact ⟨rfl, by simp⟩
  | append_singleton history s ih =>
    rw [List.foldl_concat]
    exact ih.put s

end Socket

/-! ### Both sides -/

namespace Context

open Socket (IsLatest SumsUp)

variable {s t : Socket}

/-- Additions to different sides commute. -/
theorem add_add_comm (hs : s.direction = .input) (ht : t.direction ≠ .input) (ctx : Context) :
    (ctx.add s).add t = (ctx.add t).add s := by
  rw [add_of_input hs, add_of_ne_input ht, add_of_ne_input ht, add_of_input hs]

/-! ### Histories -/

/-- The context after additions to the empty one. -/
def collect (history : List Socket) : Context := history.foldl add {}

/-- The inputs sum up what has been added as an input. -/
theorem sumsUp_inputs (history : List Socket) :
    SumsUp (received history) (collect history).inputs := by
  rw [collect, inputs_foldl_add]
  exact Socket.sumsUp_foldl_put _

/-- The outputs sum up everything else. -/
theorem sumsUp_outputs (history : List Socket) :
    SumsUp (delivered history) (collect history).outputs := by
  rw [collect, outputs_foldl_add]
  exact Socket.sumsUp_foldl_put _

/-- **Additions sum up.** After any additions to the empty context, the inputs have the names of the
    sockets that were added as inputs, in the order in which these names came first, each with the
    socket that came last under it, and the outputs have the other sockets in the same way. What is
    found under a name has this name and is the latest, and a name that was never added to a side is
    missing there. The parameters are the inputs and then the outputs. Neither side depends on the
    additions to the other, and additions to the two sides commute. -/
theorem additions_sum_up (history : List Socket) :
    SumsUp (received history) (collect history).inputs ∧
    SumsUp (delivered history) (collect history).outputs ∧
    (collect history).parameters = (collect history).inputs ++ (collect history).outputs ∧
    (∀ name s, (collect history).input name = .ok s ↔ IsLatest (received history) s ∧
      s.name = name) ∧
    (∀ name e, (collect history).input name = .error e ↔
      (∀ s ∈ received history, s.name ≠ name) ∧ e = .missingSocket name) ∧
    (∀ name s, (collect history).output name = .ok s ↔ IsLatest (delivered history) s ∧
      s.name = name) ∧
    (∀ name e, (collect history).output name = .error e ↔
      (∀ s ∈ delivered history, s.name ≠ name) ∧ e = .missingSocket name) ∧
    (∀ other, received other = received history →
      (collect other).inputs = (collect history).inputs) ∧
    (∀ other, delivered other = delivered history →
      (collect other).outputs = (collect history).outputs) ∧
    ∀ s t ctx, s.direction = .input → t.direction ≠ .input →
      add (add ctx s) t = add (add ctx t) s := by
  have hinputs := sumsUp_inputs history
  have houtputs := sumsUp_outputs history
  refine ⟨hinputs, houtputs, rfl, fun _ _ => hinputs.find_eq_ok, fun _ _ => hinputs.find_eq_error,
    fun _ _ => houtputs.find_eq_ok, fun _ _ => houtputs.find_eq_error, fun other h => ?_,
    fun other h => ?_, fun s t ctx hs ht => add_add_comm hs ht ctx⟩
  · rw [collect, collect, inputs_foldl_add, inputs_foldl_add, h]
  · rw [collect, collect, outputs_foldl_add, outputs_foldl_add, h]

/-- Inputs and outputs share the name `a`, and both of them get it twice. -/
def sharedName : List Socket :=
  [⟨"a", .float, .input⟩, ⟨"a", .vector, .output⟩, ⟨"b", .int, .input⟩, ⟨"a", .float, .inOut⟩,
    ⟨"c", .int, .output⟩, ⟨"a", .vector, .input⟩]

/-- The sides of `sharedName` keep their first places and last types, and the other one changes
    nothing. -/
theorem additions_sum_up_sharedName :
    (collect sharedName).inputs = [⟨"a", .vector, .input⟩, ⟨"b", .int, .input⟩] ∧
      (collect sharedName).outputs = [⟨"a", .float, .inOut⟩, ⟨"c", .int, .output⟩] ∧
      (collect sharedName).output "a" = .ok ⟨"a", .float, .inOut⟩ ∧
      (collect sharedName).output "b" = .error (.missingSocket "b") ∧
      received (delivered sharedName ++ received sharedName) = received sharedName ∧
      (collect (delivered sharedName ++ received sharedName)).inputs =
        (collect sharedName).inputs := by
  obtain ⟨-, -, -, -, -, hfound, hmissing, hinputs, -, -⟩ := additions_sum_up sharedName
  have hlatest : IsLatest (delivered sharedName) ⟨"a", .float, .inOut⟩ :=
    ⟨[⟨"a", .vector, .output⟩], [⟨"c", .int, .output⟩], by decide, by decide⟩
  have hreceived :
      received (delivered sharedName ++ received sharedName) = received sharedName := by decide
  exact ⟨by decide, by decide, (hfound _ _).mpr ⟨hlatest, rfl⟩, (hmissing _ _).mpr ⟨by decide, rfl⟩,
    hreceived, hinputs _ hreceived⟩

end Context

end ShaderGraph
