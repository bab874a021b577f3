import ShaderGraph.Proofs.Evaluation

namespace ShaderGraph.Graph

/-!
# Values of graphs

What the sockets of a graph hold, without reference to programs or to an order of the nodes: each
node folds the values that its connected inputs get.

* `Graph.arriving`, `Graph.operands` — the values that connections carry to a socket or a node.
* `Graph.Denotes` — the values of all sources fit together.
* `Graph.Denotes.eq_of_isSource` — there are no two ways in which they do.
-/

universe u

variable {α : Type u} {A : Arithmetic α} {g : Graph} {inputs : String → Option α}
  {v w : Endpoint → Option α} {order : List Nat}

/-- The value that arrives at a socket is that of the source of its connection. -/
def arriving (g : Graph) (v : Endpoint → Option α) (target : Endpoint) : Option α :=
  (g.incoming? target).bind fun c => v c.source

/-- The values that arrive at the connected inputs of a node, in declaration order. -/
def operands (g : Graph) (v : Endpoint → Option α) (n : Node) : List (Option α) :=
  (n.inputs.filter (g.IsConnected n)).map fun input => g.arriving v ⟨n.name, input.name⟩

/-- `v` gives graph inputs the values `inputs`, and outputs of nodes the values that follow. -/
structure Denotes (A : Arithmetic α) (g : Graph) (inputs : String → Option α)
    (v : Endpoint → Option α) : Prop where
  /-- A graph input has the value that is given for it. -/
  input : ∀ decl ∈ g.inputs, v ⟨inputNode, decl.name⟩ = inputs decl.name
  /-- The output for the result has the left fold of what arrives at the node. -/
  result : ∀ n ∈ g.nodes, ∀ op : Operator, op.kind = n.kind → ∀ decl ∈ n.outputs,
    decl.name = op.resultSocket → v ⟨n.name, decl.name⟩ = A.fold op (g.operands v n)
  /-- Any other output is undefined. -/
  other : ∀ n ∈ g.nodes, ∀ decl ∈ n.outputs,
    (∀ op : Operator, op.kind = n.kind → decl.name ≠ op.resultSocket) → v ⟨n.name, decl.name⟩ = none

/-- Nodes see the same values if the sources before them have the same values. -/
theorem operands_congr (hg : g.Valid) (horder : g.executionOrder = .ok order)
    {before after : List Node} {n : Node} (hsplit : g.nodesAt order = before ++ n :: after)
    (h : ∀ e, (g.withNodes before).IsSource e → v e = w e) : g.operands v n = g.operands w n := by
  refine List.map_congr_left fun input _ => ?_
  unfold arriving
  cases hc : g.incoming? ⟨n.name, input.name⟩ with
  | none => rfl
  | some c =>
    obtain ⟨hmem, htarget⟩ := hg.incoming?_eq_some.mp hc
    exact h c.source (hg.isSource_withNodes horder hsplit hmem (by rw [htarget]))

/-- The values of a graph are determined by those of its inputs, node after node. -/
theorem Denotes.eq_of_isSource (hg : g.Valid) (horder : g.executionOrder = .ok order)
    (hv : g.Denotes A inputs v) (hw : g.Denotes A inputs w) {e : Endpoint} (he : g.IsSource e) :
    v e = w e := by
  -- The induction is on the number of nodes whose outputs are known to agree.
  have hbefore : ∀ before after, g.nodesAt order = before ++ after →
      ∀ e, (g.withNodes before).IsSource e → v e = w e := by
    intro before
    induction before using List.reverseRecOn with
    | nil =>
      intro after hsplit e he
      cases he with
      | input hdecl => rw [hv.input _ hdecl, hw.input _ hdecl]
      | output hn => exact absurd hn List.not_mem_nil
    | append_singleton before n ih =>
      intro after hsplit e he
      rw [List.append_assoc, List.singleton_append] at hsplit
      cases he with
      | input hdecl => rw [hv.input _ hdecl, hw.input _ hdecl]
      | @output m decl hm hdecl =>
        rcases List.mem_append.mp hm with hm | hm
        · exact ih _ hsplit _ (.output hm hdecl)
        · obtain rfl := List.mem_singleton.mp hm
          have hn : m ∈ g.nodes := (mem_nodesAt horder).mp (by simp [hsplit])
          by_cases hresult : ∃ op : Operator, op.kind = m.kind ∧ decl.name = op.resultSocket
          · obtain ⟨op, hkind, hname⟩ := hresult
            rw [hv.result m hn op hkind decl hdecl hname, hw.result m hn op hkind decl hdecl hname,
              operands_congr hg horder hsplit (ih _ hsplit)]
          · have hother : ∀ op : Operator, op.kind = m.kind → decl.name ≠ op.resultSocket :=
              fun op hkind hname => hresult ⟨op, hkind, hname⟩
            rw [hv.other m hn decl hdecl hother, hw.other m hn decl hdecl hother]
  refine hbefore (g.nodesAt order) [] (List.append_nil _).symm e ?_
  cases he with
  | input hdecl => exact .input hdecl
  | output hn hdecl => exact .output ((mem_nodesAt horder).mpr hn) hdecl

end ShaderGraph.Graph
