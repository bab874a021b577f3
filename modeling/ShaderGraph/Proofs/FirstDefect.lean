import ShaderGraph.Proofs.Validity

namespace ShaderGraph

/-!
# First defects

Which defect of a graph the checks report. Node names come before identifiers and identifiers before
connections, and each of the three is gone through in its own order: nodes as they are declared,
identifiers as the graph claims them, connections as they are listed.

* `Claimant`, `Graph.claimants` — who asks for an identifier, in the order of the checks, and in
  which scope, for which identifier and under which name; `Claimant.Rivals` ask for the same.
* `Graph.Distinguished`, `Graph.Joined` — nodes and connections in which nothing is wrong.
* `Graph.Lacks` — an endpoint is no socket: its node is missing, or the node has no such socket.
* `Graph.Misjoins` — what is wrong with a connection after others.
* `Graph.FirstDefect` — the first defect of a graph, as the error that describes it.
* `Graph.claims_eq_map_claimants` — the claims of a graph are those of its claimants.
* `checkNames_eq_error`, `checkIdentifiers_eq_error_iff_rivals`, `checkConnections_eq_error` — where
  each scan ends.
* `Graph.validate_eq_error_iff_firstDefect` — the checks report the first defect and nothing else.
-/

/-! ### Claimants -/

/-- What asks for an identifier in generated code. -/
inductive Claimant where
  /-- An input or output of the graph, for its variable. -/
  | interface (decl : SocketDecl)
  /-- A node, for its function. -/
  | function (n : Node)
  /-- A socket of the node at a position, for its parameter. -/
  | parameter (position : Nat) (n : Node) (decl : SocketDecl)
  /-- An output of a node, for its local variable. -/
  | output (n : Node) (decl : SocketDecl)

namespace Claimant

/-- Where the identifier must be the only one of its name. Each node has parameters of its own, but
    the variables of the graph and the locals of all nodes are those of one function. -/
def scope : Claimant → Scope
  | interface _ => .entry
  | function _ => .functions
  | parameter position _ _ => .parameters position
  | output _ _ => .entry

/-- The identifier that is asked for. -/
def identifier : Claimant → String
  | interface decl => Naming.variableName decl.name
  | function n => Naming.identifier n.kind ++ "_" ++ Naming.identifier n.name
  | parameter _ _ decl => Naming.variableName decl.name
  | output n decl => Naming.identifier n.name ++ Naming.variableName decl.name

/-- What errors call a claimant: sockets of nodes come after the name of their node and a dot. -/
def owner : Claimant → String
  | interface decl => decl.name
  | function n => n.name
  | parameter _ n decl => n.name ++ "." ++ decl.name
  | output n decl => n.name ++ "." ++ decl.name

/-- Two claimants ask for one identifier in one scope. -/
def Rivals (c d : Claimant) : Prop := c.scope = d.scope ∧ c.identifier = d.identifier

/-- Whether two claimants are rivals can be decided. -/
instance : DecidableRel Rivals := fun _ _ => instDecidableAnd

end Claimant

/-- The claimants of the node at a position: its function, then the parameters for its inputs and
    outputs, then the locals for its outputs. -/
def Node.claimants (n : Node) (position : Nat) : List Claimant :=
  .function n :: n.inputs.map (.parameter position n) ++ n.outputs.map (.parameter position n) ++
    n.outputs.map (.output n)

/-- The claimants of a graph: its inputs and its outputs, then those of each node. -/
def Graph.claimants (g : Graph) : List Claimant :=
  g.inputs.map .interface ++ g.outputs.map .interface ++
    g.nodes.zipIdx.flatMap fun entry => entry.1.claimants entry.2

/-! ### Defects -/

namespace Graph

variable {g : Graph} {err : Error}

/-- The names of nodes can be told apart, and none of them is that of a pseudo node. -/
structure Distinguished (nodes : List Node) : Prop where
  distinct : (nodes.map (·.name)).Nodup
  unreserved : ∀ n ∈ nodes, n.name ≠ "subinput" ∧ n.name ≠ "suboutput"

/-- Connections join sockets of the graph, and no two of them have one target. -/
structure Joined (g : Graph) (connections : List Connection) : Prop where
  sources : ∀ c ∈ connections, g.IsSource c.source
  targets : ∀ c ∈ connections, g.IsTarget c.target
  distinct : (connections.map (·.target)).Nodup

/-- Why an endpoint is none of certain sockets, which belong to the nodes of the graph and to the
    pseudo node called `own`. -/
inductive Lacks (g : Graph) (own : String) (IsSocket : Endpoint → Prop) (e : Endpoint) :
    Error → Prop where
  | node (hown : e.node ≠ own) (hnodes : ∀ n ∈ g.nodes, n.name ≠ e.node) :
    Lacks g own IsSocket e (.unknownNode e.node)
  | socket (hnode : e.node = own ∨ ∃ n ∈ g.nodes, n.name = e.node) (hsocket : ¬ IsSocket e) :
    Lacks g own IsSocket e (.unknownSocket e.node e.socket)

/-- What is wrong with a connection that comes after others. Its source is looked at first and the
    other connections last. -/
inductive Misjoins (g : Graph) (before : List Connection) (c : Connection) : Error → Prop where
  | source {err : Error} (h : g.Lacks inputNode g.IsSource c.source err) : Misjoins g before c err
  | target {err : Error} (hsource : g.IsSource c.source)
    (h : g.Lacks outputNode g.IsTarget c.target err) : Misjoins g before c err
  | fanIn (hsource : g.IsSource c.source) (htarget : g.IsTarget c.target)
    (htaken : ∃ d ∈ before, d.target = c.target) :
    Misjoins g before c (.multipleConnections c.target.node c.target.socket)

/-- The first defect of a graph: a node whose name is reserved or repeats an earlier one, else a
    claimant of an identifier that exactly one claimant before it has in its scope, else a
    connection that cannot be. -/
inductive FirstDefect (g : Graph) : Error → Prop where
  | name {before after : List Node} {n : Node} (hnodes : g.nodes = before ++ n :: after)
    (hbefore : Distinguished before)
    (hname : (n.name = "subinput" ∨ n.name = "suboutput") ∨ ∃ m ∈ before, m.name = n.name) :
    FirstDefect g (.duplicateNode n.name)
  | identifier {before after : List Claimant} {first second : Claimant}
    (hnames : Distinguished g.nodes) (hclaimants : g.claimants = before ++ second :: after)
    (hbefore : before.Pairwise fun c d => ¬ c.Rivals d)
    (hfirst : before.filter (·.Rivals second) = [first]) :
    FirstDefect g (.identifierCollision second.identifier first.owner second.owner)
  | connection {before after : List Connection} {c : Connection} {err : Error}
    (hnames : Distinguished g.nodes) (hclaimants : g.claimants.Pairwise fun c d => ¬ c.Rivals d)
    (hconnections : g.connections = before ++ c :: after) (hbefore : g.Joined before)
    (hc : g.Misjoins before c err) : FirstDefect g err

/-! ### Names -/

/-- The check of names goes along the nodes and keeps the names it has seen. -/
theorem isScan_checkNamesAfter : IsScan checkNamesAfter
    (fun seen n =>
      if isReserved n.name || seen.contains n.name then .error (.duplicateNode n.name) else .ok ())
    (fun seen n => n.name :: seen) where
  nil _ := rfl
  cons seen n nodes := by
    rw [checkNamesAfter]
    split <;> rfl

/-- Names that can be told apart pass the test for reserved ones. -/
theorem Distinguished.free {nodes : List Node} (h : Distinguished nodes) :
    ∀ n ∈ nodes, isReserved n.name = false :=
  fun n hn => isReserved_eq_false.mpr (h.unreserved n hn)

/-- The check of names accepts those that can be told apart. -/
theorem checkNames_eq_ok_iff_distinguished : g.checkNames = .ok () ↔ Distinguished g.nodes :=
  checkNames_eq_ok.trans
    ⟨fun h => ⟨h.1, fun n hn => isReserved_eq_false.mp (h.2 n hn)⟩, fun h => ⟨h.distinct, h.free⟩⟩

/-- The check of names fails at the first node whose name is reserved or taken. -/
theorem checkNames_eq_error :
    g.checkNames = .error err ↔ ∃ before n after, g.nodes = before ++ n :: after ∧
      Distinguished before ∧
        ((n.name = "subinput" ∨ n.name = "suboutput") ∨ ∃ m ∈ before, m.name = n.name) ∧
          err = .duplicateNode n.name := by
  rw [checkNames, isScan_checkNamesAfter.eq_error]
  refine exists_congr fun before => exists_congr fun n => exists_congr fun after =>
    and_congr_right fun _ => and_congr ?_ ?_
  · exact checkNames_eq_ok_iff_distinguished (g := { nodes := before })
  · -- The names seen so far are those of the nodes before.
    rw [List.foldl_flip_cons_eq_append]
    have hseen :
        (isReserved n.name || ((before.map Node.name).reverse ++ []).contains n.name) = true ↔
        (n.name = "subinput" ∨ n.name = "suboutput") ∨ ∃ m ∈ before, m.name = n.name := by
      simp [isReserved, inputNode, outputNode]
    rw [← hseen]
    cases (isReserved n.name || ((before.map Node.name).reverse ++ []).contains n.name) with
    | false => simp
    | true => simp [eq_comm]

end Graph

/-! ### Identifiers -/

namespace Claim

/-- The search for a clash as a check that fails with what it finds. -/
def check (seen claims : List Claim) : Except (Claim × Claim) Unit :=
  match firstClash? seen claims with
  | some clash => .error clash
  | none => .ok ()

/-- The check passes if there is no clash. -/
theorem check_eq_ok {seen claims : List Claim} :
    check seen claims = .ok () ↔ firstClash? seen claims = none := by
  unfold check
  split <;> simp_all

/-- The check fails with the first clash. -/
theorem check_eq_error {seen claims : List Claim} {clash : Claim × Claim} :
    check seen claims = .error clash ↔ firstClash? seen claims = some clash := by
  unfold check
  split <;> simp_all

/-- The check for clashes goes along the claims and keeps those it has seen. -/
theorem isScan_check : IsScan check
    (fun seen c =>
      match seen.find? (·.clashes c) with
      | some earlier => .error (earlier, c)
      | none => .ok ())
    (fun seen c => c :: seen) where
  nil _ := rfl
  cons seen c claims := by
    rw [check, firstClash?]
    cases seen.find? (·.clashes c) <;> rfl

/-- Claims that clash with one claim clash with one another. -/
theorem clashes_trans {c d e : Claim} (hc : c.clashes e = true) (hd : d.clashes e = true) :
    c.clashes d = true := by
  simp_all [clashes]

/-- Among claims that do not clash, at most one clashes with another claim. -/
theorem filter_clashes_eq_singleton {before : List Claim} {first second : Claim}
    (hbefore : before.Pairwise fun c d => ¬ c.clashes d) :
    before.filter (·.clashes second) = [first] ↔
      before.reverse.find? (·.clashes second) = some first := by
  rw [← List.head?_filter, List.filter_reverse, List.head?_reverse]
  have hapart := hbefore.filter (·.clashes second)
  have hclash : ∀ c ∈ before.filter (·.clashes second), c.clashes second = true :=
    fun c hc => (List.mem_filter.mp hc).2
  generalize before.filter (·.clashes second) = clashing at hapart hclash ⊢
  cases clashing with
  | nil => simp
  | cons c rest =>
    cases rest with
    | nil => simp
    | cons d rest =>
      -- Two of them would clash with one another.
      have hcd := (List.pairwise_cons.mp hapart).1 d List.mem_cons_self
      exact absurd (clashes_trans (hclash c List.mem_cons_self) (hclash d (by simp))) hcd

/-- The search ends at the first claim that clashes with an earlier one, of which there is one
    only. -/
theorem firstClash?_eq_some {claims : List Claim} {first second : Claim} :
    firstClash? [] claims = some (first, second) ↔ ∃ before after,
      claims = before ++ second :: after ∧ before.Pairwise (fun c d => ¬ c.clashes d) ∧
        before.filter (·.clashes second) = [first] := by
  have hbefore : ∀ before : List Claim,
      check [] before = .ok () ↔ before.Pairwise fun c d => ¬ c.clashes d := by
    intro before
    rw [check_eq_ok, firstClash?_eq_none]
    simp
  rw [← check_eq_error, isScan_check.eq_error]
  constructor
  · rintro ⟨before, c, after, hclaims, hok, hc⟩
    rw [hbefore] at hok
    rw [List.foldl_flip_cons_eq_append, List.map_id', List.append_nil] at hc
    cases hfind : before.reverse.find? (·.clashes c) with
    | none => simp [hfind] at hc
    | some earlier =>
      simp only [hfind, Except.error.injEq, Prod.mk.injEq] at hc
      obtain ⟨rfl, rfl⟩ := hc
      exact ⟨before, after, hclaims, hok, (filter_clashes_eq_singleton hok).mpr hfind⟩
  · rintro ⟨before, after, hclaims, hok, hfirst⟩
    refine ⟨before, second, after, hclaims, (hbefore before).mpr hok, ?_⟩
    rw [List.foldl_flip_cons_eq_append, List.map_id', List.append_nil,
      (filter_clashes_eq_singleton hok).mp hfirst]

end Claim

namespace Graph

variable {g : Graph} {err : Error}

/-- The check of identifiers fails with the first claim that clashes with an earlier one. -/
theorem checkIdentifiers_eq_error_iff :
    g.checkIdentifiers = .error err ↔ ∃ first second,
      Claim.firstClash? [] g.claims = some (first, second) ∧
        err = .identifierCollision second.identifier first.owner second.owner := by
  unfold checkIdentifiers
  cases Claim.firstClash? [] g.claims with
  | none => simp
  | some clash =>
    obtain ⟨first, second⟩ := clash
    simp [eq_comm]

end Graph

namespace Claimant

/-- What a claimant claims. -/
def claim (c : Claimant) : Claim :=
  { scope := c.scope, identifier := c.identifier, owner := c.owner }

/-- Claims clash if and only if their claimants are rivals. -/
theorem clashes_claim {c d : Claimant} : c.claim.clashes d.claim = true ↔ c.Rivals d := by
  simp [Claim.clashes, claim, Rivals]

/-- Claims that do not clash are those of claimants without rivals. -/
theorem pairwise_map_claim {claimants : List Claimant} :
    (claimants.map claim).Pairwise (fun c d => ¬ c.clashes d) ↔
      claimants.Pairwise fun c d => ¬ c.Rivals d := by
  rw [List.pairwise_map]
  exact List.Pairwise.iff fun _ _ => not_congr clashes_claim

/-- The claims that clash with that of a claimant are those of its rivals. -/
theorem filter_map_claim (claimants : List Claimant) (second : Claimant) :
    (claimants.map claim).filter (·.clashes second.claim) =
      (claimants.filter (·.Rivals second)).map claim := by
  rw [List.filter_map]
  refine congrArg (List.map claim) (List.filter_congr fun c _ => ?_)
  rw [Bool.eq_iff_iff, decide_eq_true_eq]
  exact clashes_claim

end Claimant

/-- The node claims what its claimants ask for, in their order. -/
theorem Node.claims_eq_map_claimants (n : Node) (position : Nat) :
    n.claims position = (n.claimants position).map Claimant.claim := by
  simp only [claims, claimants, List.map_append, List.map_cons, List.map_map, List.cons_append,
    List.append_assoc]
  rfl

namespace Graph

/-- The graph claims what its claimants ask for, in their order. -/
theorem claims_eq_map_claimants (g : Graph) : g.claims = g.claimants.map Claimant.claim := by
  have hnodes : ∀ entry : Node × Nat,
      entry.1.claims entry.2 = (entry.1.claimants entry.2).map Claimant.claim :=
    fun entry => entry.1.claims_eq_map_claimants entry.2
  simp only [claims, claimants, interfaceClaims, List.map_append, List.map_map, List.map_flatMap,
    hnodes]
  rfl

variable {g : Graph} {err : Error}

/-- The check of identifiers accepts a graph whose claimants have no rivals. -/
theorem checkIdentifiers_eq_ok_iff_pairwise :
    g.checkIdentifiers = .ok () ↔ g.claimants.Pairwise fun c d => ¬ c.Rivals d := by
  have hnone : g.checkIdentifiers = .ok () ↔ Claim.firstClash? [] g.claims = none := by
    unfold checkIdentifiers
    split <;> simp_all
  rw [hnone, Claim.firstClash?_eq_none, claims_eq_map_claimants, Claimant.pairwise_map_claim]
  simp

/-- The check of identifiers fails at the first claimant with a rival before it, of which there is
    one only. -/
theorem checkIdentifiers_eq_error_iff_rivals :
    g.checkIdentifiers = .error err ↔ ∃ before second after first,
      g.claimants = before ++ second :: after ∧ before.Pairwise (fun c d => ¬ c.Rivals d) ∧
        before.filter (·.Rivals second) = [first] ∧
          err = .identifierCollision second.identifier first.owner second.owner := by
  rw [checkIdentifiers_eq_error_iff]
  constructor
  · rintro ⟨first, second, hclash, rfl⟩
    obtain ⟨before, after, hclaims, hbefore, hfirst⟩ := Claim.firstClash?_eq_some.mp hclash
    rw [claims_eq_map_claimants] at hclaims
    obtain ⟨before, rest, hclaimants, rfl, hrest⟩ := List.map_eq_append_iff.mp hclaims
    obtain ⟨second, after, rfl, rfl, rfl⟩ := List.map_eq_cons_iff.mp hrest
    rw [Claimant.filter_map_claim] at hfirst
    obtain ⟨first, hrival, rfl⟩ := List.map_eq_singleton_iff.mp hfirst
    exact ⟨before, second, after, first, hclaimants, Claimant.pairwise_map_claim.mp hbefore, hrival,
      rfl⟩
  · rintro ⟨before, second, after, first, hclaimants, hbefore, hfirst, rfl⟩
    refine ⟨first.claim, second.claim, Claim.firstClash?_eq_some.mpr
      ⟨before.map Claimant.claim, after.map Claimant.claim, ?_, ?_, ?_⟩, rfl⟩
    · rw [claims_eq_map_claimants, hclaimants, List.map_append, List.map_cons]
    · exact Claimant.pairwise_map_claim.mpr hbefore
    · rw [Claimant.filter_map_claim, hfirst, List.map_singleton]

/-! ### Connections -/

/-- No sockets are found for an endpoint if it names neither the pseudo node nor a node. -/
theorem sockets_eq_none {own : String} {ownSockets : List SocketDecl}
    {sockets : Node → List SocketDecl} {e : Endpoint} :
    (if e.node = own then some ownSockets else (g.node? e.node).map sockets) = none ↔
      e.node ≠ own ∧ ∀ n ∈ g.nodes, n.name ≠ e.node := by
  by_cases hown : e.node = own
  · simp [hown]
  · simp [hown, node?]

/-- An endpoint that is refused is no socket, for one of two reasons. -/
theorem checkEndpoint_eq_error {own : String} {ownSockets : List SocketDecl}
    {sockets : Node → List SocketDecl} {IsSocket : Endpoint → Prop} {e : Endpoint}
    (hsocket : checkEndpoint e
      (if e.node = own then some ownSockets else (g.node? e.node).map sockets) = .ok () ↔
        IsSocket e) :
    checkEndpoint e (if e.node = own then some ownSockets else (g.node? e.node).map sockets)
      = .error err ↔ g.Lacks own IsSocket e err := by
  cases hsockets : (if e.node = own then some ownSockets else (g.node? e.node).map sockets) with
  | none =>
    obtain ⟨hown, hnodes⟩ := sockets_eq_none.mp hsockets
    constructor
    · intro h
      cases h
      exact .node hown hnodes
    · rintro (⟨-, -⟩ | ⟨hnode | ⟨n, hn, hnode⟩, -⟩)
      · rfl
      · exact absurd hnode hown
      · exact absurd hnode (hnodes n hn)
  | some l =>
    have hnode : e.node = own ∨ ∃ n ∈ g.nodes, n.name = e.node := by
      by_contra hno
      rw [not_or, not_exists] at hno
      rw [sockets_eq_none.mpr ⟨hno.1, fun n hn h => hno.2 n ⟨hn, h⟩⟩] at hsockets
      cases hsockets
    rw [hsockets] at hsocket
    rw [checkEndpoint] at hsocket ⊢
    constructor
    · intro h
      split at h
      · cases h
      · next hno =>
        cases h
        exact .socket hnode fun hyes => by simp_all
    · rintro (⟨hown, hnodes⟩ | ⟨-, hno⟩)
      · rcases hnode with hnode | ⟨n, hn, hnode⟩
        · exact absurd hnode hown
        · exact absurd hnode (hnodes n hn)
      · rw [← hsocket] at hno
        split <;> simp_all

/-- A connection is refused for its source, or else for its target. -/
theorem checkConnection_eq_error (hnames : Distinguished g.nodes) {c : Connection} :
    g.checkConnection c = .error err ↔ g.Lacks inputNode g.IsSource c.source err ∨
      g.IsSource c.source ∧ g.Lacks outputNode g.IsTarget c.target err := by
  have hsource := checkEndpoint_sourceSockets? hnames.distinct hnames.free (e := c.source)
  have htarget := checkEndpoint_targetSockets? hnames.distinct hnames.free (e := c.target)
  rw [← checkEndpoint_eq_error hsource, ← checkEndpoint_eq_error htarget, ← hsource,
    checkConnection, bind_eq_error]
  refine or_congr Iff.rfl ⟨?_, fun h => ⟨(), h⟩⟩
  rintro ⟨_, h⟩
  exact h

/-- A connection passes if it joins sockets of the graph. -/
theorem checkConnection_eq_ok_iff (hnames : Distinguished g.nodes) {c : Connection} :
    g.checkConnection c = .ok () ↔ g.IsSource c.source ∧ g.IsTarget c.target := by
  rw [checkConnection_eq_ok, checkEndpoint_sourceSockets? hnames.distinct hnames.free,
    checkEndpoint_targetSockets? hnames.distinct hnames.free]

/-- The check of connections goes along them and keeps the targets it has seen. -/
theorem isScan_checkConnectionsAfter (g : Graph) : IsScan g.checkConnectionsAfter
    (fun seen c => do
      g.checkConnection c
      if seen.contains c.target then .error (.multipleConnections c.target.node c.target.socket)
      else .ok ())
    (fun seen c => c.target :: seen) where
  nil _ := rfl
  cons seen c connections := by
    rw [checkConnectionsAfter, bind_assoc]
    refine bind_congr fun _ => ?_
    split <;> rfl

/-- The check of connections accepts those that join sockets, at most one to a target. -/
theorem checkConnectionsAfter_eq_ok_iff_joined (hnames : Distinguished g.nodes)
    {connections : List Connection} :
    g.checkConnectionsAfter [] connections = .ok () ↔ g.Joined connections := by
  simp only [checkConnectionsAfter_eq_ok, checkConnection_eq_ok_iff hnames, List.not_mem_nil,
    not_false_eq_true, implies_true, and_true]
  refine ⟨?_, fun h => ⟨fun c hc => ⟨h.sources c hc, h.targets c hc⟩, h.distinct⟩⟩
  rintro ⟨hends, hdistinct⟩
  exact { sources := fun c hc => (hends c hc).1, targets := fun c hc => (hends c hc).2,
          distinct := hdistinct }

/-- The check of connections fails at the first one that cannot be. -/
theorem checkConnections_eq_error (hnames : Distinguished g.nodes) :
    g.checkConnections = .error err ↔ ∃ before c after, g.connections = before ++ c :: after ∧
      g.Joined before ∧ g.Misjoins before c err := by
  rw [checkConnections, (isScan_checkConnectionsAfter g).eq_error]
  refine exists_congr fun before => exists_congr fun c => exists_congr fun after =>
    and_congr_right fun _ => and_congr (checkConnectionsAfter_eq_ok_iff_joined hnames) ?_
  -- The targets seen so far are those of the connections before.
  rw [List.foldl_flip_cons_eq_append, bind_eq_error, checkConnection_eq_error hnames]
  have hseen : ((before.map Connection.target).reverse ++ []).contains c.target = true ↔
      ∃ d ∈ before, d.target = c.target := by simp
  constructor
  · rintro ((hsource | ⟨hsource, htarget⟩) | ⟨_, hends, htaken⟩)
    · exact .source hsource
    · exact .target hsource htarget
    · obtain ⟨hsource, htarget⟩ := (checkConnection_eq_ok_iff hnames).mp hends
      split at htaken
      · next h =>
        cases htaken
        exact .fanIn hsource htarget (hseen.mp h)
      · cases htaken
  · rintro (hsource | ⟨hsource, htarget⟩ | ⟨hsource, htarget, htaken⟩)
    · exact .inl (.inl hsource)
    · exact .inl (.inr ⟨hsource, htarget⟩)
    · refine .inr ⟨(), (checkConnection_eq_ok_iff hnames).mpr ⟨hsource, htarget⟩, ?_⟩
      rw [if_pos (hseen.mpr htaken)]

/-! ### Graphs -/

/-- **First defects.** The checks fail exactly with the first defect of a graph: the first node in
    declaration order whose name is reserved or repeats an earlier one; if there is none, the first
    claimant of an identifier that is taken in its scope, with the one claimant that has it already;
    and if there is none either, the first connection whose source or target is missing or whose
    target is taken. Claimants are the inputs and outputs of the graph and then, node by node, its
    function, the parameters for its inputs and outputs, and the locals for its outputs. -/
theorem validate_eq_error_iff_firstDefect (g : Graph) (err : Error) :
    g.validate = .error err ↔ g.FirstDefect err := by
  have hok : ∀ {x : Except Error Unit} {y : Unit → Except Error Unit},
      x >>= y = .error err ↔ x = .error err ∨ x = .ok () ∧ y () = .error err := by
    intro x y
    rw [bind_eq_error]
    exact or_congr Iff.rfl ⟨fun ⟨_, h⟩ => h, fun h => ⟨(), h⟩⟩
  rw [validate, hok, hok, checkNames_eq_error, checkNames_eq_ok_iff_distinguished,
    checkIdentifiers_eq_error_iff_rivals, checkIdentifiers_eq_ok_iff_pairwise]
  constructor
  · rintro (⟨before, n, after, hnodes, hbefore, hname, rfl⟩ | ⟨hnames, hrest⟩)
    · exact .name hnodes hbefore hname
    rcases hrest with
      ⟨before, second, after, first, hclaimants, hbefore, hfirst, rfl⟩ | ⟨hclaimants, herror⟩
    · exact .identifier hnames hclaimants hbefore hfirst
    · obtain ⟨before, c, after, hconnections, hbefore, hc⟩ :=
        (checkConnections_eq_error hnames).mp herror
      exact .connection hnames hclaimants hconnections hbefore hc
  · intro h
    cases h with
    | name hnodes hbefore hname => exact .inl ⟨_, _, _, hnodes, hbefore, hname, rfl⟩
    | identifier hnames hclaimants hbefore hfirst =>
      exact .inr ⟨hnames, .inl ⟨_, _, _, _, hclaimants, hbefore, hfirst, rfl⟩⟩
    | connection hnames hclaimants hconnections hbefore hc =>
      exact .inr ⟨hnames, .inr ⟨hclaimants,
        (checkConnections_eq_error hnames).mpr ⟨_, _, _, hconnections, hbefore, hc⟩⟩⟩

/-- The graph and the function of `mix` have a variable `_xY` as well, but that of `scale` has it
    twice. That a connection leads nowhere comes later. -/
example :
    ({ inputs := [⟨"x_y", "float"⟩]
       nodes := [
         { name := "mix", kind := "add", inputs := [⟨"x_y", "float"⟩] },
         { name := "scale", kind := "add", inputs := [⟨"xY", "float"⟩],
           outputs := [⟨"x_y", "float"⟩] }]
       connections := [⟨⟨"none", "out"⟩, ⟨"mix", "x_y"⟩⟩] } : Graph).validate =
      .error (.identifierCollision "_xY" "scale.xY" "scale.x_y") := by
  decide +kernel

end Graph

end ShaderGraph
