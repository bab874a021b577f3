import ShaderGraph.Graph.Basic

/-!
# Validity of graphs

A graph is valid if its names can be told apart, in the host and in generated code, and if its
connections join sockets that exist, at most one to an input. The checks come in this order and
report the first fault.

* `Graph.checkNames` — node names are distinct, and none is reserved.
* `Claim`, `Graph.claims` — the identifiers that the graph needs, each with its scope and owner;
  `Graph.checkIdentifiers` finds the first one that is taken.
* `Graph.checkConnection` — the ends of a connection exist.
* `Graph.checkConnections` — all do, and no two connections have one target.
* `Graph.validate` — all of these checks.
-/

namespace ShaderGraph

/-! ### Names -/

namespace Graph

/-- Checks the names of nodes, of which those before them have the names `seen`. -/
def checkNamesAfter (seen : List String) : List Node → Except Error Unit
  | [] => .ok ()
  | n :: rest =>
    if isReserved n.name || seen.contains n.name then .error (.duplicateNode n.name)
    else checkNamesAfter (n.name :: seen) rest

/-- Checks that the names of nodes are distinct and not reserved. -/
def checkNames (g : Graph) : Except Error Unit := checkNamesAfter [] g.nodes

end Graph

/-! ### Identifiers -/

/-- Where an identifier is visible. -/
inductive Scope where
  /-- The names of functions. -/
  | functions
  /-- The variables of the entry function. -/
  | entry
  /-- The parameters of the function of the node at this position. -/
  | parameters (position : Nat)
deriving DecidableEq, Repr

/-- An identifier that generated code uses, and the name in the host that asks for it. -/
structure Claim where
  scope : Scope
  identifier : String
  owner : String
deriving DecidableEq, Repr

namespace Claim

/-- Whether two claims ask for one identifier in one scope. -/
def clashes (c d : Claim) : Bool := c.scope == d.scope && c.identifier == d.identifier

/-- The first claim to clash with an earlier one, after that one. The claims `seen` come before
    all others and do not clash. -/
def firstClash? (seen : List Claim) : List Claim → Option (Claim × Claim)
  | [] => none
  | c :: rest =>
    match seen.find? (·.clashes c) with
    | some earlier => some (earlier, c)
    | none => firstClash? (c :: seen) rest

end Claim

namespace Node

/-- How messages name a socket of a node. -/
def socketLabel (n : Node) (socket : String) : String := n.name ++ "." ++ socket

/-- The name that tells a node's function apart from those of other nodes. -/
def functionName (n : Node) : String :=
  Naming.identifier n.kind ++ "_" ++ Naming.identifier n.name

/-- The identifiers that the node at `position` needs: its function, the parameters of that
    function, and the locals for its outputs. -/
def claims (n : Node) (position : Nat) : List Claim :=
  { scope := .functions, identifier := n.functionName, owner := n.name }
    :: (n.inputs ++ n.outputs).map (fun decl =>
        { scope := .parameters position
          identifier := Naming.variableName decl.name
          owner := n.socketLabel decl.name })
    ++ n.outputs.map (fun decl =>
        { scope := .entry
          identifier := Naming.localName n.name decl.name
          owner := n.socketLabel decl.name })

end Node

namespace Graph

/-- The identifiers of the graph's own inputs and outputs. -/
def interfaceClaims (g : Graph) : List Claim :=
  (g.inputs ++ g.outputs).map fun decl =>
    { scope := .entry, identifier := Naming.variableName decl.name, owner := decl.name }

/-- All identifiers that the code of a graph needs. -/
def claims (g : Graph) : List Claim :=
  g.interfaceClaims ++ g.nodes.zipIdx.flatMap fun (n, position) => n.claims position

/-- Checks that no identifier is needed twice in a scope. -/
def checkIdentifiers (g : Graph) : Except Error Unit :=
  match Claim.firstClash? [] g.claims with
  | some (first, second) =>
    .error (.identifierCollision second.identifier first.owner second.owner)
  | none => .ok ()

/-! ### Connections -/

/-- The sockets from which a node can be read. -/
def sourceSockets? (g : Graph) (node : String) : Option (List SocketDecl) :=
  if node = inputNode then some g.inputs else (g.node? node).map (·.outputs)

/-- The sockets into which a node can be written. -/
def targetSockets? (g : Graph) (node : String) : Option (List SocketDecl) :=
  if node = outputNode then some g.outputs else (g.node? node).map (·.inputs)

/-- Checks that an endpoint is among the sockets of its node, if there is such a node. -/
def checkEndpoint (endpoint : Endpoint) : Option (List SocketDecl) → Except Error Unit
  | none => .error (.unknownNode endpoint.node)
  | some sockets =>
    if sockets.any (·.name == endpoint.socket) then .ok ()
    else .error (.unknownSocket endpoint.node endpoint.socket)

/-- Checks that both ends of a connection exist, its source first. -/
def checkConnection (g : Graph) (c : Connection) : Except Error Unit := do
  checkEndpoint c.source (g.sourceSockets? c.source.node)
  checkEndpoint c.target (g.targetSockets? c.target.node)

/-- Checks connections, of which those before them have the targets `seen`. -/
def checkConnectionsAfter (g : Graph) (seen : List Endpoint) : List Connection → Except Error Unit
  | [] => .ok ()
  | c :: rest => do
    g.checkConnection c
    if seen.contains c.target then .error (.multipleConnections c.target.node c.target.socket)
    else g.checkConnectionsAfter (c.target :: seen) rest

/-- Checks that the ends of all connections exist and that no input has two connections. -/
def checkConnections (g : Graph) : Except Error Unit := g.checkConnectionsAfter [] g.connections

/-! ### Graphs -/

/-- Checks a graph and reports its first fault. -/
def validate (g : Graph) : Except Error Unit := do
  g.checkNames
  g.checkIdentifiers
  g.checkConnections

end Graph

end ShaderGraph
