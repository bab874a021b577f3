import ShaderGraph.Adapter.Registry
import ShaderGraph.Graph.Order
import ShaderGraph.Graph.Validity
import ShaderGraph.Log
import ShaderGraph.Shader.Source

/-!
# Compilation

A graph is checked, its nodes are put into execution order, and each is turned into a function
and a call by the adapter of its kind. The first failure ends the compilation.

* `Graph.interface` — the parameters of the entry function.
* `Graph.nodeCode`, `Registry.compileNode` — the code of a node, once its operations are known
  and from its adapter.
* `Graph.binding`, `Graph.bindings` — the assignments to the graph outputs.
* `Registry.compile` — the program of a graph, with the log of its compilation.
* `compileToSource` — the source text of a graph with the built-in adapters.
-/

namespace ShaderGraph

/-! ### Interface and bindings -/

namespace Graph

/-- The parameter that stands for a declared socket. -/
def parameter (direction : Direction) (decl : SocketDecl) : Except Error Declaration :=
  (decl.resolve direction).bind Declaration.ofSocket

/-- The parameters of the entry function: graph inputs, then graph outputs. -/
def interface (g : Graph) : Except Error (List Declaration) := do
  let inputs ← g.inputs.mapM (parameter .input)
  let outputs ← g.outputs.mapM (parameter .output)
  return inputs ++ outputs

/-- The assignment to a graph output. -/
def binding (g : Graph) (output : SocketDecl) : Except Error Operation :=
  match g.incoming? ⟨outputNode, output.name⟩ with
  | some c => .ok (.assign (Naming.variableName output.name) (.var (sourceVariable c)))
  | none => .error (.unboundOutput output.name)

/-- The assignments to the graph outputs. -/
def bindings (g : Graph) : Except Error (List Operation) := g.outputs.mapM g.binding

/-! ### Nodes -/

/-- The argument that is passed to an input of a node. -/
def inputArgument (g : Graph) (n : Node) (input : Socket) : Except Error String :=
  match g.incoming? ⟨n.name, input.name⟩ with
  | some c => .ok (sourceVariable c)
  | none => .error (.missingSocket input.name)

/-- The local variable that receives an output of a node. -/
def outputLocal (n : Node) (output : Socket) : Except Error Declaration :=
  Declaration.localFor (Naming.localName n.name output.name) output

/-- The code of a node with the given sockets and operations. -/
def nodeCode (g : Graph) (n : Node) (ctx : Context) (operations : List Operation) :
    Except Error NodeCode := do
  let parameters ← ctx.parameters.mapM Declaration.ofSocket
  let arguments ← ctx.inputs.mapM (g.inputArgument n)
  let locals ← ctx.outputs.mapM (outputLocal n)
  return {
    name := n.name
    kind := n.kind
    parameters
    operations
    arguments := arguments ++ locals.map (·.name)
    locals }

end Graph

/-- Attaches a node to the failure of a computation and records the failure. -/
def Traced.inNode {α : Type} (n : Node) (x : Traced α) : Traced α :=
  match x.result with
  | .ok _ => x
  | .error e =>
    { log := x.log ++ [.failed n.name n.kind e], result := .error (e.inNode n.name n.kind) }

namespace Registry

/-- The code of a node, with failures as they arise. -/
def nodeCode (r : Registry) (g : Graph) (n : Node) : Traced NodeCode := do
  let ctx ← g.context n
  let adapter ← r.lookup n.kind
  let operations ← adapter.generate ctx
  Traced.record (.generated n.name n.kind operations.length)
  let code ← g.nodeCode n ctx operations
  unless g.hasConsumers n.name do
    Traced.record (.unused n.name n.kind)
  return code

/-- The code of a node. Failures carry the node. -/
def compileNode (r : Registry) (g : Graph) (n : Node) : Traced NodeCode :=
  (r.nodeCode g n).inNode n

/-! ### Graphs -/

/-- The program of a graph. -/
def compile (r : Registry) (g : Graph) : Traced Program := do
  g.validate
  let order ← g.executionOrder
  let parameters ← g.interface
  let nodes ← (g.nodesAt order).mapM (r.compileNode g)
  let bindings ← g.bindings
  let program : Program := { parameters, nodes, bindings }
  Traced.record (.compiled nodes.length program.operations.length)
  return program

end Registry

/-- The source text of a graph, generated by the built-in adapters. -/
def compileToSource (options : Options) (g : Graph) : Except Error String :=
  (Registry.builtin.compile g).result.map (·.source options)

end ShaderGraph
