import ShaderGraph.Context
import ShaderGraph.Shader.Expr

/-!
# Adapters

An adapter turns the sockets of a node into operations. It answers for one kind of nodes.

* `Category`, `Metadata` — what a listing shows of an adapter.
* `Adapter`, `Adapter.generate` — an adapter, and all operations that it generates for a node. The
  kind under which an adapter is found and the type of nodes that its description shows are two
  things, and nothing keeps them the same.
-/

namespace ShaderGraph

/-! ### Descriptions -/

/-- A place in a hierarchy of adapters, from the outermost group inwards. -/
structure Category where
  path : List String
deriving DecidableEq, Repr

namespace Category

/-- The name of the innermost group; the root has none. -/
def name (c : Category) : String := c.path.getLastD ""

/-- The category as it is listed. -/
def text (c : Category) : String := " > ".intercalate c.path

end Category

/-- A description of an adapter. -/
structure Metadata where
  /-- The type of nodes that a listing shows. -/
  nodeType : String
  displayName : String
  category : Category
  description : String
  /-- The output to which the adapter writes its result, if it has a fixed one. -/
  outputSocket : String := ""
deriving DecidableEq, Repr

/-! ### Adapters -/

/-- A generator of code for the nodes of one kind. -/
structure Adapter where
  /-- The kind of the nodes for which the adapter answers. -/
  kind : String
  /-- What a listing shows of the adapter. -/
  metadata : Metadata
  /-- The operations that come before all others. -/
  preamble : Context → Except Error (List Operation) := fun _ => .ok []
  /-- The operations that do the work of the node. -/
  emit : Context → Except Error (List Operation)

/-- The operations for a node: the preamble, then the others. -/
def Adapter.generate (a : Adapter) (ctx : Context) : Except Error (List Operation) := do
  let preamble ← a.preamble ctx
  let body ← a.emit ctx
  return preamble ++ body

end ShaderGraph
