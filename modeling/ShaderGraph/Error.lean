import ShaderGraph.DataType

/-!
# Errors

Every failure stops the compilation of the graph at hand. A failure that arises while a certain
node is processed carries that node's name and kind, so that the host can point at it.

* `Error.message` — the text of an error.
* `Error.inNode` — attaches a node to an error, once.
* `Error.rootCause`, `Error.identity?` — the two ways to look into such an error.
-/

namespace ShaderGraph

/-- Why a graph could not be read, checked or compiled. -/
inductive Error where
  /-- The host has no data type of this name. -/
  | unknownType (name : String)
  /-- The shading language has no spelling for the type. -/
  | unsupportedType (type : DataType)
  /-- No adapter answers for the kind. -/
  | unknownKind (kind : String)
  /-- Another adapter answers for the kind already. -/
  | duplicateAdapter (kind : String)
  /-- The context of a node lacks the socket. -/
  | missingSocket (name : String)
  /-- An adapter was used against its rules. -/
  | contractViolation (reason : String)
  /-- The cause arose in the node of this name and kind. -/
  | node (name kind : String) (cause : Error)
  /-- The graph has no node of this name. -/
  | unknownNode (name : String)
  /-- The node has no such socket. -/
  | unknownSocket (node socket : String)
  /-- The node's name is taken or reserved. -/
  | duplicateNode (name : String)
  /-- Two names of the host give one identifier. -/
  | identifierCollision (identifier first second : String)
  /-- The input is the target of several connections. -/
  | multipleConnections (node socket : String)
  /-- The nodes depend on each other in a circle. -/
  | cycle
  /-- Nothing is connected to the graph output. -/
  | unboundOutput (name : String)
  /-- A file could not be read or written. -/
  | file (reason : String)
  /-- A text is no JSON document of the expected form. -/
  | document (reason : String)
deriving DecidableEq, Repr

namespace Error

/-- The text of an error. -/
def message : Error → String
  | unknownType name => s!"Unknown socket data type '{name}'"
  | unsupportedType type => s!"Data type {type.label} has no Slang representation"
  | unknownKind kind => s!"No adapter registered for node kind '{kind}'"
  | duplicateAdapter kind => s!"An adapter for node kind '{kind}' is already registered"
  | missingSocket name => s!"Socket '{name}' not found in node context"
  | contractViolation reason => s!"Contract violation: {reason}"
  | node name kind cause => s!"Node '{name}' ({kind}): {cause.message}"
  | unknownNode name => s!"Unknown node '{name}'"
  | unknownSocket owner socket => s!"Node '{owner}' has no socket named '{socket}'"
  | duplicateNode name => s!"Duplicate node name '{name}'"
  | identifierCollision identifier first second =>
    s!"'{first}' and '{second}' both generate the identifier '{identifier}'"
  | multipleConnections owner socket =>
    s!"Input '{socket}' on node '{owner}' is connected more than once"
  | cycle => "Cycle detected in node graph"
  | unboundOutput name => s!"Graph output '{name}' is not connected"
  | file reason => s!"IO error: {reason}"
  | document reason => s!"JSON error: {reason}"

/-- Attaches the node that was being processed. An error that names a node already stays as
    it is. -/
def inNode (name kind : String) : Error → Error
  | node n k cause => node n k cause
  | e => node name kind e

/-- The innermost error, below every node attached to it. -/
def rootCause : Error → Error
  | node _ _ cause => cause.rootCause
  | e => e

/-- The name and kind of the node attached to an error. -/
def identity? : Error → Option (String × String)
  | node name kind _ => some (name, kind)
  | _ => none

/-- The first identity stays. -/
@[simp] theorem inNode_inNode (n k n' k' : String) (e : Error) :
    (e.inNode n k).inNode n' k' = e.inNode n k := by
  cases e <;> rfl

/-- An identity does not change the cause. -/
@[simp] theorem rootCause_inNode (n k : String) (e : Error) :
    (e.inNode n k).rootCause = e.rootCause := by
  cases e <;> simp [inNode, rootCause]

end Error

end ShaderGraph
