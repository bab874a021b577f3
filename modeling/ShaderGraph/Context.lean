import ShaderGraph.Socket

/-!
# Contexts

The context of a node holds its sockets while code is generated for it. Inputs and outputs form
two lists in declaration order, each keyed by name; the order of the inputs is the order of the
operands.

* `Socket.put` — adds a socket to such a list: in place of the one with its name, at the end
  otherwise.
* `Context.add` — adds a socket on the side that its direction asks for.
* `Context.input`, `Context.output` — the socket of a name.
* `Context.parameters` — all sockets, inputs first.
-/

namespace ShaderGraph

/-- Adds a socket to a list keyed by name. A socket of the same name gives its place up, and a
    new name goes to the end. -/
def Socket.put (socket : Socket) : List Socket → List Socket
  | [] => [socket]
  | s :: rest => if s.name = socket.name then socket :: rest else s :: socket.put rest

/-- The sockets of one node. -/
structure Context where
  inputs : List Socket := []
  outputs : List Socket := []
deriving DecidableEq, Repr

namespace Context

/-- Adds a socket; those that pass values both ways count as outputs. -/
def add (ctx : Context) (socket : Socket) : Context :=
  match socket.direction with
  | .input => { ctx with inputs := socket.put ctx.inputs }
  | .output | .inOut => { ctx with outputs := socket.put ctx.outputs }

/-- Adds an input of the type that the host calls `typeName`. -/
def withInput (ctx : Context) (name typeName : String) : Except Error Context :=
  (Socket.resolve name typeName .input).map ctx.add

/-- Adds an output of the type that the host calls `typeName`. -/
def withOutput (ctx : Context) (name typeName : String) : Except Error Context :=
  (Socket.resolve name typeName .output).map ctx.add

/-- The socket called `name` among `sockets`. -/
def find (name : String) (sockets : List Socket) : Except Error Socket :=
  match sockets.find? (·.name == name) with
  | some socket => .ok socket
  | none => .error (.missingSocket name)

/-- The input called `name`. -/
def input (ctx : Context) (name : String) : Except Error Socket := find name ctx.inputs

/-- The output called `name`. -/
def output (ctx : Context) (name : String) : Except Error Socket := find name ctx.outputs

/-- All sockets in the order of the parameters: inputs, then outputs. -/
def parameters (ctx : Context) : List Socket := ctx.inputs ++ ctx.outputs

end Context

end ShaderGraph
