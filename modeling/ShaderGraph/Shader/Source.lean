import ShaderGraph.Shader.Program
import ShaderGraph.Shader.Options

/-!
# Source text

The source text of a program: one function per node, then the entry function, which declares the
locals that receive the node outputs, calls the node functions in order and assigns the graph
outputs.

* `NodeCode.functionName`, `NodeCode.functionText` — the function of a node.
* `Program.entryText` — the entry function.
* `Program.source` — the whole text.
-/

namespace ShaderGraph

/-- A text of lines, each with the line break that ends it. -/
def joinLines (lines : List String) : String := String.join (lines.map (· ++ "\n"))

/-- The lines of a function. -/
def functionLines (name : String) (parameters : List Declaration) (body : List String) :
    List String :=
  let signature := "void " ++ name ++ "(" ++ ", ".intercalate (parameters.map (·.text)) ++ ")"
  signature :: "\x7b" :: body ++ ["\x7d"]

/-! ### Node functions -/

namespace NodeCode

/-- The name of a node's function. -/
def functionName (options : Options) (n : NodeCode) : String :=
  options.functionPrefix ++ "_" ++ Naming.identifier n.kind ++ "_" ++ Naming.identifier n.name

/-- The function of a node. -/
def functionText (options : Options) (n : NodeCode) : String :=
  joinLines <| functionLines (n.functionName options) n.parameters <|
    n.operations.map fun o => options.indent ++ o.statement

/-- The comment that names a node, if there is to be one. -/
def comment (options : Options) (n : NodeCode) : List String :=
  if options.nodeComments then [options.indent ++ "// " ++ n.name ++ " (" ++ n.kind ++ ")"]
  else []

/-- The statement that calls a node's function. -/
def call (options : Options) (n : NodeCode) : String :=
  options.indent ++ n.functionName options ++ "(" ++ ", ".intercalate n.arguments ++ ");"

end NodeCode

/-! ### Programs -/

namespace Program

/-- The statements of the entry function. -/
def entryBody (options : Options) (p : Program) : List String :=
  (p.nodes.flatMap (·.locals)).map (fun d => options.indent ++ d.text ++ ";")
    ++ p.nodes.flatMap (fun n => n.comment options ++ [n.call options])
    ++ p.bindings.map (fun o => options.indent ++ o.statement)

/-- The entry function. -/
def entryText (options : Options) (p : Program) : String :=
  joinLines (functionLines options.entryPoint p.parameters (p.entryBody options))

/-- The source text of a program. -/
def source (options : Options) (p : Program) : String :=
  "// Generated by slangvop\n"
    ++ String.join (p.nodes.map fun n => "\n" ++ n.functionText options)
    ++ "\n" ++ p.entryText options

end Program

end ShaderGraph
