/-!
# Options

What a user may choose about the source text of a program.
-/

namespace ShaderGraph

/-- Choices about the text of a program. -/
structure Options where
  /-- The name of the entry function. -/
  entryPoint : String := "shade"
  /-- The first part of the names of node functions. -/
  functionPrefix : String := "vop"
  /-- The number of blanks in front of a statement. -/
  indentWidth : Nat := 4
  /-- Whether each call of a node function follows a comment that names the node. -/
  nodeComments : Bool := true
deriving DecidableEq, Repr

/-- The blanks in front of a statement. -/
def Options.indent (options : Options) : String := "".pushn ' ' options.indentWidth

end ShaderGraph
