import ShaderGraph.Error
import ShaderGraph.Json.Printer
import ShaderGraph.Json.Reader
import ShaderGraph.Json.Record
import ShaderGraph.Shader.Options

/-!
# Options as JSON documents

* `Options.toJson`, `Options.print` — the document of options and its text.
* `Options.read` — the options that a text describes. Every field may be left off and then has its
  default.
-/

namespace ShaderGraph.Options

/-! ### Printing -/

/-- The document of options. -/
def toJson (options : Options) : Json :=
  .ofMembers [("entry_point", .ofText options.entryPoint),
    ("function_prefix", .ofText options.functionPrefix),
    ("indent_width", .ofNat options.indentWidth),
    ("emit_node_comments", .bool options.nodeComments)]

/-- The text of options. -/
def print (options : Options) : String := options.toJson.render

/-! ### Reading -/

/-- The greatest number of blanks, which is the greatest one of 64 bits. -/
def maxIndentWidth : Nat := 0xFFFFFFFFFFFFFFFF

/-- The number of blanks that a document describes. -/
def widthOfJson? (document : Json) : Option Nat :=
  document.natural?.filter (· ≤ maxIndentWidth)

/-- The options that a document describes. -/
def ofJson? (document : Json) : Option Options := do
  let fields ← document.record?
    ["entry_point", "function_prefix", "indent_width", "emit_node_comments"]
  let default : Options := {}
  return {
    entryPoint := ← fields.optional "entry_point" default.entryPoint Json.text?
    functionPrefix := ← fields.optional "function_prefix" default.functionPrefix Json.text?
    indentWidth := ← fields.optional "indent_width" default.indentWidth widthOfJson?
    nodeComments := ← fields.optional "emit_node_comments" default.nodeComments Json.bool? }

/-- The options that a text describes. -/
def read (text : String) : Except Error Options :=
  match (Json.parse? text).bind ofJson? with
  | some options => .ok options
  | none => .error (.document "the text does not describe options")

end ShaderGraph.Options
