import ShaderGraph.CommandLine.Arguments
import ShaderGraph.CommandLine.Files
import ShaderGraph.Compile
import ShaderGraph.Graph.Document
import ShaderGraph.Shader.Options.Document

/-!
# Command line

* `CommandLine.Outcome`, `CommandLine.Failure` — what a run leaves behind, apart from the files
  that it wrote.
* `CommandLine.compileFile` — reads options and a graph, compiles the graph, and writes or prints
  the source text. Nothing is written or printed before all of this has succeeded.
* `CommandLine.Arguments.run`, `CommandLine.run` — what given arguments, or the words of a
  command line, ask for.
-/

namespace ShaderGraph

/-- The text, filled up with blanks to a width of at least `width`. -/
def padRight (width : Nat) (text : String) : String := text.pushn ' ' (width - text.length)

/-- The line that lists an adapter. -/
def Metadata.listing (m : Metadata) : String :=
  padRight 10 m.nodeType ++ " " ++ padRight 10 m.displayName ++ " [" ++ m.category.text ++ "] -> "
    ++ m.outputSocket ++ "  " ++ m.description

namespace CommandLine

/-! ### Texts -/

/-- How to use the program, in one line. -/
def usage : String := "Usage: slangvop [OPTIONS] [GRAPH]"

/-- The answer to a request for help. -/
def helpText : String := joinLines [
  "Compile a VOP node graph into Slang shader source",
  "",
  usage,
  "",
  "Arguments:",
  "  [GRAPH]  Graph description (JSON)",
  "",
  "Options:",
  "  -c, --config <CONFIG>  Compiler configuration (JSON)",
  "  -o, --output <OUTPUT>  Output file, stdout when omitted",
  "      --list-adapters    List the registered node adapters and exit",
  "  -v, --verbose          Verbose output",
  "  -h, --help             Print help",
  "  -V, --version          Print version"]

/-- The answer to a request for the version. -/
def versionText : String := "slangvop 0.1.0\n"

/-- The lines that list the built-in adapters. -/
def adapterList : String := joinLines (Registry.builtin.metadata.map (·.listing))

/-! ### Outcomes -/

/-- Why a run fails. -/
inductive Failure where
  | misuse (cause : UsageError)
  /-- There is nothing to do without a graph. -/
  | noGraph
  /-- The graph could not be read, compiled or written. -/
  | error (cause : Error)
deriving DecidableEq, Repr

namespace Failure

/-- The exit code of a failed run. -/
def exitCode : Failure → Nat
  | misuse _ | noGraph => 2
  | error _ => 1

/-- The text of a failure. -/
def message : Failure → String
  | misuse cause => cause.message
  | noGraph => "a graph file is required unless --list-adapters is given"
  | error cause => cause.message

end Failure

/-- What a run leaves behind. -/
structure Outcome where
  stdout : String := ""
  failure? : Option Failure := none
  log : List Event := []
deriving DecidableEq, Repr

namespace Outcome

/-- The exit code of a run. -/
def exitCode (o : Outcome) : Nat := (o.failure?.map (·.exitCode)).getD 0

/-- A run that fails after the given events. -/
def failed (failure : Failure) (log : List Event) : Outcome := { failure? := some failure, log }

end Outcome

/-! ### Runs -/

section

variable {m : Type → Type} [Monad m] [FileAccess m]

/-- The text in a file. -/
def readText (path : String) : ExceptT Error m String := do
  let content ← (FileAccess.read path : m (Except String String))
  match content with
  | .ok text => return text
  | .error reason => throw (.file reason)

/-- The options in a file, or the default ones without a file. -/
def readOptions (path? : Option String) : ExceptT Error m Options := do
  match path? with
  | none => return {}
  | some path => Options.read (← readText path)

/-- The options and the graph, in this order. -/
def readInputs (a : Arguments) (graphPath : String) : ExceptT Error m (Options × Graph) := do
  let options ← readOptions a.config?
  let graph ← Graph.load (← readText graphPath)
  return (options, graph)

/-- Writes a text to the output file, or prints it if there is none. -/
def deliver (output? : Option String) (source : String) (log : List Event) : m Outcome := do
  match output? with
  | none => return { stdout := source, log }
  | some path =>
    match ← FileAccess.write path source with
    | .ok () => return { log := log ++ [.wrote path] }
    | .error reason => return .failed (.error (.file reason)) log

/-- Compiles the graph in a file. -/
def compileFile (a : Arguments) (graphPath : String) : m Outcome := do
  match ← (readInputs a graphPath).run with
  | .error e => return .failed (.error e) []
  | .ok (options, graph) =>
    let compilation := Registry.builtin.compile graph
    let log := .loaded graph.nodes.length graphPath
      :: (Registry.builtinRegistration.log ++ compilation.log)
    match compilation.result with
    | .error e => return .failed (.error e) log
    | .ok program => deliver a.output? (program.source options) log

/-- Does what the arguments ask for. -/
def Arguments.run (a : Arguments) : m Outcome :=
  if a.listAdapters then
    return { stdout := adapterList, log := Registry.builtinRegistration.log }
  else
    match a.graph? with
    | none => return .failed .noGraph []
    | some path => compileFile a path

/-- Does what the words of a command line ask for. -/
def run (words : List String) : m Outcome :=
  match Arguments.parse words with
  | .error .help => return { stdout := helpText }
  | .error .version => return { stdout := versionText }
  | .error (.misuse cause) => return .failed (.misuse cause) []
  | .ok a => a.run

end

end CommandLine

end ShaderGraph
