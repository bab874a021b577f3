import ShaderGraph.Main
import ShaderGraph.Proofs.Building
import ShaderGraph.Proofs.Collisions
import ShaderGraph.Proofs.CommandLine.Runs
import ShaderGraph.Proofs.CompilationLog
import ShaderGraph.Proofs.ConnectionOrder
import ShaderGraph.Proofs.ContextHistory
import ShaderGraph.Proofs.DocumentForms
import ShaderGraph.Proofs.ExpressionGrammar
import ShaderGraph.Proofs.Extension
import ShaderGraph.Proofs.Failures
import ShaderGraph.Proofs.Folding
import ShaderGraph.Proofs.Identifiers
import ShaderGraph.Proofs.Parentheses
import ShaderGraph.Proofs.PlacementSafety
import ShaderGraph.Proofs.Preservation
import ShaderGraph.Proofs.Rebuilding
import ShaderGraph.Proofs.RegistryHistory
import ShaderGraph.Proofs.Reordering
import ShaderGraph.Proofs.SnakeCase
import ShaderGraph.Proofs.SourceReader
