import ShaderGraph.Adapter.Basic

/-!
# Arithmetic adapters

The arithmetic nodes take any number of inputs and combine them from the left: `a - b - c` for a
subtraction of three inputs.

* `combine` — the left-nested expression over a list of variables.
* `foldInputs` — the assignment of the combined inputs to an output.
* `Adapter.add`, `Adapter.subtract`, `Adapter.multiply`, `Adapter.divide` — the adapters, all of
  them in `Adapter.arithmetic`.
-/

namespace ShaderGraph

/-! ### Folding inputs -/

/-- The left-nested expression that combines `first` with the variables after it. -/
def combine (op : Operator) (first : String) (others : List String) : Expr :=
  others.foldl (fun lhs name => .binary op lhs (.var name)) (.var first)

/-- The name that a lone input must have. -/
def loneInput : String := "input1"

/-- The value of a node that combines its inputs. A lone input is copied. -/
def foldedValue (ctx : Context) (op : Operator) (first : Socket) (others : List Socket) :
    Except Error Expr :=
  match others with
  | [] => (ctx.input loneInput).map fun socket => .var socket.varName
  | _ => .ok (combine op first.varName (others.map (·.varName)))

/-- Assigns the combined inputs of a node to its output called `output`. -/
def foldInputs (ctx : Context) (op : Operator) (output : String) :
    Except Error (List Operation) :=
  match ctx.inputs with
  | [] => .error (.contractViolation s!"node writing '{output}' requires at least one bound input")
  | first :: others => do
    let target ← ctx.output output
    let value ← foldedValue ctx op first others
    return [.assign target.varName value]

/-! ### The adapters -/

namespace Adapter

/-- The category of the arithmetic adapters. -/
def math : Category := { path := ["Math"] }

/-- An adapter that folds the inputs of a node with an operator. -/
def folding (op : Operator) (kind displayName outputSocket description : String) : Adapter where
  kind := kind
  metadata := { nodeType := kind, displayName, category := math, description, outputSocket }
  emit ctx := foldInputs ctx op outputSocket

/-- Sums. -/
def add : Adapter := folding .add "add" "Add" "sum" "Adds all connected inputs together"

/-- Differences. -/
def subtract : Adapter :=
  folding .subtract "subtract" "Subtract" "diff" "Subtracts the remaining inputs from the first"

/-- Products. -/
def multiply : Adapter :=
  folding .multiply "multiply" "Multiply" "product" "Multiplies all connected inputs together"

/-- Quotients. -/
def divide : Adapter :=
  folding .divide "divide" "Divide" "div" "Divides the first input by the remaining inputs"

/-- The arithmetic adapters in the order of their registration. -/
def arithmetic : List Adapter := [add, subtract, multiply, divide]

end Adapter

end ShaderGraph
