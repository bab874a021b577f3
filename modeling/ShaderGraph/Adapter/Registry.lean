import ShaderGraph.Adapter.Arithmetic
import ShaderGraph.Log

/-!
# Registries

A registry holds at most one adapter for a kind, in ascending order of the kinds.

* `Registry.lookup` — the adapter that answers for a kind.
* `Registry.register` — adds an adapter for a new kind.
* `Registry.registerAll` — adds adapters one after another, up to the first that is refused.
* `Registry.builtin` — the arithmetic adapters, `Registry.builtinRegistration` how they got there.
* `Registry.generate` — the operations for a node, by its kind.
-/

namespace ShaderGraph

/-- Adapters by kind. -/
structure Registry where
  /-- The adapters in ascending order of their kinds. -/
  adapters : List Adapter := []

namespace Registry

/-! ### Look-up -/

/-- The adapter for a kind, if there is one. -/
def find? (r : Registry) (kind : String) : Option Adapter := r.adapters.find? (·.kind == kind)

/-- Whether there is an adapter for a kind. -/
def contains (r : Registry) (kind : String) : Bool := (r.find? kind).isSome

/-- The adapter for a kind. -/
def lookup (r : Registry) (kind : String) : Except Error Adapter :=
  match r.find? kind with
  | some a => .ok a
  | none => .error (.unknownKind kind)

/-- The kinds for which there are adapters, in ascending order. -/
def kinds (r : Registry) : List String := r.adapters.map (·.kind)

/-- The descriptions of the adapters, in ascending order of their kinds. -/
def metadata (r : Registry) : List Metadata := r.adapters.map (·.metadata)

/-- The number of adapters. -/
def size (r : Registry) : Nat := r.adapters.length

/-! ### Registration -/

/-- Puts an adapter in front of the first one with a greater kind. -/
def insertByKind (a : Adapter) : List Adapter → List Adapter
  | [] => [a]
  | b :: rest => if a.kind < b.kind then a :: b :: rest else b :: insertByKind a rest

/-- Adds an adapter, for whose kind there must be none. -/
def register (r : Registry) (a : Adapter) : Except Error Registry :=
  if r.contains a.kind then .error (.duplicateAdapter a.kind)
  else .ok { adapters := insertByKind a r.adapters }

/-- The outcome of adding several adapters. -/
structure Registration where
  /-- The registry with the adapters that were added. -/
  registry : Registry
  /-- The kinds of the adapters that were added, in order. -/
  added : List String := []
  /-- Why the next adapter was refused, if one was. -/
  refusal? : Option Error := none

/-- The events of a registration. -/
def Registration.log (outcome : Registration) : List Event := outcome.added.map .registered

/-- Adds adapters one after another. The first refusal ends this; what was added stays. -/
def registerAll (r : Registry) : List Adapter → Registration
  | [] => { registry := r }
  | a :: rest =>
    match r.register a with
    | .error e => { registry := r, refusal? := some e }
    | .ok extended =>
      let outcome := extended.registerAll rest
      { outcome with added := a.kind :: outcome.added }

/-- The registration of the arithmetic adapters in an empty registry. -/
def builtinRegistration : Registration := ({} : Registry).registerAll Adapter.arithmetic

/-- The registry of the arithmetic adapters. -/
def builtin : Registry := builtinRegistration.registry

/-! ### Use -/

/-- The operations for a node of a given kind. Failures carry the node. -/
def generate (r : Registry) (node kind : String) (ctx : Context) :
    Except Error (List Operation) :=
  ((r.lookup kind).bind (·.generate ctx)).mapError (·.inNode node kind)

end Registry

end ShaderGraph
