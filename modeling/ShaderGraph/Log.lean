import ShaderGraph.Error

/-!
# Logs

What happens during a compilation is recorded as a list of events.

* `Event`, `Event.level`, `Event.message` — a record, its importance and its text.
* `Traced` — a computation that records events and may fail; what was recorded before a failure
  stays recorded.
-/

namespace ShaderGraph

/-! ### Events -/

/-- The importance of an event. -/
inductive Level where
  | error
  | warn
  | info
  | debug
deriving DecidableEq, Repr

/-- The name of a level. -/
def Level.name : Level → String
  | error => "error"
  | warn => "warn"
  | info => "info"
  | debug => "debug"

/-- Something worth a record. -/
inductive Event where
  /-- An adapter was registered for the kind. -/
  | registered (kind : String)
  /-- A node was turned into this number of operations. -/
  | generated (node kind : String) (operations : Nat)
  /-- Nothing reads from a node. -/
  | unused (node kind : String)
  /-- No code could be generated for a node. -/
  | failed (node kind : String) (cause : Error)
  /-- A graph was compiled. -/
  | compiled (nodes operations : Nat)
  /-- A graph with this number of nodes was read from a file. -/
  | loaded (nodes : Nat) (path : String)
  /-- The file was written. -/
  | wrote (path : String)
deriving DecidableEq, Repr

namespace Event

/-- The importance of an event. -/
def level : Event → Level
  | failed .. => .error
  | unused .. => .warn
  | compiled .. | loaded .. | wrote .. => .info
  | registered .. | generated .. => .debug

/-- The text of an event. -/
def message : Event → String
  | registered kind => s!"Registered adapter for node kind '{kind}'"
  | generated node kind operations => s!"Node '{node}' ({kind}) produced {operations} operations"
  | unused node kind => s!"Node '{node}' ({kind}) has no connected outputs"
  | failed node kind cause =>
    s!"Code generation failed for node '{node}' ({kind}): {cause.message}"
  | compiled nodes operations => s!"Compiled {nodes} nodes into {operations} operations"
  | loaded nodes path => s!"Loaded {nodes} nodes from {path}"
  | wrote path => s!"Wrote {path}"

end Event

/-! ### Traced computations -/

/-- The outcome of a computation and the events on the way to it. -/
structure Traced (α : Type) where
  log : List Event
  result : Except Error α

namespace Traced

variable {α β : Type}

/-- A computation without events. -/
def ofExcept (result : Except Error α) : Traced α := { log := [], result }

/-- A computation that records an event. -/
def record (e : Event) : Traced Unit := { log := [e], result := .ok () }

/-- One computation after another; a failure ends both. -/
def andThen (x : Traced α) (f : α → Traced β) : Traced β :=
  match x.result with
  | .ok a =>
    let y := f a
    { log := x.log ++ y.log, result := y.result }
  | .error e => { log := x.log, result := .error e }

/-- A sequence of traced computations has the events of both. -/
instance : Monad Traced where
  pure a := ofExcept (.ok a)
  bind := andThen

/-- A computation that may fail is traced without events. -/
instance : MonadLift (Except Error) Traced where
  monadLift := ofExcept

@[simp] theorem pure_log (a : α) : (pure a : Traced α).log = [] := rfl
@[simp] theorem pure_result (a : α) : (pure a : Traced α).result = .ok a := rfl
@[simp] theorem ofExcept_log (r : Except Error α) : (ofExcept r).log = [] := rfl
@[simp] theorem ofExcept_result (r : Except Error α) : (ofExcept r).result = r := rfl

/-- The result of a sequence is the sequence of the results. -/
@[simp] theorem bind_result (x : Traced α) (f : α → Traced β) :
    (x >>= f).result = x.result >>= fun a => (f a).result := by
  show (andThen x f).result = _
  cases h : x.result <;> simp [andThen, h, bind, Except.bind]

end Traced

end ShaderGraph
