/-!
# Arguments

The words of a command line are read from left to right.

* A word that starts with two hyphens is the long name of a switch, and may carry a value after
  an equals sign.
* A word that starts with one hyphen holds the short names of switches. An option takes the
  rest of the word as its value, without an equals sign in front of it.
* An option without a value in its own word takes the next one, which must not look like a
  switch.
* Two hyphens alone end the switches. Any other word is the path of the graph.

Values are not empty, and nothing may be given twice. Requests for help or the version take
effect as soon as they are read.

* `CommandLine.Arguments`, `CommandLine.Stop` — what is asked for, and why the reading ends early.
* `CommandLine.Reader`, `CommandLine.Reader.step` — the state of the reading and its reaction to a
  word.
* `CommandLine.Arguments.parse` — the arguments that the words give.
-/

namespace ShaderGraph.CommandLine

/-! ### Arguments -/

/-- What a command line asks for. -/
structure Arguments where
  /-- The file that holds the graph. -/
  graph? : Option String := none
  /-- The file that holds the options. -/
  config? : Option String := none
  /-- The file to write. -/
  output? : Option String := none
  listAdapters : Bool := false
  verbose : Bool := false
deriving DecidableEq, Repr

/-- Why a command line makes no sense. -/
inductive UsageError where
  /-- There is no such switch, or no place for one more path. -/
  | unexpected (argument : String)
  /-- The argument needs a value that is not empty. -/
  | missingValue (argument : String)
  /-- The switch takes no value. -/
  | unwantedValue (argument : String)
  /-- The argument is given more than once. -/
  | repeated (argument : String)
deriving DecidableEq, Repr

/-- The text of a usage error. -/
def UsageError.message : UsageError → String
  | unexpected argument => s!"unexpected argument '{argument}' found"
  | missingValue argument => s!"a value is required for '{argument}' but none was supplied"
  | unwantedValue argument => s!"unexpected value for '{argument}' found; no more were expected"
  | repeated argument => s!"the argument '{argument}' cannot be used multiple times"

/-- Why the reading of a command line ends early. -/
inductive Stop where
  | help
  | version
  | misuse (cause : UsageError)
deriving DecidableEq, Repr

/-! ### Switches -/

/-- A switch that takes a value. -/
inductive ValueSwitch where
  | config
  | output
deriving DecidableEq, Repr

/-- A switch. -/
inductive Switch where
  | option (which : ValueSwitch)
  | listAdapters
  | verbose
  | help
  | version
deriving DecidableEq, Repr

namespace Switch

/-- The switch with a long name. -/
def ofLong? (name : String) : Option Switch :=
  match name with
  | "config" => some (option .config)
  | "output" => some (option .output)
  | "list-adapters" => some listAdapters
  | "verbose" => some verbose
  | "help" => some help
  | "version" => some version
  | _ => none

/-- The switch with a short name. -/
def ofShort? (name : Char) : Option Switch :=
  match name with
  | 'c' => some (option .config)
  | 'o' => some (option .output)
  | 'v' => some verbose
  | 'h' => some help
  | 'V' => some version
  | _ => none

end Switch

/-- How messages name a switch with a value. -/
def ValueSwitch.usage : ValueSwitch → String
  | config => "--config <CONFIG>"
  | output => "--output <OUTPUT>"

/-! ### Reading -/

/-- A command line read in part. -/
structure Reader where
  arguments : Arguments := {}
  /-- The switch that takes the next word as its value. -/
  pending? : Option ValueSwitch := none
  /-- Whether the switches have ended. -/
  operandsOnly : Bool := false
deriving DecidableEq, Repr

namespace Reader

/-- Gives a value to a switch. -/
def setValue (r : Reader) (which : ValueSwitch) (value : String) :
    Except Stop Reader :=
  let a := r.arguments
  let old? := match which with
    | .config => a.config?
    | .output => a.output?
  if value.isEmpty then .error (.misuse (.missingValue which.usage))
  else if old?.isSome then .error (.misuse (.repeated which.usage))
  else
    let arguments := match which with
      | .config => { a with config? := some value }
      | .output => { a with output? := some value }
    .ok { r with arguments, pending? := none }

/-- Reads the path of the graph. -/
def setGraph (r : Reader) (path : String) : Except Stop Reader :=
  if path.isEmpty then .error (.misuse (.missingValue "[GRAPH]"))
  else if r.arguments.graph?.isSome then .error (.misuse (.unexpected path))
  else .ok { r with arguments := { r.arguments with graph? := some path } }

/-- Sets a switch that takes no value. -/
def setFlag (r : Reader) (switch : Switch) : Except Stop Reader :=
  let a := r.arguments
  match switch with
  | .listAdapters =>
    if a.listAdapters then .error (.misuse (.repeated "--list-adapters"))
    else .ok { r with arguments := { a with listAdapters := true } }
  | .verbose =>
    if a.verbose then .error (.misuse (.repeated "--verbose"))
    else .ok { r with arguments := { a with verbose := true } }
  | .help => .error .help
  | .version => .error .version
  | .option which => .ok { r with pending? := some which }

/-- Reads a long name and the value after it, if there is one. -/
def long (r : Reader) (name : String) (value? : Option String) :
    Except Stop Reader :=
  match Switch.ofLong? name, value? with
  | none, _ => .error (.misuse (.unexpected ("--" ++ name)))
  | some (.option which), some value => r.setValue which value
  | some _, some _ => .error (.misuse (.unwantedValue ("--" ++ name)))
  | some switch, none => r.setFlag switch

/-- Reads short names. -/
def shorts (r : Reader) : List Char → Except Stop Reader
  | [] => .ok r
  | c :: rest =>
    match Switch.ofShort? c, rest with
    | none, _ => .error (.misuse (.unexpected (String.ofList ['-', c])))
    | some (.option which), '=' :: value => r.setValue which (String.ofList value)
    | some (.option which), value@(_ :: _) => r.setValue which (String.ofList value)
    | some switch, _ =>
      match r.setFlag switch with
      | .ok next => next.shorts rest
      | .error stop => .error stop

/-- Fails if a switch still waits for its value. -/
def settle (r : Reader) : Except Stop Unit :=
  match r.pending? with
  | some which => .error (.misuse (.missingValue which.usage))
  | none => .ok ()

/-- Reads one word. -/
def step (r : Reader) (word : String) : Except Stop Reader :=
  if r.operandsOnly then r.setGraph word
  else
    match word.toList, r.pending? with
    | ['-', '-'], _ => do
      r.settle
      return { r with operandsOnly := true }
    | '-' :: '-' :: rest, _ => do
      r.settle
      let name := String.ofList (rest.takeWhile (· ≠ '='))
      match rest.dropWhile (· ≠ '=') with
      | [] => r.long name none
      | _ :: value => r.long name (some (String.ofList value))
    | '-' :: c :: rest, _ => do
      r.settle
      r.shorts (c :: rest)
    | _, some which => r.setValue which word
    | _, none => r.setGraph word

end Reader

/-- The arguments given by the words of a command line. -/
def Arguments.parse (words : List String) : Except Stop Arguments := do
  let r ← words.foldlM Reader.step {}
  r.settle
  return r.arguments

end ShaderGraph.CommandLine
