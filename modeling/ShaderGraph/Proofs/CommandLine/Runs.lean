import ShaderGraph.CommandLine.Run
import ShaderGraph.Proofs.CommandLine.Files
import ShaderGraph.Proofs.Results

namespace ShaderGraph.CommandLine

/-!
# Runs

The command line does everything it is asked for or nothing. It reads its files first, then it
computes, and only when both have succeeded does it write or print.

* `Reads` — a computation that leaves the files alone. Its results, in sequence, are those of the
  computations that it consists of: `Reads.bind`.
* `optionsAt`, `graphAt` — what a run finds in its files.
* `Refused`, `Printed`, `Saved` — the ends of a run.
* `run_compileFile_of_error`, `run_compileFile_of_ok` — how a run goes on once it has read its
  files.
* `AllOrNothing` — which end a run should have; `run_all_or_nothing` says that it has it, for all
  arguments and on all files.
-/

variable {σ α β : Type}

/-! ### Reading -/

/-- A run goes on with the result and the state of its first part. -/
theorem run_bind_of_run_eq {x : StateM σ α} {f : α → StateM σ β} {s s' : σ} {a : α}
    (h : x.run s = (a, s')) : (x >>= f).run s = (f a).run s' := by
  rw [StateT.run_bind, h]
  rfl

/-- In the state `s`, the computation gives the result and leaves everything as it is. -/
def Reads (x : ExceptT Error (StateM σ) α) (s : σ) (result : Except Error α) : Prop :=
  x.run.run s = (result, s)

namespace Reads

variable {x : ExceptT Error (StateM σ) α} {s : σ} {result : Except Error α}

/-- What succeeds or fails in itself leaves everything as it is. -/
theorem lift (result : Except Error α) (s : σ) : Reads (liftM result) s result := rfl

/-- Reading in two parts is reading. -/
theorem bind {f : α → ExceptT Error (StateM σ) β} {g : α → Except Error β} (hx : Reads x s result)
    (hf : ∀ a, Reads (f a) s (g a)) : Reads (x >>= f) s (result >>= g) := by
  have hrun : (x >>= f).run.run s = (ExceptT.bindCont f result).run s := by
    show (x.run >>= ExceptT.bindCont f).run s = _
    exact run_bind_of_run_eq hx
  cases result with
  | error e => exact hrun
  | ok a => exact hrun.trans (hf a)

end Reads

section Inputs

variable [FileView σ]

/-- The text in a file. -/
def textAt (s : σ) (path : String) : Except Error String := (FileView.reading s path).mapError .file

/-- The options in a file, or the default ones without a file. -/
def optionsAt (s : σ) (path? : Option String) : Except Error Options :=
  match path? with
  | none => .ok {}
  | some path => textAt s path >>= Options.read

/-- The valid graph in a file. -/
def graphAt (s : σ) (path : String) : Except Error Graph := textAt s path >>= Graph.load

variable [FileAccess (StateM σ)] [LawfulFileAccess σ]

/-- A text is read as it is in the file. -/
theorem reads_readText (path : String) (s : σ) : Reads (readText path) s (textAt s path) := by
  have hcontent : Reads (liftM (FileAccess.read path : StateM σ (Except String String))) s
      (.ok (FileView.reading s path)) := by
    show (Except.ok <$> (FileAccess.read path : StateM σ (Except String String))).run s = _
    rw [StateT.run_map, LawfulFileAccess.run_read]
    rfl
  refine hcontent.bind (g := Except.mapError .file) fun content => ?_
  cases content with
  | ok text => rfl
  | error reason => rfl

/-- Options are read from their file, if there is a path to one. -/
theorem reads_readOptions (path? : Option String) (s : σ) :
    Reads (readOptions path?) s (optionsAt s path?) := by
  cases path? with
  | none => rfl
  | some path => exact (reads_readText path s).bind fun text => Reads.lift (Options.read text) s

/-- The options are read first, and then the graph. -/
theorem reads_readInputs (a : Arguments) (path : String) (s : σ) :
    Reads (readInputs a path) s (do
      let options ← optionsAt s a.config?
      let graph ← graphAt s path
      return (options, graph)) := by
  -- The graph is read only if there are options, so their failure comes first.
  refine (reads_readOptions a.config? s).bind fun options => ?_
  rw [graphAt, bind_assoc]
  refine (reads_readText path s).bind fun text => ?_
  exact (Reads.lift (Graph.load text) s).bind fun graph => rfl

end Inputs

/-! ### Ends of runs -/

/-- The run has failed with an error, and neither printed nor written anything. -/
structure Refused (s : σ) (e : Error) (run : Outcome × σ) : Prop where
  exitCode : run.1.exitCode = 1
  failure : run.1.failure? = some (.error e)
  stdout : run.1.stdout = ""
  files : run.2 = s

/-- The run has printed a text and written nothing. -/
structure Printed (s : σ) (text : String) (run : Outcome × σ) : Prop where
  exitCode : run.1.exitCode = 0
  stdout : run.1.stdout = text
  files : run.2 = s

/-- The run has printed nothing, and the file to which the path leads has got the text. -/
structure Saved [FileView σ] (s : σ) (path text : String) (run : Outcome × σ) : Prop where
  exitCode : run.1.exitCode = 0
  stdout : run.1.stdout = ""
  files : ∃ place, FileView.place? s path = some place ∧ Replaced s place text run.2

/-- A failure is refused with its message, and nothing has been written. -/
theorem refused_failed (s : σ) (e : Error) (log : List Event) :
    Refused s e (Outcome.failed (.error e) log, s) := ⟨rfl, rfl, rfl, rfl⟩

/-! ### Stages -/

section Stages

variable [FileAccess (StateM σ)] {a : Arguments} {path : String} {s : σ}

/-- The log of a run up to the compilation of the graph. -/
def compilationLog (path : String) (g : Graph) : List Event :=
  .loaded g.nodes.length path
    :: (Registry.builtinRegistration.log ++ (Registry.builtin.compile g).log)

/-- Without its inputs, a compilation ends with the failure to read them. -/
theorem run_compileFile_of_error {e : Error} (h : Reads (readInputs a path) s (.error e)) :
    (compileFile a path : StateM σ Outcome).run s = (.failed (.error e) [], s) :=
  run_bind_of_run_eq h

/-- Once the options and the graph are read, they are compiled, and what comes out is delivered. -/
theorem run_compileFile_of_ok {options : Options} {g : Graph}
    (h : Reads (readInputs a path) s (.ok (options, g))) :
    (compileFile a path : StateM σ Outcome).run s =
      match compileToSource options g with
      | .error e => (.failed (.error e) (compilationLog path g), s)
      | .ok text => (deliver a.output? text (compilationLog path g) : StateM σ Outcome).run s := by
  refine (run_bind_of_run_eq h).trans ?_
  simp only [compileToSource]
  cases (Registry.builtin.compile g).result <;> rfl

/-- The text goes to the output file, and the run fails if it cannot be written. -/
theorem run_deliver {output text : String} {log : List Event} {s' : σ} {result : Except String Unit}
    (h : (FileAccess.write output text : StateM σ (Except String Unit)).run s = (result, s')) :
    (deliver (some output) text log : StateM σ Outcome).run s =
      (match result with
        | .ok () => { log := log ++ [.wrote output] }
        | .error reason => .failed (.error (.file reason)) log, s') := by
  refine (run_bind_of_run_eq h).trans ?_
  cases result <;> rfl

end Stages

/-! ### Runs -/

section Runs

variable [FileAccess (StateM σ)] [FileView σ]

/-- The run has the end that it should have when it starts in the state `s` with the graph at
    `path`. An error in the options comes before one in the graph, which comes before one of the
    compilation. Without errors, the text is printed or goes to the output file. If it cannot be
    written there, the run fails. -/
structure AllOrNothing (a : Arguments) (path : String) (s : σ) (run : Outcome × σ) : Prop where
  options : ∀ {e : Error}, optionsAt s a.config? = .error e → Refused s e run
  graph : ∀ {options : Options} {e : Error}, optionsAt s a.config? = .ok options →
    graphAt s path = .error e → Refused s e run
  compilation : ∀ {options : Options} {g : Graph} {e : Error}, optionsAt s a.config? = .ok options →
    graphAt s path = .ok g → compileToSource options g = .error e → Refused s e run
  printed : ∀ {options : Options} {g : Graph} {text : String}, optionsAt s a.config? = .ok options →
    graphAt s path = .ok g → compileToSource options g = .ok text → a.output? = none →
    Printed s text run
  saved : ∀ {options : Options} {g : Graph} {text output : String} {s' : σ},
    optionsAt s a.config? = .ok options → graphAt s path = .ok g →
    compileToSource options g = .ok text → a.output? = some output →
    (FileAccess.write output text : StateM σ (Except String Unit)).run s = (.ok (), s') →
    Saved s output text run
  unsaved : ∀ {options : Options} {g : Graph} {text output reason : String} {s' : σ},
    optionsAt s a.config? = .ok options → graphAt s path = .ok g →
    compileToSource options g = .ok text → a.output? = some output →
    (FileAccess.write output text : StateM σ (Except String Unit)).run s = (.error reason, s') →
    run.1.exitCode = 1 ∧ run.1.stdout = "" ∧ run.2 = s'

variable [LawfulFileAccess σ]

/-- A compilation of a file does all that it should or changes nothing. -/
theorem allOrNothing_compileFile (a : Arguments) (path : String) (s : σ) :
    AllOrNothing a path s ((compileFile a path : StateM σ Outcome).run s) := by
  -- How the run ends is a matter of what it reads. Until then it has written nothing.
  have hreads := reads_readInputs a path s
  have hinputs : ∀ {options : Options} {g : Graph}, optionsAt s a.config? = .ok options →
      graphAt s path = .ok g → Reads (readInputs a path) s (.ok (options, g)) := by
    intro options g hoptions hgraph
    rwa [hoptions, hgraph] at hreads
  have hdeliver :
      ∀ {options : Options} {g : Graph} {text : String}, optionsAt s a.config? = .ok options →
      graphAt s path = .ok g → compileToSource options g = .ok text →
      (compileFile a path : StateM σ Outcome).run s =
        (deliver a.output? text (compilationLog path g) : StateM σ Outcome).run s := by
    intro options g text hoptions hgraph htext
    rw [run_compileFile_of_ok (hinputs hoptions hgraph), htext]
  constructor
  case options =>
    intro e hoptions
    rw [hoptions] at hreads
    rw [run_compileFile_of_error hreads]
    exact refused_failed s e _
  case graph =>
    intro options e hoptions hgraph
    rw [hoptions, hgraph] at hreads
    rw [run_compileFile_of_error hreads]
    exact refused_failed s e _
  case compilation =>
    intro options g e hoptions hgraph herror
    rw [run_compileFile_of_ok (hinputs hoptions hgraph), herror]
    exact refused_failed s e _
  case printed =>
    intro options g text hoptions hgraph htext hnone
    rw [hdeliver hoptions hgraph htext, hnone]
    exact ⟨rfl, rfl, rfl⟩
  case saved =>
    intro options g text output s' hoptions hgraph htext hsome hwrite
    rw [hdeliver hoptions hgraph htext, hsome, run_deliver hwrite]
    exact ⟨rfl, rfl, LawfulFileAccess.replaced_of_write hwrite⟩
  case unsaved =>
    intro options g text output reason s' hoptions hgraph htext hsome hwrite
    rw [hdeliver hoptions hgraph htext, hsome, run_deliver hwrite]
    exact ⟨rfl, rfl, rfl⟩

end Runs

/-- A run that lists adapters does nothing else. -/
theorem run_of_listAdapters {m : Type → Type} [Monad m] [FileAccess m] {a : Arguments}
    (h : a.listAdapters = true) :
    (a.run : m Outcome) = pure { stdout := adapterList, log := Registry.builtinRegistration.log } :=
  if_pos h

/-- Any other run needs a graph and compiles its file. -/
theorem run_of_not_listAdapters {m : Type → Type} [Monad m] [FileAccess m] {a : Arguments}
    (h : a.listAdapters = false) : (a.run : m Outcome) =
      match a.graph? with
      | none => pure (.failed .noGraph [])
      | some path => compileFile a path :=
  if_neg (Bool.eq_false_iff.mp h)

/-- **All or nothing.** The list of adapters is printed without a look at any file, and so is the
    failure without a path. A run with a graph changes no file and prints nothing if the options or
    the graph cannot be read or the graph cannot be compiled. Otherwise it prints the source text of
    this graph with these options, or replaces the output file by it and nothing else. This is so in
    all states of all file systems in which reading changes nothing and writing replaces a file. -/
theorem run_all_or_nothing (a : Arguments) :
    (a.listAdapters = true → ∃ o : Outcome, o.exitCode = 0 ∧ o.stdout = adapterList ∧
      ∀ (m : Type → Type) [Monad m] [FileAccess m], (a.run : m Outcome) = pure o) ∧
    (a.listAdapters = false → a.graph? = none → ∃ o : Outcome, o.exitCode = 2 ∧ o.stdout = "" ∧
      ∀ (m : Type → Type) [Monad m] [FileAccess m], (a.run : m Outcome) = pure o) ∧
    ∀ path, a.listAdapters = false → a.graph? = some path →
      ∀ (σ : Type) [FileAccess (StateM σ)] [FileView σ] [LawfulFileAccess σ] (s : σ),
        AllOrNothing a path s ((a.run : StateM σ Outcome).run s) := by
  refine ⟨fun hlist => ?_, fun hlist hgraph => ?_, fun path hlist hgraph σ _ _ _ s => ?_⟩
  · exact ⟨_, rfl, rfl, fun m _ _ => run_of_listAdapters hlist⟩
  · exact ⟨_, rfl, rfl, fun m _ _ => by rw [run_of_not_listAdapters hlist, hgraph]⟩
  · rw [run_of_not_listAdapters hlist, hgraph]
    exact allOrNothing_compileFile a path s

/-- A directory with a graph, options, and a file that is no text. -/
def workplace : Directory :=
  { files := [
      { path := ["in", "graph.json"]
        content? := some "[[[\"gain\", \"float\"]], [[\"result\", \"float\"]], [],
          [[\"subinput\", \"gain\", \"suboutput\", \"result\"]]]" },
      { path := ["options.json"], content? := some "[\"shade\"]" },
      { path := ["in", "photo"], content? := none }] }

/-- The graph in the directory. -/
def gain : Graph :=
  { inputs := [⟨"gain", "float"⟩]
    outputs := [⟨"result", "float"⟩]
    connections := [⟨⟨"subinput", "gain"⟩, ⟨"suboutput", "result"⟩⟩] }

/-- The source text of this graph with the options in the directory. -/
def gainSource : String :=
  "// Generated by slangvop\n\nvoid shade(float _gain, out float _result)\n" ++
    "\x7b\n    _result = _gain;\n\x7d\n"

/-- The output file is the file of the graph, by another path. Without options there is no such run,
    whether or not there is a graph. -/
theorem run_all_or_nothing_workplace :
    optionsAt workplace (some "options.json") = .ok { entryPoint := "shade" } ∧
    graphAt workplace "in/graph.json" = .ok gain ∧
    compileToSource { entryPoint := "shade" } gain = .ok gainSource ∧
    Saved workplace "./in//graph.json" gainSource
      ((({ graph? := some "in/graph.json"
           config? := some "options.json"
           output? := some "./in//graph.json" } : Arguments).run :
             StateM Directory Outcome).run workplace) ∧
    Refused workplace (.document "the text does not describe options")
      ((({ graph? := some "in/photo"
           config? := some "in/graph.json"
           output? := some "./in//graph.json" } : Arguments).run :
             StateM Directory Outcome).run workplace) ∧
    (∃ o : Outcome, o.exitCode = 2 ∧ o.stdout = "" ∧
      (({} : Arguments).run : StateM Directory Outcome) = pure o) ∧
    ∃ o : Outcome, o.exitCode = 0 ∧ o.stdout = adapterList ∧
      (({ listAdapters := true } : Arguments).run : StateM Directory Outcome) = pure o := by
  have hoptions : optionsAt workplace (some "options.json") = .ok { entryPoint := "shade" } := by
    decide +kernel
  have hgraph : graphAt workplace "in/graph.json" = .ok gain := by decide +kernel
  have htext : compileToSource { entryPoint := "shade" } gain = .ok gainSource := by decide +kernel
  have herror : optionsAt workplace (some "in/graph.json") =
      .error (.document "the text does not describe options") := by decide +kernel
  refine ⟨hoptions, hgraph, htext, ?_, ?_, ?_, ?_⟩
  · obtain ⟨d', hwrite⟩ : ∃ d', workplace.write? "./in//graph.json" gainSource = some d' :=
      Option.isSome_iff_exists.mp (by decide +kernel)
    obtain ⟨-, -, hrun⟩ := run_all_or_nothing
      { graph? := some "in/graph.json", config? := some "options.json",
        output? := some "./in//graph.json" }
    exact (hrun _ rfl rfl Directory workplace).saved hoptions hgraph htext rfl
      (by rw [Directory.run_write, hwrite])
  · obtain ⟨-, -, hrun⟩ := run_all_or_nothing
      { graph? := some "in/photo", config? := some "in/graph.json",
        output? := some "./in//graph.json" }
    exact (hrun _ rfl rfl Directory workplace).options herror
  · obtain ⟨-, hnone, -⟩ := run_all_or_nothing {}
    obtain ⟨o, hcode, hstdout, hpure⟩ := hnone rfl rfl
    exact ⟨o, hcode, hstdout, hpure _⟩
  · obtain ⟨hlist, -⟩ := run_all_or_nothing { listAdapters := true }
    obtain ⟨o, hcode, hstdout, hpure⟩ := hlist rfl
    exact ⟨o, hcode, hstdout, hpure _⟩

end ShaderGraph.CommandLine
