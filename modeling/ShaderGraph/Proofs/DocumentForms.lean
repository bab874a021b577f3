import ShaderGraph.Proofs.GraphDocuments
import ShaderGraph.Shader.Options.Document

namespace ShaderGraph

/-!
# Forms of documents

What is read of a document depends on the known fields of its records alone: neither on their order,
on unknown fields and on blanks, nor on whether a record is an object or an array and whether
defaults are written out. A known field must not occur twice in an object, though.

* `Options.WrittenAs`, `Options.read_of_isText` — the documents in which options may be written, and
  what is read of them.
* `Graph.RepeatsField`, `Options.RepeatsField` — documents in which a known field occurs twice,
  wherever a record stands; nothing is read of them: `Graph.load_of_repeatsField`,
  `Options.read_of_repeatsField`.
-/

open Json (Field)

/-! ### Options -/

namespace Options

/-- The names of the fields of options. -/
def fieldNames : List String :=
  ["entry_point", "function_prefix", "indent_width", "emit_node_comments"]

/-- The fields of options. Each has its own default. -/
def fields (options : Options) : List Field :=
  [.optional "entry_point" (.ofText options.entryPoint)
      (options.entryPoint = ({} : Options).entryPoint),
    .optional "function_prefix" (.ofText options.functionPrefix)
      (options.functionPrefix = ({} : Options).functionPrefix),
    .optional "indent_width" (.ofNat options.indentWidth)
      (options.indentWidth = ({} : Options).indentWidth),
    .optional "emit_node_comments" (.bool options.nodeComments)
      (options.nodeComments = ({} : Options).nodeComments)]

/-- The document is one in which the options are written. -/
def WrittenAs (options : Options) (document : Json) : Prop := document.IsRecord options.fields

/-- Options are written in the document that is printed for them. -/
theorem writtenAs_toJson (options : Options) : options.WrittenAs options.toJson :=
  Json.Present.isRecord (.keep rfl (.keep rfl (.keep rfl (.keep rfl .nil))))

/-- The text that is printed for options is one of their document. -/
theorem isText_print (options : Options) : options.toJson.IsText options.print :=
  Json.isText_render (by simp [toJson])

/-- Options are read from their fields. -/
theorem ofJson?_eq_some {options : Options} {document : Json} :
    ofJson? document = some options ↔ ∃ record, document.record? fieldNames = some record ∧
      record.optional "entry_point" ({} : Options).entryPoint Json.text? = some options.entryPoint ∧
      record.optional "function_prefix" ({} : Options).functionPrefix Json.text? =
        some options.functionPrefix ∧
      record.optional "indent_width" ({} : Options).indentWidth widthOfJson? =
        some options.indentWidth ∧
      record.optional "emit_node_comments" ({} : Options).nodeComments Json.bool? =
        some options.nodeComments := by
  cases options
  simp [ofJson?, fieldNames, Option.bind_eq_some_iff, -Bool.exists_bool]

/-- Options are read from each text of each document in which they are written. -/
theorem read_of_isText {options : Options} (hwidth : options.indentWidth ≤ maxIndentWidth)
    {document : Json} (h : options.WrittenAs document) {text : String}
    (htext : document.IsText text) :
    read text = .ok options := by
  obtain ⟨record, hrecord, hfields⟩ := h.exists_record fieldNames rfl (by decide)
  simp only [fields, List.forall_mem_cons] at hfields
  obtain ⟨hentryPoint, hfunctionPrefix, hindentWidth, hnodeComments, -⟩ := hfields
  have hnumber : widthOfJson? (.ofNat options.indentWidth) = some options.indentWidth := by
    rw [widthOfJson?, Json.natural?_ofNat, Option.filter_some_pos (by simpa using hwidth)]
  have hoptions : ofJson? document = some options :=
    ofJson?_eq_some.mpr ⟨record, hrecord, hentryPoint.default_eq rfl Eq.symm,
      hfunctionPrefix.default_eq rfl Eq.symm, hindentWidth.default_eq hnumber Eq.symm,
      hnodeComments.default_eq rfl Eq.symm⟩
  rw [read, Json.parse?_of_isText htext, Option.bind_some, hoptions]

end Options

/-! ### Repeated fields -/

/-- A field of a socket declaration occurs twice. -/
def SocketDecl.RepeatsField (document : Json) : Prop := document.RepeatsField fieldNames

/-- A field of a node, or of a socket declaration of it, occurs twice. -/
def Node.RepeatsField (document : Json) : Prop :=
  document.RepeatsField fieldNames ∨
    document.HasElement fieldNames "inputs" SocketDecl.RepeatsField ∨
    document.HasElement fieldNames "outputs" SocketDecl.RepeatsField

/-- A field of a connection occurs twice. -/
def Connection.RepeatsField (document : Json) : Prop := document.RepeatsField fieldNames

/-- A field of a graph, or of a record in it, occurs twice. -/
def Graph.RepeatsField (document : Json) : Prop :=
  document.RepeatsField fieldNames ∨
    document.HasElement fieldNames "inputs" SocketDecl.RepeatsField ∨
    document.HasElement fieldNames "outputs" SocketDecl.RepeatsField ∨
    document.HasElement fieldNames "nodes" Node.RepeatsField ∨
    document.HasElement fieldNames "connections" Connection.RepeatsField

/-- A field of options occurs twice. -/
def Options.RepeatsField (document : Json) : Prop := document.RepeatsField fieldNames

/-- A socket is not read from a document that repeats a field. -/
theorem SocketDecl.not_repeatsField (decl : SocketDecl) (document : Json)
    (h : ofJson? document = some decl) : ¬ RepeatsField document := by
  obtain ⟨record, hrecord, -⟩ := ofJson?_eq_some.mp h
  exact Json.not_repeatsField hrecord

/-- Neither is a node. -/
theorem Node.not_repeatsField (n : Node) (document : Json) (h : ofJson? document = some n) :
    ¬ RepeatsField document := by
  have hsockets := SocketDecl.not_repeatsField
  obtain ⟨record, hrecord, -, -, hinputs, houtputs⟩ := ofJson?_eq_some.mp h
  rintro (hself | helement | helement)
  · exact Json.not_repeatsField hrecord hself
  · exact Json.not_hasElement hrecord (by decide) hinputs hsockets helement
  · exact Json.not_hasElement hrecord (by decide) houtputs hsockets helement

/-- Neither is a connection. -/
theorem Connection.not_repeatsField (c : Connection) (document : Json)
    (h : ofJson? document = some c) : ¬ RepeatsField document := by
  obtain ⟨record, hrecord, -⟩ := ofJson?_eq_some.mp h
  exact Json.not_repeatsField hrecord

/-- Neither is a graph. -/
theorem Graph.not_repeatsField {g : Graph} {document : Json} (h : ofJson? document = some g) :
    ¬ RepeatsField document := by
  have hsockets := SocketDecl.not_repeatsField
  obtain ⟨record, hrecord, hinputs, houtputs, hnodes, hconnections⟩ := ofJson?_eq_some.mp h
  rintro (hself | helement | helement | helement | helement)
  · exact Json.not_repeatsField hrecord hself
  · exact Json.not_hasElement hrecord (by decide) hinputs hsockets helement
  · exact Json.not_hasElement hrecord (by decide) houtputs hsockets helement
  · exact Json.not_hasElement hrecord (by decide) hnodes Node.not_repeatsField helement
  · exact Json.not_hasElement hrecord (by decide) hconnections Connection.not_repeatsField helement

/-- A document of a graph in which a field occurs twice is rejected as a document. -/
theorem Graph.load_of_repeatsField {document : Json} (h : RepeatsField document) {text : String}
    (htext : document.IsText text) : ∃ reason, load text = .error (.document reason) := by
  have hnone : ofJson? document = none := by
    rw [Option.eq_none_iff_forall_ne_some]
    exact fun g hg => not_repeatsField hg h
  refine ⟨"the text does not describe a graph", ?_⟩
  rw [load, read, Json.parse?_of_isText htext, Option.bind_some, hnone]
  rfl

/-- A document of options in which a field occurs twice is rejected as a document. -/
theorem Options.read_of_repeatsField {document : Json} (h : RepeatsField document) {text : String}
    (htext : document.IsText text) : ∃ reason, read text = .error (.document reason) := by
  have hnone : ofJson? document = none := by
    rw [Option.eq_none_iff_forall_ne_some]
    intro options hoptions
    obtain ⟨record, hrecord, -⟩ := ofJson?_eq_some.mp hoptions
    exact Json.not_repeatsField hrecord h
  refine ⟨"the text does not describe options", ?_⟩
  rw [read, Json.parse?_of_isText htext, Option.bind_some, hnone]

/-! ### Reading by fields -/

/-- **Only known fields are read.** Each text of each document in which a graph is written is loaded
    as the text that is printed of the graph: the order of the fields of any record, unknown fields,
    defaults that are left off, records that are arrays and the spelling of the text make no
    difference. The same holds of options, where a field that is left off has its own default. A
    document in which a known field of a record occurs twice is rejected as a document. -/
theorem reading_by_fields :
    (∀ (g : Graph) (document : Json) (text : String), g.WrittenAs document → document.IsText text →
      Graph.load text = Graph.load g.print) ∧
    (∀ (options : Options) (document : Json) (text : String),
      options.indentWidth ≤ Options.maxIndentWidth → options.WrittenAs document →
      document.IsText text →
      Options.read text = .ok options ∧ Options.read text = Options.read options.print) ∧
    ∀ (document : Json) (text : String), document.IsText text →
      (Graph.RepeatsField document → ∃ reason, Graph.load text = .error (.document reason)) ∧
      (Options.RepeatsField document →
        ∃ reason, Options.read text = .error (.document reason)) := by
  refine ⟨?_, ?_, ?_⟩
  · intro g document text hwritten htext
    have hprinted := Graph.read_of_isText g.writtenAs_toJson g.isText_print
    rw [Graph.load_of_read (Graph.read_of_isText hwritten htext), Graph.load_of_read hprinted]
  · intro options document text hwidth hwritten htext
    have hread := Options.read_of_isText hwidth hwritten htext
    have hprinted := Options.read_of_isText hwidth options.writtenAs_toJson options.isText_print
    exact ⟨hread, hread.trans hprinted.symm⟩
  · intro document text htext
    exact ⟨fun h => Graph.load_of_repeatsField h htext,
      fun h => Options.read_of_repeatsField h htext⟩

/-- A graph with an input and a node. -/
def looseGraph : Graph :=
  { inputs := [{ name := "a", typeName := "float" }], nodes := [{ name := "n", kind := "add" }] }

/-- A document of `looseGraph`: the fields are in another order, one record is an array, and there
    is an unknown field. -/
def looseDocument : Json :=
  .ofMembers [("nodes", .array [.array [.ofText "n", .ofText "add"]]), ("note", .array [.null]),
    ("inputs", .array [.ofMembers [("type", .ofText "float"), ("name", .ofText "a")]])]

/-- Options as the array of their first field. -/
def entryDocument : Json := .array [.ofText "main"]

/-- A document in which a field of a node occurs twice. -/
def repeatedDocument : Json :=
  .ofMembers [("nodes", .array [.ofMembers [("kind", .ofText "add"), ("kind", .ofText "add")]])]

/-- The document leaves the empty lists off and has its fields in another order. -/
theorem writtenAs_looseDocument : looseGraph.WrittenAs looseDocument := by
  have hsocket : SocketDecl.WrittenAs { name := "a", typeName := "float" }
      (.ofMembers [("type", .ofText "float"), ("name", .ofText "a")]) :=
    .object (.keep rfl (.keep rfl .nil)) (by simp) (List.Perm.swap ..)
  have hnode :
      Node.WrittenAs { name := "n", kind := "add" } (.array [.ofText "n", .ofText "add"]) := by
    have hfields : Node.fields { name := "n", kind := "add" } =
        [.required "name" (.ofText "n"), .required "kind" (.ofText "add")] ++
          [.list "inputs" SocketDecl.WrittenAs [], .list "outputs" SocketDecl.WrittenAs []] := rfl
    exact .array hfields (.cons rfl (.cons rfl .nil)) (by simp [Field.list])
  have hpresent : Json.Present looseGraph.fields _ :=
    .keep ⟨_, rfl, .cons hsocket .nil⟩
      (.leave rfl (.keep ⟨_, rfl, .cons hnode .nil⟩ (.leave rfl .nil)))
  have hnote : ∀ m ∈ [("note", Json.array [.null])], m.1 ∉ looseGraph.fields.map Field.name := by
    simp [Graph.fields, Field.list]
  have hperm : ∀ inputs nodes note : String × Json,
      ([nodes, note] ++ [inputs]).Perm ([inputs] ++ [nodes, note]) :=
    fun _ _ _ => List.perm_append_comm
  exact .object hpresent hnote (hperm ..)

/-- An array of one element stands for options with this entry point. -/
theorem writtenAs_entryDocument : Options.WrittenAs { entryPoint := "main" } entryDocument := by
  have hfields : Options.fields { entryPoint := "main" } =
      [.optional "entry_point" (.ofText "main") _] ++ _ := rfl
  exact .array hfields (.cons rfl .nil) (by simp [Field.optional])

/-- The field that occurs twice is that of a node in a list of nodes. -/
theorem repeatsField_repeatedDocument : Graph.RepeatsField repeatedDocument := by
  have hnode : Node.RepeatsField (.ofMembers [("kind", .ofText "add"), ("kind", .ofText "add")]) :=
    .inl ⟨_, rfl, "kind", by decide, by decide⟩
  exact .inr (.inr (.inr (.inl ⟨_, .member (by decide) (List.mem_singleton_self _), _,
    List.mem_singleton_self _, hnode⟩)))

/-- The loose document is read as its graph and the array as options; the repeated field is
    refused. -/
theorem reading_by_fields_looseDocument :
    (looseGraph.WrittenAs looseDocument ∧ looseDocument.IsText looseDocument.render ∧
      Graph.load looseDocument.render = Graph.load looseGraph.print) ∧
    (Options.WrittenAs { entryPoint := "main" } entryDocument ∧
      entryDocument.IsText entryDocument.render ∧
      Options.read entryDocument.render = .ok { entryPoint := "main" }) ∧
    Graph.RepeatsField repeatedDocument ∧ repeatedDocument.IsText repeatedDocument.render ∧
      ∃ reason, Graph.load repeatedDocument.render = .error (.document reason) := by
  have hloose : looseDocument.IsText looseDocument.render :=
    Json.isText_render (by simp [looseDocument])
  have hentry : entryDocument.IsText entryDocument.render :=
    Json.isText_render (by simp [entryDocument])
  have hrepeated : repeatedDocument.IsText repeatedDocument.render :=
    Json.isText_render (by simp [repeatedDocument])
  obtain ⟨hgraphs, hoptions, hrejected⟩ := reading_by_fields
  exact ⟨⟨writtenAs_looseDocument, hloose, hgraphs _ _ _ writtenAs_looseDocument hloose⟩,
    ⟨writtenAs_entryDocument, hentry,
      (hoptions _ _ _ (by decide) writtenAs_entryDocument hentry).1⟩,
    repeatsField_repeatedDocument, hrepeated,
    (hrejected _ _ hrepeated).1 repeatsField_repeatedDocument⟩

end ShaderGraph
