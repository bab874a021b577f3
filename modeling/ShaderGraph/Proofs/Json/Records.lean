import Mathlib.Data.List.Count
import ShaderGraph.Json.Record
import ShaderGraph.Proofs.Lists

namespace ShaderGraph.Json

/-!
# Documents of records

A record may be written in many documents: as an object with its fields in any order and further
members among them, or as the array of its fields, and without the fields that may be left off.

* `Field`, `IsRecord` — what the fields of a record may be, and the documents in which it is
  written.
* `Record.Carries`, `IsRecord.exists_record` — reading such a document finds what each field may be.
* `record?_object_eq_some` — when an object can be read at all.
* `RepeatsField`, `HasField`, `HasElement` — objects in which a field occurs twice, the values that
  fields have, and their elements; `not_repeatsField` and `not_hasElement` say what cannot be read.
-/

/-! ### Fields -/

/-- What a document of a record may have for one of the fields. -/
structure Field where
  name : String
  /-- The field may have this value. -/
  Holds : Json → Prop
  /-- The field may be left off. -/
  Omissible : Prop

/-- The documents that are lists of documents of these values. -/
def IsList {α : Type} (written : α → Json → Prop) (values : List α) (document : Json) : Prop :=
  ∃ elements, document = .array elements ∧ List.Forall₂ written values elements

namespace Field

/-- A field that must have this value. -/
def required (name : String) (value : Json) : Field := ⟨name, (· = value), False⟩

/-- A field that has this value, which is the default if `isDefault` holds. -/
def optional (name : String) (value : Json) (isDefault : Prop) : Field :=
  ⟨name, (· = value), isDefault⟩

/-- A field that lists these values and may be left off if there are none. -/
def list {α : Type} (name : String) (written : α → Json → Prop) (values : List α) : Field :=
  ⟨name, IsList written values, values = []⟩

end Field

/-- Members for these fields in their order, of which some have been left off. -/
inductive Present : List Field → Record → Prop where
  | nil : Present [] []
  | keep {f : Field} {fields : List Field} {value : Json} {members : Record}
    (hvalue : f.Holds value) (h : Present fields members) :
    Present (f :: fields) ((f.name, value) :: members)
  | leave {f : Field} {fields : List Field} {members : Record} (hf : f.Omissible)
    (h : Present fields members) : Present (f :: fields) members

/-- The document is one in which a record with these fields is written. -/
inductive IsRecord (fields : List Field) : Json → Prop where
  /-- An object of which the members are fields and unknown ones, in any order. -/
  | object {present unknown members : Record} (hpresent : Present fields present)
    (hunknown : ∀ m ∈ unknown, m.1 ∉ fields.map Field.name)
    (hmembers : members.Perm (present ++ unknown)) : IsRecord fields (.ofMembers members)
  /-- An array of the fields, of which some at the end are left off. -/
  | array {kept left : List Field} {values : List Json} (hfields : fields = kept ++ left)
    (hkept : List.Forall₂ Field.Holds kept values) (hleft : ∀ f ∈ left, f.Omissible) :
    IsRecord fields (.array values)

namespace Present

variable {fields : List Field} {members : Record}

/-- Where all fields may be left off, none need be present. -/
theorem leaveAll (h : ∀ f ∈ fields, f.Omissible) : Present fields [] := by
  induction fields with
  | nil => exact .nil
  | cons f fields ih =>
    obtain ⟨hf, hfields⟩ := List.forall_mem_cons.mp h
    exact .leave hf (ih hfields)

/-- The first fields with their values, as an array has them. -/
theorem zip {kept left : List Field} {values : List Json}
    (hkept : List.Forall₂ Field.Holds kept values)
    (hleft : ∀ f ∈ left, f.Omissible) :
    Present (kept ++ left) (((kept ++ left).map Field.name).zip values) := by
  induction hkept with
  | nil =>
    rw [List.zip_nil_right]
    exact leaveAll hleft
  | cons hvalue _ ih => exact .keep hvalue ih

/-- The members have the names of fields, in the order of the fields. -/
theorem sublist (h : Present fields members) :
    (members.map Prod.fst).Sublist (fields.map Field.name) := by
  induction h with
  | nil => exact .slnil
  | keep _ _ ih => exact ih.cons_cons _
  | leave _ _ ih => exact ih.cons _

/-- Each field has one of its values, or has been left off, and then no other field has its name. -/
theorem mem_or (h : Present fields members) (hnodup : (fields.map Field.name).Nodup) {f : Field}
    (hf : f ∈ fields) :
    (∃ value, (f.name, value) ∈ members ∧ f.Holds value) ∨
      f.name ∉ members.map Prod.fst ∧ f.Omissible := by
  induction h with
  | nil => cases hf
  | @keep f' fields value members hvalue hmembers ih =>
    obtain ⟨hnew, hnodup⟩ := List.nodup_cons.mp hnodup
    rcases List.mem_cons.mp hf with rfl | hf
    · exact .inl ⟨value, List.mem_cons_self, hvalue⟩
    · refine (ih hnodup hf).imp ?_ ?_
      · rintro ⟨w, hw, hholds⟩
        exact ⟨w, List.mem_cons_of_mem _ hw, hholds⟩
      · rintro ⟨habsent, homissible⟩
        have hne : f.name ≠ f'.name := fun heq => hnew (heq ▸ List.mem_map_of_mem hf)
        exact ⟨by simpa [hne] using habsent, homissible⟩
  | @leave f' fields members hf' hmembers ih =>
    obtain ⟨hnew, hnodup⟩ := List.nodup_cons.mp hnodup
    rcases List.mem_cons.mp hf with rfl | hf
    · exact .inr ⟨fun hmem => hnew (hmembers.sublist.subset hmem), hf'⟩
    · exact ih hnodup hf

end Present

/-- A list is written by writing its elements. -/
theorem isList_map {α : Type} {written : α → Json → Prop} {toJson : α → Json}
    (h : ∀ a, written a (toJson a)) (values : List α) :
    IsList written values (.array (values.map toJson)) :=
  ⟨_, rfl, List.forall₂_map_right_iff.mpr (List.forall₂_same.mpr fun a _ => h a)⟩

/-- Members that are present are a record of the fields. -/
theorem Present.isRecord {fields : List Field} {members : Record} (h : Present fields members) :
    (ofMembers members).IsRecord fields := by
  have hall : members.Perm (members ++ []) := by simp
  exact .object h (by simp) hall

/-! ### Reading -/

namespace Record

variable {record : Record} {α : Type} {read : Json → Option α} {a : α}

/-- The record has a value that the field may have, or lacks the field if it may be left off. -/
def Carries (record : Record) (f : Field) : Prop :=
  (∃ value, record.lookup f.name = some value ∧ f.Holds value) ∨
    record.lookup f.name = none ∧ f.Omissible

/-- A required field is read from the value that it must have. -/
theorem Carries.required_eq {name : String} {value : Json}
    (h : record.Carries (.required name value))
    (hread : read value = some a) : record.required name read = some a := by
  rcases h with ⟨_, hlookup, rfl⟩ | ⟨_, hfalse⟩
  · exact Option.bind_eq_some_iff.mpr ⟨_, hlookup, hread⟩
  · exact absurd hfalse not_false

/-- A field that may be left off is read as its value or its default. -/
theorem Carries.optional_eq {f : Field} (h : record.Carries f) {default : α}
    (hread : ∀ value, f.Holds value → read value = some a) (hdefault : f.Omissible → default = a) :
    record.optional f.name default read = some a := by
  rcases h with ⟨value, hlookup, hvalue⟩ | ⟨hlookup, homissible⟩
  · rw [Record.optional, hlookup]
    exact hread value hvalue
  · rw [Record.optional, hlookup, hdefault homissible]

/-- An optional field is read as its value, whether it is written or left off as the default. -/
theorem Carries.default_eq {name : String} {value : Json} {isDefault : Prop}
    (h : record.Carries (.optional name value isDefault)) {default : α}
    (hread : read value = some a) (hdefault : isDefault → default = a) :
    record.optional name default read = some a := by
  refine h.optional_eq ?_ hdefault
  rintro _ rfl
  exact hread

end Record

/-- A list is read back if its elements are. -/
theorem list?_of_isList {α : Type} {written : α → Json → Prop} {read : Json → Option α}
    (hread : ∀ a document, written a document → read document = some a) {values : List α}
    {document : Json} (h : IsList written values document) : list? read document = some values := by
  obtain ⟨elements, rfl, helements⟩ := h
  exact mapM_eq_some.mpr (helements.flip.imp fun document a => hread a document)

/-- A field with a list is read back, and the empty list is its default. -/
theorem Record.Carries.list_eq {α : Type} {record : Record} {name : String}
    {written : α → Json → Prop} {values : List α} (h : record.Carries (.list name written values))
    {read : Json → Option α} (hread : ∀ a document, written a document → read document = some a) :
    record.optional name [] (list? read) = some values :=
  h.optional_eq (fun _ => list?_of_isList hread) Eq.symm

/-- An object can be read if each key spells a text and no field occurs twice. What is read are the
members that are fields. -/
theorem record?_object_eq_some {names : List String} {members : List (Option String × Json)}
    {record : Record} :
    record? names (.object members) = some record ↔
      ∃ texts, Json.object members = .ofMembers texts ∧
        record = texts.filter (names.contains ·.1) ∧ (record.map Prod.fst).Nodup := by
  have hkey : (fun (m : Option String × Json) (t : String × Json) => m.1.map (·, m.2) = some t) =
      fun m t => m = (some t.1, t.2) := by
    funext ⟨key, value⟩ ⟨text, value'⟩
    cases key <;> simp
  have htexts : ∀ texts : Record, members.mapM (fun m => m.1.map (·, m.2)) = some texts ↔
      Json.object members = .ofMembers texts := by
    intro texts
    rw [mapM_eq_some, ofMembers, Json.object.injEq, ← List.forall₂_eq_eq_eq,
      List.forall₂_map_right_iff]
    exact iff_of_eq (congrArg (List.Forall₂ · members texts) hkey)
  -- The members with their keys as texts are unique, so only the check of the fields remains.
  rw [record?, Option.bind_eq_bind, Option.bind_eq_some_iff]
  refine exists_congr fun texts => and_congr (htexts texts) ?_
  rw [Option.ite_none_right_eq_some, Option.some.injEq, and_comm, eq_comm (a := record)]
  refine and_congr_right ?_
  rintro rfl
  rfl

/-- Members for the fields, in any order, carry each of the fields. -/
theorem Present.carries {fields : List Field} {present record : Record}
    (hpresent : Present fields present) (hnodup : (fields.map Field.name).Nodup)
    (hperm : record.Perm present) :
    (record.map Prod.fst).Nodup ∧ ∀ f ∈ fields, record.Carries f := by
  have hkeys : (record.map Prod.fst).Nodup :=
    (hperm.map Prod.fst).nodup_iff.mpr (hnodup.sublist hpresent.sublist)
  refine ⟨hkeys, fun f hf => ?_⟩
  rcases hpresent.mem_or hnodup hf with ⟨value, hvalue, hholds⟩ | ⟨habsent, homissible⟩
  · exact .inl ⟨value, (lookup_eq_some_iff_mem hkeys).mpr (hperm.mem_iff.mpr hvalue), hholds⟩
  · refine .inr ⟨?_, homissible⟩
    rw [List.lookup_eq_none_iff]
    intro m hm
    have hne : f.name ≠ m.1 := by
      intro heq
      exact habsent (heq ▸ List.mem_map_of_mem (hperm.mem_iff.mp hm))
    simpa using hne

/-- A record is read from each document in which it is written. -/
theorem IsRecord.exists_record {fields : List Field} {document : Json}
    (h : document.IsRecord fields)
    (names : List String) (hnames : fields.map Field.name = names) (hnodup : names.Nodup) :
    ∃ record, document.record? names = some record ∧ ∀ f ∈ fields, record.Carries f := by
  subst hnames
  cases h with
  | @object present unknown members hpresent hunknown hmembers =>
    have hknown : ∀ m ∈ present, (fields.map Field.name).contains m.1 = true := fun m hm =>
      List.contains_iff_mem.mpr (hpresent.sublist.subset (List.mem_map_of_mem hm))
    -- The filter drops the unknown members, wherever they stand.
    have hfilter : (members.filter ((fields.map Field.name).contains ·.1)).Perm present := by
      have hperm := hmembers.filter ((fields.map Field.name).contains ·.1)
      rwa [filter_append_eq_left hknown (by simpa using hunknown)] at hperm
    obtain ⟨hkeys, hcarries⟩ := hpresent.carries hnodup hfilter
    exact ⟨_, record?_object_eq_some.mpr ⟨members, rfl, rfl, hkeys⟩, hcarries⟩
  | @array kept left values hfields hkept hleft =>
    have hlength : values.length ≤ (fields.map Field.name).length := by
      rw [hfields, List.length_map, List.length_append, hkept.length_eq]
      omega
    -- Names and values are put together up to the last value, so what is left off has no member.
    have hpresent : Present fields ((fields.map Field.name).zip values) := by
      rw [hfields]
      exact .zip hkept hleft
    exact ⟨_, if_pos hlength, (hpresent.carries hnodup (.refl _)).2⟩

/-! ### Repeated fields -/

/-- A field with one of these names occurs twice in the object. -/
def RepeatsField (names : List String) (document : Json) : Prop :=
  ∃ members, document = .object members ∧
    ∃ name ∈ names, 2 ≤ (members.map Prod.fst).count (some name)

/-- The field of a record has this value in the document. -/
inductive HasField (names : List String) (name : String) : Json → Json → Prop where
  | member {members : List (Option String × Json)} {value : Json} (hname : name ∈ names)
    (h : (some name, value) ∈ members) : HasField names name (.object members) value
  | element {values : List Json} {value : Json} (h : (name, value) ∈ names.zip values) :
    HasField names name (.array values) value

/-- The list that a field of a record is in the document has an element with this property. -/
def HasElement (names : List String) (name : String) (P : Json → Prop) (document : Json) : Prop :=
  ∃ elements, HasField names name document (.array elements) ∧ ∃ e ∈ elements, P e

section Read

variable {names : List String} {document : Json} {record : Record}
  (h : document.record? names = some record)

include h

/-- What can be read as a record has no field twice. -/
theorem not_repeatsField : ¬ document.RepeatsField names := by
  rintro ⟨members, rfl, name, hname, htwice⟩
  obtain ⟨texts, htexts, rfl, hnodup⟩ := record?_object_eq_some.mp h
  have hfields : (texts.filter (names.contains ·.1)).map Prod.fst =
      (texts.map Prod.fst).filter names.contains := by rw [List.filter_map]; rfl
  -- Passing over unknown members leaves the number of those with a known name as it is.
  have honce := List.nodup_iff_count_le_one.mp hnodup name
  rw [hfields, List.count_filter (List.contains_iff_mem.mpr hname)] at honce
  have hkeys : members.map Prod.fst = (texts.map Prod.fst).map some := by
    rw [ofMembers, Json.object.injEq] at htexts
    rw [htexts, List.map_map, List.map_map]
    rfl
  rw [hkeys, List.count_map_of_injective _ _ (fun _ _ => Option.some.inj)] at htwice
  omega

/-- What has been read as a record has the values of the fields. -/
theorem lookup_of_hasField (hnodup : names.Nodup) {name : String} {value : Json}
    (hfield : HasField names name document value) : record.lookup name = some value := by
  cases hfield with
  | @member members value hname hvalue =>
    obtain ⟨texts, htexts, rfl, hkeys⟩ := record?_object_eq_some.mp h
    rw [ofMembers, Json.object.injEq] at htexts
    subst htexts
    rw [lookup_eq_some_iff_mem hkeys, List.mem_filter]
    refine ⟨?_, List.contains_iff_mem.mpr hname⟩
    simpa using hvalue
  | @element values value hvalue =>
    rw [record?, Option.ite_none_right_eq_some] at h
    obtain ⟨hlength, ⟨⟩⟩ := h
    have hkeys := hnodup.sublist (map_fst_zip_sublist names values)
    exact (lookup_eq_some_iff_mem hkeys).mpr hvalue

/-- The lists that are the fields of a record have only elements that can be read. -/
theorem not_hasElement (hnodup : names.Nodup) {α : Type} {read : Json → Option α} {P : Json → Prop}
    {name : String} {default values : List α}
    (hvalues : record.optional name default (list? read) = some values)
    (hread : ∀ a e, read e = some a → ¬ P e) : ¬ HasElement names name P document := by
  rintro ⟨elements, hfield, e, he, hP⟩
  rw [Record.optional, lookup_of_hasField h hnodup hfield] at hvalues
  obtain ⟨a, -, ha⟩ := exists_of_mem_left (mapM_eq_some.mp hvalues) he
  exact hread a e ha hP

end Read

end ShaderGraph.Json
