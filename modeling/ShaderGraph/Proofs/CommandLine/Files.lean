import Mathlib.Data.List.Basic
import ShaderGraph.CommandLine.Files

namespace ShaderGraph.CommandLine

/-!
# Files

What a program may rely on when it reads and writes files, and that a `Directory` in memory keeps to
it.

* `FileView` — what the states of a file system show: where paths lead, and what the files hold.
* `Replaced` — one file has a new text, and otherwise nothing has changed.
* `LawfulFileAccess` — reading changes nothing, and writing replaces one file if it succeeds.
* `Directory.exists_parent_of_walk` — a path leads to a file in a directory that is there. So a new
  file makes no new directories, and `Directory.resolve_eq_of_write?` says that all paths lead where
  they led before.
-/

/-! ### File systems -/

/-- What can be seen of the states of a file system. -/
class FileView (σ : Type) where
  /-- What tells files apart, by whatever paths they are reached. -/
  Place : Type
  /-- What a file may hold, texts among other things. -/
  Content : Type
  ofText : String → Content
  /-- The place of the file to which a path leads, be the file there or not yet. -/
  place? : σ → String → Option Place
  /-- The content of the file at a place, if there is one. -/
  content? : σ → Place → Option Content
  /-- The text that reading the file at a path gives, or the reason why it fails. -/
  reading : σ → String → Except String String

section

variable {σ : Type} [FileView σ]

/-- The file at a place holds a given text now. All others are as before, and all paths lead where
    they led before. -/
structure Replaced (s : σ) (place : FileView.Place σ) (text : String) (s' : σ) : Prop where
  text : FileView.content? s' place = some (FileView.ofText text)
  others : ∀ other, other ≠ place → FileView.content? s' other = FileView.content? s other
  paths : ∀ path, FileView.place? s' path = FileView.place? s path

/-- The operations do what they should: reading changes nothing, and a write that succeeds has
    replaced the text of the file to which the path leads. -/
class LawfulFileAccess (σ : Type) [FileAccess (StateM σ)] [FileView σ] : Prop where
  run_read : ∀ (path : String) (s : σ),
    (FileAccess.read path : StateM σ (Except String String)).run s = (FileView.reading s path, s)
  replaced_of_write : ∀ {path text : String} {s s' : σ},
    (FileAccess.write path text : StateM σ (Except String Unit)).run s = (.ok (), s') →
    ∃ place, FileView.place? s path = some place ∧ Replaced s place text s'

end

/-! ### Directories in memory -/

namespace Directory

variable {d d' : Directory} {path text : String} {place : List String}

/-- A directory is the root or stands above a file. -/
theorem isDirectory_eq_true {names : List String} : d.isDirectory names = true ↔
    names = [] ∨ ∃ file ∈ d.files, names <+: file.path ∧ names ≠ file.path := by
  simp [isDirectory]

/-- Directories are in directories. -/
theorem isDirectory_of_append {parent rest : List String}
    (h : d.isDirectory (parent ++ rest) = true) :
    d.isDirectory parent = true := by
  rw [isDirectory_eq_true] at h ⊢
  rcases h with h | ⟨file, hfile, hle, hne⟩
  · exact .inl (List.append_eq_nil_iff.mp h).1
  · refine .inr ⟨file, hfile, (List.prefix_append parent rest).trans hle, ?_⟩
    rintro rfl
    -- Otherwise the longer path would be the whole path of the file too.
    exact hne (List.IsPrefix.eq_of_length_le hle (List.prefix_append _ _).length_le)

/-- A path leads to a file in a directory that is there, if it starts in one. -/
theorem exists_parent_of_walk {base names : List String} (hbase : d.isDirectory base = true)
    (h : d.walk base names = some place) :
    ∃ parent name, place = parent ++ [name] ∧ d.isDirectory parent = true ∧
      d.isDirectory place = false := by
  fun_induction Directory.walk d base names with
  | case1 => cases h
  | case2 base rest ih => exact ih hbase h
  | case3 base rest ih => exact ih hbase h
  | case4 => cases h
  | case5 base rest hne ih =>
    refine ih ?_ h
    have hlast :=
      List.dropLast_append_getLast (List.isEmpty_eq_false_iff.mp (Bool.eq_false_iff.mpr hne))
    exact isDirectory_of_append (hlast ▸ hbase)
  | case6 => cases h
  | case7 base name _ _ _ hfile =>
    cases h
    exact ⟨base, name, rfl, hbase, Bool.eq_false_iff.mpr hfile⟩
  | case8 base name rest _ _ _ _ hdirectory ih => exact ih hdirectory h
  | case9 => cases h

/-- Where paths lead is a matter of the directories only. -/
theorem walk_congr (h : ∀ names, d'.isDirectory names = d.isDirectory names)
    (base names : List String) :
    d'.walk base names = d.walk base names := by
  fun_induction Directory.walk d base names <;> simp_all [Directory.walk]

/-- Where paths lead depends on the directories only. -/
theorem resolve_congr (h : ∀ names, d'.isDirectory names = d.isDirectory names) (path : String) :
    d'.resolve path = d.resolve path := by
  rw [resolve, resolve, walk_congr h]

/-- The tree after the file at a place has been given a text, be the file there or not. -/
theorem write?_eq_some (h : d.write? path text = some d') : ∃ place, d.resolve path = some place ∧
    d'.files = if d.files.any (·.path == place)
      then d.files.map fun f =>
        if f.path = place then { path := place, content? := some text } else f
      else d.files ++ [{ path := place, content? := some text }] := by
  obtain ⟨place, hplace, hwrite⟩ := Option.bind_eq_some_iff.mp h
  refine ⟨place, hplace, ?_⟩
  simp only at hwrite
  split at hwrite
  · next hany =>
    cases hwrite
    rw [if_pos hany]
  · next hany =>
    cases hwrite
    rw [if_neg hany]

/-- A path leads to a name in a directory, and not to a directory. -/
theorem resolve_eq_some (h : d.resolve path = some place) :
    ∃ parent name, place = parent ++ [name] ∧ d.isDirectory parent = true ∧
      d.isDirectory place = false := by
  rw [resolve] at h
  split at h
  · cases h
  · exact exists_parent_of_walk rfl h

/-- Writing a file makes no directories and removes none. -/
theorem isDirectory_of_write? (h : d.write? path text = some d') (names : List String) :
    d'.isDirectory names = d.isDirectory names := by
  obtain ⟨place, hplace, hfiles⟩ := write?_eq_some h
  obtain ⟨parent, name, rfl, hparent, -⟩ := resolve_eq_some hplace
  split at hfiles
  · -- The files have the same paths as before.
    have hpaths : d'.files.map File.path = d.files.map File.path := by
      rw [hfiles, List.map_map]
      refine List.map_congr_left fun f _ => ?_
      by_cases hf : f.path = parent ++ [name] <;> simp [hf]
    have hany : ∀ d : Directory, d.isDirectory names =
        (names.isEmpty ||
          (d.files.map File.path).any fun p => names.isPrefixOf p && names != p) := by
      intro d
      rw [List.any_map]
      rfl
    rw [hany, hany, hpaths]
  · rw [Bool.eq_iff_iff, isDirectory_eq_true, hfiles]
    constructor
    · rintro (rfl | ⟨file, hfile, hle, hne⟩)
      · rfl
      rcases List.mem_append.mp hfile with hfile | hfile
      · exact isDirectory_eq_true.mpr (.inr ⟨file, hfile, hle, hne⟩)
      · -- The new file is in a directory that was there, and so are the directories above.
        rw [List.mem_singleton.mp hfile] at hle hne
        obtain ⟨rest, hrest⟩ := (List.prefix_concat_iff.mp hle).resolve_left hne
        exact isDirectory_of_append (hrest ▸ hparent)
    · intro hnames
      rcases isDirectory_eq_true.mp hnames with hnames | ⟨file, hfile, hle⟩
      · exact .inl hnames
      · exact .inr ⟨file, List.mem_append_left _ hfile, hle⟩

/-- All paths lead where they led before a file was written. -/
theorem resolve_eq_of_write? (h : d.write? path text = some d') (other : String) :
    d'.resolve other = d.resolve other :=
  resolve_congr (isDirectory_of_write? h) other

/-- A file of the directory in memory is seen by where its path leads. -/
instance : FileView Directory where
  Place := List String
  Content := Option String
  ofText := some
  place? := resolve
  content? d place := (d.files.find? (·.path == place)).map File.content?
  reading d path :=
    match d.read? path with
    | some text => .ok text
    | none => .error "cannot read the file"

/-- Writing replaces the file to which the path leads. -/
theorem replaced_of_write? (h : d.write? path text = some d') :
    ∃ place, d.resolve path = some place ∧ Replaced d place text d' := by
  obtain ⟨place, hplace, hfiles⟩ := write?_eq_some h
  refine ⟨place, hplace, ?_⟩
  suffices hcontent : ∀ other : List String,
      (d'.files.find? (·.path == other)).map File.content? =
        if other = place then some (some text)
        else (d.files.find? (·.path == other)).map File.content? from
    { text := (hcontent place).trans (if_pos rfl)
      others := fun other hother => (hcontent other).trans (if_neg hother)
      paths := resolve_eq_of_write? h }
  intro other
  rw [hfiles]
  split
  · next hany =>
    -- Every file is at the same place as before.
    have hsame : (fun f : File => f.path == other) ∘
        (fun f => if f.path = place then { path := place, content? := some text } else f) =
          fun f => f.path == other := by
      funext f
      by_cases hf : f.path = place <;> simp [hf]
    rw [List.find?_map, hsame, Option.map_map]
    cases hfind : d.files.find? (·.path == other) with
    | none =>
      have hne : other ≠ place := by
        rintro rfl
        obtain ⟨file, hfile, hpath⟩ := List.any_eq_true.mp hany
        exact absurd hpath (List.find?_eq_none.mp hfind file hfile)
      simp [hne]
    | some file =>
      have hfile : file.path = other := by simpa using List.find?_some hfind
      by_cases hother : other = place <;> simp [hfile, hother]
  · next hnone =>
    rw [List.find?_append]
    by_cases hother : other = place
    · subst hother
      have hfind : d.files.find? (·.path == other) = none := by simpa using hnone
      simp [hfind]
    · simp [hother, Ne.symm hother]

/-- Writing changes the directory, or fails and leaves it as it is. -/
theorem run_write (path text : String) (d : Directory) :
    (FileAccess.write path text : StateM Directory (Except String Unit)).run d =
      match d.write? path text with
      | some d' => (.ok (), d')
      | none => (.error "cannot write the file", d) := by
  cases hwrite : d.write? path text <;> simp [FileAccess.write, hwrite] <;> rfl

/-- The directory in memory obeys the laws of files. -/
instance : LawfulFileAccess Directory where
  run_read path d := by
    cases hread : d.read? path <;> simp [FileAccess.read, FileView.reading, hread] <;> rfl
  replaced_of_write {path text d d'} h := by
    apply replaced_of_write?
    rw [run_write] at h
    split at h
    · next d' hwrite =>
      cases h
      exact hwrite
    · cases h

end Directory

end ShaderGraph.CommandLine
