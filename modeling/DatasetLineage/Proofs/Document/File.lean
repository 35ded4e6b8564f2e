import DatasetLineage.Document.File
import DatasetLineage.Proofs.Json.RoundTrip
import DatasetLineage.Proofs.Outcome

/-!
# Documents in files

A file that was written holds the text that was written, as writing changes no folder and so
leaves every path where it led.  A JSON document of texts, arrays and objects is therefore read
as it was written, with its fields arranged, unless it has too many containers inside each other.
-/

namespace DatasetLineage

namespace Workspace

variable {workspace written : Workspace} {path : String} {location : Location}

/-- A path leads to a place where a file is or can be made. -/
def LeadsToFile (workspace : Workspace) (path : String) (location : Location) : Prop :=
  workspace.locate? path = some location ∧ workspace.hasFolder location = false

/-- A name of a file without an extension that leads to no other folder. -/
structure Plain (name : String) : Prop where
  isPath : isPath name = true
  isRelative : name.startsWith "/" = false
  isName : name ≠ "." ∧ name ≠ ".."
  isWhole : ∀ separator, separator = "/" ∨ separator = "." → name.splitOn separator = [name]

section Plain

variable {name : String} (hname : Plain name)
include hname

theorem Plain.ne_empty : name ≠ "" := by
  rintro rfl
  exact absurd hname.isPath (by decide)

theorem Plain.leadsToFile (hfolder : workspace.hasFolder [name] = false) :
    workspace.LeadsToFile name [name] := by
  have hsplit : Location.split name = ([], [name]) := by
    rw [Location.split, hname.isWhole "/" (.inl rfl), hname.isRelative]
    rfl
  have hhere : workspace.hasFolder [] = true := rfl
  refine ⟨?_, hfolder⟩
  rw [locate?, if_pos hname.isPath, hsplit]
  simp [follow?, hhere, Location.enter, hname.ne_empty, hname.isName]

/-- A name without a dot is the name of a JSON file. -/
theorem Plain.ofPath : Format.ofPath name = .json := by
  have hparts : pathParts name = [name] := by
    rw [pathParts, hname.isWhole "/" (.inl rfl)]
    simp [hname.ne_empty, hname.isName.1]
  have hlast : fileName? name = some name := by
    rw [fileName?, hparts]
    simp [hname.isName.2]
  have hextension : extensionOf? name = none := by
    rw [extensionOf?, hname.isWhole "." (.inr rfl)]
    rfl
  rw [Format.ofPath, hlast]
  simp [hextension]

end Plain

theorem follow?_congr (hfolders : written.folders = workspace.folders) (location : Location)
    (parts : List String) : written.follow? location parts = workspace.follow? location parts := by
  induction parts generalizing location with
  | nil => rfl
  | cons part rest ih =>
      rw [follow?, follow?, hasFolder, hasFolder, hfolders, ih]

theorem locate?_congr (hfolders : written.folders = workspace.folders) (path : String) :
    written.locate? path = workspace.locate? path := by
  rw [locate?, locate?]
  split
  · exact follow?_congr hfolders _ _
  · rfl

theorem lookup_setFile (location : Location) (text : String) (files : List (Location × String)) :
    (setFile location text files).lookup location = some text := by
  induction files with
  | nil => simp [setFile]
  | cons file rest ih =>
      obtain ⟨other, old⟩ := file
      rw [setFile]
      by_cases hother : other = location
      · rw [if_pos hother, List.lookup_cons, beq_self_eq_true]
      · rw [if_neg hother, List.lookup_cons, beq_false_of_ne (Ne.symm hother), ih]

theorem lookup_setFile_of_ne {location other : Location} (hother : other ≠ location)
    (text : String) (files : List (Location × String)) :
    (setFile location text files).lookup other = files.lookup other := by
  induction files with
  | nil => rw [setFile, List.lookup_cons, beq_false_of_ne hother]
  | cons file rest ih =>
      obtain ⟨first, old⟩ := file
      rw [setFile]
      by_cases hfirst : first = location
      · rw [if_pos hfirst, List.lookup_cons, List.lookup_cons, hfirst, beq_false_of_ne hother]
      · rw [if_neg hfirst, List.lookup_cons, List.lookup_cons, ih]

/-- Of two texts that are set, the second stays. -/
theorem setFile_setFile (location : Location) (old text : String)
    (files : List (Location × String)) :
    setFile location text (setFile location old files) = setFile location text files := by
  induction files with
  | nil => simp [setFile]
  | cons file rest ih =>
      obtain ⟨other, older⟩ := file
      by_cases hother : other = location
      · simp [setFile, hother]
      · simp [setFile, hother, ih]

/-- A file can be written exactly where a path leads to one. -/
theorem write?_eq_some_iff {text : String} :
    workspace.write? path text = some written ↔
      ∃ location, workspace.LeadsToFile path location ∧
        written = { workspace with files := setFile location text workspace.files } := by
  rw [write?]
  cases hlocation : workspace.locate? path with
  | none => simp [LeadsToFile, hlocation]
  | some location =>
      change (if workspace.hasFolder location then none else
        some { workspace with files := setFile location text workspace.files }) = _ ↔ _
      constructor
      · intro hresult
        split at hresult
        · cases hresult
        · next hfolder =>
            exact ⟨location, ⟨hlocation, by simpa using hfolder⟩, (Option.some.inj hresult).symm⟩
      · rintro ⟨place, ⟨hplace, hfolder⟩, rfl⟩
        cases hlocation.symm.trans hplace
        rw [if_neg (by simp [hfolder])]

section Write

variable {text : String} (hwritten : workspace.write? path text = some written)
include hwritten

theorem folders_of_write? : written.folders = workspace.folders := by
  obtain ⟨location, _, rfl⟩ := write?_eq_some_iff.1 hwritten
  rfl

/-- A path leads where it led before a file was written. -/
theorem locate?_of_write? (other : String) : written.locate? other = workspace.locate? other :=
  locate?_congr (folders_of_write? hwritten) other

/-- A file holds what was written to it. -/
theorem read?_of_write? : written.read? path = some text := by
  rw [read?, locate?_of_write? hwritten]
  obtain ⟨location, ⟨hlocation, _⟩, rfl⟩ := write?_eq_some_iff.1 hwritten
  rw [hlocation]
  exact lookup_setFile location text workspace.files

theorem contains_of_write? : written.contains path = true := by
  rw [contains, read?_of_write? hwritten]
  rfl

/-- Other files stay as they are. -/
theorem read?_of_write?_of_ne {other : String}
    (hother : workspace.locate? other ≠ workspace.locate? path) :
    written.read? other = workspace.read? other := by
  rw [read?, read?, locate?_of_write? hwritten]
  obtain ⟨location, ⟨hlocation, _⟩, rfl⟩ := write?_eq_some_iff.1 hwritten
  cases hplace : workspace.locate? other with
  | none => rfl
  | some place =>
      rw [hplace, hlocation] at hother
      exact lookup_setFile_of_ne (fun hsame => hother (congrArg some hsame)) text workspace.files

/-- A file that is written again is as if it had been written once. -/
theorem write?_of_write? (again : String) :
    written.write? path again = workspace.write? path again := by
  have hlocate := locate?_of_write? hwritten path
  have hfolders := folders_of_write? hwritten
  obtain ⟨location, ⟨hlocation, hfolder⟩, rfl⟩ := write?_eq_some_iff.1 hwritten
  rw [write?, write?, hlocate, hlocation]
  simp only [Option.bind_eq_bind, Option.bind_some, setFile_setFile]
  rfl

end Write

/-- What is loaded from a file depends on its text alone. -/
theorem loadTree_congr {other : Workspace} (hread : other.read? path = workspace.read? path)
    (default : Direction) (yaml : YamlReader) :
    other.loadTree path default yaml = workspace.loadTree path default yaml := by
  rw [loadTree, loadTree, readValue, readValue, readText, readText, hread]

/-- A file can be written where a path leads to. -/
theorem LeadsToFile.write?_succeeds (hpath : workspace.LeadsToFile path location) (text : String) :
    ∃ written, workspace.write? path text = some written :=
  ⟨_, write?_eq_some_iff.2 ⟨location, hpath, rfl⟩⟩

theorem writeDocument_eq_ok_iff {value : Json} :
    workspace.writeDocument path value = .ok written ↔
      workspace.write? path ((Format.ofPath path).render value true) = some written := by
  rw [writeDocument]
  cases workspace.write? path ((Format.ofPath path).render value true) <;> simp

/-- A JSON document is read from its file as it was written, with its fields arranged, unless it
has too many containers inside each other. -/
theorem LeadsToFile.readValue_of_writeDocument (hpath : workspace.LeadsToFile path location)
    (hformat : Format.ofPath path = .json) {value : Json} (hvalue : value.Textual)
    (yaml : YamlReader) :
    ∃ written, workspace.writeDocument path value = .ok written ∧
      written.readValue path yaml =
        if value.nesting ≤ Json.documentNesting then .ok value.arranged
        else .error (.during (.parsingJson path) (.unreadable .json)) := by
  obtain ⟨written, hwritten⟩ := hpath.write?_succeeds value.pretty
  have hread := read?_of_write? hwritten
  have hparsed : Format.json.read? yaml value.pretty =
      if value.nesting ≤ Json.documentNesting then some value.arranged else none :=
    hvalue.ofText?_pretty
  refine ⟨written, ?_, ?_⟩
  · rwa [writeDocument_eq_ok_iff, hformat]
  · rw [readValue, readText, hread, hformat]
    by_cases hnesting : value.nesting ≤ Json.documentNesting
    · rw [if_pos hnesting] at hparsed ⊢
      simp only [bind, Except.bind, hparsed]
      rfl
    · rw [if_neg hnesting] at hparsed ⊢
      simp only [bind, Except.bind, hparsed]
      rfl

end Workspace

end DatasetLineage
