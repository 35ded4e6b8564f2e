import DatasetLineage.Proofs.Document.File
import DatasetLineage.Proofs.Document.Record
import DatasetLineage.Proofs.Document.TreeFile

/-!
# Snapshots in files

A snapshot is a document of texts with three containers inside each other at most, so the reader
of documents never refuses it.  Whatever its homes and relations are, it is loaded from a JSON
file as it was written to it, and read from its text on one line or on several.
-/

namespace DatasetLineage

namespace Snapshot

theorem textual_toJson (snapshot : Snapshot) : snapshot.toJson.Textual := by
  have hhomes : snapshot.homes.toJson.Textual := by
    refine .object fun field hfield => ?_
    obtain ⟨entry, _, rfl⟩ := List.mem_map.1 hfield
    exact .text entry.2
  have hrelation : ∀ relation : Relation, relation.toJson.Textual := by
    intro relation
    refine .object fun field hfield => ?_
    simp only [List.mem_cons, List.not_mem_nil, or_false] at hfield
    rcases hfield with rfl | rfl | rfl <;> exact .text _
  have hrelations : (Relation.listToJson snapshot.relations).Textual := by
    refine .array fun item hitem => ?_
    obtain ⟨relation, _, rfl⟩ := List.mem_map.1 hitem
    exact hrelation relation
  refine .object fun field hfield => ?_
  simp only [List.mem_cons, List.not_mem_nil, or_false] at hfield
  rcases hfield with rfl | rfl
  · exact hhomes
  · exact hrelations

/-- A snapshot is an object of an object of texts and an array of objects of texts. -/
theorem nesting_toJson_le (snapshot : Snapshot) : snapshot.toJson.nesting ≤ 3 := by
  have hhomes : snapshot.homes.toJson.nesting ≤ 1 := by
    refine Nat.succ_le_succ (Json.fieldsNesting_le_iff.2 fun field hfield => ?_)
    obtain ⟨entry, _, rfl⟩ := List.mem_map.1 hfield
    exact le_rfl
  have hrelations : (Relation.listToJson snapshot.relations).nesting ≤ 2 := by
    refine Nat.succ_le_succ (Json.itemsNesting_le_iff.2 fun item hitem => ?_)
    obtain ⟨relation, _, rfl⟩ := List.mem_map.1 hitem
    exact le_rfl
  refine Nat.succ_le_succ (Json.fieldsNesting_le_iff.2 fun field hfield => ?_)
  simp only [List.mem_cons, List.not_mem_nil, or_false] at hfield
  rcases hfield with rfl | rfl
  · exact hhomes.trans (by decide)
  · exact hrelations

theorem nesting_toJson_permitted (snapshot : Snapshot) :
    snapshot.toJson.nesting ≤ Json.documentNesting :=
  snapshot.nesting_toJson_le.trans (by decide)

/-- The text of a snapshot is read as the snapshot. -/
theorem ofJson?_of_render (snapshot : Snapshot) (yaml : YamlReader) (pretty : Bool) :
    (Format.json.read? yaml (Format.json.render snapshot.toJson pretty)).bind ofJson? =
      some snapshot := by
  have hread : Format.json.read? yaml (Format.json.render snapshot.toJson pretty) =
      some snapshot.toJson.arranged := by
    have hpermitted := snapshot.nesting_toJson_permitted
    cases pretty with
    | false => exact snapshot.textual_toJson.ofText?_compact.trans (if_pos hpermitted)
    | true => exact snapshot.textual_toJson.ofText?_pretty.trans (if_pos hpermitted)
  rw [hread]
  exact snapshot.ofJson?_arranged

end Snapshot

namespace Workspace

variable {workspace : Workspace} {path : String} {location : Location}

/-- A snapshot that was written to a file is loaded from it. -/
theorem LeadsToFile.loadSnapshot_of_writeDocument (hpath : workspace.LeadsToFile path location)
    (hformat : Format.ofPath path = .json) (snapshot : Snapshot) (yaml : YamlReader) :
    ∃ written, workspace.writeDocument path snapshot.toJson = .ok written ∧
      written.loadSnapshot path yaml = .ok snapshot := by
  obtain ⟨written, hwritten, hread⟩ :=
    hpath.readValue_of_writeDocument hformat snapshot.textual_toJson yaml
  refine ⟨written, hwritten, ?_⟩
  rw [loadSnapshot, hread, if_pos snapshot.nesting_toJson_permitted]
  simp only [bind, Except.bind, snapshot.ofJson?_arranged]
  rfl

/-- Snapshots are kept without loss, whatever their texts are and whether or not a store would
accept them: in a JSON file that can be written, and as a text on one line or on several. -/
theorem loadSnapshot_writeDocument (hpath : workspace.LeadsToFile path location)
    (hformat : Format.ofPath path = .json) (snapshot : Snapshot) (yaml : YamlReader) :
    (∃ written, workspace.writeDocument path snapshot.toJson = .ok written ∧
      written.loadSnapshot path yaml = .ok snapshot) ∧
    ∀ pretty, (Format.json.read? yaml (Format.json.render snapshot.toJson pretty)).bind
      Snapshot.ofJson? = some snapshot :=
  ⟨hpath.loadSnapshot_of_writeDocument hformat snapshot yaml, snapshot.ofJson?_of_render yaml⟩

/-- A snapshot that no store accepts, with all kinds of characters in its texts. -/
theorem loadSnapshot_writeDocument_of_odd_texts :
    let snapshot : Snapshot :=
      ⟨OrderedMap.empty.insert (.numbered 7) "a \"b\" \\ \x08\x1f\n\t é ∀ 🝰",
        [⟨"\\u0041\x00", .numbered 2, .numbered 2⟩, ⟨"", .numbered 2, .numbered 2⟩]⟩
    ∃ written, writeDocument {} "tree" snapshot.toJson = .ok written ∧
      written.loadSnapshot "tree" = .ok snapshot ∧
      ∀ pretty, (Format.json.read? .untagged (Format.json.render snapshot.toJson pretty)).bind
        Snapshot.ofJson? = some snapshot := by
  intro snapshot
  obtain ⟨⟨written, hwritten, hloaded⟩, htext⟩ :=
    loadSnapshot_writeDocument leadsToFile_tree ofPath_tree snapshot .untagged
  exact ⟨written, hwritten, hloaded, htext⟩

end Workspace

end DatasetLineage
