import DatasetLineage.Document.Record
import DatasetLineage.Proofs.DatasetId
import DatasetLineage.Proofs.Json.RoundTrip
import DatasetLineage.Proofs.OrderedMap

/-!
# Reading records

A record is read by the names of its fields, and homes are put in order by their ids as they
are read.  So neither depends on the places of the fields, and relations, homes and whole
snapshots come back from what they were written as, wherever a reader of documents has put
their fields.
-/

namespace DatasetLineage

/-- Reading every item of a list, all of which can be read. -/
theorem mapM_eq_filterMap {α β : Type} {read? : α → Option β} {items : List α}
    (hread : ∀ item ∈ items, ∃ value, read? item = some value) :
    items.mapM read? = some (items.filterMap read?) := by
  induction items with
  | nil => rfl
  | cons item rest ih =>
      obtain ⟨⟨value, hvalue⟩, hrest⟩ := List.forall_mem_cons.1 hread
      rw [List.mapM_cons, hvalue, ih hrest, List.filterMap_cons_some hvalue]
      rfl

section Written

variable {α β : Type} {read? : α → Option β} {write : β → α}

theorem filterMap_written (hread : ∀ value, read? (write value) = some value)
    (values : List β) : (values.map write).filterMap read? = values := by
  rw [List.filterMap_map]
  exact (List.filterMap_congr fun value _ => hread value).trans List.filterMap_some

/-- Items that were written are read in any order, and stay in that order. -/
theorem mapM_of_perm (hread : ∀ value, read? (write value) = some value) {items : List α}
    {values : List β} (hperm : items.Perm (values.map write)) :
    items.mapM read? = some (items.filterMap read?) ∧ (items.filterMap read?).Perm values := by
  constructor
  · apply mapM_eq_filterMap
    intro item hitem
    obtain ⟨value, _, rfl⟩ := List.mem_map.1 (hperm.mem_iff.1 hitem)
    exact ⟨value, hread value⟩
  · exact filterMap_written hread values ▸ hperm.filterMap read?

theorem mapM_written (hread : ∀ value, read? (write value) = some value) (values : List β) :
    (values.map write).mapM read? = some values := by
  rw [(mapM_of_perm hread (.refl _)).1, filterMap_written hread]

end Written

namespace Json

/-! ## Fields at their places -/

theorem lookup_cons (name other : String) (value : Json) (fields : List (String × Json)) :
    ((name, value) :: fields).lookup other =
      if other = name then some value else fields.lookup other := by
  rw [List.lookup_cons]
  by_cases heq : other = name
  · rw [if_pos heq, heq, beq_self_eq_true]
  · rw [if_neg heq, beq_false_of_ne heq]

/-- A field is found by its name wherever it was put. -/
theorem lookup_putField (name other : String) (value : Json) (fields : List (String × Json)) :
    (putField name value fields).lookup other =
      if other = name then some value else fields.lookup other := by
  induction fields with
  | nil => exact lookup_cons name other value []
  | cons field rest ih =>
      obtain ⟨first, old⟩ := field
      rw [putField]
      split
      · exact lookup_cons name other value _
      · split
        · next hsame =>
            subst hsame
            rw [lookup_cons, lookup_cons]
            split <;> rfl
        · next hne =>
            rw [lookup_cons, ih, lookup_cons]
            by_cases hfirst : other = first
            · rw [if_pos hfirst, if_pos hfirst, if_neg fun heq => hne (heq.symm.trans hfirst)]
            · rw [if_neg hfirst, if_neg hfirst]

/-- A field with a new name is one more field. -/
theorem perm_putField {name : String} {value : Json} {fields : List (String × Json)}
    (hfresh : ∀ field ∈ fields, field.1 ≠ name) :
    (putField name value fields).Perm ((name, value) :: fields) := by
  induction fields with
  | nil => exact .refl _
  | cons field rest ih =>
      obtain ⟨first, old⟩ := field
      obtain ⟨hfirst, hrest⟩ := List.forall_mem_cons.1 hfresh
      rw [putField]
      split
      · exact .refl _
      · rw [if_neg (Ne.symm hfirst)]
        exact ((ih hrest).cons _).trans (.swap _ _ _)

/-- Fields with different names are the same fields after they were put at their places. -/
theorem perm_arrangedFields {fields : List (String × Json)} (read : List (String × Json))
    (hnames : ((fields ++ read).map Prod.fst).Nodup) :
    (arrangedFields read fields).Perm
      (fields.map (fun field => (field.1, field.2.arranged)) ++ read) := by
  induction fields generalizing read with
  | nil => exact .refl _
  | cons field rest ih =>
      obtain ⟨name, value⟩ := field
      obtain ⟨hname, hrest⟩ := List.nodup_cons.1 hnames
      have hput : (putField name value.arranged read).Perm ((name, value.arranged) :: read) := by
        apply perm_putField
        intro field hfield hsame
        exact hname (List.mem_map.2 ⟨field, List.mem_append_right _ hfield, hsame⟩)
      have hplace : (rest ++ putField name value.arranged read).Perm
          ((name, value.arranged) :: (rest ++ read)) :=
        (hput.append_left rest).trans List.perm_middle
      have hnext : ((rest ++ putField name value.arranged read).map Prod.fst).Nodup :=
        (hplace.map Prod.fst).nodup_iff.2 (List.nodup_cons.2 ⟨hname, hrest⟩)
      exact (ih _ hnext).trans ((hput.append_left _).trans List.perm_middle)

theorem lookup_arrangedFields {fields : List (String × Json)}
    (hnames : (fields.map Prod.fst).Nodup) (read : List (String × Json)) (name : String) :
    (arrangedFields read fields).lookup name =
      ((fields.lookup name).map arranged).or (read.lookup name) := by
  induction fields generalizing read with
  | nil => rfl
  | cons field rest ih =>
      obtain ⟨first, value⟩ := field
      obtain ⟨hfirst, hrest⟩ := List.nodup_cons.1 hnames
      rw [arrangedFields, ih hrest, lookup_putField, lookup_cons]
      by_cases heq : name = first
      · have habsent : rest.lookup name = none := by
          rw [List.lookup_eq_none_iff]
          intro field hfield
          apply bne_iff_ne.2
          rintro rfl
          exact hfirst (List.mem_map.2 ⟨field, hfield, heq⟩)
        rw [if_pos heq, if_pos heq, habsent]
        rfl
      · rw [if_neg heq, if_neg heq]

/-- The fields of a record are found by their names wherever they were put. -/
theorem record?_arranged {fields : List (String × Json)} (hnames : (fields.map Prod.fst).Nodup)
    (names : List String) :
    record? names (Json.object fields).arranged =
      some (names.map fun name => (fields.lookup name).map arranged) := by
  rw [arranged, record?]
  simp only [lookup_arrangedFields hnames, List.lookup_nil, Option.or_none]

end Json

/-! ## Homes -/

theorem DatasetId.toString_injective : Function.Injective (toString : DatasetId → String) := by
  intro left right heq
  have hread := DatasetId.ofText?_toString left
  rw [heq, DatasetId.ofText?_toString right] at hread
  exact (Option.some.inj hread).symm

namespace Homes

def field (entry : DatasetId × String) : String × Json :=
  (toString entry.1, .text entry.2)

def ofField? (field : String × Json) : Option (DatasetId × String) := do
  some (← DatasetId.ofText? field.1, ← field.2.text?)

theorem ofField?_field (entry : DatasetId × String) : ofField? (field entry) = some entry := by
  rw [ofField?, field, DatasetId.ofText?_toString]
  rfl

theorem nodup_names (homes : Homes) : ((homes.entries.map field).map Prod.fst).Nodup := by
  have hnames : (homes.entries.map field).map Prod.fst =
      (homes.entries.map Prod.fst).map toString := by
    rw [List.map_map, List.map_map]
    rfl
  rw [hnames]
  exact (OrderedMap.distinct_of_ascending homes.ascending).map DatasetId.toString_injective

/-- Homes come back from their fields wherever these were put. -/
theorem ofJson?_arranged (homes : Homes) : ofJson? homes.toJson.arranged = some homes := by
  have hplaces : (Json.arrangedFields [] (homes.entries.map field)).Perm
      (homes.entries.map field) := by
    have harranged := Json.perm_arrangedFields []
      ((List.append_nil (homes.entries.map field)).symm ▸ homes.nodup_names)
    rw [List.append_nil, List.map_map] at harranged
    exact harranged
  obtain ⟨hread, hentries⟩ := mapM_of_perm ofField?_field hplaces
  change (do
    let entries ← (Json.arrangedFields [] (homes.entries.map field)).mapM ofField?
    some (OrderedMap.ofList entries)) = some homes
  rw [hread]
  exact congrArg some (OrderedMap.ofList_of_perm hentries)

end Homes

/-! ## Relations and snapshots -/

theorem Relation.ofJson?_arranged (relation : Relation) :
    ofJson? relation.toJson.arranged = some relation := by
  have hfields : Json.record? fieldNames relation.toJson.arranged =
      some [some (.text relation.classifier), some (.ofId relation.source),
        some (.ofId relation.derived)] := by
    refine Json.record?_arranged ?_ fieldNames
    exact (show fieldNames.Nodup by decide)
  rw [ofJson?, hfields]
  simp [Json.text?, Json.id?, Json.ofId, DatasetId.ofText?_toString]

/-- Relations are read in the order in which they were written. -/
theorem Relation.listOfJson?_arranged (relations : List Relation) :
    listOfJson? (listToJson relations).arranged = some relations := by
  rw [listToJson, Json.arranged, Json.arrangedItems_eq_map, List.map_map]
  exact mapM_written ofJson?_arranged relations

/-- A snapshot comes back from its fields wherever these were put. -/
theorem Snapshot.ofJson?_arranged (snapshot : Snapshot) :
    ofJson? snapshot.toJson.arranged = some snapshot := by
  have hfields : Json.record? fieldNames snapshot.toJson.arranged =
      some [some (Homes.toJson snapshot.homes).arranged,
        some (Relation.listToJson snapshot.relations).arranged] := by
    refine Json.record?_arranged ?_ fieldNames
    exact (show fieldNames.Nodup by decide)
  rw [ofJson?, hfields]
  simp [Homes.ofJson?_arranged, Relation.listOfJson?_arranged]

end DatasetLineage
