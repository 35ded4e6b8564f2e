import DatasetLineage.Proofs.Collection.Entries

/-!
# The order of relations

A collection keeps its relations in the order in which they were first seen, so after
facts are entered its list is the list it had, followed by the relations of the facts,
each one left out that came before.
-/

namespace DatasetLineage

section FirstOccurrences

variable {α β : Type} [BEq α] [LawfulBEq α] [BEq β] [LawfulBEq β]

theorem eraseDups_append_of_subset {first more : List α} (hsubset : ∀ a ∈ more, a ∈ first) :
    (first ++ more).eraseDups = first.eraseDups := by
  have hnone : more.removeAll first = [] := by
    rw [List.removeAll, List.filter_eq_nil_iff]
    intro a ha
    simpa using hsubset a ha
  rw [List.eraseDups_append, hnone]
  simp

theorem eraseDups_concat (values : List α) (value : α) :
    (values ++ [value]).eraseDups =
      if value ∈ values then values.eraseDups else values.eraseDups ++ [value] := by
  by_cases hmem : value ∈ values
  · rw [if_pos hmem]
    apply eraseDups_append_of_subset
    simpa using hmem
  · rw [if_neg hmem, List.eraseDups_append]
    have hkept : [value].removeAll values = [value] := by
      simp [List.removeAll, hmem]
    rw [hkept]
    rfl

theorem eraseDups_of_nodup {values : List α} (hnodup : values.Nodup) :
    values.eraseDups = values := by
  induction values using List.reverseRecOn with
  | nil => rfl
  | append_singleton values value ih =>
      rw [List.nodup_append] at hnodup
      have hfresh : value ∉ values := by
        intro hmem
        exact hnodup.2.2 value hmem value (List.mem_singleton_self value) rfl
      rw [eraseDups_concat, if_neg hfresh, ih hnodup.1]

theorem nodup_eraseDups (values : List α) : values.eraseDups.Nodup := by
  induction values using List.reverseRecOn with
  | nil => simp
  | append_singleton values value ih =>
      rw [eraseDups_concat]
      by_cases hmem : value ∈ values
      · rw [if_pos hmem]
        exact ih
      · rw [if_neg hmem]
        apply ih.append (List.nodup_singleton value)
        simpa [List.mem_eraseDups] using hmem

theorem eraseDups_append_eraseDups (first more : List α) :
    (first.eraseDups ++ more).eraseDups = (first ++ more).eraseDups := by
  induction more using List.reverseRecOn with
  | nil =>
      rw [List.append_nil, List.append_nil]
      exact eraseDups_of_nodup (nodup_eraseDups first)
  | append_singleton more value ih =>
      rw [← List.append_assoc, ← List.append_assoc, eraseDups_concat, eraseDups_concat, ih]
      simp [List.mem_eraseDups]

theorem eraseDups_append_eraseDups_right (first more : List α) :
    (first ++ more.eraseDups).eraseDups = (first ++ more).eraseDups := by
  induction more using List.reverseRecOn with
  | nil => rfl
  | append_singleton more value ih =>
      rw [eraseDups_concat, ← List.append_assoc, eraseDups_concat]
      by_cases hmem : value ∈ more
      · rw [if_pos hmem, if_pos (List.mem_append_right first hmem), ih]
      · rw [if_neg hmem, ← List.append_assoc, eraseDups_concat, ih]
        simp [List.mem_eraseDups]

/-- Values that a function tells apart keep their first occurrences. -/
theorem filterMap_eraseDups {image : α → Option β}
    (hinjective : ∀ left right value, image left = some value → image right = some value →
      left = right) (values : List α) :
    values.eraseDups.filterMap image = (values.filterMap image).eraseDups := by
  induction values using List.reverseRecOn with
  | nil => rfl
  | append_singleton values value ih =>
      rw [eraseDups_concat, List.filterMap_append]
      cases himage : image value with
      | none =>
          have hnothing : [value].filterMap image = [] := by simp [himage]
          rw [hnothing, List.append_nil, ← ih]
          by_cases hmem : value ∈ values
          · rw [if_pos hmem]
          · rw [if_neg hmem, List.filterMap_append, hnothing, List.append_nil]
      | some result =>
          have hone : [value].filterMap image = [result] := by simp [himage]
          have himages : result ∈ values.filterMap image ↔ value ∈ values := by
            rw [List.mem_filterMap]
            constructor
            · intro ⟨other, hother, hsame⟩
              exact hinjective _ _ _ hsame himage ▸ hother
            · intro hmem
              exact ⟨value, hmem, himage⟩
          rw [hone, eraseDups_concat, ← ih]
          by_cases hmem : value ∈ values
          · rw [if_pos hmem, if_pos (himages.2 hmem)]
          · rw [if_neg hmem, if_neg fun h => hmem (himages.1 h), List.filterMap_append, hone]

end FirstOccurrences

def Fact.relations (facts : List Fact) : List Relation :=
  facts.filterMap fun fact =>
    match fact with
    | .relation stated => some stated
    | _ => none

namespace Fact

theorem relations_append (left right : List Fact) :
    relations (left ++ right) = relations left ++ relations right :=
  List.filterMap_append

theorem relations_map_relation (stated : List Relation) :
    relations (stated.map .relation) = stated := by
  induction stated with
  | nil => rfl
  | cons relation rest ih => exact congrArg (relation :: ·) ih

theorem relations_map_of_ne {α : Type} {fact : α → Fact}
    (hne : ∀ value stated, fact value ≠ .relation stated) (values : List α) :
    relations (values.map fact) = [] := by
  rw [relations, List.filterMap_map, List.filterMap_eq_nil_iff]
  intro value _
  rw [Function.comp_apply]
  split
  · next stated heq => exact absurd heq (hne value stated)
  · rfl

theorem mem_contents_of_mem_relations {facts : List Fact} {relation : Relation}
    (hmem : relation ∈ relations facts) : .relation relation ∈ contents facts := by
  obtain ⟨fact, hfact, hstated⟩ := List.mem_filterMap.1 hmem
  cases fact with
  | relation stated =>
      cases hstated
      exact ⟨.relation relation, hfact, .inl rfl⟩
  | home id home => cases hstated
  | known id => cases hstated
  | detail edge tree => cases hstated

end Fact

def Entry.relations (entries : List Entry) : List Relation :=
  Fact.relations (Entry.facts entries)

theorem Entry.relations_append (left right : List Entry) :
    relations (left ++ right) = relations left ++ relations right := by
  rw [relations, facts_append, Fact.relations_append]
  rfl

theorem Entry.relations_flatMap {α : Type} (values : List α) (entries : α → List Entry) :
    relations (values.flatMap entries) =
      values.flatMap fun value => relations (entries value) := by
  induction values with
  | nil => rfl
  | cons value rest ih => rw [List.flatMap_cons, List.flatMap_cons, relations_append, ih]

theorem Entry.relations_ofNode (id : DatasetId) (home : Option String) :
    relations (ofNode id home) = [] := by
  cases home <;> rfl

theorem Entry.relations_ofLink (direction : Direction) (parent : DatasetId)
    (link : String × Tree) (below : List Entry) :
    relations (ofLink direction parent link.1 link.2 below) =
      (direction.edge parent link.2.id).relation link.1 :: relations below := by
  rw [ofLink, relations_append]
  by_cases hmixed : link.2.direction ≠ direction <;>
    by_cases hdetail : link.2.children.hasDetail = true <;>
      simp [hmixed, hdetail, relations, facts, Fact.relations]

namespace Collection

theorem relations_listing (collection : Collection) :
    Fact.relations collection.listing = collection.relations := by
  rw [listing, Fact.relations_append, Fact.relations_append, Fact.relations_append,
    Fact.relations_map_relation, Fact.relations_map_of_ne (by simp),
    Fact.relations_map_of_ne (by simp), Fact.relations_map_of_ne (by simp)]
  simp

variable {collection merged : Collection} {facts : List Fact}

theorem Lockstep.nodup_relations (hlockstep : Lockstep collection) :
    collection.relations.Nodup :=
  hlockstep.distinct.of_map _

theorem Lockstep.nodup_neighbours (hlockstep : Lockstep collection) (direction : Direction)
    (id : DatasetId) : (collection.neighbours direction id).Nodup := by
  rw [hlockstep.neighbours]
  apply hlockstep.nodup_relations.filterMap
  intro left right neighbour hleft hright
  exact Relation.neighbour?_injective direction id left right neighbour hleft hright

/-- Entering a fact puts a relation at the end unless it is there already. -/
theorem Sound.relations_enter (hsound : Sound collection) {fact : Fact}
    (hresult : enter fact collection = .ok () merged) :
    merged.relations = (collection.relations ++ Fact.relations [fact]).eraseDups := by
  have hentered := hsound.entered hresult
  have hkept := eraseDups_of_nodup hsound.nodup_relations
  have hmerged := eraseDups_of_nodup hentered.sound.nodup_relations
  cases fact with
  | home id home =>
      rw [hentered.eq_add, add]
      by_cases hold : collection.homes.contains id = true
      · simp [hold, Fact.relations, hkept]
      · simp [hold, Fact.relations, hkept]
  | known id => simp [hentered.eq_add, add, Fact.relations, hkept]
  | detail edge tree =>
      rw [hentered.eq_add, add]
      by_cases hold : collection.details.contains edge = true
      · simp [hold, Fact.relations, hkept]
      · simp [hold, Fact.relations, hkept]
  | relation stated =>
      change _ = (collection.relations ++ [stated]).eraseDups
      by_cases hmem : stated.edge ∈ collection.edges
      · have hsame : merged = collection := by
          rw [hentered.eq_add]
          exact addRelation_of_mem hsound.toLockstep hmem
        have hstated : Fact.relation stated ∈ merged.facts := by
          rw [hentered.facts_eq]
          exact .inr (.inl rfl)
        rw [hsame] at hstated ⊢
        rw [eraseDups_append_of_subset, hkept]
        simpa using hstated
      · have hadded : merged.relations = collection.relations ++ [stated] := by
          rw [hentered.eq_add, add, addRelation_of_not_mem hsound.toLockstep hmem]
          rfl
        rw [← hadded, hmerged]

/-- Entering facts puts their relations behind the ones that were there, each once. -/
theorem Sound.relations_enterAll (hsound : Sound collection)
    (hresult : enterAll facts collection = .ok () merged) :
    merged.relations = (collection.relations ++ Fact.relations facts).eraseDups := by
  induction facts generalizing collection with
  | nil =>
      cases hresult
      rw [Fact.relations, List.filterMap_nil, List.append_nil]
      exact (eraseDups_of_nodup hsound.nodup_relations).symm
  | cons fact rest ih =>
      rw [enterAll_cons, Merging.bind_eq_ok] at hresult
      obtain ⟨middle, hfirst, hrest⟩ := hresult
      have hsplit : Fact.relations (fact :: rest) =
          Fact.relations [fact] ++ Fact.relations rest :=
        Fact.relations_append [fact] rest
      rw [ih (hsound.entered hfirst).sound hrest, hsound.relations_enter hfirst,
        eraseDups_append_eraseDups, hsplit, List.append_assoc]

def lacks (existing : Collection) (relation : Relation) : Bool :=
  !existing.classifiers.contains relation.edge

theorem Lockstep.lacks_iff (hlockstep : Lockstep collection) {relation : Relation} :
    collection.lacks relation = true ↔ relation.edge ∉ collection.edges := by
  rw [lacks, Bool.not_eq_true', OrderedMap.contains_eq_false]
  exact hlockstep.classifier_eq_none

/-- Entering facts puts those of their relations at the end that were lacking, each once. -/
theorem Sound.relations_enterAll_lacking (hsound : Sound collection)
    (hresult : enterAll facts collection = .ok () merged) :
    merged.relations =
      collection.relations ++ ((Fact.relations facts).filter collection.lacks).eraseDups := by
  have hentered := hsound.enteredAll hresult
  have hremoved : (Fact.relations facts).removeAll collection.relations =
      (Fact.relations facts).filter collection.lacks := by
    apply List.filter_congr
    intro relation hmem
    have hstated : relation ∈ merged.relations :=
      hentered.mem_relations.2 (.inr (Fact.mem_contents_of_mem_relations hmem))
    -- A recorded edge has the classifier that is stated, as the merged relations agree.
    have hrecorded : relation ∈ collection.relations ↔ relation.edge ∈ collection.edges := by
      constructor
      · exact Relation.edge_mem_edgesOf
      · intro ⟨stored, hstored, hedge⟩
        have hkept := hentered.mem_relations.2 (.inl hstored)
        rwa [← hentered.sound.eq_of_edge_eq hkept hstated hedge]
    rw [Bool.eq_iff_iff, hsound.lacks_iff, ← hrecorded]
    simp
  rw [hsound.relations_enterAll hresult, List.eraseDups_append, hremoved,
    eraseDups_of_nodup hsound.nodup_relations]

/-- Facts that state each of their relations once put those at the end that were lacking. -/
theorem Sound.relations_enterAll_of_nodup (hsound : Sound collection)
    (hnodup : (Fact.relations facts).Nodup)
    (hresult : enterAll facts collection = .ok () merged) :
    merged.relations =
      collection.relations ++ (Fact.relations facts).filter collection.lacks := by
  rw [hsound.relations_enterAll_lacking hresult, eraseDups_of_nodup (hnodup.filter _)]

/-- The neighbours of a dataset after facts are entered, in their order. -/
theorem Sound.neighbours_enterAll (hsound : Sound collection)
    (hresult : enterAll facts collection = .ok () merged) (direction : Direction)
    (id : DatasetId) :
    merged.neighbours direction id = (collection.neighbours direction id ++
      (Fact.relations facts).filterMap (Relation.neighbour? direction id)).eraseDups := by
  rw [(hsound.enteredAll hresult).sound.neighbours, hsound.neighbours,
    hsound.relations_enterAll hresult,
    filterMap_eraseDups (Relation.neighbour?_injective direction id), List.filterMap_append]

end Collection

end DatasetLineage
