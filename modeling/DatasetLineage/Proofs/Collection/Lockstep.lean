import DatasetLineage.Collection.Merge
import DatasetLineage.Proofs.Derivation

/-!
# Indices in lockstep

A collection keeps its relations in a list and in four indices.  The indices say the
same as the list: the classifier of every edge, the neighbours of every dataset in the
order of the list, and the datasets at the ends of the relations, which are known.
Entering a new relation keeps it so.
-/

namespace DatasetLineage

def Relation.neighbour? (direction : Direction) (id : DatasetId) (relation : Relation) :
    Option Neighbour :=
  match direction with
  | .sources =>
      if relation.derived = id then some ⟨relation.source, relation.classifier⟩ else none
  | .derived =>
      if relation.source = id then some ⟨relation.derived, relation.classifier⟩ else none

theorem Relation.ext_edge {left right : Relation} (hedge : left.edge = right.edge)
    (hclassifier : left.classifier = right.classifier) : left = right := by
  obtain ⟨_, _, _⟩ := left
  obtain ⟨_, _, _⟩ := right
  simp_all [Relation.edge]

def Edge.relation (edge : Edge) (classifier : String) : Relation :=
  ⟨classifier, edge.source, edge.derived⟩

@[simp]
theorem Edge.relation_edge (edge : Edge) (classifier : String) :
    (edge.relation classifier).edge = edge := rfl

@[simp]
theorem Edge.relation_classifier (edge : Edge) (classifier : String) :
    (edge.relation classifier).classifier = classifier := rfl

@[simp]
theorem Relation.edge_relation (relation : Relation) :
    relation.edge.relation relation.classifier = relation := rfl

theorem Relation.neighbour?_eq_some {direction : Direction} {id : DatasetId}
    {relation : Relation} {neighbour : Neighbour} :
    relation.neighbour? direction id = some neighbour ↔
      relation = (direction.edge id neighbour.id).relation neighbour.classifier := by
  obtain ⟨classifier, source, derived⟩ := relation
  obtain ⟨other, label⟩ := neighbour
  cases direction <;> simp only [neighbour?, Direction.edge, Edge.relation] <;> split <;>
    simp_all [and_comm, eq_comm]

/-- A neighbour comes from one relation only. -/
theorem Relation.neighbour?_injective (direction : Direction) (id : DatasetId)
    (left right : Relation) (neighbour : Neighbour)
    (hleft : left.neighbour? direction id = some neighbour)
    (hright : right.neighbour? direction id = some neighbour) : left = right := by
  rw [neighbour?_eq_some] at hleft hright
  rw [hleft, hright]

namespace Collection

abbrev edges (collection : Collection) : Set Edge :=
  edgesOf collection.relations

/-- The indices of a collection say the same as its list of relations, which holds no
edge twice. -/
structure Lockstep (collection : Collection) : Prop where
  distinct : (collection.relations.map Relation.edge).Nodup
  classifiers : ∀ edge classifier,
    collection.classifier edge = some classifier ↔
      edge.relation classifier ∈ collection.relations
  neighbours : ∀ direction id,
    collection.neighbours direction id =
      collection.relations.filterMap (Relation.neighbour? direction id)
  known : ∀ relation ∈ collection.relations,
    collection.contains relation.source = true ∧ collection.contains relation.derived = true

theorem lockstep_empty : Lockstep empty where
  distinct := List.nodup_nil
  classifiers := by
    intro edge classifier
    constructor <;> intro h <;> cases h
  neighbours := by
    intro direction id
    cases direction <;> rfl
  known := by
    intro relation hmem
    cases hmem

/-- Lockstep is a matter of the relations and their indices alone. -/
theorem Lockstep.of_eq {collection changed : Collection} (hlockstep : Lockstep collection)
    (hrelations : changed.relations = collection.relations)
    (hclassifiers : changed.classifiers = collection.classifiers)
    (hsource : changed.bySource = collection.bySource)
    (hderived : changed.byDerived = collection.byDerived)
    (hknown : ∀ id, collection.contains id = true → changed.contains id = true) :
    Lockstep changed where
  distinct := by
    rw [hrelations]
    exact hlockstep.distinct
  classifiers := by
    intro edge classifier
    rw [Collection.classifier, hclassifiers, hrelations]
    exact hlockstep.classifiers edge classifier
  neighbours := by
    intro direction id
    rw [hrelations, ← hlockstep.neighbours direction id]
    cases direction with
    | sources => rw [Collection.neighbours, Collection.neighbours, hderived]
    | derived => rw [Collection.neighbours, Collection.neighbours, hsource]
  known := by
    intro relation hmem
    rw [hrelations] at hmem
    obtain ⟨hfirst, hsecond⟩ := hlockstep.known relation hmem
    exact ⟨hknown _ hfirst, hknown _ hsecond⟩

/-! ## Entering a relation -/

theorem neighboursIn_pushNeighbour (index : OrderedMap DatasetId (List Neighbour))
    (id other : DatasetId) (neighbour : Neighbour) :
    neighboursIn (pushNeighbour index id neighbour) other =
      neighboursIn index other ++ if id = other then [neighbour] else [] := by
  rw [pushNeighbour, neighboursIn, OrderedMap.get?_insert]
  by_cases heq : id = other
  · subst heq
    simp
  · rw [if_neg fun hrank => heq (rank_eq_iff.1 hrank), if_neg heq, List.append_nil,
      neighboursIn]

theorem neighbours_insertRelation (collection : Collection) (relation : Relation)
    (direction : Direction) (id : DatasetId) :
    (collection.insertRelation relation).neighbours direction id =
      collection.neighbours direction id ++ (relation.neighbour? direction id).toList := by
  obtain ⟨classifier, source, derived⟩ := relation
  cases direction with
  | sources =>
      change neighboursIn (pushNeighbour collection.byDerived derived _) id = _
      rw [neighboursIn_pushNeighbour]
      by_cases heq : derived = id <;> simp [Relation.neighbour?, heq, neighbours]
  | derived =>
      change neighboursIn (pushNeighbour collection.bySource source _) id = _
      rw [neighboursIn_pushNeighbour]
      by_cases heq : source = id <;> simp [Relation.neighbour?, heq, neighbours]

@[simp]
theorem relations_insertRelation (collection : Collection) (relation : Relation) :
    (collection.insertRelation relation).relations = collection.relations ++ [relation] :=
  rfl

theorem classifier_insertRelation (collection : Collection) (relation : Relation)
    (edge : Edge) :
    (collection.insertRelation relation).classifier edge =
      if relation.edge = edge then some relation.classifier
      else collection.classifier edge := by
  change (collection.classifiers.insert relation.edge relation.classifier).get? edge = _
  rw [OrderedMap.get?_insert]
  by_cases heq : relation.edge = edge
  · rw [if_pos heq, if_pos (congrArg rank heq)]
  · rw [if_neg heq, if_neg fun hrank => heq (rank_eq_iff.1 hrank)]
    rfl

theorem contains_insertRelation {collection : Collection} {relation : Relation}
    {id : DatasetId} :
    (collection.insertRelation relation).contains id = true ↔
      collection.contains id = true ∨ id = relation.source ∨ id = relation.derived := by
  change (IdSet.add (IdSet.add collection.known relation.source) relation.derived).contains
    id = true ↔ _
  rw [IdSet.contains_add, IdSet.contains_add, or_assoc]
  exact Iff.rfl

theorem edges_insertRelation (collection : Collection) (relation : Relation) :
    (collection.insertRelation relation).edges = insert relation.edge collection.edges := by
  rw [edges, relations_insertRelation, edgesOf_append, Set.union_comm, Set.insert_eq]
  congr 1
  ext edge
  simp [mem_edgesOf, eq_comm]

namespace Lockstep

variable {collection : Collection}

theorem classifier_eq_none (hlockstep : Lockstep collection) {edge : Edge} :
    collection.classifier edge = none ↔ edge ∉ collection.edges := by
  rw [Option.eq_none_iff_forall_ne_some]
  constructor
  · rintro habsent ⟨relation, hmem, rfl⟩
    exact habsent relation.classifier ((hlockstep.classifiers _ _).2 hmem)
  · intro habsent classifier hclassifier
    exact habsent ⟨_, (hlockstep.classifiers _ _).1 hclassifier, rfl⟩

theorem classifier_of_mem (hlockstep : Lockstep collection) {relation : Relation}
    (hmem : relation ∈ collection.relations) :
    collection.classifier relation.edge = some relation.classifier :=
  (hlockstep.classifiers _ _).2 hmem

/-- One edge, one relation. -/
theorem eq_of_edge_eq (hlockstep : Lockstep collection) {left right : Relation}
    (hleft : left ∈ collection.relations) (hright : right ∈ collection.relations)
    (hedge : left.edge = right.edge) : left = right := by
  refine Relation.ext_edge hedge (Option.some.inj ?_)
  rw [← hlockstep.classifier_of_mem hleft, ← hlockstep.classifier_of_mem hright, hedge]

theorem mem_neighbours (hlockstep : Lockstep collection) {direction : Direction}
    {id : DatasetId} {neighbour : Neighbour} :
    neighbour ∈ collection.neighbours direction id ↔
      (direction.edge id neighbour.id).relation neighbour.classifier ∈
        collection.relations := by
  rw [hlockstep.neighbours, List.mem_filterMap]
  constructor
  · intro ⟨relation, hmem, hneighbour⟩
    rwa [Relation.neighbour?_eq_some.1 hneighbour] at hmem
  · intro hmem
    exact ⟨_, hmem, Relation.neighbour?_eq_some.2 rfl⟩

/-- The neighbours of a dataset are what its edges lead to. -/
theorem leads_iff (hlockstep : Lockstep collection) {direction : Direction}
    {parent child : DatasetId} :
    Leads collection.edges direction parent child ↔
      ∃ neighbour ∈ collection.neighbours direction parent, neighbour.id = child := by
  constructor
  · intro ⟨relation, hmem, hedge⟩
    refine ⟨⟨child, relation.classifier⟩, hlockstep.mem_neighbours.2 ?_, rfl⟩
    rwa [← hedge]
  · rintro ⟨neighbour, hmem, rfl⟩
    exact ⟨_, hlockstep.mem_neighbours.1 hmem, rfl⟩

/-- Both ends of an edge are known. -/
theorem contains_of_leads (hlockstep : Lockstep collection) (direction : Direction)
    {parent child : DatasetId} (hleads : Leads collection.edges direction parent child) :
    collection.contains parent = true ∧ collection.contains child = true := by
  obtain ⟨relation, hmem, hedge⟩ := hleads
  obtain ⟨hsource, hderived⟩ := hlockstep.known relation hmem
  have hends : relation.source = (direction.edge parent child).source ∧
      relation.derived = (direction.edge parent child).derived := by
    rw [← hedge]
    exact ⟨rfl, rfl⟩
  rw [hends.1] at hsource
  rw [hends.2] at hderived
  cases direction with
  | sources => exact ⟨hderived, hsource⟩
  | derived => exact ⟨hsource, hderived⟩

/-- A relation over an edge that is not there yet can be entered. -/
theorem insertRelation (hlockstep : Lockstep collection) {relation : Relation}
    (hfresh : relation.edge ∉ collection.edges) :
    Lockstep (collection.insertRelation relation) where
  distinct := by
    rw [relations_insertRelation, List.map_append, List.nodup_append]
    refine ⟨hlockstep.distinct, List.nodup_singleton _, ?_⟩
    intro edge hold other hnew heq
    obtain ⟨stored, hmem, hedge⟩ := List.mem_map.1 hold
    refine hfresh ⟨stored, hmem, ?_⟩
    rw [hedge, heq, List.mem_singleton.1 hnew]
  classifiers := by
    intro edge classifier
    rw [classifier_insertRelation, relations_insertRelation, List.mem_append,
      List.mem_singleton]
    by_cases heq : relation.edge = edge
    · subst heq
      rw [if_pos rfl, Option.some.injEq]
      constructor
      · rintro rfl
        exact .inr rfl
      · rintro (hmem | heq)
        · exact absurd ⟨_, hmem, rfl⟩ hfresh
        · rw [← heq]
          rfl
    · rw [if_neg heq, hlockstep.classifiers]
      constructor
      · exact .inl
      · rintro (hmem | rfl)
        · exact hmem
        · exact absurd rfl heq
  neighbours := by
    intro direction id
    rw [neighbours_insertRelation, hlockstep.neighbours, relations_insertRelation,
      List.filterMap_append]
    cases hneighbour : relation.neighbour? direction id <;> simp [hneighbour]
  known := by
    intro other hmem
    rw [relations_insertRelation, List.mem_append, List.mem_singleton] at hmem
    rw [contains_insertRelation, contains_insertRelation]
    rcases hmem with hmem | rfl
    · exact ⟨.inl (hlockstep.known other hmem).1, .inl (hlockstep.known other hmem).2⟩
    · exact ⟨.inr (.inl rfl), .inr (.inr rfl)⟩

end Lockstep

end Collection

end DatasetLineage
