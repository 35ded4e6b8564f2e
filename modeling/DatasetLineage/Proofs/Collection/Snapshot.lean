import DatasetLineage.Proofs.Collection.Built
import DatasetLineage.Proofs.Collection.Order

/-!
# Collections from snapshots

A snapshot is accepted exactly if its relations do not contradict each other: none leads
from a dataset to itself, no edge has two classifiers, and there is no cycle.  Their order
plays no part in it.  The collection that comes out has the homes of the snapshot and its
relations in their order, each of them once.
-/

namespace DatasetLineage

namespace Snapshot

variable {snapshot : Snapshot}

theorem home_mem_listing {id : DatasetId} {home : String} :
    .home id home ∈ Fact.contents snapshot.listing ↔ snapshot.homes.get? id = some home := by
  rw [OrderedMap.get?_eq_some_iff]
  simp [listing, Fact.contents_append, Fact.mem_contents_map, Fact.content]

theorem relation_mem_listing {relation : Relation} :
    .relation relation ∈ Fact.contents snapshot.listing ↔ relation ∈ snapshot.relations := by
  simp [listing, Fact.contents_append, Fact.mem_contents_map, Fact.content]

theorem known_mem_listing {id : DatasetId} :
    .known id ∈ Fact.contents snapshot.listing ↔
      ∃ relation ∈ snapshot.relations, id = relation.source ∨ id = relation.derived := by
  simp [listing, Fact.contents_append, Fact.mem_contents_map, Fact.content]

theorem detail_not_mem_listing {edge : Edge} {tree : Tree} :
    .detail edge tree ∉ Fact.contents snapshot.listing := by
  simp [listing, Fact.contents_append, Fact.mem_contents_map, Fact.content]

theorem relations_listing (snapshot : Snapshot) :
    Fact.relations snapshot.listing = snapshot.relations := by
  rw [listing, Fact.relations_append, Fact.relations_map_of_ne (by simp),
    Fact.relations_map_relation, List.nil_append]

/-- The relations of a snapshot do not contradict each other. -/
structure Acceptable (snapshot : Snapshot) : Prop where
  ends : ∀ relation ∈ snapshot.relations, relation.source ≠ relation.derived
  classifiers : ∀ left ∈ snapshot.relations, ∀ right ∈ snapshot.relations,
    left.edge = right.edge → left.classifier = right.classifier
  acyclic : Acyclic (edgesOf snapshot.relations)

theorem acceptable_of_distinct (hdistinct : (snapshot.relations.map Relation.edge).Nodup)
    (hacyclic : Acyclic (edgesOf snapshot.relations)) : snapshot.Acceptable where
  ends := fun _ hmem => hacyclic.source_ne_derived (Relation.edge_mem_edgesOf hmem)
  classifiers := by
    intro left hleft right hright hedge
    rw [List.inj_on_of_nodup_map hdistinct hleft hright hedge]
  acyclic := hacyclic

/-- Whether a snapshot is acceptable does not depend on the order of its relations. -/
theorem Acceptable.of_perm (hacceptable : snapshot.Acceptable) {other : Snapshot}
    (hperm : snapshot.relations.Perm other.relations) : other.Acceptable where
  ends := fun relation hmem => hacceptable.ends relation (hperm.mem_iff.2 hmem)
  classifiers := fun left hleft right hright =>
    hacceptable.classifiers left (hperm.mem_iff.2 hleft) right (hperm.mem_iff.2 hright)
  acyclic := hacceptable.acyclic.mono fun _ ⟨relation, hmem, hedge⟩ =>
    ⟨relation, hperm.mem_iff.2 hmem, hedge⟩

theorem edgesAmong_contents_listing :
    Fact.edgesAmong (Fact.contents snapshot.listing) = edgesOf snapshot.relations := by
  ext edge
  simp only [Fact.mem_edgesAmong, relation_mem_listing, mem_edgesOf]

/-- What a snapshot says is consistent exactly if its relations do not contradict each
other. -/
theorem consistent_listing_iff :
    Consistent (Fact.contents snapshot.listing) ↔ snapshot.Acceptable := by
  constructor
  · intro hconsistent
    have hacyclic : Acyclic (edgesOf snapshot.relations) := by
      rw [← edgesAmong_contents_listing]
      exact hconsistent.acyclic
    refine ⟨fun _ hmem => hacyclic.source_ne_derived (Relation.edge_mem_edgesOf hmem), ?_,
      hacyclic⟩
    intro left hleft right hright hedge
    exact hconsistent.classifiers left right (relation_mem_listing.2 hleft)
      (relation_mem_listing.2 hright) hedge
  · intro hacceptable
    constructor
    · intro id left right hleft hright
      rw [home_mem_listing] at hleft hright
      exact Option.some.inj (hleft.symm.trans hright)
    · intro left right hleft hright hedge
      rw [relation_mem_listing] at hleft hright
      exact hacceptable.classifiers left hleft right hright hedge
    · rw [edgesAmong_contents_listing]
      exact hacceptable.acyclic
    · intro edge left right hleft
      exact absurd hleft detail_not_mem_listing

end Snapshot

namespace Collection

/-- The collection of a snapshot holds what the snapshot says. -/
theorem facts_ofSnapshot {snapshot : Snapshot} {collection : Collection}
    (hresult : ofSnapshot snapshot = .ok collection) :
    collection.facts = Fact.contents snapshot.listing := by
  rw [ofSnapshot_eq, afterMerging_eq_ok] at hresult
  rw [(sound_empty.enteredAll hresult).facts_eq, facts_empty, Set.empty_union]

theorem ofSnapshot_succeeds_iff (snapshot : Snapshot) :
    (∃ collection, ofSnapshot snapshot = .ok collection) ↔ snapshot.Acceptable := by
  simp only [ofSnapshot_eq, afterMerging_eq_ok]
  rw [sound_empty.enterAll_succeeds_iff, facts_empty, Set.empty_union,
    Snapshot.consistent_listing_iff]

theorem sound_of_ofSnapshot {snapshot : Snapshot} {collection : Collection}
    (hresult : ofSnapshot snapshot = .ok collection) : Sound collection := by
  rw [ofSnapshot_eq, afterMerging_eq_ok] at hresult
  exact (sound_empty.enteredAll hresult).sound

theorem homes_ofSnapshot {snapshot : Snapshot} {collection : Collection}
    (hresult : ofSnapshot snapshot = .ok collection) : collection.homes = snapshot.homes := by
  apply homes_eq
  intro id home
  rw [facts_ofSnapshot hresult, Snapshot.home_mem_listing]

theorem relations_ofSnapshot {snapshot : Snapshot} {collection : Collection}
    (hresult : ofSnapshot snapshot = .ok collection) :
    collection.relations = snapshot.relations.eraseDups := by
  rw [ofSnapshot_eq, afterMerging_eq_ok] at hresult
  rw [sound_empty.relations_enterAll hresult, Snapshot.relations_listing]
  rfl

/-- A snapshot with distinct edges and no cycle is accepted as it is. -/
theorem ofSnapshot_succeeds {snapshot : Snapshot}
    (hdistinct : (snapshot.relations.map Relation.edge).Nodup)
    (hacyclic : Acyclic (edgesOf snapshot.relations)) :
    ∃ collection, ofSnapshot snapshot = .ok collection ∧ Sound collection ∧
      collection.homes = snapshot.homes ∧ collection.relations = snapshot.relations := by
  obtain ⟨collection, hresult⟩ := (ofSnapshot_succeeds_iff snapshot).2
    (Snapshot.acceptable_of_distinct hdistinct hacyclic)
  refine ⟨collection, hresult, sound_of_ofSnapshot hresult, homes_ofSnapshot hresult, ?_⟩
  rw [relations_ofSnapshot hresult, eraseDups_of_nodup (hdistinct.of_map _)]

/-- A collection is built from any relations with distinct edges that lead to greater ids. -/
theorem exists_built_of_ascending {relations : List Relation}
    (hdistinct : (relations.map Relation.edge).Nodup)
    (hascending : ∀ relation ∈ relations, relation.source.value < relation.derived.value) :
    ∃ collection, Built collection ∧ collection.relations = relations := by
  obtain ⟨collection, hresult, _, _, hrelations⟩ :=
    @ofSnapshot_succeeds ⟨OrderedMap.empty, relations⟩ hdistinct (acyclic_of_ascending hascending)
  exact ⟨collection, .ofSnapshot _ hresult, hrelations⟩

end Collection

end DatasetLineage
