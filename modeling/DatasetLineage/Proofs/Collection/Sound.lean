import DatasetLineage.Proofs.Collection.CycleSearch
import DatasetLineage.Proofs.OrderedMap

/-!
# Sound collections

A collection is sound if its indices are in lockstep and its relations have no cycle.
On a sound collection the merge of one relation is decided by what it says, not by how it
is checked: it succeeds exactly if the relation does not contradict the classifier of its
edge and closes no cycle.  The search that is left out when an end is unknown would have
found nothing.
-/

namespace DatasetLineage

namespace Merging

theorem bind_eq_ok {first second : Merging Unit} {before after : Collection} :
    (do first; second) before = .ok () after ↔
      ∃ middle, first before = .ok () middle ∧ second middle = .ok () after := by
  change EStateM.bind first (fun _ => second) before = _ ↔ _
  rw [EStateM.bind]
  cases hfirst : first before with
  | ok result middle =>
      constructor
      · intro hsecond
        exact ⟨middle, rfl, hsecond⟩
      · intro ⟨other, heq, hsecond⟩
        cases heq
        exact hsecond
  | error error middle =>
      constructor
      · intro h
        cases h
      · intro ⟨other, heq, _⟩
        cases heq

theorem check_eq_ok_iff {result : Collection → Except LineageError Unit}
    {before after : Collection} :
    check result before = .ok () after ↔ result before = .ok () ∧ after = before := by
  rw [check]
  cases hresult : result before with
  | ok _ =>
      constructor
      · intro h
        cases h
        exact ⟨rfl, rfl⟩
      · rintro ⟨_, rfl⟩
        rfl
  | error error =>
      constructor
      · intro h
        cases h
      · intro ⟨h, _⟩
        cases h

end Merging

namespace Collection

/-- Indices in lockstep, and no cycle. -/
structure Sound (collection : Collection) : Prop extends Lockstep collection where
  acyclic : Acyclic collection.edges

variable {collection : Collection}

theorem sound_empty : Sound empty where
  toLockstep := lockstep_empty
  acyclic := by
    change Acyclic (edgesOf [])
    rw [edgesOf_nil]
    exact acyclic_empty

theorem Sound.ensureAcyclic (hsound : Sound collection) (direction : Direction)
    (root : DatasetId) : collection.ensureAcyclic direction root = .ok () :=
  (ensureAcyclic_eq_ok_iff hsound.toLockstep).2 fun target _ =>
    hsound.acyclic.not_below direction target

/-- A collection with a relation, which is entered if its edge is not there yet. -/
def addRelation (collection : Collection) (relation : Relation) : Collection :=
  if collection.classifiers.contains relation.edge then collection
  else collection.insertRelation relation

theorem addRelation_of_mem (hlockstep : Lockstep collection) {relation : Relation}
    (hmem : relation.edge ∈ collection.edges) :
    collection.addRelation relation = collection := by
  obtain ⟨stored, hstored, hedge⟩ := hmem
  refine if_pos (OrderedMap.contains_eq_true.2 ⟨stored.classifier, ?_⟩)
  rw [← hedge]
  exact hlockstep.classifier_of_mem hstored

theorem addRelation_of_not_mem (hlockstep : Lockstep collection) {relation : Relation}
    (hfresh : relation.edge ∉ collection.edges) :
    collection.addRelation relation = collection.insertRelation relation := by
  apply if_neg
  intro hcontains
  rw [OrderedMap.contains_eq_false.2 (hlockstep.classifier_eq_none.2 hfresh)] at hcontains
  cases hcontains

theorem edges_addRelation (hlockstep : Lockstep collection) (relation : Relation) :
    (collection.addRelation relation).edges = insert relation.edge collection.edges := by
  by_cases hmem : relation.edge ∈ collection.edges
  · rw [addRelation_of_mem hlockstep hmem, Set.insert_eq_of_mem hmem]
  · rw [addRelation_of_not_mem hlockstep hmem, edges_insertRelation]

theorem Lockstep.addRelation (hlockstep : Lockstep collection) (relation : Relation) :
    Lockstep (collection.addRelation relation) := by
  by_cases hmem : relation.edge ∈ collection.edges
  · rw [addRelation_of_mem hlockstep hmem]
    exact hlockstep
  · rw [addRelation_of_not_mem hlockstep hmem]
    exact hlockstep.insertRelation hmem

theorem Sound.addRelation (hsound : Sound collection) {relation : Relation}
    (hacyclic : Acyclic (insert relation.edge collection.edges)) :
    Sound (collection.addRelation relation) where
  toLockstep := hsound.toLockstep.addRelation relation
  acyclic := by
    rw [edges_addRelation hsound.toLockstep]
    exact hacyclic

/-- With an end that was not known before, a new edge closes no cycle. -/
theorem Sound.acyclic_insert_of_unknown (hsound : Sound collection) {relation : Relation}
    (hends : relation.source ≠ relation.derived)
    (hunknown : ¬(collection.contains relation.source && collection.contains relation.derived)) :
    Acyclic (insert relation.edge collection.edges) := by
  apply acyclic_insert_of_fresh hsound.acyclic hends
  rw [Bool.and_eq_true, not_and_or] at hunknown
  refine hunknown.imp (fun hsource edge hedge heq => ?_) fun hderived edge hedge heq => ?_
  · have hknown := (hsound.contains_of_leads .derived hedge).2
    rw [heq] at hknown
    exact hsource hknown
  · have hknown := (hsound.contains_of_leads .derived hedge).1
    rw [heq] at hknown
    exact hderived hknown

/-- The two searches after a new edge are right about the cycles it closes. -/
theorem Sound.searches_eq_ok_iff (hsound : Sound collection) {relation : Relation}
    (hfresh : relation.edge ∉ collection.edges) :
    ((collection.insertRelation relation).ensureAcyclic .sources relation.derived = .ok () ∧
      (collection.insertRelation relation).ensureAcyclic .derived relation.source = .ok ()) ↔
        Acyclic (insert relation.edge collection.edges) := by
  have hlockstep := hsound.toLockstep.insertRelation hfresh
  rw [ensureAcyclic_eq_ok_iff hlockstep, ensureAcyclic_eq_ok_iff hlockstep,
    edges_insertRelation]
  constructor
  · intro ⟨hsources, _⟩
    apply acyclic_insert hsound.acyclic
    intro hcycle
    exact hsources relation.derived .refl (below_opposite.2 hcycle)
  · intro hacyclic
    exact ⟨fun target _ => hacyclic.not_below .sources target,
      fun target _ => hacyclic.not_below .derived target⟩

variable {relation : Relation} {merged : Collection}

/-- A recorded edge is met again with the same classifier, and nothing changes. -/
theorem mergeRelation_eq_ok_iff_of_recorded {existing : String}
    (hends : relation.source ≠ relation.derived)
    (hrecorded : collection.classifier relation.edge = some existing) :
    mergeRelation relation collection = .ok () merged ↔
      existing = relation.classifier ∧ merged = collection := by
  rw [classifier] at hrecorded
  rw [mergeRelation, if_neg hends, hrecorded]
  by_cases heq : existing = relation.classifier
  · simp [heq, eq_comm]
  · simp [heq]

/-- A new edge is entered unless it closes a cycle. -/
theorem Sound.mergeRelation_eq_ok_iff_of_fresh (hsound : Sound collection)
    (hends : relation.source ≠ relation.derived) (hfresh : relation.edge ∉ collection.edges) :
    mergeRelation relation collection = .ok () merged ↔
      Acyclic (insert relation.edge collection.edges) ∧
        merged = collection.insertRelation relation := by
  have hnone : collection.classifiers.get? relation.edge = none :=
    hsound.classifier_eq_none.2 hfresh
  simp only [mergeRelation, if_neg hends, hnone]
  split
  · rw [Merging.bind_eq_ok, ← hsound.searches_eq_ok_iff hfresh]
    simp only [Merging.check_eq_ok_iff]
    constructor
    · rintro ⟨_, ⟨hfirst, rfl⟩, hsecond, rfl⟩
      exact ⟨⟨hfirst, hsecond⟩, rfl⟩
    · rintro ⟨⟨hfirst, hsecond⟩, rfl⟩
      exact ⟨_, ⟨hfirst, rfl⟩, hsecond, rfl⟩
  · next hunknown =>
    have hacyclic := hsound.acyclic_insert_of_unknown hends hunknown
    simp [hacyclic, eq_comm]

/-- What the merge of a relation does to a sound collection. -/
theorem Sound.mergeRelation_eq_ok_iff (hsound : Sound collection) :
    mergeRelation relation collection = .ok () merged ↔
      ((∀ classifier, collection.classifier relation.edge = some classifier →
          classifier = relation.classifier) ∧
        Acyclic (insert relation.edge collection.edges)) ∧
      merged = collection.addRelation relation := by
  by_cases hends : relation.source = relation.derived
  · rw [mergeRelation, if_pos hends]
    constructor
    · intro h
      cases h
    · intro ⟨⟨_, hacyclic⟩, _⟩
      exact absurd hends (hacyclic.source_ne_derived (Set.mem_insert _ _))
  by_cases hmem : relation.edge ∈ collection.edges
  · obtain ⟨existing, hrecorded⟩ := Option.ne_none_iff_exists'.1 fun hnone =>
      hsound.classifier_eq_none.1 hnone hmem
    rw [mergeRelation_eq_ok_iff_of_recorded hends hrecorded, hrecorded,
      addRelation_of_mem hsound.toLockstep hmem, Set.insert_eq_of_mem hmem]
    simp [hsound.acyclic]
  · rw [hsound.mergeRelation_eq_ok_iff_of_fresh hends hmem,
      hsound.classifier_eq_none.2 hmem, addRelation_of_not_mem hsound.toLockstep hmem]
    simp

end Collection

end DatasetLineage
