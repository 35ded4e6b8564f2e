import DatasetLineage.Proofs.Collection.Built

/-!
# Collections that merges leave behind

A merge that fails stops half-way.  A collection that is kept after such a merge can have
a cycle, but its indices are in lockstep all the same.
-/

namespace DatasetLineage

namespace Merging

theorem bind_eq_error {first second : Merging Unit} {error : LineageError}
    {before after : Collection} :
    (do first; second) before = .error error after ↔
      first before = .error error after ∨
        ∃ middle, first before = .ok () middle ∧ second middle = .error error after := by
  change EStateM.bind first (fun _ => second) before = _ ↔ _
  rw [EStateM.bind]
  cases first before with
  | ok result middle => simp
  | error failure middle => simp

theorem check_eq_error_iff {result : Collection → Except LineageError Unit}
    {error : LineageError} {before after : Collection} :
    check result before = .error error after ↔
      result before = .error error ∧ after = before := by
  rw [check]
  cases result before with
  | ok _ => simp
  | error failure => simp [eq_comm]

theorem keeps_check {property : Collection → Prop}
    (result : Collection → Except LineageError Unit) : Keeps property (check result) := by
  intro collection hbefore
  rw [leaves, check]
  cases result collection with
  | ok _ => exact hbefore
  | error error => exact hbefore

end Merging

namespace Collection

/-- The collections that merges lead to if a caller keeps what a failed merge leaves
behind. -/
inductive Kept : Collection → Prop
  | empty : Kept empty
  | change {collection : Collection} (change : Change) :
      Kept collection → Kept (leaves change.perform collection)

variable {collection after : Collection} {relation : Relation} {error : LineageError}

theorem afterMerging_eq_error {change : Merging Unit} :
    collection.afterMerging change = .error error ↔
      ∃ after, change collection = .error error after := by
  rw [afterMerging]
  cases change collection with
  | ok result after => simp
  | error failure after => simp

/-- A relation goes through if it is recorded as it is, or as a new one. -/
theorem mergeRelation_ok_cases (hresult : mergeRelation relation collection = .ok () after) :
    collection.classifier relation.edge = some relation.classifier ∧ after = collection ∨
      collection.classifier relation.edge = none ∧
        after = collection.insertRelation relation := by
  rw [mergeRelation] at hresult
  by_cases hends : relation.source = relation.derived
  · rw [if_pos hends] at hresult
    cases hresult
  rw [if_neg hends] at hresult
  cases hrecorded : collection.classifiers.get? relation.edge with
  | some existing =>
      by_cases hsame : existing = relation.classifier
      · simp only [hrecorded, if_pos hsame] at hresult
        cases hresult
        exact .inl ⟨hrecorded.trans (congrArg some hsame), rfl⟩
      · simp only [hrecorded, if_neg hsame] at hresult
        cases hresult
  | none =>
      simp only [hrecorded] at hresult
      split at hresult
      · obtain ⟨middle, hfirst, hsecond⟩ := Merging.bind_eq_ok.1 hresult
        rw [Merging.check_eq_ok_iff] at hfirst hsecond
        exact .inr ⟨hrecorded, hsecond.2.trans hfirst.2⟩
      · cases hresult
        exact .inr ⟨hrecorded, rfl⟩

/-- Why a relation is refused before anything is changed: it joins a dataset to itself, or
its edge is recorded with another classifier. -/
inductive Refused (collection : Collection) (relation : Relation) : LineageError → Prop
  | loop : relation.source = relation.derived →
      Refused collection relation (.cyclicGraph relation.source)
  | reclassified {existing : String} : collection.classifier relation.edge = some existing →
      existing ≠ relation.classifier →
        Refused collection relation
          (.inconsistentClassifier relation.edge existing relation.classifier)

/-- A relation that does not go through is refused before anything is changed, or a search
fails after it was entered as a new one. -/
theorem mergeRelation_error_cases
    (hresult : mergeRelation relation collection = .error error after) :
    Refused collection relation error ∧ after = collection ∨
      relation.source ≠ relation.derived ∧ collection.classifier relation.edge = none ∧
        after = collection.insertRelation relation ∧
          ∃ direction root, after.ensureAcyclic direction root = .error error := by
  rw [mergeRelation] at hresult
  by_cases hends : relation.source = relation.derived
  · rw [if_pos hends] at hresult
    cases hresult
    exact .inl ⟨.loop hends, rfl⟩
  rw [if_neg hends] at hresult
  cases hrecorded : collection.classifiers.get? relation.edge with
  | some existing =>
      by_cases hsame : existing = relation.classifier
      · simp only [hrecorded, if_pos hsame] at hresult
        cases hresult
      · simp only [hrecorded, if_neg hsame] at hresult
        cases hresult
        exact .inl ⟨.reclassified hrecorded hsame, rfl⟩
  | none =>
      simp only [hrecorded] at hresult
      split at hresult
      · refine .inr ⟨hends, hrecorded, ?_⟩
        rcases Merging.bind_eq_error.1 hresult with hfirst | ⟨middle, hfirst, hsecond⟩
        · obtain ⟨hsearch, rfl⟩ := Merging.check_eq_error_iff.1 hfirst
          exact ⟨rfl, .sources, relation.derived, hsearch⟩
        · obtain ⟨_, rfl⟩ := Merging.check_eq_ok_iff.1 hfirst
          obtain ⟨hsearch, rfl⟩ := Merging.check_eq_error_iff.1 hsecond
          exact ⟨rfl, .derived, relation.source, hsearch⟩
      · cases hresult

/-- An edge between two datasets that have none yet is recorded, even if the merge then
fails. -/
theorem leaves_relation_of_fresh (hends : relation.source ≠ relation.derived)
    (hfresh : collection.classifier relation.edge = none) :
    leaves (Change.relation relation).perform collection =
      collection.insertRelation relation := by
  change leaves (mergeRelation relation) collection = _
  rw [leaves]
  cases hresult : mergeRelation relation collection with
  | ok _ after =>
      rcases mergeRelation_ok_cases hresult with ⟨hrecorded, _⟩ | ⟨_, hafter⟩
      · rw [hfresh] at hrecorded
        cases hrecorded
      · exact hafter
  | error failure after =>
      rcases mergeRelation_error_cases hresult with ⟨hrefused, _⟩ | ⟨_, _, hafter, _⟩
      · cases hrefused with
        | loop hloop => exact absurd hloop hends
        | reclassified hrecorded _ =>
            rw [hfresh] at hrecorded
            cases hrecorded
      · exact hafter

/-- A fact that can be entered is in the collection afterwards.  One that cannot leaves the
collection as it was, or is in it all the same. -/
theorem enter_cases (fact : Fact) (collection : Collection) :
    enter fact collection = .ok () (collection.add fact) ∨
      ∃ error after, enter fact collection = .error error after ∧
        (after = collection ∨ after = collection.add fact) := by
  cases fact with
  | home id home =>
      rw [enter, mergeHome, add]
      cases hrecorded : collection.homes.get? id with
      | none => exact .inl (by rw [OrderedMap.contains_eq_false.2 hrecorded]; rfl)
      | some existing =>
          rw [OrderedMap.contains_eq_true.2 ⟨existing, hrecorded⟩]
          by_cases hsame : existing = home <;> simp [hsame]
  | known id => exact .inl rfl
  | relation relation =>
      have hadded : collection.classifier relation.edge = none →
          collection.insertRelation relation = collection.addRelation relation := by
        intro hnone
        rw [addRelation, OrderedMap.contains_eq_false.2 hnone]
        rfl
      rw [enter, add]
      cases hresult : mergeRelation relation collection with
      | ok _ after =>
          left
          rcases mergeRelation_ok_cases hresult with ⟨hrecorded, rfl⟩ | ⟨hnone, rfl⟩
          · rw [addRelation, OrderedMap.contains_eq_true.2 ⟨_, hrecorded⟩]
            rfl
          · rw [hadded hnone]
      | error error after =>
          right
          refine ⟨error, after, rfl, ?_⟩
          rcases mergeRelation_error_cases hresult with ⟨_, hafter⟩ | ⟨_, hnone, hafter, _⟩
          · exact .inl hafter
          · exact .inr (hafter.trans (hadded hnone))
  | detail edge tree =>
      rw [enter, register, add]
      cases hrecorded : collection.details.get? edge with
      | none => exact .inl (by rw [OrderedMap.contains_eq_false.2 hrecorded]; rfl)
      | some existing =>
          rw [OrderedMap.contains_eq_true.2 ⟨existing, hrecorded⟩]
          by_cases hsame : existing.same tree = true <;> simp [hsame]

/-- What entering a fact keeps if the fact itself does. -/
theorem leaves_enter {property : Collection → Prop} {fact : Fact} (hbefore : property collection)
    (hadded : property (collection.add fact)) : property (leaves (enter fact) collection) := by
  rw [leaves]
  rcases enter_cases fact collection with hresult | ⟨error, after, hresult, rfl | rfl⟩
  · rw [hresult]
    exact hadded
  · rw [hresult]
    exact hbefore
  · rw [hresult]
    exact hadded

theorem Lockstep.add (hlockstep : Lockstep collection) (fact : Fact) :
    Lockstep (collection.add fact) := by
  cases fact with
  | home id home =>
      rw [Collection.add]
      split
      · exact hlockstep
      · exact hlockstep.of_eq rfl rfl rfl rfl fun _ h => h
  | known id =>
      refine hlockstep.of_eq rfl rfl rfl rfl fun other hother => ?_
      exact IdSet.contains_add.2 (.inl hother)
  | relation relation => exact hlockstep.addRelation relation
  | detail edge tree =>
      rw [Collection.add]
      split
      · exact hlockstep
      · exact hlockstep.of_eq rfl rfl rfl rfl fun _ h => h

theorem keeps_enter (fact : Fact) : Keeps Lockstep (enter fact) := by
  intro collection hlockstep
  exact leaves_enter hlockstep (hlockstep.add fact)

/-- What every entry of a fact keeps, every merge keeps, also one that fails. -/
theorem keeps_perform_of_enter {property : Collection → Prop}
    (henter : ∀ fact, Keeps property (enter fact)) (change : Change) :
    Keeps property change.perform := by
  cases change with
  | home id home =>
      cases home with
      | none =>
          intro collection hbefore
          exact hbefore
      | some home => exact henter (.home id home)
  | relation relation => exact henter (.relation relation)
  | tree tree bound =>
      rw [Change.perform, mergeTree_eq, mergeTreeWith]
      refine (Merging.keeps_check _).bind fun _ => ?_
      apply Keeps.forM
      intro entry _
      cases entry with
      | fact stated => exact henter stated
      | leaf direction id => exact Merging.keeps_check _
      | fault error =>
          intro collection hbefore
          exact hbefore
  | collection other =>
      rw [Change.perform, merge_eq]
      apply Keeps.forM
      intro fact _
      exact henter fact

/-- Every merge keeps the indices in lockstep, also one that fails. -/
theorem keeps_perform (change : Change) : Keeps Lockstep change.perform :=
  keeps_perform_of_enter keeps_enter change

theorem Kept.lockstep {collection : Collection} (hkept : Kept collection) :
    Lockstep collection := by
  induction hkept with
  | empty => exact lockstep_empty
  | change change _ ih => exact keeps_perform change _ ih

def Loopless (collection : Collection) : Prop :=
  ∀ relation ∈ collection.relations, relation.source ≠ relation.derived

theorem Loopless.addRelation (hloopless : Loopless collection)
    (hends : relation.source ≠ relation.derived) :
    Loopless (collection.addRelation relation) := by
  rw [Collection.addRelation]
  split
  · exact hloopless
  · intro other hmem
    rw [relations_insertRelation, List.mem_append, List.mem_singleton] at hmem
    rcases hmem with hmem | rfl
    · exact hloopless other hmem
    · exact hends

/-- A relation that joins a dataset to itself is never entered, and other facts bring no
relations. -/
theorem keeps_loopless_enter (fact : Fact) : Keeps Loopless (enter fact) := by
  intro collection hloopless
  cases fact with
  | home id home =>
      refine leaves_enter hloopless ?_
      rw [add]
      split <;> exact hloopless
  | known id => exact leaves_enter hloopless hloopless
  | relation relation =>
      by_cases hends : relation.source = relation.derived
      · rw [leaves, enter, mergeRelation, if_pos hends]
        exact hloopless
      · exact leaves_enter hloopless (hloopless.addRelation hends)
  | detail edge tree =>
      refine leaves_enter hloopless ?_
      rw [add]
      split <;> exact hloopless

theorem Kept.loopless {collection : Collection} (hkept : Kept collection) :
    Loopless collection := by
  induction hkept with
  | empty =>
      intro relation hmem
      cases hmem
  | change change _ ih => exact keeps_perform_of_enter keeps_loopless_enter change _ ih

theorem Kept.insertRelation (hkept : Kept collection)
    (hends : relation.source ≠ relation.derived)
    (hfresh : collection.classifier relation.edge = none) :
    Kept (collection.insertRelation relation) := by
  rw [← leaves_relation_of_fresh hends hfresh]
  exact hkept.change (.relation relation)

/-- What successful merges build is also what merges leave behind. -/
theorem Built.kept {collection : Collection} (hbuilt : Built collection) : Kept collection := by
  apply hbuilt.induction .empty
  intro change before after hbefore hresult
  have hafter := hbefore.change change
  rwa [leaves, hresult] at hafter

end Collection

end DatasetLineage
