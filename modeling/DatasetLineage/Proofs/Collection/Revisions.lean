import DatasetLineage.Collection.Compare
import DatasetLineage.Proofs.Collection.Order
import DatasetLineage.Proofs.OrderedMap
import DatasetLineage.Proofs.Outcome

/-!
# What a comparison sorts into a diff

A permissive comparison never fails: every record of a collection is lacking in the existing
one, recorded there otherwise, or recorded there as it is, and the diff adds the first,
updates the second and leaves out the third.  A strict comparison that goes through finds
the same.
-/

namespace DatasetLineage

namespace Collection

variable {collection existing : Collection} {allowUpdates : Bool}

def lacksHome (existing : Collection) (entry : DatasetId × String) : Bool :=
  !existing.homes.contains entry.1

def differs (existing : Collection) (relation : Relation) : Bool :=
  (existing.classifier relation.edge).any (· ≠ relation.classifier)

def differsHome (existing : Collection) (entry : DatasetId × String) : Bool :=
  (existing.home entry.1).any (· ≠ entry.2)

def additions (collection existing : Collection) : Diff where
  relationsToAdd := collection.relations.filter existing.lacks
  homesToAdd := .ofList (collection.homes.entries.filter existing.lacksHome)

def revisions (collection existing : Collection) : Diff :=
  { collection.additions existing with
    relationsToUpdate := collection.relations.filter existing.differs
    homesToUpdate := .ofList (collection.homes.entries.filter existing.differsHome) }

theorem get?_homesToAdd_additions (collection existing : Collection) (id : DatasetId) :
    (collection.additions existing).homesToAdd.get? id =
      if existing.homes.contains id then none else collection.home id := by
  rw [additions, OrderedMap.get?_ofList_filter, Collection.home]
  cases collection.homes.get? id with
  | none => simp
  | some home => cases hrecorded : existing.homes.contains id <;> simp [lacksHome, hrecorded]

theorem get?_homesToUpdate_revisions (collection existing : Collection) (id : DatasetId) :
    (collection.revisions existing).homesToUpdate.get? id =
      (collection.home id).filter fun home => existing.differsHome (id, home) :=
  OrderedMap.get?_ofList_filter _ _ _

theorem differs_eq_true {relation : Relation} :
    existing.differs relation = true ↔
      ∃ current, existing.classifier relation.edge = some current ∧
        current ≠ relation.classifier := by
  simp [differs, Option.any_eq_true]

theorem lacks_eq_true {relation : Relation} :
    existing.lacks relation = true ↔ existing.classifier relation.edge = none := by
  rw [lacks, Bool.not_eq_true', OrderedMap.contains_eq_false, classifier]

/-- A diff that sorts the records of a collection by what an existing one records.  What is
lacking there is to be added, what is recorded otherwise is to be updated, and what is recorded
as it is is left out.  No edge is listed twice, and the relations keep their order. -/
structure Patches (collection existing : Collection) (diff : Diff) : Prop where
  relationsToAdd : ∀ relation, relation ∈ diff.relationsToAdd ↔
    relation ∈ collection.relations ∧ existing.classifier relation.edge = none
  relationsToUpdate : ∀ relation, relation ∈ diff.relationsToUpdate ↔
    relation ∈ collection.relations ∧
      ∃ current, existing.classifier relation.edge = some current ∧
        current ≠ relation.classifier
  distinct : ((diff.relationsToAdd ++ diff.relationsToUpdate).map Relation.edge).Nodup
  ordered : diff.relationsToAdd.Sublist collection.relations ∧
    diff.relationsToUpdate.Sublist collection.relations
  homesToAdd : ∀ id home, diff.homesToAdd.get? id = some home ↔
    collection.home id = some home ∧ existing.home id = none
  homesToUpdate : ∀ id home, diff.homesToUpdate.get? id = some home ↔
    collection.home id = some home ∧
      ∃ current, existing.home id = some current ∧ current ≠ home

theorem patches_revisions (hcollection : Lockstep collection) (existing : Collection) :
    Patches collection existing (collection.revisions existing) where
  relationsToAdd := by
    intro relation
    change relation ∈ collection.relations.filter existing.lacks ↔ _
    rw [List.mem_filter, lacks_eq_true]
  relationsToUpdate := by
    intro relation
    change relation ∈ collection.relations.filter existing.differs ↔ _
    rw [List.mem_filter, differs_eq_true]
  distinct := by
    change ((collection.relations.filter existing.lacks ++
      collection.relations.filter existing.differs).map Relation.edge).Nodup
    rw [List.map_append, List.nodup_append]
    refine ⟨hcollection.distinct.sublist (List.filter_sublist.map _),
      hcollection.distinct.sublist (List.filter_sublist.map _), ?_⟩
    intro edge hadded _ hupdated hsame
    subst hsame
    obtain ⟨added, hlacks, hadded⟩ := List.mem_map.1 hadded
    obtain ⟨updated, hdiffers, hupdated⟩ := List.mem_map.1 hupdated
    have hnone := lacks_eq_true.1 (List.mem_filter.1 hlacks).2
    obtain ⟨current, hcurrent, _⟩ := differs_eq_true.1 (List.mem_filter.1 hdiffers).2
    rw [hadded, ← hupdated, hcurrent] at hnone
    cases hnone
  ordered := ⟨List.filter_sublist, List.filter_sublist⟩
  homesToAdd := by
    intro id home
    change (collection.additions existing).homesToAdd.get? id = _ ↔ _
    rw [get?_homesToAdd_additions, OrderedMap.contains, Collection.home, Collection.home]
    cases existing.homes.get? id <;> simp
  homesToUpdate := by
    intro id home
    rw [get?_homesToUpdate_revisions, Option.filter_eq_some_iff, differsHome, Option.any_eq_true]
    simp

/-! ## Sorting record by record -/

def insertAll (homes : Homes) (entries : List (DatasetId × String)) : Homes :=
  entries.foldl (fun homes entry => homes.insert entry.1 entry.2) homes

theorem foldlM_compareHome (entries : List (DatasetId × String)) (diff : Diff) :
    entries.foldlM (fun diff (id, home) => compareHome existing true diff id home) diff =
      .ok { diff with
        homesToAdd := insertAll diff.homesToAdd (entries.filter existing.lacksHome)
        homesToUpdate := insertAll diff.homesToUpdate (entries.filter existing.differsHome) } := by
  induction entries generalizing diff with
  | nil => rfl
  | cons entry rest ih =>
      change (do rest.foldlM _ (← compareHome existing true diff entry.1 entry.2)) = _
      rw [compareHome, List.filter_cons, List.filter_cons, lacksHome, differsHome,
        OrderedMap.contains, Collection.home]
      cases existing.homes.get? entry.1 with
      | none => exact ih _
      | some current =>
          by_cases hsame : current = entry.2
          · simp only [if_pos hsame]
            refine (ih _).trans ?_
            simp [hsame]
          · simp only [if_neg hsame]
            refine (ih _).trans ?_
            simp [hsame, insertAll]

theorem foldlM_compareRelation (relations : List Relation) (diff : Diff) :
    relations.foldlM (compareRelation existing true) diff =
      .ok { diff with
        relationsToAdd := diff.relationsToAdd ++ relations.filter existing.lacks
        relationsToUpdate := diff.relationsToUpdate ++ relations.filter existing.differs } := by
  induction relations generalizing diff with
  | nil =>
      simp only [List.filter_nil, List.append_nil]
      rfl
  | cons relation rest ih =>
      rw [List.foldlM_cons, compareRelation, List.filter_cons, List.filter_cons, lacks, differs,
        OrderedMap.contains, Collection.classifier]
      cases existing.classifiers.get? relation.edge with
      | none =>
          refine (ih _).trans ?_
          simp
      | some current =>
          by_cases hsame : current = relation.classifier
          · simp only [if_pos hsame]
            refine (ih _).trans ?_
            simp [hsame]
          · simp only [if_neg hsame]
            refine (ih _).trans ?_
            simp [hsame]

/-- A permissive comparison succeeds, and sorts every record that is lacking or recorded
otherwise. -/
theorem compareRecords_permissive (collection existing : Collection) :
    collection.compareRecords existing true = .ok (collection.revisions existing) := by
  rw [compareRecords, foldlM_compareHome]
  exact foldlM_compareRelation _ _

/-! ## Strict comparisons -/

section Record

variable {id : DatasetId} {home : String} {relation : Relation} {before after : Diff}

theorem compareHome_allow (hstep : compareHome existing allowUpdates before id home = .ok after) :
    compareHome existing true before id home = .ok after := by
  cases allowUpdates with
  | true => exact hstep
  | false =>
      rw [compareHome] at hstep ⊢
      cases hrecorded : existing.homes.get? id with
      | none =>
          rw [hrecorded] at hstep
          exact hstep
      | some current =>
          rw [hrecorded] at hstep
          by_cases hsame : current = home
          · simpa [hsame] using hstep
          · simp [hsame] at hstep

theorem compareRelation_allow
    (hstep : compareRelation existing allowUpdates before relation = .ok after) :
    compareRelation existing true before relation = .ok after := by
  cases allowUpdates with
  | true => exact hstep
  | false =>
      rw [compareRelation] at hstep ⊢
      cases hrecorded : existing.classifiers.get? relation.edge with
      | none =>
          rw [hrecorded] at hstep
          exact hstep
      | some current =>
          rw [hrecorded] at hstep
          by_cases hsame : current = relation.classifier
          · simpa [hsame] using hstep
          · simp [hsame] at hstep

theorem compareHome_of_agree (hagree : existing.differsHome (id, home) = false) :
    compareHome existing allowUpdates before id home =
      compareHome existing true before id home := by
  rw [compareHome, compareHome]
  cases hrecorded : existing.homes.get? id with
  | none => rfl
  | some current =>
      have hsame : current = home := by
        simpa [differsHome, Collection.home, hrecorded] using hagree
      simp [hsame]

theorem compareRelation_of_agree (hagree : existing.differs relation = false) :
    compareRelation existing allowUpdates before relation =
      compareRelation existing true before relation := by
  rw [compareRelation, compareRelation]
  cases hrecorded : existing.classifiers.get? relation.edge with
  | none => rfl
  | some current =>
      have hsame : current = relation.classifier := by
        simpa [differs, Collection.classifier, hrecorded] using hagree
      simp [hsame]

end Record

/-- Allowing updates changes nothing about a comparison that goes through without. -/
theorem compareRecords_allow {diff : Diff}
    (hresult : collection.compareRecords existing allowUpdates = .ok diff) :
    collection.compareRecords existing true = .ok diff := by
  rw [compareRecords, bind_eq_ok] at hresult ⊢
  obtain ⟨homes, hhomes, hrelations⟩ := hresult
  refine ⟨homes, foldlM_eq_ok_of_imp ?_ hhomes, foldlM_eq_ok_of_imp ?_ hrelations⟩
  · intro entry _ before after hstep
    exact compareHome_allow hstep
  · intro relation _ before after hstep
    exact compareRelation_allow hstep

/-- Whatever a comparison finds are the records that are lacking or recorded otherwise. -/
theorem eq_revisions_of_compareRecords {diff : Diff}
    (hresult : collection.compareRecords existing allowUpdates = .ok diff) :
    diff = collection.revisions existing := by
  have hallowed := compareRecords_allow hresult
  rw [compareRecords_permissive] at hallowed
  exact (Except.ok.inj hallowed).symm

/-- Without updates no home differs from the one that is recorded. -/
theorem home_eq_of_compareRecords {diff : Diff}
    (hresult : collection.compareRecords existing false = .ok diff) {id : DatasetId}
    {home current : String} (hhome : collection.home id = some home)
    (hcurrent : existing.home id = some current) : current = home := by
  rw [compareRecords, bind_eq_ok] at hresult
  obtain ⟨_, hhomes, _⟩ := hresult
  obtain ⟨before, after, hstep⟩ :=
    exists_of_foldlM_ok hhomes (id, home) (OrderedMap.get?_eq_some_iff.1 hhome)
  have hrecorded : existing.homes.get? id = some current := hcurrent
  by_contra hdiffers
  simp [compareHome, hrecorded, hdiffers] at hstep

/-- Where no record is recorded otherwise, no record is at fault. -/
theorem compareRecords_of_agree
    (hhomes : ∀ entry ∈ collection.homes.entries, existing.differsHome entry = false)
    (hrelations : ∀ relation ∈ collection.relations, existing.differs relation = false) :
    collection.compareRecords existing allowUpdates = .ok (collection.revisions existing) := by
  have hallowed := compareRecords_permissive collection existing
  rw [compareRecords, bind_eq_ok] at hallowed ⊢
  obtain ⟨homes, hfirst, hsecond⟩ := hallowed
  refine ⟨homes, foldlM_eq_ok_of_imp ?_ hfirst, foldlM_eq_ok_of_imp ?_ hsecond⟩
  · intro entry hentry before after hstep
    exact (compareHome_of_agree (hhomes entry hentry)).trans hstep
  · intro relation hmem before after hstep
    exact (compareRelation_of_agree (hrelations relation hmem)).trans hstep

/-- Between collections that do not contradict each other, no record is at fault and none
has to be updated. -/
theorem compareRecords_eq_additions (hexisting : Lockstep existing)
    (hconsistent : Consistent (existing.facts ∪ collection.facts)) :
    collection.compareRecords existing allowUpdates = .ok (collection.additions existing) := by
  have hhomes : ∀ entry ∈ collection.homes.entries, existing.differsHome entry = false := by
    intro entry hentry
    have hhome : collection.home entry.1 = some entry.2 := OrderedMap.get?_eq_some_iff.2 hentry
    rw [differsHome, Option.any_eq_false]
    intro current hcurrent
    simpa using hconsistent.homes entry.1 current entry.2 (.inl hcurrent) (.inr hhome)
  have hrelations : ∀ relation ∈ collection.relations, existing.differs relation = false := by
    intro relation hmem
    rw [differs, Option.any_eq_false]
    intro current hcurrent
    have hrecorded := (hexisting.classifiers relation.edge current).1 hcurrent
    simpa using hconsistent.classifiers _ relation (.inl hrecorded) (.inr hmem) rfl
  have hnothing : collection.revisions existing = collection.additions existing := by
    rw [revisions, List.filter_eq_nil_iff.2 (by simpa using hrelations),
      List.filter_eq_nil_iff.2 (by simpa using hhomes)]
    rfl
  rw [compareRecords_of_agree hhomes hrelations, hnothing]

end Collection

end DatasetLineage
