import DatasetLineage.Proofs.Store.Plan

/-!
# What operations write

An operation that writes makes a plan from a part of the store, and then carries it out.  That
part tells of every edge and every dataset that the plan names whether the store records it.
So the diff of a plan fits the store: nothing that it adds is stored, and everything that it
updates is.  Then nothing is in its way when it is written, and an operation that fails has
failed to make its plan, before anything was changed.
-/

namespace DatasetLineage

namespace Index

variable {store : MemoryStore} {collection : Collection} {allowUpdates : Bool} {diff : Diff}

/-! ## What a plan looks at -/

theorem mem_touched {id : DatasetId} (hknown : collection.contains id = true) :
    id ∈ touched collection := by
  rw [touched, ← OrderedMap.contains_iff_mem_keys, IdSet.contains_addAll]
  exact .inl hknown

theorem mem_touched_of_home {id : DatasetId} {home : String}
    (hhome : collection.home id = some home) : id ∈ touched collection := by
  rw [touched, ← OrderedMap.contains_iff_mem_keys, IdSet.contains_addAll,
    ← OrderedMap.contains_iff_mem_keys]
  exact .inr (OrderedMap.contains_eq_true.2 ⟨home, hhome⟩)

/-- A collection is about the datasets it touches. -/
theorem about_of_covers {inside : Set DatasetId} (hcollection : Collection.Lockstep collection)
    (hcovers : ∀ id ∈ touched collection, id ∈ inside) :
    ∀ said ∈ collection.facts, said.About inside := by
  intro said hsaid
  cases said with
  | home id home => exact hcovers id (mem_touched_of_home hsaid)
  | known id => exact hcovers id (mem_touched hsaid)
  | relation relation => exact hcovers _ (mem_touched (hcollection.known relation hsaid).1)
  | detail edge tree => trivial

/-- Whatever part of some edges a plan was made from, it closes no cycle with any of them, if
the part is enclosed around the datasets that are touched. -/
theorem acyclic_of_enclosed {existing : Collection} {edges part : Set Edge}
    {inside : Set DatasetId} (hexisting : existing.Sound)
    (hmerged : FullyChecked collection allowUpdates)
    (hplan : plan collection existing allowUpdates = .ok diff)
    (henclosed : Enclosed edges part inside) (hpart : part ⊆ existing.edges)
    (hcovers : ∀ id ∈ touched collection, id ∈ inside) (hacyclic : Acyclic edges) :
    Acyclic (edges ∪ edgesOf diff.relationsToAdd) := by
  have hchecked := acyclic_of_plan hexisting hmerged hplan
  apply henclosed.acyclic_union _ hacyclic
  · exact hchecked.mono (Set.union_subset_union_left _ hpart)
  · have hlockstep := hmerged.1.lockstep
    have hends := MemoryStore.ends_of_about hlockstep (about_of_covers hlockstep hcovers)
    rw [eq_revisions_of_plan hplan]
    intro edge ⟨relation, hmem, hedge⟩
    exact hends edge ⟨relation, (List.mem_filter.1 hmem).1, hedge⟩

/-- A merge is prepared if its datasets are known where they have to be, and the closure around
them is fetched and planned with. -/
theorem prepared_iff {settings : StoreSettings} :
    prepare settings collection allowUpdates store = .ok diff ↔
      (settings.requireKnownDatasets = true →
        requireKnown store (touched collection) = .ok ()) ∧
      ∃ existing, store.fetchClosure settings.maxFetchRounds (touched collection) = .ok existing ∧
        plan collection existing allowUpdates = .ok diff := by
  rw [prepare, demand_eq_ok_iff, bind_eq_ok]

theorem exists_closure_of_prepare {settings : StoreSettings}
    (hresult : prepare settings collection allowUpdates store = .ok diff) :
    ∃ existing inside, MemoryStore.Closure store (touched collection) existing inside ∧
      plan collection existing allowUpdates = .ok diff := by
  obtain ⟨_, existing, hfetched, hplan⟩ := prepared_iff.1 hresult
  obtain ⟨inside, hclosure⟩ := MemoryStore.closure_of_fetchClosure hfetched
  exact ⟨existing, inside, hclosure, hplan⟩

/-- Without a requirement and a limit, a sound store always gives the closure to plan from. -/
theorem exists_closure_of_sound (hsound : store.Sound) {settings : StoreSettings}
    (hrequire : settings.requireKnownDatasets = false) (hlimit : settings.maxFetchRounds = 0)
    (collection : Collection) :
    ∃ existing inside, MemoryStore.Closure store (touched collection) existing inside ∧
      ∀ allowUpdates, prepare settings collection allowUpdates store =
        plan collection existing allowUpdates := by
  obtain ⟨existing, hfetched⟩ := hsound.sheltered.fetchClosure_succeeds
    (fun _ _ => Set.mem_univ _)
  obtain ⟨inside, hclosure⟩ := MemoryStore.closure_of_fetchClosure hfetched
  refine ⟨existing, inside, hclosure, ?_⟩
  intro allowUpdates
  rw [prepare, hrequire, hlimit]
  change (do plan collection (← store.fetchClosure 0 (touched collection)) allowUpdates) = _
  rw [hfetched]
  rfl

/-! ## Plans of merges -/

/-- A diff that sorts what a collection says by what a store records.  What the store lacks is
to be added, what it records otherwise is to be updated, and what it records as it is is left
out. -/
structure Revises (store : MemoryStore) (collection : Collection) (diff : Diff) : Prop where
  relationsToAdd : ∀ relation, relation ∈ diff.relationsToAdd ↔
    relation ∈ collection.relations ∧ relation.edge ∉ store.edges
  relationsToUpdate : ∀ relation, relation ∈ diff.relationsToUpdate ↔
    relation ∈ collection.relations ∧
      ∃ stored ∈ store.relations, stored.edge = relation.edge ∧
        stored.classifier ≠ relation.classifier
  distinct : ((diff.relationsToAdd ++ diff.relationsToUpdate).map Relation.edge).Nodup
  homesToAdd : ∀ id home, diff.homesToAdd.get? id = some home ↔
    collection.home id = some home ∧ store.homes.get? id = none
  homesToUpdate : ∀ id home, diff.homesToUpdate.get? id = some home ↔
    collection.home id = some home ∧
      ∃ current, store.homes.get? id = some current ∧ current ≠ home

/-- Compared with lineage that answers for the records of a collection as the store would, the
collection is compared with the store. -/
theorem revises_of_patches {existing : Collection}
    (hpatches : collection.Patches existing diff)
    (hclassifiers : ∀ relation ∈ collection.relations, ∀ classifier,
      existing.classifier relation.edge = some classifier ↔
        relation.edge.relation classifier ∈ store.relations)
    (hhomes : ∀ id home, collection.home id = some home →
      existing.home id = store.homes.get? id) : Revises store collection diff where
  relationsToAdd := by
    intro relation
    rw [hpatches.relationsToAdd]
    apply and_congr_right
    intro hmem
    rw [Option.eq_none_iff_forall_ne_some]
    simp only [ne_eq, hclassifiers relation hmem]
    constructor
    · rintro hnone ⟨stored, hstored, hedge⟩
      rw [← hedge] at hnone
      exact hnone stored.classifier hstored
    · intro hnew classifier hstored
      exact hnew ⟨_, hstored, rfl⟩
  relationsToUpdate := by
    intro relation
    rw [hpatches.relationsToUpdate]
    apply and_congr_right
    intro hmem
    simp only [hclassifiers relation hmem]
    constructor
    · intro ⟨current, hcurrent, hdiffers⟩
      exact ⟨_, hcurrent, rfl, hdiffers⟩
    · intro ⟨stored, hstored, hedge, hdiffers⟩
      rw [← hedge]
      exact ⟨stored.classifier, hstored, hdiffers⟩
  distinct := hpatches.distinct
  homesToAdd := by
    intro id home
    rw [hpatches.homesToAdd]
    exact and_congr_right fun hstated => by rw [hhomes id home hstated]
  homesToUpdate := by
    intro id home
    rw [hpatches.homesToUpdate]
    exact and_congr_right fun hstated => by rw [hhomes id home hstated]

/-- Compared with a closure, a collection is compared with the store. -/
theorem revises_of_closure {ids : List DatasetId} {existing : Collection}
    {inside : Set DatasetId} (hclosure : MemoryStore.Closure store ids existing inside)
    (hcollection : Collection.Lockstep collection)
    (habout : ∀ said ∈ collection.facts, said.About inside) :
    Revises store collection (collection.revisions existing) := by
  apply revises_of_patches (Collection.patches_revisions hcollection existing)
  · intro relation hmem classifier
    have hstart : relation.edge.source ∈ inside := habout (.relation relation) hmem
    exact hclosure.classifier_iff hstart
  · intro id home hhome
    exact hclosure.home_eq (habout (.home id home) hhome)

theorem Revises.writable (hrevises : Revises store collection diff) : store.Writable diff where
  relationsToAdd := by
    intro relation hadded
    exact ((hrevises.relationsToAdd relation).1 hadded).2
  relationsToUpdate := by
    intro relation hupdated
    obtain ⟨_, stored, hstored, hedge, _⟩ := (hrevises.relationsToUpdate relation).1 hupdated
    exact ⟨stored, hstored, hedge⟩
  homesToAdd := by
    intro id hadded
    obtain ⟨home, hhome⟩ :=
      OrderedMap.contains_eq_true.1 (OrderedMap.contains_iff_mem_keys.2 hadded)
    exact OrderedMap.contains_eq_false.2 ((hrevises.homesToAdd id home).1 hhome).2
  homesToUpdate := by
    intro id hupdated
    obtain ⟨home, hhome⟩ :=
      OrderedMap.contains_eq_true.1 (OrderedMap.contains_iff_mem_keys.2 hupdated)
    obtain ⟨_, current, hcurrent, _⟩ := (hrevises.homesToUpdate id home).1 hhome
    exact OrderedMap.contains_eq_true.2 ⟨current, hcurrent⟩
  distinct := by
    have hdistinct := hrevises.distinct
    rw [List.map_append] at hdistinct
    exact hdistinct.of_append_left

theorem revises_of_prepare {settings : StoreSettings}
    (hcollection : Collection.Lockstep collection)
    (hresult : prepare settings collection allowUpdates store = .ok diff) :
    Revises store collection diff := by
  obtain ⟨existing, inside, hclosure, hplan⟩ := exists_closure_of_prepare hresult
  rw [eq_revisions_of_plan hplan]
  exact revises_of_closure hclosure hcollection (about_of_covers hcollection hclosure.covers)

theorem writable_of_prepare {settings : StoreSettings}
    (hcollection : Collection.Lockstep collection)
    (hresult : prepare settings collection allowUpdates store = .ok diff) :
    store.Writable diff :=
  (revises_of_prepare hcollection hresult).writable

def prepareTree (settings : StoreSettings) (tree : Tree) (bound : Nat) (allowUpdates : Bool)
    (store : MemoryStore) : Except Failure Diff := do
  let collection ← (Collection.ofTree tree bound).mapError
    (Failure.contradiction (.addingTree tree.id))
  prepare settings collection allowUpdates store

theorem exists_of_prepareTree {settings : StoreSettings} {tree : Tree} {bound : Nat}
    (hresult : prepareTree settings tree bound allowUpdates store = .ok diff) :
    ∃ collection, Collection.Built collection ∧
      prepare settings collection allowUpdates store = .ok diff := by
  obtain ⟨collection, hcollection, hprepared⟩ := bind_eq_ok.1 hresult
  exact ⟨collection, .ofTree tree bound (ok_of_mapError hcollection), hprepared⟩

theorem writable_of_prepareTree {settings : StoreSettings} {tree : Tree} {bound : Nat}
    {allowUpdates : Bool}
    (hresult : prepareTree settings tree bound allowUpdates store = .ok diff) :
    store.Writable diff := by
  obtain ⟨collection, hcollection, hprepared⟩ := exists_of_prepareTree hresult
  exact writable_of_prepare hcollection.sound.toLockstep hprepared

/-! ## Plans of homes -/

def prepareHomes (settings : StoreSettings) (home : String) (ids : List DatasetId)
    (allowUpdates : Bool) (store : MemoryStore) : Except Failure Diff := do
  if settings.requireKnownDatasets then requireKnown store ids
  let existing ← store.fetch ids
  pure (homeDiff existing home allowUpdates ids)

def addedHome (home : String) (recorded : Option String) : Option String :=
  if recorded = none then some home else none

def replacedHome (home : String) (allowUpdates : Bool) (recorded : Option String) :
    Option String :=
  if recorded ≠ none ∧ recorded ≠ some home ∧ allowUpdates = true then some home else none

theorem isSome_addedHome {home : String} {recorded : Option String} :
    (addedHome home recorded).isSome = true ↔ recorded = none := by
  rw [addedHome]
  split <;> simp [*]

theorem isSome_replacedHome {home : String} {recorded : Option String} :
    (replacedHome home allowUpdates recorded).isSome = true ↔
      recorded ≠ none ∧ recorded ≠ some home ∧ allowUpdates = true := by
  rw [replacedHome]
  split <;> simp [*]

/-- Homes are sorted by what is recorded. -/
theorem homeDiff_eq (existing : Collection) (home : String) (allowUpdates : Bool)
    (ids : List DatasetId) :
    homeDiff existing home allowUpdates ids =
      { homesToAdd := .collect (fun id => addedHome home (existing.home id)) .empty ids
        homesToUpdate :=
          .collect (fun id => replacedHome home allowUpdates (existing.home id)) .empty ids } := by
  induction ids using List.reverseRecOn with
  | nil => rfl
  | append_singleton ids id ih =>
      simp only [homeDiff, OrderedMap.collect, List.foldl_append, List.foldl_cons,
        List.foldl_nil] at ih ⊢
      rw [ih]
      cases existing.home id with
      | none => rfl
      | some current =>
          by_cases hother : current ≠ home ∧ allowUpdates = true <;>
            simp [addedHome, replacedHome, hother]

theorem exists_of_prepareHomes {settings : StoreSettings} {home : String} {ids : List DatasetId}
    (hresult : prepareHomes settings home ids allowUpdates store = .ok diff) :
    ∃ existing, store.fetch ids = .ok existing ∧
      diff = homeDiff existing home allowUpdates ids := by
  obtain ⟨existing, hexisting, hdiff⟩ := bind_eq_ok.1 (eq_ok_of_demand hresult)
  cases hdiff
  exact ⟨existing, hexisting, rfl⟩

theorem relationsToAdd_of_prepareHomes {settings : StoreSettings} {home : String}
    {ids : List DatasetId}
    (hresult : prepareHomes settings home ids allowUpdates store = .ok diff) :
    diff.relationsToAdd = [] := by
  obtain ⟨existing, _, rfl⟩ := exists_of_prepareHomes hresult
  rw [homeDiff_eq]

theorem writable_of_prepareHomes {settings : StoreSettings} {home : String}
    {ids : List DatasetId}
    (hresult : prepareHomes settings home ids allowUpdates store = .ok diff) :
    store.Writable diff := by
  obtain ⟨existing, hexisting, rfl⟩ := exists_of_prepareHomes hresult
  have hfetched := MemoryStore.fetched_of_fetch hexisting
  rw [homeDiff_eq]
  refine ⟨⟨List.forall_mem_nil _, List.forall_mem_nil _, ?_, ?_⟩, List.nodup_nil⟩
  · intro id hmem
    obtain ⟨hid, hadded⟩ :=
      OrderedMap.contains_collect.1 (OrderedMap.contains_iff_mem_keys.2 hmem)
    rw [hfetched.home_eq hid, isSome_addedHome] at hadded
    exact OrderedMap.contains_eq_false.2 hadded
  · intro id hmem
    obtain ⟨hid, hupdated⟩ :=
      OrderedMap.contains_collect.1 (OrderedMap.contains_iff_mem_keys.2 hmem)
    rw [hfetched.home_eq hid, isSome_replacedHome] at hupdated
    exact OrderedMap.contains_eq_true.2 (Option.ne_none_iff_exists'.1 hupdated.1)

/-! ## Carrying out a plan -/

theorem write_eq_ok (activity : Activity) (hclear : store.obstacle? diff = none) :
    write activity diff store = .ok () (store.written diff) := by
  rw [write]
  by_cases hempty : diff.isEmpty = true
  · rw [if_pos hempty, MemoryStore.written_of_isEmpty hempty]
    rfl
  · rw [if_neg hempty, EStateM.adaptExcept, MemoryStore.apply_eq, hclear]

/-- A diff is written as a whole or not at all. -/
theorem write_cases (activity : Activity) (diff : Diff) (store : MemoryStore) :
    write activity diff store = .ok () (store.written diff) ∨
      ∃ failure, write activity diff store = .error failure store := by
  by_cases hempty : diff.isEmpty = true
  · left
    rw [write, if_pos hempty, MemoryStore.written_of_isEmpty hempty]
    rfl
  · rw [write, if_neg hempty, EStateM.adaptExcept, MemoryStore.apply_eq]
    cases store.obstacle? diff with
    | none => exact .inl rfl
    | some refusal => exact .inr ⟨_, rfl⟩

section CarryOut

variable {α : Type} {activity : Activity} {planned : Except Failure Diff} {report : Diff → α}

def carryOut (activity : Activity) (planned : Except Failure Diff) (report : Diff → α) :
    StoreAction α := do
  let diff ← MonadExcept.ofExcept planned
  write activity diff
  pure (report diff)

theorem carryOut_of_error {failure : Failure} (hplanned : planned = .error failure) :
    carryOut activity planned report store = .error failure store := by
  rw [hplanned]
  rfl

/-- A plan that can be written is. -/
theorem carryOut_of_ok (hindexed : store.Indexed) (hwritable : store.Writable diff)
    (hplanned : planned = .ok diff) :
    carryOut activity planned report store = .ok (report diff) (store.written diff) := by
  rw [hplanned]
  change EStateM.bind (write activity diff) (fun _ => pure (report diff)) store = _
  rw [EStateM.bind, write_eq_ok activity (hindexed.obstacle?_eq_none_iff.2 hwritable.toFits)]
  rfl

section Writable

variable (hindexed : store.Indexed) (hwritable : ∀ diff, planned = .ok diff → store.Writable diff)
include hindexed hwritable

/-- What a store has, and has after whatever is planned is written, is kept. -/
theorem leaves_carryOut {property : MemoryStore → Prop} (hstore : property store)
    (hwritten : ∀ diff, planned = .ok diff → property (store.written diff)) :
    property (leaves (carryOut activity planned report) store) := by
  rw [leaves]
  cases hplanned : planned with
  | error failure => exact hstore
  | ok diff =>
      rw [carryOut_of_ok hindexed (hwritable diff hplanned) rfl]
      exact hwritten diff hplanned

/-- A plan that can be written is carried out unless it could not be made. -/
theorem carryOut_eq_error_iff {failure : Failure} {after : MemoryStore} :
    carryOut activity planned report store = .error failure after ↔
      planned = .error failure ∧ after = store := by
  cases hplanned : planned with
  | error reason => simp [carryOut_of_error, eq_comm]
  | ok diff => simp [carryOut_of_ok hindexed (hwritable diff hplanned)]

theorem carryOut_eq_ok_iff {result : α} {after : MemoryStore} :
    carryOut activity planned report store = .ok result after ↔
      ∃ diff, planned = .ok diff ∧ result = report diff ∧ after = store.written diff := by
  cases hplanned : planned with
  | error reason => simp [carryOut_of_error]
  | ok diff => simp [carryOut_of_ok hindexed (hwritable diff hplanned), eq_comm]

end Writable

end CarryOut

theorem merge_eq (settings : StoreSettings) (collection : Collection) (allowUpdates : Bool)
    (store : MemoryStore) :
    merge settings collection allowUpdates store =
      carryOut .writingLineage (prepare settings collection allowUpdates store) id store := rfl

theorem merge_eq_ok_iff {settings : StoreSettings} (hindexed : store.Indexed)
    (hcollection : Collection.Lockstep collection) {after : MemoryStore} :
    merge settings collection allowUpdates store = .ok diff after ↔
      prepare settings collection allowUpdates store = .ok diff ∧ after = store.written diff := by
  rw [merge_eq, carryOut_eq_ok_iff hindexed fun _ => writable_of_prepare hcollection]
  simp

theorem merge_eq_error_iff {settings : StoreSettings} (hindexed : store.Indexed)
    (hcollection : Collection.Lockstep collection) {failure : Failure} {after : MemoryStore} :
    merge settings collection allowUpdates store = .error failure after ↔
      prepare settings collection allowUpdates store = .error failure ∧ after = store := by
  rw [merge_eq, carryOut_eq_error_iff hindexed fun _ => writable_of_prepare hcollection]

theorem add_eq (settings : StoreSettings) (tree : Tree) (bound : Nat) (allowUpdates : Bool)
    (store : MemoryStore) :
    add settings tree bound allowUpdates store =
      carryOut .writingLineage (prepareTree settings tree bound allowUpdates store) id store := by
  change EStateM.bind (MonadExcept.ofExcept _) _ store = _
  rw [prepareTree, EStateM.bind]
  cases (Collection.ofTree tree bound).mapError (Failure.contradiction (.addingTree tree.id)) <;>
    rfl

theorem add_eq_ok_iff {settings : StoreSettings} (hindexed : store.Indexed) {tree : Tree}
    {bound : Nat} {after : MemoryStore} :
    add settings tree bound allowUpdates store = .ok diff after ↔
      prepareTree settings tree bound allowUpdates store = .ok diff ∧
        after = store.written diff := by
  rw [add_eq, carryOut_eq_ok_iff hindexed fun _ => writable_of_prepareTree]
  simp

theorem setHome_eq (settings : StoreSettings) (home : String) (ids : List DatasetId)
    (allowUpdates : Bool) (store : MemoryStore) :
    setHome settings home ids allowUpdates store =
      carryOut .writingHomes (prepareHomes settings home ids allowUpdates store)
        Diff.totalRecords store := by
  change (do
    if settings.requireKnownDatasets then MonadExcept.ofExcept (requireKnown store ids)
    let existing ← MonadExcept.ofExcept (store.fetch ids)
    let diff := homeDiff existing home allowUpdates ids
    write .writingHomes diff
    pure diff.totalRecords : StoreAction Nat) store = _
  rw [prepareHomes]
  cases settings.requireKnownDatasets with
  | false => cases store.fetch ids <;> rfl
  | true =>
      cases requireKnown store ids with
      | error failure => rfl
      | ok _ => cases store.fetch ids <;> rfl

end Index

end DatasetLineage
