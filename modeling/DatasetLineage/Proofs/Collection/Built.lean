import DatasetLineage.Proofs.Collection.Entries
import DatasetLineage.Proofs.Outcome

/-!
# Collections that successful merges build

A collection that is only ever changed by merges that succeed is sound, whatever is
merged, in whatever order, and however deep trees are followed.  So its relations have no
cycle, and each of its edges has one classifier.
-/

namespace DatasetLineage

def DatasetId.numbered (number : Nat) : DatasetId :=
  ⟨number % DatasetId.limit, Nat.mod_lt _ (by decide)⟩

namespace Collection

/-- A merge that a caller can ask for. -/
inductive Change where
  | home (id : DatasetId) (home : Option String)
  | relation (relation : Relation)
  | tree (tree : Tree) (bound : Nat)
  | collection (other : Collection)

def Change.perform : Change → Merging Unit
  | .home id stated => mergeHome? id stated
  | .relation stated => mergeRelation stated
  | .tree supplied bound => mergeTree supplied bound
  | .collection other => merge other

/-- The collections that come from successful merges and constructors. -/
inductive Built : Collection → Prop
  | empty : Built empty
  | change {collection merged : Collection} (change : Change) :
      Built collection → collection.afterMerging change.perform = .ok merged → Built merged
  | ofTree {collection : Collection} (tree : Tree) (bound : Nat) :
      ofTree tree bound = .ok collection → Built collection
  | ofCopyAndTree {collection : Collection} (copy : Option Collection) (tree : Option Tree)
      (bound : Nat) : ofCopyAndTree copy tree bound = .ok collection → Built collection
  | ofSnapshot {collection : Collection} (snapshot : Snapshot) :
      ofSnapshot snapshot = .ok collection → Built collection

/-- Perform merges one after the other, up to the first that fails. -/
def performAll (changes : List Change) : Merging Unit :=
  changes.forM Change.perform

theorem performAll_cons (change : Change) (changes : List Change) :
    performAll (change :: changes) = (do change.perform; performAll changes) := rfl

theorem performAll_append (first more : List Change) :
    performAll (first ++ more) = (do performAll first; performAll more) :=
  List.forM_append

theorem performAll_map {α : Type} (change : α → Change) (values : List α) :
    performAll (values.map change) = values.forM fun value => (change value).perform :=
  List.forM_map

theorem afterMerging_eq_ok {collection merged : Collection} {change : Merging Unit} :
    collection.afterMerging change = .ok merged ↔ change collection = .ok () merged := by
  rw [afterMerging]
  cases change collection with
  | ok result after => simp
  | error error after => simp

/-! ## Merging a tree as its entries -/

/-- The merge of a tree with another check at nodes without detail. -/
def mergeTreeWith (check : LeafCheck) (tree : Tree) (bound : Nat) : Merging Unit := do
  Merging.check fun _ => discard tree.childDatasets
  Entry.enterAllWith check (tree.entries (.ofBound bound))

theorem mergeTree_eq (tree : Tree) (bound : Nat) :
    mergeTree tree bound = mergeTreeWith .search tree bound := by
  rw [mergeTree, mergeTreeWith, mergeLevels_eq]

theorem discard_childDatasets_eq_ok_iff {tree : Tree} :
    discard tree.childDatasets = .ok () ↔ tree.NonRepeating := by
  rw [← Tree.childDatasets_succeeds_iff, discard_eq_ok]

variable {collection merged : Collection}

/-- What the merge of a tree does to a sound collection. -/
theorem Sound.mergeTreeWith_eq_ok_iff (hsound : Sound collection) {check : LeafCheck}
    (hcheck : check.Passes) {tree : Tree} {bound : Nat} :
    mergeTreeWith check tree bound collection = .ok () merged ↔
      tree.NonRepeating ∧
        (∀ error, .fault error ∉ tree.entries (.ofBound bound)) ∧
          enterAll (Entry.facts (tree.entries (.ofBound bound))) collection =
            .ok () merged := by
  rw [mergeTreeWith, Merging.bind_eq_ok, ← discard_childDatasets_eq_ok_iff,
    ← Entry.enterAllWith_eq_ok_iff hsound hcheck]
  simp only [Merging.check_eq_ok_iff]
  constructor
  · rintro ⟨_, ⟨hlisted, rfl⟩, hentries⟩
    exact ⟨hlisted, hentries⟩
  · intro ⟨hlisted, hentries⟩
    exact ⟨collection, ⟨hlisted, rfl⟩, hentries⟩

/-! ## What merges keep -/

theorem enterAll_singleton (fact : Fact) : enterAll [fact] = enter fact :=
  bind_pure_unit

def Change.listing : Change → List Fact
  | .home id stated => stated.toList.map fun home => .home id home
  | .relation stated => [.relation stated]
  | .tree supplied bound => Entry.facts (supplied.entries (.ofBound bound))
  | .collection other => other.listing

/-- Whether a merge has no fault of its own, whatever it is merged into. -/
def Change.Faultless : Change → Prop
  | .home _ _ => True
  | .relation _ => True
  | .tree supplied bound =>
      supplied.NonRepeating ∧ ∀ error, .fault error ∉ supplied.entries (.ofBound bound)
  | .collection _ => True

instance : (change : Change) → Decidable change.Faultless
  | .home _ _ => inferInstanceAs (Decidable True)
  | .relation _ => inferInstanceAs (Decidable True)
  | .tree supplied bound => inferInstanceAs (Decidable (supplied.NonRepeating ∧
      ∀ error, .fault error ∉ supplied.entries (.ofBound bound)))
  | .collection _ => inferInstanceAs (Decidable True)

/-- A merge into a sound collection enters its facts, unless it has a fault of its own. -/
theorem Sound.perform_eq_ok_iff (hsound : Sound collection) {change : Change} :
    change.perform collection = .ok () merged ↔
      change.Faultless ∧ enterAll change.listing collection = .ok () merged := by
  cases change with
  | home id home =>
      rw [Change.Faultless, true_and]
      cases home with
      | none => exact Iff.rfl
      | some home =>
          rw [Change.listing, Option.toList_some, List.map_singleton, enterAll_singleton]
          rfl
  | relation relation =>
      rw [Change.Faultless, true_and, Change.listing, enterAll_singleton]
      rfl
  | tree tree bound =>
      rw [Change.perform, mergeTree_eq, hsound.mergeTreeWith_eq_ok_iff LeafCheck.search_passes,
        ← and_assoc]
      rfl
  | collection other =>
      rw [Change.Faultless, true_and, Change.perform, merge_eq]
      rfl

theorem Sound.perform (hsound : Sound collection) (change : Change)
    (hresult : change.perform collection = .ok () merged) :
    Sound merged ∧ collection.facts ⊆ merged.facts := by
  have hentered := hsound.enteredAll (hsound.perform_eq_ok_iff.1 hresult).2
  refine ⟨hentered.sound, ?_⟩
  rw [hentered.facts_eq]
  exact Set.subset_union_left

/-- A snapshot is merged record by record. -/
theorem ofSnapshot_eq_performAll (snapshot : Snapshot) :
    ofSnapshot snapshot = empty.afterMerging
      (performAll (snapshot.homes.entries.map (fun entry => .home entry.1 (some entry.2)) ++
        snapshot.relations.map .relation)) := by
  rw [performAll_append, performAll_map, performAll_map]
  rfl

/-- What every merge keeps, a list of merges keeps. -/
theorem keeps_performAll {property : Collection → Prop}
    (hkept : ∀ change before after, property before →
      Change.perform change before = .ok () after → property after)
    {changes : List Change} (hbefore : property collection)
    (hresult : performAll changes collection = .ok () merged) : property merged := by
  induction changes generalizing collection with
  | nil =>
      cases hresult
      exact hbefore
  | cons change rest ih =>
      rw [performAll_cons, Merging.bind_eq_ok] at hresult
      obtain ⟨middle, hfirst, hrest⟩ := hresult
      exact ih (hkept change collection middle hbefore hfirst) hrest

theorem Built.performAll (hbuilt : Built collection) {changes : List Change}
    (hresult : collection.afterMerging (performAll changes) = .ok merged) : Built merged := by
  apply keeps_performAll _ hbuilt (afterMerging_eq_ok.1 hresult)
  intro change before after hbefore hafter
  exact hbefore.change change (afterMerging_eq_ok.2 hafter)

/-- What the empty collection has, and every merge that succeeds keeps, all collections have
that merges build. -/
theorem Built.induction {property : Collection → Prop} (hempty : property Collection.empty)
    (hkept : ∀ change before after, property before →
      Change.perform change before = .ok () after → property after)
    (hbuilt : Built collection) : property collection := by
  induction hbuilt with
  | empty => exact hempty
  | change change _ hresult ih => exact hkept change _ _ ih (afterMerging_eq_ok.1 hresult)
  | ofTree tree bound hresult =>
      exact hkept (.tree tree bound) _ _ hempty (afterMerging_eq_ok.1 hresult)
  | ofCopyAndTree copy tree bound hresult =>
      obtain ⟨middle, hcopy, htree⟩ := Merging.bind_eq_ok.1 (afterMerging_eq_ok.1 hresult)
      have hmiddle : property middle := by
        cases copy with
        | none =>
            cases hcopy
            exact hempty
        | some other => exact hkept (.collection other) _ _ hempty hcopy
      cases tree with
      | none =>
          cases htree
          exact hmiddle
      | some tree => exact hkept (.tree tree bound) _ _ hmiddle htree
  | ofSnapshot snapshot hresult =>
      rw [ofSnapshot_eq_performAll, afterMerging_eq_ok] at hresult
      exact keeps_performAll hkept hempty hresult

/-- Successful merges build sound collections. -/
theorem Built.sound (hbuilt : Built collection) : Sound collection := by
  apply hbuilt.induction sound_empty
  intro change before after hbefore hresult
  exact (hbefore.perform change hresult).1

/-- Merges that succeed never make lineage cyclic or ambiguous: no dataset is derived from
itself over any number of steps, an edge has one relation, which the lookup by edge finds,
and a dataset has one home. -/
theorem Built.acyclic_and_unambiguous (hbuilt : Built collection) :
    (∀ id, ¬ Below collection.edges .derived id id) ∧
      (collection.relations.map Relation.edge).Nodup ∧
      (∀ left ∈ collection.relations, ∀ right ∈ collection.relations,
        left.edge = right.edge → left.classifier = right.classifier) ∧
      (∀ edge classifier, collection.classifier edge = some classifier ↔
        edge.relation classifier ∈ collection.relations) ∧
      ∀ id left right, (id, left) ∈ collection.homes.entries →
        (id, right) ∈ collection.homes.entries → left = right := by
  have hsound := hbuilt.sound
  refine ⟨hsound.acyclic, hsound.distinct, ?_, hsound.classifiers, ?_⟩
  · intro left hleft right hright hedge
    exact hsound.consistent.classifiers left right hleft hright hedge
  · intro id left right hleft hright
    rw [← OrderedMap.get?_eq_some_iff] at hleft hright
    exact hsound.consistent.homes id left right hleft hright

/-- Two relations in a row, the second of them from a dataset already known. -/
theorem acyclic_and_unambiguous_of_chain :
    ∃ collection, Built collection ∧
      collection.relations =
        [⟨"nbar", .numbered 1, .numbered 2⟩, ⟨"bias", .numbered 2, .numbered 3⟩] ∧
      (∀ id, ¬ Below collection.edges .derived id id) ∧
      collection.classifier ⟨.numbered 2, .numbered 3⟩ = some "bias" := by
  have hfirst : Built (empty.insertRelation ⟨"nbar", .numbered 1, .numbered 2⟩) :=
    .change (.relation ⟨"nbar", .numbered 1, .numbered 2⟩) .empty rfl
  have hbuilt := Built.change (.relation ⟨"bias", .numbered 2, .numbered 3⟩) hfirst rfl
  obtain ⟨hacyclic, _, _, hclassifier, _⟩ := hbuilt.acyclic_and_unambiguous
  refine ⟨_, hbuilt, rfl, hacyclic, ?_⟩
  exact (hclassifier _ _).2 (List.mem_cons_of_mem _ List.mem_cons_self)

end Collection

end DatasetLineage
