import DatasetLineage.Proofs.Collection.Sound
import DatasetLineage.Proofs.Tree.Nodes

/-!
# Facts and their consistency

What a collection holds is a set of facts: homes, known datasets, relations and detailed
subtrees.  Every merge comes down to entering facts one after the other, and whether a
list of facts can be entered depends on one thing only: that the facts of the collection
and those of the list, taken together as a set, do not contradict each other.  The order
in which they are entered plays no part in it.
-/

namespace DatasetLineage

/-- A piece of lineage. -/
inductive Fact where
  | home (id : DatasetId) (home : String)
  | known (id : DatasetId)
  | relation (relation : Relation)
  /-- The one detailed subtree of an edge. -/
  | detail (edge : Edge) (tree : Tree)

/-- What a fact says.  A relation also says that its two ends are known. -/
def Fact.content : Fact → Set Fact
  | .relation stated => {.relation stated, .known stated.source, .known stated.derived}
  | fact => {fact}

def Fact.contents (facts : List Fact) : Set Fact :=
  {said | ∃ fact ∈ facts, said ∈ fact.content}

def Fact.edgesAmong (facts : Set Fact) : Set Edge :=
  {edge | ∃ stated, .relation stated ∈ facts ∧ stated.edge = edge}

/-- Facts without a contradiction. -/
structure Consistent (facts : Set Fact) : Prop where
  /-- A dataset has one home. -/
  homes : ∀ id left right, Fact.home id left ∈ facts → Fact.home id right ∈ facts →
    left = right
  /-- An edge has one classifier. -/
  classifiers : ∀ left right, Fact.relation left ∈ facts → Fact.relation right ∈ facts →
    left.edge = right.edge → left.classifier = right.classifier
  acyclic : Acyclic (Fact.edgesAmong facts)
  /-- An edge has one detailed subtree. -/
  details : ∀ edge left right, Fact.detail edge left ∈ facts →
    Fact.detail edge right ∈ facts → left = right

namespace Fact

theorem contents_nil : contents [] = ∅ := by
  ext said
  simp [contents]

theorem contents_cons (fact : Fact) (facts : List Fact) :
    contents (fact :: facts) = fact.content ∪ contents facts := by
  ext said
  simp [contents]

theorem contents_append (left right : List Fact) :
    contents (left ++ right) = contents left ∪ contents right := by
  ext said
  simp [contents, or_and_right, exists_or]

theorem mem_contents_map {α : Type} {values : List α} {fact : α → Fact} {said : Fact} :
    said ∈ contents (values.map fact) ↔ ∃ value ∈ values, said ∈ (fact value).content := by
  simp [contents]

theorem mem_contents_flatMap {α : Type} {values : List α} {facts : α → List Fact}
    {said : Fact} :
    said ∈ contents (values.flatMap facts) ↔ ∃ value ∈ values, said ∈ contents (facts value) := by
  simp only [contents, Set.mem_ofPred_eq, List.mem_flatMap]
  constructor
  · intro ⟨fact, ⟨value, hvalue, hfact⟩, hsaid⟩
    exact ⟨value, hvalue, fact, hfact, hsaid⟩
  · intro ⟨value, hvalue, fact, hfact, hsaid⟩
    exact ⟨fact, ⟨value, hvalue, hfact⟩, hsaid⟩

theorem detail_mem_content {fact : Fact} {edge : Edge} {tree : Tree} :
    .detail edge tree ∈ fact.content ↔ fact = .detail edge tree := by
  cases fact <;> simp [content, eq_comm]

theorem mem_edgesAmong {facts : Set Fact} {edge : Edge} :
    edge ∈ edgesAmong facts ↔ ∃ stated, .relation stated ∈ facts ∧ stated.edge = edge :=
  Iff.rfl

theorem edgesAmong_union (left right : Set Fact) :
    edgesAmong (left ∪ right) = edgesAmong left ∪ edgesAmong right := by
  ext edge
  simp only [mem_edgesAmong, Set.mem_union, or_and_right, exists_or]

theorem edgesAmong_mono {facts more : Set Fact} (hsubset : facts ⊆ more) :
    edgesAmong facts ⊆ edgesAmong more :=
  fun _ ⟨stated, hmem, hedge⟩ => ⟨stated, hsubset hmem, hedge⟩

end Fact

theorem Consistent.mono {facts more : Set Fact} (hconsistent : Consistent more)
    (hsubset : facts ⊆ more) : Consistent facts where
  homes := fun id left right hleft hright =>
    hconsistent.homes id left right (hsubset hleft) (hsubset hright)
  classifiers := fun left right hleft hright =>
    hconsistent.classifiers left right (hsubset hleft) (hsubset hright)
  acyclic := hconsistent.acyclic.mono (Fact.edgesAmong_mono hsubset)
  details := fun edge left right hleft hright =>
    hconsistent.details edge left right (hsubset hleft) (hsubset hright)

namespace Collection

def Holds (collection : Collection) : Fact → Prop
  | .home id home => collection.home id = some home
  | .known id => collection.contains id = true
  | .relation relation => relation ∈ collection.relations
  | .detail edge tree => collection.details.get? edge = some tree

def facts (collection : Collection) : Set Fact :=
  {fact | collection.Holds fact}

section Membership

variable {collection : Collection}

@[simp]
theorem home_mem_facts {id : DatasetId} {home : String} :
    Fact.home id home ∈ collection.facts ↔ collection.home id = some home := Iff.rfl

@[simp]
theorem known_mem_facts {id : DatasetId} :
    Fact.known id ∈ collection.facts ↔ collection.contains id = true := Iff.rfl

@[simp]
theorem relation_mem_facts {relation : Relation} :
    Fact.relation relation ∈ collection.facts ↔ relation ∈ collection.relations := Iff.rfl

@[simp]
theorem detail_mem_facts {edge : Edge} {tree : Tree} :
    Fact.detail edge tree ∈ collection.facts ↔ collection.details.get? edge = some tree :=
  Iff.rfl

theorem edgesAmong_facts : Fact.edgesAmong collection.facts = collection.edges := rfl

/-- The homes of a collection are what its facts say. -/
theorem homes_eq {homes : Homes}
    (hfacts : ∀ id home, .home id home ∈ collection.facts ↔ homes.get? id = some home) :
    collection.homes = homes := by
  apply OrderedMap.ext_some
  exact hfacts

end Membership

theorem facts_empty : empty.facts = ∅ := by
  apply Set.eq_empty_of_forall_notMem
  intro fact hmem
  cases fact <;> cases hmem

/-- What a sound collection holds is consistent. -/
theorem Sound.consistent {collection : Collection} (hsound : Sound collection) :
    Consistent collection.facts where
  homes := by
    intro id left right hleft hright
    rw [home_mem_facts] at hleft hright
    exact Option.some.inj (hleft.symm.trans hright)
  classifiers := by
    intro left right hleft hright hedge
    rw [hsound.eq_of_edge_eq hleft hright hedge]
  acyclic := hsound.acyclic
  details := by
    intro edge left right hleft hright
    rw [detail_mem_facts] at hleft hright
    exact Option.some.inj (hleft.symm.trans hright)

/-! ## Entering facts -/

def register (edge : Edge) (tree : Tree) : Merging Unit := fun collection =>
  match collection.details.get? edge with
  | some existing =>
      if existing.same tree then .ok () collection
      else .error (.duplicateDetail edge) collection
  | none => .ok () { collection with details := collection.details.insert edge tree }

theorem mergeDetail_eq (edge : Edge) (tree : Tree) :
    mergeDetail edge tree = if tree.children.hasDetail then register edge tree else pure () := by
  funext collection
  rw [mergeDetail]
  by_cases hdetail : tree.children.hasDetail = true
  · rw [if_pos hdetail, if_pos hdetail]
    rfl
  · rw [if_neg hdetail, if_neg hdetail]
    rfl

def enter : Fact → Merging Unit
  | .home id home => mergeHome id home
  | .known id => addKnown id
  | .relation relation => mergeRelation relation
  | .detail edge tree => register edge tree

def enterAll (facts : List Fact) : Merging Unit :=
  facts.forM enter

/-- A collection with a fact, unless it records one of its kind already. -/
def add (collection : Collection) : Fact → Collection
  | .home id home =>
      if collection.homes.contains id then collection
      else { collection with homes := collection.homes.insert id home }
  | .known id => { collection with known := IdSet.add collection.known id }
  | .relation relation => collection.addRelation relation
  | .detail edge tree =>
      if collection.details.contains edge then collection
      else { collection with details := collection.details.insert edge tree }

/-- A collection with all facts of a list that are new to it. -/
def addAll (collection : Collection) (facts : List Fact) : Collection :=
  facts.foldl add collection

/-! ## One fact -/

section OneFact

variable {collection merged : Collection}

/-- What entering a fact into a sound collection leads to. -/
structure Entered (collection : Collection) (fact : Fact) (merged : Collection) : Prop where
  eq_add : merged = collection.add fact
  sound : Sound merged
  facts_eq : merged.facts = collection.facts ∪ fact.content

theorem entered_of_mem (hsound : Sound collection) {fact : Fact}
    (hadd : collection.add fact = collection) (hsaid : fact.content ⊆ collection.facts) :
    Entered collection fact collection where
  eq_add := hadd.symm
  sound := hsound
  facts_eq := (Set.union_eq_left.2 hsaid).symm

theorem entered_home (hsound : Sound collection) {id : DatasetId} {home : String}
    (hresult : mergeHome id home collection = .ok () merged) :
    Entered collection (.home id home) merged := by
  rw [mergeHome] at hresult
  cases hold : collection.homes.get? id with
  | some existing =>
      simp only [hold] at hresult
      split at hresult
      · next heq =>
        cases hresult
        subst heq
        refine entered_of_mem hsound ?_ (Set.singleton_subset_iff.2 hold)
        exact if_pos (OrderedMap.contains_eq_true.2 ⟨existing, hold⟩)
      · cases hresult
  | none =>
      simp only [hold] at hresult
      cases hresult
      refine ⟨?_, ⟨hsound.toLockstep.of_eq rfl rfl rfl rfl fun _ h => h, hsound.acyclic⟩, ?_⟩
      · rw [add, OrderedMap.contains_eq_false.2 hold]
        rfl
      · ext fact
        cases fact with
        | home other value =>
            rw [Set.mem_union, home_mem_facts, home_mem_facts, Collection.home,
              OrderedMap.get?_insert]
            by_cases heq : id = other
            · subst heq
              simp [Collection.home, hold, Fact.content, eq_comm]
            · simp [rank_eq_iff, heq, Collection.home, Fact.content, Ne.symm heq]
        | known other => simp [Fact.content, contains]
        | relation stated => simp [Fact.content]
        | detail edge tree => simp [Fact.content]

theorem entered_known (hsound : Sound collection) {id : DatasetId}
    (hresult : addKnown id collection = .ok () merged) :
    Entered collection (.known id) merged := by
  cases hresult
  refine ⟨rfl, ⟨hsound.toLockstep.of_eq rfl rfl rfl rfl fun _ h => ?_, hsound.acyclic⟩, ?_⟩
  · exact IdSet.contains_add.2 (.inl h)
  · ext fact
    cases fact with
    | home other value => simp [Fact.content, Collection.home]
    | known other =>
        rw [Set.mem_union, known_mem_facts, known_mem_facts, contains, IdSet.contains_add]
        simp [Fact.content, contains]
    | relation stated => simp [Fact.content]
    | detail edge tree => simp [Fact.content]

theorem entered_relation (hsound : Sound collection) {relation : Relation}
    (hresult : mergeRelation relation collection = .ok () merged) :
    Entered collection (.relation relation) merged := by
  obtain ⟨⟨hclassifier, hacyclic⟩, rfl⟩ := hsound.mergeRelation_eq_ok_iff.1 hresult
  by_cases hmem : relation.edge ∈ collection.edges
  · have hadd := addRelation_of_mem hsound.toLockstep hmem
    have hstored : relation ∈ collection.relations := by
      obtain ⟨stored, hstored, hedge⟩ := hmem
      have hlookup := hsound.classifier_of_mem hstored
      rw [hedge] at hlookup
      rwa [← Relation.ext_edge hedge (hclassifier _ hlookup)]
    rw [hadd]
    refine entered_of_mem hsound hadd ?_
    obtain ⟨hsource, hderived⟩ := hsound.known relation hstored
    rintro said (rfl | rfl | rfl)
    · exact hstored
    · exact hsource
    · exact hderived
  · refine ⟨rfl, hsound.addRelation hacyclic, ?_⟩
    rw [addRelation_of_not_mem hsound.toLockstep hmem]
    ext fact
    cases fact with
    | home other value => simp [Fact.content, Collection.home, insertRelation]
    | known other =>
        rw [Set.mem_union, known_mem_facts, known_mem_facts, contains_insertRelation]
        simp [Fact.content]
    | relation stated => simp [Fact.content, or_comm]
    | detail edge tree => simp [Fact.content, insertRelation]

theorem entered_detail (hsound : Sound collection) {edge : Edge} {tree : Tree}
    (hresult : register edge tree collection = .ok () merged) :
    Entered collection (.detail edge tree) merged := by
  rw [register] at hresult
  cases hold : collection.details.get? edge with
  | some existing =>
      simp only [hold] at hresult
      split at hresult
      · next hsame =>
        cases hresult
        rw [Tree.same_iff] at hsame
        subst hsame
        refine entered_of_mem hsound ?_ (Set.singleton_subset_iff.2 hold)
        exact if_pos (OrderedMap.contains_eq_true.2 ⟨existing, hold⟩)
      · cases hresult
  | none =>
      simp only [hold] at hresult
      cases hresult
      refine ⟨?_, ⟨hsound.toLockstep.of_eq rfl rfl rfl rfl fun _ h => h, hsound.acyclic⟩, ?_⟩
      · rw [add, OrderedMap.contains_eq_false.2 hold]
        rfl
      · ext fact
        cases fact with
        | home other value => simp [Fact.content, Collection.home]
        | known other => simp [Fact.content, contains]
        | relation stated => simp [Fact.content]
        | detail other value =>
            rw [Set.mem_union, detail_mem_facts, detail_mem_facts, OrderedMap.get?_insert]
            by_cases heq : edge = other
            · subst heq
              simp [hold, Fact.content, eq_comm]
            · simp [rank_eq_iff, heq, Fact.content, Ne.symm heq]

theorem Sound.entered (hsound : Sound collection) {fact : Fact}
    (hresult : enter fact collection = .ok () merged) : Entered collection fact merged := by
  cases fact with
  | home id home => exact entered_home hsound hresult
  | known id => exact entered_known hsound hresult
  | relation relation => exact entered_relation hsound hresult
  | detail edge tree => exact entered_detail hsound hresult

/-- A fact that contradicts nothing can be entered. -/
theorem Sound.enter_succeeds (hsound : Sound collection) {fact : Fact}
    (hconsistent : Consistent (collection.facts ∪ fact.content)) :
    ∃ merged, enter fact collection = .ok () merged := by
  cases fact with
  | home id home =>
      rw [enter, mergeHome]
      cases hold : collection.homes.get? id with
      | none => exact ⟨_, rfl⟩
      | some existing =>
          have heq := hconsistent.homes id existing home (.inl hold) (.inr rfl)
          exact ⟨collection, if_pos heq⟩
  | known id => exact ⟨_, rfl⟩
  | relation relation =>
      refine ⟨_, hsound.mergeRelation_eq_ok_iff.2 ⟨⟨fun classifier hclassifier => ?_, ?_⟩, rfl⟩⟩
      · exact hconsistent.classifiers _ relation
          (.inl ((hsound.classifiers _ _).1 hclassifier)) (.inr (.inl rfl)) rfl
      · apply hconsistent.acyclic.mono
        rintro edge (rfl | ⟨stored, hstored, hedge⟩)
        · exact ⟨relation, .inr (.inl rfl), rfl⟩
        · exact ⟨stored, .inl hstored, hedge⟩
  | detail edge tree =>
      rw [enter, register]
      cases hold : collection.details.get? edge with
      | none => exact ⟨_, rfl⟩
      | some existing =>
          have heq := hconsistent.details edge existing tree (.inl hold) (.inr rfl)
          exact ⟨collection, if_pos ((Tree.same_iff existing tree).2 heq)⟩

end OneFact

/-! ## Many facts -/

section ManyFacts

variable {collection merged : Collection} {facts : List Fact}

/-- What entering a list of facts leads to. -/
structure EnteredAll (collection : Collection) (facts : List Fact) (merged : Collection) :
    Prop where
  eq_addAll : merged = collection.addAll facts
  sound : Sound merged
  facts_eq : merged.facts = collection.facts ∪ Fact.contents facts

theorem enterAll_cons (fact : Fact) (facts : List Fact) :
    enterAll (fact :: facts) = (do enter fact; enterAll facts) := rfl

theorem Sound.enteredAll (hsound : Sound collection)
    (hresult : enterAll facts collection = .ok () merged) :
    EnteredAll collection facts merged := by
  induction facts generalizing collection with
  | nil =>
      cases hresult
      refine ⟨rfl, hsound, ?_⟩
      rw [Fact.contents_nil, Set.union_empty]
  | cons fact rest ih =>
      rw [enterAll_cons, Merging.bind_eq_ok] at hresult
      obtain ⟨middle, hfirst, hrest⟩ := hresult
      have hmiddle := hsound.entered hfirst
      have hmerged := ih hmiddle.sound hrest
      refine ⟨?_, hmerged.sound, ?_⟩
      · rw [hmerged.eq_addAll, hmiddle.eq_add]
        rfl
      · rw [hmerged.facts_eq, hmiddle.facts_eq, Fact.contents_cons, Set.union_assoc]

theorem EnteredAll.mem_relations (hentered : EnteredAll collection facts merged)
    {relation : Relation} : relation ∈ merged.relations ↔
      relation ∈ collection.relations ∨ .relation relation ∈ Fact.contents facts := by
  rw [← relation_mem_facts, hentered.facts_eq, Set.mem_union, relation_mem_facts]

theorem EnteredAll.edges_eq (hentered : EnteredAll collection facts merged) :
    merged.edges = collection.edges ∪ Fact.edgesAmong (Fact.contents facts) := by
  calc merged.edges = Fact.edgesAmong merged.facts := edgesAmong_facts.symm
    _ = Fact.edgesAmong (collection.facts ∪ Fact.contents facts) := by rw [hentered.facts_eq]
    _ = collection.edges ∪ Fact.edgesAmong (Fact.contents facts) := by
        rw [Fact.edgesAmong_union, edgesAmong_facts]

/-- A dataset keeps its home and, where it has none, gets the one that is stated. -/
theorem EnteredAll.home_eq (hentered : EnteredAll collection facts merged) {id : DatasetId}
    {stated : Option String}
    (hstated : ∀ home, .home id home ∈ Fact.contents facts ↔ stated = some home) :
    merged.home id = (collection.home id).or stated := by
  have hmerged : ∀ home, merged.home id = some home ↔
      collection.home id = some home ∨ stated = some home := by
    intro home
    rw [← home_mem_facts, hentered.facts_eq, Set.mem_union, home_mem_facts, hstated]
  cases hrecorded : collection.home id with
  | some current => exact (hmerged current).2 (.inl hrecorded)
  | none =>
      apply Option.ext
      intro home
      rw [hmerged, hrecorded]
      simp

theorem Sound.enterAll_succeeds (hsound : Sound collection)
    (hconsistent : Consistent (collection.facts ∪ Fact.contents facts)) :
    ∃ merged, enterAll facts collection = .ok () merged := by
  induction facts generalizing collection with
  | nil => exact ⟨collection, rfl⟩
  | cons fact rest ih =>
      rw [Fact.contents_cons, ← Set.union_assoc] at hconsistent
      obtain ⟨middle, hfirst⟩ :=
        hsound.enter_succeeds (hconsistent.mono Set.subset_union_left)
      have hmiddle := hsound.entered hfirst
      rw [← hmiddle.facts_eq] at hconsistent
      obtain ⟨merged, hrest⟩ := ih hmiddle.sound hconsistent
      exact ⟨merged, by rw [enterAll_cons, Merging.bind_eq_ok]; exact ⟨middle, hfirst, hrest⟩⟩

/-- Facts can be entered into a sound collection exactly if they are consistent with
each other and with what it holds. -/
theorem Sound.enterAll_succeeds_iff (hsound : Sound collection) :
    (∃ merged, enterAll facts collection = .ok () merged) ↔
      Consistent (collection.facts ∪ Fact.contents facts) := by
  refine ⟨fun ⟨merged, hresult⟩ => ?_, hsound.enterAll_succeeds⟩
  have hmerged := hsound.enteredAll hresult
  rw [← hmerged.facts_eq]
  exact hmerged.sound.consistent

end ManyFacts

end Collection

end DatasetLineage
