import DatasetLineage.Proofs.Collection.Facts

/-!
# A merge as a list of entries

Merging a tree, a collection or a snapshot enters one fact after the other.  A tree has
two more kinds of entries: the search for a cycle at a node without detail, and the
failure at a child that has another direction than its parent.

On a sound collection the search at a node never finds a cycle, so a merge comes to the
same whatever a finding would lead to.
-/

namespace DatasetLineage

/-- One step of the merge of a tree. -/
inductive Entry where
  | fact (fact : Fact)
  /-- A node without detail, seen in the direction opposite to its tree. -/
  | leaf (direction : Direction) (id : DatasetId)
  | fault (error : LineageError)

/-- What is done at a node without detail. -/
abbrev LeafCheck := Direction → DatasetId → Merging Unit

namespace Entry

def ofNode (id : DatasetId) (home : Option String) : List Entry :=
  home.toList.map (fun home => .fact (.home id home)) ++ [.fact (.known id)]

def ofLink (direction : Direction) (parent : DatasetId) (classifier : String) (child : Tree)
    (below : List Entry) : List Entry :=
  (if child.direction ≠ direction then
      [.fault (.mixedDirection child.id direction child.direction)] else []) ++
    (.fact (.relation ((direction.edge parent child.id).relation classifier)) ::
      ((if child.children.hasDetail then
          [.fact (.detail (direction.edge parent child.id) child)] else []) ++ below))

def enterWith (check : LeafCheck) : Entry → Merging Unit
  | .fact stated => Collection.enter stated
  | .leaf direction id => check direction id
  | .fault error => throw error

def enterAllWith (check : LeafCheck) (entries : List Entry) : Merging Unit :=
  entries.forM (enterWith check)

def facts (entries : List Entry) : List Fact :=
  entries.filterMap fun entry =>
    match entry with
    | .fact stated => some stated
    | _ => none

def isFault : Entry → Bool
  | .fault _ => true
  | _ => false

theorem all_not_isFault_iff {entries : List Entry} :
    (entries.all fun entry => !entry.isFault) = true ↔ ∀ error, .fault error ∉ entries := by
  rw [List.all_eq_true]
  constructor
  · intro hall error hmem
    cases hall _ hmem
  · intro hnone entry hmem
    cases entry with
    | fact stated => rfl
    | leaf direction id => rfl
    | fault error => exact absurd hmem (hnone error)

instance (entries : List Entry) : Decidable (∀ error, .fault error ∉ entries) :=
  decidable_of_iff _ all_not_isFault_iff

end Entry

mutual

def Tree.entries (levels : Levels) : Tree → List Entry
  | .node direction id home (.populated groups) =>
      Entry.ofNode id home ++ Tree.groupsEntries levels direction id groups
  | .node direction id home _ => Entry.ofNode id home ++ [.leaf direction.opposite id]

def Tree.groupsEntries (levels : Levels) (direction : Direction) (parent : DatasetId) :
    List (String × List Tree) → List Entry
  | [] => []
  | (classifier, nodes) :: rest =>
      Tree.listEntries levels direction parent classifier nodes ++
        Tree.groupsEntries levels direction parent rest

def Tree.listEntries (levels : Levels) (direction : Direction) (parent : DatasetId)
    (classifier : String) : List Tree → List Entry
  | [] => []
  | child :: rest =>
      Entry.ofLink direction parent classifier child
          (if levels ≠ some 1 then child.entries levels.next else []) ++
        Tree.listEntries levels direction parent classifier rest

end

def LeafCheck.search : LeafCheck := fun direction id =>
  Merging.check fun collection => collection.ensureAcyclic direction id

namespace Entry

variable {check : LeafCheck}

theorem enterAllWith_nil : enterAllWith check [] = pure () := rfl

theorem enterAllWith_append (left right : List Entry) :
    enterAllWith check (left ++ right) =
      (do enterAllWith check left; enterAllWith check right) :=
  List.forM_append

theorem enterAllWith_cons (entry : Entry) (entries : List Entry) :
    enterAllWith check (entry :: entries) =
      (do entry.enterWith check; enterAllWith check entries) := rfl

theorem enterAllWith_singleton (entry : Entry) :
    enterAllWith check [entry] = entry.enterWith check := by
  rw [enterAllWith_cons]
  exact bind_pure_unit

theorem enterAllWith_ofNode (id : DatasetId) (home : Option String) :
    enterAllWith check (ofNode id home) =
      (do Collection.mergeHome? id home; Collection.addKnown id) := by
  rw [ofNode, enterAllWith_append, enterAllWith_singleton]
  cases home with
  | none => rfl
  | some home =>
      rw [Option.toList_some, List.map_singleton, enterAllWith_singleton]
      rfl

theorem enterAllWith_ofLink_of_ne {direction : Direction} {child : Tree}
    (hmixed : child.direction ≠ direction) (parent : DatasetId) (classifier : String)
    (below : List Entry) :
    enterAllWith check (ofLink direction parent classifier child below) =
      throw (.mixedDirection child.id direction child.direction) := by
  rw [ofLink, enterAllWith_append, if_pos hmixed, enterAllWith_singleton]
  rfl

theorem enterAllWith_ofLink {direction : Direction} {child : Tree}
    (hsame : child.direction = direction) (parent : DatasetId) (classifier : String)
    (below : List Entry) :
    enterAllWith check (ofLink direction parent classifier child below) = (do
      Collection.mergeRelation ((direction.edge parent child.id).relation classifier)
      Collection.mergeDetail (direction.edge parent child.id) child
      enterAllWith check below) := by
  rw [ofLink, if_neg (not_not.2 hsame), List.nil_append, enterAllWith_cons,
    enterAllWith_append, Collection.mergeDetail_eq]
  by_cases hdetail : child.children.hasDetail = true
  · rw [if_pos hdetail, if_pos hdetail, enterAllWith_singleton]
    rfl
  · rw [if_neg hdetail, if_neg hdetail]
    rfl

end Entry

namespace Collection

mutual

/-- Merging a tree is carrying out its entries. -/
theorem mergeLevels_eq (levels : Levels) :
    ∀ tree, mergeLevels levels tree = Entry.enterAllWith .search (tree.entries levels)
  | .node direction id home (.populated groups) => by
      rw [mergeLevels, Tree.entries, Entry.enterAllWith_append, Entry.enterAllWith_ofNode,
        bind_assoc, mergeGroups_eq levels direction id groups]
  | .node direction id home .unknown => by
      rw [mergeLevels, Tree.entries, Entry.enterAllWith_append, Entry.enterAllWith_ofNode,
        bind_assoc, Entry.enterAllWith_singleton]
      rfl
      all_goals exact fun _ h => nomatch h
  | .node direction id home .empty => by
      rw [mergeLevels, Tree.entries, Entry.enterAllWith_append, Entry.enterAllWith_ofNode,
        bind_assoc, Entry.enterAllWith_singleton]
      rfl
      all_goals exact fun _ h => nomatch h

theorem mergeGroups_eq (levels : Levels) (direction : Direction) (parent : DatasetId) :
    ∀ groups, mergeGroups levels direction parent groups =
      Entry.enterAllWith .search (Tree.groupsEntries levels direction parent groups)
  | [] => rfl
  | (classifier, nodes) :: rest => by
      rw [mergeGroups, Tree.groupsEntries, Entry.enterAllWith_append,
        mergeNodes_eq levels direction parent classifier nodes,
        mergeGroups_eq levels direction parent rest]

theorem mergeNodes_eq (levels : Levels) (direction : Direction) (parent : DatasetId)
    (classifier : String) :
    ∀ nodes, mergeNodes levels direction parent classifier nodes =
      Entry.enterAllWith .search (Tree.listEntries levels direction parent classifier nodes)
  | [] => rfl
  | child :: rest => by
      have hchild := mergeLevels_eq levels.next child
      have hrest := mergeNodes_eq levels direction parent classifier rest
      rw [mergeNodes, Tree.listEntries, Entry.enterAllWith_append, hrest]
      by_cases hmixed : child.direction ≠ direction
      · rw [if_pos hmixed, Entry.enterAllWith_ofLink_of_ne hmixed]
        rfl
      · rw [if_neg hmixed, Entry.enterAllWith_ofLink (not_not.1 hmixed)]
        by_cases hlevels : levels ≠ some 1
        · rw [if_pos hlevels, if_pos hlevels, hchild]
          simp only [bind_assoc]
          rfl
        · rw [if_neg hlevels, if_neg hlevels, Entry.enterAllWith_nil]
          simp only [bind_assoc, pure_bind]
          rfl

end

end Collection

/-! ## Entries of a sound collection -/

/-- A check that lets a node pass if no cycle can be reached from it. -/
def LeafCheck.Passes (check : LeafCheck) : Prop :=
  ∀ direction id collection, Collection.ensureAcyclic collection direction id = .ok () →
    check direction id collection = .ok () collection

theorem LeafCheck.search_passes : LeafCheck.search.Passes := by
  intro direction id collection hfree
  exact Merging.check_eq_ok_iff.2 ⟨hfree, rfl⟩

namespace Entry

open Collection

variable {check : LeafCheck} {collection merged : Collection} {entries : List Entry}

theorem facts_cons (entry : Entry) (entries : List Entry) :
    facts (entry :: entries) = facts [entry] ++ facts entries := by
  cases entry <;> rfl

theorem facts_append (left right : List Entry) :
    facts (left ++ right) = facts left ++ facts right :=
  List.filterMap_append

/-- On a sound collection nothing depends on what a cycle at a node would lead to. -/
theorem enterAllWith_congr (hsound : Sound collection) {other : LeafCheck}
    (hcheck : check.Passes) (hother : other.Passes) (entries : List Entry) :
    enterAllWith check entries collection = enterAllWith other entries collection := by
  induction entries generalizing collection with
  | nil => rfl
  | cons entry rest ih =>
      have hfirst : entry.enterWith check collection = entry.enterWith other collection := by
        cases entry with
        | fact stated => rfl
        | leaf direction id =>
            have hfree := hsound.ensureAcyclic direction id
            exact (hcheck _ _ _ hfree).trans (hother _ _ _ hfree).symm
        | fault error => rfl
      rw [enterAllWith_cons, enterAllWith_cons]
      change EStateM.bind _ _ _ = EStateM.bind _ _ _
      rw [EStateM.bind, EStateM.bind, hfirst]
      cases hresult : entry.enterWith other collection with
      | error error middle => rfl
      | ok _ middle =>
          have hmiddle : Sound middle := by
            cases entry with
            | fact stated => exact (hsound.entered hresult).sound
            | leaf direction id =>
                rw [enterWith, hother _ _ _ (hsound.ensureAcyclic direction id)] at hresult
                cases hresult
                exact hsound
            | fault error => cases hresult
          exact ih hmiddle

/-- Entries can be carried out exactly if none is a fault and their facts can be
entered. -/
theorem enterAllWith_eq_ok_iff (hsound : Sound collection) (hcheck : check.Passes) :
    enterAllWith check entries collection = .ok () merged ↔
      (∀ error, .fault error ∉ entries) ∧
        enterAll (facts entries) collection = .ok () merged := by
  induction entries generalizing collection with
  | nil => simp [enterAllWith_nil, facts, enterAll]
  | cons entry rest ih =>
      rw [enterAllWith_cons, Merging.bind_eq_ok]
      cases entry with
      | fact stated =>
          rw [facts_cons]
          change _ ↔ _ ∧ enterAll (stated :: facts rest) collection = _
          rw [enterAll_cons, Merging.bind_eq_ok]
          constructor
          · intro ⟨middle, hfirst, hrest⟩
            obtain ⟨hfaults, hrest⟩ := (ih (hsound.entered hfirst).sound).1 hrest
            exact ⟨by simpa using hfaults, middle, hfirst, hrest⟩
          · intro ⟨hfaults, middle, hfirst, hrest⟩
            refine ⟨middle, hfirst, (ih (hsound.entered hfirst).sound).2 ⟨?_, hrest⟩⟩
            simpa using hfaults
      | leaf direction id =>
          have hpass := hcheck _ _ _ (hsound.ensureAcyclic direction id)
          rw [facts_cons]
          change _ ↔ _ ∧ enterAll (facts rest) collection = _
          constructor
          · intro ⟨middle, hfirst, hrest⟩
            rw [enterWith, hpass] at hfirst
            cases hfirst
            obtain ⟨hfaults, hrest⟩ := (ih hsound).1 hrest
            exact ⟨by simpa using hfaults, hrest⟩
          · intro ⟨hfaults, hrest⟩
            refine ⟨collection, hpass, (ih hsound).2 ⟨by simpa using hfaults, hrest⟩⟩
      | fault error =>
          constructor
          · intro ⟨middle, hfirst, _⟩
            cases hfirst
          · intro ⟨hfaults, _⟩
            exact absurd List.mem_cons_self (hfaults error)

end Entry

/-! ## Collections and snapshots -/

namespace Collection

def listing (collection : Collection) : List Fact :=
  collection.homes.entries.map (fun entry => .home entry.1 entry.2) ++
    (collection.relations.map .relation ++
      ((collection.details.entries.filter fun entry => entry.2.children.hasDetail).map
          (fun entry => .detail entry.1 entry.2) ++
        collection.datasetIds.map .known))

section Listing

variable {collection : Collection}

theorem home_mem_listing {id : DatasetId} {home : String} :
    .home id home ∈ Fact.contents collection.listing ↔ collection.home id = some home := by
  rw [Collection.home, OrderedMap.get?_eq_some_iff]
  simp [listing, Fact.contents_append, Fact.mem_contents_map, Fact.content]

theorem relation_mem_listing {relation : Relation} :
    .relation relation ∈ Fact.contents collection.listing ↔
      relation ∈ collection.relations := by
  simp [listing, Fact.contents_append, Fact.mem_contents_map, Fact.content]

theorem edgesAmong_listing (collection : Collection) :
    Fact.edgesAmong (Fact.contents collection.listing) = collection.edges := by
  ext edge
  simp only [Fact.mem_edgesAmong, relation_mem_listing, mem_edgesOf]

end Listing

theorem enterAll_append (left right : List Fact) :
    enterAll (left ++ right) = (do enterAll left; enterAll right) :=
  List.forM_append

theorem enterAll_map {α : Type} (fact : α → Fact) (values : List α) :
    enterAll (values.map fact) = values.forM fun value => enter (fact value) :=
  List.forM_map

theorem enterAll_details (entries : List (Edge × Tree)) :
    enterAll ((entries.filter fun entry => entry.2.children.hasDetail).map
        fun entry => .detail entry.1 entry.2) =
      entries.forM fun entry => mergeDetail entry.1 entry.2 := by
  induction entries with
  | nil => rfl
  | cons entry rest ih =>
      change _ = (do mergeDetail entry.1 entry.2; rest.forM _)
      rw [← ih, mergeDetail_eq]
      by_cases hdetail : entry.2.children.hasDetail = true
      · rw [if_pos hdetail, List.filter_cons, if_pos hdetail]
        rfl
      · rw [if_neg hdetail, List.filter_cons, if_neg hdetail]
        rfl

theorem enterAll_known (entries : List (DatasetId × Unit)) :
    enterAll ((entries.map (·.1)).map .known) =
      modify fun collection =>
        { collection with
          known := entries.foldl (fun map entry => map.insert entry.1 entry.2)
            collection.known } := by
  induction entries with
  | nil => rfl
  | cons entry rest ih =>
      rw [List.map_cons, List.map_cons, enterAll_cons, ih]
      rfl

theorem merge_eq (other : Collection) : merge other = enterAll other.listing := by
  rw [listing, enterAll_append, enterAll_append, enterAll_append, enterAll_map, enterAll_map,
    enterAll_details, datasetIds, OrderedMap.keys, enterAll_known]
  rfl

end Collection

def Snapshot.listing (snapshot : Snapshot) : List Fact :=
  snapshot.homes.entries.map (fun entry => .home entry.1 entry.2) ++
    snapshot.relations.map .relation

theorem Collection.ofSnapshot_eq (snapshot : Snapshot) :
    ofSnapshot snapshot = empty.afterMerging (enterAll snapshot.listing) := by
  rw [Snapshot.listing, enterAll_append, enterAll_map, enterAll_map]
  rfl

end DatasetLineage
