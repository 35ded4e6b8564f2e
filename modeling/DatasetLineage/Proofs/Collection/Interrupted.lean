import DatasetLineage.Graph.Basic
import DatasetLineage.Proofs.Collection.Acceptance
import DatasetLineage.Proofs.Collection.Kept

/-!
# Interrupted merges

A collection is kept as a failed merge leaves it, and merged into others in that state.  All
the same its list of relations, its indices and its known datasets agree, and it has no
detailed subtree without a relation: in every list of facts that a merge enters, the relation
of an edge comes before the subtree of the edge, so wherever the merge stops, the subtree has
not been registered or the relation has been recorded.
-/

namespace DatasetLineage

/-! ## Relations before their details -/

namespace Fact

/-- Every detailed subtree of a list is that of an edge which is recorded already, or whose
relation comes before it. -/
def Backed (recorded : Set Edge) : List Fact → Prop
  | [] => True
  | fact :: rest =>
      (∀ edge tree, fact = .detail edge tree → edge ∈ recorded) ∧
        Backed (recorded ∪ edgesAmong fact.content) rest

variable {recorded : Set Edge}

/-- Subtrees of recorded edges may come in any order. -/
theorem backed_of_recorded {facts : List Fact}
    (hrecorded : ∀ edge tree, .detail edge tree ∈ facts → edge ∈ recorded) :
    Backed recorded facts := by
  induction facts generalizing recorded with
  | nil => trivial
  | cons fact rest ih =>
      constructor
      · rintro edge tree rfl
        exact hrecorded edge tree List.mem_cons_self
      · apply ih
        intro edge tree hmem
        exact .inl (hrecorded edge tree (List.mem_cons_of_mem _ hmem))

theorem backed_append {left right : List Fact} :
    Backed recorded (left ++ right) ↔
      Backed recorded left ∧ Backed (recorded ∪ edgesAmong (contents left)) right := by
  induction left generalizing recorded with
  | nil =>
      have hnone : edgesAmong (contents []) = ∅ := by
        ext edge
        simp [mem_edgesAmong, contents_nil]
      rw [hnone, Set.union_empty, List.nil_append]
      exact (and_iff_right trivial).symm
  | cons fact rest ih =>
      rw [List.cons_append, Backed, ih, Backed, contents_cons, edgesAmong_union,
        Set.union_assoc, and_assoc]

theorem backed_flatMap {α : Type} {values : List α} {facts : α → List Fact}
    (hbacked : ∀ value ∈ values, ∀ recorded, Backed recorded (facts value)) :
    Backed recorded (values.flatMap facts) := by
  induction values generalizing recorded with
  | nil => trivial
  | cons value rest ih =>
      rw [List.flatMap_cons, backed_append]
      constructor
      · exact hbacked value List.mem_cons_self recorded
      · exact ih fun other hother => hbacked other (List.mem_cons_of_mem _ hother)

end Fact

theorem Entry.facts_flatMap {α : Type} (values : List α) (entries : α → List Entry) :
    facts (values.flatMap entries) = values.flatMap fun value => facts (entries value) :=
  List.filterMap_flatMap

/-- A child comes after the relation of the link that leads to it. -/
theorem Entry.backed_ofLink {direction : Direction} {parent : DatasetId} {link : String × Tree}
    {below : List Entry} (hbelow : ∀ recorded, Fact.Backed recorded (facts below))
    (recorded : Set Edge) :
    Fact.Backed recorded (facts (ofLink direction parent link.1 link.2 below)) := by
  let stated := (direction.edge parent link.2.id).relation link.1
  let detail : List Entry := if link.2.children.hasDetail then
    [.fact (.detail (direction.edge parent link.2.id) link.2)] else []
  have hfault : facts (if link.2.direction ≠ direction then
      [.fault (.mixedDirection link.2.id direction link.2.direction)] else []) = [] := by
    split <;> rfl
  have hfacts : facts (ofLink direction parent link.1 link.2 below) =
      [.relation stated] ++ (facts detail ++ facts below) := by
    rw [ofLink, facts_append, hfault, List.nil_append, facts_cons, facts_append]
    rfl
  have hdetail : ∀ edge tree, .detail edge tree ∈ facts detail → edge = stated.edge := by
    intro edge tree hmem
    simp only [detail, mem_facts] at hmem
    split at hmem <;> simp_all [stated]
  rw [hfacts, Fact.backed_append, Fact.backed_append]
  refine ⟨Fact.backed_of_recorded (by simp), Fact.backed_of_recorded ?_, hbelow _⟩
  intro edge tree hmem
  rw [hdetail edge tree hmem]
  exact .inr ⟨stated, Fact.contents_cons _ _ ▸ .inl (.inl rfl), rfl⟩

theorem Tree.backed_entries (tree : Tree) (levels : Levels) (recorded : Set Edge) :
    Fact.Backed recorded (Entry.facts (tree.entries levels)) := by
  induction tree using Tree.induction generalizing levels recorded with
  | node direction id home children ih =>
      have hnode : ∀ edge tree, .detail edge tree ∉ Entry.facts (Entry.ofNode id home) := by
        cases home <;> simp [Entry.facts, Entry.ofNode]
      have hleaf : Entry.facts (if children.hasDetail then []
          else [.leaf direction.opposite id]) = [] := by
        split <;> rfl
      rw [entries_eq, Entry.facts_append, Entry.facts_append, Fact.backed_append]
      refine ⟨Fact.backed_of_recorded fun edge tree hmem => absurd hmem (hnode edge tree), ?_⟩
      change Fact.Backed _ (_ ++ Entry.facts (if children.hasDetail then []
        else [.leaf direction.opposite id]))
      rw [hleaf, List.append_nil, Entry.facts_flatMap]
      apply Fact.backed_flatMap
      intro link hlink
      apply Entry.backed_ofLink
      intro recorded
      by_cases hlevels : levels ≠ some 1
      · rw [if_pos hlevels]
        exact ih link hlink levels.next recorded
      · rw [if_neg hlevels]
        trivial

namespace Collection

variable {collection after : Collection}

/-- The facts of a collection are merged relations first, so a subtree comes after the
relation of its edge if each of the subtrees belongs to a relation. -/
theorem backed_listing
    (hdetails : ∀ edge tree, collection.details.get? edge = some tree → edge ∈ collection.edges)
    (recorded : Set Edge) : Fact.Backed recorded collection.listing := by
  rw [listing, Fact.backed_append, Fact.backed_append]
  refine ⟨Fact.backed_of_recorded (by simp), Fact.backed_of_recorded (by simp), ?_⟩
  rw [Fact.backed_append]
  refine ⟨Fact.backed_of_recorded fun edge tree hmem => ?_, Fact.backed_of_recorded (by simp)⟩
  have hdetail : (edge, tree) ∈ collection.details.entries := by
    simp only [List.mem_map, List.mem_filter, Fact.detail.injEq] at hmem
    obtain ⟨entry, hentry, rfl, rfl⟩ := hmem
    exact hentry.1
  obtain ⟨stated, hstated, hedge⟩ := hdetails edge tree (OrderedMap.get?_eq_some_iff.2 hdetail)
  refine .inr ⟨stated, ?_, hedge⟩
  rw [Fact.mem_contents_map]
  exact ⟨stated, hstated, .inl rfl⟩

/-! ## What is left behind -/

/-- Indices in lockstep, and every detailed subtree that of a recorded edge. -/
structure Recorded (collection : Collection) : Prop extends Lockstep collection where
  details : ∀ edge tree, collection.details.get? edge = some tree → edge ∈ collection.edges

theorem recorded_empty : Recorded empty where
  toLockstep := lockstep_empty
  details := by
    intro edge tree hdetail
    cases hdetail

/-- A fact adds an edge if it is a relation, and drops none. -/
theorem Lockstep.edges_add (hlockstep : Lockstep collection) (fact : Fact) :
    (collection.add fact).edges = collection.edges ∪ Fact.edgesAmong fact.content := by
  cases fact with
  | home id home =>
      rw [Collection.add]
      split <;> simp [Fact.edgesAmong, Fact.content]
  | known id => simp [Collection.add, Fact.edgesAmong, Fact.content]
  | relation relation =>
      rw [Collection.add, edges_addRelation hlockstep, Set.union_comm, Set.insert_eq]
      congr 1
      ext edge
      simp [Fact.edgesAmong, Fact.content, eq_comm]
  | detail edge tree =>
      rw [Collection.add]
      split <;> simp [Fact.edgesAmong, Fact.content]

/-- A fact registers a subtree only if it is one. -/
theorem get?_details_add {fact : Fact} {edge : Edge} {tree : Tree}
    (hdetail : (collection.add fact).details.get? edge = some tree) :
    collection.details.get? edge = some tree ∨ fact = .detail edge tree := by
  cases fact with
  | home id home =>
      rw [add] at hdetail
      split at hdetail <;> exact .inl hdetail
  | known id => exact .inl hdetail
  | relation relation =>
      rw [add, addRelation] at hdetail
      split at hdetail <;> exact .inl hdetail
  | detail other value =>
      rw [add] at hdetail
      split at hdetail
      · exact .inl hdetail
      · rw [OrderedMap.get?_insert] at hdetail
        split at hdetail
        · next hrank =>
          rw [rank_eq_iff.1 hrank, Option.some.inj hdetail]
          exact .inr rfl
        · exact .inl hdetail

theorem Recorded.add (hrecorded : Recorded collection) {fact : Fact}
    (hbacked : ∀ edge tree, fact = .detail edge tree → edge ∈ collection.edges) :
    Recorded (collection.add fact) where
  toLockstep := hrecorded.toLockstep.add fact
  details := by
    intro edge tree hdetail
    rw [hrecorded.toLockstep.edges_add]
    rcases get?_details_add hdetail with hold | hnew
    · exact .inl (hrecorded.details edge tree hold)
    · exact .inl (hbacked edge tree hnew)

/-- Carrying out entries in which relations come before their details, up to the first that
fails. -/
theorem Recorded.leaves_entries {entries : List Entry} (hrecorded : Recorded collection)
    (hbacked : Fact.Backed collection.edges (Entry.facts entries)) :
    Recorded (leaves (Entry.enterAllWith .search entries) collection) := by
  induction entries generalizing collection with
  | nil => exact hrecorded
  | cons entry rest ih =>
      rw [Entry.enterAllWith_cons]
      cases entry with
      | fact stated =>
          have hadded := hrecorded.add hbacked.1
          apply leaves_bind (leaves_enter hrecorded hadded)
          intro _ after hresult
          have hafter : after = collection.add stated := by
            rcases enter_cases stated collection with hok | ⟨error, stopped, hfailed, _⟩
            · exact (EStateM.Result.ok.inj (hresult.symm.trans hok)).2
            · cases hresult.symm.trans hfailed
          rw [hafter]
          apply ih hadded
          rw [hrecorded.toLockstep.edges_add]
          exact hbacked.2
      | leaf direction id =>
          apply leaves_bind (Merging.keeps_check _ collection hrecorded)
          intro _ after hresult
          rw [(Merging.check_eq_ok_iff.1 hresult).2]
          exact ih hrecorded hbacked
      | fault error => exact hrecorded

theorem Recorded.leaves_facts {facts : List Fact} (hrecorded : Recorded collection)
    (hbacked : Fact.Backed collection.edges facts) :
    Recorded (leaves (enterAll facts) collection) := by
  have hentries : Entry.enterAllWith .search (facts.map .fact) = enterAll facts :=
    List.forM_map
  have hfacts : Entry.facts (facts.map .fact) = facts := by
    simp [Entry.facts, List.filterMap_map]
  rw [← hentries]
  apply hrecorded.leaves_entries
  rw [hfacts]
  exact hbacked

/-- Every merge keeps subtrees with their relations, also one that fails, if what is merged
does so itself. -/
theorem Recorded.leaves_perform (hrecorded : Recorded collection) {change : Change}
    (hsupplied : ∀ other, change = .collection other → Recorded other) :
    Recorded (leaves change.perform collection) := by
  cases change with
  | home id home =>
      cases home with
      | none => exact hrecorded
      | some home =>
          change Recorded (leaves (enter (.home id home)) collection)
          apply leaves_enter hrecorded
          exact hrecorded.add fun edge tree hdetail => nomatch hdetail
  | relation relation =>
      change Recorded (leaves (enter (.relation relation)) collection)
      apply leaves_enter hrecorded
      exact hrecorded.add fun edge tree hdetail => nomatch hdetail
  | tree tree bound =>
      rw [Change.perform, mergeTree_eq, mergeTreeWith]
      apply leaves_bind (Merging.keeps_check _ collection hrecorded)
      intro _ after hresult
      rw [(Merging.check_eq_ok_iff.1 hresult).2]
      exact hrecorded.leaves_entries (tree.backed_entries _ _)
  | collection other =>
      rw [Change.perform, merge_eq]
      exact hrecorded.leaves_facts (backed_listing (hsupplied other rfl).details _)

/-! ## Calls whose failures are kept -/

/-- The collections that calls of merges lead to from nothing, if the half-done collection is
kept whenever a call fails.  What is merged into a collection is another one of them. -/
inductive Accumulated : Collection → Prop
  | empty : Accumulated empty
  | change {collection : Collection} (change : Change)
      (hsupplied : ∀ other, change = .collection other → Accumulated other) :
      Accumulated collection → Accumulated (leaves change.perform collection)

theorem Accumulated.recorded (haccumulated : Accumulated collection) : Recorded collection := by
  induction haccumulated with
  | empty => exact recorded_empty
  | change change _ _ hothers ih => exact ih.leaves_perform hothers

/-- A collection with one more relation, at the end of its list and in every index, and with
nothing else. -/
structure Appended (collection : Collection) (relation : Relation) (after : Collection) :
    Prop where
  relations : after.relations = collection.relations ++ [relation]
  classifiers : ∀ edge, after.classifier edge =
    if relation.edge = edge then some relation.classifier else collection.classifier edge
  neighbours : ∀ direction id, after.neighbours direction id =
    collection.neighbours direction id ++ (relation.neighbour? direction id).toList
  known : ∀ id, after.contains id = true ↔
    collection.contains id = true ∨ id = relation.source ∨ id = relation.derived
  homes : after.homes = collection.homes
  details : after.details = collection.details

theorem appended_insertRelation (collection : Collection) (relation : Relation) :
    Appended collection relation (collection.insertRelation relation) where
  relations := relations_insertRelation collection relation
  classifiers := classifier_insertRelation collection relation
  neighbours := neighbours_insertRelation collection relation
  known := fun _ => contains_insertRelation
  homes := rfl
  details := rfl

theorem eq_of_mergeHome?_error {id : DatasetId} {home : Option String} {error : LineageError}
    (hresult : mergeHome? id home collection = .error error after) : after = collection := by
  cases home with
  | none => cases hresult
  | some home =>
      rw [mergeHome?, mergeHome] at hresult
      cases hrecorded : collection.homes.get? id with
      | none =>
          simp only [hrecorded] at hresult
          cases hresult
      | some existing =>
          by_cases hsame : existing = home
          · simp only [hrecorded, if_pos hsame] at hresult
            cases hresult
          · simp only [hrecorded, if_neg hsame] at hresult
            cases hresult
            rfl

/-- A relation that is refused leaves nothing behind if it joins a dataset to itself or
contradicts a recorded classifier.  Otherwise its edge is new and closes a cycle, and the
relation stays. -/
theorem Lockstep.left_of_mergeRelation_error (hlockstep : Lockstep collection)
    {relation : Relation} {error : LineageError}
    (hresult : mergeRelation relation collection = .error error after) :
    Refused collection relation error ∧ after = collection ∨
      (relation.source ≠ relation.derived ∧ relation.edge ∉ collection.edges ∧
        ∃ id, error = .cyclicGraph id) ∧ Appended collection relation after := by
  rcases mergeRelation_error_cases hresult with hrefused | ⟨hends, hnone, rfl, hsearch⟩
  · exact .inl hrefused
  · have hfresh := hlockstep.classifier_eq_none.1 hnone
    obtain ⟨direction, root, hsearch⟩ := hsearch
    obtain ⟨id, hid, _⟩ :=
      cycle_of_ensureAcyclic_error (hlockstep.insertRelation hfresh) hsearch
    exact .inr ⟨⟨hends, hfresh, id, hid⟩, appended_insertRelation collection relation⟩

/-- Whatever is merged, and wherever a merge stops, a collection lists every edge once, its
indices, its known datasets and the nodes of its graph agree with the list, and a detailed
subtree belongs to one of its edges.  A home that is refused changes nothing, and a relation
that is refused changes nothing or is the only thing added. -/
theorem Accumulated.indices_agree (haccumulated : Accumulated collection) :
    (collection.relations.map Relation.edge).Nodup ∧
      (∀ edge classifier, collection.classifier edge = some classifier ↔
        edge.relation classifier ∈ collection.relations) ∧
      (∀ direction id, collection.neighbours direction id =
        collection.relations.filterMap (Relation.neighbour? direction id)) ∧
      (∀ relation ∈ collection.relations, collection.contains relation.source = true ∧
        collection.contains relation.derived = true) ∧
      (∀ relation ∈ (Graph.ofCollection collection).edges,
        relation.source ∈ (Graph.ofCollection collection).nodes ∧
          relation.derived ∈ (Graph.ofCollection collection).nodes) ∧
      (∀ edge tree, collection.details.get? edge = some tree → edge ∈ collection.edges) ∧
      (∀ id home error after, mergeHome? id home collection = .error error after →
        after = collection) ∧
      ∀ relation error after, mergeRelation relation collection = .error error after →
        Refused collection relation error ∧ after = collection ∨
          (relation.source ≠ relation.derived ∧ relation.edge ∉ collection.edges ∧
            ∃ id, error = .cyclicGraph id) ∧ Appended collection relation after := by
  have hrecorded := haccumulated.recorded
  have hnodes : ∀ id, collection.contains id = true →
      id ∈ (Graph.ofCollection collection).nodes :=
    fun id hknown => OrderedMap.contains_iff_mem_keys.1 hknown
  refine ⟨hrecorded.distinct, hrecorded.classifiers, hrecorded.neighbours, hrecorded.known, ?_,
    hrecorded.details, ?_, ?_⟩
  · intro relation hmem
    obtain ⟨hsource, hderived⟩ := hrecorded.known relation hmem
    exact ⟨hnodes _ hsource, hnodes _ hderived⟩
  · intro id home error after hresult
    exact eq_of_mergeHome?_error hresult
  · intro relation error after hresult
    exact hrecorded.toLockstep.left_of_mergeRelation_error hresult

/-- A relation back to where the lineage starts is refused, and stays in the list and in the
neighbours on both sides. -/
theorem indices_agree_of_backward_edge :
    ∃ collection after error, Accumulated collection ∧
      collection.relations = [⟨"nbar", .numbered 1, .numbered 2⟩] ∧
      mergeRelation ⟨"bias", .numbered 2, .numbered 1⟩ collection = .error error after ∧
      Accumulated after ∧
      after.relations =
        [⟨"nbar", .numbered 1, .numbered 2⟩, ⟨"bias", .numbered 2, .numbered 1⟩] ∧
      after.neighbours .derived (.numbered 2) = [⟨.numbered 1, "bias"⟩] := by
  let first : Relation := ⟨"nbar", .numbered 1, .numbered 2⟩
  let back : Relation := ⟨"bias", .numbered 2, .numbered 1⟩
  have hfirst : Accumulated (empty.insertRelation first) :=
    .change (.relation first) (fun _ h => nomatch h) .empty
  have hopen : back.source ≠ back.derived := by decide
  have hnone : (empty.insertRelation first).classifier back.edge = none := by
    rw [classifier_insertRelation, if_neg (by decide)]
    rfl
  have hcycle : ¬ Acyclic (insert back.edge (empty.insertRelation first).edges) := by
    intro hacyclic
    refine hacyclic (.numbered 1) (.tail (.single (b := .numbered 2) ?_) ?_)
    · exact .inr ⟨first, List.mem_cons_self, rfl⟩
    · exact .inl rfl
  have hsound : Sound (empty.insertRelation first) :=
    (Built.change (.relation first) .empty rfl).sound
  cases hresult : mergeRelation back (empty.insertRelation first) with
  | ok _ after => exact absurd (hsound.mergeRelation_eq_ok_iff.1 hresult).1.2 hcycle
  | error error after =>
      obtain ⟨_, _, _, _, _, _, _, hrefused⟩ := hfirst.indices_agree
      have hafter : Accumulated after := by
        have hleft :
            leaves (Change.relation back).perform (empty.insertRelation first) = after := by
          rw [leaves, Change.perform, hresult]
        rw [← hleft]
        exact .change (.relation back) (fun _ h => nomatch h) hfirst
      rcases hrefused back error after hresult with ⟨hunchanged, _⟩ | ⟨_, happended⟩
      · cases hunchanged with
        | loop hends => exact absurd hends hopen
        | reclassified hrecorded _ => cases hrecorded.symm.trans hnone
      · obtain ⟨_, _, hneighbours, _⟩ := hafter.indices_agree
        refine ⟨_, after, error, hfirst, rfl, hresult, hafter, happended.relations, ?_⟩
        rw [hneighbours, happended.relations]
        rfl

end Collection

end DatasetLineage
