import DatasetLineage.Proofs.Collection.Interrupted
import DatasetLineage.Proofs.Collection.Unfolding

/-!
# Two explorations

The search for cycles leaves a dataset behind for good once everything below it was walked.
Extraction goes down every path anew, and knows of each path only what lies on it.  Still both
end the same way from any dataset of a collection with indices in lockstep, be it cyclic or
not: what the search has left behind has no cycle below it and leads to no dataset on the path,
so going through it again meets nothing that would stop an extraction.

Both are recursions over the path.  A path repeats no dataset, and all but its first are known,
so they come to an end whatever the edges are.
-/

namespace DatasetLineage

namespace Collection

variable {collection : Collection} {direction : Direction}

/-! ## Recursions over the path -/

/-- A search of the datasets below `id` that keeps the path to it and what is finished, and ends
with a result.  It is made of the searches of its neighbours, which come to an end themselves. -/
inductive Searches (collection : Collection) (direction : Direction) :
    List DatasetId → IdSet → DatasetId → Except LineageError IdSet → Prop
  | finished {path : List DatasetId} {finished : IdSet} {id : DatasetId} :
      finished.contains id = true → Searches collection direction path finished id (.ok finished)
  | repeated {path : List DatasetId} {finished : IdSet} {id : DatasetId} :
      finished.contains id = false → id ∈ path →
        Searches collection direction path finished id (.error (.cyclicGraph id))
  | descended {path : List DatasetId} {finished : IdSet} {id : DatasetId}
      (search : IdSet → Neighbour → Except LineageError IdSet) :
      finished.contains id = false → id ∉ path →
        (∀ next ∈ collection.neighbours direction id, ∀ finished,
          Searches collection direction (id :: path) finished next.id (search finished next)) →
        Searches collection direction path finished id
          (((collection.neighbours direction id).foldlM search finished).map (IdSet.add · id))

def groupNext (extract : Neighbour → Except LineageError Tree) (groups : List (String × List Tree))
    (next : Neighbour) : Except LineageError (List (String × List Tree)) := do
  let below ← extract next
  pure (addToGroup next.classifier below groups)

/-- An extraction of the tree below `id` that keeps the path to it, and ends with a result. -/
inductive Extracts (collection : Collection) (direction : Direction) :
    List DatasetId → DatasetId → Except LineageError Tree → Prop
  | repeated {path : List DatasetId} {id : DatasetId} :
      id ∈ path → Extracts collection direction path id (.error (.cyclicGraph id))
  | descended {path : List DatasetId} {id : DatasetId}
      (extract : Neighbour → Except LineageError Tree) :
      id ∉ path →
        (∀ next ∈ collection.neighbours direction id,
          Extracts collection direction (id :: path) next.id (extract next)) →
        Extracts collection direction path id
          (((collection.neighbours direction id).foldlM (groupNext extract) []).map fun groups =>
            .node direction id (collection.home id) (.ofGroups groups))

/-- The ids that may be entered are those that are not on the path. -/
def OffPath (collection : Collection) (root : DatasetId) (path enterable : List DatasetId) :
    Prop :=
  ∀ id ∈ collection.enterable root, id ∈ enterable ↔ id ∉ path

theorem offPath_start (collection : Collection) (root : DatasetId) :
    collection.OffPath root [] (collection.enterable root) := by
  intro id hid
  simp [hid]

theorem OffPath.cons {root id : DatasetId} {path enterable : List DatasetId}
    (hoff : collection.OffPath root path enterable) :
    collection.OffPath root (id :: path) (without enterable id) := by
  intro other hother
  rw [mem_without, hoff other hother, List.mem_cons, not_or, and_comm]

theorem Lockstep.mem_enterable_of_neighbour (hlockstep : Lockstep collection)
    {root id : DatasetId} {next : Neighbour} (hnext : next ∈ collection.neighbours direction id) :
    next.id ∈ collection.enterable root := by
  have hstep : Leads collection.edges direction id next.id :=
    hlockstep.leads_iff.2 ⟨next, hnext, rfl⟩
  exact mem_enterable_of_contains (hlockstep.contains_of_leads direction hstep).2

/-! ## One dataset of either exploration -/

section Step

variable {enterable : List DatasetId} {finished : IdSet} {id : DatasetId}

theorem walkAcyclic_of_enterable (hfresh : finished.contains id ≠ true) (henter : id ∈ enterable) :
    walkAcyclic collection direction enterable finished id =
      ((collection.neighbours direction id).foldlM
        (fun finished next =>
          walkAcyclic collection direction (without enterable id) finished next.id)
        finished).map (IdSet.add · id) := by
  rw [walkAcyclic, if_neg hfresh, if_pos henter]
  split
  · next hfold => rw [hfold, Except.map]
  · next hfold => rw [hfold, Except.map]

theorem walkAcyclic_of_not_enterable (hfresh : finished.contains id ≠ true)
    (hblocked : id ∉ enterable) :
    walkAcyclic collection direction enterable finished id = .error (.cyclicGraph id) := by
  rw [walkAcyclic, if_neg hfresh, if_neg hblocked]

theorem extractFrom_of_enterable (henter : id ∈ enterable) :
    collection.extractFrom direction enterable none id =
      ((collection.neighbours direction id).foldlM
        (groupNext fun next =>
          collection.extractFrom direction (without enterable id) none next.id) []).map
        fun groups => Tree.node direction id (collection.home id) (.ofGroups groups) := by
  let node := fun groups => Tree.node direction id (collection.home id) (.ofGroups groups)
  rw [extractFrom, if_pos henter]
  simp only [reduceCtorEq, false_and, if_false]
  split
  · next hfold => exact (congrArg (Except.map node) hfold).symm
  · next hfold => exact (congrArg (Except.map node) hfold).symm

theorem extractFrom_of_not_enterable (hblocked : id ∉ enterable) :
    collection.extractFrom direction enterable none id = .error (.cyclicGraph id) := by
  rw [extractFrom, if_neg hblocked]

end Step

/-! ## Both come to an end -/

section Ending

variable {root id : DatasetId} {path enterable : List DatasetId}

/-- The walk is the search over the path, as it meets no dataset that is not known. -/
theorem Lockstep.searches_walkAcyclic (hlockstep : Lockstep collection)
    (hoff : collection.OffPath root path enterable) (hid : id ∈ collection.enterable root)
    (finished : IdSet) :
    Searches collection direction path finished id
      (walkAcyclic collection direction enterable finished id) := by
  induction hlength : enterable.length using Nat.strong_induction_on
    generalizing path enterable id finished with
  | _ length ih =>
  by_cases hfinished : finished.contains id = true
  · rw [walkAcyclic, if_pos hfinished]
    exact .finished hfinished
  have hfresh : finished.contains id = false := Bool.not_eq_true _ ▸ hfinished
  by_cases henter : id ∈ enterable
  · have hshorter : (without enterable id).length < length := hlength ▸ length_without_lt henter
    rw [walkAcyclic_of_enterable hfinished henter]
    refine .descended _ hfresh ((hoff id hid).1 henter) ?_
    intro next hnext finished
    exact ih _ hshorter hoff.cons (hlockstep.mem_enterable_of_neighbour hnext) finished rfl
  · rw [walkAcyclic_of_not_enterable hfinished henter]
    exact .repeated hfresh (not_not.1 fun hpath => henter ((hoff id hid).2 hpath))

theorem Lockstep.extracts_extractFrom (hlockstep : Lockstep collection)
    (hoff : collection.OffPath root path enterable) (hid : id ∈ collection.enterable root) :
    Extracts collection direction path id
      (collection.extractFrom direction enterable none id) := by
  induction hlength : enterable.length using Nat.strong_induction_on
    generalizing path enterable id with
  | _ length ih =>
  by_cases henter : id ∈ enterable
  · have hshorter : (without enterable id).length < length := hlength ▸ length_without_lt henter
    rw [extractFrom_of_enterable henter]
    refine .descended _ ((hoff id hid).1 henter) ?_
    intro next hnext
    exact ih _ hshorter hoff.cons (hlockstep.mem_enterable_of_neighbour hnext) rfl
  · rw [extractFrom_of_not_enterable henter]
    exact .repeated (not_not.1 fun hpath => henter ((hoff id hid).2 hpath))

end Ending

/-! ## Both end in the same way -/

section Agreement

variable {enterable : List DatasetId} {finished : IdSet} {id : DatasetId}

/-- What leads to no cycle and to no dataset on the path has a tree. -/
theorem Lockstep.extractFrom_succeeds (hlockstep : Lockstep collection)
    (henterable : collection.Enterable direction enterable id)
    (hfree : ∀ target, Reaches collection.edges direction id target →
      ¬ Below collection.edges direction target target) :
    ∃ tree, collection.extractFrom direction enterable none id = .ok tree := by
  induction hlength : enterable.length using Nat.strong_induction_on
    generalizing enterable id with
  | _ length ih =>
  have henter : id ∈ enterable := henterable id .refl
  have hbelow : ∀ child, Leads collection.edges direction id child →
      ∃ tree, collection.extractFrom direction (without enterable id) none child = .ok tree := by
    intro child hstep
    refine ih _ (hlength ▸ length_without_lt henter) ?_ ?_ rfl
    · intro target hpath
      refine mem_without.2 ⟨henterable target (.head hstep hpath), ?_⟩
      rintro rfl
      exact hfree _ .refl (.head' hstep hpath)
    · intro target hpath
      exact hfree target (.head hstep hpath)
  choose! tree htree using hbelow
  have hfollowed : ∀ next ∈ collection.neighbours direction id,
      collection.extractFrom direction (without enterable id) none next.id =
        .ok (tree next.id) :=
    fun next hnext => htree next.id (hlockstep.leads_iff.2 ⟨next, hnext, rfl⟩)
  exact ⟨_, extractFrom_eq henter hfollowed⟩

/-- What a search has finished is settled, and none of it is on the path. -/
structure Searching (collection : Collection) (direction : Direction) (enterable : List DatasetId)
    (finished : IdSet) : Prop where
  settled : Settled collection direction finished
  off : ∀ id, finished.contains id = true → id ∈ enterable

theorem searching_start (collection : Collection) (direction : Direction)
    (enterable : List DatasetId) :
    Searching collection direction enterable OrderedMap.empty :=
  ⟨settled_empty, fun _ hid => nomatch hid⟩

theorem Searching.enter (hsearching : Searching collection direction enterable finished)
    (hfresh : finished.contains id ≠ true) :
    Searching collection direction (without enterable id) finished where
  settled := hsearching.settled
  off := by
    intro other hother
    refine mem_without.2 ⟨hsearching.off other hother, ?_⟩
    rintro rfl
    exact hfresh hother

theorem Searching.walked (hsearching : Searching collection direction enterable finished)
    {after : IdSet} (hwalked : Walked collection direction enterable finished after) :
    Searching collection direction enterable after where
  settled := hwalked.settled
  off := fun other hother => (hwalked.within other hother).elim (hsearching.off other) fun h => h

/-- Going again through what is finished meets neither a cycle nor the path. -/
theorem Searching.extractFrom_succeeds (hlockstep : Lockstep collection)
    (hsearching : Searching collection direction enterable finished)
    (hfinished : finished.contains id = true) :
    ∃ tree, collection.extractFrom direction enterable none id = .ok tree := by
  have hinside : ∀ target, Reaches collection.edges direction id target →
      finished.contains target = true :=
    fun _ hpath => hsearching.settled.contains_of_reaches hfinished hpath
  apply hlockstep.extractFrom_succeeds
  · exact fun target hpath => hsearching.off target (hinside target hpath)
  · exact fun target hpath => hsearching.settled.acyclic target (hinside target hpath)

theorem discard_groupNext (extract : Neighbour → Except LineageError Tree)
    (groups : List (String × List Tree)) (next : Neighbour) :
    discard (groupNext extract groups next) = discard (extract next) := by
  rw [groupNext]
  cases extract next <;> rfl

/-- Wherever a search stands, it goes on as an extraction does: both go through, or both fail
at the same dataset. -/
theorem Lockstep.discard_walkAcyclic_eq (hlockstep : Lockstep collection)
    (hsearching : Searching collection direction enterable finished) :
    discard (walkAcyclic collection direction enterable finished id) =
      discard (collection.extractFrom direction enterable none id) := by
  induction hlength : enterable.length using Nat.strong_induction_on
    generalizing enterable id finished with
  | _ length ih =>
  by_cases hfinished : finished.contains id = true
  · obtain ⟨tree, htree⟩ := hsearching.extractFrom_succeeds hlockstep hfinished
    rw [walkAcyclic, if_pos hfinished, htree]
    rfl
  by_cases henter : id ∈ enterable
  · have hshorter : (without enterable id).length < length := hlength ▸ length_without_lt henter
    rw [walkAcyclic_of_enterable hfinished henter, extractFrom_of_enterable henter,
      discard_map, discard_map]
    have hsame : ∀ next ∈ collection.neighbours direction id, ∀ before groups,
        Searching collection direction (without enterable id) before →
          discard (walkAcyclic collection direction (without enterable id) before next.id) =
            discard (groupNext (fun next => collection.extractFrom direction
              (without enterable id) none next.id) groups next) := by
      intro next _ before groups hbefore
      rw [discard_groupNext]
      exact ih _ hshorter hbefore rfl
    refine discard_foldlM_eq hsame ?_ (hsearching.enter hfinished) []
    intro next _ before after hbefore hresult
    exact hbefore.walked (walked_of_walkAcyclic hlockstep _ _ hbefore.settled hresult).1
  · rw [walkAcyclic_of_not_enterable hfinished henter, extractFrom_of_not_enterable henter]
    rfl

end Agreement

/-- Whatever merges have left behind, cyclic or not, both explorations come to an end from any
dataset and in any direction.  They go through exactly if no cycle can be reached, and fail
naming one dataset of a cycle that can, the same for both. -/
theorem Accumulated.ensureAcyclic_agrees_with_extractTree
    (haccumulated : Accumulated collection) (root : DatasetId) (direction : Direction) :
    (∃ result, Searches collection direction [] OrderedMap.empty root result ∧
        collection.ensureAcyclic direction root = discard result) ∧
      Extracts collection direction [] root (collection.extractTree root direction) ∧
      (collection.ensureAcyclic direction root = .ok () ↔
        ∃ tree, collection.extractTree root direction = .ok tree) ∧
      (collection.ensureAcyclic direction root = .ok () ↔
        ∀ target, Reaches collection.edges direction root target →
          ¬ Below collection.edges direction target target) ∧
      ∀ error,
        (collection.ensureAcyclic direction root = .error error ↔
          collection.extractTree root direction = .error error) ∧
        (collection.ensureAcyclic direction root = .error error →
          ∃ target, error = .cyclicGraph target ∧
            Reaches collection.edges direction root target ∧
              Below collection.edges direction target target) := by
  have hlockstep := haccumulated.recorded.toLockstep
  have hoff := collection.offPath_start root
  have hroot : root ∈ collection.enterable root := List.mem_cons_self
  have hsame : collection.ensureAcyclic direction root =
      discard (collection.extractTree root direction) :=
    hlockstep.discard_walkAcyclic_eq (searching_start collection direction _)
  refine ⟨⟨_, hlockstep.searches_walkAcyclic hoff hroot _, rfl⟩,
    hlockstep.extracts_extractFrom hoff hroot, ?_, ensureAcyclic_eq_ok_iff hlockstep, ?_⟩
  · rw [hsame, discard_eq_ok]
  · intro error
    refine ⟨?_, cycle_of_ensureAcyclic_error hlockstep⟩
    rw [hsame, discard_eq_error]

/-- An edge between two datasets that have none yet is recorded, even if the merge then fails. -/
theorem Accumulated.insertRelation (haccumulated : Accumulated collection) {relation : Relation}
    (hends : relation.source ≠ relation.derived)
    (hfresh : collection.classifier relation.edge = none) :
    Accumulated (collection.insertRelation relation) := by
  rw [← leaves_relation_of_fresh hends hfresh]
  exact haccumulated.change (.relation relation) fun _ h => nomatch h

/-- Two datasets derived from each other: both explorations fail, at the same dataset. -/
theorem ensureAcyclic_agrees_with_extractTree_of_backward_edge :
    ∃ collection target, Accumulated collection ∧
      collection.relations =
        [⟨"nbar", .numbered 1, .numbered 2⟩, ⟨"bias", .numbered 2, .numbered 1⟩] ∧
      collection.ensureAcyclic .derived (.numbered 1) = .error (.cyclicGraph target) ∧
      collection.extractTree (.numbered 1) .derived = .error (.cyclicGraph target) := by
  let first : Relation := ⟨"nbar", .numbered 1, .numbered 2⟩
  let back : Relation := ⟨"bias", .numbered 2, .numbered 1⟩
  have hfirst : Accumulated (empty.insertRelation first) :=
    Accumulated.empty.insertRelation (by decide) rfl
  have hboth : Accumulated ((empty.insertRelation first).insertRelation back) := by
    apply hfirst.insertRelation (by decide)
    rw [classifier_insertRelation, if_neg (by decide)]
    rfl
  obtain ⟨_, _, _, hacyclic, hfailed⟩ :=
    hboth.ensureAcyclic_agrees_with_extractTree (.numbered 1) .derived
  have hforth : Leads ((empty.insertRelation first).insertRelation back).edges .derived
      (.numbered 1) (.numbered 2) := ⟨first, List.mem_cons_self, rfl⟩
  have hreturn : Leads ((empty.insertRelation first).insertRelation back).edges .derived
      (.numbered 2) (.numbered 1) := ⟨back, List.mem_cons_of_mem _ List.mem_cons_self, rfl⟩
  cases hresult : ((empty.insertRelation first).insertRelation back).ensureAcyclic .derived
      (.numbered 1) with
  | ok _ => exact absurd (.tail (.single hforth) hreturn) (hacyclic.1 hresult _ .refl)
  | error error =>
      obtain ⟨target, rfl, _⟩ := (hfailed error).2 hresult
      exact ⟨_, target, hboth, rfl, hresult, (hfailed _).1.1 hresult⟩

end Collection

end DatasetLineage
