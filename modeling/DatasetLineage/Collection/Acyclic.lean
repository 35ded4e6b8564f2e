import DatasetLineage.Collection.Basic

/-!
# Looking for cycles

A depth-first walk from one dataset in one direction.  A dataset that was left
behind is never walked again, so the walk is linear in the lineage it meets, and
it fails at the first dataset met twice on one path.

The walk keeps the ids that may still be entered, which are those not on the
current path.  They become fewer with every step down, so the walk ends.
-/

namespace DatasetLineage

def without (ids : List DatasetId) (id : DatasetId) : List DatasetId :=
  ids.filter (· ≠ id)

theorem length_without_lt {ids : List DatasetId} {id : DatasetId} (hmem : id ∈ ids) :
    (without ids id).length < ids.length :=
  List.length_filter_lt_length_iff_exists.2 ⟨id, hmem, by simp⟩

theorem mem_without {ids : List DatasetId} {id other : DatasetId} :
    other ∈ without ids id ↔ other ∈ ids ∧ other ≠ id := by
  simp [without]

/-- Take the candidates that were not seen yet, each once and in order, and
return what is still unseen afterwards. -/
def claim : (candidates unseen : List DatasetId) → List DatasetId × List DatasetId
  | [], unseen => ([], unseen)
  | candidate :: rest, unseen =>
      if candidate ∈ unseen then
        let (found, unseen) := claim rest (without unseen candidate)
        (candidate :: found, unseen)
      else claim rest unseen

/-- Whatever is claimed is not left unseen. -/
theorem length_claim_add_le (candidates unseen : List DatasetId) :
    (claim candidates unseen).1.length + (claim candidates unseen).2.length ≤ unseen.length := by
  induction candidates generalizing unseen with
  | nil => exact Nat.le_of_eq (Nat.zero_add _)
  | cons candidate rest ih =>
      rw [claim]
      split
      · have hrest := ih (without unseen candidate)
        have hremaining := length_without_lt ‹candidate ∈ unseen›
        simp only [List.length_cons]
        omega
      · exact ih unseen

theorem length_claim_lt {candidates unseen : List DatasetId}
    (hfound : (claim candidates unseen).1 ≠ []) :
    (claim candidates unseen).2.length < unseen.length := by
  have hpositive := List.length_pos_iff.2 hfound
  have hclaimed := length_claim_add_le candidates unseen
  omega

/-- Candidates can be claimed in two parts, one after the other. -/
theorem claim_append (first second unseen : List DatasetId) :
    claim (first ++ second) unseen =
      ((claim first unseen).1 ++ (claim second (claim first unseen).2).1,
        (claim second (claim first unseen).2).2) := by
  induction first generalizing unseen with
  | nil => rfl
  | cons candidate rest ih =>
      rw [List.cons_append, claim, claim]
      split
      · rw [ih]
        rfl
      · exact ih unseen

theorem mem_claim {candidates unseen : List DatasetId} {id : DatasetId} :
    (id ∈ (claim candidates unseen).1 ↔ id ∈ candidates ∧ id ∈ unseen) ∧
      (id ∈ (claim candidates unseen).2 ↔ id ∈ unseen ∧ id ∉ candidates) := by
  induction candidates generalizing unseen with
  | nil => simp [claim]
  | cons candidate rest ih =>
      rw [claim]
      by_cases hunseen : candidate ∈ unseen
      · rw [if_pos hunseen]
        simp only [List.mem_cons, ih, mem_without]
        by_cases heq : id = candidate
        · simp [heq, hunseen]
        · simp [heq]
      · rw [if_neg hunseen]
        simp only [List.mem_cons, ih]
        by_cases heq : id = candidate
        · simp [heq, hunseen]
        · simp [heq]

theorem mem_claimed {candidates unseen : List DatasetId} {id : DatasetId} :
    id ∈ (claim candidates unseen).1 ↔ id ∈ candidates ∧ id ∈ unseen :=
  mem_claim.1

theorem mem_left_unseen {candidates unseen : List DatasetId} {id : DatasetId} :
    id ∈ (claim candidates unseen).2 ↔ id ∈ unseen ∧ id ∉ candidates :=
  mem_claim.2

/-- Nothing is claimed twice. -/
theorem nodup_claimed (candidates unseen : List DatasetId) : (claim candidates unseen).1.Nodup := by
  induction candidates generalizing unseen with
  | nil => exact List.nodup_nil
  | cons candidate rest ih =>
      rw [claim]
      split
      · refine List.nodup_cons.2 ⟨fun hagain => ?_, ih _⟩
        exact (mem_without.1 (mem_claimed.1 hagain).2).2 rfl
      · exact ih unseen

namespace Collection

/-- The ids a walk from `root` may enter: the root and every known dataset. -/
def enterable (collection : Collection) (root : DatasetId) : List DatasetId :=
  root :: collection.datasetIds

/-- Walk from `id` over everything not yet finished, and return what is finished
afterwards. -/
def walkAcyclic (collection : Collection) (direction : Direction)
    (enterable : List DatasetId) (finished : IdSet) (id : DatasetId) :
    Except LineageError IdSet :=
  if finished.contains id then .ok finished
  else if id ∈ enterable then
    match (collection.neighbours direction id).foldlM
        (fun finished next =>
          walkAcyclic collection direction (without enterable id) finished next.id)
        finished with
    | .ok finished => .ok (IdSet.add finished id)
    | .error error => .error error
  else .error (.cyclicGraph id)
termination_by enterable.length
decreasing_by exact length_without_lt ‹_›

/-- Fail if a cycle can be reached from `root` in a direction. -/
def ensureAcyclic (collection : Collection) (direction : Direction) (root : DatasetId) :
    Except LineageError Unit := do
  discard <|
    walkAcyclic collection direction (collection.enterable root) OrderedMap.empty root

end Collection

end DatasetLineage
