import DatasetLineage.Proofs.Collection.Lockstep
import DatasetLineage.Proofs.Outcome

/-!
# The search for cycles

The walk that looks for cycles finds one exactly if there is one to be found: it
succeeds if no cycle can be reached from its root, and otherwise it names a dataset of a
cycle that can.

What the walk has finished is closed under steps and free of cycles, and what it may not
enter any more leads to where it stands.
-/

namespace DatasetLineage

namespace Collection

variable {collection : Collection} {direction : Direction}

/-- A set of datasets that no step leaves and that no cycle runs through. -/
structure Settled (collection : Collection) (direction : Direction) (ids : IdSet) :
    Prop where
  closed : ∀ id child, ids.contains id = true →
    Leads collection.edges direction id child → ids.contains child = true
  acyclic : ∀ id, ids.contains id = true → ¬ Below collection.edges direction id id

theorem settled_empty : Settled collection direction OrderedMap.empty where
  closed := by
    intro id child hmem
    cases hmem
  acyclic := by
    intro id hmem
    cases hmem

theorem Settled.contains_of_reaches {ids : IdSet}
    (hsettled : Settled collection direction ids) {id target : DatasetId}
    (hmem : ids.contains id = true) (hpath : Reaches collection.edges direction id target) :
    ids.contains target = true := by
  induction hpath with
  | refl => exact hmem
  | tail _ hstep ih => exact hsettled.closed _ _ ih hstep

/-- A dataset whose children are all settled can be settled next. -/
theorem Settled.add {ids : IdSet} (hsettled : Settled collection direction ids)
    {id : DatasetId} (hfresh : ids.contains id = false)
    (hchildren : ∀ child, Leads collection.edges direction id child →
      ids.contains child = true) : Settled collection direction (IdSet.add ids id) where
  closed := by
    intro parent child hparent hstep
    rw [IdSet.contains_add] at hparent ⊢
    rcases hparent with hold | rfl
    · exact .inl (hsettled.closed _ _ hold hstep)
    · exact .inl (hchildren _ hstep)
  acyclic := by
    intro other hother hcycle
    rcases IdSet.contains_add.1 hother with hold | rfl
    · exact hsettled.acyclic _ hold hcycle
    · obtain ⟨child, hstep, hback⟩ := Relation.TransGen.head'_iff.1 hcycle
      have hreturn := hsettled.contains_of_reaches (hchildren child hstep) hback
      rw [hfresh] at hreturn
      cases hreturn

/-- What a successful walk has done. -/
structure Walked (collection : Collection) (direction : Direction)
    (enterable : List DatasetId) (before after : IdSet) : Prop where
  settled : Settled collection direction after
  grows : ∀ id, before.contains id = true → after.contains id = true
  within : ∀ id, after.contains id = true → before.contains id = true ∨ id ∈ enterable

/-- Walking from one neighbour after the other. -/
theorem walked_foldlM {enterable : List DatasetId} {neighbours : List Neighbour}
    (hwalk : ∀ neighbour ∈ neighbours, ∀ before after,
      Settled collection direction before →
      walkAcyclic collection direction enterable before neighbour.id = .ok after →
        Walked collection direction enterable before after ∧
          after.contains neighbour.id = true)
    {before after : IdSet} (hbefore : Settled collection direction before)
    (hresult : neighbours.foldlM (fun finished next =>
      walkAcyclic collection direction enterable finished next.id) before = .ok after) :
    Walked collection direction enterable before after ∧
      ∀ neighbour ∈ neighbours, after.contains neighbour.id = true := by
  induction neighbours generalizing before with
  | nil =>
      cases hresult
      exact ⟨⟨hbefore, fun _ => id, fun _ => .inl⟩, fun _ hmem => nomatch hmem⟩
  | cons neighbour rest ih =>
      rw [List.foldlM_cons] at hresult
      cases hfirst : walkAcyclic collection direction enterable before neighbour.id with
      | error error =>
          rw [hfirst] at hresult
          cases hresult
      | ok middle =>
          rw [hfirst] at hresult
          obtain ⟨hmiddle, hneighbour⟩ :=
            hwalk neighbour List.mem_cons_self before middle hbefore hfirst
          obtain ⟨hafter, hrest⟩ :=
            ih (fun other hother => hwalk other (List.mem_cons_of_mem _ hother))
              hmiddle.settled hresult
          refine ⟨⟨hafter.settled, fun id hid => hafter.grows id (hmiddle.grows id hid), ?_⟩,
            ?_⟩
          · intro id hid
            rcases hafter.within id hid with hid | hid
            · exact hmiddle.within id hid
            · exact .inr hid
          · intro other hother
            rcases List.mem_cons.1 hother with rfl | hother
            · exact hafter.grows _ hneighbour
            · exact hrest other hother

/-- A dataset is settled after a walk over its children that stayed away from it. -/
theorem Walked.add {enterable : List DatasetId} {id : DatasetId} {before after : IdSet}
    (hwalked : Walked collection direction (without enterable id) before after)
    (henter : id ∈ enterable) (hfresh : ¬ before.contains id = true)
    (hchildren : ∀ child, Leads collection.edges direction id child →
      after.contains child = true) :
    Walked collection direction enterable before (IdSet.add after id) where
  settled := by
    have hunfinished : after.contains id = false := by
      by_contra hid
      cases hwalked.within id (Bool.not_eq_false _ ▸ hid) with
      | inl hbefore => exact hfresh hbefore
      | inr henterable => exact (mem_without.1 henterable).2 rfl
    exact hwalked.settled.add hunfinished hchildren
  grows := by
    intro other hother
    exact IdSet.contains_add.2 (.inl (hwalked.grows other hother))
  within := by
    intro other hother
    rcases IdSet.contains_add.1 hother with hother | rfl
    · exact (hwalked.within other hother).imp_right fun hmem => (mem_without.1 hmem).1
    · exact .inr henter

/-- A successful walk settles its root. -/
theorem walked_of_walkAcyclic (hlockstep : Lockstep collection)
    (enterable : List DatasetId) (id : DatasetId) {before after : IdSet}
    (hbefore : Settled collection direction before)
    (hresult : walkAcyclic collection direction enterable before id = .ok after) :
    Walked collection direction enterable before after ∧ after.contains id = true := by
  induction hlength : enterable.length using Nat.strong_induction_on
    generalizing enterable id before after with
  | _ length ih =>
  rw [walkAcyclic] at hresult
  split at hresult
  · next hfinished =>
      cases hresult
      exact ⟨⟨hbefore, fun _ hmem => hmem, fun _ => .inl⟩, hfinished⟩
  · next hfresh =>
    split at hresult
    · next henter =>
      split at hresult
      · next middle hmiddle =>
          cases hresult
          have hshorter : (without enterable id).length < length :=
            hlength ▸ length_without_lt henter
          obtain ⟨hwalked, hneighbours⟩ :=
            walked_foldlM (fun neighbour _ before after hbefore hstep =>
              ih _ hshorter _ neighbour.id hbefore hstep rfl) hbefore hmiddle
          have hchildren : ∀ child, Leads collection.edges direction id child →
              middle.contains child = true := by
            intro child hstep
            obtain ⟨neighbour, hmem, rfl⟩ := hlockstep.leads_iff.1 hstep
            exact hneighbours neighbour hmem
          exact ⟨hwalked.add henter hfresh hchildren, IdSet.contains_add.2 (.inr rfl)⟩
      · cases hresult
    · cases hresult

/-! ## A walk that fails -/

/-- A known dataset can be entered by every walk. -/
theorem mem_enterable_of_contains {root id : DatasetId}
    (hknown : collection.contains id = true) : id ∈ collection.enterable root :=
  List.mem_cons_of_mem _ (OrderedMap.contains_iff_mem_keys.1 hknown)

/-- One step down, what may not be entered any more still leads to where the walk
stands. -/
theorem below_child {root id child : DatasetId} {enterable : List DatasetId}
    (hpath : ∀ other ∈ collection.enterable root, other ∉ enterable →
      Below collection.edges direction other id)
    (hstep : Leads collection.edges direction id child) :
    ∀ other ∈ collection.enterable root, other ∉ without enterable id →
      Below collection.edges direction other child := by
  intro other hother hleft
  by_cases heq : other = id
  · subst heq
    exact .single hstep
  · refine (hpath other hother fun henter => ?_).tail hstep
    exact hleft (mem_without.2 ⟨henter, heq⟩)

/-- A failing walk names a dataset of a cycle that it has reached.  The datasets that the
walk may not enter any more are those on its path, so each of them leads to where the
walk stands. -/
theorem cycle_of_walkAcyclic_error (hlockstep : Lockstep collection) {root : DatasetId}
    (enterable : List DatasetId) (id : DatasetId) {finished : IdSet} {error : LineageError}
    (hid : id ∈ collection.enterable root)
    (hpath : ∀ other ∈ collection.enterable root, other ∉ enterable →
      Below collection.edges direction other id)
    (hresult : walkAcyclic collection direction enterable finished id = .error error) :
    ∃ target, error = .cyclicGraph target ∧ Reaches collection.edges direction id target ∧
      Below collection.edges direction target target := by
  induction hlength : enterable.length using Nat.strong_induction_on
    generalizing enterable id finished with
  | _ length ih =>
  rw [walkAcyclic] at hresult
  split at hresult
  · cases hresult
  · split at hresult
    · next henter =>
      split at hresult
      · cases hresult
      · next failure hfailure =>
          cases hresult
          have hshorter : (without enterable id).length < length :=
            hlength ▸ length_without_lt henter
          obtain ⟨neighbour, hmem, state, hstate⟩ := exists_of_foldlM_error hfailure
          have hstep : Leads collection.edges direction id neighbour.id :=
            hlockstep.leads_iff.2 ⟨neighbour, hmem, rfl⟩
          have hknown := (hlockstep.contains_of_leads direction hstep).2
          obtain ⟨target, herror, hreach, hcycle⟩ :=
            ih _ hshorter _ _ (mem_enterable_of_contains hknown) (below_child hpath hstep)
              hstate rfl
          exact ⟨target, herror, .head hstep hreach, hcycle⟩
    · next hblocked =>
      cases hresult
      exact ⟨id, rfl, .refl, hpath id hid hblocked⟩

/-- A failing search names a dataset of a cycle that can be reached from its root. -/
theorem cycle_of_ensureAcyclic_error (hlockstep : Lockstep collection) {root : DatasetId}
    {error : LineageError}
    (hresult : collection.ensureAcyclic direction root = .error error) :
    ∃ target, error = .cyclicGraph target ∧
      Reaches collection.edges direction root target ∧
        Below collection.edges direction target target := by
  rw [ensureAcyclic] at hresult
  cases hwalk : walkAcyclic collection direction (collection.enterable root)
    OrderedMap.empty root with
  | ok finished =>
      rw [hwalk] at hresult
      cases hresult
  | error failure =>
      rw [hwalk] at hresult
      cases hresult
      exact cycle_of_walkAcyclic_error hlockstep _ root List.mem_cons_self
        (fun other hother hleft => absurd hother hleft) hwalk

/-- The search succeeds exactly if no cycle can be reached from its root. -/
theorem ensureAcyclic_eq_ok_iff (hlockstep : Lockstep collection) {root : DatasetId} :
    collection.ensureAcyclic direction root = .ok () ↔
      ∀ target, Reaches collection.edges direction root target →
        ¬ Below collection.edges direction target target := by
  constructor
  · intro hresult target hreach
    rw [ensureAcyclic] at hresult
    cases hwalk : walkAcyclic collection direction (collection.enterable root)
      OrderedMap.empty root with
    | error failure =>
        rw [hwalk] at hresult
        cases hresult
    | ok finished =>
        obtain ⟨hwalked, hroot⟩ := walked_of_walkAcyclic hlockstep _ _ settled_empty hwalk
        exact hwalked.settled.acyclic _ (hwalked.settled.contains_of_reaches hroot hreach)
  · intro hfree
    cases hresult : collection.ensureAcyclic direction root with
    | ok _ => rfl
    | error failure =>
        obtain ⟨target, _, hreach, hcycle⟩ := cycle_of_ensureAcyclic_error hlockstep hresult
        exact absurd hcycle (hfree target hreach)

end Collection

end DatasetLineage
