import DatasetLineage.Proofs.Collection.Snapshot
import DatasetLineage.Store.Fetch

/-!
# Sound stores

A store is sound if its positions are in step with its list of relations and the
relations have no cycle.  Writing a diff and removing relations keep the positions in
step, and a sound store can be restored from its snapshot: nothing is lost, and the
relations come back in their order.
-/

namespace DatasetLineage

namespace MemoryStore

abbrev edges (store : MemoryStore) : Set Edge :=
  edgesOf store.relations

/-- The positions say where each edge stands in the list of relations. -/
def Indexed (store : MemoryStore) : Prop :=
  ∀ edge position, store.positions.get? edge = some position ↔
    (store.relations.map Relation.edge)[position]? = some edge

structure Sound (store : MemoryStore) : Prop where
  indexed : store.Indexed
  acyclic : Acyclic store.edges

variable {store : MemoryStore}

/-- An edge is stored once, since it has one position. -/
theorem Indexed.distinct (hindexed : store.Indexed) :
    (store.relations.map Relation.edge).Nodup := by
  rw [List.nodup_iff_getElem?_ne_getElem?]
  intro first second hlt hlength heq
  have hedge : (store.relations.map Relation.edge)[second]? =
      some (store.relations.map Relation.edge)[second] := List.getElem?_eq_getElem hlength
  have hsecond := (hindexed _ _).2 hedge
  have hfirst := (hindexed _ _).2 (heq.trans hedge)
  have hsame : first = second := Option.some.inj (hfirst.symm.trans hsecond)
  exact Nat.ne_of_lt hlt hsame

theorem Indexed.contains_iff (hindexed : store.Indexed) {edge : Edge} :
    store.positions.contains edge = true ↔ edge ∈ store.edges := by
  rw [OrderedMap.contains_eq_true]
  simp only [hindexed edge, ← List.mem_iff_getElem?, List.mem_map, mem_edgesOf]

/-! ## Positions -/

theorem get?_positionsFrom {relations : List Relation}
    (hdistinct : (relations.map Relation.edge).Nodup) (start : Nat)
    {positions : OrderedMap Edge Nat}
    (hfresh : ∀ relation ∈ relations, positions.get? relation.edge = none)
    (edge : Edge) (position : Nat) :
    (positionsFrom start relations positions).get? edge = some position ↔
      positions.get? edge = some position ∨
        ∃ offset, (relations.map Relation.edge)[offset]? = some edge ∧
          position = start + offset := by
  induction relations generalizing start positions with
  | nil => simp [positionsFrom]
  | cons relation rest ih =>
      rw [List.map_cons, List.nodup_cons] at hdistinct
      have hrest : ∀ other ∈ rest,
          (positions.insert relation.edge start).get? other.edge = none := by
        intro other hother
        have hne : relation.edge ≠ other.edge := by
          intro heq
          exact hdistinct.1 (List.mem_map.2 ⟨other, hother, heq.symm⟩)
        rw [OrderedMap.get?_insert_of_ne _ _ hne]
        exact hfresh other (List.mem_cons_of_mem _ hother)
      have hoffsets : (∃ offset, ((relation :: rest).map Relation.edge)[offset]? = some edge ∧
            position = start + offset) ↔
          (relation.edge = edge ∧ start = position) ∨
            ∃ offset, (rest.map Relation.edge)[offset]? = some edge ∧
              position = start + 1 + offset := by
        constructor
        · intro ⟨offset, hedge, hposition⟩
          cases offset with
          | zero => exact .inl ⟨Option.some.inj hedge, hposition.symm⟩
          | succ offset => exact .inr ⟨offset, hedge, by omega⟩
        · intro hcases
          cases hcases with
          | inl hhead => exact ⟨0, congrArg some hhead.1, hhead.2.symm⟩
          | inr htail =>
              obtain ⟨offset, hedge, hposition⟩ := htail
              exact ⟨offset + 1, hedge, by omega⟩
      rw [positionsFrom, ih hdistinct.2 (start + 1) hrest, OrderedMap.get?_insert, hoffsets]
      by_cases heq : relation.edge = edge
      · have habsent : positions.get? edge = none := heq ▸ hfresh relation List.mem_cons_self
        simp [heq, habsent]
      · simp [rank_eq_iff, heq]

theorem indexed_positionsFrom {relations : List Relation}
    (hdistinct : (relations.map Relation.edge).Nodup) (edge : Edge) (position : Nat) :
    (positionsFrom 0 relations OrderedMap.empty).get? edge = some position ↔
      (relations.map Relation.edge)[position]? = some edge := by
  rw [get?_positionsFrom hdistinct 0 fun _ _ => rfl]
  simp

theorem Indexed.appendRelation (hindexed : store.Indexed) {relation : Relation}
    (hfresh : relation.edge ∉ store.edges) : (store.appendRelation relation).Indexed := by
  intro edge position
  change (store.positions.insert relation.edge store.relations.length).get? edge = _ ↔
    ((store.relations ++ [relation]).map Relation.edge)[position]? = _
  rw [OrderedMap.get?_insert, List.map_append]
  by_cases heq : relation.edge = edge
  · subst heq
    rw [if_pos rfl]
    by_cases hposition : position < store.relations.length
    · have habsent : (store.relations.map Relation.edge)[position]? ≠ some relation.edge := by
        intro hstored
        apply hfresh
        rw [mem_edgesOf, ← List.mem_map]
        exact List.mem_of_getElem? hstored
      rw [List.getElem?_append_left (by simpa using hposition)]
      apply iff_of_false _ habsent
      intro hsame
      exact Nat.ne_of_gt hposition (Option.some.inj hsame)
    · rw [List.getElem?_append_right (by simpa using hposition)]
      simp [List.getElem?_singleton]
      omega
  · have hother : ([relation].map Relation.edge)[position - store.relations.length]? ≠
        some edge := by
      rw [List.map_singleton, List.getElem?_singleton]
      by_cases hzero : position - store.relations.length = 0
      · simp [hzero, heq]
      · simp [hzero]
    rw [if_neg fun hrank => heq (rank_eq_iff.1 hrank), hindexed, List.getElem?_append]
    by_cases hposition : position < (store.relations.map Relation.edge).length
    · rw [if_pos hposition]
    · rw [if_neg hposition, List.length_map]
      have hbeyond : (store.relations.map Relation.edge)[position]? = none :=
        List.getElem?_eq_none (Nat.le_of_not_lt hposition)
      rw [hbeyond]
      exact iff_of_false (Option.some_ne_none edge).symm hother

theorem map_edge_relabel (store : MemoryStore) (relation : Relation) :
    (store.relabel relation).relations.map Relation.edge =
      store.relations.map Relation.edge := by
  rw [relabel]
  cases store.positions.get? relation.edge with
  | none => rfl
  | some position =>
      apply List.ext_getElem?
      intro other
      rw [List.getElem?_map, List.getElem?_map, List.getElem?_modify]
      cases store.relations[other]? with
      | none => simp
      | some stored => by_cases heq : position = other <;> simp [heq, Relation.edge]

theorem positions_relabel (store : MemoryStore) (relation : Relation) :
    (store.relabel relation).positions = store.positions := by
  rw [relabel]
  cases store.positions.get? relation.edge <;> rfl

theorem Indexed.of_eq {other : MemoryStore} (hindexed : store.Indexed)
    (hpositions : other.positions = store.positions)
    (hrelations : other.relations.map Relation.edge = store.relations.map Relation.edge) :
    other.Indexed := by
  intro edge position
  rw [hpositions, hrelations]
  exact hindexed edge position

theorem edges_of_map_edge {left right : List Relation}
    (hmap : left.map Relation.edge = right.map Relation.edge) : edgesOf left = edgesOf right := by
  ext edge
  rw [mem_edgesOf, mem_edgesOf, ← List.mem_map, ← List.mem_map, hmap]

/-! ## Writing and removing -/

def written (store : MemoryStore) (diff : Diff) : MemoryStore :=
  let extended := diff.relationsToAdd.foldl appendRelation store
  let relabelled := diff.relationsToUpdate.foldl relabel extended
  { relabelled with
    homes := (relabelled.homes.override diff.homesToAdd).override diff.homesToUpdate }

theorem apply_eq (diff : Diff) (store : MemoryStore) :
    MemoryStore.apply diff store =
      match store.obstacle? diff with
      | some refusal => .error (.refused refusal) store
      | none => .ok () (store.written diff) := rfl

theorem relations_foldl_appendRelation (store : MemoryStore) (added : List Relation) :
    (added.foldl appendRelation store).relations = store.relations ++ added := by
  induction added generalizing store with
  | nil => simp
  | cons relation rest ih =>
      rw [List.foldl_cons, ih]
      exact List.append_assoc store.relations [relation] rest

theorem homes_foldl {step : MemoryStore → Relation → MemoryStore}
    (hstep : ∀ store relation, (step store relation).homes = store.homes) (store : MemoryStore)
    (relations : List Relation) : (relations.foldl step store).homes = store.homes := by
  induction relations generalizing store with
  | nil => rfl
  | cons relation rest ih => rw [List.foldl_cons, ih, hstep]

theorem homes_relabel (store : MemoryStore) (relation : Relation) :
    (store.relabel relation).homes = store.homes := by
  rw [relabel]
  cases store.positions.get? relation.edge <;> rfl

theorem homes_written (store : MemoryStore) (diff : Diff) :
    (store.written diff).homes =
      (store.homes.override diff.homesToAdd).override diff.homesToUpdate := by
  have happended := @homes_foldl appendRelation (fun _ _ => rfl) store diff.relationsToAdd
  rw [written, homes_foldl homes_relabel, happended]

theorem written_of_isEmpty {diff : Diff} (hempty : diff.isEmpty = true) :
    store.written diff = store := by
  obtain ⟨added, updated, homesAdded, homesUpdated⟩ := diff
  simp only [Diff.isEmpty, Bool.and_eq_true, List.isEmpty_iff, OrderedMap.isEmpty] at hempty
  obtain ⟨⟨⟨rfl, rfl⟩, hadded⟩, hupdated⟩ := hempty
  rw [written, OrderedMap.override, OrderedMap.override, hadded, hupdated]
  rfl

theorem Indexed.foldl_appendRelation (hindexed : store.Indexed) {added : List Relation}
    (hdistinct : (added.map Relation.edge).Nodup)
    (hfresh : ∀ relation ∈ added, relation.edge ∉ store.edges) :
    (added.foldl MemoryStore.appendRelation store).Indexed := by
  induction added generalizing store with
  | nil => exact hindexed
  | cons relation rest ih =>
      rw [List.map_cons, List.nodup_cons] at hdistinct
      rw [List.foldl_cons]
      apply ih (hindexed.appendRelation (hfresh relation List.mem_cons_self)) hdistinct.2
      intro other hother hmem
      rw [edges, MemoryStore.appendRelation, edgesOf_append] at hmem
      cases hmem with
      | inl hold => exact hfresh other (List.mem_cons_of_mem _ hother) hold
      | inr hnew =>
          obtain ⟨stored, hstored, hedge⟩ := hnew
          rw [List.mem_singleton.1 hstored] at hedge
          exact hdistinct.1 (List.mem_map.2 ⟨other, hother, hedge.symm⟩)

theorem map_edge_foldl_relabel (store : MemoryStore) (updated : List Relation) :
    (updated.foldl relabel store).relations.map Relation.edge =
      store.relations.map Relation.edge := by
  induction updated generalizing store with
  | nil => rfl
  | cons relation rest ih => rw [List.foldl_cons, ih, map_edge_relabel]

theorem positions_foldl_relabel (store : MemoryStore) (updated : List Relation) :
    (updated.foldl relabel store).positions = store.positions := by
  induction updated generalizing store with
  | nil => rfl
  | cons relation rest ih => rw [List.foldl_cons, ih, positions_relabel]

theorem map_edge_written (store : MemoryStore) (diff : Diff) :
    (store.written diff).relations.map Relation.edge =
      (store.relations ++ diff.relationsToAdd).map Relation.edge := by
  rw [← relations_foldl_appendRelation]
  exact map_edge_foldl_relabel _ _

theorem edges_written (store : MemoryStore) (diff : Diff) :
    (store.written diff).edges = store.edges ∪ edgesOf diff.relationsToAdd := by
  rw [edges, edges_of_map_edge (map_edge_written store diff), edgesOf_append]

/-- A diff that a store can take: what it adds is not stored yet, what it updates is. -/
structure Fits (store : MemoryStore) (diff : Diff) : Prop where
  relationsToAdd : ∀ relation ∈ diff.relationsToAdd, relation.edge ∉ store.edges
  relationsToUpdate : ∀ relation ∈ diff.relationsToUpdate, relation.edge ∈ store.edges
  homesToAdd : ∀ id ∈ diff.homesToAdd.keys, store.homes.contains id = false
  homesToUpdate : ∀ id ∈ diff.homesToUpdate.keys, store.homes.contains id = true

/-- A diff that fits, and adds no edge twice. -/
structure Writable (store : MemoryStore) (diff : Diff) : Prop extends Fits store diff where
  distinct : (diff.relationsToAdd.map Relation.edge).Nodup

/-- Nothing is in the way of a diff exactly if it fits. -/
theorem Indexed.obstacle?_eq_none_iff (hindexed : store.Indexed) {diff : Diff} :
    store.obstacle? diff = none ↔ store.Fits diff := by
  simp only [obstacle?, Option.orElse_eq_none, Option.map_eq_none_iff, List.find?_eq_none,
    Bool.not_eq_true', Bool.not_eq_false, hindexed.contains_iff, Bool.not_eq_true]
  constructor
  · rintro ⟨hadded, hupdated, hhomesAdded, hhomesUpdated⟩
    exact ⟨hadded, hupdated, hhomesAdded, hhomesUpdated⟩
  · intro hfits
    exact ⟨hfits.relationsToAdd, hfits.relationsToUpdate, hfits.homesToAdd, hfits.homesToUpdate⟩

theorem Indexed.written (hindexed : store.Indexed) {diff : Diff}
    (hwritable : store.Writable diff) : (store.written diff).Indexed := by
  have hextended := hindexed.foldl_appendRelation hwritable.distinct hwritable.relationsToAdd
  apply hextended.of_eq
  · exact positions_foldl_relabel _ _
  · exact map_edge_foldl_relabel _ _

/-- Writing a diff that closes no cycle keeps a store sound. -/
theorem Sound.written (hsound : store.Sound) {diff : Diff} (hwritable : store.Writable diff)
    (hacyclic : Acyclic (store.edges ∪ edgesOf diff.relationsToAdd)) :
    Sound (store.written diff) where
  indexed := hsound.indexed.written hwritable
  acyclic := by
    rw [edges_written]
    exact hacyclic

theorem sound_empty : Sound {} where
  indexed := by
    intro edge position
    simp
  acyclic := by
    change Acyclic (edgesOf [])
    rw [edgesOf_nil]
    exact acyclic_empty

/-- A list of relations with distinct edges and its positions. -/
theorem Sound.of_positionsFrom
    (hpositions : store.positions = positionsFrom 0 store.relations OrderedMap.empty)
    (hdistinct : (store.relations.map Relation.edge).Nodup) (hacyclic : Acyclic store.edges) :
    Sound store where
  indexed := by
    intro edge position
    rw [hpositions]
    exact indexed_positionsFrom hdistinct edge position
  acyclic := hacyclic

/-- Removing relations keeps the positions in step. -/
theorem Indexed.removeRelations (hindexed : store.Indexed) (doomed : List Edge) :
    (leaves (MemoryStore.removeRelations doomed) store).Indexed :=
  indexed_positionsFrom (hindexed.distinct.sublist (List.filter_sublist.map _))

/-- Removing relations keeps a store sound. -/
theorem Sound.removeRelations (hsound : store.Sound) (doomed : List Edge) :
    (leaves (MemoryStore.removeRelations doomed) store).Sound where
  indexed := hsound.indexed.removeRelations doomed
  acyclic := by
    apply hsound.acyclic.mono
    intro edge ⟨relation, hmem, hedge⟩
    exact ⟨relation, (List.mem_filter.1 hmem).1, hedge⟩

/-- Changing datasets and homes keeps a store sound. -/
theorem Sound.of_eq {other : MemoryStore} (hsound : store.Sound)
    (hpositions : other.positions = store.positions)
    (hrelations : other.relations = store.relations) : Sound other where
  indexed := hsound.indexed.of_eq hpositions (by rw [hrelations])
  acyclic := by
    rw [edges, hrelations]
    exact hsound.acyclic

/-- A store that was seeded from a snapshot is sound. -/
theorem sound_ofSnapshot {snapshot : Snapshot} (hresult : ofSnapshot snapshot = .ok store) :
    Sound store := by
  rw [ofSnapshot] at hresult
  cases hvalid : (Collection.ofSnapshot snapshot).mapError
      (Failure.contradiction .seedingStore) with
  | error failure =>
      rw [hvalid] at hresult
      cases hresult
  | ok collection =>
      rw [hvalid] at hresult
      cases hresult
      have hcollection : Collection.Sound collection :=
        (Collection.Built.ofSnapshot snapshot (ok_of_mapError hvalid)).sound
      exact Sound.of_positionsFrom rfl hcollection.distinct hcollection.acyclic

/-! ## Reloading -/

def withDatasets (store : MemoryStore) (datasets : IdSet) : MemoryStore :=
  { store with datasets }

/-- The datasets that homes and relations mention. -/
def mentioned (store : MemoryStore) : IdSet :=
  IdSet.addAll (IdSet.ofList store.homes.keys) (endpointsOf store.relations)

/-- The snapshot of a sound store gives the store back, knowing the datasets it mentions. -/
theorem Sound.ofSnapshot_snapshot (hsound : store.Sound) :
    ofSnapshot store.snapshot = .ok (store.withDatasets store.mentioned) := by
  obtain ⟨collection, hcollection, _, hhomes, hrelations⟩ :=
    @Collection.ofSnapshot_succeeds store.snapshot hsound.indexed.distinct hsound.acyclic
  have hpositions : positionsFrom 0 store.relations OrderedMap.empty = store.positions := by
    apply OrderedMap.ext_some
    intro edge position
    rw [indexed_positionsFrom hsound.indexed.distinct, hsound.indexed]
  have hrestored : ofSnapshot store.snapshot = .ok
      { datasets := IdSet.addAll (IdSet.ofList collection.homes.keys)
          (endpointsOf collection.relations)
        relations := collection.relations
        positions := positionsFrom 0 collection.relations OrderedMap.empty
        homes := collection.homes } := by
    rw [ofSnapshot, hcollection]
    rfl
  rw [hrestored, hhomes, hrelations]
  change Except.ok { store with
    datasets := store.mentioned
    positions := positionsFrom 0 store.relations OrderedMap.empty } = _
  rw [hpositions]
  rfl

end MemoryStore

end DatasetLineage
