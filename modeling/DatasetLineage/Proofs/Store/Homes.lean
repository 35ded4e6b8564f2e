import DatasetLineage.Proofs.Store.Override
import DatasetLineage.Proofs.Store.Removal

/-!
# Homes as a plain map

Seen from outside, an index keeps a partial map from datasets to homes.  To record homes or to
look them up it fetches the stored relations that touch the datasets it is given, which fails
exactly if these have a cycle.  So these calls succeed as long as no half-done collection with a
cycle was merged without updates, and calls of any kind, made one after the other, do to the
recorded homes what they would do to a plain map, or fail and leave them alone.
-/

namespace DatasetLineage

namespace Index

/-! ## Calls and a plain map -/

/-- A call to an index: an operation on its store, or a question about homes. -/
inductive Call where
  | operation (operation : Operation)
  | getHomes (ids : List DatasetId)

/-- What a call answers. -/
inductive Answer where
  | diff (diff : Diff)
  | count (count : Nat)
  | homes (homes : Homes)
  | failure (failure : Failure)

def Answer.of {α : Type} (say : α → Answer) : EStateM.Result Failure MemoryStore α → Answer
  | .ok result _ => say result
  | .error reason _ => .failure reason

def Operation.answer (settings : StoreSettings) (store : MemoryStore) : Operation → Answer
  | .add tree bound allowUpdates => .of .diff (Index.add settings tree bound allowUpdates store)
  | .merge collection allowUpdates =>
      .of .diff (Index.merge settings collection allowUpdates store)
  | .setHome home ids allowUpdates =>
      .of .count (Index.setHome settings home ids allowUpdates store)
  | .clearHome ids => .of .count (Index.clearHome ids store)
  | .remove id direction bound => .of .count (Index.remove id direction bound store)

namespace Call

def answer (settings : StoreSettings) (store : MemoryStore) : Call → Answer
  | .operation asked => asked.answer settings store
  | .getHomes ids =>
      match Index.getHomes ids store with
      | .ok homes => .homes homes
      | .error failure => .failure failure

def after (settings : StoreSettings) (store : MemoryStore) : Call → MemoryStore
  | .operation asked => asked.after settings store
  | .getHomes _ => store

/-- A call that asks for an operation asks for one of some kind. -/
def Asks (kind : Operation → Prop) : Call → Prop
  | .operation asked => kind asked
  | .getHomes _ => True

def AboutHomes : Call → Prop
  | .operation (.setHome _ _ _) | .operation (.clearHome _) | .getHomes _ => True
  | _ => False

/-- Calls made one after the other, each with its answer. -/
def answers (settings : StoreSettings) (store : MemoryStore) : List Call → List (Call × Answer)
  | [] => []
  | call :: rest =>
      (call, call.answer settings store) :: answers settings (call.after settings store) rest

end Call

/-- What an index keeps, seen from outside: a partial map of homes, and relations. -/
structure Ledger where
  homes : DatasetId → Option String
  relations : List Relation

def ledgerOf (store : MemoryStore) : Ledger :=
  ⟨store.homes.get?, store.relations⟩

namespace Ledger

/-- Of some datasets, those that have a home.  One that is listed twice counts once. -/
def housed (ledger : Ledger) (ids : List DatasetId) : Finset DatasetId :=
  ids.toFinset.filter fun id => (ledger.homes id).isSome

/-- Of some datasets, those whose home changes if they are to have a given one: the datasets
without a home, and if updates are allowed also those with another home. -/
def changing (ledger : Ledger) (home : String) (allowUpdates : Bool) (ids : List DatasetId) :
    Finset DatasetId :=
  ids.toFinset.filter fun id =>
    ledger.homes id = none ∨ allowUpdates = true ∧ ledger.homes id ≠ some home

theorem mem_changing {ledger : Ledger} {home : String} {allowUpdates : Bool}
    {ids : List DatasetId} {id : DatasetId} : id ∈ ledger.changing home allowUpdates ids ↔
      id ∈ ids ∧ (ledger.homes id = none ∨ allowUpdates = true ∧ ledger.homes id ≠ some home) := by
  rw [changing, Finset.mem_filter, List.mem_toFinset]

/-- The homes of a collection can be merged: all of them if updates are allowed, and else only
if none of them differs from a recorded one. -/
def Accepts (ledger : Ledger) (collection : Collection) (allowUpdates : Bool) : Prop :=
  allowUpdates = true ∨ ∀ id home current, collection.home id = some home →
    ledger.homes id = some current → current = home

def touching (ledger : Ledger) (ids : List DatasetId) : List Relation :=
  ledger.relations.filter fun relation => relation.source ∈ ids || relation.derived ∈ ids

/-- What a plain map does when it is called.  Giving and looking up homes fails exactly if the
relations that touch the datasets have a cycle, forgetting homes never, and all three leave the
relations alone.  What other calls do to the relations is left open; homes are changed only by
merging, and only if it succeeds. -/
inductive Step : Ledger → Call → Answer → Ledger → Prop
  | setHome {ledger : Ledger} (home : String) (ids : List DatasetId) (allowUpdates : Bool) :
      Acyclic (edgesOf (ledger.touching ids)) →
        Step ledger (.operation (.setHome home ids allowUpdates))
          (.count (ledger.changing home allowUpdates ids).card)
          { ledger with
            homes := fun id =>
              if id ∈ ledger.changing home allowUpdates ids then some home
              else ledger.homes id }
  | setHomeFails {ledger : Ledger} (home : String) (ids : List DatasetId) (allowUpdates : Bool)
      (failure : Failure) : ¬ Acyclic (edgesOf (ledger.touching ids)) →
        Step ledger (.operation (.setHome home ids allowUpdates)) (.failure failure) ledger
  | getHomes {ledger : Ledger} (ids : List DatasetId) (found : Homes) :
      Acyclic (edgesOf (ledger.touching ids)) →
      (∀ id home, found.get? id = some home ↔ id ∈ ids ∧ ledger.homes id = some home) →
        Step ledger (.getHomes ids) (.homes found) ledger
  | getHomesFails {ledger : Ledger} (ids : List DatasetId) (failure : Failure) :
      ¬ Acyclic (edgesOf (ledger.touching ids)) →
        Step ledger (.getHomes ids) (.failure failure) ledger
  | clearHome {ledger : Ledger} (ids : List DatasetId) :
      Step ledger (.operation (.clearHome ids)) (.count (ledger.housed ids).card)
        { ledger with homes := fun id => if id ∈ ids then none else ledger.homes id }
  | merge {ledger : Ledger} (collection : Collection) (allowUpdates : Bool) (diff : Diff)
      (relations : List Relation) : ledger.Accepts collection allowUpdates →
        Step ledger (.operation (.merge collection allowUpdates)) (.diff diff)
          ⟨fun id => (collection.home id).or (ledger.homes id), relations⟩
  | mergeFails {ledger : Ledger} (collection : Collection) (allowUpdates : Bool)
      (failure : Failure) :
      Step ledger (.operation (.merge collection allowUpdates)) (.failure failure) ledger
  | add {ledger : Ledger} (tree : Tree) (bound : Nat) (allowUpdates : Bool)
      (collection : Collection) (diff : Diff) (relations : List Relation) :
      Collection.ofTree tree bound = .ok collection → ledger.Accepts collection allowUpdates →
        Step ledger (.operation (.add tree bound allowUpdates)) (.diff diff)
          ⟨fun id => (collection.home id).or (ledger.homes id), relations⟩
  | addFails {ledger : Ledger} (tree : Tree) (bound : Nat) (allowUpdates : Bool)
      (failure : Failure) :
      Step ledger (.operation (.add tree bound allowUpdates)) (.failure failure) ledger
  | remove {ledger : Ledger} (id : DatasetId) (direction : Direction) (bound count : Nat)
      (relations : List Relation) :
      Step ledger (.operation (.remove id direction bound)) (.count count)
        { ledger with relations }
  | removeFails {ledger : Ledger} (id : DatasetId) (direction : Direction) (bound : Nat)
      (failure : Failure) : ¬ Acyclic (edgesOf ledger.relations) →
        Step ledger (.operation (.remove id direction bound)) (.failure failure) ledger

/-- Steps of a plain map one after the other. -/
inductive Run : Ledger → List (Call × Answer) → Ledger → Prop
  | nil {ledger : Ledger} : Run ledger [] ledger
  | cons {first middle last : Ledger} {call : Call} {answer : Answer}
      {rest : List (Call × Answer)} :
      Step first call answer middle → Run middle rest last →
        Run first ((call, answer) :: rest) last

theorem touching_subset (ledger : Ledger) (ids : List DatasetId) :
    edgesOf (ledger.touching ids) ⊆ edgesOf ledger.relations := by
  rintro edge ⟨relation, hmem, hedge⟩
  exact ⟨relation, (List.mem_filter.1 hmem).1, hedge⟩

/-- Without a cycle no call about homes fails. -/
theorem Step.succeeds {before after : Ledger} {call : Call} {answer : Answer}
    (hstep : Step before call answer after) (hacyclic : Acyclic (edgesOf before.relations))
    (habout : call.AboutHomes) (failure : Failure) : answer ≠ .failure failure := by
  have htouching : ∀ ids, Acyclic (edgesOf (before.touching ids)) :=
    fun ids => hacyclic.mono (before.touching_subset ids)
  cases hstep with
  | setHomeFails home ids allowUpdates reason hcyclic => exact absurd (htouching ids) hcyclic
  | getHomesFails ids reason hcyclic => exact absurd (htouching ids) hcyclic
  | setHome home ids allowUpdates _ => exact Answer.noConfusion
  | getHomes ids found _ _ => exact Answer.noConfusion
  | clearHome ids => exact Answer.noConfusion
  | merge | mergeFails | add | addFails | remove | removeFails => exact habout.elim

end Ledger

/-! ## Looking up homes -/

section Homes

variable {store : MemoryStore} {settings : StoreSettings}

theorem getHomes_eq {existing : Collection} {ids : List DatasetId}
    (hexisting : store.fetch ids = .ok existing) :
    ∃ found, getHomes ids store = .ok found ∧
      ∀ id home, found.get? id = some home ↔ id ∈ ids ∧ store.homes.get? id = some home := by
  have hfetched := MemoryStore.fetched_of_fetch hexisting
  refine ⟨.collect existing.home .empty ids, ?_, ?_⟩
  · rw [getHomes, hexisting]
    apply congrArg Except.ok
    rw [OrderedMap.collect]
    congr 1
    funext homes id
    cases existing.home id <;> rfl
  · intro id home
    rw [OrderedMap.get?_collect, OrderedMap.get?_empty, Option.or_none]
    by_cases hid : id ∈ ids
    · rw [if_pos hid, hfetched.home_eq hid, and_iff_right hid]
    · simp [hid]

/-! ## Giving homes -/

/-- A home is either added or replaced, so the records are as many as the homes that change. -/
theorem totalRecords_homeDiff {existing : Collection} {ledger : Ledger} {ids : List DatasetId}
    (hsame : ∀ id ∈ ids, existing.home id = ledger.homes id) (home : String)
    (allowUpdates : Bool) :
    (homeDiff existing home allowUpdates ids).totalRecords =
      (ledger.changing home allowUpdates ids).card := by
  have hadded : (ids.toFinset.filter fun id => (addedHome home (existing.home id)).isSome) =
      ids.toFinset.filter fun id => ledger.homes id = none := by
    apply Finset.filter_congr
    intro id hid
    rw [hsame id (List.mem_toFinset.1 hid), isSome_addedHome]
  have hreplaced :
      (ids.toFinset.filter fun id => (replacedHome home allowUpdates (existing.home id)).isSome) =
      ids.toFinset.filter fun id =>
        ledger.homes id ≠ none ∧ ledger.homes id ≠ some home ∧ allowUpdates = true := by
    apply Finset.filter_congr
    intro id hid
    rw [hsame id (List.mem_toFinset.1 hid), isSome_replacedHome]
  have hsplit : ledger.changing home allowUpdates ids =
      (ids.toFinset.filter fun id => ledger.homes id = none) ∪
        ids.toFinset.filter fun id =>
          ledger.homes id ≠ none ∧ ledger.homes id ≠ some home ∧ allowUpdates = true := by
    rw [← Finset.filter_or]
    apply Finset.filter_congr
    intro id _
    tauto
  rw [hsplit, Finset.card_union_of_disjoint, ← hadded, ← hreplaced, homeDiff_eq]
  · simp [Diff.totalRecords, Diff.added, Diff.updated, OrderedMap.size_collect]
  · apply Finset.disjoint_filter.2
    intro id _ hnone hother
    exact hother.1 hnone

/-- Giving a home to datasets does to the ledger what it does to a plain map. -/
theorem setHome_eq_ok (hindexed : store.Indexed) (hrequire : settings.requireKnownDatasets = false)
    {existing : Collection} {ids : List DatasetId} (hexisting : store.fetch ids = .ok existing)
    (home : String) (allowUpdates : Bool) :
    ∃ after, setHome settings home ids allowUpdates store =
        .ok ((ledgerOf store).changing home allowUpdates ids).card after ∧
      ledgerOf after =
        { ledgerOf store with
          homes := fun id =>
            if id ∈ (ledgerOf store).changing home allowUpdates ids then some home
            else store.homes.get? id } := by
  have hhome : ∀ id ∈ ids, existing.home id = store.homes.get? id :=
    fun _ => (MemoryStore.fetched_of_fetch hexisting).home_eq
  have hplanned : prepareHomes settings home ids allowUpdates store =
      .ok (homeDiff existing home allowUpdates ids) := by
    rw [prepareHomes, hrequire, hexisting]
    rfl
  refine ⟨store.written (homeDiff existing home allowUpdates ids), ?_, ?_⟩
  · rw [setHome_eq, carryOut_of_ok hindexed (writable_of_prepareHomes hplanned) hplanned,
      @totalRecords_homeDiff existing (ledgerOf store) ids hhome]
  · have hrelations : (store.written (homeDiff existing home allowUpdates ids)).relations =
        store.relations := by
      rw [homeDiff_eq]
      rfl
    rw [ledgerOf, hrelations]
    congr 1
    funext id
    rw [MemoryStore.homes_written, homeDiff_eq, OrderedMap.get?_override, OrderedMap.get?_override,
      OrderedMap.get?_collect, OrderedMap.get?_collect, OrderedMap.get?_empty, Option.or_none,
      Option.or_none]
    simp only [Ledger.mem_changing, ledgerOf]
    by_cases hid : id ∈ ids
    · rw [hhome id hid]
      cases store.homes.get? id with
      | none => simp [hid, addedHome, replacedHome]
      | some current =>
          by_cases hother : allowUpdates = true ∧ current ≠ home
          · simp [hid, addedHome, replacedHome, hother]
          · have hkept : ¬ (current ≠ home ∧ allowUpdates = true) := fun h => hother h.symm
            simp [hid, addedHome, replacedHome, hother, hkept]
    · simp [hid]

theorem setHome_eq_error (hrequire : settings.requireKnownDatasets = false)
    {ids : List DatasetId} {failure : Failure} (hfailed : store.fetch ids = .error failure)
    (home : String) (allowUpdates : Bool) :
    setHome settings home ids allowUpdates store = .error failure store := by
  rw [setHome_eq]
  apply carryOut_of_error
  rw [prepareHomes, hrequire, hfailed]
  rfl

/-! ## Merging homes -/

section Merging

variable {collection existing : Collection} {allowUpdates : Bool} {diff : Diff}

theorem accepts_of_prepare (hcollection : Collection.Lockstep collection)
    (hresult : prepare settings collection allowUpdates store = .ok diff) :
    (ledgerOf store).Accepts collection allowUpdates := by
  cases allowUpdates with
  | true => exact .inl rfl
  | false =>
      right
      intro id home current hhome hcurrent
      obtain ⟨existing, inside, hclosure, hplan⟩ := exists_closure_of_prepare hresult
      obtain ⟨found, hfound, _⟩ := bind_eq_ok.1 hplan
      have hcompared := Collection.compareRecords_of_diffAgainst (ok_of_mapError hfound)
      have hinside := about_of_covers hcollection hclosure.covers (.home id home) hhome
      exact Collection.home_eq_of_compareRecords hcompared hhome
        ((hclosure.home_eq hinside).trans hcurrent)

/-- After a merge the homes are those of the collection, and else the recorded ones. -/
theorem ledgerOf_written (hcollection : Collection.Lockstep collection)
    (hresult : prepare settings collection allowUpdates store = .ok diff) :
    ledgerOf (store.written diff) =
      ⟨fun id => (collection.home id).or (store.homes.get? id),
        (store.written diff).relations⟩ := by
  have hhomes := MemoryStore.homes_written_of_revises (revises_of_prepare hcollection hresult)
  rw [ledgerOf, hhomes]
  congr 1
  funext id
  exact OrderedMap.get?_override store.homes collection.homes id

end Merging

/-! ## Steps and runs -/

/-- An operation is a step of a plain map. -/
theorem step_of_operation (hindexed : store.Indexed)
    (hrequire : settings.requireKnownDatasets = false) {operation : Operation}
    (hpossible : operation.Possible) :
    Ledger.Step (ledgerOf store) (.operation operation) (operation.answer settings store)
      (ledgerOf (operation.after settings store)) := by
  cases operation with
  | add tree bound allowUpdates =>
      rw [Operation.answer, Operation.after, leaves]
      cases hresult : add settings tree bound allowUpdates store with
      | ok diff after =>
          obtain ⟨hplanned, rfl⟩ := (add_eq_ok_iff hindexed).1 hresult
          obtain ⟨collection, hcollection, hprepared⟩ := bind_eq_ok.1 hplanned
          have htree := ok_of_mapError hcollection
          have hlockstep := (Collection.Built.ofTree tree bound htree).sound.toLockstep
          have haccepts := accepts_of_prepare hlockstep hprepared
          have hledger := ledgerOf_written hlockstep hprepared
          exact hledger ▸ .add tree bound allowUpdates collection diff _ htree haccepts
      | error reason after =>
          rw [add_eq] at hresult
          obtain ⟨_, rfl⟩ := (carryOut_eq_error_iff hindexed
            fun _ => writable_of_prepareTree).1 hresult
          exact .addFails tree bound allowUpdates reason
  | merge collection allowUpdates =>
      have hlockstep := Collection.Kept.lockstep hpossible
      rw [Operation.answer, Operation.after, leaves]
      cases hresult : merge settings collection allowUpdates store with
      | ok diff after =>
          obtain ⟨hprepared, rfl⟩ := (merge_eq_ok_iff hindexed hlockstep).1 hresult
          have haccepts := accepts_of_prepare hlockstep hprepared
          have hledger := ledgerOf_written hlockstep hprepared
          exact hledger ▸ .merge collection allowUpdates diff _ haccepts
      | error reason after =>
          obtain ⟨_, rfl⟩ := (merge_eq_error_iff hindexed hlockstep).1 hresult
          exact .mergeFails collection allowUpdates reason
  | setHome home ids allowUpdates =>
      have htouching := @MemoryStore.Indexed.fetch_succeeds_iff store ids hindexed
      rw [Operation.answer, Operation.after, leaves]
      cases hfetched : store.fetch ids with
      | ok existing =>
          obtain ⟨after, hresult, hledger⟩ :=
            setHome_eq_ok hindexed hrequire hfetched home allowUpdates
          rw [hresult]
          exact hledger ▸ .setHome home ids allowUpdates (htouching.1 ⟨existing, hfetched⟩)
      | error reason =>
          rw [setHome_eq_error hrequire hfetched]
          apply Ledger.Step.setHomeFails
          intro hacyclic
          obtain ⟨existing, hexisting⟩ := htouching.2 hacyclic
          cases hfetched.symm.trans hexisting
  | clearHome ids =>
      obtain ⟨homes, hresult, hhomes⟩ := clearHome_eq_ok ids store
      have hledger : ledgerOf { store with homes } =
          { ledgerOf store with
            homes := fun id => if id ∈ ids then none else (ledgerOf store).homes id } :=
        congrArg (Ledger.mk · store.relations) (funext hhomes)
      rw [Operation.answer, Operation.after, leaves, hresult]
      exact hledger ▸ .clearHome ids
  | remove id direction bound =>
      rw [Operation.answer, Operation.after, leaves]
      cases hfetched : store.fetchDirected direction (.ofBound bound) id with
      | ok collected =>
          obtain ⟨after, hresult, hremoved⟩ := remove_eq_ok hfetched rfl
          have hledger : ledgerOf after = { ledgerOf store with relations := after.relations } := by
            rw [ledgerOf, hremoved.homes]
            rfl
          rw [hresult]
          exact hledger ▸ .remove id direction bound _ after.relations
      | error reason =>
          rw [remove_eq_error hfetched]
          apply Ledger.Step.removeFails
          intro hacyclic
          have hsound : store.Sound := ⟨hindexed, hacyclic⟩
          obtain ⟨collected, hcollected⟩ :=
            hsound.fetchDirected_succeeds direction (.ofBound bound) id
          cases hfetched.symm.trans hcollected

theorem step_of_call (hindexed : store.Indexed)
    (hrequire : settings.requireKnownDatasets = false) {call : Call}
    (hpossible : call.Asks Operation.Possible) :
    Ledger.Step (ledgerOf store) call (call.answer settings store)
      (ledgerOf (call.after settings store)) := by
  cases call with
  | operation asked => exact step_of_operation hindexed hrequire hpossible
  | getHomes ids =>
      have htouching := @MemoryStore.Indexed.fetch_succeeds_iff store ids hindexed
      rw [Call.answer]
      cases hfetched : store.fetch ids with
      | ok existing =>
          obtain ⟨found, hresult, hfound⟩ := getHomes_eq hfetched
          rw [hresult]
          exact .getHomes ids found (htouching.1 ⟨existing, hfetched⟩) hfound
      | error reason =>
          have hresult : getHomes ids store = .error reason := by
            rw [getHomes, hfetched]
            rfl
          rw [hresult]
          apply Ledger.Step.getHomesFails
          intro hacyclic
          obtain ⟨existing, hexisting⟩ := htouching.2 hacyclic
          cases hfetched.symm.trans hexisting

theorem VisitedBy.call {asked : Operation → Prop} (hvisited : VisitedBy asked store)
    (settings : StoreSettings) {call : Call} (hasked : call.Asks asked) :
    VisitedBy asked (call.after settings store) := by
  cases call with
  | operation operation => exact hvisited.operation settings hasked
  | getHomes ids => exact hvisited

/-- Calls of operations that are checked in full never fail to treat homes. -/
theorem VisitedBy.answers_succeed (hvisited : VisitedBy Operation.FullyChecked store)
    (hrequire : settings.requireKnownDatasets = false) {calls : List Call}
    (hchecked : ∀ call ∈ calls, call.Asks Operation.FullyChecked) {call : Call}
    {answer : Answer} (hanswer : (call, answer) ∈ Call.answers settings store calls)
    (habout : call.AboutHomes) (failure : Failure) : answer ≠ .failure failure := by
  induction calls generalizing store with
  | nil => cases hanswer
  | cons first rest ih =>
      obtain ⟨hfirst, hrest⟩ := List.forall_mem_cons.1 hchecked
      rcases List.mem_cons.1 hanswer with heq | hlater
      · cases heq
        have hpossible : call.Asks Operation.Possible := by
          cases call with
          | operation operation => exact Operation.FullyChecked.possible hfirst
          | getHomes ids => trivial
        exact (step_of_call hvisited.sound.indexed hrequire hpossible).succeeds
          hvisited.sound.acyclic habout failure
      · exact ih (hvisited.call settings hfirst) hrest hlater

/-- Any calls made one after the other treat the homes as a plain partial map, as long as
datasets need not be known.  To forget homes never fails, and to give or look them up fails
exactly if the relations that touch the datasets have a cycle, which cannot be as long as no
half-done collection with a cycle is merged without updates.  Else a home is given to exactly
the listed datasets that have none, or with updates another one, and these are counted, each
once; what is looked up are exactly the recorded homes of the listed datasets; exactly these
homes are forgotten, and counted; and in none of this a relation changes.  A removal changes no
home, and a call that fails changes nothing. -/
theorem Visited.homes_refine_map (hvisited : Visited store)
    (hrequire : settings.requireKnownDatasets = false) (calls : List Call)
    (hpossible : ∀ call ∈ calls, call.Asks Operation.Possible) :
    Ledger.Run (ledgerOf store) (Call.answers settings store calls)
        (ledgerOf (calls.foldl (Call.after settings) store)) ∧
      (VisitedBy Operation.FullyChecked store →
        (∀ call ∈ calls, call.Asks Operation.FullyChecked) →
          ∀ call answer, (call, answer) ∈ Call.answers settings store calls →
            call.AboutHomes → ∀ failure, answer ≠ .failure failure) := by
  constructor
  · induction calls generalizing store with
    | nil => exact .nil
    | cons call rest ih =>
        obtain ⟨hcall, hrest⟩ := List.forall_mem_cons.1 hpossible
        exact .cons (step_of_call hvisited.indexed hrequire hcall)
          (ih (VisitedBy.call hvisited settings hcall) hrest)
  · intro hchecked hcalls call answer hanswer habout failure
    exact hchecked.answers_succeed hrequire hcalls hanswer habout failure

/-- One home is recorded, the other datasets of the lists have none, and some are listed
twice. -/
theorem homes_refine_map_of_repetitions :
    ∃ store last, Visited store ∧ store.homes.entries = [(.numbered 1, "ga")] ∧
      Ledger.Run (ledgerOf store)
        [(.operation (.setHome "de" [.numbered 1, .numbered 2, .numbered 2] false), .count 1),
          (.operation (.setHome "de" [.numbered 1, .numbered 2, .numbered 1] true), .count 1),
          (.getHomes [.numbered 2, .numbered 3, .numbered 2],
            .homes (.ofList [(.numbered 2, "de")])),
          (.operation (.clearHome [.numbered 2, .numbered 2, .numbered 3]), .count 1)]
        (ledgerOf last) ∧
      last.homes.entries = [(.numbered 1, "de")] ∧
      last.relations = [⟨"nbar", .numbered 1, .numbered 2⟩] := by
  let seed : Snapshot :=
    { homes := .ofList [(.numbered 1, "ga")]
      relations := [⟨"nbar", .numbered 1, .numbered 2⟩] }
  have hvisited : Visited _ := .seeded seed rfl
  have hrun := @Visited.homes_refine_map _ {} hvisited rfl
    [.operation (.setHome "de" [.numbered 1, .numbered 2, .numbered 2] false),
      .operation (.setHome "de" [.numbered 1, .numbered 2, .numbered 1] true),
      .getHomes [.numbered 2, .numbered 3, .numbered 2],
      .operation (.clearHome [.numbered 2, .numbered 2, .numbered 3])]
    (by simp [Call.Asks, Operation.Possible])
  exact ⟨_, _, hvisited, rfl, hrun.1, rfl, rfl⟩

/-- Homes can neither be given to a dataset on a stored cycle nor looked up. -/
theorem homes_refine_map_fails_on_cycle :
    Visited tangled ∧
      (∃ failure, setHome {} "ga" [.numbered 1] false tangled = .error failure tangled) ∧
      ∃ failure, getHomes [.numbered 1] tangled = .error failure := by
  have hcyclic : ¬ Acyclic (edgesOf (tangled.touching [.numbered 1])) := by
    intro hacyclic
    apply not_acyclic_tangled
    apply hacyclic.mono
    rintro edge ⟨relation, hmem, rfl⟩
    apply Relation.edge_mem_edgesOf
    apply List.mem_filter.2 ⟨hmem, _⟩
    simpa using ends_of_tangled relation hmem
  cases hfetched : tangled.fetch [.numbered 1] with
  | ok existing =>
      exact absurd (visited_tangled.indexed.fetch_succeeds_iff.1 ⟨existing, hfetched⟩) hcyclic
  | error reason =>
      refine ⟨visited_tangled, ⟨reason, setHome_eq_error rfl hfetched "ga" false⟩, reason, ?_⟩
      rw [getHomes, hfetched]
      rfl

end Homes

end Index

end DatasetLineage
