import DatasetLineage.OrderedMap
import Mathlib.Data.Finset.Dedup
import Mathlib.Data.Finset.Card
import Mathlib.Data.List.Perm.Lattice
import Mathlib.Data.List.Pairwise

/-!
# Laws of ordered maps

A map is determined by its lookups, and overriding a map looks first into the
overriding one.  What is found for the keys of a list makes up a map, with one entry
for each key however often it is listed.
-/

namespace DatasetLineage

namespace OrderedMap

variable {Key Value : Type} [Ranked Key]

theorem nodup_entries (map : OrderedMap Key Value) : map.entries.Nodup :=
  map.ascending.imp fun hlt heq => by
    rw [heq] at hlt
    exact Nat.lt_irrefl _ hlt

/-- Two maps with the same lookups are one map. -/
theorem ext {left right : OrderedMap Key Value}
    (hlookup : ∀ key, left.get? key = right.get? key) : left = right := by
  have hmem : ∀ entry, entry ∈ left.entries ↔ entry ∈ right.entries := by
    intro ⟨key, value⟩
    rw [← get?_eq_some_iff, ← get?_eq_some_iff, hlookup]
  have hperm : left.entries.Perm right.entries :=
    (List.perm_ext_iff_of_nodup left.nodup_entries right.nodup_entries).2 hmem
  have hentries : left.entries = right.entries :=
    hperm.eq_of_pairwise (fun _ _ _ _ hlt hgt => absurd hgt (Nat.lt_asymm hlt))
      left.ascending right.ascending
  cases left
  cases right
  cases hentries
  rfl

theorem ext_some {left right : OrderedMap Key Value}
    (hlookup : ∀ key value, left.get? key = some value ↔ right.get? key = some value) :
    left = right := by
  apply ext
  intro key
  apply Option.ext
  exact hlookup key

theorem contains_eq_true {map : OrderedMap Key Value} {key : Key} :
    map.contains key = true ↔ ∃ value, map.get? key = some value := by
  rw [contains, Option.isSome_iff_exists]

theorem contains_eq_false {map : OrderedMap Key Value} {key : Key} :
    map.contains key = false ↔ map.get? key = none := by
  rw [contains, Option.isSome_eq_false_iff, Option.isNone_iff_eq_none]

/-- Two sets of keys with the same members are one set. -/
theorem ext_contains {left right : OrderedMap Key Unit}
    (hmembers : ∀ key, left.contains key = true ↔ right.contains key = true) : left = right := by
  apply ext_some
  intro key value
  have hlookup : ∀ keys : OrderedMap Key Unit,
      keys.get? key = some value ↔ keys.contains key = true := by
    intro keys
    rw [contains_eq_true]
    exact ⟨fun hvalue => ⟨value, hvalue⟩, fun ⟨_, hvalue⟩ => hvalue⟩
  rw [hlookup, hlookup, hmembers]

theorem lookupEntry_eq_none {key : Key} {entries : List (Key × Value)}
    (habsent : ∀ entry ∈ entries, entry.1 ≠ key) : lookupEntry key entries = none := by
  induction entries with
  | nil => rfl
  | cons head rest ih =>
      obtain ⟨other, value⟩ := head
      have hhead : other ≠ key := habsent _ List.mem_cons_self
      rw [lookupEntry, if_neg fun hrank => hhead (rank_eq_iff.1 hrank)]
      exact ih fun entry hentry => habsent entry (List.mem_cons_of_mem _ hentry)

theorem distinct_of_ascending {entries : List (Key × Value)} (hascending : Ascending entries) :
    (entries.map Prod.fst).Nodup := by
  refine List.pairwise_map.2 (hascending.imp ?_)
  intro left right hlt heq
  rw [heq] at hlt
  exact Nat.lt_irrefl _ hlt

theorem lookupEntry_eq_some_iff_of_distinct {key : Key} {value : Value}
    {entries : List (Key × Value)} (hdistinct : (entries.map Prod.fst).Nodup) :
    lookupEntry key entries = some value ↔ (key, value) ∈ entries := by
  induction entries with
  | nil => simp [lookupEntry]
  | cons head rest ih =>
      obtain ⟨other, old⟩ := head
      obtain ⟨hother, hrest⟩ := List.nodup_cons.1 hdistinct
      rw [lookupEntry, List.mem_cons, Prod.mk.injEq]
      by_cases hrank : rank other = rank key
      · have hkey : other = key := rank_eq_iff.1 hrank
        subst hkey
        have habsent : (other, value) ∉ rest := fun hmem =>
          hother (List.mem_map.2 ⟨_, hmem, rfl⟩)
        rw [if_pos hrank]
        simp [habsent, eq_comm]
      · have hne : key ≠ other := fun heq => hrank (heq ▸ rfl)
        rw [if_neg hrank, ih hrest]
        simp [hne]

theorem get?_foldl_insert {entries : List (Key × Value)}
    (hdistinct : (entries.map Prod.fst).Nodup) (map : OrderedMap Key Value) (key : Key) :
    (entries.foldl (fun map entry => map.insert entry.1 entry.2) map).get? key =
      (lookupEntry key entries).or (map.get? key) := by
  induction entries generalizing map with
  | nil => rfl
  | cons head rest ih =>
      obtain ⟨other, value⟩ := head
      obtain ⟨hother, hrest⟩ := List.nodup_cons.1 hdistinct
      rw [List.foldl_cons, ih hrest, get?_insert, lookupEntry]
      by_cases hrank : rank other = rank key
      · have habsent : lookupEntry key rest = none := by
          apply lookupEntry_eq_none
          intro entry hentry heq
          have hkey : entry.1 = other := heq.trans (rank_eq_iff.1 hrank).symm
          exact hother (List.mem_map.2 ⟨entry, hentry, hkey⟩)
        rw [if_pos hrank, if_pos hrank, habsent]
        rfl
      · rw [if_neg hrank, if_neg hrank]

/-- A map is made again from its entries in any order. -/
theorem ofList_of_perm {entries : List (Key × Value)} {map : OrderedMap Key Value}
    (hperm : entries.Perm map.entries) : ofList entries = map := by
  have hdistinct : (entries.map Prod.fst).Nodup :=
    (hperm.map Prod.fst).nodup_iff.2 (distinct_of_ascending map.ascending)
  apply ext_some
  intro key value
  rw [ofList, get?_foldl_insert hdistinct, get?_empty, Option.or_none,
    lookupEntry_eq_some_iff_of_distinct hdistinct, hperm.mem_iff, get?_eq_some_iff]

theorem get?_override (left right : OrderedMap Key Value) (key : Key) :
    (left.override right).get? key = (right.get? key).or (left.get? key) :=
  get?_foldl_insert (distinct_of_ascending right.ascending) left key

theorem contains_override {left right : OrderedMap Key Value} {key : Key} :
    (left.override right).contains key = true ↔
      left.contains key = true ∨ right.contains key = true := by
  simp only [contains, get?_override, Option.isSome_or, Bool.or_eq_true, or_comm]

/-- The entries of a map that are kept, made into a map again. -/
theorem get?_ofList_filter (map : OrderedMap Key Value) (keep : Key × Value → Bool) (key : Key) :
    (ofList (map.entries.filter keep)).get? key =
      (map.get? key).filter fun value => keep (key, value) := by
  have hascending : Ascending (map.entries.filter keep) :=
    map.ascending.sublist List.filter_sublist
  apply Option.ext
  intro value
  rw [ofList, get?_foldl_insert (distinct_of_ascending hascending), get?_empty, Option.or_none,
    lookupEntry_eq_some_iff hascending, List.mem_filter, ← get?_eq_some_iff,
    Option.filter_eq_some_iff]

theorem get?_erase (map : OrderedMap Key Value) (key other : Key) :
    (map.erase key).get? other = if rank key = rank other then none else map.get? other := by
  apply Option.ext
  intro value
  rw [get?_eq_some_iff, erase, List.mem_filter, ← get?_eq_some_iff]
  by_cases hrank : rank key = rank other
  · simp [hrank]
  · simp [hrank, Ne.symm hrank]

section Found

variable [DecidableEq Key]

/-- The size of a map is the number of its keys. -/
theorem size_eq_card {map : OrderedMap Key Value} {keys : Finset Key}
    (hkeys : ∀ key, key ∈ keys ↔ ∃ value, map.get? key = some value) : map.size = keys.card := by
  have hnodup : map.keys.Nodup := distinct_of_ascending map.ascending
  have hsame : map.keys.toFinset = keys := by
    ext key
    rw [List.mem_toFinset, ← contains_iff_mem_keys, contains_eq_true, hkeys]
  rw [← hsame, List.toFinset_card_of_nodup hnodup, OrderedMap.keys, List.length_map, size]

/-- What is found for some keys, put into a map one after the other. -/
def collect (find : Key → Option Value) (map : OrderedMap Key Value) (keys : List Key) :
    OrderedMap Key Value :=
  keys.foldl
    (fun map key =>
      match find key with
      | some value => map.insert key value
      | none => map)
    map

theorem get?_collect (find : Key → Option Value) (map : OrderedMap Key Value) (keys : List Key)
    (key : Key) :
    (collect find map keys).get? key =
      (if key ∈ keys then find key else none).or (map.get? key) := by
  induction keys generalizing map with
  | nil => simp [collect]
  | cons head rest ih =>
      rw [collect, List.foldl_cons]
      refine (ih _).trans ?_
      by_cases heq : head = key
      · subst heq
        cases hfound : find head <;> by_cases hmem : head ∈ rest <;> simp [hmem]
      · have hother : key ∈ head :: rest ↔ key ∈ rest := by simp [Ne.symm heq]
        simp only [hother]
        cases find head with
        | none => rfl
        | some value => rw [get?_insert_of_ne map value heq]

theorem contains_collect {find : Key → Option Value} {keys : List Key} {key : Key} :
    (collect find empty keys).contains key = true ↔ key ∈ keys ∧ (find key).isSome = true := by
  rw [contains, get?_collect, get?_empty, Option.or_none]
  by_cases hmem : key ∈ keys <;> simp [hmem]

/-- As many entries are found as there are keys for which there is something to find. -/
theorem size_collect (find : Key → Option Value) (keys : List Key) :
    (collect find empty keys).size =
      (keys.toFinset.filter fun key => (find key).isSome).card := by
  apply size_eq_card
  intro key
  rw [← contains_eq_true, contains_collect, Finset.mem_filter, List.mem_toFinset]

def among (map : OrderedMap Key Value) (keys : List Key) : Finset Key :=
  keys.toFinset.filter fun key => (map.get? key).isSome

theorem mem_among {map : OrderedMap Key Value} {keys : List Key} {key : Key} :
    key ∈ map.among keys ↔ key ∈ keys ∧ map.contains key = true := by
  rw [among, Finset.mem_filter, List.mem_toFinset, contains]

/-- A key with an entry counts once, since its entry is gone once it is erased. -/
theorem card_among_cons (map : OrderedMap Key Value) (key : Key) (rest : List Key) :
    (map.among (key :: rest)).card =
      if map.contains key then ((map.erase key).among rest).card + 1
      else ((map.erase key).among rest).card := by
  have hgone : key ∉ (map.erase key).among rest := by
    simp [mem_among, contains, get?_erase]
  have hsplit : ∀ other, other ∈ map.among (key :: rest) ↔
      other = key ∧ map.contains key = true ∨ other ∈ (map.erase key).among rest := by
    intro other
    simp only [mem_among, List.mem_cons, contains, get?_erase, rank_eq_iff]
    by_cases heq : other = key
    · subst heq
      simp
    · simp [heq, Ne.symm heq]
  by_cases hcontains : map.contains key = true
  · rw [if_pos hcontains, ← Finset.card_insert_of_notMem hgone]
    congr 1
    ext other
    simp [hsplit, hcontains]
  · rw [if_neg hcontains]
    congr 1
    ext other
    simp [hsplit, hcontains]

end Found

end OrderedMap

end DatasetLineage
