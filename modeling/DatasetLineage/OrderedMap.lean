/-!
# Ordered maps

A finite map kept as a list of entries with strictly ascending keys.  Keys are
compared through an injective rank in the natural numbers, so a map has exactly
one representation: two maps with the same lookups are equal.
-/

namespace DatasetLineage

/-- Keys that can be put in order by an injective natural number. -/
class Ranked (Key : Type) where
  rank : Key → Nat
  rank_injective : ∀ {left right : Key}, rank left = rank right → left = right

export Ranked (rank)

theorem rank_eq_iff {Key : Type} [Ranked Key] {left right : Key} :
    rank left = rank right ↔ left = right :=
  ⟨Ranked.rank_injective, fun heq => heq ▸ rfl⟩

def Ascending {Key Value : Type} [Ranked Key] (entries : List (Key × Value)) : Prop :=
  entries.Pairwise fun left right => rank left.1 < rank right.1

/-- A finite map with its entries in ascending order of their keys. -/
structure OrderedMap (Key Value : Type) [Ranked Key] where
  entries : List (Key × Value)
  ascending : Ascending entries

namespace OrderedMap

variable {Key Value : Type} [Ranked Key]

instance [DecidableEq Key] [DecidableEq Value] : DecidableEq (OrderedMap Key Value) :=
  fun left right =>
    if heq : left.entries = right.entries then
      .isTrue (by cases left; cases right; simp_all)
    else .isFalse fun h => heq (h ▸ rfl)

def empty : OrderedMap Key Value := ⟨[], .nil⟩

instance : EmptyCollection (OrderedMap Key Value) := ⟨empty⟩
instance : Inhabited (OrderedMap Key Value) := ⟨empty⟩

/-- The value of a key in a list of entries: the first one found. -/
def lookupEntry (key : Key) : List (Key × Value) → Option Value
  | [] => none
  | (other, value) :: rest =>
      if rank other = rank key then some value else lookupEntry key rest

/-- Put an entry at its place, replacing an entry with the same key. -/
def insertEntry (key : Key) (value : Value) :
    List (Key × Value) → List (Key × Value)
  | [] => [(key, value)]
  | (other, old) :: rest =>
      if rank key < rank other then (key, value) :: (other, old) :: rest
      else if rank key = rank other then (key, value) :: rest
      else (other, old) :: insertEntry key value rest

theorem mem_insertEntry {key : Key} {value : Value} {entry : Key × Value}
    {entries : List (Key × Value)} (hmem : entry ∈ insertEntry key value entries) :
    entry = (key, value) ∨ entry ∈ entries := by
  induction entries with
  | nil => simpa [insertEntry] using hmem
  | cons head rest ih =>
      obtain ⟨other, old⟩ := head
      rw [insertEntry] at hmem
      split at hmem
      · simpa using hmem
      · split at hmem
        · rcases List.mem_cons.1 hmem with heq | hrest
          · exact .inl heq
          · exact .inr (List.mem_cons_of_mem _ hrest)
        · rcases List.mem_cons.1 hmem with heq | hrest
          · exact .inr (heq ▸ List.mem_cons_self)
          · rcases ih hrest with heq | hold
            · exact .inl heq
            · exact .inr (List.mem_cons_of_mem _ hold)

theorem ascending_insertEntry (key : Key) (value : Value)
    {entries : List (Key × Value)} (hascending : Ascending entries) :
    Ascending (insertEntry key value entries) := by
  induction entries with
  | nil => exact List.pairwise_singleton _ _
  | cons head rest ih =>
      obtain ⟨other, old⟩ := head
      have hhead := (List.pairwise_cons.1 hascending).1
      have hrest := (List.pairwise_cons.1 hascending).2
      rw [insertEntry]
      split
      · next hlt =>
          refine List.pairwise_cons.2 ⟨fun entry hmem => ?_, hascending⟩
          rcases List.mem_cons.1 hmem with heq | htail
          · exact heq ▸ hlt
          · exact Nat.lt_trans hlt (hhead entry htail)
      · split
        · next heq =>
            refine List.pairwise_cons.2 ⟨fun entry hmem => ?_, hrest⟩
            have := hhead entry hmem
            simp only at this ⊢
            omega
        · refine List.pairwise_cons.2 ⟨fun entry hmem => ?_, ih hrest⟩
          rcases mem_insertEntry hmem with heq | hold
          · subst heq
            simp only
            omega
          · exact hhead entry hold

def get? (map : OrderedMap Key Value) (key : Key) : Option Value :=
  lookupEntry key map.entries

def contains (map : OrderedMap Key Value) (key : Key) : Bool :=
  (map.get? key).isSome

def insert (map : OrderedMap Key Value) (key : Key) (value : Value) :
    OrderedMap Key Value :=
  ⟨insertEntry key value map.entries, ascending_insertEntry key value map.ascending⟩

def erase (map : OrderedMap Key Value) (key : Key) : OrderedMap Key Value :=
  ⟨map.entries.filter fun entry => rank entry.1 != rank key,
    map.ascending.sublist List.filter_sublist⟩

def keys (map : OrderedMap Key Value) : List Key :=
  map.entries.map (·.1)

def isEmpty (map : OrderedMap Key Value) : Bool :=
  map.entries.isEmpty

def size (map : OrderedMap Key Value) : Nat :=
  map.entries.length

/-- The map of a list of entries; of two entries with one key the later counts. -/
def ofList (entries : List (Key × Value)) : OrderedMap Key Value :=
  entries.foldl (fun map entry => map.insert entry.1 entry.2) empty

/-- `left` overridden by the entries of `right`. -/
def override (left right : OrderedMap Key Value) : OrderedMap Key Value :=
  right.entries.foldl (fun map entry => map.insert entry.1 entry.2) left

@[simp]
theorem get?_empty (key : Key) : (empty : OrderedMap Key Value).get? key = none := rfl

theorem lookupEntry_insertEntry (key other : Key) (value : Value)
    (entries : List (Key × Value)) :
    lookupEntry other (insertEntry key value entries) =
      if rank key = rank other then some value else lookupEntry other entries := by
  induction entries with
  | nil => rfl
  | cons head rest ih =>
      obtain ⟨first, old⟩ := head
      rw [insertEntry]
      split
      · rfl
      · split
        · next heq =>
            simp only [lookupEntry, heq]
            split <;> rfl
        · next hne =>
            simp only [lookupEntry, ih]
            split
            · next hfirst =>
                rw [if_neg]
                omega
            · rfl

theorem get?_insert (map : OrderedMap Key Value) (key other : Key) (value : Value) :
    (map.insert key value).get? other =
      if rank key = rank other then some value else map.get? other :=
  lookupEntry_insertEntry key other value map.entries

@[simp]
theorem get?_insert_self (map : OrderedMap Key Value) (key : Key) (value : Value) :
    (map.insert key value).get? key = some value := by
  simp [get?_insert]

theorem get?_insert_of_ne (map : OrderedMap Key Value) {key other : Key} (value : Value)
    (hne : key ≠ other) : (map.insert key value).get? other = map.get? other := by
  rw [get?_insert, if_neg fun heq => hne (rank_eq_iff.1 heq)]

theorem lookupEntry_eq_some_iff {key : Key} {value : Value} {entries : List (Key × Value)}
    (hascending : Ascending entries) :
    lookupEntry key entries = some value ↔ (key, value) ∈ entries := by
  induction entries with
  | nil => simp [lookupEntry]
  | cons head rest ih =>
      obtain ⟨other, old⟩ := head
      have hhead := (List.pairwise_cons.1 hascending).1
      have hrest := (List.pairwise_cons.1 hascending).2
      rw [lookupEntry, List.mem_cons]
      split
      · next heq =>
          have hkey : other = key := rank_eq_iff.1 heq
          subst hkey
          constructor
          · intro h
            exact .inl (by simpa using h.symm)
          · rintro (h | h)
            · simpa using h.symm
            · exact absurd (hhead _ h) (Nat.lt_irrefl _)
      · next hne =>
          rw [ih hrest]
          constructor
          · exact .inr
          · rintro (h | h)
            · exact absurd (by simp_all) hne
            · exact h

theorem get?_eq_some_iff {map : OrderedMap Key Value} {key : Key} {value : Value} :
    map.get? key = some value ↔ (key, value) ∈ map.entries :=
  lookupEntry_eq_some_iff map.ascending

theorem contains_iff_mem_keys {map : OrderedMap Key Value} {key : Key} :
    map.contains key = true ↔ key ∈ map.keys := by
  rw [contains, Option.isSome_iff_exists, keys, List.mem_map]
  constructor
  · rintro ⟨value, hvalue⟩
    exact ⟨(key, value), get?_eq_some_iff.1 hvalue, rfl⟩
  · rintro ⟨⟨_, value⟩, hmem, rfl⟩
    exact ⟨value, get?_eq_some_iff.2 hmem⟩

end OrderedMap

end DatasetLineage
