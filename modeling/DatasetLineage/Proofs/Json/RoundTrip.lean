import DatasetLineage.Json.Reader
import DatasetLineage.Proofs.Json.Tokens
import Mathlib.Data.String.Basic

/-!
# Reading a written value

A value of texts, arrays and objects is put together again from its tokens, on top of whatever
containers are part way through, as long as they are not too many.  So a written value is read
exactly if it does not have too many containers inside each other, and else it is refused.  What
is read differs from what was written in nothing but the places of the fields of objects, and a
value with all fields at their places is read as it was written.
-/

namespace DatasetLineage

namespace Json

mutual

def nesting : Json → Nat
  | .array items => itemsNesting items + 1
  | .object fields => fieldsNesting fields + 1
  | _ => 0

def itemsNesting : List Json → Nat
  | [] => 0
  | item :: rest => max (nesting item) (itemsNesting rest)

def fieldsNesting : List (String × Json) → Nat
  | [] => 0
  | (_, value) :: rest => max (nesting value) (fieldsNesting rest)

end

theorem itemsNesting_le_iff {items : List Json} {bound : Nat} :
    itemsNesting items ≤ bound ↔ ∀ item ∈ items, item.nesting ≤ bound := by
  induction items with
  | nil => simp [itemsNesting]
  | cons item rest ih => rw [itemsNesting, Nat.max_le, ih, List.forall_mem_cons]

theorem fieldsNesting_le_iff {fields : List (String × Json)} {bound : Nat} :
    fieldsNesting fields ≤ bound ↔ ∀ field ∈ fields, field.2.nesting ≤ bound := by
  induction fields with
  | nil => simp [fieldsNesting]
  | cons field rest ih =>
      obtain ⟨name, value⟩ := field
      rw [fieldsNesting, Nat.max_le, ih, List.forall_mem_cons]

mutual

/-- A value with the fields of its objects at their places. -/
def arranged : Json → Json
  | .array items => .array (arrangedItems items)
  | .object fields => .object (arrangedFields [] fields)
  | value => value

def arrangedItems : List Json → List Json
  | [] => []
  | item :: rest => arranged item :: arrangedItems rest

def arrangedFields (read : List (String × Json)) :
    List (String × Json) → List (String × Json)
  | [] => read
  | (name, value) :: rest => arrangedFields (putField name (arranged value) read) rest

end

theorem arrangedItems_eq_map (items : List Json) : arrangedItems items = items.map arranged := by
  induction items with
  | nil => rfl
  | cons item rest ih => rw [arrangedItems, ih, List.map_cons]

/-- A field that comes behind others in ascending order is put behind them. -/
theorem putField_of_ascending {name : String} {value : Json}
    {fields rest : List (String × Json)}
    (hnames : (fields ++ (name, value) :: rest).Pairwise fun left right => left.1 < right.1) :
    putField name value fields = fields ++ [(name, value)] := by
  induction fields with
  | nil => rfl
  | cons field others ih =>
      obtain ⟨hfirst, hothers⟩ := List.pairwise_cons.1 hnames
      have hless : field.1 < name := hfirst (name, value) (by simp)
      rw [putField, if_neg (lt_asymm hless), if_neg (ne_of_gt hless), ih hothers,
        List.cons_append]

theorem arrangedFields_of_ascending {fields : List (String × Json)}
    (hvalues : ∀ field ∈ fields, field.2.arranged = field.2) (read : List (String × Json))
    (hnames : (read ++ fields).Pairwise fun left right => left.1 < right.1) :
    arrangedFields read fields = read ++ fields := by
  induction fields generalizing read with
  | nil => rw [arrangedFields, List.append_nil]
  | cons field rest ih =>
      obtain ⟨name, value⟩ := field
      obtain ⟨hvalue, hrest⟩ := List.forall_mem_cons.1 hvalues
      have hbehind : read ++ (name, value) :: rest = (read ++ [(name, value)]) ++ rest := by
        rw [List.append_assoc, List.singleton_append]
      rw [arrangedFields, hvalue, putField_of_ascending hnames]
      rw [hbehind] at hnames ⊢
      exact ih hrest _ hnames

/-- Where all fields are at their places, there is nothing to arrange. -/
theorem Canonical.arranged_eq {value : Json} (hvalue : Canonical value) :
    value.arranged = value := by
  induction hvalue with
  | text value => rfl
  | @array items _ ih =>
      have hitems : items.map arranged = items := (List.map_congr_left ih).trans items.map_id'
      rw [arranged, arrangedItems_eq_map, hitems]
  | object hnames _ ih => rw [arranged, arrangedFields_of_ascending ih [] hnames, List.nil_append]

section Reading

variable {limit : Nat} {frames : List Frame} {more : List Token}

def take? (limit : Nat) (reading : Reading) (tokens : List Token) : Option Reading :=
  tokens.foldlM (Reading.step? limit) reading

theorem take?_cons (reading : Reading) (token : Token) :
    take? limit reading (token :: more) =
      (reading.step? limit token).bind fun next => take? limit next more := by
  rw [take?, List.foldlM_cons]
  rfl

theorem take?_append (reading : Reading) (tokens : List Token) :
    take? limit reading (tokens ++ more) =
      (take? limit reading tokens).bind fun next => take? limit next more := by
  rw [take?, List.foldlM_append]
  rfl

/-- The tokens of a value are read as the value, arranged, if there is room for its containers.
The room is looked at only where a container starts, so the containers around have to fit as they
are. -/
def Reads (limit : Nat) (value : Json) : Prop :=
  ∀ frames : List Frame, frames.length ≤ limit → take? limit (.value frames) value.tokens =
    if frames.length + value.nesting ≤ limit then some (.after value.arranged frames) else none

theorem Reads.take?_append {value : Json} (hreads : Reads limit value)
    (hframes : frames.length ≤ limit) :
    take? limit (.value frames) (value.tokens ++ more) =
      if frames.length + value.nesting ≤ limit then take? limit (.after value.arranged frames) more
      else none := by
  rw [Json.take?_append, hreads frames hframes]
  split <;> rfl

/-- There is room for one part after the other if there is room for the one that needs most. -/
theorem if_room_twice {α : Type} {depth first others : Nat} {result : Option α} :
    (if depth + first ≤ limit then if depth + others ≤ limit then result else none else none) =
      if depth + max first others ≤ limit then result else none := by
  rw [← ite_and]
  exact if_congr (by omega) rfl rfl

/-- The items of an array are read behind those that were read before, which are in reverse. -/
theorem take?_items (hframes : frames.length < limit) :
    ∀ {items : List Json} (read : List Json), items ≠ [] → (∀ item ∈ items, Reads limit item) →
      take? limit (.value (.array read :: frames)) (itemTokens items ++ [.arrayEnd]) =
        if frames.length + 1 + itemsNesting items ≤ limit then
          some (.after (.array (read.reverse ++ arrangedItems items)) frames)
        else none
  | [], _, hitems, _ => absurd rfl hitems
  | [item], read, _, hreads => by
      have hinside : (Frame.array read :: frames).length ≤ limit := hframes
      rw [itemTokens, (hreads item List.mem_cons_self).take?_append hinside, itemsNesting,
        itemsNesting, Nat.max_zero, arrangedItems, arrangedItems, ← List.reverse_cons]
      rfl
  | item :: next :: rest, read, _, hreads => by
      have hinside : (Frame.array read :: frames).length ≤ limit := hframes
      obtain ⟨hitem, hrest⟩ := List.forall_mem_cons.1 hreads
      calc take? limit (.value (.array read :: frames))
            (itemTokens (item :: next :: rest) ++ [.arrayEnd])
        _ = take? limit (.value (.array read :: frames))
              (item.tokens ++ .comma :: (itemTokens (next :: rest) ++ [.arrayEnd])) := by
            rw [← List.cons_append, ← List.append_assoc]
            rfl
        _ = if frames.length + 1 + item.nesting ≤ limit then
              take? limit (.value (.array (item.arranged :: read) :: frames))
                (itemTokens (next :: rest) ++ [.arrayEnd])
            else none := hitem.take?_append hinside
        _ = if frames.length + 1 + max item.nesting (itemsNesting (next :: rest)) ≤ limit then
              some (.after (.array
                ((item.arranged :: read).reverse ++ arrangedItems (next :: rest))) frames)
            else none := by
            rw [take?_items hframes _ (List.cons_ne_nil next rest) hrest, if_room_twice]
        _ = _ := by
            rw [List.reverse_cons, List.append_assoc, List.singleton_append]
            rfl

/-- The fields of an object are put at their places among those that were read before. -/
theorem take?_fields (hframes : frames.length < limit) :
    ∀ {fields : List (String × Json)} (read : List (String × Json)), fields ≠ [] →
      (∀ field ∈ fields, Reads limit field.2) →
      take? limit (.name read frames) (fieldTokens fields ++ [.objectEnd]) =
        if frames.length + 1 + fieldsNesting fields ≤ limit then
          some (.after (.object (arrangedFields read fields)) frames)
        else none
  | [], _, hfields, _ => absurd rfl hfields
  | [(name, value)], read, _, hreads => by
      have hinside : (Frame.object read name :: frames).length ≤ limit := hframes
      have hvalue : Reads limit value := hreads (name, value) List.mem_cons_self
      calc take? limit (.name read frames) (fieldTokens [(name, value)] ++ [.objectEnd])
        _ = take? limit (.value (.object read name :: frames)) (value.tokens ++ [.objectEnd]) :=
            rfl
        _ = if frames.length + 1 + value.nesting ≤ limit then
              some (.after (.object (putField name value.arranged read)) frames)
            else none := hvalue.take?_append hinside
        _ = _ := by
            rw [arrangedFields, arrangedFields, fieldsNesting, fieldsNesting, Nat.max_zero]
  | (name, value) :: next :: rest, read, _, hreads => by
      have hinside : (Frame.object read name :: frames).length ≤ limit := hframes
      obtain ⟨hvalue, hrest⟩ := List.forall_mem_cons.1 hreads
      calc take? limit (.name read frames)
            (fieldTokens ((name, value) :: next :: rest) ++ [.objectEnd])
        _ = take? limit (.value (.object read name :: frames))
              (value.tokens ++ .comma :: (fieldTokens (next :: rest) ++ [.objectEnd])) := by
            rw [← List.cons_append, ← List.append_assoc]
            rfl
        _ = if frames.length + 1 + value.nesting ≤ limit then
              take? limit (.name (putField name value.arranged read) frames)
                (fieldTokens (next :: rest) ++ [.objectEnd])
            else none := hvalue.take?_append hinside
        _ = _ := by
            rw [take?_fields hframes _ (List.cons_ne_nil next rest) hrest, if_room_twice]
            rfl

theorem take?_arrayStart :
    take? limit (.value frames) (.arrayStart :: more) =
      if frames.length < limit then take? limit (.itemOrEnd frames) more else none := by
  rw [take?_cons, Reading.step?, Reading.startValue?]
  split <;> rfl

theorem take?_objectStart :
    take? limit (.value frames) (.objectStart :: more) =
      if frames.length < limit then take? limit (.nameOrEnd frames) more else none := by
  rw [take?_cons, Reading.step?, Reading.startValue?]
  split <;> rfl

/-- The first token of an item does not end the array. -/
theorem take?_itemOrEnd (item : Json) (rest : List Json) :
    take? limit (.itemOrEnd frames) (itemTokens (item :: rest) ++ more) =
      take? limit (.value (.array [] :: frames)) (itemTokens (item :: rest) ++ more) := by
  cases rest <;> cases item <;> rfl

theorem take?_nameOrEnd (field : String × Json) (rest : List (String × Json)) :
    take? limit (.nameOrEnd frames) (fieldTokens (field :: rest) ++ more) =
      take? limit (.name [] frames) (fieldTokens (field :: rest) ++ more) := by
  cases rest <;> rfl

/-- The tokens of a value are read as the value, on top of any containers. -/
theorem Textual.reads {value : Json} (hvalue : Textual value) : Reads limit value := by
  induction hvalue with
  | text value =>
      intro frames hframes
      exact (if_pos hframes).symm
  | @array items _ ih =>
      intro frames hframes
      rw [tokens, List.cons_append, take?_arrayStart, nesting]
      by_cases hroom : frames.length < limit
      · rw [if_pos hroom]
        cases items with
        | nil => exact (if_pos hroom).symm
        | cons item rest =>
            rw [take?_itemOrEnd, take?_items hroom [] (List.cons_ne_nil item rest) ih]
            exact if_congr (by omega) rfl rfl
      · rw [if_neg hroom, if_neg (by omega)]
  | @object fields _ ih =>
      intro frames hframes
      rw [tokens, List.cons_append, take?_objectStart, nesting]
      by_cases hroom : frames.length < limit
      · rw [if_pos hroom]
        cases fields with
        | nil => exact (if_pos hroom).symm
        | cons field rest =>
            rw [take?_nameOrEnd, take?_fields hroom [] (List.cons_ne_nil field rest) ih]
            exact if_congr (by omega) rfl rfl
      · rw [if_neg hroom, if_neg (by omega)]

end Reading

/-! ## Values and their texts -/

theorem Textual.ofChars?_eq {value : Json} (hvalue : Textual value) {chars : List Char}
    (hscans : Scans chars value.tokens) (limit : Nat) :
    ofChars? limit chars = if value.nesting ≤ limit then some value.arranged else none := by
  have hread : take? limit (.value []) value.tokens =
      if 0 + value.nesting ≤ limit then some (.after value.arranged []) else none :=
    hvalue.reads [] (Nat.zero_le limit)
  rw [Nat.zero_add] at hread
  rw [ofChars?, hscans.tokens?_eq]
  change (take? limit (.value []) value.tokens).bind Reading.finish? = _
  rw [hread]
  split <;> rfl

/-- The text of a value on one line is read as the value, unless it has too many containers
inside each other. -/
theorem Textual.ofText?_compact {value : Json} (hvalue : Textual value) :
    ofText? value.compact =
      if value.nesting ≤ documentNesting then some value.arranged else none := by
  rw [ofText?, compact, String.toList_ofList, hvalue.ofChars?_eq hvalue.scans_compactChars]

/-- So is the text of the value on several lines. -/
theorem Textual.ofText?_pretty {value : Json} (hvalue : Textual value) :
    ofText? value.pretty =
      if value.nesting ≤ documentNesting then some value.arranged else none := by
  rw [ofText?, pretty, String.toList_ofList, hvalue.ofChars?_eq (hvalue.scans_prettyChars 0)]

end Json

end DatasetLineage
