import DatasetLineage.Json.Printer
import DatasetLineage.Json.Token
import Mathlib.Data.List.Basic

/-!
# The tokens of a written value

A value of texts, arrays and objects is written as its tokens, with blanks between them on
several lines and without any on one line.  Scanning either text gives these tokens.  Inside a
string the scan undoes the escape of one character after the other.
-/

namespace DatasetLineage

namespace Json

/-- A value of texts, arrays and objects. -/
inductive Textual : Json → Prop
  | text (value : String) : Textual (.text value)
  | array {items : List Json} : (∀ item ∈ items, Textual item) → Textual (.array items)
  | object {fields : List (String × Json)} :
      (∀ field ∈ fields, Textual field.2) → Textual (.object fields)

/-- A value of texts, arrays and objects, in which the fields of every object are in ascending
order of their names. -/
inductive Canonical : Json → Prop
  | text (value : String) : Canonical (.text value)
  | array {items : List Json} : (∀ item ∈ items, Canonical item) → Canonical (.array items)
  | object {fields : List (String × Json)} :
      (fields.Pairwise fun left right => left.1 < right.1) →
        (∀ field ∈ fields, Canonical field.2) → Canonical (.object fields)

theorem Canonical.textual {value : Json} (hvalue : Canonical value) : Textual value := by
  induction hvalue with
  | text value => exact .text value
  | array _ ih => exact .array ih
  | object _ _ ih => exact .object ih

mutual

def tokens : Json → List Token
  | .text value => [.text value]
  | .array items => .arrayStart :: itemTokens items ++ [.arrayEnd]
  | .object fields => .objectStart :: fieldTokens fields ++ [.objectEnd]
  | value => [.word value]

def itemTokens : List Json → List Token
  | [] => []
  | [item] => tokens item
  | item :: rest => tokens item ++ .comma :: itemTokens rest

def fieldTokens : List (String × Json) → List Token
  | [] => []
  | [(name, value)] => .text name :: .colon :: tokens value
  | (name, value) :: rest =>
      .text name :: .colon :: tokens value ++ .comma :: fieldTokens rest

end

/-! ## Inside a string -/

section Strings

variable {read : List Char} {done : List Token} {rest : List Char}

/-- A character that completes no token only changes the mode. -/
theorem tokensFrom?_cons {mode next : Mode} {c : Char} (hstep : mode.step? c = some ([], next)) :
    tokensFrom? mode done (c :: rest) = tokensFrom? next done rest := by
  rw [tokensFrom?, hstep]
  rfl

theorem hexValue?_digitChar {digit : Nat} (hdigit : digit < 16) :
    Text.hexValue? (Nat.digitChar digit) = some digit := by
  have hdigits : ∀ digit < 16, Text.hexValue? (Nat.digitChar digit) = some digit := by decide
  exact hdigits digit hdigit

/-- A digit of a code unit, up to the last one. -/
theorem step?_inUnit {missing unit digit : Nat} {c : Char} (hmissing : missing ≠ 1)
    (hdigit : Text.hexValue? c = some digit) :
    (Mode.inUnit read none missing unit).step? c =
      some ([], .inUnit read none (missing - 1) (unit * 16 + digit)) := by
  rw [Mode.step?, hdigit]
  exact if_neg hmissing

/-- The last digit of the code unit of a control character. -/
theorem step?_inUnit_last {c digit : Char} {low : Nat} (hcontrol : c.toNat < 0x20)
    (hdigit : Text.hexValue? digit = some low) {unit : Nat} (hcode : unit * 16 + low = c.toNat) :
    (Mode.inUnit read none 1 unit).step? digit = some ([], .inText (c :: read)) := by
  have hhigh : isHighUnit c.toNat = false := by simp [isHighUnit]; omega
  have hlow : isLowUnit c.toNat = false := by simp [isLowUnit]; omega
  have hend : endUnit? read none c.toNat = some (.inText (c :: read)) := by
    simp [endUnit?, hhigh, hlow]
  rw [Mode.step?, hdigit]
  change (endUnit? read none (unit * 16 + low)).map _ = _
  rw [hcode, hend]
  rfl

/-- A control character is read from the four digits of its code. -/
theorem tokensFrom?_control {c : Char} (hcontrol : c.toNat < 0x20) :
    tokensFrom? (.inText read) done ('\\' :: 'u' :: '0' :: '0' ::
        Nat.digitChar (c.toNat / 16) :: Nat.digitChar (c.toNat % 16) :: rest) =
      tokensFrom? (.inText (c :: read)) done rest := by
  have hhigh : Text.hexValue? (Nat.digitChar (c.toNat / 16)) = some (c.toNat / 16) :=
    hexValue?_digitChar (by omega)
  have hlow : Text.hexValue? (Nat.digitChar (c.toNat % 16)) = some (c.toNat % 16) :=
    hexValue?_digitChar (by omega)
  have hcode : (0 * 16 + c.toNat / 16) * 16 + c.toNat % 16 = c.toNat := by omega
  calc tokensFrom? (.inText read) done ('\\' :: 'u' :: '0' :: '0' ::
        Nat.digitChar (c.toNat / 16) :: Nat.digitChar (c.toNat % 16) :: rest)
    _ = tokensFrom? (.inUnit read none 2 0) done
          (Nat.digitChar (c.toNat / 16) :: Nat.digitChar (c.toNat % 16) :: rest) := rfl
    _ = tokensFrom? (.inUnit read none 1 (0 * 16 + c.toNat / 16)) done
          (Nat.digitChar (c.toNat % 16) :: rest) :=
        tokensFrom?_cons (step?_inUnit (by decide) hhigh)
    _ = tokensFrom? (.inText (c :: read)) done rest :=
        tokensFrom?_cons (step?_inUnit_last hcontrol hlow hcode)

/-- A written character is read as the character. -/
theorem tokensFrom?_escapeChar (c : Char) :
    tokensFrom? (.inText read) done (escapeChar c ++ rest) =
      tokensFrom? (.inText (c :: read)) done rest := by
  rw [escapeChar.eq_def]
  split
  · rfl
  · rfl
  · rfl
  · rfl
  · rfl
  · rfl
  · rfl
  · next hquote hbackslash _ _ _ _ _ =>
      split
      · next hcontrol => exact tokensFrom?_control hcontrol
      · next hprinted =>
          apply tokensFrom?_cons
          rw [Mode.step?, if_neg hquote, if_neg hbackslash, if_neg hprinted]

theorem tokensFrom?_escaped (chars read : List Char) :
    tokensFrom? (.inText read) done (chars.flatMap escapeChar ++ rest) =
      tokensFrom? (.inText (chars.reverse ++ read)) done rest := by
  induction chars generalizing read with
  | nil => rfl
  | cons c chars ih =>
      rw [List.flatMap_cons, List.append_assoc, tokensFrom?_escapeChar, ih, List.reverse_cons,
        List.append_assoc, List.singleton_append]

end Strings

/-! ## Between tokens -/

/-- Characters that are scanned as some tokens, whatever comes before and after them. -/
def Scans (chars : List Char) (tokens : List Token) : Prop :=
  ∀ done rest, tokensFrom? .between done (chars ++ rest) =
    tokensFrom? .between (tokens.reverse ++ done) rest

theorem scans_nil : Scans [] [] := fun _ _ => rfl

theorem Scans.append {first second : List Char} {tokens others : List Token}
    (hfirst : Scans first tokens) (hsecond : Scans second others) :
    Scans (first ++ second) (tokens ++ others) := by
  intro done rest
  rw [List.append_assoc, hfirst, hsecond, List.reverse_append, List.append_assoc]

/-- A character that stands for tokens on its own. -/
theorem scans_start {c : Char} {tokens : List Token}
    (hstart : startToken? c = some (tokens, .between)) : Scans [c] tokens := by
  intro done rest
  rw [List.singleton_append, tokensFrom?, Mode.step?, hstart]

theorem Scans.blank {c : Char} {chars : List Char} {tokens : List Token}
    (hchars : Scans chars tokens) (hblank : startToken? c = some ([], .between)) :
    Scans (c :: chars) tokens :=
  (scans_start hblank).append hchars

theorem Scans.mark {c : Char} {token : Token} {chars : List Char} {tokens : List Token}
    (hchars : Scans chars tokens) (hmark : startToken? c = some ([token], .between)) :
    Scans (c :: chars) (token :: tokens) :=
  (scans_start hmark).append hchars

theorem scans_lineStart (level : Nat) : Scans (lineStart level) [] := by
  have hblanks : ∀ count, Scans (List.replicate count ' ') [] := by
    intro count
    induction count with
    | zero => exact scans_nil
    | succ count ih => exact ih.blank rfl
  exact (hblanks _).blank rfl

theorem Scans.line {chars : List Char} {tokens : List Token} (hchars : Scans chars tokens)
    (level : Nat) : Scans (chars ++ lineStart level) tokens := by
  have hline := hchars.append (scans_lineStart level)
  rwa [List.append_nil] at hline

theorem scans_stringChars (text : String) : Scans (stringChars text) [.text text] := by
  intro done rest
  calc tokensFrom? .between done (stringChars text ++ rest)
    _ = tokensFrom? (.inText []) done (text.toList.flatMap escapeChar ++ ('"' :: rest)) := by
        rw [stringChars, List.append_assoc]
        rfl
    _ = tokensFrom? (.inText (text.toList.reverse ++ [])) done ('"' :: rest) :=
        tokensFrom?_escaped _ _
    _ = tokensFrom? .between (.text (String.ofList text.toList) :: done) rest := by
        rw [List.append_nil, tokensFrom?, Mode.step?, if_pos rfl, List.reverse_reverse]
        rfl
    _ = tokensFrom? .between ([.text text].reverse ++ done) rest := by
        rw [String.ofList_toList]
        rfl

/-! ## The tokens of both texts -/

theorem scans_compactItems :
    ∀ {items : List Json}, (∀ item ∈ items, Scans item.compactChars item.tokens) →
      Scans (compactItems items) (itemTokens items)
  | [], _ => scans_nil
  | [item], hitems => hitems item List.mem_cons_self
  | item :: next :: rest, hitems => by
      obtain ⟨hitem, hrest⟩ := List.forall_mem_cons.1 hitems
      exact hitem.append ((scans_compactItems hrest).mark rfl)

theorem scans_compactFields :
    ∀ {fields : List (String × Json)},
      (∀ field ∈ fields, Scans field.2.compactChars field.2.tokens) →
        Scans (compactFields fields) (fieldTokens fields)
  | [], _ => scans_nil
  | [(name, value)], hfields =>
      (scans_stringChars name).append ((hfields (name, value) List.mem_cons_self).mark rfl)
  | (name, value) :: next :: rest, hfields => by
      obtain ⟨hfield, hrest⟩ := List.forall_mem_cons.1 hfields
      exact ((scans_stringChars name).append (hfield.mark rfl)).append
        ((scans_compactFields hrest).mark rfl)

/-- The text of a value on one line consists of its tokens. -/
theorem Textual.scans_compactChars {value : Json} (hvalue : Textual value) :
    Scans value.compactChars value.tokens := by
  induction hvalue with
  | text value => exact scans_stringChars value
  | array _ ih => exact ((scans_compactItems ih).append (scans_start rfl)).mark rfl
  | object _ ih => exact ((scans_compactFields ih).append (scans_start rfl)).mark rfl

theorem scans_prettyItems (level : Nat) :
    ∀ {items : List Json}, (∀ item ∈ items, Scans (item.prettyChars level) item.tokens) →
      Scans (prettyItems level items) (itemTokens items)
  | [], _ => scans_nil
  | [item], hitems => (scans_lineStart level).append (hitems item List.mem_cons_self)
  | item :: next :: rest, hitems => by
      obtain ⟨hitem, hrest⟩ := List.forall_mem_cons.1 hitems
      exact ((scans_lineStart level).append hitem).append
        ((scans_prettyItems level hrest).mark rfl)

theorem scans_prettyFields (level : Nat) :
    ∀ {fields : List (String × Json)},
      (∀ field ∈ fields, Scans (field.2.prettyChars level) field.2.tokens) →
        Scans (prettyFields level fields) (fieldTokens fields)
  | [], _ => scans_nil
  | [(name, value)], hfields =>
      ((scans_lineStart level).append (scans_stringChars name)).append
        (((hfields (name, value) List.mem_cons_self).blank rfl).mark rfl)
  | (name, value) :: next :: rest, hfields => by
      obtain ⟨hfield, hrest⟩ := List.forall_mem_cons.1 hfields
      exact (((scans_lineStart level).append (scans_stringChars name)).append
        ((hfield.blank rfl).mark rfl)).append ((scans_prettyFields level hrest).mark rfl)

/-- The text of a value on several lines consists of its tokens as well. -/
theorem Textual.scans_prettyChars {value : Json} (hvalue : Textual value) (level : Nat) :
    Scans (value.prettyChars level) value.tokens := by
  induction hvalue generalizing level with
  | text value => exact scans_stringChars value
  | @array items _ ih =>
      cases items with
      | nil => exact (scans_start rfl).mark rfl
      | cons item rest =>
          have hitems := scans_prettyItems (level + 1) fun item hitem => ih item hitem (level + 1)
          exact ((hitems.line level).append (scans_start rfl)).mark rfl
  | @object fields _ ih =>
      cases fields with
      | nil => exact (scans_start rfl).mark rfl
      | cons field rest =>
          have hfields :=
            scans_prettyFields (level + 1) fun field hfield => ih field hfield (level + 1)
          exact ((hfields.line level).append (scans_start rfl)).mark rfl

/-- The tokens of a text that is scanned from its start to its end. -/
theorem Scans.tokens?_eq {chars : List Char} {tokens : List Token} (hscans : Scans chars tokens) :
    tokens? chars = some tokens := by
  have hall := hscans [] []
  rw [List.append_nil, List.append_nil] at hall
  rw [tokens?, hall, tokensFrom?, Mode.finish?, Option.map_some, List.reverse_reverse,
    List.append_nil]

end Json

end DatasetLineage
