import DatasetLineage.DatasetId
import Mathlib.Algebra.Group.Nat.Defs

/-!
# The text of ids

The text that an id is written as is read as the same id: the groups of digits can be joined
by hyphens and taken apart again, and the digits of a number give back the number.
-/

namespace DatasetLineage

namespace DatasetId

theorem hexValue?_hexDigit {digit : Nat} (hdigit : digit < 16) :
    Text.hexValue? (hexDigit digit) = some digit := by
  have hdigits : ∀ digit < 16, Text.hexValue? (hexDigit digit) = some digit := by decide
  exact hdigits digit hdigit

@[simp]
theorem length_hexDigits (width value : Nat) : (hexDigits width value).length = width := by
  induction width generalizing value with
  | zero => rfl
  | succ width ih => rw [hexDigits, List.length_append, ih, List.length_singleton]

/-- The digits of a number give back the number, if there are enough of them. -/
theorem ofDigits?_hexDigits {width value : Nat} (hvalue : value < Nat.pow 16 width) :
    Text.ofDigits? 16 (hexDigits width value) = some value := by
  induction width generalizing value with
  | zero =>
      rw [Nat.lt_one_iff.1 hvalue]
      rfl
  | succ width ih =>
      have hsplit : Nat.pow 16 (width + 1) = 16 * Nat.pow 16 width := Nat.pow_succ'
      have hfront : value / 16 < Nat.pow 16 width := Nat.div_lt_of_lt_mul (hsplit ▸ hvalue)
      have hlast : value % 16 < 16 := Nat.mod_lt value (by decide)
      have hdigit : Text.digitValue? 16 (hexDigit (value % 16)) = some (value % 16) := by
        rw [Text.digitValue?, hexValue?_hexDigit hlast, Option.filter_some, if_pos (by simpa)]
      rw [Text.ofDigits?, hexDigits, List.foldlM_append, ← Text.ofDigits?, ih hfront]
      simp [hdigit, Nat.div_add_mod']

/-! ## Groups of digits -/

theorem length_hyphenate (widths : List Nat) (digits : List Char) :
    (hyphenate widths digits).length = digits.length + (widths.length - 1) := by
  fun_induction hyphenate widths digits with
  | case1 digits => rfl
  | case2 width digits => rfl
  | case3 width widths digits hne ih =>
      have hwidths : 0 < widths.length := List.length_pos_iff.2 hne
      rw [List.length_append, List.length_cons, ih, List.length_take, List.length_drop,
        List.length_cons]
      omega

/-- Groups that are joined by hyphens are taken apart again. -/
theorem unhyphenate?_hyphenate (widths : List Nat) (digits : List Char)
    (henough : widths.foldr (· + ·) 0 ≤ digits.length) :
    unhyphenate? widths (hyphenate widths digits) = some digits := by
  fun_induction hyphenate widths digits with
  | case1 digits => rfl
  | case2 width digits => rfl
  | case3 width widths digits hne ih =>
      rw [List.foldr_cons] at henough
      have hfirst : (digits.take width).length = width := List.length_take_of_le (by omega)
      have hothers : widths.foldr (· + ·) 0 ≤ (digits.drop width).length := by
        rw [List.length_drop]
        omega
      rw [unhyphenate?.eq_3 _ _ _ hne, List.drop_left' hfirst, List.take_left' hfirst]
      simp [ih hothers]

/-- The canonical text of an id is read as the id. -/
theorem ofChars?_toChars (id : DatasetId) : ofChars? id.toChars = some id := by
  have hlength : id.toChars.length = 36 := by
    rw [toChars, length_hyphenate, length_hexDigits]
    rfl
  have hgroups : unhyphenate? groups id.toChars = some (hexDigits 32 id.value) :=
    unhyphenate?_hyphenate _ _ (by rw [length_hexDigits]; decide)
  have hdigits : Text.ofDigits? 16 (hexDigits 32 id.value) = some id.value :=
    ofDigits?_hexDigits id.bounded
  have hread : ofDigits? (hexDigits 32 id.value) = some id := by
    rw [ofDigits?, length_hexDigits, hdigits]
    exact dif_pos id.bounded
  rw [ofChars?, hlength, ofHyphenated?, hgroups]
  simp [hread]

theorem ofText?_toString (id : DatasetId) : ofText? (toString id) = some id := by
  change ofChars? (String.ofList id.toChars).toList = some id
  rw [String.toList_ofList]
  exact ofChars?_toChars id

end DatasetId

end DatasetLineage
