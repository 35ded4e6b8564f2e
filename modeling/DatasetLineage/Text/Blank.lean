import DatasetLineage.Text.CharacterRange

/-!
# Blanks

The characters with the Unicode property `White_Space`, and texts without them at
the end.
-/

namespace DatasetLineage.Text

/-- The code points of blanks, line breaks among them. -/
def blankRanges : List (Nat × Nat) :=
  [(0x9, 0xd), (0x20, 0x20), (0x85, 0x85), (0xa0, 0xa0), (0x1680, 0x1680),
    (0x2000, 0x200a), (0x2028, 0x2029), (0x202f, 0x202f), (0x205f, 0x205f),
    (0x3000, 0x3000)]

def trimmedEnd (text : String) : String :=
  String.ofList (text.toList.reverse.dropWhile (inRanges blankRanges)).reverse

end DatasetLineage.Text
