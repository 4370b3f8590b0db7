/-
# Lines

Ten characters end a line, and the pair `\r\n` ends it once:

| character | name |
| --- | --- |
| `U+000A` to `U+000D` | line feed, vertical tab, form feed, carriage return |
| `U+001C` to `U+001E` | file, group and record separator |
| `U+0085` | next line |
| `U+2028`, `U+2029` | line and paragraph separator |

A text that ends with a line break has no further, empty line after it, and the
empty text has no line at all.
-/

import PhoneticBengali.Text.Basic

namespace PhoneticBengali
namespace Text

/-- Whether a character ends a line. -/
def isLineBreak (c : CodePoint) : Bool :=
  (0x0A ≤ c.toNat && c.toNat ≤ 0x0D) || (0x1C ≤ c.toNat && c.toNat ≤ 0x1E) ||
    c.toNat = 0x85 || c.toNat = 0x2028 || c.toNat = 0x2029

/-- The lines of a text, without their breaks.  `line` holds the characters of
the line under way, last one first, and `none` stands for no line begun. -/
def splitLines (t : Text) : List Text :=
  go none t
where
  /-- The lines of `line` followed by the given text. -/
  go (line : Option Text) : Text → List Text
    | [] => (line.map List.reverse).toList
    | '\r' :: '\n' :: t => (line.getD []).reverse :: go none t
    | c :: t =>
      if isLineBreak c then (line.getD []).reverse :: go none t
      else go (some (c :: line.getD [])) t

/-- The text with each of `\r\n` and a lone `\r` replaced by a line feed. -/
def unifyNewlines : Text → Text
  | [] => []
  | '\r' :: '\n' :: t => '\n' :: unifyNewlines t
  | '\r' :: t => '\n' :: unifyNewlines t
  | c :: t => c :: unifyNewlines t

/-- Each line with a line feed after it. -/
def unlines (lines : List Text) : Text :=
  lines.flatMap (· ++ [('\n' : CodePoint)])

/-- Lines are joined one behind the other. -/
theorem unlines_append (a b : List Text) : unlines (a ++ b) = unlines a ++ unlines b := by
  simp [unlines]

end Text
end PhoneticBengali
