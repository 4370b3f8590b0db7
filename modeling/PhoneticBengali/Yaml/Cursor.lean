/-
# Reading positions

A cursor stands before the rest of a text and knows its line and column.  Five
characters end a line, and `\r\n` ends it once; reading a break gives a line
feed, but `U+2028` and `U+2029` are kept.  A byte-order mark takes no column.
-/

import PhoneticBengali.Text.Basic

namespace PhoneticBengali
namespace Yaml

/-- Whether a character ends a line. -/
def isBreak (c : CodePoint) : Bool :=
  c = '\n' || c = '\r' || c = '\x85' || c = '\u2028' || c = '\u2029'

/-- Whether what comes next ends a line or the text. -/
def isBreakOrEnd (c : Option CodePoint) : Bool :=
  c.all isBreak

/-- Whether what comes next is a space, ends a line or ends the text. -/
def isSpaceOrEnd (c : Option CodePoint) : Bool :=
  c.all fun (c : CodePoint) => c = ' ' || isBreak c

/-- Whether what comes next is a space or a tab, ends a line or ends the text. -/
def isBlankOrEnd (c : Option CodePoint) : Bool :=
  c.all fun (c : CodePoint) => c = ' ' || c = '\t' || isBreak c

/-- Whether a character may stand in a name. -/
def isWord (c : CodePoint) : Bool :=
  c.isAlphanum || c = '-' || c = '_'

/-- A position in a text.  `bound` is above the number of characters left; loops
over them take it for their fuel. -/
structure Cursor where
  rest : Text
  bound : Nat
  offset : Nat := 0
  line : Nat := 0
  column : Nat := 0

namespace Cursor

/-- The start of a text. -/
def ofText (t : Text) : Cursor :=
  { rest := t, bound := t.length + 1 }

/-- The character that comes after `n` others. -/
def peek (p : Cursor) (n : Nat) : Option CodePoint :=
  p.rest[n]?

/-- The next character. -/
def next (p : Cursor) : Option CodePoint :=
  p.rest.head?

/-- Whether the next character is `c`. -/
def isAt (p : Cursor) (c : CodePoint) : Bool :=
  p.next == some c

/-- The position after the next character. -/
def advance (p : Cursor) : Cursor :=
  match p.rest with
  | [] => p
  | c :: rest =>
    if isBreak c && !(c = '\r' && rest.head? == some ('\n' : CodePoint)) then
      ⟨rest, p.bound, p.offset + 1, p.line + 1, 0⟩
    else
      ⟨rest, p.bound, p.offset + 1, p.line, if c = '\ufeff' then p.column else p.column + 1⟩

/-- The position after the next `n` characters. -/
def skip (p : Cursor) : Nat → Cursor
  | 0 => p
  | n + 1 => p.advance.skip n

/-- The characters in front that meet `test`, and the position after them. -/
def span (p : Cursor) (test : CodePoint → Bool) : Text × Cursor :=
  let taken := p.rest.takeWhile test
  (taken, p.skip taken.length)

/-- The position after the characters in front that meet `test`. -/
def skipWhile (p : Cursor) (test : CodePoint → Bool) : Cursor :=
  (p.span test).2

/-- The position after the spaces in front, before column `limit`. -/
def skipSpacesTo (limit : Nat) (p : Cursor) : Cursor :=
  p.skip (min (p.rest.takeWhile (· = (' ' : CodePoint))).length (limit - p.column))

/-- A line break in front as it is read, and the position after it. -/
def lineBreak (p : Cursor) : Text × Cursor :=
  match p.rest with
  | '\r' :: '\n' :: _ => (['\n'], p.skip 2)
  | c :: _ =>
    if c = '\u2028' ∨ c = '\u2029' then ([c], p.advance)
    else if isBreak c then (['\n'], p.advance)
    else ([], p)
  | [] => ([], p)

/-- The position at the end of the line. -/
def toLineEnd (p : Cursor) : Cursor :=
  p.skipWhile (!isBreak ·)

/-- The position after a comment, if one is in front. -/
def skipComment (p : Cursor) : Cursor :=
  if p.isAt '#' then p.toLineEnd else p

/-- Whether three dashes, or three dots, stand here with a blank or an end after
them. -/
def atMarker (p : Cursor) (c : CodePoint) : Bool :=
  p.rest.take 3 == [c, c, c] && isBlankOrEnd (p.peek 3)

/-- Whether either marker of a document stands here. -/
def atDocumentMarker (p : Cursor) : Bool :=
  p.atMarker '-' || p.atMarker '.'

end Cursor
end Yaml
end PhoneticBengali
