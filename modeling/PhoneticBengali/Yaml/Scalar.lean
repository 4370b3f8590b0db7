/-
# Scalars

The four ways to write a text:

| style | extent | line breaks |
| --- | --- | --- |
| plain | to a comment, to a colon with a blank after it, or to a less indented line | folded |
| single-quoted | to the closing quote; a quote inside is doubled | folded |
| double-quoted | to the closing quote; a backslash begins an escape | folded |
| block | all lines of its indentation | kept after a bar, folded after `>` |

Folding makes a single line break a space and drops the first of several.
Inside brackets a plain scalar also ends at a comma, a question mark or a
bracket.

Every loop takes a `fuel` above the number of characters left, which is the
`bound` of the position it starts from.
-/

import PhoneticBengali.Number.Numeral
import PhoneticBengali.Text.Hex
import PhoneticBengali.Yaml.Cursor
import PhoneticBengali.Yaml.Fault

namespace PhoneticBengali
namespace Yaml
namespace Cursor

/-- A line break and the breaks after it, folded. -/
def fold (first : Text) (others : Text) : Text :=
  if first != "\n" then first ++ others
  else if others.isEmpty then " "
  else others

/-! ### Plain scalars -/

/-- Whether a character has a meaning of its own inside brackets. -/
def isFlowMark (c : CodePoint) : Bool :=
  (",[]\x7b\x7d" : Text).contains c

/-- Whether a plain scalar ends before this place in a line. -/
def plainStops (inFlow : Bool) : Text → Bool
  | [] => true
  | c :: rest =>
    isBlankOrEnd (some c) ||
      (c = ':' && (isBlankOrEnd rest.head? || (inFlow && rest.head?.any isFlowMark))) ||
      (inFlow && (c = '?' || isFlowMark c))

/-- The part of a plain scalar on the line in front. -/
def plainChunk (inFlow : Bool) : Text → Text
  | [] => []
  | c :: rest => if plainStops inFlow (c :: rest) then [] else c :: plainChunk inFlow rest

/-- The breaks and spaces after the first line break of a plain scalar; nothing
if a document marker follows. -/
def plainBreaks : (fuel : Nat) → Cursor → Option Text × Cursor
  | 0, p => (some [], p)
  | fuel + 1, p =>
    if p.isAt ' ' then plainBreaks fuel p.advance
    else if p.next.any isBreak then
      let (b, p) := p.lineBreak
      if p.atDocumentMarker then (none, p)
      else
        let (bs, p) := plainBreaks fuel p
        (bs.map (b ++ ·), p)
    else (some [], p)

/-- What separates two parts of a plain scalar, the position after it, and
whether a line break was among it. -/
def plainSpaces (p : Cursor) : Text × Cursor × Bool :=
  let (spaces, p) := p.span (· = (' ' : CodePoint))
  if p.next.any isBreak then
    let (b, p) := p.lineBreak
    if p.atDocumentMarker then ([], p, true)
    else
      match plainBreaks p.bound p with
      | (none, p) => ([], p, true)
      | (some bs, p) => (fold b bs, p, true)
  else (spaces, p, false)

/-- A plain scalar whose lines stand at column `indent` or right of it.
`separator` is what stands before the next part, and `broken` tells whether a
line break was read since the part before. -/
def plain (inFlow : Bool) (indent : Int) :
    (fuel : Nat) → (separator : Text) → (broken : Bool) → Cursor → Text × Cursor × Bool
  | 0, _, broken, p => ([], p, broken)
  | fuel + 1, separator, broken, p =>
    let chunk := if p.isAt '#' then [] else plainChunk inFlow p.rest
    if chunk.isEmpty then ([], p, broken)
    else
      let (spaces, p, broken) := plainSpaces (p.skip chunk.length)
      if spaces.isEmpty || p.isAt '#' || (!inFlow && (p.column : Int) < indent) then
        (separator ++ chunk, p, broken)
      else
        let (more, p, broken) := plain inFlow indent fuel spaces broken p
        (separator ++ chunk ++ more, p, broken)

/-! ### Quoted scalars -/

/-- The character of a letter after a backslash. -/
def escape? (c : CodePoint) : Option CodePoint :=
  List.lookup c [('0', '\x00'), ('a', '\x07'), ('b', '\x08'), ('t', '\t'), ('\t', '\t'),
    ('n', '\n'), ('v', '\x0b'), ('f', '\x0c'), ('r', '\r'), ('e', '\x1b'), (' ', ' '), ('"', '"'),
    ('\\', '\\'), ('/', '/'), ('N', '\x85'), ('_', '\u00a0'), ('L', '\u2028'),
    ('P', '\u2029')]

/-- The number of hexadecimal digits after a letter that asks for a code. -/
def escapeWidth? (c : CodePoint) : Option Nat :=
  List.lookup c [('x', 2), ('u', 4), ('U', 8)]

/-- The breaks of a quoted scalar, and the blanks between them. -/
def quotedBreaks : (fuel : Nat) → Cursor → Except Fault (Text × Cursor)
  | 0, p => .ok ([], p)
  | fuel + 1, p =>
    if p.atDocumentMarker then .error .markerInQuote
    else
      let p := p.skipWhile fun (c : CodePoint) => c = ' ' || c = '\t'
      if p.next.any isBreak then do
        let (b, p) := p.lineBreak
        let (bs, p) ← quotedBreaks fuel p
        return (b ++ bs, p)
      else .ok ([], p)

/-- A line break of a quoted scalar and all that follows it, folded unless the
break is `escaped`. -/
def quotedFold (escaped : Bool) (p : Cursor) : Except Fault (Text × Cursor) := do
  let (b, p) := p.lineBreak
  let (bs, p) ← quotedBreaks p.bound p
  return (if escaped then bs else fold b bs, p)

/-- An escape after its backslash. -/
def quotedEscape (p : Cursor) : Except Fault (Text × Cursor) :=
  match p.next with
  | none => .error .unknownEscape
  | some c =>
    match escape? c, escapeWidth? c with
    | some x, _ => .ok ([x], p.advance)
    | none, some width => do
      let ds := (p.rest.drop 1).take width
      let values := ds.filterMap Text.hexValue?
      if values.length < width then throw .unknownEscape
      let code := Numeral.value 16 values
      if code ≥ 0x80000000 then throw .codeBeyond
      if code ≥ 0x110000 then throw .codeTooLarge
      return ([CodePoint.ofNat code], p.skip (width + 1))
    | none, none => if isBreak c then quotedFold true p else .error .unknownEscape

/-- A quoted scalar after its opening quote. -/
def quoted (quote : CodePoint) : (fuel : Nat) → Cursor → Except Fault (Text × Cursor)
  | 0, _ => .error .unclosedQuote
  | fuel + 1, p =>
    match p.rest with
    | [] => .error .unclosedQuote
    | c :: rest =>
      if c = quote then
        if quote = '\'' ∧ rest.head? = some ('\'' : CodePoint) then do
          let (s, p) ← quoted quote fuel (p.skip 2)
          return ('\'' :: s, p)
        else .ok ([], p.advance)
      else if c = '\\' ∧ quote = '"' then do
        let (x, p) ← quotedEscape p.advance
        let (s, p) ← quoted quote fuel p
        return (x ++ s, p)
      else if isBlankOrEnd (some c) then do
        let (spaces, p) := p.span fun (c : CodePoint) => c = ' ' || c = '\t'
        if p.next.any isBreak then
          let (x, p) ← quotedFold false p
          let (s, p) ← quoted quote fuel p
          return (x ++ s, p)
        else
          let (s, p) ← quoted quote fuel p
          return (spaces ++ s, p)
      else do
        let (s, p) ← quoted quote fuel p.advance
        return (c :: s, p)

/-! ### Block scalars -/

/-- What a block scalar does with the breaks at its end. -/
inductive Chomping where
  | strip
  | clip
  | keep
deriving DecidableEq

/-- The chomping that a sign asks for. -/
def chomping? (p : Cursor) : Option Chomping :=
  if p.isAt '+' then some .keep else if p.isAt '-' then some .strip else none

/-- The digit of an indentation mark; zero is none. -/
def blockDigit? (p : Cursor) : Except Fault (Option Nat) :=
  match p.next.bind Numeral.digitValue? with
  | some 0 => .error .badBlockHeader
  | d => .ok d

/-- The marks behind a bar or `>`, in either order, and the end of that line. -/
def blockHeader (p : Cursor) : Except Fault (Chomping × Option Nat × Cursor) := do
  let first := chomping? p
  let p := if first.isSome then p.advance else p
  let digit ← blockDigit? p
  let p := if digit.isSome then p.advance else p
  let second := if first.isNone ∧ digit.isSome then chomping? p else none
  let p := if second.isSome then p.advance else p
  if !isSpaceOrEnd p.next then throw .badBlockHeader
  let p := (p.skipWhile (· = (' ' : CodePoint))).skipComment
  if !isBreakOrEnd p.next then throw .badBlockHeader
  return ((first.or second).getD .clip, digit, p.lineBreak.2)

/-- The breaks before the first line of a block scalar that is not empty, and the
greatest column of a space among them. -/
def blockIndentation : (fuel : Nat) → (greatest : Nat) → Cursor → Text × Nat × Cursor
  | 0, greatest, p => ([], greatest, p)
  | fuel + 1, greatest, p =>
    if p.isAt ' ' then blockIndentation fuel (max greatest p.advance.column) p.advance
    else if p.next.any isBreak then
      let (b, p) := p.lineBreak
      let (bs, greatest, p) := blockIndentation fuel greatest p
      (b ++ bs, greatest, p)
    else ([], greatest, p)

/-- The empty lines in front, up to column `indent` of the next one that is not. -/
def blockBreaks (indent : Nat) : (fuel : Nat) → Cursor → Text × Cursor
  | 0, p => ([], p)
  | fuel + 1, p =>
    let p := p.skipSpacesTo indent
    if p.next.any isBreak then
      let (b, p) := p.lineBreak
      let (bs, p) := blockBreaks indent fuel p
      (b ++ bs, p)
    else ([], p)

/-- Whether a character is a space or a tab. -/
def isBlank (c : Option CodePoint) : Bool :=
  c == some (' ' : CodePoint) || c == some ('\t' : CodePoint)

/-- The lines of a block scalar from the cursor on.  `breaks` are the empty lines
before the next one. -/
def blockLines (folded : Bool) (chomping : Chomping) (indent : Nat) :
    (fuel : Nat) → (breaks : Text) → Cursor → Text × Cursor
  | 0, _, p => ([], p)
  | fuel + 1, breaks, p =>
    let leading := isBlank p.next
    let (line, p) := p.span (!isBreak ·)
    let (b, p) := p.lineBreak
    let (bs, p) := blockBreaks indent p.bound p
    if p.column = indent ∧ p.next.isSome then
      let joint : Text :=
        if folded && b == "\n" && !leading && !isBlank p.next then
          if bs.isEmpty then " " else []
        else b
      let (more, p) := blockLines folded chomping indent fuel bs p
      (breaks ++ line ++ joint ++ more, p)
    else
      let tail := match chomping with
        | .strip => []
        | .clip => b
        | .keep => b ++ bs
      (breaks ++ line ++ tail, p)

/-- A block scalar after its bar or `>`, inside a block indented by `parent`. -/
def block (folded : Bool) (parent : Int) (p : Cursor) : Except Fault (Text × Cursor) := do
  let (chomping, digit, p) ← blockHeader p
  let least := (max (parent + 1) 1).toNat
  let (breaks, indent, p) := match digit with
    | none =>
      let (breaks, greatest, p) := blockIndentation p.bound 0 p
      (breaks, max least greatest, p)
    | some d =>
      let indent := least + d - 1
      let (breaks, p) := blockBreaks indent p.bound p
      (breaks, indent, p)
  if p.column = indent ∧ p.next.isSome then
    return blockLines folded chomping indent p.bound breaks p
  else return (if chomping = .keep then breaks else [], p)

end Cursor
end Yaml
end PhoneticBengali
