/-
# Layout

The tokens of a YAML text, in order.  Two things depend on what came before.

* Blocks.  A key, or a dash, right of the current column opens a block there; a
  line that begins left of it closes the blocks that it leaves.
* Keys.  A key is known as one only by the colon after it, so every token that
  can be a key is remembered, one for each open bracket, until the line ends or
  1024 characters have passed.  When the colon comes, the key token is put in
  front of it.  A token at the very column of a block is required to be a key.
-/

import PhoneticBengali.Yaml.Scalar
import PhoneticBengali.Yaml.Token

namespace PhoneticBengali
namespace Yaml

/-- A token that may turn out to be a key: the number of tokens before it, and
the position where it starts. -/
structure PossibleKey where
  place : Nat
  required : Bool
  offset : Nat
  line : Nat
  column : Nat
deriving DecidableEq, Repr

/-- How far a text has been read. -/
structure Layout where
  cursor : Cursor
  /-- The tokens so far, last one first. -/
  tokens : List Token := []
  /-- The number of tokens so far. -/
  count : Nat := 0
  /-- The column of the innermost block, `-1` outside of all. -/
  indent : Int := -1
  /-- The columns of the blocks around it. -/
  outer : List Int := []
  /-- Whether a token may be a key without a question mark. -/
  mayStartKey : Bool := true
  /-- The possible key outside of the open brackets and within each of them,
  innermost first. -/
  keys : List (Option PossibleKey) := [none]

namespace Layout

/-- Whether a bracket is open. -/
def inFlow (s : Layout) : Bool :=
  s.keys.length > 1

/-- The possible key of the innermost bracket. -/
def key? (s : Layout) : Option PossibleKey :=
  s.keys.head?.join

/-- The state with another possible key of the innermost bracket. -/
def withKey (s : Layout) (key : Option PossibleKey) : Layout :=
  { s with keys := key :: s.keys.tail }

/-- The state with a token put behind the others. -/
def push (s : Layout) (t : Token) : Layout :=
  { s with tokens := t :: s.tokens, count := s.count + 1 }

/-- The state with tokens put in after the first `place` ones. -/
def insertAt (s : Layout) (place : Nat) (ts : List Token) : Layout :=
  let later := s.count - place
  { s with
    tokens := s.tokens.take later ++ ts.reverse ++ s.tokens.drop later
    count := s.count + ts.length }

/-! ### Keys -/

/-- The possible key is given up. -/
def dropKey (s : Layout) : Except Fault Layout :=
  if s.key?.any (·.required) then .error .colonExpected else .ok (s.withKey none)

/-- The next token is a possible key, if one may stand here. -/
def saveKey (s : Layout) : Except Fault Layout :=
  if s.mayStartKey then do
    let p := s.cursor
    let required := !s.inFlow && s.indent = p.column
    let s ← s.dropKey
    return s.withKey (some ⟨s.count, required, p.offset, p.line, p.column⟩)
  else .ok s

/-- Whether a possible key is too far back for a colon here. -/
def isStale (p : Cursor) (k : PossibleKey) : Bool :=
  k.line ≠ p.line || p.offset - k.offset > 1024

/-- Possible keys that are too far back are given up. -/
def dropStale (s : Layout) : Except Fault Layout :=
  if s.keys.any (·.any fun k => isStale s.cursor k && k.required) then .error .colonExpected
  else .ok { s with keys := s.keys.map (·.filter fun k => !isStale s.cursor k) }

/-! ### Blocks -/

/-- Blocks right of `column` are closed, from the innermost one on.  The columns
are those of the blocks around the current one. -/
def closeBlocks (column : Int) : List Int → Layout → Layout
  | [], s => s
  | i :: outer, s =>
    if s.indent > column then
      closeBlocks column outer ({ s with indent := i, outer }.push .blockEnd)
    else s

/-- Blocks right of `column` are closed, unless a bracket is open. -/
def closeTo (s : Layout) (column : Int) : Layout :=
  if s.inFlow then s else closeBlocks column s.outer s

/-- Whether a block can be opened at `column`. -/
def opensAt (s : Layout) (column : Nat) : Bool :=
  s.indent < column

/-- A block is opened at `column`, if that is right of the current one. -/
def openAt (s : Layout) (column : Nat) : Layout :=
  if s.opensAt column then { s with indent := column, outer := s.indent :: s.outer } else s

/-- A block of the kind that `start` shows is opened here, if that is right of
the current one. -/
def openHere (s : Layout) (start : Token) : Layout :=
  let column := s.cursor.column
  if s.opensAt column then (s.openAt column).push start else s

/-! ### Tokens -/

/-- A token of `n` characters is read. -/
def take (s : Layout) (n : Nat) (t : Token) : Layout :=
  { s with cursor := s.cursor.skip n }.push t

/-- All blocks are closed and no key is possible. -/
def closeAll (s : Layout) : Except Fault Layout := do
  let s ← (s.closeTo (-1)).dropKey
  return { s with mayStartKey := false }

/-- A dash. -/
def dash (s : Layout) : Except Fault Layout := do
  if !s.inFlow && !s.mayStartKey then throw .sequenceNotAllowed
  let s := if s.inFlow then s else s.openHere .sequenceStart
  let s ← { s with mayStartKey := true }.dropKey
  return s.take 1 .entry

/-- A question mark. -/
def questionMark (s : Layout) : Except Fault Layout := do
  if !s.inFlow && !s.mayStartKey then throw .keyNotAllowed
  let s := if s.inFlow then s else s.openHere .mappingStart
  let s ← { s with mayStartKey := !s.inFlow }.dropKey
  return s.take 1 .key

/-- A colon: what was a possible key is one. -/
def colon (s : Layout) : Except Fault Layout :=
  match s.key? with
  | some k =>
    let start := if !s.inFlow && s.opensAt k.column then [.mappingStart] else []
    let s := (s.withKey none).insertAt k.place (start ++ [.key])
    let s := if s.inFlow then s else s.openAt k.column
    .ok ({ s with mayStartKey := false }.take 1 .value)
  | none => do
    if !s.inFlow && !s.mayStartKey then throw .valueNotAllowed
    let s := if s.inFlow then s else s.openHere .mappingStart
    let s ← { s with mayStartKey := !s.inFlow }.dropKey
    return s.take 1 .value

/-- An opening bracket or brace. -/
def openFlow (s : Layout) (t : Token) : Except Fault Layout := do
  let s ← s.saveKey
  return { s with keys := none :: s.keys, mayStartKey := true }.take 1 t

/-- A closing bracket or brace. -/
def closeFlow (s : Layout) (t : Token) : Except Fault Layout := do
  let s ← s.dropKey
  if !s.inFlow then throw .flowEndExpected
  return { s with keys := s.keys.tail, mayStartKey := false }.take 1 t

/-- A token that can be a key, read by `scan`. -/
def keyToken {α : Type} (s : Layout) (scan : Cursor → Except Fault (α × Cursor))
    (token : α → Token) : Except Fault Layout := do
  let s ← s.saveKey
  let (x, p) ← scan s.cursor
  return { s with cursor := p, mayStartKey := false }.push (token x)

/-- A plain scalar.  One that ends behind a line break leaves room for a key. -/
def plainScalar (s : Layout) : Except Fault Layout := do
  let s ← s.saveKey
  let p := s.cursor
  let (t, p, broken) := p.plain s.inFlow (s.indent + 1) p.bound [] false
  return { s with cursor := p, mayStartKey := broken }.push (.scalar true t)

/-- A block scalar. -/
def blockScalar (s : Layout) (folded : Bool) : Except Fault Layout := do
  let s ← { s with mayStartKey := true }.dropKey
  let (t, p) ← s.cursor.advance.block folded s.indent
  return { s with cursor := p }.push (.scalar false t)

/-- Spaces, comments and line breaks are passed over. -/
def skipToToken : (fuel : Nat) → Layout → Layout
  | 0, s => s
  | fuel + 1, s =>
    let p := (s.cursor.skipWhile (· = (' ' : CodePoint))).skipComment
    if p.next.any isBreak then
      skipToToken fuel
        { s with cursor := p.lineBreak.2, mayStartKey := s.mayStartKey || !s.inFlow }
    else { s with cursor := p }

/-- Whether a character begins plain scalars wherever it stands. -/
def beginsPlain (c : CodePoint) : Bool :=
  !isBlankOrEnd (some c) && !("-?:,[]\x7b\x7d#&*!|>'\"%@\x60" : Text).contains c

/-- The next token, whose first character is `c`. -/
def token (s : Layout) (c : CodePoint) : Except Fault Layout :=
  let p := s.cursor
  let beforeBlank := isBlankOrEnd (p.peek 1)
  if c = '%' ∧ p.column = 0 then do
    let s ← s.closeAll
    let (d, p) ← s.cursor.advance.directive
    return { s with cursor := p }.push (.directive d)
  else if p.column = 0 ∧ p.atMarker '-' then do
    return (← s.closeAll).take 3 .documentStart
  else if p.column = 0 ∧ p.atMarker '.' then do
    return (← s.closeAll).take 3 .documentEnd
  else if c = '[' then s.openFlow .openBracket
  else if c = '\x7b' then s.openFlow .openBrace
  else if c = ']' then s.closeFlow .closeBracket
  else if c = '\x7d' then s.closeFlow .closeBrace
  else if c = ',' then do
    return (← { s with mayStartKey := true }.dropKey).take 1 .comma
  else if c = '-' ∧ beforeBlank then s.dash
  else if c = '?' ∧ (s.inFlow ∨ beforeBlank) then s.questionMark
  else if c = ':' ∧ (s.inFlow ∨ beforeBlank) then s.colon
  else if c = '*' then s.keyToken (·.advance.anchorName) .alias
  else if c = '&' then s.keyToken (·.advance.anchorName) .anchor
  else if c = '!' then s.keyToken (·.tagName) .tag
  else if (c = '|' ∨ c = '>') ∧ !s.inFlow then s.blockScalar (c = '>')
  else if c = '\'' ∨ c = '"' then
    s.keyToken (fun p => p.advance.quoted c p.bound) (.scalar false)
  else if beginsPlain c ||
      (!beforeBlank && (c = '-' || (!s.inFlow && (c = '?' || c = ':')))) then s.plainScalar
  else .error (.noToken c)

/-- What stands before the next token is passed over, and the blocks that end
there are closed. -/
def approach (s : Layout) : Except Fault Layout := do
  let s ← (s.skipToToken s.cursor.bound).dropStale
  return s.closeTo s.cursor.column

/-- The tokens of the text from here on.  Each takes a character at least, and
`fuel` is above their number. -/
def run : (fuel : Nat) → Layout → List Token
  | 0, s => s.tokens.reverse
  | fuel + 1, s =>
    match s.approach with
    | .error f => (s.push (.fault f)).tokens.reverse
    | .ok s =>
      match s.cursor.next with
      | none =>
        match s.closeAll with
        | .error f => (s.push (.fault f)).tokens.reverse
        | .ok s => (s.push .streamEnd).tokens.reverse
      | some c =>
        match s.token c with
        | .error f => (s.push (.fault f)).tokens.reverse
        | .ok s => s.run fuel

end Layout

/-- Whether a character may stand in a YAML text. -/
def isAllowed (c : CodePoint) : Bool :=
  let n := c.toNat
  n = 0x09 || n = 0x0A || n = 0x0D || (0x20 ≤ n && n ≤ 0x7E) || n = 0x85 ||
    (0xA0 ≤ n && n ≤ 0xFFFD) || 0x10000 ≤ n

/-- The tokens of a text.  A byte-order mark in front is passed over. -/
def Token.ofText (t : Text) : Except Fault (List Token) :=
  match t.find? fun c => !isAllowed c with
  | some c => .error (.unprintable c)
  | none =>
    let start := Cursor.ofText t
    let start := if start.isAt '\ufeff' then start.advance else start
    .ok (({ cursor := start } : Layout).run (t.length + 2))

end Yaml
end PhoneticBengali
