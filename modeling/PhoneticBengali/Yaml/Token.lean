/-
# Tokens

What a YAML text is made of.  Blocks are shown by indentation alone, so their
starts and ends are tokens without a character of their own, and the key token
stands before a key whether or not a question mark does.

This module also reads the tokens that do not depend on what came before them:
directives, tags and the names of anchors.
-/

import PhoneticBengali.Text.Utf8
import PhoneticBengali.Yaml.Cursor
import PhoneticBengali.Yaml.Fault

namespace PhoneticBengali
namespace Yaml

/-- A line that begins with a percent sign. -/
inductive Directive where
  /-- The version of the format. -/
  | version (major minor : Nat)
  /-- What a handle in front of tags stands for. -/
  | handle (name stem : Text)
  | other (name : Text)
deriving DecidableEq, Repr

/-- A tag as written: a handle and what follows it, or the whole tag. -/
structure TagName where
  handle : Option Text
  stem : Text
deriving DecidableEq, Repr

/-- A piece of a YAML text. -/
inductive Token where
  | directive (d : Directive)
  | documentStart
  | documentEnd
  | streamEnd
  | sequenceStart
  | mappingStart
  /-- The end of a block sequence or block mapping. -/
  | blockEnd
  | openBracket
  | closeBracket
  | openBrace
  | closeBrace
  | comma
  /-- A dash. -/
  | entry
  | key
  /-- A colon. -/
  | value
  | alias (name : Text)
  | anchor (name : Text)
  | tag (name : TagName)
  | scalar (isPlain : Bool) (text : Text)
  /-- A place where no token could be read; nothing follows it. -/
  | fault (fault : Fault)
deriving DecidableEq, Repr

namespace Cursor

/-! ### Names -/

/-- The name of an anchor after its mark. -/
def anchorName (p : Cursor) : Except Fault (Text × Cursor) :=
  let (name, p) := p.span isWord
  if name.isEmpty then .error .badAnchor
  else if isBlankOrEnd p.next ||
      p.next.any ("?:,]\x7d%@\x60" : Text).contains then .ok (name, p)
  else .error .badAnchor

/-! ### Tags -/

/-- Whether a character may stand in a tag. -/
def isTagChar (c : CodePoint) : Bool :=
  isWord c || (";/?:@&=+$,.!~*'()[]" : Text).contains c

/-- Octets written as a percent sign and two digits each. -/
def tagOctets : (fuel : Nat) → Cursor → Except Fault (Utf8.Octets × Cursor)
  | 0, p => .ok ([], p)
  | fuel + 1, p =>
    if p.isAt '%' then
      match (p.peek 1).bind Text.hexValue?, (p.peek 2).bind Text.hexValue? with
      | some high, some low => do
        let (more, p) ← tagOctets fuel (p.skip 3)
        return (UInt8.ofNat (16 * high + low) :: more, p)
      | _, _ => .error .badTag
    else .ok ([], p)

/-- The characters of a tag in front; there may be none. -/
def tagChars : (fuel : Nat) → Cursor → Except Fault (Text × Cursor)
  | 0, p => .ok ([], p)
  | fuel + 1, p =>
    if p.isAt '%' then do
      let (octets, p) ← tagOctets p.bound p
      match Utf8.decode octets with
      | .error _ => throw .badTag
      | .ok t =>
        let (more, p) ← tagChars fuel p
        return (t ++ more, p)
    else
      let (t, p) := p.span isTagChar
      if t.isEmpty then .ok ([], p)
      else do
        let (more, p) ← tagChars fuel p
        return (t ++ more, p)

/-- The characters of a tag in front. -/
def tagStem (p : Cursor) : Except Fault (Text × Cursor) := do
  let (t, p) ← tagChars p.bound p
  if t.isEmpty then throw .badTag
  return (t, p)

/-- A handle: an exclamation mark, or a name between two. -/
def tagHandle (p : Cursor) : Except Fault (Text × Cursor) :=
  if !p.isAt '!' then .error .badTag
  else if p.peek 1 == some (' ' : CodePoint) then .ok (['!'], p.advance)
  else
    let (name, q) := p.advance.span isWord
    if q.isAt '!' then .ok ("!" ++ name ++ "!", q.advance)
    else .error .badTag

/-- A tag, its exclamation mark in front. -/
def tagName (p : Cursor) : Except Fault (TagName × Cursor) := do
  let (name, p) ←
    if p.peek 1 == some ('<' : CodePoint) then do
      let (stem, p) ← (p.skip 2).tagStem
      if !p.isAt '>' then throw .badTag
      pure (TagName.mk none stem, p.advance)
    else if isBlankOrEnd (p.peek 1) then pure (TagName.mk none ['!'], p.advance)
    else
      let word := (p.rest.drop 1).takeWhile fun c => !isSpaceOrEnd (some c)
      let (handle, p) ← if word.contains '!' then p.tagHandle else pure (['!'], p.advance)
      let (stem, p) ← p.tagStem
      pure (TagName.mk (some handle) stem, p)
  if !isSpaceOrEnd p.next then throw .badTag
  return (name, p)

/-! ### Directives -/

/-- A number of a version. -/
def versionNumber (p : Cursor) : Except Fault (Nat × Cursor) :=
  let (digits, p) := p.span CodePoint.isDigit
  if digits.isEmpty then .error .badDirective
  else if digits.length > Numeral.digitLimit then .error (.tooManyDigits digits.length)
  else .ok (Numeral.value 10 (digits.filterMap Numeral.digitValue?), p)

/-- A version after its name. -/
def version (p : Cursor) : Except Fault (Directive × Cursor) := do
  let (major, p) ← (p.skipWhile (· = (' ' : CodePoint))).versionNumber
  if !p.isAt '.' then throw .badDirective
  let (minor, p) ← p.advance.versionNumber
  if !isSpaceOrEnd p.next then throw .badDirective
  return (.version major minor, p)

/-- A handle and what it stands for, after the name of the directive. -/
def handleMeaning (p : Cursor) : Except Fault (Directive × Cursor) := do
  let (name, p) ← (p.skipWhile (· = (' ' : CodePoint))).tagHandle
  if !p.isAt ' ' then throw .badDirective
  let (stem, p) ← (p.skipWhile (· = (' ' : CodePoint))).tagStem
  if !isSpaceOrEnd p.next then throw .badDirective
  return (.handle name stem, p)

/-- A directive after its percent sign, up to the next line. -/
def directive (p : Cursor) : Except Fault (Directive × Cursor) := do
  let (name, p) := p.span isWord
  if name.isEmpty || !isSpaceOrEnd p.next then throw .badDirective
  let (d, p) ←
    if name = "YAML" then p.version
    else if name = "TAG" then p.handleMeaning
    else pure (.other name, p.toLineEnd)
  let p := (p.skipWhile (· = (' ' : CodePoint))).skipComment
  if !isBreakOrEnd p.next then throw .badDirective
  return (d, p.lineBreak.2)

end Cursor
end Yaml
end PhoneticBengali
