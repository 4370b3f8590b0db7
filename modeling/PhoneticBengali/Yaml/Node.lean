/-
# Nodes

The tree that the tokens of a YAML text describe: scalars, sequences and
mappings, each with the tag written in front of it.  An alias is the node that
its anchor names; it may not stand inside that node.

| tokens | tree |
| --- | --- |
| `sequenceStart (entry node)* blockEnd` | block sequence |
| `(entry node)*` as the value of a key | block sequence at the column of the key |
| `mappingStart (key node value node)* blockEnd` | block mapping |
| `openBracket (node or pair),* closeBracket` | flow sequence; a pair is a mapping of one entry |
| `openBrace (node or pair),* closeBrace` | flow mapping; a node is a key without a value |

A node left out where one may stand is an empty plain scalar.
-/

import PhoneticBengali.Yaml.Layout

namespace PhoneticBengali
namespace Yaml

/-- A node of a YAML text. -/
inductive Node where
  | scalar (tag : Option Text) (isPlain : Bool) (text : Text)
  | sequence (tag : Option Text) (items : List Node)
  | mapping (tag : Option Text) (entries : List (Node × Node))
deriving Repr, Inhabited

namespace Node

/-- What stands for a node left out. -/
def omitted : Node :=
  .scalar none true []

end Node

/-- The tokens to come, the names of nodes under way, what the anchors so far name,
and what the handles of tags stand for. -/
structure TokenReader where
  tokens : List Token
  opened : List Text := []
  anchors : List (Text × Node) := []
  handles : List (Text × Text) := []

namespace TokenReader

/-- The handles that need no directive. -/
def standardHandles : List (Text × Text) :=
  [("!", "!"), ("!!", "tag:yaml.org,2002:")]

/-- The next token. -/
def next (r : TokenReader) : Except Fault Token :=
  match r.tokens with
  | [] => .ok .streamEnd
  | .fault f :: _ => .error f
  | t :: _ => .ok t

/-- The state after the next token. -/
def advance (r : TokenReader) : TokenReader :=
  { r with tokens := r.tokens.tail }

/-- Whether the next token is `t`. -/
def isAt (r : TokenReader) (t : Token) : Except Fault Bool := do
  return (← r.next) == t

/-- The state after the token `t`, which must be next. -/
def expect (r : TokenReader) (t : Token) (otherwise : Fault) : Except Fault TokenReader := do
  if ← r.isAt t then return r.advance
  throw otherwise

/-- A node, left out if one of the tokens `ends` is next. -/
def unlessAt (ends : List Token) (node : TokenReader → Except Fault (Node × TokenReader))
    (r : TokenReader) : Except Fault (Node × TokenReader) := do
  if ends.contains (← r.next) then return (.omitted, r)
  node r

/-- A node behind the token `mark`, left out if that is not next or one of `ends`
follows it. -/
def behind (mark : Token) (ends : List Token)
    (node : TokenReader → Except Fault (Node × TokenReader)) (r : TokenReader) :
    Except Fault (Node × TokenReader) := do
  if ← r.isAt mark then unlessAt ends node r.advance else return (.omitted, r)

/-- The name in front of a node, if there is one. -/
def anchor? (r : TokenReader) : Except Fault (Option Text × TokenReader) := do
  match ← r.next with
  | .anchor name => return (some name, r.advance)
  | _ => return (none, r)

/-- The tag in front of a node, if there is one. -/
def tag? (r : TokenReader) : Except Fault (Option TagName × TokenReader) := do
  match ← r.next with
  | .tag name => return (some name, r.advance)
  | _ => return (none, r)

/-- The anchor and the tag in front of a node, in either order. -/
def properties (r : TokenReader) :
    Except Fault (Option Text × Option TagName × TokenReader) := do
  let (anchor, r) ← r.anchor?
  let (tag, r) ← r.tag?
  if anchor.isSome then return (anchor, tag, r)
  let (anchor, r) ← if tag.isSome then r.anchor? else pure (none, r)
  return (anchor, tag, r)

/-- The tag that a name stands for. -/
def resolveTag (r : TokenReader) : TagName → Except Fault Text
  | ⟨none, stem⟩ => .ok stem
  | ⟨some handle, stem⟩ =>
    match r.handles.lookup handle with
    | some start => .ok (start ++ stem)
    | none => .error (.unknownHandle handle)

/-- The state at the start of a node with a name of its own. -/
def openNode (r : TokenReader) : Option Text → Except Fault TokenReader
  | none => .ok r
  | some name =>
    if r.opened.contains name then .error (.repeatedAnchor name)
    else .ok { r with opened := name :: r.opened }

/-- The node given a name. -/
def nameNode (r : TokenReader) (anchor : Option Text) (node : Node) : Node × TokenReader :=
  match anchor with
  | none => (node, r)
  | some name => (node, { r with anchors := (name, node) :: r.anchors })

/-- The node that a name stands for. -/
def aliasNode (r : TokenReader) (name : Text) : Except Fault Node :=
  match r.anchors.lookup name with
  | some n => .ok n
  | none => .error (if r.opened.contains name then .endless name else .unknownAnchor name)

/-- A node of an anchor or a tag alone. -/
def bareNode (r : TokenReader) (anchor tag : Option Text) : Except Fault (Node × TokenReader) :=
  if anchor.isSome ∨ tag.isSome then
    .ok (r.nameNode anchor (.scalar tag (tag.all (· = ("!" : Text))) []))
  else .error .nodeExpected

mutual

/-- A node.  One that is a block may stand only where `block` says so, and one
that is a sequence without an indentation of its own only where `flush` does.
Every call takes a token at least, or leaves to a call that does; `fuel` is above
three times their number. -/
def node (block flush : Bool) :
    (fuel : Nat) → TokenReader → Except Fault (Node × TokenReader)
  | 0, _ => .error .nodeExpected
  | fuel + 1, r => do
    if let .alias name ← r.next then return (← r.aliasNode name, r.advance)
    let (anchor, tagName, r) ← r.properties
    let tag ← tagName.mapM r.resolveTag
    let r ← r.openNode anchor
    match ← r.next with
    | .entry =>
      if flush then
        let (items, r) ← flushItems fuel r
        return r.nameNode anchor (.sequence tag items)
      else r.bareNode anchor tag
    | .scalar isPlain text => return r.advance.nameNode anchor (.scalar tag isPlain text)
    | .openBracket =>
      let (items, r) ← flowItems true fuel r.advance
      return r.nameNode anchor (.sequence tag items)
    | .openBrace =>
      let (entries, r) ← flowEntries true fuel r.advance
      return r.nameNode anchor (.mapping tag entries)
    | .sequenceStart =>
      if block then
        let (items, r) ← blockItems fuel r.advance
        return r.nameNode anchor (.sequence tag items)
      else r.bareNode anchor tag
    | .mappingStart =>
      if block then
        let (entries, r) ← blockEntries fuel r.advance
        return r.nameNode anchor (.mapping tag entries)
      else r.bareNode anchor tag
    | _ => r.bareNode anchor tag

/-- The items of a block sequence, and its end. -/
def blockItems : (fuel : Nat) → TokenReader → Except Fault (List Node × TokenReader)
  | 0, _ => .error .blockEndExpected
  | fuel + 1, r => do
    if ← r.isAt .entry then
      let (item, r) ← unlessAt [.entry, .blockEnd] (node true false fuel) r.advance
      let (items, r) ← blockItems fuel r
      return (item :: items, r)
    return ([], ← r.expect .blockEnd .blockEndExpected)

/-- The items of a sequence at the column of the key before it. -/
def flushItems : (fuel : Nat) → TokenReader → Except Fault (List Node × TokenReader)
  | 0, _ => .error .blockEndExpected
  | fuel + 1, r => do
    if ← r.isAt .entry then
      let (item, r) ← unlessAt [.entry, .key, .value, .blockEnd] (node true false fuel) r.advance
      let (items, r) ← flushItems fuel r
      return (item :: items, r)
    return ([], r)

/-- The entries of a block mapping, and its end. -/
def blockEntries : (fuel : Nat) → TokenReader → Except Fault (List (Node × Node) × TokenReader)
  | 0, _ => .error .blockEndExpected
  | fuel + 1, r => do
    if ← r.isAt .key then
      let ends := [.key, .value, .blockEnd]
      let (k, r) ← unlessAt ends (node true true fuel) r.advance
      let (v, r) ← behind .value ends (node true true fuel) r
      let (entries, r) ← blockEntries fuel r
      return ((k, v) :: entries, r)
    return ([], ← r.expect .blockEnd .blockEndExpected)

/-- The items of a flow sequence, and its closing bracket.  All but the first
have a comma in front. -/
def flowItems (isFirst : Bool) :
    (fuel : Nat) → TokenReader → Except Fault (List Node × TokenReader)
  | 0, _ => .error .flowEndExpected
  | fuel + 1, r => do
    if ← r.isAt .closeBracket then return ([], r.advance)
    let r ← if isFirst then pure r else r.expect .comma .flowEndExpected
    if ← r.isAt .closeBracket then return ([], r.advance)
    if ← r.isAt .key then
      let ends := [.value, .comma, .closeBracket]
      let (k, r) ← unlessAt ends (node false false fuel) r.advance
      let (v, r) ← behind .value [.comma, .closeBracket] (node false false fuel) r
      let (items, r) ← flowItems false fuel r
      return (.mapping none [(k, v)] :: items, r)
    let (item, r) ← node false false fuel r
    let (items, r) ← flowItems false fuel r
    return (item :: items, r)

/-- The entries of a flow mapping, and its closing brace.  All but the first have
a comma in front. -/
def flowEntries (isFirst : Bool) :
    (fuel : Nat) → TokenReader → Except Fault (List (Node × Node) × TokenReader)
  | 0, _ => .error .flowEndExpected
  | fuel + 1, r => do
    if ← r.isAt .closeBrace then return ([], r.advance)
    let r ← if isFirst then pure r else r.expect .comma .flowEndExpected
    if ← r.isAt .closeBrace then return ([], r.advance)
    if ← r.isAt .key then
      let ends := [.value, .comma, .closeBrace]
      let (k, r) ← unlessAt ends (node false false fuel) r.advance
      let (v, r) ← behind .value [.comma, .closeBrace] (node false false fuel) r
      let (entries, r) ← flowEntries false fuel r
      return ((k, v) :: entries, r)
    let (k, r) ← node false false fuel r
    let (entries, r) ← flowEntries false fuel r
    return ((k, .omitted) :: entries, r)

end

/-! ### Documents -/

/-- The directives in front of a document are read; `seen` tells whether one of
them gave a version. -/
def directives (seen : Bool) : List Token → TokenReader → Except Fault TokenReader
  | .directive d :: rest, r =>
    match d with
    | .version major _ =>
      if seen ∨ major ≠ 1 then .error .badDirective else directives true rest r.advance
    | .handle name stem =>
      if (r.handles.lookup name).isSome then .error .badDirective
      else directives seen rest { r.advance with handles := (name, stem) :: r.handles }
    | .other _ => directives seen rest r.advance
  | _, r => .ok { r with handles := r.handles ++ standardHandles }

/-- A document behind its marker. -/
def explicitDocument (fuel : Nat) (r : TokenReader) : Except Fault (Node × TokenReader) := do
  let r ← directives false r.tokens r
  let r ← r.expect .documentStart .documentStartExpected
  match ← r.next with
  | .directive _ | .documentStart | .documentEnd | .streamEnd => return (.omitted, r)
  | _ => node true false fuel r

/-- The state after the markers of an end. -/
def skipEnds : List Token → TokenReader → TokenReader
  | .documentEnd :: rest, r => skipEnds rest r.advance
  | _, r => r

/-- The one document of a text, if there is any. -/
def document (r : TokenReader) : Except Fault (Option Node) := do
  let fuel := 3 * r.tokens.length + 3
  match ← r.next with
  | .streamEnd => return none
  | t =>
    let isExplicit := match t with
      | .directive _ | .documentStart => true
      | _ => false
    let (n, r) ←
      if isExplicit then explicitDocument fuel r
      else node true false fuel { r with handles := standardHandles }
    let r := skipEnds r.tokens r
    let _ ← r.expect .streamEnd .secondDocument
    return some n

end TokenReader

/-- The tree of a text, none if it has no document. -/
def Node.ofText (t : Text) : Except Fault (Option Node) := do
  TokenReader.document { tokens := ← Token.ofText t }

end Yaml
end PhoneticBengali
