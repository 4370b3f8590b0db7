/-
# Documents from YAML texts

The value that a YAML text stands for.  A mapping takes in the entries of those
mappings that its key `<<` names; its own entries win over them, and of two
mappings in a list the earlier one wins.

| tag of a collection | value |
| --- | --- |
| `seq`, `map` | list, mapping |
| `set` | the keys of a mapping |
| `omap`, `pairs` | the list of the entries of mappings of one entry each |
| that of a scalar | what the scalar under the key `=` stands for |

A tree with several faults is blamed for the one nearest to its root, and of
equally near ones for the first.  The mappings that a mapping takes in are looked
for before its entries are read.
-/

import PhoneticBengali.Yaml.Node
import PhoneticBengali.Yaml.Tagged

namespace PhoneticBengali
namespace Yaml
namespace Node

/-- The tag of a kind of values that every YAML text knows. -/
def standardTag (name : String) : Text :=
  "tag:yaml.org,2002:" ++ name

/-- Whether a tag leaves the kind of a value open. -/
def isOpenTag (tag : Option Text) : Bool :=
  tag.all (· = ("!" : Text))

/-- Whether a node is the key under which other mappings are taken in. -/
def isMergeKey : Node → Bool
  | scalar tag isPlain text =>
    (tag = none ∧ isPlain ∧ text = "<<") || (tag = some "!" ∧ text = "<<") ||
      tag = some (standardTag "merge")
  | _ => false

/-- Whether a node is the key of what a mapping stands for as a scalar. -/
def isValueKey : Node → Bool
  | scalar tag isPlain text =>
    (tag = none ∧ isPlain ∧ text = "=") || (tag = some "!" ∧ text = "=") ||
      tag = some (standardTag "value")
  | _ => false

mutual

/-- The text of a node as a scalar. -/
def scalarText? : Node → Option Text
  | scalar _ _ text => some text
  | sequence _ _ => none
  | mapping _ entries => entryText? entries

/-- The text under the first key `=`. -/
def entryText? : List (Node × Node) → Option Text
  | [] => none
  | (k, v) :: rest => if k.isValueKey then scalarText? v else entryText? rest

end

/-- A fault, and how many collections have to be entered on the way to it. -/
structure DeepFault where
  depth : Nat
  fault : Fault
deriving DecidableEq, Repr

namespace DeepFault

/-- The fault as it is seen from the collection around. -/
def deeper (f : DeepFault) : DeepFault :=
  { f with depth := f.depth + 1 }

/-- The nearer of two faults, of equally near ones the first. -/
def nearer (f g : DeepFault) : DeepFault :=
  if g.depth < f.depth then g else f

end DeepFault

/-- A value, or the fault that is nearest. -/
abbrev Reading (α : Type) := Except DeepFault α

namespace Reading

variable {α β : Type}

/-- Two readings in one. -/
def both : Reading α → Reading β → Reading (α × β)
  | .ok a, .ok b => .ok (a, b)
  | .error f, .ok _ => .error f
  | .ok _, .error g => .error g
  | .error f, .error g => .error (f.nearer g)

/-- Many readings in one. -/
def all : List (Reading α) → Reading (List α)
  | [] => .ok []
  | x :: rest => (both x (all rest)).map fun (a, as) => a :: as

/-- A reading as it is seen from the collection around. -/
def inside (x : Reading α) : Reading α :=
  x.mapError DeepFault.deeper

end Reading

/-- What was found among the entries of a mapping: those that it takes in, its
own, and a fault among the mappings to take in. -/
structure Findings where
  taken : List (Reading (Document × Document)) := []
  own : List (Reading (Document × Document)) := []
  fault : Option Fault := none

namespace Findings

/-- All entries, later ones to win. -/
def entries (x : Findings) : List (Reading (Document × Document)) :=
  x.taken ++ x.own

/-- The entries of the mapping, each key once. -/
def reading (x : Findings) : Reading (List (Document × Document)) :=
  match x.fault with
  | some fault => .error ⟨0, fault⟩
  | none => (Reading.all x.entries).map (Document.mergeEntries [])

end Findings

/-- The value of a scalar whose tag says what it is. -/
def taggedScalar (tag text : Text) : Except Fault Document :=
  if tag = standardTag "str" then .ok (.str text)
  else if tag = standardTag "null" then .ok .null
  else if tag = standardTag "bool" then (Tagged.truth text).map .bool
  else if tag = standardTag "int" then (Tagged.integer text).map .int
  else if tag = standardTag "float" then (Tagged.float text).map .float
  else if tag = standardTag "binary" then (Tagged.bytes text).map .bytes
  else if tag = standardTag "timestamp" then (Tagged.timestamp text).map .time
  else .error (.unknownTag tag)

/-- The value of a scalar.  An equals sign and `<<` have a meaning as keys
alone. -/
def scalarValue (tag : Option Text) (isPlain : Bool) (text : Text) : Except Fault Document :=
  if isOpenTag tag then
    if isPlain ∨ tag.isSome then
      if text = "=" then .error (.unknownTag (standardTag "value"))
      else if text = "<<" then .error (.unknownTag (standardTag "merge"))
      else Plain.value text
    else .ok (.str text)
  else taggedScalar (tag.getD []) text

/-- The tags of collections. -/
def collectionTags : List Text :=
  ["seq", "map", "omap", "pairs", "set"].map standardTag

/-- The fault of a node with a tag that does not fit it.  A tag of collections is
not looked into before the node is entered. -/
def misfit (tag : Text) : DeepFault :=
  ⟨if collectionTags.contains tag then 1 else 0, .unknownTag tag⟩

/-- The reading of a scalar. -/
def scalarReading (tag : Option Text) (isPlain : Bool) (text : Text) : Reading Document :=
  (scalarValue tag isPlain text).mapError fun
    | .unknownTag other =>
      if tag = some other then misfit other else ⟨0, .unknownTag other⟩
    | fault => ⟨0, fault⟩

/-- What the tag of a collection asks for. -/
inductive Shape where
  /-- The usual value of a collection of its kind. -/
  | usual
  /-- The set of the keys of a mapping. -/
  | set
  /-- The entries of the items of a sequence. -/
  | pairs
  /-- The value of a scalar with that tag. -/
  | scalar (tag : Text)
deriving DecidableEq

/-- What the tag of a sequence asks for. -/
def sequenceShape (tag : Option Text) : Shape :=
  if isOpenTag tag ∨ tag = some (standardTag "seq") then .usual
  else if tag = some (standardTag "omap") ∨ tag = some (standardTag "pairs") then .pairs
  else .scalar (tag.getD [])

/-- What the tag of a mapping asks for. -/
def mappingShape (tag : Option Text) : Shape :=
  if isOpenTag tag ∨ tag = some (standardTag "map") then .usual
  else if tag = some (standardTag "set") then .set
  else .scalar (tag.getD [])

/-- The reading of a mapping that stands for a scalar. -/
def scalarOfMapping (tag : Text) (text : Option Text) : Reading Document :=
  match text with
  | none => .error (misfit tag)
  | some text =>
    if tag = standardTag "timestamp" then
      .error ⟨0, .raised false "TypeError" "expected string or bytes-like object, got 'list'"⟩
    else scalarReading (some tag) false text

/-- The value of a key. -/
def key : Node → Reading Document
  | scalar tag isPlain text =>
    if isOpenTag tag ∧ text = "=" then .ok (.str "=")
    else (scalarValue tag isPlain text).mapError (⟨0, ·⟩)
  | _ => .error ⟨0, .badKey⟩

mutual

/-- The value of a node. -/
def value : Node → Reading Document
  | scalar tag isPlain text => scalarReading tag isPlain text
  | sequence tag items =>
    match sequenceShape tag with
    | .pairs => (Reading.all (pairValues items)).inside.map .list
    | .scalar tag => .error (misfit tag)
    | _ => (Reading.all (values items)).inside.map .list
  | mapping tag entries =>
    match mappingShape tag with
    | .scalar tag => scalarOfMapping tag (entryText? entries)
    | shape => (findings entries).reading.inside.map fun entries =>
      if shape = .set then .set (entries.map (·.1)) else .map entries

/-- The values of nodes. -/
def values : List Node → List (Reading Document)
  | [] => []
  | n :: rest => value n :: values rest

/-- The entries of the items of an ordered mapping. -/
def pairValues : List Node → List (Reading Document)
  | [] => []
  | mapping _ [(k, v)] :: rest =>
    ((value k).both (value v)).map (fun (x, y) => .pair x y) :: pairValues rest
  | _ :: rest => .error ⟨0, .badPair⟩ :: pairValues rest

/-- What is found among the entries of a mapping. -/
def findings : List (Node × Node) → Findings
  | [] => {}
  | (k, v) :: rest =>
    let others := findings rest
    if k.isMergeKey then
      let more := taken v
      { others with taken := more.entries ++ others.taken, fault := more.fault.or others.fault }
    else
      let entry := match key k with
        | .error fault => .error fault
        | .ok d => (value v).map fun x => (d, x)
      { others with own := entry :: others.own }

/-- What is found in a node under the key `<<`. -/
def taken : Node → Findings
  | mapping _ entries => findings entries
  | sequence _ items => takenItems items
  | scalar _ _ _ => { fault := some .mergeOfNonMapping }

/-- What is found in a list under the key `<<`, the entries of its first mapping
last. -/
def takenItems : List Node → Findings
  | [] => {}
  | mapping _ entries :: rest =>
    let first := findings entries
    let others := takenItems rest
    { taken := others.entries ++ first.entries, fault := first.fault.or others.fault }
  | _ :: _ => { fault := some .mergeOfNonMapping }

end
end Node
end Yaml

/-- The document that a YAML text holds, null if it holds none. -/
def Document.ofYaml (t : Text) : Except Yaml.Fault Document := do
  match ← Yaml.Node.ofText t with
  | none => return .null
  | some n => n.value.mapError (·.fault)

end PhoneticBengali
