/-
# The grammar of rule files

A rule file is a list of entries.

| part | form |
| --- | --- |
| rule | a mapping with a non-empty text `find`, a text `replace` and perhaps a list `rules` |
| alternative | a mapping with a text `replace` and a non-empty list `matches` |
| condition | a mapping with a text `scope`, a `type` of `prefix` or `suffix`, and for `exact` a non-empty text `value` |

An exclamation mark in front of a scope negates the condition.  Other keys are
ignored.

Entries of a list that are no rules are left out, and so are alternatives that
break the grammar, since they could never apply; a warning tells of each.  The
warning about an entry shows it: a list fails at the first entry to be left out
that cannot be shown.
-/

import PhoneticBengali.Document.Inline
import PhoneticBengali.Journal.Record
import PhoneticBengali.Rule.Basic

namespace PhoneticBengali

/-- How a part of a rule file breaks the grammar. -/
inductive GrammarFault where
  | conditionKind (got : Document)
  | scopeKind (got : Document)
  | unknownCondition (raw : Document)
  | literalMissing (got : Document)
  | alternativeKind (got : Document)
  | replaceKind (got : Document)
  | noConditions
  | tableKind (got : Document)
  /-- An entry to be left out that cannot be shown. -/
  | unshowable (fault : NumeralFault)
deriving Repr

namespace GrammarFault

/-- What is said about a fault. -/
def message : GrammarFault → Text
  | conditionKind d => "condition must be a mapping, got " ++ d.kind
  | scopeKind d => d.showIn ("condition scope must be a string, got " ++ ·)
  | unknownCondition d => d.showIn ("unknown condition " ++ ·)
  | literalMissing d => d.showIn ("exact condition needs a non-empty value, got " ++ ·)
  | alternativeKind d => "conditional rule must be a mapping, got " ++ d.kind
  | replaceKind d => d.showIn ("conditional rule replace must be a string, got " ++ ·)
  | noConditions => "conditional rule needs at least one match"
  | tableKind d => "rule table must be a list, got " ++ d.kind
  | unshowable fault => fault.message

end GrammarFault

namespace Scope

/-- The scope of that name, if it is one of the four. -/
def ofName? (s : Text) : Option Scope :=
  match ofName s with
  | other _ => none
  | scope => some scope

end Scope

namespace Side

/-- The side that a document names. -/
def ofDocument? : Document → Option Side
  | .str s => ofName? s
  | _ => none

end Side

namespace Condition

/-- A scope name without the exclamation mark in front, and whether there was one. -/
def splitNegation : Text → Bool × Text
  | '!' :: name => (true, name)
  | name => (false, name)

/-- The condition that a document describes. -/
def ofDocument (raw : Document) : Except GrammarFault Condition :=
  match raw with
  | .map entries =>
    match Document.field entries "scope" with
    | .str s =>
      let (negate, name) := splitNegation s
      match Side.ofDocument? (Document.field entries "type"), Scope.ofName? name with
      | some side, some .exact =>
        match Document.field entries "value" with
        | .str literal =>
          if literal.isEmpty then .error (.literalMissing (.str literal))
          else .ok ⟨side, .exact, negate, some literal⟩
        | value => .error (.literalMissing value)
      | some side, some scope => .ok ⟨side, scope, negate, none⟩
      | _, _ => .error (.unknownCondition raw)
    | scope => .error (.scopeKind scope)
  | _ => .error (.conditionKind raw)

end Condition

namespace Alternative

/-- The alternative that a document describes. -/
def ofDocument (raw : Document) : Except GrammarFault Alternative :=
  match raw with
  | .map entries =>
    match Document.field entries "replace" with
    | .str replace =>
      match Document.field entries "matches" with
      | .list (first :: rest) => do
        let conditions ← (first :: rest).mapM Condition.ofDocument
        return ⟨conditions, replace⟩
      | _ => .error .noConditions
    | replace => .error (.replaceKind replace)
  | _ => .error (.alternativeKind raw)

end Alternative

/-- What makes an entry no rule: at which key, what is said about it, and the part
of the entry that is blamed. -/
structure Problem where
  place : Text
  message : Text
  subject : Document
deriving Repr

namespace Problem

/-- A problem as a line of text. -/
def line (p : Problem) : Text :=
  p.place ++ ": " ++ p.message

/-- Places a problem before the first one whose message comes after its own. -/
def insert (p : Problem) : List Problem → List Problem
  | [] => [p]
  | q :: rest => if q.message < p.message then q :: insert p rest else p :: q :: rest

/-- Problems by message; those with equal messages keep their order. -/
def sort (ps : List Problem) : List Problem :=
  ps.foldr insert []

/-- The problem of a value that is not of the type it should be. -/
def notOfType (place : Text) (value : Document) (type : String) : Problem :=
  ⟨place, value.inline ++ " is not of type '" ++ type ++ "'", value⟩

/-- The problem of a mapping without a key. -/
def required (entries : List (Document × Document)) (key : Text) : Problem :=
  ⟨"root", "'" ++ key ++ "' is a required property", .map entries⟩

/-- The problem of a text that holds nothing. -/
def empty (place : Text) : Problem :=
  ⟨place, (Document.str []).inline ++ " should be non-empty", .str []⟩

/-- Problems of a key that must hold a text, a non-empty one if `filled` is set. -/
def ofText (entries : List (Document × Document)) (key : Text) (filled : Bool) : List Problem :=
  match Document.field? entries key with
  | none => [required entries key]
  | some (.str s) => if filled && s.isEmpty then [empty key] else []
  | some value => [notOfType key value "string"]

/-- Problems of a key that may hold a list. -/
def ofList (entries : List (Document × Document)) (key : Text) : List Problem :=
  match Document.field? entries key with
  | none => []
  | some (.list _) => []
  | some value => [notOfType key value "array"]

/-- Everything that makes a document no rule. -/
def ofRule : Document → List Problem
  | .map entries =>
    sort (ofText entries "find" true ++ ofText entries "replace" false ++ ofList entries "rules")
  | raw => [notOfType "root" raw "object"]

/-- The problems of a document, told.  To put them in order, the part that each of
them blames is shown. -/
def check (raw : Document) : Except NumeralFault (List Problem) :=
  if (ofRule raw).any (·.subject.holdsLong) then .error .tooLong else .ok (ofRule raw)

end Problem

namespace Rule

/-- The source of the records on rule files. -/
def source : Text :=
  "banglit.rules.table"

/-- The alternatives among the entries of a rule's list, numbered from `index`. -/
def alternativesOf (find : Text) : (index : Nat) → List Document → Noted (List Alternative)
  | _, [] => ⟨[], []⟩
  | index, raw :: rest =>
    let others := alternativesOf find (index + 1) rest
    match Alternative.ofDocument raw with
    | .ok a => ⟨a :: others.value, others.records⟩
    | .error fault =>
      let message := "Dropping conditional rule " ++ Numeral.ofNat index ++ " of " ++
        Text.quoted find ++ ": " ++ fault.message
      ⟨others.value, Record.plain .warning source message :: others.records⟩

/-- The warning about an entry that is no rule. -/
def skipped (shown : Text) (problems : List Problem) : Record :=
  let reasons := ("; " : Text).intercalate (problems.map (·.line))
  Record.plain .warning source ("Skipping malformed rule " ++ shown ++ ": " ++ reasons)

/-- The rule that a document describes, if it is one. -/
def ofDocument (raw : Document) : Attempt NumeralFault (Option Rule) :=
  match Problem.check raw, raw with
  | .error fault, _ => .fail fault
  | .ok [], .map entries =>
    match Document.field entries "find", Document.field entries "replace" with
    | .str find, .str replace =>
      let entries := match Document.field entries "rules" with
        | .list items => items
        | _ => []
      (alternativesOf find 0 entries).map fun alternatives =>
        .ok (some ⟨find, replace, alternatives⟩)
    | _, _ => ⟨.ok none, []⟩
  | .ok problems, _ =>
    match raw.shown with
    | .error fault => .fail fault
    | .ok shown => ⟨.ok none, [skipped shown problems]⟩

end Rule

namespace RuleTable

/-- The records on the rules read from a list of entries. -/
def summary (entries : List Document) (table : RuleTable) : List Record :=
  let skipped := entries.length - table.length
  let warning := s!"Skipped {skipped} malformed rule(s) of {entries.length}"
  (if skipped = 0 then [] else [Record.plain .warning Rule.source warning]) ++
    [Record.plain .debug Rule.source s!"Loaded {table.length} rules"]

/-- The rules among the entries of a list. -/
def ofEntries (entries : List Document) : Attempt NumeralFault RuleTable :=
  (Attempt.all (entries.map Rule.ofDocument)).andThen fun rules =>
    ⟨.ok (rules.filterMap id), summary entries (rules.filterMap id)⟩

/-- The rule table that a document describes. -/
def ofDocument : Document → Attempt GrammarFault RuleTable
  | .list entries => (ofEntries entries).map (Except.mapError .unshowable)
  | raw => .fail (.tableKind raw)

end RuleTable
end PhoneticBengali
