/-
# Records on request

A record is asked for by a word, in any case, a message and a context, which gives
the further fields.  A rule may stand in a context; it is written with everything it
holds.
-/

import PhoneticBengali.Document.Inline
import PhoneticBengali.Journal.Word
import PhoneticBengali.Rule.Basic

namespace PhoneticBengali

/-- Why a record is not made. -/
inductive RequestFault where
  /-- A field with the name of something that every request has. -/
  | takenName (name : Text)
  /-- A value in place of the word. -/
  | wordKind (got : Document)
  | unknownWord (word : Text)
  /-- A word that a logger knows, but that asks for no record. -/
  | refused (reason : Text)
deriving Repr

namespace RequestFault

/-- What is said about a fault. -/
def message : RequestFault → Text
  | takenName name => "log_with_context() got multiple values for argument '" ++ name ++ "'"
  | wordKind got => s!"'{got.fullKind}' object has no attribute 'lower'"
  | unknownWord word => "'Logger' object has no attribute '" ++ word ++ "'"
  | refused reason => reason

end RequestFault

namespace Condition

/-- A condition as a mapping. -/
def toDocument (c : Condition) : Document :=
  .map [(.str "position", .str c.side.name), (.str "scope", .str c.scope.name),
    (.str "negate", .bool c.negate),
    (.str "literal", (c.literal.map Document.str).getD .null)]

end Condition

namespace Rule

/-- A rule as a mapping. -/
def toDocument (r : Rule) : Document :=
  .map [(.str "find", .str r.find), (.str "replace", .str r.replace),
    (.str "rules", .list (r.alternatives.map fun a =>
      .map [(.str "conditions", .list (a.conditions.map Condition.toDocument)),
        (.str "replace", .str a.replace)]))]

end Rule

/-- A value in a context. -/
inductive ContextValue where
  | document (d : Document)
  | rule (r : Rule)

namespace ContextValue

/-- A value as a document. -/
def toDocument : ContextValue → Document
  | document d => d
  | rule r => r.toDocument

end ContextValue

namespace Record

/-- The names that no field of a context may have. -/
def takenNames : List Text :=
  ["logger", "level", "message"]

/-- The record that a word asks of the logger of a name. -/
def ofWord (source word message : Text) (fields : List (Text × Document)) :
    Except RequestFault Record :=
  match LoggerWord.levels.lookup word, LoggerWord.refusal? source word with
  | some level, _ => .ok ⟨level, source, message, fields, LoggerWord.trace? word⟩
  | none, some reason => .error (.refused reason)
  | none, none => .error (.unknownWord word)

/-- The record that a request asks for. -/
def request (source : Text) (word : Document) (message : Text)
    (context : List (Text × ContextValue)) : Except RequestFault Record :=
  match context.find? fun f => takenNames.contains f.1, word with
  | some f, _ => .error (.takenName f.1)
  | none, .str s => ofWord source (lowerCase s) message (context.map fun f => (f.1, f.2.toDocument))
  | none, other => .error (.wordKind other)

end Record
end PhoneticBengali
