/-
# Lines of a log

A record becomes one line, in one of two forms.

| form | line |
| --- | --- |
| pretty | `<time> [   LEVEL] <source>: <message>`, the level set to eight columns from the right |
| JSON | a mapping of `timestamp`, `level`, `logger`, `message` and the further fields |

A further field with one of the four names takes the place of its value.  A trace
is the last field, `exception`, and takes the place of the value of a field with
that name.  In the pretty form a message may have line breaks of its own, fields
are not shown, and a trace is a line of its own.
-/

import PhoneticBengali.Journal.Record
import PhoneticBengali.Json.Printer
import PhoneticBengali.Text.Utf8

namespace PhoneticBengali

/-- The form of the lines of a log. -/
inductive LineForm where
  | pretty
  | json
deriving DecidableEq, Repr

namespace LineForm

/-- The form that a setting asks for: all but `json` ask for the pretty one. -/
def ofSetting : Document → LineForm
  | .str s => if s = "json" then json else pretty
  | _ => pretty

end LineForm

namespace Record

/-- A text set to a width from the right. -/
def padLeft (width : Nat) (t : Text) : Text :=
  List.replicate (width - t.length) (' ' : CodePoint) ++ t

/-- A text, and a trace on a line of its own behind it. -/
def withTrace (t : Text) : Option Text → Text
  | none => t
  | some trace =>
    let newline : Text := if t.getLast? = some ('\n' : CodePoint) then [] else "\n"
    t ++ newline ++ trace

/-- The pretty line of a record. -/
def prettyLine (stamp : Text) (r : Record) : Text :=
  withTrace (stamp ++ " [" ++ padLeft 8 r.level.name ++ "] " ++ r.source ++ ": " ++ r.message)
    r.trace

/-- A record as a mapping. -/
def toDocument (stamp : Text) (r : Record) : Document :=
  let trace := r.trace.map fun t => (("exception" : Text), Document.str t)
  .map (Document.mergeEntries
    [(.str "timestamp", .str stamp), (.str "level", .str r.level.name),
      (.str "logger", .str r.source), (.str "message", .str r.message)]
    ((r.fields ++ trace.toList).map fun f => (.str f.1, f.2)))

/-- The JSON line of a record. -/
def jsonLine (stamp : Text) (r : Record) : Text :=
  Json.encode .line (r.toDocument stamp)

/-- The line of a record, with its line feed; nothing, if JSON has no form for a
field. -/
def line (form : LineForm) (stamp : Text) (r : Record) : Text :=
  match form with
  | .pretty => r.prettyLine stamp ++ "\n"
  | .json => if Json.hasForm (r.toDocument stamp) then r.jsonLine stamp ++ "\n" else []

/-- The line of a record in a file, always as JSON; nothing, if it has no form in
UTF-8. -/
def fileLine (stamp : Text) (r : Record) : Text :=
  let line := r.line .json stamp
  if Utf8.isEncodable line then line else []

end Record
end PhoneticBengali
