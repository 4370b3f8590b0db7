/-
# The JSON line on a call

A call asks for a record by the name of its level, with texts and documents that JSON has a
form for (`Call.IsStandard`).  Its line is one object:

| field | value |
| --- | --- |
| `timestamp` | the time, or what the context has under that name |
| `level`, `logger`, `message` | those of the call |
| the other names of the context | their values, in order |

So two lines on one call differ in the time at most, and all that the call gives is read
from each of them (`Call.isLine_jsonLine`).
-/

import PhoneticBengali.Journal.Line
import PhoneticBengali.Journal.Request
import PhoneticBengali.Proofs.Json.OneLine
import PhoneticBengali.Proofs.Json.RoundTrip

namespace PhoneticBengali

/-! ### Entries -/

namespace Document

open Json (entriesOf)

variable {es : List (Text × Document)}

/-- A field of entries with texts for keys. -/
theorem field?_entriesOf (es : List (Text × Document)) (name : Text) :
    field? (entriesOf es) name = es.lookup name := by
  induction es with
  | nil => rfl
  | cons e es ih =>
    by_cases he : e.1 = name
    · have hkey : sameKey (.str e.1) (.str name) = true := beq_iff_eq.2 he
      rw [List.lookup_cons, beq_iff_eq.2 he.symm]
      exact congrArg (Option.map Prod.snd) (List.find?_cons_of_pos hkey)
    · have hkey : ¬ sameKey (.str e.1) (.str name) = true := fun hsame => he (beq_iff_eq.1 hsame)
      rw [List.lookup_cons, beq_false_of_ne (Ne.symm he), ← ih]
      exact congrArg (Option.map Prod.snd) (List.find?_cons_of_neg hkey)

/-- An entry that is found is there. -/
theorem mem_of_lookup {name : Text} {value : Document} (h : es.lookup name = some value) :
    (name, value) ∈ es := by
  obtain ⟨before, after, rfl, -⟩ := List.lookup_eq_some_iff.1 h
  exact List.mem_append_right _ (List.mem_cons_self ..)

/-- With distinct names, each entry is the one that is found by its name. -/
theorem lookup_of_mem (hnames : (es.map (·.1)).Nodup) {name : Text} {value : Document}
    (h : (name, value) ∈ es) : es.lookup name = some value := by
  obtain ⟨before, after, rfl⟩ := List.append_of_mem h
  rw [List.map_append, List.nodup_append] at hnames
  refine List.lookup_eq_some_iff.2 ⟨before, after, rfl, fun e he => bne_iff_ne.2 ?_⟩
  exact (hnames.2.2 _ (List.mem_map.2 ⟨e, he, rfl⟩) _ (List.mem_cons_self ..)).symm

/-- What is set in front of entries keeps its place, and takes a value of its name. -/
theorem mergeEntries_cons (name : Text) (value : Document) (hes : (es.map (·.1)).Nodup)
    {before : List (Text × Document)}
    (hnames : ((before ++ es.filter (·.1 ≠ name)).map (·.1)).Nodup) :
    mergeEntries (entriesOf ((name, value) :: before)) (entriesOf es) =
      entriesOf ((name, (es.lookup name).getD value) ::
        (before ++ es.filter (·.1 ≠ name))) := by
  induction es generalizing value before with
  | nil => simp [mergeEntries, entriesOf]
  | cons e es ih =>
    obtain ⟨hfirst, hlater⟩ := List.nodup_cons.1 hes
    obtain ⟨key, d⟩ := e
    by_cases hkey : key = name
    · subst hkey
      have hlookup : es.lookup key = none := by
        rw [List.lookup_eq_none_iff]
        exact fun e he => bne_iff_ne.2 fun heq => hfirst (List.mem_map.2 ⟨e, he, heq.symm⟩)
      have hinsert : insertEntry (.str key) d (entriesOf ((key, value) :: before)) =
          entriesOf ((key, d) :: before) :=
        if_pos (beq_iff_eq.2 rfl)
      rw [List.filter_cons_of_neg (by simp)] at hnames ⊢
      have hrest := ih d hlater hnames
      rw [hlookup, Option.getD_none] at hrest
      rw [List.lookup_cons_self, Option.getD_some, ← hrest, ← hinsert]
      rfl
    · have hinsert : insertEntry (.str key) d (entriesOf ((name, value) :: before)) =
          entriesOf ((name, value) :: (before ++ [(key, d)])) := by
        have hother : sameKey (.str name) (.str key) = false := beq_false_of_ne (Ne.symm hkey)
        have hnew : key ∉ before.map (·.1) := by
          rw [List.filter_cons_of_pos (by simpa using hkey), List.map_append,
            List.nodup_append] at hnames
          exact fun hmem => hnames.2.2 _ hmem _ (List.mem_cons_self ..) rfl
        rw [entriesOf, List.map_cons, insertEntry, hother, if_neg Bool.false_ne_true,
          ← entriesOf, Json.insertEntry_entriesOf d hnew]
        rfl
      rw [List.filter_cons_of_pos (by simpa using hkey), List.append_cons] at hnames ⊢
      rw [List.lookup_cons, beq_false_of_ne (Ne.symm hkey), ← ih value hlater hnames, ← hinsert]
      rfl

end Document

/-! ### Calls -/

/-- A call for a record: its level and the word for it, the name of the logger, the message
and the context; and the times that the lines on the console and in the file show. -/
structure Call where
  level : Level
  word : Text
  source : Text
  message : Text
  context : List (Text × Document)
  consoleStamp : Text
  fileStamp : Text

namespace Call

/-- What a call asks for. -/
def request (c : Call) : Except RequestFault Record :=
  Record.request c.source (.str c.word) c.message
    (c.context.map fun f => (f.1, .document f.2))

/-- The record that a call gives. -/
def record (c : Call) : Record :=
  ⟨c.level, c.source, c.message, c.context, none⟩

/-- A call by the name of its level, in any case, with a context of JSON values.  No name of
the context is that of another parameter, and no two are alike. -/
structure IsStandard (c : Call) : Prop where
  word : lowerCase c.word = lowerCase c.level.name
  free : ∀ f ∈ c.context, f.1 ∉ Record.takenNames
  names : (c.context.map (·.1)).Nodup
  values : ∀ f ∈ c.context, f.2.IsPlain

variable {c : Call}

/-- The name of a level asks for a record of that level, without a trace. -/
theorem lookup_levels (l : Level) :
    LoggerWord.levels.lookup (lowerCase l.name) = some l ∧
      LoggerWord.trace? (lowerCase l.name) = none := by
  cases l <;> decide +kernel

/-- **A call gets its record.** -/
theorem request_eq_ok (h : c.IsStandard) : c.request = .ok c.record := by
  have hfree : (c.context.map fun f => (f.1, ContextValue.document f.2)).find?
      (fun f => Record.takenNames.contains f.1) = none := by
    rw [List.find?_eq_none]
    intro f hf
    obtain ⟨e, he, rfl⟩ := List.mem_map.1 hf
    simpa using h.free e he
  obtain ⟨hlevel, htrace⟩ := lookup_levels c.level
  have hfields : c.context.map (fun f => (f.1, (ContextValue.document f.2).toDocument)) =
      c.context :=
    List.map_id c.context
  simp only [request, Record.request, hfree, h.word, Record.ofWord, hlevel, htrace, List.map_map]
  show Except.ok ({ c.record with fields := _ } : Record) = _
  exact congrArg (fun fields => Except.ok { c.record with fields }) hfields

/-! ### Lines -/

/-- The name of the field for the time. -/
def timeName : Text :=
  "timestamp"

/-- The timestamp of a line. -/
def timestamp (c : Call) (stamp : Text) : Document :=
  (c.context.lookup timeName).getD (.str stamp)

/-- What a line says of the call itself. -/
def ownFields (c : Call) : List (Text × Document) :=
  [("level", .str c.level.name), ("logger", .str c.source), ("message", .str c.message)]

/-- The entries of a line behind the timestamp. -/
def rest (c : Call) : List (Text × Document) :=
  c.ownFields ++ c.context.filter (·.1 ≠ timeName)

/-- The entries of a line. -/
def entries (c : Call) (stamp : Text) : List (Text × Document) :=
  (timeName, c.timestamp stamp) :: c.rest

/-- A line with the time `stamp` on a call: all that the call gives is read from it. -/
structure IsLine (c : Call) (stamp line : Text) : Prop where
  text : line = Json.encode .line (.map (Json.entriesOf (c.entries stamp)))
  newline : ('\n' : CodePoint) ∉ line
  decode : Json.decode line = some (.map (Json.entriesOf (c.entries stamp)))
  level : Document.field? (Json.entriesOf (c.entries stamp)) "level" = some (.str c.level.name)
  logger : Document.field? (Json.entriesOf (c.entries stamp)) "logger" = some (.str c.source)
  message : Document.field? (Json.entriesOf (c.entries stamp)) "message" = some (.str c.message)
  context : ∀ f ∈ c.context,
    Document.field? (Json.entriesOf (c.entries stamp)) f.1 = some f.2

/-- The names of these fields. -/
theorem names_ownFields (c : Call) :
    c.ownFields.map (·.1) = (["level", "logger", "message"] : List Text) :=
  rfl

/-- No value of the context holds an integer of more digits than are converted. -/
def isShort (c : Call) : Bool :=
  c.context.all fun f => !f.2.holdsLong

section Entries

variable (h : c.IsStandard)
include h

/-- No two entries behind the timestamp have one name. -/
theorem nodup_rest : (c.rest.map (·.1)).Nodup := by
  have hown : (c.ownFields.map (·.1)).Nodup := by
    rw [names_ownFields]
    decide
  rw [rest, List.map_append, List.nodup_append]
  refine ⟨hown, h.names.sublist (List.filter_sublist.map _), ?_⟩
  rintro name htaken _ hname rfl
  obtain ⟨f, hf, rfl⟩ := List.mem_map.1 hname
  refine h.free f (List.mem_filter.1 hf).1 ?_
  simpa [names_ownFields, Record.takenNames, or_left_comm] using htaken

/-- No two entries have one name. -/
theorem nodup_entries (stamp : Text) : ((c.entries stamp).map (·.1)).Nodup := by
  refine List.nodup_cons.2 ⟨fun hmem => ?_, nodup_rest h⟩
  rw [rest, List.map_append, List.mem_append] at hmem
  rcases hmem with hown | hcontext
  · have hnot : timeName ∉ c.ownFields.map (·.1) := by
      rw [names_ownFields]
      decide
    exact hnot hown
  · simp at hcontext

/-- **The record of a call is the mapping of its entries.** -/
theorem toDocument_record (stamp : Text) :
    c.record.toDocument stamp = .map (Json.entriesOf (c.entries stamp)) := by
  have hmerged := Document.mergeEntries_cons timeName (.str stamp) h.names (nodup_rest h)
  have hfields : c.record.fields ++ [] = c.context := List.append_nil _
  rw [entries, timestamp, rest, ← hmerged, ← hfields]
  rfl

/-- What the context gives is among the entries. -/
theorem mem_entries {f : Text × Document} (hf : f ∈ c.context) (stamp : Text) :
    f ∈ c.entries stamp := by
  by_cases hname : f.1 = timeName
  · obtain ⟨name, value⟩ := f
    subst hname
    have htimestamp : c.timestamp stamp = value := by
      rw [timestamp, Document.lookup_of_mem h.names hf, Option.getD_some]
    exact List.mem_cons.2 (.inl (by rw [htimestamp]))
  · refine List.mem_cons_of_mem _ (List.mem_append_right _ (List.mem_filter.2 ⟨hf, ?_⟩))
    simpa using hname

omit h in
/-- The value of an entry is a text, or the context gives it. -/
theorem of_mem_entries {stamp : Text} {f : Text × Document} (hf : f ∈ c.entries stamp) :
    (∃ s, f.2 = .str s) ∨ f ∈ c.context := by
  rcases List.mem_cons.1 hf with rfl | hf
  · cases hlookup : c.context.lookup timeName with
    | none => exact .inl ⟨stamp, by rw [timestamp, hlookup, Option.getD_none]⟩
    | some value =>
      rw [timestamp, hlookup, Option.getD_some]
      exact .inr (Document.mem_of_lookup hlookup)
  · rcases List.mem_append.1 hf with hown | hcontext
    · obtain rfl | rfl | rfl := by simpa [ownFields] using hown
      all_goals exact .inl ⟨_, rfl⟩
    · exact .inr (List.mem_filter.1 hcontext).1

/-- The entries are a JSON value. -/
theorem isPlain_entries (stamp : Text) :
    Document.IsPlain (.map (Json.entriesOf (c.entries stamp))) := by
  refine .map (nodup_entries h stamp) fun e he => ?_
  rcases of_mem_entries he with ⟨s, hs⟩ | hcontext
  · exact hs ▸ .str s
  · exact h.values e hcontext

/-- **JSON has a form for the record of a call exactly if no integer is too long.** -/
theorem hasForm_record (stamp : Text) :
    Json.hasForm (c.record.toDocument stamp) = c.isShort := by
  have hentries : Json.formFault? (.map (Json.entriesOf (c.entries stamp))) = none ↔
      ∀ e ∈ c.entries stamp, Json.formFault? e.2 = none := Json.entriesFault?_eq_none_iff
  rw [toDocument_record h, Json.hasForm, Bool.eq_iff_iff, Option.isNone_iff_eq_none, hentries,
    isShort, List.all_eq_true]
  constructor
  · intro hform f hf
    rw [Bool.not_eq_true', ← Json.formFault?_eq_none_iff (h.values f hf)]
    exact hform f (mem_entries h hf stamp)
  · intro hshort e he
    rcases of_mem_entries he with ⟨s, hs⟩ | hcontext
    · exact hs ▸ rfl
    · rw [Json.formFault?_eq_none_iff (h.values e hcontext), ← Bool.not_eq_true']
      exact hshort e hcontext

/-- **All that a call gives is read from its line.** -/
theorem isLine_jsonLine (hshort : c.isShort = true) (stamp : Text) :
    c.IsLine stamp (c.record.jsonLine stamp) := by
  have hfield : ∀ {name value}, (name, value) ∈ c.entries stamp →
      Document.field? (Json.entriesOf (c.entries stamp)) name = some value := fun hmem =>
    (Document.field?_entriesOf _ _).trans (Document.lookup_of_mem (nodup_entries h stamp) hmem)
  have hlayout : Json.Layout.line.IsBlank := trivial
  have hform := (hasForm_record h stamp).trans hshort
  rw [toDocument_record h] at hform
  rw [Record.jsonLine, toDocument_record h]
  exact {
    text := rfl
    newline := (Json.isOneLine_encode _).newline_not_mem
    decode := Json.decode_encode hlayout (isPlain_entries h stamp) hform
    level := hfield (by simp [entries, rest, ownFields])
    logger := hfield (by simp [entries, rest, ownFields])
    message := hfield (by simp [entries, rest, ownFields])
    context := fun f hf => hfield (mem_entries h hf stamp) }

end Entries

end Call
end PhoneticBengali
