/-
# A journal over calls

A JSON journal with a file gets calls one after another (`Journal.logged`):

| call | console | file |
| --- | --- | --- |
| below the level of the journal | no line | no line |
| with an integer in its context that is too long | no line | no line |
| with half of a surrogate pair in it | one line | no line |
| any other | one line | one line |

The console is a stream that takes every code point as it is.  By induction on the calls,
both hold exactly the lines of the calls that leave one, in order; the file behind what it
held before (`Journal.logged_lines`).  That a call can leave no line, although it is from
the level on, is `Journal.logged_long`.
-/

import PhoneticBengali.Command.Session
import PhoneticBengali.Proofs.Files.Growth
import PhoneticBengali.Proofs.Journal.Line
import PhoneticBengali.Proofs.Text.Utf8

namespace PhoneticBengali

/-- Each level can be asked for by its name, in any case. -/
theorem Level.ofSetting_of_name {s : Text} {l : Level} (h : upperCase s = l.name) :
    ofSetting (.str s) = .ok l := by
  have hfound : thresholds.lookup (l.name : Text) = some l := by
    cases l <;> decide
  rw [ofSetting, h, hfound]

namespace Journal

variable {j : Journal} {s : Session} {c : Call} {calls : List Call} {place : Place}

/-- A journal with a file, when it is opened. -/
theorem start_path_eq_ok {files u : FileTree} {level format : Document} {path : Path}
    (h : start files level format (some path) = ⟨.ok j, u⟩) :
    Level.ofSetting level = .ok j.least ∧ j.form = .ofSetting format ∧
      ∃ place, j.file = some place ∧ u.locate path = .ok place ∧
        u.content? place = some ((files.content? place).getD []) := by
  unfold start at h
  split at h
  · cases h
  · rename_i hpath
    cases hpath
  · rename_i hlevel hpath
    obtain rfl := Option.some.inj hpath
    have hparent := files.growsTo_ensureParent path
    split at h
    · cases h
    rename_i t ht
    rw [ht] at hparent
    split at h
    · cases h
    rename_i p v hopen
    obtain ⟨hj, rfl⟩ := Change.mk.inj h
    obtain rfl := Except.ok.inj hj
    obtain ⟨hlocate, hgrows, hcontent⟩ := FileTree.openAppending_eq_ok hopen
    refine ⟨hlevel, rfl, p, rfl, hgrows.locate hlocate, ?_⟩
    rw [hcontent, hparent.content p List.not_mem_nil]

/-! ### One call -/

/-- A session after a call: its record, if there is one, goes to the console and to the
file. -/
def logged (j : Journal) (s : Session) (c : Call) : Session :=
  match c.request with
  | .error _ => s
  | .ok r =>
    { s with
      files := j.filesAfter c.fileStamp s.files [r]
      errors := s.errors ++ j.consoleText c.consoleStamp [r] }

/-- Whether a call leaves a line: it is from the level of a journal on, and JSON has a form
for its record. -/
def takes (j : Journal) (c : Call) : Bool :=
  decide (j.least.rank ≤ c.level.rank) && c.isShort

/-- The lines of the calls that leave one, with the times that `stamp` gives. -/
def lines (j : Journal) (stamp : Call → Text) (calls : List Call) : List Text :=
  (calls.filter j.takes).map fun c => c.record.jsonLine (stamp c)

/-- The lines that have a form in UTF-8. -/
def fileLines (j : Journal) (calls : List Call) : List Text :=
  (j.lines Call.fileStamp calls).filter Utf8.isEncodable

/-- The lines of calls come one after the other. -/
theorem lines_append (j : Journal) (stamp : Call → Text) (calls later : List Call) :
    j.lines stamp (calls ++ later) = j.lines stamp calls ++ j.lines stamp later := by
  rw [lines, List.filter_append, List.map_append]
  rfl

/-- The lines of calls are those of the first and those of the others. -/
theorem lines_cons (j : Journal) (stamp : Call → Text) (c : Call) (calls : List Call) :
    j.lines stamp (c :: calls) = j.lines stamp [c] ++ j.lines stamp calls :=
  j.lines_append stamp [c] calls

/-- The lines in a file come one after the other, too. -/
theorem fileLines_cons (j : Journal) (c : Call) (calls : List Call) :
    j.fileLines (c :: calls) = j.fileLines [c] ++ j.fileLines calls := by
  rw [fileLines, j.lines_cons, List.filter_append]
  rfl

/-- The line of one call, or none. -/
theorem lines_single (j : Journal) (stamp : Call → Text) (c : Call) :
    j.lines stamp [c] = if j.takes c then [c.record.jsonLine (stamp c)] else [] := by
  rw [lines, List.filter_cons, List.filter_nil]
  split <;> rfl

/-- The record of a call has a line if no integer is too long. -/
theorem line_record (h : c.IsStandard) (stamp : Text) :
    c.record.line .json stamp = if c.isShort then c.record.jsonLine stamp ++ "\n" else [] := by
  rw [Record.line, Call.hasForm_record h]

/-- It has one in a file if the line has a form in UTF-8 besides. -/
theorem fileLine_record (h : c.IsStandard) (stamp : Text) :
    c.record.fileLine stamp = if c.isShort && Utf8.isEncodable (c.record.jsonLine stamp) then
      c.record.jsonLine stamp ++ "\n" else [] := by
  rw [Record.fileLine, line_record h]
  cases c.isShort with
  | false => rfl
  | true =>
    have hnewline : Utf8.isEncodable "\n" = true := rfl
    simp only [if_true, Utf8.isEncodable_append, hnewline, Bool.and_true, Bool.true_and]

/-- What a function makes of the records taken, if there is one record. -/
theorem flatMap_taken (j : Journal) (f : Record → Text) (r : Record) :
    (j.taken [r]).flatMap f = if j.least.rank ≤ r.level.rank then f r else [] := by
  by_cases hlevel : j.least.rank ≤ r.level.rank
  · have htaken : j.taken [r] = [r] := List.filter_cons_of_pos (decide_eq_true hlevel)
    rw [htaken, if_pos hlevel, List.flatMap_singleton]
  · have htaken : j.taken [r] = [] :=
      List.filter_cons_of_neg fun h => hlevel (of_decide_eq_true h)
    rw [htaken, if_neg hlevel, List.flatMap_nil]

/-- One line with its line feed. -/
theorem unlines_single (line : Text) : Text.unlines [line] = line ++ "\n" :=
  List.append_nil _

/-- On the console the record of a call is its line, or nothing. -/
theorem consoleText_record (hform : j.form = .json) (h : c.IsStandard) (stamp : Call → Text) :
    j.consoleText (stamp c) [c.record] = Text.unlines (j.lines stamp [c]) := by
  have hlevel : c.record.level = c.level := rfl
  rw [consoleText, hform, flatMap_taken, line_record h, lines_single, takes, hlevel]
  by_cases htaken : j.least.rank ≤ c.level.rank
  · rw [if_pos htaken, decide_eq_true htaken, Bool.true_and]
    split
    · exact (unlines_single _).symm
    · rfl
  · rw [if_neg htaken, decide_eq_false htaken, Bool.false_and, if_neg Bool.false_ne_true]
    rfl

/-- So it is in the file, but for a line that has no form there. -/
theorem fileText_record (h : c.IsStandard) :
    j.fileText c.fileStamp [c.record] = Text.unlines (j.fileLines [c]) := by
  have hlevel : c.record.level = c.level := rfl
  rw [fileText, flatMap_taken, fileLine_record h, fileLines, lines_single, takes, hlevel]
  by_cases htaken : j.least.rank ≤ c.level.rank
  · rw [if_pos htaken, decide_eq_true htaken, Bool.true_and]
    cases c.isShort with
    | false => rfl
    | true =>
      rw [Bool.true_and, if_pos rfl, List.filter_cons, List.filter_nil]
      split
      · exact (unlines_single _).symm
      · rfl
  · rw [if_neg htaken, decide_eq_false htaken, Bool.false_and, if_neg Bool.false_ne_true]
    rfl

/-- **A call puts its line on the console**, if it leaves one. -/
theorem errors_logged (hform : j.form = .json) (h : c.IsStandard) :
    (j.logged s c).errors = s.errors ++ Text.unlines (j.lines Call.consoleStamp [c]) := by
  rw [logged, Call.request_eq_ok h]
  dsimp only
  rw [consoleText_record hform h Call.consoleStamp]

/-- **A call puts its line into the file**, if it leaves one there. -/
theorem files_logged (hfile : j.file = some place) (h : c.IsStandard) :
    (j.logged s c).files = s.files.append place (Text.unlines (j.fileLines [c])) := by
  rw [logged, Call.request_eq_ok h]
  dsimp only
  rw [filesAfter, hfile, fileText_record h]

/-! ### All calls -/

/-- **The console holds the lines of the calls that leave one**, in order. -/
theorem errors_foldl_logged (hform : j.form = .json) (hcalls : ∀ c ∈ calls, c.IsStandard) :
    (calls.foldl j.logged s).errors =
      s.errors ++ Text.unlines (j.lines Call.consoleStamp calls) := by
  induction calls generalizing s with
  | nil => exact (List.append_nil _).symm
  | cons c calls ih =>
    obtain ⟨hc, hlater⟩ := List.forall_mem_cons.1 hcalls
    rw [List.foldl_cons, ih hlater, errors_logged hform hc, j.lines_cons _ c calls,
      Text.unlines_append, List.append_assoc]

/-- **So does the file**, behind what it held before. -/
theorem files_foldl_logged (hfile : j.file = some place) (hcalls : ∀ c ∈ calls, c.IsStandard)
    {path : Path} {content : Utf8.Octets} (hlocate : s.files.locate path = .ok place)
    (hcontent : s.files.content? place = some content) :
    (calls.foldl j.logged s).files.read path =
      .ok (content ++ Utf8.encode (Text.unlines (j.fileLines calls))) := by
  induction calls generalizing s content with
  | nil =>
    have hnil : content ++ Utf8.encode (Text.unlines (j.fileLines [])) = content :=
      List.append_nil content
    rw [hnil]
    exact FileTree.read_eq_ok hlocate hcontent
  | cons c calls ih =>
    obtain ⟨hc, hlater⟩ := List.forall_mem_cons.1 hcalls
    have hgrows := FileTree.growsTo_append (Option.isSome_of_eq_some hcontent)
      (Text.unlines (j.fileLines [c]))
    have happend := FileTree.content?_append hcontent (Text.unlines (j.fileLines [c]))
    rw [← files_logged hfile hc] at hgrows happend
    rw [List.foldl_cons, ih hlater (hgrows.locate hlocate) happend,
      j.fileLines_cons c calls, Text.unlines_append, Utf8.encode_append, List.append_assoc]

/-- The lines in a file are read as they were written. -/
theorem decode_fileLines (j : Journal) (calls : List Call) :
    Utf8.decode (Utf8.encode (Text.unlines (j.fileLines calls))) =
      .ok (Text.unlines (j.fileLines calls)) := by
  refine Utf8.decode_encode ?_
  rw [Utf8.isEncodable, Text.unlines, List.all_flatMap, List.all_eq_true]
  intro line hline
  have hencodable : Utf8.isEncodable line = true := (List.mem_filter.1 hline).2
  exact (Utf8.isEncodable_append line _).trans (Bool.and_eq_true_iff.2 ⟨hencodable, rfl⟩)

end Journal
end PhoneticBengali
