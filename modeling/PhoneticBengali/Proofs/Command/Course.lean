/-
# The course of a run

A run goes through four stages before its command (`Host.Course`), and each can end
it.  A command then ends in one of five ways (`Desk.run_cases`):

| way | exit code | output | files written |
| --- | --- | --- | --- |
| done | 0 | what it says, if anything | the journal and the file that the command names |
| failed | 1 | nothing, and an error is told | the journal |
| refused | 1 | the lines before one that the output refuses, and an error is told | the journal and the file |
| rejected, `rules check` only | 1 | the report, which ends in `FAILED` | the journal |
| broken off, `rules check` only | 1 | the report before a line that the output refuses | the journal |

Only from the last one a fault escapes.  What the output makes of a line is not known, nor
how a YAML file is read; both are given with the run.
-/

import PhoneticBengali.Command.Run
import PhoneticBengali.Proofs.Files.Writing

namespace PhoneticBengali

/-! ### Lines told -/

namespace Text

/-- A text of whole lines. -/
def IsLines (t : Text) : Prop :=
  t = [] ∨ ∃ u, t = u ++ "\n"

/-- A text to which lines were added, of which the last one begins with `start`. -/
def Gains (start t u : Text) : Prop :=
  ∃ before rest, IsLines before ∧ u = t ++ before ++ (start ++ rest ++ "\n")

/-- Whole lines behind whole lines are whole lines. -/
theorem IsLines.append {t u : Text} (ht : IsLines t) (hu : IsLines u) : IsLines (t ++ u) := by
  obtain rfl | ⟨v, rfl⟩ := hu
  · rwa [List.append_nil]
  · exact .inr ⟨t ++ v, by rw [List.append_assoc]⟩

/-- The whole lines of several things are whole lines. -/
theorem IsLines.flatMap {α : Type} {f : α → Text} (h : ∀ x, IsLines (f x)) (xs : List α) :
    IsLines (xs.flatMap f) := by
  induction xs with
  | nil => exact .inl rfl
  | cons x xs ih =>
    rw [List.flatMap_cons]
    exact (h x).append ih

/-- Lines with a line feed each are whole lines. -/
theorem isLines_unlines (lines : List Text) : IsLines (unlines lines) :=
  .flatMap (fun line => .inr ⟨line, rfl⟩) lines

/-- Halves of pairs are spelled out one by one. -/
theorem withHalvesSpelled_append (t u : Text) :
    withHalvesSpelled (t ++ u) = withHalvesSpelled t ++ withHalvesSpelled u :=
  List.flatMap_append

/-- Whole lines in which halves of pairs are spelled out are whole lines. -/
theorem IsLines.withHalvesSpelled {t : Text} (h : IsLines t) : IsLines t.withHalvesSpelled := by
  obtain rfl | ⟨u, rfl⟩ := h
  · exact .inl rfl
  · exact .inr ⟨u.withHalvesSpelled, withHalvesSpelled_append u "\n"⟩

/-- Whole lines added before do not matter. -/
theorem Gains.after {start t u v : Text} (h : Gains start (t ++ u) v) (hu : IsLines u) :
    Gains start t v := by
  obtain ⟨before, rest, hbefore, rfl⟩ := h
  exact ⟨u ++ before, rest, hu.append hbefore, by simp only [List.append_assoc]⟩

/-- What has no introducer stays in front of a text without its sequences. -/
theorem withoutSequences_append {t : Text} (h : ('\x1b' : CodePoint) ∉ t) (u : Text) :
    withoutSequences (t ++ u) = t ++ withoutSequences u := by
  induction t with
  | nil => rfl
  | cons c t ih =>
    obtain ⟨hc, ht⟩ := not_or.1 fun hmem => h (List.mem_cons.2 hmem)
    have hnone : sequenceLength (c :: (t ++ u)) = 0 := by
      rw [sequenceLength.eq_2]
      rintro t' h'
      exact hc (List.cons.inj h').1.symm
    rw [List.cons_append, withoutSequences, withoutSequences.go, hnone]
    exact congrArg (c :: ·) (ih ht)

end Text

/-- The line of a record is one, or nothing. -/
theorem Record.isLines_line (form : LineForm) (stamp : Text) (r : Record) :
    Text.IsLines (r.line form stamp) := by
  cases form with
  | pretty => exact .inr ⟨_, rfl⟩
  | json =>
    rw [line]
    split
    · exact .inr ⟨_, rfl⟩
    · exact .inl rfl

/-- What records put on the error output is whole lines. -/
theorem Journal.isLines_errorText (j : Journal) (stamp : Text) (lost : Record → List Text)
    (records : List Record) : Text.IsLines (j.errorText stamp lost records) := by
  refine .flatMap (fun r => ?_) _
  have hreport := Text.isLines_unlines (lost r)
  refine .append ?_ ?_
  · split
    · exact hreport
    · exact r.isLines_line j.form stamp
  · split
    · exact hreport
    · exact .inl rfl

/-! ### Lines said -/

namespace Echo

/-- An output takes all lines, and makes a text of them. -/
def Takes (echo : Echo) (lines : List Text) (t : Text) : Prop :=
  ∃ texts : List Text, lines.map echo = texts.map .ok ∧ texts.flatten = t

/-- An output refuses one of the lines, and makes a text of those before it. -/
def StopsAfter (echo : Echo) (lines : List Text) (t : Text) (fault : EchoFault) : Prop :=
  ∃ before line after, lines = before ++ line :: after ∧ echo.Takes before t ∧
    echo line = .error fault

variable {echo : Echo} {line t u : Text} {lines : List Text} {fault : EchoFault}

/-- Another line is taken in front. -/
theorem Takes.cons (hline : echo line = .ok t) (h : echo.Takes lines u) :
    echo.Takes (line :: lines) (t ++ u) := by
  obtain ⟨texts, htexts, rfl⟩ := h
  exact ⟨t :: texts, by rw [List.map_cons, List.map_cons, hline, htexts], rfl⟩

/-- It is put out before the output stops. -/
theorem StopsAfter.cons (hline : echo line = .ok t) (h : echo.StopsAfter lines u fault) :
    echo.StopsAfter (line :: lines) (t ++ u) fault := by
  obtain ⟨before, refused, after, rfl, htakes, hrefused⟩ := h
  exact ⟨line :: before, refused, after, rfl, htakes.cons hline, hrefused⟩

/-- An output that stops does not take all lines. -/
theorem StopsAfter.not_takes (h : echo.StopsAfter lines t fault) : ¬ echo.Takes lines u := by
  obtain ⟨before, refused, after, rfl, -, hrefused⟩ := h
  rintro ⟨texts, htexts, -⟩
  have hmem : echo refused ∈ texts.map Except.ok := by
    rw [← htexts]
    exact List.mem_map_of_mem (List.mem_append_right _ (List.mem_cons_self ..))
  obtain ⟨text, -, htext⟩ := List.mem_map.1 hmem
  rw [hrefused] at htext
  cases htext

end Echo

/-- **Lines are taken by an output, or it stops at one of them**; what it has taken by then
is put out. -/
theorem Session.say_cases (s : Session) (echo : Echo) (lines : List Text) :
    (∃ t, echo.Takes lines t ∧ s.say echo lines = ({ s with output := s.output ++ t }, none)) ∨
    ∃ t fault, echo.StopsAfter lines t fault ∧
      s.say echo lines = ({ s with output := s.output ++ t }, some fault) := by
  induction lines generalizing s with
  | nil => exact .inl ⟨[], ⟨[], rfl, rfl⟩, by rw [say, List.append_nil]⟩
  | cons line lines ih =>
    rw [say]
    cases hline : echo line with
    | error fault =>
      refine .inr ⟨[], fault, ⟨[], line, lines, rfl, ⟨[], rfl, rfl⟩, hline⟩, ?_⟩
      rw [List.append_nil]
    | ok t =>
      dsimp only
      obtain ⟨u, htakes, hsay⟩ | ⟨u, fault, hstops, hsay⟩ := ih { s with output := s.output ++ t }
      · exact .inl ⟨t ++ u, htakes.cons hline, by rw [hsay, List.append_assoc]⟩
      · exact .inr ⟨t ++ u, fault, hstops.cons hline, by rw [hsay, List.append_assoc]⟩

/-! ### Opening the journal -/

namespace Journal

variable {files u : FileTree} {level format : Document} {path : Option Path} {j : Journal}

/-- The file of a journal is there, where the path leads. -/
theorem start_eq_ok (h : start files level format path = ⟨.ok j, u⟩) :
    files.GrowsTo u j.file.toList ∧
      (∀ p, j.file = some p → (u.content? p).isSome ∧
        ∃ q, path = some q ∧ u.locate q = .ok p) := by
  unfold start at h
  split at h
  · cases h
  · obtain ⟨hj, rfl⟩ := Change.mk.inj h
    obtain rfl := Except.ok.inj hj
    exact ⟨.refl files, nofun⟩
  · rename_i q _
    have hparent := files.growsTo_ensureParent q
    split at h
    · cases h
    · rename_i t ht
      rw [ht] at hparent
      split at h
      · cases h
      · rename_i p v hopen
        obtain ⟨hj, rfl⟩ := Change.mk.inj h
        obtain rfl := Except.ok.inj hj
        obtain ⟨hlocate, hgrows, hfile⟩ := FileTree.openAppending_eq_ok hopen
        refine ⟨hparent.trans hgrows, fun p' hp => ?_⟩
        obtain rfl := Option.some.inj hp
        exact ⟨Option.isSome_of_eq_some hfile, q, rfl, hgrows.locate hlocate⟩

/-- A journal that cannot be opened writes nothing. -/
theorem start_eq_error {fault : JournalFault}
    (h : start files level format path = ⟨.error fault, u⟩) : files.GrowsTo u [] := by
  unfold start at h
  split at h
  · obtain ⟨-, rfl⟩ := Change.mk.inj h
    exact .refl files
  · cases h
  · rename_i q _
    have hparent := files.growsTo_ensureParent q
    split at h
    · rename_i t ht
      rw [ht] at hparent
      obtain ⟨-, rfl⟩ := Change.mk.inj h
      exact hparent
    · rename_i t ht
      rw [ht] at hparent
      split at h
      · obtain ⟨-, rfl⟩ := Change.mk.inj h
        exact hparent
      · cases h

end Journal

/-! ### Commands -/

/-- The file that a command is to write. -/
def Command.output? : Command → Option Path
  | convert _ _ _ output => output
  | check => none
  | exportReverse output => some output

namespace Desk

variable {d : Desk} {s : Session} {files : FileTree} {o : Outcome} {output : Option Path}
  {lines : List Text}

/-- What a command says on the output, if nothing fails before. -/
inductive Says (d : Desk) (s : Session) : Command → List Text → Prop
  /-- The converted lines, if they do not go to a file. -/
  | convert {mode text : Option Text} {input : Option Path} {tables : Tables}
      {lines results : List Text} (htables : (d.tables s.files).value = .ok tables)
      (hlines : d.lines (s.note d (d.tables s.files).records).files text input = .ok lines)
      (hresults : (Attempt.all (lines.map (tables.transliterate (d.mode mode)))).value =
        .ok results) : Says d s (.convert mode text input none) results
  /-- The report on the rules. -/
  | check {tables : Tables} (htables : (d.tables s.files).value = .ok tables) :
      Says d s .check
        (reportLines tables.forward.checkOrder ++ [verdict tables.forward.checkOrder])
  /-- That the reverse table is written. -/
  | exportReverse {output : Path} {tables : Tables}
      (htables : (d.tables s.files).value = .ok tables) :
      Says d s (.exportReverse output) [exportLine tables.reverse output]

/-- A command says one thing. -/
theorem Says.unique {command : Command} {lines' : List Text} (h : d.Says s command lines)
    (h' : d.Says s command lines') : lines = lines' := by
  cases h with
  | convert htables hlines hresults =>
    cases h' with
    | convert htables' hlines' hresults' =>
      obtain rfl := Except.ok.inj (htables.symm.trans htables')
      obtain rfl := Except.ok.inj (hlines.symm.trans hlines')
      exact Except.ok.inj (hresults.symm.trans hresults')
  | check htables =>
    cases h' with
    | check htables' =>
      obtain rfl := Except.ok.inj (htables.symm.trans htables')
      rfl
  | exportReverse htables =>
    cases h' with
    | exportReverse htables' =>
      obtain rfl := Except.ok.inj (htables.symm.trans htables')
      rfl

/-- The file of the journal, if it has one, is there. -/
def IsOpen (d : Desk) (files : FileTree) : Prop :=
  ∀ p, d.journal.file = some p → (files.content? p).isSome

/-- The files that a command may leave: the journal is written, and after it the file
that the command names. -/
def Leaves (d : Desk) (files : FileTree) (output : Option Path) (u : FileTree) : Prop :=
  ∃ t, files.GrowsTo t d.journal.file.toList ∧
    match output with
    | none => u = t
    | some path => ∃ content p, t.GrowsTo u [p] ∧ t.Puts u path content p

/-- All is done. -/
structure Done (d : Desk) (s : Session) (output : Option Path) (o : Outcome) : Prop where
  exit : o.exit = 0
  escaped : o.escaped = none
  files : d.Leaves s.files output o.session.files

/-- A fault ends the command: it is told, nothing is said and no file but the journal
is written. -/
structure Failed (d : Desk) (s : Session) (o : Outcome) : Prop where
  exit : o.exit = 1
  escaped : o.escaped = none
  files : d.Leaves s.files none o.session.files
  output : o.session.output = s.output
  told : Text.Gains "Error: " s.errors o.session.errors

/-- The output refuses one of the lines that the command says: that is told, and written to
the journal behind what the command has left. -/
structure Refused (d : Desk) (s : Session) (output : Option Path) (lines : List Text)
    (o : Outcome) : Prop where
  exit : o.exit = 1
  escaped : o.escaped = none
  files : ∃ u, d.Leaves s.files output u ∧ u.GrowsTo o.session.files d.journal.file.toList
  output : ∃ t fault, d.platform.echo.StopsAfter lines t fault ∧ o.session.output = s.output ++ t
  told : Text.Gains "Error: " s.errors o.session.errors

/-- The rules are rejected, and the report says so. -/
structure Rejected (d : Desk) (s : Session) (lines : List Text) (o : Outcome) : Prop where
  exit : o.exit = 1
  escaped : o.escaped = none
  files : d.Leaves s.files none o.session.files
  failed : ∃ before rest, lines = before ++ [("FAILED: " : Text) ++ rest]
  said : ∃ t, d.platform.echo.Takes lines t ∧ o.session.output = s.output ++ t

/-- The output refuses a line of the report, and the fault escapes. -/
structure BrokenOff (d : Desk) (s : Session) (lines : List Text) (o : Outcome) : Prop where
  exit : o.exit = 1
  escaped : o.escaped.isSome
  files : d.Leaves s.files none o.session.files
  output : ∃ t fault, d.platform.echo.StopsAfter lines t fault ∧ o.session.output = s.output ++ t

/-- The journal stays open in every tree that has grown. -/
theorem IsOpen.of_growsTo {written : List Place} (h : d.IsOpen files) {u : FileTree}
    (hgrows : files.GrowsTo u written) : d.IsOpen u :=
  fun p hp => hgrows.file p (h p hp)

/-- Records go to the journal, and nowhere else. -/
theorem growsTo_note (h : d.IsOpen s.files) (records : List Record) :
    s.files.GrowsTo (s.note d records).files d.journal.file.toList := by
  show s.files.GrowsTo (d.journal.filesAfter d.platform.stamp s.files records) _
  unfold Journal.filesAfter
  split
  · rename_i p hp
    rw [hp]
    exact FileTree.growsTo_append (h p hp) _
  · rename_i hnone
    rw [hnone]
    exact .refl s.files

/-- The journal is open after it was written to. -/
theorem IsOpen.note (h : d.IsOpen s.files) (records : List Record) :
    d.IsOpen (s.note d records).files :=
  h.of_growsTo (growsTo_note h records)

/-- A journal has no other file after a move, and may have none. -/
theorem IsOpen.afterMove (h : d.IsOpen files) (path : Path) :
    (d.afterMove files path).IsOpen files ∧
      (d.afterMove files path).journal.file.toList ⊆ d.journal.file.toList := by
  rw [Desk.afterMove]
  split
  · exact ⟨nofun, List.nil_subset _⟩
  · exact ⟨h, List.Subset.refl _⟩

/-- What a command leaves of the files to whose journal was written, it leaves of those
before. -/
theorem Leaves.after {u : FileTree} (h : d.Leaves files output u) {t : FileTree}
    (hgrows : t.GrowsTo files d.journal.file.toList) : d.Leaves t output u := by
  obtain ⟨v, hv, hput⟩ := h
  exact ⟨v, (hgrows.trans hv).mono (by simp), hput⟩

/-- What a command leaves has grown from what it found. -/
theorem Leaves.growsTo {u : FileTree} (h : d.Leaves files output u) :
    ∃ written, files.GrowsTo u written := by
  obtain ⟨t, hgrows, hput⟩ := h
  cases output with
  | none => exact ⟨_, hput ▸ hgrows⟩
  | some path =>
    obtain ⟨content, q, hlater, -⟩ := hput
    exact ⟨_, hgrows.trans hlater⟩

section Note

variable {records : List Record}

/-- What is told after records is told. -/
theorem gains_after_note {u : Text}
    (h : Text.Gains "Error: " (s.note d records).errors u) : Text.Gains "Error: " s.errors u :=
  h.after (d.journal.isLines_errorText _ _ records).withHalvesSpelled

variable (hopen : d.IsOpen s.files)
include hopen

/-- A command that does well behind some records does well with them. -/
theorem Done.after_note (h : d.Done (s.note d records) output o) : d.Done s output o :=
  ⟨h.exit, h.escaped, h.files.after (growsTo_note hopen records)⟩

/-- A command that fails behind some records fails with them. -/
theorem Failed.after_note (h : d.Failed (s.note d records) o) : d.Failed s o :=
  ⟨h.exit, h.escaped, h.files.after (growsTo_note hopen records), h.output,
    gains_after_note h.told⟩

/-- A command whose line is refused behind some records has it refused with them. -/
theorem Refused.after_note (h : d.Refused (s.note d records) output lines o) :
    d.Refused s output lines o := by
  obtain ⟨u, hu, hlater⟩ := h.files
  exact ⟨h.exit, h.escaped, ⟨u, hu.after (growsTo_note hopen records), hlater⟩, h.output,
    gains_after_note h.told⟩

end Note

/-- What is complained of is told. -/
theorem gains_complain (s : Session) (message : Text) :
    Text.Gains "Error: " s.errors (s.complain ("Error: " ++ message)).errors := by
  have hintroducer : ('\x1b' : CodePoint) ∉ ("Error: " : Text) := by decide
  refine ⟨[], message.withoutSequences.withHalvesSpelled, .inl rfl, ?_⟩
  rw [Session.complain, Session.put, Text.withoutSequences_append hintroducer,
    Text.withHalvesSpelled_append, Text.withHalvesSpelled_append, List.append_nil]
  rfl

/-- A fault that ends a command is told. -/
theorem gains_fail (s : Session) (d : Desk) (activity : String) (fault : CommandFault) :
    Text.Gains "Error: " s.errors (s.fail d activity fault).session.errors :=
  (gains_complain (s.note d [Session.failure d activity fault]) fault.message).after
    (d.journal.isLines_errorText _ _ _).withHalvesSpelled

/-- Nothing is written but the journal. -/
theorem leaves_of_growsTo {u : FileTree} (h : files.GrowsTo u d.journal.file.toList) :
    d.Leaves files none u :=
  ⟨u, h, rfl⟩

/-- Whatever is told as a failure, over an open journal, is one. -/
theorem failed_fail (hopen : d.IsOpen s.files) (activity : String) (fault : CommandFault) :
    d.Failed s (s.fail d activity fault) :=
  ⟨rfl, rfl, leaves_of_growsTo (growsTo_note hopen _), rfl, gains_fail s d activity fault⟩

/-- A write that fails leaves the files as they were, so the command has failed as if
there had been none. -/
theorem failed_fail_of_growsTo (hopen : d.IsOpen s.files) (hgrows : s.files.GrowsTo files [])
    (activity : String) (fault : CommandFault) :
    d.Failed s ({ s with files }.fail d activity fault) := by
  have h := failed_fail (s := { s with files }) (hopen.of_growsTo hgrows) activity fault
  exact ⟨h.exit, h.escaped, h.files.after (hgrows.mono (List.nil_subset _)), h.output, h.told⟩

/-- A write makes a command done or failed. -/
theorem done_or_failed_of_write {α : Type} (hopen : d.IsOpen s.files) (path : Path)
    (draft : Draft α) :
    (∃ fault u, s.files.write path draft = ⟨.error fault, u⟩ ∧
      ∀ activity fault, d.Failed s ({ s with files := u }.fail d activity fault)) ∨
    (∃ a u, s.files.write path draft = ⟨.ok a, u⟩ ∧ d.Leaves s.files (some path) u) := by
  obtain ⟨fault, hresult, hgrows⟩ | ⟨a, p, hdraft, hresult, hgrows, hputs⟩ :=
    s.files.write_cases path draft
  · refine .inl ⟨fault, _, ?_, failed_fail_of_growsTo hopen hgrows⟩
    rw [← hresult]
  · refine .inr ⟨a, _, ?_, s.files, ?_, draft.content, p, hgrows, hputs⟩
    · rw [← hresult]
    · exact (FileTree.GrowsTo.refl s.files).mono (List.nil_subset _)

/-- Results go to a file, or to the output, which may refuse one of them. -/
theorem deliver_cases (hopen : d.IsOpen s.files) (results : List Text) (output : Option Path) :
    d.Failed s (d.deliver s results output) ∨ d.Done s output (d.deliver s results output) ∨
      (output = none ∧ d.Refused s none results (d.deliver s results output)) := by
  have hkept := (FileTree.GrowsTo.refl s.files).mono (List.nil_subset d.journal.file.toList)
  cases output with
  | none =>
    obtain ⟨t, htakes, hsay⟩ | ⟨t, fault, hstops, hsay⟩ := s.say_cases d.platform.echo results
    · rw [deliver, hsay]
      exact .inr (.inl ⟨rfl, rfl, leaves_of_growsTo hkept⟩)
    · rw [deliver, hsay]
      refine .inr (.inr ⟨rfl, rfl, rfl, ⟨s.files, leaves_of_growsTo hkept, ?_⟩,
        ⟨t, fault, hstops, rfl⟩, gains_fail _ d _ _⟩)
      exact growsTo_note (s := { s with output := s.output ++ t }) hopen _
  | some path =>
    obtain ⟨fault, u, hwrite, hfailed⟩ | ⟨count, u, hwrite, hleaves⟩ :=
      done_or_failed_of_write hopen path (.ofLines (results.map Document.str))
    · rw [deliver, FileTree.writeLines, hwrite]
      exact .inl (hfailed "Conversion" (.write fault))
    · rw [deliver, FileTree.writeLines, hwrite]
      exact .inr (.inl ⟨rfl, rfl, hleaves⟩)

/-- Lines are converted and delivered, unless the mode is none and cannot be shown. -/
theorem convertLines_cases (hopen : d.IsOpen s.files) (tables : Tables) (mode : Document)
    (lines : List Text) (output : Option Path) :
    let o := d.convertLines s tables mode lines output
    d.Failed s o ∨ d.Done s output o ∨ (output = none ∧ ∃ results,
      (Attempt.all (lines.map (tables.transliterate mode))).value = .ok results ∧
        d.Refused s none results o) := by
  have hconverted := hopen.note (Attempt.all (lines.map (tables.transliterate mode))).records
  intro o
  simp only [o, convertLines]
  cases (Attempt.all (lines.map (tables.transliterate mode))).value with
  | error fault =>
    exact .inl (.after_note hopen (failed_fail hconverted "Conversion" (.mode fault)))
  | ok results =>
    dsimp only
    obtain hfailed | hdone | ⟨rfl, hrefused⟩ := deliver_cases (hconverted.note _) results output
    · exact .inl (.after_note hopen (.after_note hconverted hfailed))
    · exact .inr (.inl (.after_note hopen (.after_note hconverted hdone)))
    · exact .inr (.inr ⟨rfl, results, rfl,
        .after_note hopen (.after_note hconverted hrefused)⟩)

/-- **A conversion** is done, fails, or has a line of its output refused. -/
theorem convert_cases (hopen : d.IsOpen s.files) (mode text : Option Text)
    (input output : Option Path) :
    let o := d.convert s mode text input output
    d.Failed s o ∨ d.Done s output o ∨
      ∃ lines, d.Says s (.convert mode text input output) lines ∧ d.Refused s output lines o := by
  have hnoted := hopen.note (d.tables s.files).records
  intro o
  simp only [o, convert]
  split
  · have hkept := (FileTree.GrowsTo.refl s.files).mono (List.nil_subset d.journal.file.toList)
    exact .inl ⟨rfl, rfl, leaves_of_growsTo hkept, rfl, gains_complain s _⟩
  · cases htables : (d.tables s.files).value with
    | error fault => exact .inl (.after_note hopen (failed_fail hnoted "Conversion" fault))
    | ok tables =>
      dsimp only
      cases hlines : d.lines (s.note d (d.tables s.files).records).files text input with
      | error fault => exact .inl (.after_note hopen (failed_fail hnoted "Conversion" fault))
      | ok lines =>
        obtain hfailed | hdone | ⟨rfl, results, hresults, hrefused⟩ :=
          convertLines_cases hnoted tables (d.mode mode) lines output
        · exact .inl (.after_note hopen hfailed)
        · exact .inr (.inl (.after_note hopen hdone))
        · exact .inr (.inr ⟨results, .convert htables hlines hresults,
            .after_note hopen hrefused⟩)

/-- **A check of the rules** is done, fails, has a line refused, or rejects them; a refused
line of its report lets a fault escape. -/
theorem check_cases (hopen : d.IsOpen s.files) :
    let o := d.check s
    d.Failed s o ∨ d.Done s none o ∨
      ∃ lines, d.Says s .check lines ∧ (d.Rejected s lines o ∨ d.BrokenOff s lines o) := by
  have hnoted := hopen.note (d.tables s.files).records
  intro o
  simp only [o, check]
  cases htables : (d.tables s.files).value with
  | error fault => exact .inl (.after_note hopen (failed_fail hnoted "Rule check" fault))
  | ok tables =>
    have hgrows := (growsTo_note hopen (d.tables s.files).records).trans
      (growsTo_note hnoted [(tables.forward.checkOrder).record packageSource])
    have hleaves := leaves_of_growsTo (d := d) (hgrows.mono (by simp))
    dsimp only
    generalize hs : (s.note d (d.tables s.files).records).note d
      [(tables.forward.checkOrder).record packageSource] = s' at hleaves
    have houtput : s'.output = s.output := by rw [← hs]; rfl
    obtain ⟨t, htakes, hsay⟩ | ⟨t, fault, hstops, hsay⟩ := s'.say_cases d.platform.echo
      (reportLines tables.forward.checkOrder ++ [verdict tables.forward.checkOrder])
    · rw [hsay]
      dsimp only
      cases hvalid : tables.forward.checkOrder.isValid with
      | true => exact .inr (.inl ⟨rfl, rfl, hleaves⟩)
      | false =>
        have hverdict : verdict tables.forward.checkOrder = "FAILED: " ++
            (Numeral.ofNat tables.forward.checkOrder.count ++ " unreachable rules") := by
          rw [verdict, hvalid, if_neg Bool.false_ne_true, List.append_assoc]
        exact .inr (.inr ⟨_, .check htables, .inl ⟨rfl, rfl, hleaves, ⟨_, _, by rw [hverdict]⟩,
          t, htakes, by rw [houtput]⟩⟩)
    · rw [hsay]
      exact .inr (.inr ⟨_, .check htables, .inr ⟨rfl, rfl, hleaves, t, fault, hstops,
        by rw [houtput]⟩⟩)

/-- A report that the output stops at lets a fault escape. -/
theorem escaped_check {t : Text} {fault : EchoFault} (hsaid : d.Says s .check lines)
    (hstops : d.platform.echo.StopsAfter lines t fault) : (d.check s).escaped.isSome := by
  cases hsaid with
  | @check tables htables =>
    simp only [check, htables]
    generalize Session.note _ d [OrderReport.record packageSource tables.forward.checkOrder] = s'
    obtain ⟨u, htakes, -⟩ | ⟨u, fault', -, hsay⟩ := s'.say_cases d.platform.echo
      (reportLines tables.forward.checkOrder ++ [verdict tables.forward.checkOrder])
    · exact absurd htakes hstops.not_takes
    · rw [hsay]
      rfl

/-- **An export** is done, fails, or has the line that tells of it refused. -/
theorem exportReverse_cases (hopen : d.IsOpen s.files) (output : Path) :
    let o := d.exportReverse s output
    d.Failed s o ∨ d.Done s (some output) o ∨
      ∃ lines, d.Says s (.exportReverse output) lines ∧ d.Refused s (some output) lines o := by
  have hnoted := hopen.note (d.tables s.files).records
  intro o
  simp only [o, exportReverse]
  cases htables : (d.tables s.files).value with
  | error fault => exact .inl (.after_note hopen (failed_fail hnoted "Export" fault))
  | ok tables =>
    dsimp only [FileTree.writeJson]
    obtain ⟨fault, u, hwrite, hfailed⟩ | ⟨_, u, hwrite, hleaves⟩ :=
      done_or_failed_of_write hnoted output (.ofJson (.int 2) (reverseDocument tables.reverse))
    · rw [hwrite]
      exact .inl (.after_note hopen (hfailed "Export" (.write fault)))
    · rw [hwrite]
      dsimp only
      generalize hs : s.note d (d.tables s.files).records = s' at hleaves
      obtain ⟨t, htakes, hsay⟩ | ⟨t, fault, hstops, hsay⟩ :=
        ({ s' with files := u } : Session).say_cases d.platform.echo
          [exportLine tables.reverse output]
      · rw [show Session.say _ _ _ = _ from hsay]
        subst hs
        exact .inr (.inl (.after_note hopen ⟨rfl, rfl, hleaves⟩))
      · rw [show Session.say _ _ _ = _ from hsay]
        obtain ⟨written, hwritten⟩ := hleaves.growsTo
        subst hs
        obtain ⟨hmoved, hsub⟩ := (hnoted.of_growsTo hwritten).afterMove output
        have hlater := (growsTo_note (s := ⟨u, s.output ++ t, []⟩) hmoved
          [Session.failure (d.afterMove u output) "Export" (.echo fault)]).mono hsub
        exact .inr (.inr ⟨_, .exportReverse htables, .after_note hopen ⟨rfl, rfl,
          ⟨u, hleaves, hlater⟩, ⟨t, fault, hstops, rfl⟩, gains_fail _ _ _ _⟩⟩)

/-- **A command is done, has failed or is refused a line, or it rejects the rules.** -/
theorem run_cases (hopen : d.IsOpen s.files) (command : Command) :
    let o := d.run s command
    d.Failed s o ∨ d.Done s command.output? o ∨ ∃ lines, d.Says s command lines ∧
      (d.Refused s command.output? lines o ∨
        command = .check ∧ (d.Rejected s lines o ∨ d.BrokenOff s lines o)) := by
  cases command with
  | convert mode text input output =>
    exact (convert_cases hopen mode text input output).imp_right
      (.imp_right fun ⟨lines, hsaid, h⟩ => ⟨lines, hsaid, .inl h⟩)
  | check =>
    exact (check_cases hopen).imp_right
      (.imp_right fun ⟨lines, hsaid, h⟩ => ⟨lines, hsaid, .inr ⟨rfl, h⟩⟩)
  | exportReverse output =>
    exact (exportReverse_cases hopen output).imp_right
      (.imp_right fun ⟨lines, hsaid, h⟩ => ⟨lines, hsaid, .inl h⟩)

end Desk

/-! ### Runs -/

/-- The end of a run without settings: the fault is told or escapes. -/
def SettingsFault.outcome (files : FileTree) (fault : SettingsFault) : Outcome :=
  if fault.isTold then ⟨1, (⟨files, [], []⟩ : Session).complain ("Error: " ++ fault.message), none⟩
  else ⟨1, ⟨files, [], []⟩, some (.settings fault)⟩

namespace Host

variable {host : Host} {words : List Text}

/-- A run comes to a command, at a desk and with files. -/
def Reaches (host : Host) (words : List Text) (d : Desk) (files : FileTree)
    (command : Command) : Prop :=
  ∃ i settings journal, Invocation.ofWords host.files words = .ok i ∧
    i.loadSettings host.platform.reader host.files = .ok settings ∧
    i.startJournal settings host.files = ⟨.ok journal, files⟩ ∧
    Command.ofInvocation files i = .ok command ∧
    d = ⟨journal, settings, host.input, host.platform⟩

/-- The ways for a run to end. -/
inductive Course (host : Host) (words : List Text) : Outcome → Prop
  /-- The words have no meaning. -/
  | refused {refusal : Refusal} (hwords : Invocation.ofWords host.files words = .error refusal) :
      Course host words (refusal.outcome host.files)
  /-- There are no settings. -/
  | unset {i : Invocation} {fault : SettingsFault}
      (hwords : Invocation.ofWords host.files words = .ok i)
      (hsettings : i.loadSettings host.platform.reader host.files = .error fault) :
      Course host words (fault.outcome host.files)
  /-- There is no journal. -/
  | unopened {i : Invocation} {settings : Settings} {escape : Escape} {files : FileTree}
      (hwords : Invocation.ofWords host.files words = .ok i)
      (hsettings : i.loadSettings host.platform.reader host.files = .ok settings)
      (hjournal : i.startJournal settings host.files = ⟨.error escape, files⟩) :
      Course host words ⟨1, ⟨files, [], []⟩, some escape⟩
  /-- The words of the command have no meaning. -/
  | misused {i : Invocation} {settings : Settings} {journal : Journal} {files : FileTree}
      {refusal : Refusal} (hwords : Invocation.ofWords host.files words = .ok i)
      (hsettings : i.loadSettings host.platform.reader host.files = .ok settings)
      (hjournal : i.startJournal settings host.files = ⟨.ok journal, files⟩)
      (hcommand : Command.ofInvocation files i = .error refusal) :
      Course host words (refusal.outcome files)
  /-- The command is run. -/
  | command {d : Desk} {files : FileTree} {command : Command}
      (hreaches : host.Reaches words d files command) :
      Course host words (d.run ⟨files, [], []⟩ command)

/-- **Each run ends in one of these ways.** -/
theorem run_course (host : Host) (words : List Text) : host.Course words (host.run words) := by
  cases hwords : Invocation.ofWords host.files words with
  | error refusal =>
    rw [run, hwords]
    exact .refused hwords
  | ok i =>
    rw [run, hwords]
    dsimp only [Invocation.run]
    cases hsettings : i.loadSettings host.platform.reader host.files with
    | error fault => exact .unset hwords hsettings
    | ok settings =>
      dsimp only
      split
      · rename_i escape files hjournal
        exact .unopened hwords hsettings hjournal
      · rename_i journal files hjournal
        split
        · rename_i refusal hcommand
          exact .misused hwords hsettings hjournal hcommand
        · rename_i command hcommand
          exact .command ⟨i, settings, journal, hwords, hsettings, hjournal, hcommand, rfl⟩

end Host

namespace Invocation

variable {i : Invocation} {settings : Settings} {files u : FileTree}

/-- A journal that is opened has its file where the settings say. -/
theorem startJournal_eq_ok {journal : Journal}
    (h : i.startJournal settings files = ⟨.ok journal, u⟩) :
    files.GrowsTo u journal.file.toList ∧
      (∀ p, journal.file = some p → (u.content? p).isSome ∧
        ∃ path, Path.ofSetting settings.logFile = .ok (some path) ∧ u.locate path = .ok p) := by
  unfold startJournal at h
  split at h
  · cases h
  · rename_i path hpath
    obtain ⟨hresult, hfiles⟩ := Change.mk.inj h
    generalize hstart : Journal.start files _ settings.format path = change at hresult hfiles
    obtain ⟨result, t⟩ := change
    cases result with
    | error fault => cases hresult
    | ok j =>
      obtain rfl := Except.ok.inj hresult
      obtain rfl := hfiles
      obtain ⟨hgrows, hfile⟩ := Journal.start_eq_ok hstart
      refine ⟨hgrows, fun p hp => ?_⟩
      obtain ⟨hthere, path, rfl, hlocate⟩ := hfile p hp
      exact ⟨hthere, path, hpath, hlocate⟩

/-- Where no journal is opened nothing is written. -/
theorem startJournal_eq_error {escape : Escape}
    (h : i.startJournal settings files = ⟨.error escape, u⟩) : files.GrowsTo u [] := by
  unfold startJournal at h
  split at h
  · obtain ⟨-, rfl⟩ := Change.mk.inj h
    exact .refl files
  · rename_i path hpath
    obtain ⟨hresult, hfiles⟩ := Change.mk.inj h
    generalize hstart : Journal.start files _ settings.format path = change at hresult hfiles
    obtain ⟨result, t⟩ := change
    cases result with
    | error fault =>
      obtain rfl := hfiles
      exact Journal.start_eq_error hstart
    | ok j => cases hresult

end Invocation

/-- A value that a result has is its result. -/
theorem eq_ok_of_toOption {ε α : Type} {x : Except ε α} {a : α} (h : x.toOption = some a) :
    x = .ok a := by
  cases x with
  | error e => cases h
  | ok b => exact congrArg Except.ok (Option.some.inj h)

namespace Host

variable {host : Host} {words : List Text} {d : Desk} {files : FileTree} {command : Command}

/-- The journal of a run is open when its command is reached. -/
theorem Reaches.isOpen (h : host.Reaches words d files command) : d.IsOpen files := by
  obtain ⟨i, settings, journal, -, -, hjournal, -, rfl⟩ := h
  exact fun p hp => ((Invocation.startJournal_eq_ok hjournal).2 p hp).1

/-- A run that reaches its command is the run of that command. -/
theorem Reaches.run_eq (h : host.Reaches words d files command) :
    host.run words = d.run ⟨files, [], []⟩ command := by
  obtain ⟨i, settings, journal, hwords, hsettings, hjournal, hcommand, rfl⟩ := h
  simp only [run, hwords, Invocation.run, hsettings, hjournal, hcommand]

/-- The command of a run works with what the run relies on. -/
theorem Reaches.platform_eq (h : host.Reaches words d files command) :
    d.platform = host.platform := by
  obtain ⟨i, settings, journal, -, -, -, -, rfl⟩ := h
  rfl

/-- A run reaches one command at most. -/
theorem Reaches.unique (h : host.Reaches words d files command) {d' : Desk} {files' : FileTree}
    {command' : Command} (h' : host.Reaches words d' files' command') :
    d = d' ∧ files = files' ∧ command = command' := by
  obtain ⟨i, settings, journal, hwords, hsettings, hjournal, hcommand, rfl⟩ := h
  obtain ⟨i', settings', journal', hwords', hsettings', hjournal', hcommand', rfl⟩ := h'
  obtain rfl := Except.ok.inj (hwords.symm.trans hwords')
  obtain rfl := Except.ok.inj (hsettings.symm.trans hsettings')
  obtain ⟨hresult, rfl⟩ := Change.mk.inj (hjournal.symm.trans hjournal')
  obtain rfl := Except.ok.inj hresult
  obtain rfl := Except.ok.inj (hcommand.symm.trans hcommand')
  exact ⟨rfl, rfl, rfl⟩

/-- What a run reaches, if it reaches a command. -/
def reached? (host : Host) (words : List Text) : Option (Desk × FileTree × Command) := do
  let i ← (Invocation.ofWords host.files words).toOption
  let settings ← (i.loadSettings host.platform.reader host.files).toOption
  let change := i.startJournal settings host.files
  let journal ← change.result.toOption
  let command ← (Command.ofInvocation change.files i).toOption
  return (⟨journal, settings, host.input, host.platform⟩, change.files, command)

/-- What is computed as the command of a run is reached by it. -/
theorem reaches_of_reached? (h : host.reached? words = some (d, files, command)) :
    host.Reaches words d files command := by
  simp only [reached?, Option.bind_eq_bind, Option.bind_eq_some_iff, Option.pure_def] at h
  obtain ⟨i, hwords, settings, hsettings, journal, hjournal, command', hcommand, heq⟩ := h
  obtain ⟨rfl, rfl, rfl⟩ : _ ∧ _ ∧ _ := by simpa using heq
  refine ⟨i, settings, journal, eq_ok_of_toOption hwords, eq_ok_of_toOption hsettings, ?_,
    eq_ok_of_toOption hcommand, rfl⟩
  rw [← eq_ok_of_toOption hjournal]

end Host
end PhoneticBengali
