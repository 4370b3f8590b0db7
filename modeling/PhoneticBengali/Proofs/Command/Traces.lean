/-
# What a run leaves behind

A run writes to no regular file but those that its settings and its command name
(`Host.run_traces`):

| exit code | regular files that may differ | output |
| --- | --- | --- |
| 1 | the journal | nothing, but for a report on the rules |
| 1, as the output refuses a line | the journal, and the file of an export | the lines before it |
| 0 | the journal, and the one that receives what is written to the output | |

The file that receives what is written need not be where the path leads: if a directory
stands there in the end, it is a new file in that directory, although the check of the words
turns directories away (`Host.run_convert_up`).
-/

import PhoneticBengali.Proofs.Command.Course

namespace PhoneticBengali

namespace Desk

variable {d : Desk} {files u : FileTree} {output : Option Path} {p : Place}

/-- All but the journal and what receives the output is kept. -/
theorem Leaves.content?_eq (h : d.Leaves files output u) (hjournal : d.journal.file ≠ some p)
    (houtput : ∀ path, output = some path → ¬ files.Receives u path p) :
    u.content? p = files.content? p := by
  have hp : p ∉ d.journal.file.toList := by simpa using hjournal
  obtain ⟨t, hgrows, hput⟩ := h
  cases output with
  | none => rw [hput, hgrows.content p hp]
  | some path =>
    obtain ⟨content, q, -, hputs⟩ := hput
    have hother : p ≠ q := by
      rintro rfl
      exact houtput path rfl (hputs.place.of_growsTo hgrows)
    rw [hputs.others p hother, hgrows.content p hp]

end Desk

namespace Host

variable {host : Host} {words : List Text}

/-- The settings of a run name the file at a place for its journal. -/
def LogsTo (host : Host) (words : List Text) (u : FileTree) (p : Place) : Prop :=
  ∃ i settings path, Invocation.ofWords host.files words = .ok i ∧
    i.loadSettings host.platform.reader host.files = .ok settings ∧
    Path.ofSetting settings.logFile = .ok (some path) ∧ u.locate path = .ok p

/-- The command of a run names an output that the file at a place receives. -/
def WritesTo (host : Host) (words : List Text) (u : FileTree) (p : Place) : Prop :=
  ∃ d files command path, host.Reaches words d files command ∧
    command.output? = some path ∧ host.files.Receives u path p

/-- The journal that a run has opened is the one that its settings name. -/
theorem logsTo_of_journal {i : Invocation} {settings : Settings} {journal : Journal}
    {files u : FileTree} (hwords : Invocation.ofWords host.files words = .ok i)
    (hsettings : i.loadSettings host.platform.reader host.files = .ok settings)
    (hjournal : i.startJournal settings host.files = ⟨.ok journal, files⟩)
    {written : List Place} (hgrows : files.GrowsTo u written) {p : Place}
    (hp : journal.file = some p) : host.LogsTo words u p := by
  obtain ⟨-, path, hpath, hlocate⟩ := (Invocation.startJournal_eq_ok hjournal).2 p hp
  exact ⟨i, settings, path, hwords, hsettings, hpath, hgrows.locate hlocate⟩

/-- What a command leaves, with the journal written once more, differs from what the run
found in the journal and in what receives the output only. -/
theorem Reaches.content?_eq_later {d : Desk} {files u : FileTree} {command : Command}
    {output : Option Path} {p : Place} (h : host.Reaches words d files command)
    (hleaves : ∃ v, d.Leaves files output v ∧ v.GrowsTo u d.journal.file.toList)
    (hlog : ¬ host.LogsTo words u p)
    (houtput : ∀ path, output = some path → ¬ host.files.Receives u path p) :
    u.content? p = host.files.content? p := by
  obtain ⟨i, settings, journal, hwords, hsettings, hjournal, -, rfl⟩ := h
  obtain ⟨v, hleaves, hagain⟩ := hleaves
  have hgrows := (Invocation.startJournal_eq_ok hjournal).1
  obtain ⟨written, hlater⟩ := hleaves.growsTo
  have hp : journal.file ≠ some p := fun hp =>
    hlog (logsTo_of_journal hwords hsettings hjournal (hlater.trans hagain) hp)
  have hkept := hleaves.content?_eq hp fun path hpath hreceives =>
    houtput path hpath ((hreceives.of_growsTo hgrows).later hagain)
  rw [hagain.content p (by simpa using hp), hkept, hgrows.content p (by simpa using hp)]

/-- So does what a command leaves. -/
theorem Reaches.content?_eq {d : Desk} {files u : FileTree} {command : Command}
    {output : Option Path} {p : Place} (h : host.Reaches words d files command)
    (hleaves : d.Leaves files output u) (hlog : ¬ host.LogsTo words u p)
    (houtput : ∀ path, output = some path → ¬ host.files.Receives u path p) :
    u.content? p = host.files.content? p :=
  h.content?_eq_later ⟨u, hleaves, (FileTree.GrowsTo.refl u).mono (List.nil_subset _)⟩ hlog
    houtput

/-- The output refuses a line of what a run says, and has taken those before it. -/
def SaysInPart (host : Host) (words : List Text) (outcome : Outcome) : Prop :=
  ∃ d files command lines fault, host.Reaches words d files command ∧
    d.Says ⟨files, [], []⟩ command lines ∧
    host.platform.echo.StopsAfter lines outcome.session.output fault

/-- No regular file differs but the journal of a run and its output.  If the run fails, the
output does not differ either and nothing is said, unless the output refuses a line. -/
structure Spares (host : Host) (words : List Text) (outcome : Outcome) : Prop where
  others : ∀ p, ¬ host.LogsTo words outcome.session.files p →
    ¬ host.WritesTo words outcome.session.files p →
      outcome.session.files.content? p = host.files.content? p
  failed : outcome.exit = 1 → host.SaysInPart words outcome ∨
    ((∀ d files, ¬ host.Reaches words d files .check) → outcome.session.output = []) ∧
      ∀ p, ¬ host.LogsTo words outcome.session.files p →
        outcome.session.files.content? p = host.files.content? p

/-- A run that says nothing and writes nothing but its journal spares the rest. -/
theorem Spares.of_quiet {outcome : Outcome} (houtput : outcome.session.output = [])
    (hkept : ∀ p, ¬ host.LogsTo words outcome.session.files p →
      outcome.session.files.content? p = host.files.content? p) : host.Spares words outcome :=
  ⟨fun p hlog _ => hkept p hlog, fun _ => .inr ⟨fun _ => houtput, hkept⟩⟩

/-- So does a run that ends for its words, once no more than its journal is written. -/
theorem Spares.of_refusal {files : FileTree} (refusal : Refusal)
    (hkept : ∀ p, ¬ host.LogsTo words files p → files.content? p = host.files.content? p) :
    host.Spares words (refusal.outcome files) := by
  cases refusal with
  | usage => exact .of_quiet rfl hkept
  | help => exact ⟨fun p hlog _ => hkept p hlog, nofun⟩
  | nameless fault => exact .of_quiet rfl hkept

/-- A command spares all but the journal and what it names. -/
theorem Reaches.spares {d : Desk} {files : FileTree} {command : Command}
    (h : host.Reaches words d files command) :
    host.Spares words (d.run ⟨files, [], []⟩ command) := by
  -- what receives the output of the command is what the run writes to
  have hwritten : ∀ p, ¬ host.WritesTo words (d.run ⟨files, [], []⟩ command).session.files p →
      ∀ path, command.output? = some path →
        ¬ host.files.Receives (d.run ⟨files, [], []⟩ command).session.files path p :=
    fun p hwrites path hpath hreceives => hwrites ⟨d, files, command, path, h, hpath, hreceives⟩
  obtain hfailed | hdone | ⟨lines, hsaid, hrefused | ⟨rfl, hrejected | hbroken⟩⟩ :=
    d.run_cases (s := ⟨files, [], []⟩) h.isOpen command
  · exact .of_quiet hfailed.output fun p hlog => h.content?_eq hfailed.files hlog nofun
  · refine ⟨fun p hlog hwrites => h.content?_eq hdone.files hlog (hwritten p hwrites), ?_⟩
    rw [hdone.exit]
    nofun
  · obtain ⟨t, fault, hstops, houtput⟩ := hrefused.output
    rw [h.platform_eq] at hstops
    obtain rfl : t = (d.run ⟨files, [], []⟩ command).session.output := houtput.symm
    exact ⟨fun p hlog hwrites => h.content?_eq_later hrefused.files hlog (hwritten p hwrites),
      fun _ => .inl ⟨d, files, command, lines, fault, h, hsaid, hstops⟩⟩
  · have hkept := fun p hlog => h.content?_eq (p := p) hrejected.files hlog nofun
    exact ⟨fun p hlog _ => hkept p hlog, fun _ => .inr ⟨fun hcheck => absurd h (hcheck d files),
      hkept⟩⟩
  · have hkept := fun p hlog => h.content?_eq (p := p) hbroken.files hlog nofun
    exact ⟨fun p hlog _ => hkept p hlog, fun _ => .inr ⟨fun hcheck => absurd h (hcheck d files),
      hkept⟩⟩

/-- Every way for a run to end spares the rest. -/
theorem Course.spares {outcome : Outcome} (h : host.Course words outcome) :
    host.Spares words outcome := by
  cases h with
  | @refused refusal hwords => exact .of_refusal refusal fun p _ => rfl
  | @unset i fault hwords hsettings =>
    rw [SettingsFault.outcome]
    split <;> exact .of_quiet rfl fun p _ => rfl
  | unopened hwords hsettings hjournal =>
    have hgrows := Invocation.startJournal_eq_error hjournal
    exact .of_quiet rfl fun p _ => hgrows.content p List.not_mem_nil
  | @misused i settings journal files refusal hwords hsettings hjournal hcommand =>
    have hgrows := (Invocation.startJournal_eq_ok hjournal).1
    refine .of_refusal refusal fun p hlog => hgrows.content p fun hp => ?_
    exact hlog (logsTo_of_journal hwords hsettings hjournal (.refl files) (by simpa using hp))
  | command hreaches => exact hreaches.spares

/-- **A run leaves all regular files alone but its journal and its output.**  If it fails,
also its output, and it has said nothing, unless the output has refused a line of what it
says. -/
theorem run_traces (host : Host) (words : List Text) :
    let outcome := host.run words
    let u := outcome.session.files
    (∀ p, ¬ host.LogsTo words u p → ¬ host.WritesTo words u p →
      u.content? p = host.files.content? p) ∧
    (outcome.exit = 1 → host.SaysInPart words outcome ∨
      ((∀ d files, ¬ host.Reaches words d files .check) → outcome.session.output = []) ∧
        ∀ p, ¬ host.LogsTo words u p → u.content? p = host.files.content? p) := by
  intro outcome u
  have hspares : host.Spares words outcome := (host.run_course words).spares
  exact ⟨hspares.others, hspares.failed⟩

/-- An output that the words may name, as nothing stands there, can be a directory when
it is written: a file is left in the directory above, where neither the output nor a
journal is. -/
theorem run_convert_up :
    let host : Host := ⟨{}, [], { stamp := [], trace := fun _ => [], lost := fun _ => [] }⟩
    let words : List Text := ["convert", "-o", "d/../..", "ka"]
    let outcome := host.run words
    let left : Place := [Path.upName, FileTree.temporaryName Path.upName 0]
    outcome.exit = 0 ∧ host.files.content? left = none ∧
      outcome.session.files.content? left = some (Utf8.encode "কা\n") ∧
      outcome.session.files.locate (.ofText "d/../..") = .ok [Path.upName] ∧
      ∀ p, ¬ host.LogsTo words outcome.session.files p := by
  intro host words outcome left
  refine ⟨by decide +kernel, rfl, by decide +kernel, by decide +kernel, ?_⟩
  rintro p ⟨i, settings, path, hwords, hsettings, hpath, -⟩
  obtain rfl := Except.ok.inj hwords
  obtain rfl := Except.ok.inj hsettings
  cases hpath

end Host
end PhoneticBengali
