/-
# How a run ends

A fault can escape from a run (`Host.Escapes`):

| part | what escapes |
| --- | --- |
| a word that names a file | one without octets |
| the settings file | a fault of its reader that is none of files, values or YAML, a group that is no mapping |
| `level` | anything but the name of a level |
| `file` | anything but a text, a file that cannot be made or opened |
| the report of `rules check` | a line that the output refuses |

A group or a file that counts as nothing is none, and `--verbose` goes before the level.
Every other run ends well, as a mistake in usage, or with exit code 1 after it has told
why (`Host.run_ends`), whatever the reader of YAML files and the output may be.
-/

import PhoneticBengali.Proofs.Command.Course

namespace PhoneticBengali

namespace Document

/-- A value that can stand for a group of settings. -/
def IsGroup (d : Document) : Prop :=
  d.isBlank = true ∨ ∃ entries, d = .map entries

/-- A value that can stand for a file, or for none. -/
def IsFileName (d : Document) : Prop :=
  d.isBlank = true ∨ ∃ s, d = .str s

/-- A text that names a level, in any case. -/
def IsLevelName (d : Document) : Prop :=
  ∃ s, d = .str s ∧ upperCase s ∈ Level.thresholds.map Prod.fst

end Document

/-! ### Settings files -/

namespace Settings

variable {reader : YamlReader} {files : FileTree} {path : Path}

/-- The names of the groups. -/
def groupNames : List Text :=
  ["logging", "transliteration"]

/-- The faults of a settings file that a run does not tell of. -/
inductive Escapes (reader : YamlReader) (files : FileTree) (path : Path) : Prop
  /-- Reading the file fails in a way that is not told. -/
  | reading {fault : ReadFault} (hread : files.readYaml reader path = .error fault)
      (h : fault.isTold = false)
  /-- A group is something else than a mapping. -/
  | group {entries : List (Document × Document)} {name : Text}
      (hread : files.readYaml reader path = .ok (.map entries)) (hname : name ∈ groupNames)
      (hgroup : ¬ (Document.field entries name).IsGroup)

section Group

variable {entries : List (Document × Document)} {name : Text}

/-- What is a group, or nothing, is read as a group whatever the defaults. -/
theorem exists_group_eq_ok (h : (Document.field entries name).IsGroup)
    (defaults : List (Document × Document)) : ∃ g, group entries name defaults = .ok g := by
  unfold group
  dsimp only
  split
  · exact ⟨_, rfl⟩
  · rename_i hblank
    obtain ⟨overrides, hmap⟩ := h.resolve_left hblank
    rw [hmap]
    exact ⟨_, rfl⟩

/-- Anything but a group is a fault that names it. -/
theorem group_eq_error (h : ¬ (Document.field entries name).IsGroup)
    (defaults : List (Document × Document)) :
    group entries name defaults = .error (.groupKind (Document.field entries name)) := by
  unfold group
  dsimp only
  split
  · rename_i hblank
    exact absurd (.inl hblank) h
  · split
    · rename_i overrides hmap
      exact absurd (.inr ⟨overrides, hmap⟩) h
    · rfl

end Group

/-- Settings with nothing but groups under the names of groups are read. -/
theorem ofDocument_map_eq_ok {entries : List (Document × Document)}
    (h : ∀ name ∈ groupNames, (Document.field entries name).IsGroup) :
    ∃ settings, ofDocument (.map entries) = .ok settings := by
  have hgroups := List.forall_mem_cons.1 h
  obtain ⟨logging, hlogging⟩ := exists_group_eq_ok hgroups.1 defaults.logging
  obtain ⟨transliteration, htransliteration⟩ :=
    exists_group_eq_ok (hgroups.2 "transliteration" (List.mem_singleton_self _))
      defaults.transliteration
  refine ⟨⟨logging, transliteration⟩, ?_⟩
  rw [ofDocument, hlogging, htransliteration]
  rfl

/-- Settings with something else under such a name are a fault. -/
theorem ofDocument_map_eq_error {entries : List (Document × Document)} {name : Text}
    (hname : name ∈ groupNames) (hgroup : ¬ (Document.field entries name).IsGroup) :
    ∃ got, ofDocument (.map entries) = .error (.groupKind got) := by
  rw [ofDocument]
  by_cases hlogging : (Document.field entries "logging").IsGroup
  · obtain rfl : name = "transliteration" := by
      rcases List.mem_cons.1 hname with rfl | hname
      · exact absurd hlogging hgroup
      · exact List.mem_singleton.1 hname
    obtain ⟨logging, hlogging⟩ := exists_group_eq_ok hlogging defaults.logging
    rw [hlogging, group_eq_error hgroup]
    exact ⟨_, rfl⟩
  · rw [group_eq_error hlogging]
    exact ⟨_, rfl⟩

/-- Of the faults of a document only that of a group is not told. -/
theorem ofDocument_escapes_iff {d : Document} :
    (∃ fault, ofDocument d = .error fault ∧ fault.isTold = false) ↔
      ∃ entries, d = .map entries ∧
        ∃ name ∈ groupNames, ¬ (Document.field entries name).IsGroup := by
  constructor
  · rintro ⟨fault, hfault, htold⟩
    unfold ofDocument at hfault
    split at hfault
    · cases hfault
    · rename_i entries
      refine ⟨entries, rfl, ?_⟩
      by_contra hall
      have hgroups : ∀ name ∈ groupNames, (Document.field entries name).IsGroup := by
        intro name hname
        by_contra hgroup
        exact hall ⟨name, hname, hgroup⟩
      obtain ⟨settings, hok⟩ := ofDocument_map_eq_ok hgroups
      rw [ofDocument, hfault] at hok
      cases hok
    · obtain rfl := Except.error.inj hfault
      cases htold
  · rintro ⟨entries, rfl, name, hname, hgroup⟩
    obtain ⟨got, hgot⟩ := ofDocument_map_eq_error hname hgroup
    exact ⟨.groupKind got, hgot, rfl⟩

/-- A file that is read, whatever it holds, is there. -/
theorem leads_of_readYaml (h : ∀ fault, files.readYaml reader path ≠ .error (.file fault)) :
    files.leads path = .ok true := by
  unfold FileTree.readYaml FileTree.read at h
  unfold FileTree.leads
  cases hfind : files.find path with
  | ok e => rfl
  | error cause =>
    rw [hfind] at h
    exact absurd rfl (h ⟨cause, path.text⟩)

/-- A file that cannot be read is told of as its fault is. -/
theorem ofFile_eq_error {fault : ReadFault} (hread : files.readYaml reader path = .error fault) :
    ∃ told, ofFile reader files path = .error told ∧ told.isTold = fault.isTold := by
  have hleads : (∀ f, fault ≠ .file f) → files.leads path = .ok true := fun h =>
    leads_of_readYaml fun f hf => h f (Except.error.inj (hread.symm.trans hf))
  rw [ofFile, hread]
  cases fault with
  | file f =>
    cases files.leads path with
    | error f' => exact ⟨_, rfl, rfl⟩
    | ok there =>
      cases there with
      | false => exact ⟨_, rfl, rfl⟩
      | true => exact ⟨_, rfl, rfl⟩
  | encoding f =>
    rw [hleads nofun]
    exact ⟨_, rfl, rfl⟩
  | yaml f =>
    rw [hleads nofun]
    exact ⟨_, rfl, rfl⟩

/-- A settings file has a fault that is not told exactly in these cases. -/
theorem ofFile_escapes_iff :
    (∃ fault, ofFile reader files path = .error fault ∧ fault.isTold = false) ↔
      Escapes reader files path := by
  cases hread : files.readYaml reader path with
  | error fault =>
    obtain ⟨told, htold, hsame⟩ := ofFile_eq_error hread
    constructor
    · rintro ⟨fault', hfault, hescapes⟩
      obtain rfl := Except.error.inj (htold.symm.trans hfault)
      exact .reading hread (hsame ▸ hescapes)
    · rintro (⟨hfault, hescapes⟩ | hmap)
      · obtain rfl := Except.error.inj (hread.symm.trans hfault)
        exact ⟨told, htold, hsame.trans hescapes⟩
      · rw [hread] at hmap
        cases hmap
  | ok d =>
    have hleads : files.leads path = .ok true :=
      leads_of_readYaml fun f hf => by
        rw [hread] at hf
        cases hf
    have hfile : ofFile reader files path = ofDocument d := by
      rw [ofFile, hleads, hread]
      rfl
    rw [hfile, ofDocument_escapes_iff]
    constructor
    · rintro ⟨entries, rfl, name, hname, hgroup⟩
      exact .group hread hname hgroup
    · rintro (⟨hfault, -⟩ | ⟨hmap, hname, hgroup⟩)
      · rw [hread] at hfault
        cases hfault
      · exact ⟨_, Except.ok.inj (hread.symm.trans hmap), _, hname, hgroup⟩

end Settings

/-! ### Journals -/

/-- The directories of a path can be made, and the file there opened to append to it. -/
def FileTree.CanAppend (files : FileTree) (path : Path) : Prop :=
  ∃ u p v, files.ensureParent path = ⟨.ok (), u⟩ ∧ u.openAppending path = .ok (p, v)

/-- A setting gives a level exactly if it is the name of one. -/
theorem Level.exists_ofSetting_eq_ok_iff {d : Document} :
    (∃ l, ofSetting d = .ok l) ↔ d.IsLevelName := by
  cases d with
  | str s =>
    have hiff : (Document.str s).IsLevelName ↔ upperCase s ∈ thresholds.map Prod.fst :=
      ⟨fun ⟨_, h, hmem⟩ => Document.str.inj h ▸ hmem, fun hmem => ⟨s, rfl, hmem⟩⟩
    rw [hiff, ofSetting]
    cases hlookup : thresholds.lookup (upperCase s) with
    | some l =>
      refine ⟨fun _ => ?_, fun _ => ⟨l, rfl⟩⟩
      by_contra hmem
      rw [List.lookup_eq_none_iff.2] at hlookup
      · cases hlookup
      · intro e he
        rw [bne_iff_ne]
        rintro heq
        exact hmem (List.mem_map.2 ⟨e, he, heq.symm⟩)
    | none =>
      rw [List.lookup_eq_none_iff] at hlookup
      constructor
      · rintro ⟨l, hl⟩
        dsimp only at hl
        split at hl
        · cases hl
        · split at hl <;> cases hl
      · intro hmem
        obtain ⟨e, he, heq⟩ := List.mem_map.1 hmem
        exact absurd heq.symm (bne_iff_ne.1 (hlookup e he))
  | _ =>
    refine ⟨?_, ?_⟩
    · rintro ⟨l, hl⟩
      cases hl
    · rintro ⟨s, hs, -⟩
      cases hs

/-- A setting gives a path, or none, exactly if it can name a file. -/
theorem Path.exists_ofSetting_eq_ok_iff {d : Document} :
    (∃ path, ofSetting d = .ok path) ↔ d.IsFileName := by
  unfold ofSetting
  split
  · rename_i hblank
    exact ⟨fun _ => .inl hblank, fun _ => ⟨none, rfl⟩⟩
  · rename_i hblank
    split
    · rename_i s
      exact ⟨fun _ => .inr ⟨s, rfl⟩, fun _ => ⟨_, rfl⟩⟩
    · rename_i hstr
      constructor
      · rintro ⟨path, hpath⟩
        cases hpath
      · rintro (h | ⟨s, hs⟩)
        · exact absurd h hblank
        · exact absurd hs (hstr s)

/-- A journal is opened exactly if its level has a name and its file can be written to. -/
theorem Journal.exists_start_eq_ok_iff {files : FileTree} {level format : Document}
    {path : Option Path} : (∃ j, (start files level format path).result = .ok j) ↔
      level.IsLevelName ∧ ∀ q, path = some q → files.CanAppend q := by
  rw [← Level.exists_ofSetting_eq_ok_iff]
  unfold start
  split
  · rename_i fault hfault
    rw [hfault]
    exact ⟨fun ⟨_, h⟩ => (nomatch h), fun ⟨⟨_, h⟩, _⟩ => nomatch h⟩
  · rename_i least hleast
    rw [hleast]
    exact ⟨fun _ => ⟨⟨least, rfl⟩, nofun⟩, fun _ => ⟨_, rfl⟩⟩
  · rename_i least q hleast
    rw [hleast]
    split
    · rename_i fault u hparent
      refine ⟨fun ⟨_, h⟩ => (nomatch h), fun ⟨_, h⟩ => ?_⟩
      obtain ⟨v, p, w, hok, -⟩ := h q rfl
      rw [hparent] at hok
      cases hok
    · rename_i u hparent
      split
      · rename_i fault hopen
        refine ⟨fun ⟨_, h⟩ => (nomatch h), fun ⟨_, h⟩ => ?_⟩
        obtain ⟨v, p, w, hok, happend⟩ := h q rfl
        rw [hparent] at hok
        obtain ⟨-, rfl⟩ := Change.mk.inj hok
        rw [hopen] at happend
        cases happend
      · rename_i p v hopen
        refine ⟨fun _ => ⟨⟨least, rfl⟩, fun q' hq => ?_⟩, fun _ => ⟨_, rfl⟩⟩
        obtain rfl := Option.some.inj hq
        exact ⟨u, p, v, hparent, hopen⟩

/-- Another wording of the faults changes no value. -/
theorem mapError_eq_ok_iff {α ε δ : Type} {f : ε → δ} {x : Except ε α} {a : α} :
    x.mapError f = .ok a ↔ x = .ok a := by
  cases x <;> simp [Except.mapError]

namespace Invocation

variable {i : Invocation} {reader : YamlReader} {files u : FileTree} {settings : Settings}

/-- The journal of a run is opened exactly if nothing is wrong with the file, the level,
unless `--verbose` replaces it, and the way to the file. -/
theorem exists_startJournal_eq_ok_iff :
    (∃ j, (i.startJournal settings files).result = .ok j) ↔
      settings.logFile.IsFileName ∧ (i.verbose = false → settings.level.IsLevelName) ∧
        ∀ path, Path.ofSetting settings.logFile = .ok (some path) → files.CanAppend path := by
  have hlevel : (if i.verbose then .str "DEBUG" else settings.level).IsLevelName ↔
      (i.verbose = false → settings.level.IsLevelName) := by
    cases i.verbose with
    | false => exact ⟨fun h _ => h, fun h => h rfl⟩
    | true => exact ⟨fun _ => nofun, fun _ => ⟨"DEBUG", rfl, by decide⟩⟩
  rw [← Path.exists_ofSetting_eq_ok_iff, ← hlevel]
  unfold startJournal
  cases hpath : Path.ofSetting settings.logFile with
  | error fault => exact ⟨fun ⟨_, h⟩ => (nomatch h), fun ⟨⟨_, h⟩, _⟩ => nomatch h⟩
  | ok path =>
    simp only [mapError_eq_ok_iff, Journal.exists_start_eq_ok_iff, Except.ok.injEq,
      exists_eq', true_and]

/-- The settings that a run cannot go on with, and does not tell of. -/
inductive IsMisconfigured (i : Invocation) (reader : YamlReader) (files : FileTree) : Prop
  /-- The settings file has a fault that is not told. -/
  | settings {path : Path} (hpath : i.settings = some path) (h : Settings.Escapes reader files path)
  /-- The level is no name of one. -/
  | level {settings : Settings} (hsettings : i.loadSettings reader files = .ok settings)
      (hverbose : i.verbose = false) (h : ¬ settings.level.IsLevelName)
  /-- The file of the journal is no text. -/
  | fileName {settings : Settings} (hsettings : i.loadSettings reader files = .ok settings)
      (h : ¬ settings.logFile.IsFileName)
  /-- The file of the journal cannot be made or opened. -/
  | file {settings : Settings} {path : Path}
      (hsettings : i.loadSettings reader files = .ok settings)
      (hpath : Path.ofSetting settings.logFile = .ok (some path)) (h : ¬ files.CanAppend path)

/-- A journal that is not opened is due to what was set. -/
theorem IsMisconfigured.of_startJournal {escape : Escape}
    (hsettings : i.loadSettings reader files = .ok settings)
    (hjournal : i.startJournal settings files = ⟨.error escape, u⟩) :
    i.IsMisconfigured reader files := by
  by_contra hmisconfigured
  have hname : settings.logFile.IsFileName := by
    by_contra h
    exact hmisconfigured (.fileName hsettings h)
  have hlevel : i.verbose = false → settings.level.IsLevelName := by
    intro hverbose
    by_contra h
    exact hmisconfigured (.level hsettings hverbose h)
  have hfile : ∀ path, Path.ofSetting settings.logFile = .ok (some path) →
      files.CanAppend path := by
    intro path hpath
    by_contra h
    exact hmisconfigured (.file hsettings hpath h)
  obtain ⟨j, hj⟩ := exists_startJournal_eq_ok_iff.2 ⟨hname, hlevel, hfile⟩
  rw [hjournal] at hj
  cases hj

/-- A journal is opened only if nothing is wrong with what was set. -/
theorem not_isMisconfigured {journal : Journal}
    (hsettings : i.loadSettings reader files = .ok settings)
    (hjournal : i.startJournal settings files = ⟨.ok journal, u⟩) :
    ¬ i.IsMisconfigured reader files := by
  have hresult : ∃ j, (i.startJournal settings files).result = .ok j := ⟨journal, by rw [hjournal]⟩
  obtain ⟨hname, hlevel, hfile⟩ := exists_startJournal_eq_ok_iff.1 hresult
  have hsame : ∀ {settings'}, i.loadSettings reader files = .ok settings' → settings' = settings :=
    fun h => Except.ok.inj (h.symm.trans hsettings)
  rintro (⟨hpath, h⟩ | ⟨h', hverbose, h⟩ | ⟨h', h⟩ | ⟨h', hpath, h⟩)
  · obtain ⟨fault, hfault, -⟩ := Settings.ofFile_escapes_iff.2 h
    simp only [loadSettings, hpath, hfault] at hsettings
    cases hsettings
  · exact h (hsame h' ▸ hlevel hverbose)
  · exact h (hsame h' ▸ hname)
  · exact h (hfile _ (hsame h' ▸ hpath))

/-- Without settings nothing else is looked at. -/
theorem isMisconfigured_iff {fault : SettingsFault}
    (hsettings : i.loadSettings reader files = .error fault) :
    i.IsMisconfigured reader files ↔ fault.isTold = false := by
  have hfile : ∀ {path}, i.settings = some path →
      Settings.ofFile reader files path = .error fault :=
    fun hpath => by rwa [loadSettings, hpath] at hsettings
  constructor
  · rintro (⟨hpath, h⟩ | ⟨h, -⟩ | ⟨h, -⟩ | ⟨h, -⟩)
    · obtain ⟨fault', hfault, hescapes⟩ := Settings.ofFile_escapes_iff.2 h
      obtain rfl := Except.error.inj ((hfile hpath).symm.trans hfault)
      exact hescapes
    · rw [hsettings] at h
      cases h
    · rw [hsettings] at h
      cases h
    · rw [hsettings] at h
      cases h
  · intro htold
    cases hpath : i.settings with
    | none =>
      rw [loadSettings, hpath] at hsettings
      cases hsettings
    | some path =>
      exact .settings hpath (Settings.ofFile_escapes_iff.1 ⟨fault, hfile hpath, htold⟩)

end Invocation

/-! ### Runs -/

namespace Host

variable {host : Host} {words : List Text}

/-- The ways for a fault to escape from a run. -/
inductive Escapes (host : Host) (words : List Text) : Prop
  /-- The word for the settings file has no octets. -/
  | word {fault : FileFault}
      (hwords : Invocation.ofWords host.files words = .error (.nameless fault))
  /-- The run cannot go on with its settings. -/
  | settings {i : Invocation} (hwords : Invocation.ofWords host.files words = .ok i)
      (h : i.IsMisconfigured host.platform.reader host.files)
  /-- A word of the command that is to name a file has no octets. -/
  | operand {i : Invocation} {settings : Settings} {journal : Journal} {files : FileTree}
      {fault : FileFault} (hwords : Invocation.ofWords host.files words = .ok i)
      (hsettings : i.loadSettings host.platform.reader host.files = .ok settings)
      (hjournal : i.startJournal settings host.files = ⟨.ok journal, files⟩)
      (hcommand : Command.ofInvocation files i = .error (.nameless fault))
  /-- The output refuses a line of the report on the rules. -/
  | report {d : Desk} {files : FileTree} {lines : List Text} {t : Text} {fault : EchoFault}
      (hreaches : host.Reaches words d files .check) (hsaid : d.Says ⟨files, [], []⟩ .check lines)
      (hstops : host.platform.echo.StopsAfter lines t fault)

/-- Without words for a run, a fault escapes for a word without octets alone. -/
theorem escapes_iff_of_words {refusal : Refusal}
    (hwords : Invocation.ofWords host.files words = .error refusal) :
    host.Escapes words ↔ ∃ fault, refusal = .nameless fault := by
  constructor
  · rintro (h | ⟨h, -⟩ | ⟨h, -⟩ | ⟨⟨_, _, _, h, -⟩, -⟩) <;> rw [hwords] at h <;> cases h
    exact ⟨_, rfl⟩
  · rintro ⟨fault, rfl⟩
    exact .word hwords

section Settings

variable {i : Invocation} (hwords : Invocation.ofWords host.files words = .ok i)
include hwords

/-- Without settings, a fault escapes if it is not one to be told. -/
theorem escapes_iff_of_settings {fault : SettingsFault}
    (hsettings : i.loadSettings host.platform.reader host.files = .error fault) :
    host.Escapes words ↔ fault.isTold = false := by
  rw [← Invocation.isMisconfigured_iff hsettings]
  refine ⟨?_, .settings hwords⟩
  rintro (h | ⟨h, hmisconfigured⟩ | ⟨h, h', -⟩ | ⟨⟨_, _, _, h, h', -⟩, -⟩)
  · rw [hwords] at h
    cases h
  · rwa [Except.ok.inj (hwords.symm.trans h)]
  · obtain rfl := Except.ok.inj (hwords.symm.trans h)
    rw [hsettings] at h'
    cases h'
  · obtain rfl := Except.ok.inj (hwords.symm.trans h)
    rw [hsettings] at h'
    cases h'

variable {settings : Settings} {journal : Journal} {files : FileTree}
  (hsettings : i.loadSettings host.platform.reader host.files = .ok settings)
  (hjournal : i.startJournal settings host.files = ⟨.ok journal, files⟩)
include hsettings hjournal

/-- With a journal, a fault escapes for a word of the command, or for a report that the
output stops at. -/
theorem escapes_iff_of_journal : host.Escapes words ↔
    (∃ fault, Command.ofInvocation files i = .error (.nameless fault)) ∨
      ∃ d files lines t fault, host.Reaches words d files .check ∧
        d.Says ⟨files, [], []⟩ .check lines ∧ host.platform.echo.StopsAfter lines t fault := by
  constructor
  · intro h
    cases h with
    | word hnameless =>
      rw [hwords] at hnameless
      cases hnameless
    | settings hwords' hmisconfigured =>
      obtain rfl := Except.ok.inj (hwords.symm.trans hwords')
      exact absurd hmisconfigured (Invocation.not_isMisconfigured hsettings hjournal)
    | operand hwords' hsettings' hjournal' hnameless =>
      obtain rfl := Except.ok.inj (hwords.symm.trans hwords')
      obtain rfl := Except.ok.inj (hsettings.symm.trans hsettings')
      obtain ⟨-, rfl⟩ := Change.mk.inj (hjournal.symm.trans hjournal')
      exact .inl ⟨_, hnameless⟩
    | report hreaches hsaid hstops => exact .inr ⟨_, _, _, _, _, hreaches, hsaid, hstops⟩
  · rintro (⟨fault, hnameless⟩ | ⟨d, files, lines, t, fault, hreaches, hsaid, hstops⟩)
    · exact .operand hwords hsettings hjournal hnameless
    · exact .report hreaches hsaid hstops

/-- Without a command, a fault escapes for a word without octets alone. -/
theorem escapes_iff_of_command {refusal : Refusal}
    (hcommand : Command.ofInvocation files i = .error refusal) :
    host.Escapes words ↔ ∃ fault, refusal = .nameless fault := by
  rw [escapes_iff_of_journal hwords hsettings hjournal, hcommand]
  constructor
  · rintro (⟨fault, hnameless⟩ | ⟨_, _, _, _, _, ⟨i', _, _, hwords', hsettings', hjournal',
      hcommand', -⟩, -, -⟩)
    · exact ⟨fault, Except.error.inj hnameless⟩
    · obtain rfl := Except.ok.inj (hwords.symm.trans hwords')
      obtain rfl := Except.ok.inj (hsettings.symm.trans hsettings')
      obtain ⟨-, rfl⟩ := Change.mk.inj (hjournal.symm.trans hjournal')
      rw [hcommand] at hcommand'
      cases hcommand'
  · rintro ⟨fault, rfl⟩
    exact .inl ⟨fault, rfl⟩

end Settings

/-- From a command, a fault escapes if it is to report on the rules and the output stops at
the report. -/
theorem Reaches.escapes_iff {d : Desk} {files : FileTree} {command : Command}
    (h : host.Reaches words d files command) :
    host.Escapes words ↔ command = .check ∧ ∃ lines t fault,
      d.Says ⟨files, [], []⟩ .check lines ∧ d.platform.echo.StopsAfter lines t fault := by
  obtain ⟨i, settings, journal, hwords, hsettings, hjournal, hcommand, -⟩ := id h
  rw [escapes_iff_of_journal hwords hsettings hjournal, hcommand, h.platform_eq]
  constructor
  · rintro (⟨fault, hnameless⟩ | ⟨d', files', lines, t, fault, hreaches, hsaid, hstops⟩)
    · cases hnameless
    · obtain ⟨rfl, rfl, rfl⟩ := h.unique hreaches
      exact ⟨rfl, lines, t, fault, hsaid, hstops⟩
  · rintro ⟨rfl, lines, t, fault, hsaid, hstops⟩
    exact .inr ⟨d, files, lines, t, fault, h, hsaid, hstops⟩

/-- The rules are rejected: the output has taken a report that ends in `FAILED`. -/
def Rejects (host : Host) (words : List Text) (outcome : Outcome) : Prop :=
  ∃ d files before rest, host.Reaches words d files .check ∧
    d.Says ⟨files, [], []⟩ .check (before ++ [("FAILED: " : Text) ++ rest]) ∧
    host.platform.echo.Takes (before ++ [("FAILED: " : Text) ++ rest]) outcome.session.output

/-- A run ends well, as a mistake in usage, or after it has told why not. -/
def EndsTold (host : Host) (words : List Text) (outcome : Outcome) : Prop :=
  outcome.escaped = none ∧
    (outcome.exit = 0 ∨ outcome.exit = 2 ∨
      outcome.exit = 1 ∧ (Text.Gains "Error: " [] outcome.session.errors ∨
        host.Rejects words outcome))

/-- A fault escapes. -/
def EndsUntold (outcome : Outcome) : Prop :=
  outcome.exit = 1 ∧ outcome.escaped.isSome

/-- A fault escapes from a run in one of the ways listed, or the run ends told. -/
def Ends (host : Host) (words : List Text) (outcome : Outcome) : Prop :=
  (host.Escapes words ∧ EndsUntold outcome) ∨
    (¬ host.Escapes words ∧ host.EndsTold words outcome)

/-- A run without a command ends told, unless a word has no octets. -/
theorem ends_refusal {refusal : Refusal}
    (h : host.Escapes words ↔ ∃ fault, refusal = .nameless fault) (files : FileTree) :
    host.Ends words (refusal.outcome files) := by
  rw [Ends, h]
  cases refusal with
  | usage => exact .inr ⟨nofun, rfl, .inr (.inl rfl)⟩
  | help => exact .inr ⟨nofun, rfl, .inl rfl⟩
  | nameless fault => exact .inl ⟨⟨fault, rfl⟩, rfl, rfl⟩

/-- A run without settings ends told if the fault is one to be told. -/
theorem ends_unset {fault : SettingsFault} (h : host.Escapes words ↔ fault.isTold = false)
    (files : FileTree) : host.Ends words (fault.outcome files) := by
  rw [Ends, h, SettingsFault.outcome]
  cases fault.isTold with
  | false => exact .inl ⟨rfl, rfl, rfl⟩
  | true =>
    exact .inr ⟨nofun, rfl, .inr (.inr ⟨rfl, .inl (Desk.gains_complain _ fault.message)⟩)⟩

/-- A command ends told, unless it is to report on the rules and the output refuses a
line. -/
theorem Reaches.ends {d : Desk} {files : FileTree} {command : Command}
    (h : host.Reaches words d files command) :
    host.Ends words (d.run ⟨files, [], []⟩ command) := by
  -- a report that the output stops at would have let a fault escape
  have htold : (d.run ⟨files, [], []⟩ command).escaped = none → ¬ host.Escapes words := by
    rw [h.escapes_iff]
    rintro hnone ⟨rfl, lines, t, fault, hsaid, hstops⟩
    have hescaped := Desk.escaped_check hsaid hstops
    rw [show d.check _ = d.run _ .check from rfl, hnone] at hescaped
    cases hescaped
  obtain hfailed | hdone | ⟨lines, hsaid, hrefused | ⟨rfl, hrejected | hbroken⟩⟩ :=
    d.run_cases (s := ⟨files, [], []⟩) h.isOpen command
  · exact .inr ⟨htold hfailed.escaped, hfailed.escaped,
      .inr (.inr ⟨hfailed.exit, .inl hfailed.told⟩)⟩
  · exact .inr ⟨htold hdone.escaped, hdone.escaped, .inl hdone.exit⟩
  · exact .inr ⟨htold hrefused.escaped, hrefused.escaped,
      .inr (.inr ⟨hrefused.exit, .inl hrefused.told⟩)⟩
  · obtain ⟨before, rest, rfl⟩ := hrejected.failed
    obtain ⟨t, htakes, houtput⟩ := hrejected.said
    rw [h.platform_eq] at htakes
    obtain rfl : t = (d.run ⟨files, [], []⟩ .check).session.output := houtput.symm
    exact .inr ⟨htold hrejected.escaped, hrejected.escaped, .inr (.inr ⟨hrejected.exit,
      .inr ⟨d, files, before, rest, h, hsaid, htakes⟩⟩)⟩
  · obtain ⟨t, fault, hstops, -⟩ := hbroken.output
    exact .inl ⟨h.escapes_iff.2 ⟨rfl, lines, t, fault, hsaid, hstops⟩, hbroken.exit,
      hbroken.escaped⟩

/-- **A fault escapes from a run in the ways listed, and in no other.**  Any other run ends
well, as a mistake in usage, or with exit code 1 after an error was told or the rules were
rejected. -/
theorem run_ends (host : Host) (words : List Text) :
    (host.Escapes words ∧ EndsUntold (host.run words)) ∨
      (¬ host.Escapes words ∧ host.EndsTold words (host.run words)) := by
  have hcourse := host.run_course words
  generalize host.run words = outcome at hcourse ⊢
  cases hcourse with
  | refused hwords => exact ends_refusal (escapes_iff_of_words hwords) host.files
  | unset hwords hsettings =>
    exact ends_unset (escapes_iff_of_settings hwords hsettings) host.files
  | unopened hwords hsettings hjournal =>
    exact .inl ⟨.settings hwords (.of_startJournal hsettings hjournal), rfl, rfl⟩
  | @misused _ _ _ files _ hwords hsettings hjournal hcommand =>
    exact ends_refusal (escapes_iff_of_command hwords hsettings hjournal hcommand) files
  | command hreaches => exact hreaches.ends

/-- A level of an unknown name is not told of. -/
theorem run_unknown_level :
    let host : Host :=
      ⟨⟨[(["s.yaml"], .file (Utf8.encode "logging:\n  level: FOO\n"))]⟩, [],
        { stamp := [], trace := fun _ => [], lost := fun _ => [] }⟩
    let outcome := host.run ["--settings", "s.yaml", "convert", "ka"]
    outcome.exit = 1 ∧ outcome.escaped.isSome ∧ outcome.session.errors = [] := by
  decide +kernel

end Host
end PhoneticBengali
