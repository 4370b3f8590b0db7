/-
# The exported reverse table

`rules export-reverse` writes the reverse of the rules that the settings name
(`Host.run_exportReverse`):

| reversed rules | end of the run |
| --- | --- |
| half of a surrogate pair in one of them | exit code 1, nothing is written (`Host.run_exportReverse_half`) |
| no room for the file | exit code 1 |
| else | the file is written; exit code 0 if the output takes the last line |

Every character of a literal survives the JSON text and its UTF-8 octets.  The file holds no
alternatives.  A reverse scan looks at none, so the rules that are read back lead every text
back to the same romanization (`RuleTable.toRoman_map_plain`).
-/

import PhoneticBengali.Proofs.Command.Course
import PhoneticBengali.Proofs.Json.RoundTrip
import PhoneticBengali.Proofs.Text.Utf8

namespace PhoneticBengali

/-! ### Rules without alternatives -/

/-- The rule without its alternatives. -/
def Rule.plain (r : Rule) : Rule :=
  { r with alternatives := [] }

namespace RuleTable

/-- The first rule that matches is the same, without its alternatives. -/
theorem first?_map_plain (table : RuleTable) (rest : Text) :
    first? (table.map Rule.plain) rest = (table.first? rest).map Rule.plain :=
  List.find?_map ..

/-- So every pass takes the same way. -/
theorem courseWithin_map_plain (table : RuleTable) (passes : Nat) (t : Text) :
    courseWithin (table.map Rule.plain) passes t = table.courseWithin passes t := by
  induction passes generalizing t with
  | zero => cases t <;> rfl
  | succ passes ih =>
    cases t with
    | nil => rfl
    | cons c rest =>
      rw [courseWithin, courseWithin, first?_map_plain]
      cases table.first? (c :: rest) with
      | none => exact congrArg (Course.after [c]) (ih rest)
      | some r => exact congrArg (Course.after r.replace) (ih _)

/-- **A reverse scan does not see alternatives.** -/
theorem toRoman_map_plain (table : RuleTable) (t : Text) :
    toRoman (table.map Rule.plain) t = table.toRoman t := by
  rw [toRoman, scanReverse, course, courseWithin_map_plain]
  rfl

end RuleTable

/-! ### The document -/

/-- The rule that an object with just a `find` and a `replace` describes. -/
def Rule.ofExport? : Document → Option Rule
  | .map [(.str first, .str find), (.str second, .str replace)] =>
    if first = "find" ∧ second = "replace" then some ⟨find, replace, []⟩ else none
  | _ => none

/-- The rules that a list of such objects describes. -/
def RuleTable.ofExport? : Document → Option RuleTable
  | .list items => items.mapM Rule.ofExport?
  | _ => none

/-- Rules whose literals and outputs have a form in UTF-8. -/
def RuleTable.IsEncodable (table : RuleTable) : Prop :=
  ∀ r ∈ table, Utf8.isEncodable r.find = true ∧ Utf8.isEncodable r.replace = true

namespace Desk

/-- The document of a table describes its rules without their alternatives. -/
theorem ofExport?_reverseDocument (table : RuleTable) :
    RuleTable.ofExport? (reverseDocument table) = some (table.map Rule.plain) := by
  rw [reverseDocument, RuleTable.ofExport?]
  induction table with
  | nil => rfl
  | cons r table ih =>
    rw [List.map_cons, List.mapM_cons, ih, Rule.ofExport?, if_pos ⟨rfl, rfl⟩]
    rfl

/-- The document of a table is a JSON value. -/
theorem isPlain_reverseDocument (table : RuleTable) : (reverseDocument table).IsPlain := by
  refine .list fun d hd => ?_
  obtain ⟨r, -, rfl⟩ := List.mem_map.1 hd
  show Document.IsPlain (.map (Json.entriesOf [("find", .str _), ("replace", .str _)]))
  refine .map ?_ ?_
  · show (["find", "replace"] : List Text).Nodup
    decide
  · simp only [List.mem_cons, List.not_mem_nil, or_false]
    rintro e (rfl | rfl)
    · exact .str _
    · exact .str _

/-- JSON has a form for the document of a table. -/
theorem hasForm_reverseDocument (table : RuleTable) :
    Json.hasForm (reverseDocument table) = true := by
  have hshort : (reverseDocument table).holdsLong = false := by
    refine Json.anyLong_eq_false_iff.2 fun d hd => ?_
    obtain ⟨r, -, rfl⟩ := List.mem_map.1 hd
    rfl
  rw [Json.hasForm, (Json.formFault?_eq_none_iff (isPlain_reverseDocument table)).2 hshort]
  rfl

/-- The layout of an exported table. -/
def exportLayout : Json.Layout :=
  .indented "  "

/-- It puts nothing but blanks between the parts. -/
theorem isBlank_exportLayout : exportLayout.IsBlank := by
  simp [Json.Layout.IsBlank, exportLayout, Json.IsBlank, Json.IsBlankChar, Text.ofString]

/-- The text of an exported table. -/
def exportText (table : RuleTable) : Text :=
  Json.encode exportLayout (reverseDocument table)

/-- The table is read from its text. -/
theorem decode_exportText (table : RuleTable) :
    Json.decode (exportText table) = some (reverseDocument table) :=
  Json.decode_encode isBlank_exportLayout (isPlain_reverseDocument table)
    (hasForm_reverseDocument table)

/-! ### Halves of pairs -/

/-- What stands before an item has a form in UTF-8. -/
theorem isEncodable_start (depth : Nat) : Utf8.isEncodable (exportLayout.start depth) = true := by
  have hindent : Utf8.isEncodable (List.replicate depth ("  " : Text)).flatten = true := by
    rw [Utf8.isEncodable_flatten, List.all_replicate]
    split <;> rfl
  exact hindent

/-- Parts between brackets have a form if each of them has one. -/
theorem isEncodable_enclose (depth : Nat) {opening closing : CodePoint}
    (hopening : opening.isSurrogate = false) (hclosing : closing.isSurrogate = false)
    (parts : List Text) : Utf8.isEncodable (Json.enclose exportLayout depth opening closing parts) =
      parts.all Utf8.isEncodable := by
  have hbrackets : Utf8.isEncodable [opening] = true ∧ Utf8.isEncodable [closing] = true := by
    simp [Utf8.isEncodable, hopening, hclosing]
  have hparts : ∀ parts, Utf8.isEncodable ((exportLayout.separator (depth + 1)).intercalate parts) =
      parts.all Utf8.isEncodable := by
    have hseparator : Utf8.isEncodable (exportLayout.separator (depth + 1)) = true :=
      isEncodable_start (depth + 1)
    intro parts
    induction parts with
    | nil => rfl
    | cons t parts ih =>
      cases parts with
      | nil => simp
      | cons u parts =>
        rw [List.intercalate_cons_cons, Utf8.isEncodable_append, Utf8.isEncodable_append,
          hseparator, ih, Bool.and_true]
        rfl
  rw [Json.enclose]
  split
  · rename_i hempty
    rw [List.isEmpty_iff.1 hempty]
    exact Bool.and_eq_true_iff.2 ⟨by simp [hopening], by simp [hclosing]⟩
  · simp only [Utf8.isEncodable_append, hparts, hbrackets, isEncodable_start, Bool.and_true,
      Bool.true_and]

/-- **The text of a table has a form in UTF-8** exactly if its rules have. -/
theorem isEncodable_exportText_iff (table : RuleTable) :
    Utf8.isEncodable (exportText table) = true ↔ table.IsEncodable := by
  have hitem : ∀ r : Rule, Utf8.isEncodable (Json.write exportLayout 1
      (.map [(.str "find", .str r.find), (.str "replace", .str r.replace)])) =
        (Utf8.isEncodable r.find && Utf8.isEncodable r.replace) := by
    intro r
    have hkeys : Utf8.isEncodable (Json.string "find" ++ ": ") = true ∧
        Utf8.isEncodable (Json.string "replace" ++ ": ") = true := by decide
    simp only [Json.write, Json.writeEntries, Json.key]
    rw [isEncodable_enclose 1 rfl rfl, List.all_cons, List.all_cons, List.all_nil,
      Utf8.isEncodable_append, Utf8.isEncodable_append (Json.string "replace" ++ ": "),
      hkeys.1, hkeys.2, Json.isEncodable_string, Json.isEncodable_string, Bool.and_true,
      Bool.true_and, Bool.true_and]
  rw [exportText, Json.encode, reverseDocument, Json.write, isEncodable_enclose 0 rfl rfl,
    Json.writeItems_eq, List.all_map, List.all_map, List.all_eq_true]
  simp only [Function.comp_apply, hitem, Bool.and_eq_true]
  rfl

/-- The draft of a table is complete, unless half of a pair is in it. -/
theorem ofJson_reverseDocument (table : RuleTable) :
    (table.IsEncodable ∧ Draft.ofJson (.int 2) (reverseDocument table) =
      ⟨Utf8.encode (exportText table), .ok ()⟩) ∨
    (¬ table.IsEncodable ∧ ∃ fault,
      (Draft.ofJson (.int 2) (reverseDocument table)).result = .error (.encoding fault)) := by
  have hlayout : Json.Layout.ofDocument? (.int 2) = some exportLayout := rfl
  have hform := Option.isNone_iff_eq_none.1 (hasForm_reverseDocument table)
  have hmakes :
      Json.Makes (Json.pieces exportLayout 0 (reverseDocument table)) (exportText table) :=
    Json.makes_pieces 0 _ hform
  rw [← isEncodable_exportText_iff, Draft.ofJson, hlayout]
  cases hencodable : Utf8.isEncodable (exportText table) with
  | true => exact .inl ⟨rfl, Draft.ofPieces_of_makes hmakes hencodable⟩
  | false => exact .inr ⟨Bool.false_ne_true, Draft.ofPieces_of_makes_not hmakes hencodable⟩

/-! ### The file -/

variable {d : Desk} {s : Session} {tables : Tables}

/-- A move leaves a journal no file that received what was written. -/
theorem not_mem_afterMove {t u : FileTree} {output : Path} {content : Utf8.Octets} {p : Place}
    (hopen : d.IsOpen t) (hputs : t.Puts u output content p) :
    p ∉ (d.afterMove u output).journal.file.toList := by
  rw [afterMove]
  split
  · exact List.not_mem_nil
  · rename_i hother
    rw [Option.mem_toList]
    intro hp
    obtain hlocate | ⟨dir, number, -, -, -, hnone⟩ := hputs.place
    · exact hother (by rw [hlocate]; exact hp)
    · have hthere := hopen p hp
      rw [FileTree.content?, hnone] at hthere
      cases hthere

/-- The text of a table is refused for half of a pair in it, or by the file system, or is
put into one place. -/
theorem write_reverseDocument (t : FileTree) (output : Path) (table : RuleTable) :
    ∃ result u, t.writeJson output (.int 2) (reverseDocument table) = ⟨result, u⟩ ∧
      ((¬ table.IsEncodable ∧ t.GrowsTo u [] ∧ ∃ fault, result = .error fault) ∨
      (table.IsEncodable ∧ ¬ t.HasRoom output ∧ ∃ fault, result = .error (.file fault)) ∨
      (table.IsEncodable ∧ result = .ok () ∧
        ∃ p, t.GrowsTo u [p] ∧ t.Puts u output (Utf8.encode (exportText table)) p)) := by
  refine ⟨_, _, rfl, ?_⟩
  obtain ⟨fault, hresult, hgrows⟩ | ⟨_, p, hdraft, hresult, hgrows, hputs⟩ :=
    t.write_cases output (.ofJson (.int 2) (reverseDocument table))
  · obtain ⟨hencodable, hdraft⟩ | ⟨hencodable, -⟩ := ofJson_reverseDocument table
    · obtain ⟨f, rfl⟩ := FileTree.exists_file_of_write_eq_error (by rw [hdraft]) hresult
      refine .inr (.inl ⟨hencodable, fun hroom => ?_, f, hresult⟩)
      have hwritten := FileTree.write_of_hasRoom hroom (Utf8.encode (exportText table)) ()
      rw [← hdraft, hresult] at hwritten
      cases hwritten
    · exact .inl ⟨hencodable, hgrows, fault, hresult⟩
  · obtain ⟨hencodable, hcomplete⟩ | ⟨-, fault, hfault⟩ := ofJson_reverseDocument table
    · have hcontent : (Draft.ofJson (.int 2) (reverseDocument table)).content =
          Utf8.encode (exportText table) := by rw [hcomplete]
      rw [hcontent] at hputs
      exact .inr (.inr ⟨hencodable, hresult, p, hgrows, hputs⟩)
    · rw [hfault] at hdraft
      cases hdraft

/-- **With its rules read, an export fails** for half of a pair or by the file system, **or
puts out the text** and says so, which the output may refuse. -/
theorem exportReverse_of_tables (hopen : d.IsOpen s.files)
    (htables : (d.tables s.files).value = .ok tables) (output : Path) :
    let o := d.exportReverse s output
    let t := (s.note d (d.tables s.files).records).files
    (¬ tables.reverse.IsEncodable ∧ d.Failed s o) ∨
    (tables.reverse.IsEncodable ∧
      ((¬ t.HasRoom output ∧ ∃ s' fault, o = Session.fail s' d "Export" (.write (.file fault))) ∨
      ((∃ p, t.Receives o.session.files output p ∧
          o.session.files.content? p = some (Utf8.encode (exportText tables.reverse))) ∧
        ((∃ said, d.platform.echo (exportLine tables.reverse output) = .ok said ∧ o.exit = 0) ∨
          ∃ fault, d.platform.echo (exportLine tables.reverse output) = .error fault ∧
            o.exit = 1)))) := by
  have hnoted := hopen.note (d.tables s.files).records
  intro o t
  obtain ⟨result, u, hwrite, ⟨hencodable, hgrows, fault, rfl⟩ | ⟨hencodable, hroom, fault, rfl⟩ |
    ⟨hencodable, rfl, p, hgrows, hputs⟩⟩ := write_reverseDocument t output tables.reverse
  · simp only [o, exportReverse, htables, show (s.note d _).files.writeJson _ _ _ = _ from hwrite]
    exact .inl ⟨hencodable,
      .after_note hopen (failed_fail_of_growsTo hnoted hgrows "Export" (.write fault))⟩
  · simp only [o, exportReverse, htables, show (s.note d _).files.writeJson _ _ _ = _ from hwrite]
    exact .inr ⟨hencodable, .inl ⟨hroom, _, fault, rfl⟩⟩
  · simp only [o, exportReverse, htables, show (s.note d _).files.writeJson _ _ _ = _ from hwrite]
    refine .inr ⟨hencodable, .inr ?_⟩
    rw [Session.say]
    cases hecho : d.platform.echo (exportLine tables.reverse output) with
    | ok said => exact ⟨⟨p, hputs.place, hputs.content⟩, .inl ⟨said, rfl, rfl⟩⟩
    | error fault =>
      -- the fault is written to the journal, which is another file by now or none
      have hmoved := ((hnoted.of_growsTo hgrows).afterMove output).1
      have hlater := growsTo_note (s := ⟨u, s.output, []⟩) hmoved
        [Session.failure (d.afterMove u output) "Export" (.echo fault)]
      have hkept := hlater.content p (not_mem_afterMove hnoted hputs)
      exact ⟨⟨p, hputs.place.later hlater, hkept.trans hputs.content⟩, .inr ⟨fault, rfl, rfl⟩⟩

end Desk

/-! ### Runs -/

namespace Host

variable {host : Host} {words : List Text} {d : Desk} {files : FileTree} {output path : Path}
  {table : RuleTable}

/-- **The exported reverse table is the reverse table**, unless half of a surrogate pair is in
it.  A run that comes to `rules export-reverse` with rules of its own fails in that case, and
writes nothing but the journal.  Else it fails because there is no room for the file, or it
writes a file that holds, in UTF-8 and JSON, a list of objects with just a `find` and a
`replace`, those of the reversed rules one by one.  The rules that are read back from it have
no alternatives, and lead every text back as the reversed ones do.  The run ends well then if
the output takes the line that tells of the file. -/
theorem run_exportReverse (hreaches : host.Reaches words d files (.exportReverse output))
    (hpath : Path.ofSetting d.settings.rulesFile = .ok (some path))
    (htable : (RuleTable.ofFile host.platform.reader files path).value = .ok table) :
    let outcome := host.run words
    let u := outcome.session.files
    let reversed := table.reverse
    let loaded := RuleTable.ofFile host.platform.reader files path
    let noted := (Session.note ⟨files, [], []⟩ d loaded.records).files
    let line := Desk.exportLine reversed output
    (¬ reversed.IsEncodable ∧ outcome.exit = 1 ∧ outcome.escaped.isNone ∧
      outcome.session.output = [] ∧ Text.Gains "Error: " [] outcome.session.errors ∧
      ∀ p, d.journal.file ≠ some p → u.content? p = files.content? p) ∨
    (reversed.IsEncodable ∧
      ((¬ noted.HasRoom output ∧ ∃ (s : Session) (fault : FileFault),
        outcome = s.fail d "Export" (.write (.file fault))) ∨
      ∃ p octets text document rules,
        files.Receives u output p ∧ u.content? p = some octets ∧
        (u.isDirectory output = false → u.read output = .ok octets) ∧
        Utf8.decode octets = .ok text ∧ Json.decode text = some document ∧
        document = .list (reversed.map fun r => .map
          [(.str "find", .str r.find), (.str "replace", .str r.replace)]) ∧
        RuleTable.ofExport? document = some rules ∧ (∀ r ∈ rules, r.alternatives = []) ∧
        (∀ t, rules.toRoman t = reversed.toRoman t) ∧
        ((∃ said, host.platform.echo line = .ok said ∧ outcome.exit = 0) ∨
          ∃ fault, host.platform.echo line = .error fault ∧ outcome.exit = 1))) := by
  intro outcome u reversed loaded noted line
  have hplatform := hreaches.platform_eq
  have htables : d.tables files = loaded.map fun table =>
      (table.mapError CommandFault.rules).map fun t => ⟨t, t.reverse⟩ := by
    simp only [Desk.tables, hpath, hplatform, loaded]
  have hvalue : (d.tables files).value = .ok ⟨table, reversed⟩ := by
    rw [htables, Noted.map, htable]
    rfl
  have hrecords : (d.tables files).records = loaded.records := by rw [htables, Noted.map]
  have hnote := Desk.growsTo_note (s := ⟨files, [], []⟩) hreaches.isOpen loaded.records
  have hrun : outcome = d.exportReverse ⟨files, [], []⟩ output := hreaches.run_eq
  have hcases := Desk.exportReverse_of_tables (s := ⟨files, [], []⟩) hreaches.isOpen hvalue output
  simp only [← hrun, hrecords, hplatform] at hcases
  obtain ⟨hencodable, hfailed⟩ | ⟨hencodable, hroom | ⟨⟨p, hreceives, hcontent⟩, hends⟩⟩ := hcases
  · refine .inl ⟨hencodable, hfailed.exit, by rw [hfailed.escaped, Option.isNone_none],
      hfailed.output, hfailed.told, fun p hp => ?_⟩
    obtain ⟨t, hgrows, rfl⟩ := hfailed.files
    exact hgrows.content p (by simpa using hp)
  · exact .inr ⟨hencodable, .inl hroom⟩
  · have hreceives := hreceives.of_growsTo hnote
    refine .inr ⟨hencodable, .inr ⟨p, _, _, _, _, hreceives, hcontent,
      hreceives.read hcontent, ?_, Desk.decode_exportText _, rfl,
      Desk.ofExport?_reverseDocument _, ?_, fun t => ?_, hends⟩⟩
    · exact Utf8.decode_encode ((Desk.isEncodable_exportText_iff _).2 hencodable)
    · intro r hr
      obtain ⟨r', -, rfl⟩ := List.mem_map.1 hr
      rfl
    · exact RuleTable.toRoman_map_plain reversed t

/-- Quotes, backslashes, control characters and line separators come back from the file;
the alternative does not. -/
theorem run_exportReverse_escapes :
    let rules : Text := "- find: q\n  replace: \"\\x01\\u2028\"\n  rules:\n  - replace: x\n" ++
      "    matches:\n    - type: prefix\n      scope: vowel\n- find: \"a\\n\"\n" ++
      "  replace: \"\\\"\\\\b\"\n"
    let host : Host :=
      ⟨⟨[(["s.yaml"], .file (Utf8.encode "transliteration:\n  rules_file: r.yaml\n")),
          (["r.yaml"], .file (Utf8.encode rules))]⟩, [],
        { stamp := [], trace := fun _ => [], lost := fun _ => [] }⟩
    let words : List Text := ["--settings", "s.yaml", "rules", "export-reverse", "o.json"]
    let output := Path.ofText "o.json"
    let alternative : Alternative := ⟨[{ side := .before, scope := .letter .vowel }], "x"⟩
    ∃ d files path table, host.Reaches words d files (.exportReverse output) ∧
      Path.ofSetting d.settings.rulesFile = .ok (some path) ∧
      (RuleTable.ofFile host.platform.reader files path).value = .ok table ∧
      table.reverse = [⟨"\"\\b", "a\n", []⟩, ⟨"\x01\u2028", "q", [alternative]⟩] ∧
      ∃ octets text document, (host.run words).session.files.read output = .ok octets ∧
        Utf8.decode octets = .ok text ∧ Json.decode text = some document ∧
        RuleTable.ofExport? document = some [⟨"\"\\b", "a\n", []⟩, ⟨"\x01\u2028", "q", []⟩] := by
  intro rules host words output alternative
  let path := Path.ofText "r.yaml"
  have hreached : (host.reached? words).any (fun x => x.2.2 = .exportReverse output ∧
      (Path.ofSetting x.1.settings.rulesFile).toOption = some (some path) ∧
      (RuleTable.ofFile host.platform.reader x.2.1 path).value.toOption.map (·.reverse) =
        some [⟨"\"\\b", "a\n", []⟩, ⟨"\x01\u2028", "q", [alternative]⟩]) = true := by
    decide +kernel
  have hdone : (host.run words).exit = 0 ∧
      (host.run words).session.files.isDirectory output = false := by
    decide +kernel
  obtain ⟨⟨d, files, command⟩, hd, hfacts⟩ := (Option.any_eq_true _ _).1 hreached
  obtain ⟨rfl, hpath, hreversed⟩ := of_decide_eq_true hfacts
  obtain ⟨table, htable, hreversed⟩ := Option.map_eq_some_iff.1 hreversed
  have hreaches := reaches_of_reached? hd
  obtain ⟨-, hfailed, -⟩ | ⟨-, ⟨-, s, fault, hfailed⟩ | ⟨p, octets, text, document, exported, -, -,
    hread, htext, hdocument, rfl, -⟩⟩ :=
      run_exportReverse hreaches (eq_ok_of_toOption hpath) (eq_ok_of_toOption htable)
  · rw [hdone.1] at hfailed
    cases hfailed
  · rw [hfailed] at hdone
    cases hdone.1
  · rw [hreversed] at hdocument
    exact ⟨d, files, path, table, hreaches, eq_ok_of_toOption hpath, eq_ok_of_toOption htable,
      hreversed, octets, text, _, hread hdone.2, htext, hdocument,
      Desk.ofExport?_reverseDocument _⟩

/-- A rule whose output is half of a surrogate pair is a rule like any other, but no file is
written then. -/
theorem run_exportReverse_half :
    let host : Host :=
      ⟨⟨[(["s.yaml"], .file (Utf8.encode "transliteration:\n  rules_file: r.yaml\n")),
          (["r.yaml"], .file (Utf8.encode "- find: k\n  replace: \"\\ud800\"\n"))]⟩, [],
        { stamp := [], trace := fun _ => [], lost := fun _ => [] }⟩
    let words : List Text := ["--settings", "s.yaml", "rules", "export-reverse", "o.json"]
    let outcome := host.run words
    ((RuleTable.ofFile host.platform.reader host.files (.ofText "r.yaml")).value.toOption.map
        (·.reverse) = some [⟨[.surrogate 0], "k", []⟩]) ∧
      outcome.exit = 1 ∧ outcome.session.files = host.files := by
  decide +kernel

end Host
end PhoneticBengali
