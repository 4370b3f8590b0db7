/-
# Conversions of the standard input

A run that asks for the standard input in a mode, and names neither settings nor a
file, has one way to go:

| stage | with the bundled settings |
| --- | --- |
| journal | on the console only |
| rules | the bundled ones |
| lines | those of the standard input |
| results | each line transliterated by itself |
| output | the results without terminal sequences, each with a line feed |

No mode makes half of a surrogate pair, so a plain output (`Echo.IsPlain`) takes every
result and the run ends well (`Host.run_of_asksFor`).  As every mode works line by line, and
so does leaving out terminal sequences, the output is what the whole text becomes, and
splitting it gives the lines converted one by one (`Host.run_convertLines`).  Terminal
sequences of the input are lost on the way (`Host.run_convert_banglish_red`); an input
without an introducer has none.
-/

import PhoneticBengali.Command.Run
import PhoneticBengali.Proofs.Bundled.Linewise
import PhoneticBengali.Proofs.Journal.Attempt
import PhoneticBengali.Proofs.Text.Linewise
import PhoneticBengali.Proofs.Text.Utf8

namespace PhoneticBengali

/-! ### Plain outputs -/

/-- An output that takes every line with a form in UTF-8, without its terminal sequences. -/
def Echo.IsPlain (echo : Echo) : Prop :=
  ∀ line, Utf8.isEncodable line = true → echo line = .ok (line.withoutSequences ++ "\n")

/-- The standard output is plain: what is left of a line has a form if the line has one. -/
theorem Echo.isPlain_standard : Echo.standard.IsPlain := by
  intro line hline
  have hkept : Utf8.isEncodable (line.withoutSequences ++ "\n") = true := by
    rw [Utf8.isEncodable_append, Bool.and_eq_true]
    refine ⟨List.all_eq_true.2 fun c hc => ?_, rfl⟩
    exact List.all_eq_true.1 hline c ((Text.withoutSequences_go_sublist 0 line).subset hc)
  rw [standard, Utf8.encodeFault?_eq_none_iff.2 hkept]

/-- A plain output takes lines one after the other. -/
theorem Session.say_of_isPlain {echo : Echo} (hecho : echo.IsPlain) {lines : List Text}
    (hlines : ∀ l ∈ lines, Utf8.isEncodable l = true) (s : Session) :
    s.say echo lines =
      ({ s with output := s.output ++ Text.unlines (lines.map Text.withoutSequences) }, none) := by
  induction lines generalizing s with
  | nil => simp [say, Text.unlines]
  | cons l lines ih =>
    obtain ⟨hl, hlater⟩ := List.forall_mem_cons.1 hlines
    rw [say, hecho l hl]
    simp only [ih hlater, List.map_cons, Text.unlines_cons, List.append_assoc]
    rfl

namespace Command

/-- The words ask for the standard input in a mode, and name no settings and no file. -/
def AsksFor (files : FileTree) (words : List Text) (mode : Text) : Prop :=
  ∃ verbose rest, Invocation.ofWords files words = .ok ⟨verbose, none, .convert, rest⟩ ∧
    Command.ofConvertWords files rest = .ok (.convert (some mode) none none none)

/-- The ways to write the option for a mode. -/
def modeOptions (mode : Text) : List (List Text) :=
  [["--mode", mode], ["--mode=" ++ mode], ["-m", mode], ["-m" ++ mode]]

/-- Each way to write the option asks for the mode. -/
theorem asksFor_of_mem_modeOptions (files : FileTree) {mode : Text} (hmode : mode ≠ [])
    {option : List Text} (h : option ∈ modeOptions mode) :
    AsksFor files ("convert" :: option) mode := by
  refine ⟨false, option, rfl, ?_⟩
  obtain ⟨c, mode, rfl⟩ := List.exists_cons_of_ne_nil hmode
  simp only [modeOptions, List.mem_cons, List.not_mem_nil, or_false] at h
  rcases h with rfl | rfl | rfl | rfl <;> rfl

end Command

/-- The bundled settings open a journal without touching a file. -/
theorem Invocation.startJournal_defaults (i : Invocation) (files : FileTree) :
    ∃ journal, i.startJournal Settings.defaults files = ⟨.ok journal, files⟩ := by
  obtain ⟨verbose, settings, group, words⟩ := i
  cases verbose with
  | false => exact ⟨_, rfl⟩
  | true => exact ⟨_, rfl⟩

/-- The results of a conversion, line by line. -/
theorem Bundled.value_all (mode : Text) (lines : List Text) :
    (Attempt.all (lines.map (({} : Tables).transliterate (.str mode)))).value =
      .ok (lines.map (transliterated mode)) := by
  rw [Attempt.value_all, mapM_eq_ok_iff, List.map_map, List.map_map]
  exact List.map_congr_left fun t _ => value_transliterate mode t

/-- A line of a text that has a form in UTF-8 becomes one that has one. -/
theorem Bundled.isEncodable_transliterated {mode t l : Text} (ht : Utf8.isEncodable t = true)
    (hl : l ∈ t.unifyNewlines.splitLines) : Utf8.isEncodable (transliterated mode l) = true := by
  refine List.all_eq_true.2 fun c hc => ?_
  cases hsurrogate : c.isSurrogate with
  | false => rfl
  | true =>
    have hspecial : Text.isSpecial c = true := by rw [Text.isSpecial, hsurrogate, Bool.or_true]
    have hline := special_mem_of_mem_transliterated hspecial hc
    rcases Text.mem_unifyNewlines (Text.of_mem_splitLines hl hline).1 with rfl | hmem
    · cases hsurrogate
    · have hchar := List.all_eq_true.1 ht c hmem
      rw [hsurrogate] at hchar
      cases hchar

/-- With the bundled rules the standard input is converted without a fault. -/
theorem Desk.convert_input {d : Desk} (hsettings : d.settings = Settings.defaults) {t : Text}
    (hinput : d.input = Utf8.encode t) (ht : Utf8.isEncodable t = true)
    (hecho : d.platform.echo.IsPlain) (s : Session) {mode : Text} (hmode : mode ≠ []) :
    ∃ session, d.convert s (some mode) none none none = ⟨0, session, none⟩ ∧
      session.output = s.output ++ Text.unlines ((t.unifyNewlines.splitLines.map
        (Bundled.transliterated mode)).map Text.withoutSequences) := by
  obtain ⟨records, htables⟩ : ∃ records, d.tables s.files = ⟨.ok {}, records⟩ := by
    rw [Desk.tables, hsettings]
    exact ⟨_, rfl⟩
  have hasked : d.mode (some mode) = .str mode := by
    obtain ⟨c, mode, rfl⟩ := List.exists_cons_of_ne_nil hmode
    rfl
  have hlines : ∀ files, d.lines files none none = .ok t.unifyNewlines.splitLines := by
    intro files
    rw [Desk.lines, hinput, FileTree.textOf, Utf8.decode_encode ht]
    rfl
  have hencodable : ∀ l ∈ t.unifyNewlines.splitLines.map (Bundled.transliterated mode),
      Utf8.isEncodable l = true :=
    List.forall_mem_map.2 fun l hl => Bundled.isEncodable_transliterated ht hl
  simp only [Desk.convert, htables, hasked, hlines, Desk.convertLines, Bundled.value_all,
    Desk.deliver, Session.say_of_isPlain hecho hencodable]
  exact ⟨_, rfl, rfl⟩

namespace Host

variable {host : Host} {words : List Text} {mode t : Text}

/-- A run that asks for the standard input in a mode ends well. -/
theorem run_of_asksFor (h : Command.AsksFor host.files words mode) (hmode : mode ≠ [])
    (hinput : host.input = Utf8.encode t) (ht : Utf8.isEncodable t = true)
    (hecho : host.platform.echo.IsPlain) :
    ∃ session, host.run words = ⟨0, session, none⟩ ∧
      session.output = Text.unlines ((t.unifyNewlines.splitLines.map
        (Bundled.transliterated mode)).map Text.withoutSequences) := by
  obtain ⟨verbose, rest, hwords, hcommand⟩ := h
  obtain ⟨journal, hjournal⟩ :=
    Invocation.startJournal_defaults ⟨verbose, none, .convert, rest⟩ host.files
  obtain ⟨session, hconvert, houtput⟩ := Desk.convert_input
    (d := ⟨journal, Settings.defaults, host.input, host.platform⟩) rfl hinput ht hecho
    ⟨host.files, [], []⟩ hmode
  refine ⟨session, ?_, houtput⟩
  simp only [Host.run, hwords, Invocation.run, Invocation.loadSettings, hjournal,
    Command.ofInvocation, hcommand]
  exact hconvert

/-- **Converting line by line is converting the whole.**  A mode makes something of every
text.  Without terminal sequences the output is what the lines put together become; split
again, it is what each line becomes. -/
theorem run_convertLines (h : Command.AsksFor host.files words mode) (hmode : mode ≠ [])
    (hinput : host.input = Utf8.encode t) (ht : Utf8.isEncodable t = true)
    (hecho : host.platform.echo.IsPlain) :
    let lines := t.unifyNewlines.splitLines
    let outcome := host.run words
    ∃ converted : Text → Text,
      (∀ u, (({} : Tables).transliterate (.str mode) u).value = .ok (converted u)) ∧
      outcome.exit = 0 ∧ outcome.escaped.isNone ∧
      outcome.session.output = (converted (Text.unlines lines)).withoutSequences ∧
      outcome.session.output.splitLines = lines.map (fun l => (converted l).withoutSequences) ∧
      (('\x1b' : CodePoint) ∉ t →
        outcome.session.output = converted (Text.unlines lines) ∧
          outcome.session.output.splitLines = lines.map converted) := by
  intro lines outcome
  obtain ⟨session, hrun, houtput⟩ := run_of_asksFor h hmode hinput ht hecho
  refine ⟨Bundled.transliterated mode, Bundled.value_transliterate mode, ?_⟩
  have hlinewise := Bundled.isLinewise_transliterated mode
  have hlines : ∀ l ∈ lines, Text.IsLine l := fun _ => Text.isLine_of_mem_splitLines
  have hstripped := Text.isLinewise_withoutSequences.comp hlinewise
  rw [List.map_map] at houtput
  change session.output = Text.unlines
    (lines.map fun l => (Bundled.transliterated mode l).withoutSequences) at houtput
  simp only [outcome, hrun, houtput, hstripped.splitLines_unlines_map hlines, true_and,
    Option.isNone_none]
  refine ⟨(hstripped.apply_unlines lines).symm, fun hescape => ?_⟩
  -- an introducer in a result would have come from the line, and so from the input
  have hkept : ∀ l ∈ lines,
      (Bundled.transliterated mode l).withoutSequences = Bundled.transliterated mode l := by
    refine fun l hl => Text.withoutSequences_eq_self fun hmem => hescape ?_
    have hline := Bundled.special_mem_of_mem_transliterated rfl hmem
    exact (Text.mem_unifyNewlines (Text.of_mem_splitLines hl hline).1).resolve_left (by decide)
  rw [List.map_congr_left hkept]
  exact ⟨(hlinewise.apply_unlines lines).symm, rfl⟩

/-- Three lines, one of them empty, in a mode spelled with a capital. -/
theorem run_convertLines_amar :
    let host : Host :=
      ⟨{}, Utf8.encode "amar\r\n\nbangla",
        { stamp := [], trace := fun _ => [], lost := fun _ => [] }⟩
    let words : List Text := ["convert", "-m", "Avro"]
    let outcome := host.run words
    Command.AsksFor host.files words "Avro" ∧ host.platform.echo.IsPlain ∧
      outcome.exit = 0 ∧ outcome.escaped.isNone ∧ outcome.session.output = "আমার\n\nবাংলা\n" ∧
      outcome.session.output.splitLines = (["আমার", [], "বাংলা"] : List Text) := by
  intro host words outcome
  have hmode : ("Avro" : Text) ≠ [] := by decide
  have hasks : Command.AsksFor host.files words "Avro" :=
    Command.asksFor_of_mem_modeOptions host.files hmode (by decide)
  obtain ⟨converted, hconverted, hexit, hescaped, -, -, hplain⟩ :=
    run_convertLines hasks hmode (t := "amar\r\n\nbangla") rfl (by decide) Echo.isPlain_standard
  obtain ⟨houtput, -⟩ := hplain (by decide)
  have hvalue := hconverted (Text.unlines ("amar\r\n\nbangla" : Text).unifyNewlines.splitLines)
  have hbengali : outcome.session.output = "আমার\n\nবাংলা\n" :=
    houtput.trans (Except.ok.inj (hvalue.symm.trans (by decide +kernel)))
  refine ⟨hasks, Echo.isPlain_standard, hexit, hescaped, hbengali, ?_⟩
  rw [hbengali]
  decide +kernel

/-- Where nothing is transliterated, terminal sequences are lost all the same. -/
theorem run_convert_banglish_red :
    let host : Host :=
      ⟨{}, Utf8.encode "\x1b[31mred", { stamp := [], trace := fun _ => [], lost := fun _ => [] }⟩
    let words : List Text := ["convert", "-m", "banglish"]
    let lines := ("\x1b[31mred" : Text).unifyNewlines.splitLines
    let converted (t : Text) := (({} : Tables).transliterate (.str "banglish") t).value
    let outcome := host.run words
    Command.AsksFor host.files words "banglish" ∧
      .ok outcome.session.output ≠ converted (Text.unlines lines) ∧
      outcome.session.output.splitLines.map .ok ≠ lines.map converted := by
  intro host words lines converted outcome
  have hmode : ("banglish" : Text) ≠ [] := by decide
  have hasks : Command.AsksFor host.files words "banglish" :=
    Command.asksFor_of_mem_modeOptions host.files hmode (by decide)
  obtain ⟨session, hrun, houtput⟩ := run_of_asksFor hasks hmode (t := "\x1b[31mred") rfl
    (by decide) Echo.isPlain_standard
  have hred : outcome.session.output = "red\n" := by
    rw [show outcome = _ from hrun, houtput]
    decide +kernel
  rw [hred]
  refine ⟨hasks, ?_, ?_⟩
  · decide +kernel
  · decide +kernel

end Host
end PhoneticBengali
