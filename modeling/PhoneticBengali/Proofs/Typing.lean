/-
# Typing into a text field

A keyboard and the text field it writes into are two states that change together:

| keystroke | field |
| --- | --- |
| type `s` | gets `s` at its end |
| backspace | loses its last character, if any |
| discard | stays as it is |
| commit | gets the edit, if there is one, at its end |

In a session words are typed and corrected, and a separator ends each of them: the
pending word is committed and the separator written behind it.  A separator is a
character no rule mentions, so rules see it as they see a text edge, and the words
of a session are converted as they would be in the whole text
(`Typing.session_field`).  The proof keeps, from event to event, the part of the
net text whose words are committed: the field is its conversion, then the pending
word (`Typing.InStep`).
-/

import PhoneticBengali.Keystroke
import PhoneticBengali.Proofs.Boundary

namespace PhoneticBengali

/-- A punctuation character that the case of the rules leaves alone and that no
literal of a rule or of an exact condition holds. -/
structure RuleTable.IsSeparator (table : RuleTable) (c : CodePoint) : Prop where
  fixed : fixCaseChar c = c
  punctuation : LetterClass.of c = .punctuation
  unmatched : ∀ r ∈ table, c ∉ r.find
  unread : ∀ l ∈ table.exactLiterals, c ∉ l

namespace RuleTable.IsSeparator

variable {table : RuleTable} {c : CodePoint}

/-- A separator is a boundary. -/
theorem isBoundary (hc : table.IsSeparator c) : table.IsBoundary c :=
  isBoundary_of_not_mem hc.punctuation hc.unmatched hc.unread

/-- **A separator keeps its place.**  The texts on its two sides are converted one
by one. -/
theorem toBengali_append (hc : table.IsSeparator c) (hfinds : ∀ r ∈ table, r.find ≠ [])
    (u v : Text) :
    table.toBengali (u ++ c :: v) = table.toBengali u ++ c :: table.toBengali v := by
  have h := hc.isBoundary.output_segments_append hfinds (fixCase u) (fixCase v)
  rw [segments_singleton hfinds hc.unmatched] at h
  simpa [toBengali, fixCase, hc.fixed, Segment.output] using h

end RuleTable.IsSeparator

/-- A text field and the pending word of the keyboard that writes into it. -/
structure Typing where
  field : Text := []
  word : Text := []
deriving DecidableEq, Repr

namespace Typing

/-- The field after a keystroke. -/
def fieldAfter (table : RuleTable) (s : Typing) (k : Keystroke) : Text :=
  match k with
  | .type t => s.field ++ t
  | .backspace => s.field.dropLast
  | .discard => s.field
  | .commit =>
    match Keystroke.commit.edit? table s.word with
    | some e => e.apply s.field
    | none => s.field

/-- Field and pending word after a keystroke. -/
def press (table : RuleTable) (s : Typing) (k : Keystroke) : Typing where
  field := s.fieldAfter table k
  word := k.pending s.word

/-- Text written at the end of the field past the keyboard. -/
def write (s : Typing) (t : Text) : Typing :=
  { s with field := s.field ++ t }

/-- What happens in a session. -/
inductive Event where
  | character (c : CodePoint)
  | backspace
  | separator (c : CodePoint)
deriving DecidableEq, Repr

namespace Event

/-- Field and pending word after an event. -/
def after (table : RuleTable) (s : Typing) : Event → Typing
  | character c => s.press table (.type [c])
  | backspace => s.press table .backspace
  | separator c => (s.press table .commit).write [c]

/-- Whether an event belongs into a session: separators are told from other
characters, and backspace is pressed while something is pending. -/
def Allowed (table : RuleTable) (s : Typing) : Event → Prop
  | character c => ¬ table.IsSeparator c
  | backspace => s.word ≠ []
  | separator c => table.IsSeparator c

/-- A plain text after an event. -/
def replay (t : Text) : Event → Text
  | character c => t ++ [c]
  | backspace => t.dropLast
  | separator c => t ++ [c]

end Event

/-- Whether each of the events belongs into a session that has come to `s`. -/
def AllAllowed (table : RuleTable) (s : Typing) : List Event → Prop
  | [] => True
  | e :: events => e.Allowed table s ∧ AllAllowed table (e.after table s) events

/-- Field and pending word after a session: its events and a last commit. -/
def session (table : RuleTable) (events : List Event) : Typing :=
  (events.foldl (Event.after table) {}).press table .commit

/-- The text that is left when the events happen to a plain text. -/
def netText (events : List Event) : Text :=
  events.foldl Event.replay []

/-- The field shows the net text with its committed part converted.  That part,
`done`, is converted apart from whatever follows it. -/
def InStep (table : RuleTable) (s : Typing) (net : Text) : Prop :=
  ∃ done, net = done ++ s.word ∧ s.field = table.toBengali done ++ s.word ∧
    ∀ t, table.toBengali (done ++ t) = table.toBengali done ++ table.toBengali t

variable {table : RuleTable} {s : Typing} {net : Text}

/-- A commit swaps the pending word at the end of the field for its conversion. -/
theorem press_commit {before : Text} (h : s.field = before ++ s.word) :
    s.press table .commit = ⟨before ++ table.toBengali s.word, []⟩ := by
  by_cases hword : s.word = []
  · simp [press, fieldAfter, Keystroke.edit?, Keystroke.pending, h, hword, RuleTable.toBengali,
      RuleTable.segments, RuleTable.segmentsFrom, fixCase]
  · simp [press, fieldAfter, Keystroke.edit?, Keystroke.pending, h, hword, Edit.apply]

/-- At the start nothing is typed. -/
theorem inStep_start (table : RuleTable) : InStep table {} [] :=
  ⟨[], rfl, rfl, fun _ => rfl⟩

/-- A character that is typed keeps field and keyboard in step. -/
theorem InStep.character (h : InStep table s net) (c : CodePoint) :
    InStep table (s.press table (.type [c])) (net ++ [c]) := by
  obtain ⟨done, rfl, hfield, hdone⟩ := h
  exact ⟨done, by simp [press, Keystroke.pending],
    by simp [press, fieldAfter, Keystroke.pending, hfield], hdone⟩

/-- So does a backspace in the pending word. -/
theorem InStep.backspace (h : InStep table s net) (hword : s.word ≠ []) :
    InStep table (s.press table .backspace) net.dropLast := by
  obtain ⟨done, rfl, hfield, hdone⟩ := h
  exact ⟨done, by simp [press, Keystroke.pending, List.dropLast_append_of_ne_nil hword],
    by simp [press, fieldAfter, Keystroke.pending, hfield, List.dropLast_append_of_ne_nil hword],
    hdone⟩

/-- Behind a separator all of the net text is committed. -/
theorem InStep.separator (hfinds : ∀ r ∈ table, r.find ≠ []) (h : InStep table s net)
    {c : CodePoint} (hc : table.IsSeparator c) :
    InStep table ((s.press table .commit).write [c]) (net ++ [c]) := by
  obtain ⟨done, rfl, hfield, hdone⟩ := h
  have hsplit : ∀ t, table.toBengali (done ++ s.word ++ [c] ++ t) =
      table.toBengali done ++ table.toBengali s.word ++ c :: table.toBengali t := by
    intro t
    rw [List.append_assoc, List.append_assoc, hdone, List.singleton_append,
      hc.toBengali_append hfinds, List.append_assoc]
  have hnil : table.toBengali [] = [] := rfl
  have hcommitted := hsplit []
  rw [List.append_nil, hnil] at hcommitted
  rw [press_commit hfield]
  refine ⟨done ++ s.word ++ [c], by simp [write], ?_, fun t => ?_⟩
  · simp only [write, hcommitted, List.append_nil]
  · rw [hsplit, hcommitted]
    simp

/-- An event of a session keeps field and net text in step. -/
theorem InStep.after (hfinds : ∀ r ∈ table, r.find ≠ []) (h : InStep table s net) {e : Event}
    (he : e.Allowed table s) : InStep table (e.after table s) (e.replay net) := by
  cases e with
  | character c => exact h.character c
  | backspace => exact h.backspace he
  | separator c => exact h.separator hfinds he

/-- And so do all events of a session. -/
theorem InStep.foldl (hfinds : ∀ r ∈ table, r.find ≠ []) (h : InStep table s net)
    {events : List Event} (hevents : AllAllowed table s events) :
    InStep table (events.foldl (Event.after table) s) (events.foldl Event.replay net) := by
  induction events generalizing s net with
  | nil => exact h
  | cons e events ih => exact ih (h.after hfinds hevents.1) hevents.2

/-- **A session converts its net text.**  However words are typed, corrected and
ended, the field at the end is what converting the net text at once gives. -/
theorem session_field (hfinds : ∀ r ∈ table, r.find ≠ []) {events : List Event}
    (hevents : AllAllowed table {} events) :
    (session table events).field = table.toBengali (netText events) := by
  obtain ⟨done, hnet, hfield, hdone⟩ := (inStep_start table).foldl hfinds hevents
  rw [session, press_commit hfield, netText, hnet, hdone]

end Typing

namespace Bundled

/-- A blank is a separator of the bundled rules. -/
theorem isSeparator_space : table.IsSeparator ' ' where
  fixed := by decide
  punctuation := by decide
  unmatched := by decide +kernel
  unread := by decide +kernel

/-- A letter is no separator. -/
theorem not_isSeparator {c : CodePoint} (hc : LetterClass.of c ≠ .punctuation) :
    ¬ table.IsSeparator c :=
  fun h => hc h.punctuation

/-- The hypotheses of `session_field` are met by the bundled rules and a session in
which `gk` is corrected to `go` and ended by a blank, before `oi` is typed. -/
theorem session_field_go_oi :
    (∀ r ∈ table, r.find ≠ []) ∧
      Typing.AllAllowed table {} [.character 'g', .character 'k', .backspace, .character 'o',
        .separator ' ', .character 'o', .character 'i'] ∧
      (Typing.session table [.character 'g', .character 'k', .backspace, .character 'o',
        .separator ' ', .character 'o', .character 'i']).field =
        table.toBengali ['g', 'o', ' ', 'o', 'i'] := by
  have hallowed : Typing.AllAllowed table {} [.character 'g', .character 'k', .backspace,
      .character 'o', .separator ' ', .character 'o', .character 'i'] :=
    ⟨not_isSeparator (by decide), not_isSeparator (by decide), List.cons_ne_nil _ _,
      not_isSeparator (by decide), isSeparator_space, not_isSeparator (by decide),
      not_isSeparator (by decide), trivial⟩
  exact ⟨find_ne_nil, hallowed, Typing.session_field find_ne_nil hallowed⟩

end Bundled
end PhoneticBengali
