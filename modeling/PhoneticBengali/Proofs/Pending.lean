/-
# The pending word in the field

The field is the host's.  The keyboard shows what is typed in it and otherwise
knows the pending word alone, so an edit is right only if that word is what stands
before the cursor.  Keystrokes come in any order, a backspace may go beyond the
pending word, and the host may write at the end of the field whenever nothing is
pending:

| step | field | pending word |
| --- | --- | --- |
| type `s` | gets `s` at its end | gets `s` at its end |
| backspace | loses its last character, if any | loses its last character, if any |
| discard | stays as it is | is dropped |
| commit | gets the edit, if there is one | is dropped |
| host writes `t` | gets `t` at its end | stays empty |

No step parts the two: in every state that can be reached the pending word ends the
field (`Typing.word_suffix_of_reachable`).  So an edit swaps exactly the pending word
for its conversion (`Typing.edit_of_reachable`).
-/

import PhoneticBengali.Proofs.Typing

namespace PhoneticBengali
namespace Typing

/-- The states that keystrokes and the host can lead to, from a field of any content
and nothing pending. -/
inductive Reachable (table : RuleTable) : Typing → Prop where
  | start (field : Text) : Reachable table ⟨field, []⟩
  | press {s : Typing} (h : Reachable table s) (k : Keystroke) : Reachable table (s.press table k)
  | write {s : Typing} (h : Reachable table s) (idle : s.word = []) (t : Text) :
      Reachable table (s.write t)

variable {table : RuleTable} {s : Typing}

/-- A keystroke keeps the pending word at the end of the field. -/
theorem word_suffix_press (h : s.word <:+ s.field) (k : Keystroke) :
    (s.press table k).word <:+ (s.press table k).field := by
  obtain ⟨before, hfield⟩ := h
  cases k with
  | type t =>
    show s.word ++ t <:+ s.field ++ t
    rw [← hfield, List.append_assoc]
    exact List.suffix_append before _
  | backspace =>
    show s.word.dropLast <:+ s.field.dropLast
    by_cases hword : s.word = []
    · rw [hword]
      exact List.nil_suffix
    · rw [← hfield, List.dropLast_append_of_ne_nil hword]
      exact List.suffix_append before _
  | discard => exact List.nil_suffix
  | commit => exact List.nil_suffix

/-- **The pending word ends the field**, whatever has been typed and written. -/
theorem word_suffix_of_reachable (h : Reachable table s) : s.word <:+ s.field := by
  induction h with
  | start field => exact List.nil_suffix
  | press _ k ih => exact word_suffix_press ih k
  | @write s _ idle t _ =>
    show s.word <:+ s.field ++ t
    rw [idle]
    exact List.nil_suffix

/-- Only a commit asks for an edit, and only if something is pending. -/
theorem edit?_eq_some_iff {word : Text} {k : Keystroke} {e : Edit} :
    k.edit? table word = some e ↔
      k = .commit ∧ word ≠ [] ∧ e = ⟨word.length, table.toBengali word⟩ := by
  cases k with
  | commit =>
    by_cases hword : word = []
    · simp [Keystroke.edit?, hword]
    · simp [Keystroke.edit?, hword, eq_comm (b := e)]
  | type t => simp [Keystroke.edit?]
  | backspace => simp [Keystroke.edit?]
  | discard => simp [Keystroke.edit?]

/-- **An edit touches the pending word and nothing else.**  In every state that can be
reached the pending word ends the field, and a commit asks for an edit exactly if it
is not empty.  The edit deletes at least one character and no more than the field
has; what it deletes is the pending word, what it inserts is its conversion, the rest
of the field stays as it is, and nothing is pending afterwards. -/
theorem edit_of_reachable (h : Reachable table s) :
    s.word <:+ s.field ∧
    (∀ k : Keystroke, (k.edit? table s.word).isSome ↔ k = .commit ∧ s.word ≠ []) ∧
    ∀ (k : Keystroke) (e : Edit), k.edit? table s.word = some e →
      1 ≤ e.delete ∧ e.delete ≤ s.field.length ∧
      s.field.drop (s.field.length - e.delete) = s.word ∧
      e.insert = table.toBengali (s.field.drop (s.field.length - e.delete)) ∧
      s.press table k = ⟨s.field.take (s.field.length - e.delete) ++ e.insert, []⟩ := by
  have hsuffix := word_suffix_of_reachable h
  refine ⟨hsuffix, fun k => ?_, fun k e hedit => ?_⟩
  · simp only [Option.isSome_iff_exists, edit?_eq_some_iff, ← and_assoc, exists_eq_right]
  · obtain ⟨rfl, hword, rfl⟩ := edit?_eq_some_iff.1 hedit
    obtain ⟨before, hfield⟩ := hsuffix
    have hlength : s.field.length - s.word.length = before.length := by
      rw [← hfield, List.length_append, Nat.add_sub_cancel]
    have hdeleted : s.field.drop before.length = s.word := by rw [← hfield, List.drop_left]
    have hkept : s.field.take before.length = before := by rw [← hfield, List.take_left]
    refine ⟨List.length_pos_iff.2 hword, ?_, ?_, ?_, ?_⟩
    · show s.word.length ≤ s.field.length
      rw [← hfield, List.length_append]
      exact Nat.le_add_left ..
    · rw [hlength, hdeleted]
    · rw [hlength, hdeleted]
    · rw [press_commit hfield.symm, hlength, hkept]

end Typing

namespace Bundled

/-- The hypothesis of `edit_of_reachable` is met by the bundled rules and a field in
which `x` was typed and discarded, a blank written by the host, and `amik` typed and
corrected to `ami`. -/
theorem edit_of_reachable_ami :
    let s : Typing := ((((Typing.press table {} (.type "x")).press table .discard).write
      " ").press table (.type "amik")).press table .backspace
    Typing.Reachable table s ∧ s.word = "ami" ∧ s.word <:+ s.field ∧
      Keystroke.commit.edit? table s.word = some ⟨3, "আমি"⟩ ∧
      s.field.drop (s.field.length - 3) = s.word ∧
      s.press table .commit = ⟨s.field.take (s.field.length - 3) ++ "আমি", []⟩ := by
  intro s
  have hs : Typing.Reachable table s :=
    .press (.press (.write (.press (.press (.start []) _) _) rfl _) _) _
  have hedit : Keystroke.commit.edit? table s.word = some ⟨3, "আমি"⟩ := by decide +kernel
  obtain ⟨hsuffix, -, h⟩ := Typing.edit_of_reachable hs
  obtain ⟨-, -, hdeleted, -, hpress⟩ := h _ _ hedit
  exact ⟨hs, rfl, hsuffix, hedit, hdeleted, hpress⟩

end Bundled
end PhoneticBengali
