/-
# The clean-up

The clean-up makes ten replacements, one after the other over the whole text:

| character | replaced by |
| --- | --- |
| backtick, hasanta, zero-width joiner, nukta | nothing |
| `আ`, `অ`, `ই`, `ঈ`, `উ`, `এ` | `a`, `o`, `i`, `e`, `u`, `e` |

Each of them goes character by character, and none puts in what another takes out, so
one pass over the characters does for all, in whatever order they are made
(`foldl_replaceAll_singleton`).  None of the ten is left, neither by the clean-up nor in
a text that is led back (`cleanup_replacements`).
-/

import PhoneticBengali.Reverse
import Mathlib.Data.List.Basic

namespace PhoneticBengali

/-! ### Replacements -/

/-- `t` with `x` in place of every `c`. -/
def replaceAll (t : Text) (c : CodePoint) (x : Text) : Text :=
  t.flatMap fun d => if d = c then x else [d]

/-- What the clean-up replaces, and by what. -/
def replacements : List (CodePoint × Text) :=
  [('\x60', []), ('\u09cd', []), ('\u200d', []), ('\u09bc', []), ('আ', ['a']), ('অ', ['o']),
    ('ই', ['i']), ('ঈ', ['e']), ('উ', ['u']), ('এ', ['e'])]

/-- Replacements go character by character, also one after the other. -/
theorem foldl_replaceAll (steps : List (CodePoint × Text)) (t : Text) :
    steps.foldl (fun t p => replaceAll t p.1 p.2) t =
      t.flatMap fun c => steps.foldl (fun t p => replaceAll t p.1 p.2) [c] := by
  induction steps generalizing t with
  | nil => exact (List.flatMap_singleton' t).symm
  | cons p steps ih =>
    have hchar : ∀ c : CodePoint, replaceAll [c] p.1 p.2 = if c = p.1 then p.2 else [c] := fun c =>
      List.flatMap_singleton ..
    rw [List.foldl_cons, ih, replaceAll, List.flatMap_assoc]
    refine List.flatMap_congr fun c _ => ?_
    rw [List.foldl_cons, ih (replaceAll ..), hchar]

/-- **Replacements that do not meet each other.**  If none puts in a character that is to be
replaced, a character becomes what its own replacement makes of it, or stays. -/
theorem foldl_replaceAll_singleton (image : CodePoint → Text) {steps : List (CodePoint × Text)}
    (himage : ∀ p ∈ steps, image p.1 = p.2)
    (hout : ∀ p ∈ steps, ∀ d ∈ p.2, d ∉ steps.map (·.1)) (c : CodePoint) :
    steps.foldl (fun t p => replaceAll t p.1 p.2) [c] =
      if c ∈ steps.map (·.1) then image c else [c] := by
  induction steps generalizing c with
  | nil => rfl
  | cons p steps ih =>
    have hlater : ∀ q ∈ steps, ∀ d ∈ q.2, d ∉ steps.map (·.1) := fun q hq d hd hmem =>
      hout q (List.mem_cons_of_mem p hq) d hd (List.mem_cons_of_mem _ hmem)
    have hrest := ih (fun q hq => himage q (List.mem_cons_of_mem p hq)) hlater
    rw [List.foldl_cons, replaceAll, List.flatMap_singleton, List.map_cons]
    by_cases hc : c = p.1
    · -- the later replacements leave what is put in
      have hkept : ∀ d ∈ p.2, steps.foldl (fun t p => replaceAll t p.1 p.2) [d] = [d] :=
        fun d hd => by
          have hd := hout p (List.mem_cons_self ..) d hd
          rw [hrest, if_neg fun hmem => hd (List.mem_cons_of_mem _ hmem)]
      rw [if_pos hc, foldl_replaceAll, List.flatMap_congr hkept, List.flatMap_singleton',
        if_pos (hc ▸ List.mem_cons_self ..), hc, himage p (List.mem_cons_self ..)]
    · rw [if_neg hc, hrest]
      simp only [List.mem_cons, hc, false_or]

/-! ### Characters -/

/-- The letters that take the place of independent vowels. -/
def vowelLetters : Text :=
  ['a', 'o', 'i', 'e', 'u']

/-- The clean-up leaves one character at most of each: the character itself, or a
letter for it. -/
theorem mem_cleanupChar {c d : CodePoint} (h : d ∈ cleanupChar c) :
    cleanupChar c = [d] ∧ (d = c ∨ d ∈ vowelLetters) := by
  unfold cleanupChar at h ⊢
  split_ifs at h ⊢ <;> simp_all [vowelLetters]

/-- Vowel letters stay as they are. -/
theorem cleanupChar_vowelLetters : ∀ d ∈ vowelLetters, cleanupChar d = [d] := by
  simp [vowelLetters, cleanupChar]

/-- What the clean-up leaves it keeps. -/
theorem cleanupChar_of_mem {c d : CodePoint} (h : d ∈ cleanupChar c) : cleanupChar d = [d] := by
  obtain ⟨hc, rfl | hd⟩ := mem_cleanupChar h
  · exact hc
  · exact cleanupChar_vowelLetters d hd

/-- The characters listed are replaced by what is listed with them. -/
theorem cleanupChar_replacements : ∀ p ∈ replacements, cleanupChar p.1 = p.2 := by
  simp [replacements, cleanupChar]

/-- All others stay as they are. -/
theorem cleanupChar_of_not_mem {c : CodePoint} (hc : c ∉ replacements.map (·.1)) :
    cleanupChar c = [c] := by
  simp only [replacements, List.map_cons, List.map_nil, List.mem_cons, not_or] at hc
  simp [cleanupChar, hc]

/-! ### Texts -/

/-- Texts are cleaned up one by one. -/
theorem cleanup_append (x y : Text) : cleanup (x ++ y) = cleanup x ++ cleanup y :=
  List.flatMap_append

/-- Nothing but vowel letters is new in a text that is cleaned up. -/
theorem mem_cleanup {t : Text} {c : CodePoint} (h : c ∈ cleanup t) : c ∈ t ∨ c ∈ vowelLetters := by
  obtain ⟨d, hd, hcd⟩ := List.mem_flatMap.1 h
  rcases (mem_cleanupChar hcd).2 with rfl | hletter
  · exact .inl hd
  · exact .inr hletter

/-- The characters of a clean text stay as they are. -/
theorem cleanupChar_of_mem_cleanup {t : Text} {c : CodePoint} (h : c ∈ cleanup t) :
    cleanupChar c = [c] := by
  obtain ⟨d, -, hd⟩ := List.mem_flatMap.1 h
  exact cleanupChar_of_mem hd

/-- A clean text stays as it is. -/
theorem cleanup_cleanup (t : Text) : cleanup (cleanup t) = cleanup t := by
  rw [cleanup, List.flatMap_congr fun c hc => cleanupChar_of_mem_cleanup hc,
    List.flatMap_singleton']

/-- **The clean-up makes its replacements one after the other**, in whatever order. -/
theorem foldl_replaceAll_eq_cleanup {steps : List (CodePoint × Text)} (h : steps.Perm replacements)
    (t : Text) : steps.foldl (fun t p => replaceAll t p.1 p.2) t = cleanup t := by
  have hkeys : ∀ c, c ∈ steps.map (·.1) ↔ c ∈ replacements.map (·.1) := fun c =>
    (h.map _).mem_iff
  have hout : ∀ p ∈ replacements, ∀ d ∈ p.2, d ∉ replacements.map (·.1) := by
    simp [replacements]
  rw [foldl_replaceAll, cleanup]
  refine List.flatMap_congr fun c _ => ?_
  rw [foldl_replaceAll_singleton cleanupChar
    (fun p hp => cleanupChar_replacements p (h.mem_iff.1 hp))
    (fun p hp d hd => (hkeys d).not.2 (hout p (h.mem_iff.1 hp) d hd)), ite_eq_left_iff, hkeys]
  exact fun hc => (cleanupChar_of_not_mem hc).symm

/-- No replacement leaves its character. -/
theorem not_mem_cleanup {p : CodePoint × Text} (hp : p ∈ replacements) (t : Text) :
    p.1 ∉ cleanup t := by
  have hchanged : ∀ p ∈ replacements, p.2 ≠ [p.1] := by simp [replacements]
  intro hmem
  have hkept := cleanupChar_of_mem_cleanup hmem
  rw [cleanupChar_replacements p hp] at hkept
  exact hchanged p hp hkept

/-- **The clean-up is one map of the characters.**  The ten replacements, made over the whole
text one after the other and in any order, come to one pass that replaces the ten
characters and leaves all others.  So parts of a text are cleaned up one by one, and the second
time nothing changes; and no text that is led back has one of the ten, whatever the table. -/
theorem cleanup_replacements (t : Text) :
    (∀ steps : List (CodePoint × Text), steps.Perm replacements →
      steps.foldl (fun t p => replaceAll t p.1 p.2) t = cleanup t) ∧
    cleanup t = t.flatMap cleanupChar ∧ (∀ p ∈ replacements, cleanupChar p.1 = p.2) ∧
    (∀ c, c ∉ replacements.map (·.1) → cleanupChar c = [c]) ∧
    (∀ u, cleanup (t ++ u) = cleanup t ++ cleanup u) ∧ cleanup (cleanup t) = cleanup t ∧
    ∀ (table : RuleTable), ∀ p ∈ replacements, p.1 ∉ table.toRoman t :=
  ⟨fun _ h => foldl_replaceAll_eq_cleanup h t, rfl, cleanupChar_replacements,
    fun _ => cleanupChar_of_not_mem, cleanup_append t, cleanup_cleanup t,
    fun table _ hp => not_mem_cleanup hp (table.course t).outputs.flatten⟩

/-- The replacements made backwards, from the vowels to the backtick. -/
theorem cleanup_replacements_reversed :
    let t : Text := "আ\x60খ\u09cd"
    let letter : CodePoint := 'খ'
    replacements.reverse.Perm replacements ∧ letter ∉ replacements.map (·.1) ∧
      replacements.reverse.foldl (fun t p => replaceAll t p.1 p.2) t = "aখ" := by
  intro t letter
  obtain ⟨hsteps, hmap, hreplaced, hkept, -⟩ := cleanup_replacements t
  have hperm : replacements.reverse.Perm replacements := List.reverse_perm _
  have hletter : letter ∉ replacements.map (·.1) := by decide
  refine ⟨hperm, hletter, ?_⟩
  have hvowel : cleanupChar 'আ' = "a" := hreplaced ('আ', ['a']) (by decide)
  have hbacktick : cleanupChar '\x60' = [] := hreplaced ('\x60', []) (by decide)
  have hhasanta : cleanupChar '\u09cd' = [] := hreplaced ('\u09cd', []) (by decide)
  have htext : t = (['আ', '\x60', letter, '\u09cd'] : Text) := by decide
  rw [hsteps _ hperm, hmap, htext]
  simp only [List.flatMap_cons, List.flatMap_nil, hvowel, hbacktick, hhasanta, hkept _ hletter]
  decide

end PhoneticBengali
