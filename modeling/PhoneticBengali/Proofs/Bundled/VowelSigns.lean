/-
# Vowel signs stand behind consonants

A vowel sign is written on a consonant.  The bundled rules put one out in two ways:

| rule | puts out a sign |
| --- | --- |
| vowel with a backtick | wherever it stands |
| vowel | by default, which its alternatives leave to what stands behind a consonant |

So in a text without backticks a rule puts out a vowel sign only where a consonant
stands before (`consonant_of_sign`).  A vowel sign that stands in the text itself is
copied like every character that no rule matches, whatever stands before it.  These are
all the ways in which a vowel sign comes out (`sign_behind_consonant`).
-/

import PhoneticBengali.Proofs.Bundled.Basic
import PhoneticBengali.Proofs.Characters

namespace PhoneticBengali
namespace Bundled

/-- The dependent vowel signs. -/
def vowelSigns : Text :=
  ['া', 'ি', 'ী', 'ু', 'ূ', 'ৃ', 'ে', 'ৈ', 'ো', 'ৌ']

/-- Whether a text begins with a vowel sign.  Characters are compared by code. -/
def beginsWithSign (t : Text) : Bool :=
  t.head?.any fun c => vowelSigns.any fun d => d.toNat == c.toNat

/-- A text begins with a sign if its first character is one. -/
theorem beginsWithSign_iff {t : Text} :
    beginsWithSign t = true ↔ ∃ c ∈ vowelSigns, c ∈ t.head? := by
  simp [beginsWithSign, Option.any_eq_true, CodePoint.toNat_inj, and_comm]

-- Both in one, since most of the work is to spell out the table.
/-- The rules between samples, where no backtick asks for anything else: none of them is
silent at the beginning of a text, and a vowel puts out its sign behind a consonant only. -/
theorem rules_between_samples : ∀ r ∈ table, ('\x60' : CodePoint) ∉ r.find →
    (r.outputs.any (·.isEmpty) = true → ∀ right ∈ samples, right ≠ (['\x60'] : Text) →
      r.output (sample []) right ≠ []) ∧
    (r.outputs.any beginsWithSign = true → ∀ left ∈ samples, ∀ right ∈ samples,
      right ≠ (['\x60'] : Text) → beginsWithSign (r.output left right) = true →
        LetterClass.ofNeighbour left = .consonant) := by
  decide +kernel

section Signs

variable {c : CodePoint}

/-- The vowel signs lie between `U+09BE` and `U+09CC`. -/
theorem toNat_of_mem_vowelSigns (hc : c ∈ vowelSigns) : 0x9BE ≤ c.toNat ∧ c.toNat ≤ 0x9CC := by
  have hcodes : (vowelSigns.all fun c => 0x9BE ≤ c.toNat && c.toNat ≤ 0x9CC) = true := by decide
  simpa using List.all_eq_true.1 hcodes c hc

/-- In the case of the rules a vowel sign is itself, and nothing else is. -/
theorem fixCaseChar_eq_sign_iff (hc : c ∈ vowelSigns) {d : CodePoint} :
    fixCaseChar d = c ↔ d = c := by
  obtain ⟨hfirst, hlast⟩ := toNat_of_mem_vowelSigns hc
  constructor
  · refine eq_of_fixCaseChar_eq (by omega) fun r hr hreaches => ?_
    have hgaps := lowerRanges_gaps r hr
    rw [CaseRange.Reaches] at hreaches
    omega
  · rintro rfl
    have hfixed : (vowelSigns.all fun c => fixCaseChar c == c) = true := by decide
    simpa using List.all_eq_true.1 hfixed d hc

/-- No rule matches a vowel sign. -/
theorem first?_sign (hc : c ∈ vowelSigns) (rest : Text) : table.first? (c :: rest) = none := by
  have hbeyond := (toNat_of_mem_vowelSigns hc).1
  refine RuleTable.first?_eq_none_iff.2 fun r hr hprefix => ?_
  rcases List.prefix_cons_iff.1 hprefix with hfind | ⟨x, hfind, -⟩
  · exact find_ne_nil r hr hfind
  · have hascii := find_ascii r hr
    rw [hfind, List.all_cons, Bool.and_eq_true, decide_eq_true_eq] at hascii
    omega

end Signs

/-- Where no backtick follows, none follows in the sample. -/
theorem sample_ne_backtick {t : Text} (ht : ('\x60' : CodePoint) ∉ t.head?) :
    sample t ≠ (['\x60'] : Text) := by
  cases t with
  | nil => decide
  | cons c t =>
    have hc : c ≠ '\x60' := by simpa using ht
    rw [sample]
    split
    · simpa using hc
    · split <;> decide

section Rules

variable {r : Rule} {left right : Text}

/-- **A vowel sign asks for a consonant before it**, unless it is asked for with a
backtick. -/
theorem consonant_of_sign (hr : r ∈ table) (hfind : ('\x60' : CodePoint) ∉ r.find)
    (hright : ('\x60' : CodePoint) ∉ right.head?)
    (hsign : beginsWithSign (r.output left right) = true) :
    ∃ d ∈ left.head?, LetterClass.of d = .consonant := by
  have hany : r.outputs.any beginsWithSign = true :=
    List.any_eq_true.2 ⟨_, r.output_mem_outputs left right, hsign⟩
  rw [output_sample hr] at hsign
  have hclass := (rules_between_samples r hr hfind).2 hany _ (sample_mem_samples left) _
    (sample_mem_samples right) (sample_ne_backtick hright) hsign
  rw [← (alike_sample left).1] at hclass
  cases left with
  | nil => exact absurd hclass (by decide)
  | cons d left => exact ⟨d, rfl, hclass⟩

/-- At the beginning of a text a rule puts out something, unless for a backtick. -/
theorem output_ne_nil (hr : r ∈ table) (hfind : ('\x60' : CodePoint) ∉ r.find)
    (hright : ('\x60' : CodePoint) ∉ right.head?) :
    r.output [] right ≠ [] := by
  intro hnil
  have hany : r.outputs.any (·.isEmpty) = true :=
    List.any_eq_true.2 ⟨_, r.output_mem_outputs [] right, by rw [hnil]; rfl⟩
  rw [output_sample hr] at hnil
  exact (rules_between_samples r hr hfind).1 hany _ (sample_mem_samples right)
    (sample_ne_backtick hright) hnil

end Rules

section Segments

variable {t : Text} {s : Segment} {c : CodePoint}

/-- The segments of a text without backticks have none in them, nor one behind them. -/
theorem backtick_not_mem (ht : ('\x60' : CodePoint) ∉ t) (hs : s ∈ table.segments (fixCase t)) :
    ('\x60' : CodePoint) ∉ s.source ∧ ('\x60' : CodePoint) ∉ s.right.head? := by
  have hfixed : ('\x60' : CodePoint) ∉ fixCase t := fun hmem => by
    obtain ⟨d, hd, hdc⟩ := List.mem_map.1 hmem
    exact ht (eq_of_fixCaseChar_lt (by decide) (by decide) hdc ▸ hd)
  have hsubset := ((RuleTable.cut_segments find_ne_nil (fixCase t)).suffix hs).subset
  exact ⟨fun h => hfixed (hsubset (List.mem_append_left _ h)),
    fun h => hfixed (hsubset (List.mem_append_right _ (List.mem_of_mem_head? h)))⟩

/-- A segment whose output begins with a vowel sign is that sign, or a consonant stands
before it. -/
theorem copied_or_consonant (ht : ('\x60' : CodePoint) ∉ t) (hs : s ∈ table.segments (fixCase t))
    (hc : c ∈ s.output.head?) (hsign : c ∈ vowelSigns) :
    s.rule = none ∧ s.source = [c] ∨ ∃ d ∈ s.left.head?, LetterClass.of d = .consonant := by
  have hcut := RuleTable.cut_segments find_ne_nil (fixCase t)
  obtain ⟨hsource, hright⟩ := backtick_not_mem ht hs
  cases hr : s.rule with
  | none =>
    obtain ⟨d, hd, -⟩ := hcut.source_eq_singleton hs hr
    rw [Segment.output, hr] at hc
    exact .inl ⟨rfl, by simpa [hd] using hc⟩
  | some r =>
    rw [hcut.source_eq hs hr] at hsource
    rw [Segment.output, hr] at hc
    exact .inr (consonant_of_sign (hcut.rule_mem hs hr) hsource hright
      (beginsWithSign_iff.2 ⟨c, hsign, hc⟩))

/-- What comes out first begins with what the first segment is rewritten to. -/
theorem exists_first_segment (ht : ('\x60' : CodePoint) ∉ t) (hne : t ≠ []) :
    ∃ s ∈ table.segments (fixCase t), s.left = [] ∧ s.source ++ s.right = fixCase t ∧
      (table.toBengali t).head? = s.output.head? := by
  have hcut := RuleTable.cut_segments find_ne_nil (fixCase t)
  obtain ⟨s, later, hsegments, hleft⟩ := hcut.exists_eq_cons (by simpa [fixCase] using hne)
  have hs : s ∈ table.segments (fixCase t) := hsegments ▸ List.mem_cons_self ..
  have htext : s.source ++ s.right = fixCase t := by
    simpa [hleft] using hcut.text_eq hs
  have houtput : s.output ≠ [] := by
    obtain ⟨hsource, hright⟩ := backtick_not_mem ht hs
    cases hr : s.rule with
    | none =>
      obtain ⟨d, hd, -⟩ := hcut.source_eq_singleton hs hr
      simp [Segment.output, hr, hd]
    | some r =>
      rw [hcut.source_eq hs hr] at hsource
      rw [Segment.output, hr, hleft]
      exact output_ne_nil (hcut.rule_mem hs hr) hsource hright
  refine ⟨s, hs, hleft, htext, ?_⟩
  obtain ⟨c, out, hout⟩ := List.exists_cons_of_ne_nil houtput
  rw [RuleTable.toBengali, hsegments, List.flatMap_cons, hout, List.cons_append, List.head?_cons,
    List.head?_cons]

/-- A vowel sign comes out first exactly if it stands first in the text. -/
theorem head?_toBengali_eq_sign_iff (ht : ('\x60' : CodePoint) ∉ t) (hsign : c ∈ vowelSigns) :
    (table.toBengali t).head? = some c ↔ t.head? = some c := by
  cases t with
  | nil => rfl
  | cons d t =>
    obtain ⟨s, hs, hleft, htext, hhead⟩ := exists_first_segment ht (List.cons_ne_nil d t)
    have hcut := RuleTable.cut_segments find_ne_nil (fixCase (d :: t))
    rw [hhead, List.head?_cons, Option.some_inj, ← fixCaseChar_eq_sign_iff hsign]
    constructor
    · intro hc
      rcases copied_or_consonant ht hs hc hsign with ⟨-, hsource⟩ | ⟨e, he, -⟩
      · rw [hsource] at htext
        exact (List.cons.inj htext).1.symm
      · rw [hleft] at he
        cases he
    · intro hd
      have hrest : fixCase (d :: t) = c :: fixCase t := congrArg (· :: fixCase t) hd
      have hr : s.rule = none := by
        rw [hcut.rule_eq hs, htext, hrest, first?_sign hsign]
      obtain ⟨e, he, -⟩ := hcut.source_eq_singleton hs hr
      rw [he, hrest] at htext
      obtain rfl : e = c := (List.cons.inj htext).1
      simp [Segment.output, hr, he]

end Segments

/-- **Vowel signs stand behind consonants.**  In a text without backticks, a segment whose
output begins with a vowel sign has a consonant before it, or it is that very sign, which
no rule matches.  So a vowel sign comes out first exactly if it stands first in the text. -/
theorem sign_behind_consonant {t : Text} (ht : ('\x60' : CodePoint) ∉ t) :
    (∀ s ∈ table.segments (fixCase t), s.text = fixCase t ∧
      ∀ c ∈ vowelSigns, s.output.head? = some c →
        s.rule = none ∧ s.source = [c] ∨ ∃ d ∈ s.left.head?, LetterClass.of d = .consonant) ∧
    ∀ c ∈ vowelSigns, (table.toBengali t).head? = some c ↔ t.head? = some c := by
  refine ⟨fun s hs => ⟨?_, fun c hsign hc => copied_or_consonant ht hs hc hsign⟩,
    fun c hsign => head?_toBengali_eq_sign_iff ht hsign⟩
  exact (RuleTable.cut_segments find_ne_nil (fixCase t)).text_eq hs

/-- The hypothesis of `sign_behind_consonant` is met by `kii`.  Its second `i`, behind a
vowel, is an independent letter. -/
theorem sign_behind_consonant_kii :
    let t : Text := "kii"
    ('\x60' : CodePoint) ∉ t ∧
      (∀ s ∈ table.segments (fixCase t), ∀ c ∈ vowelSigns, s.output.head? = some c →
        s.rule = none ∧ s.source = [c] ∨ ∃ d ∈ s.left.head?, LetterClass.of d = .consonant) ∧
      ∀ c ∈ vowelSigns, (table.toBengali t).head? ≠ some c := by
  intro t
  have ht : ('\x60' : CodePoint) ∉ t := by decide
  obtain ⟨hsegments, hfirst⟩ := sign_behind_consonant ht
  refine ⟨ht, fun s hs => (hsegments s hs).2, fun c hsign hc => ?_⟩
  obtain rfl : 'k' = c := Option.some.inj ((hfirst c hsign).1 hc)
  exact absurd hsign (by decide)

/-- A vowel sign in a text comes out wherever it stands, also where nothing is before it. -/
theorem copied_sign_alone :
    let sign : CodePoint := 'া'
    ('\x60' : CodePoint) ∉ [sign] ∧ table.toBengali [sign] = [sign] ∧
      ¬ ∀ s ∈ table.segments (fixCase [sign]), ∀ c ∈ vowelSigns, s.output.head? = some c →
        ∃ d ∈ s.left.head?, LetterClass.of d = .consonant := by
  intro sign
  have hsign : sign ∈ vowelSigns := by decide
  have hsegments : table.segments (fixCase [sign]) = [⟨[], [sign], [], none⟩] := by
    have hfixed : fixCase [sign] = [sign] := by
      rw [fixCase, List.map_singleton, (fixCaseChar_eq_sign_iff hsign).2 rfl]
    rw [hfixed, RuleTable.segments, RuleTable.segmentsFrom_copy (first?_sign hsign [])]
    rfl
  refine ⟨by decide, by rw [RuleTable.toBengali, hsegments]; rfl, fun h => ?_⟩
  rw [hsegments] at h
  obtain ⟨d, hd, -⟩ := h _ (List.mem_singleton_self _) sign hsign rfl
  cases hd

end Bundled
end PhoneticBengali
