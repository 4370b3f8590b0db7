/-
# Open syllables lead to Bengali and back

A text of open syllables is made of four kinds of pieces:

| piece | may stand behind |
| --- | --- |
| onset, a consonant | rhyme, mark, vowel, the beginning |
| rhyme, a vowel sign | onset |
| mark, a digit or a blank | rhyme, mark, vowel, the beginning |
| vowel, an independent letter | mark, the beginning |

Each piece has a spelling in either script, and both tables cut a text at the
pieces: no literal goes on from one piece into a piece that may stand behind it.
Between such pieces the rule of a spelling puts out the letters of the piece, and
the first rule back from these letters puts out the spelling.  So a text is led
back to itself piece by piece (`toRoman_toBengali`).

The checks on the rules run over the pieces once.  What stands next to a piece is
looked at by its sample only.
-/

import PhoneticBengali.Proofs.Bundled.Basic
import PhoneticBengali.Proofs.LongestFirst
import PhoneticBengali.Proofs.ReverseScan

namespace PhoneticBengali
namespace Bundled

/-- How a piece of a text is written in the romanization and in Bengali. -/
structure Spelling where
  roman : Text
  bengali : Text
deriving DecidableEq, Repr

/-- The spelling of a piece. -/
def spell (roman bengali : Text) : Spelling where
  roman := roman
  bengali := bengali

/-- The consonants that begin a syllable. -/
def onsets : List Spelling :=
  [spell "k" "ক", spell "kh" "খ", spell "g" "গ", spell "gh" "ঘ", spell "Ng" "ঙ", spell "c" "চ",
   spell "ch" "ছ", spell "j" "জ", spell "jh" "ঝ", spell "NG" "ঞ", spell "T" "ট", spell "Th" "ঠ",
   spell "D" "ড", spell "Dh" "ঢ", spell "N" "ণ", spell "t" "ত", spell "th" "থ", spell "d" "দ",
   spell "dh" "ধ", spell "n" "ন", spell "p" "প", spell "ph" "ফ", spell "b" "ব", spell "bh" "ভ",
   spell "m" "ম", spell "z" "য", spell "r" "র", spell "l" "ল", spell "sh" "শ", spell "Sh" "ষ",
   spell "s" "স", spell "h" "হ", spell "R" "ড়", spell "Rh" "ঢ়", spell "Y" "য়"]

/-- The vowels that end a syllable. -/
def rhymes : List Spelling :=
  [spell "a" "া", spell "i" "ি", spell "I" "ী", spell "U" "ূ", spell "e" "ে", spell "O" "ো",
   spell "OI" "ৈ", spell "OU" "ৌ", spell "oo" "ু"]

/-- Digits and blanks. -/
def marks : List Spelling :=
  [spell "0" "০", spell "1" "১", spell "2" "২", spell "3" "৩", spell "4" "৪", spell "5" "৫",
   spell "6" "৬", spell "7" "৭", spell "8" "৮", spell "9" "৯", spell " " " ", spell "\t" "\t",
   spell "\n" "\n"]

/-- The vowels that stand by themselves. -/
def vowels : List Spelling :=
  [spell "a" "আ", spell "i" "ই", spell "e" "এ", spell "o" "অ"]

/-- Texts of open syllables, marks and single vowels.  A vowel stands where
`vowelAllowed`, at the beginning of a text or behind a mark. -/
inductive OpenText : (vowelAllowed : Bool) → Text → Prop where
  | done (vowelAllowed : Bool) : OpenText vowelAllowed []
  | syllable {vowelAllowed : Bool} {onset rhyme : Spelling} {t : Text} (honset : onset ∈ onsets)
      (hrhyme : rhyme ∈ rhymes) (later : OpenText false t) :
      OpenText vowelAllowed (onset.roman ++ rhyme.roman ++ t)
  | mark {vowelAllowed : Bool} {mark : Spelling} {t : Text} (hmark : mark ∈ marks)
      (later : OpenText true t) : OpenText vowelAllowed (mark.roman ++ t)
  | vowel {vowel : Spelling} {t : Text} (hvowel : vowel ∈ vowels) (later : OpenText false t) :
      OpenText true (vowel.roman ++ t)

/-- The kinds of pieces of a text of open syllables. -/
inductive Piece where
  | onset
  | rhyme
  | mark
  | vowel
deriving DecidableEq, Repr

namespace Piece

/-- All kinds of pieces. -/
def all : List Piece :=
  [onset, rhyme, mark, vowel]

/-- All pieces are listed. -/
theorem mem_all (p : Piece) : p ∈ all := by
  cases p <;> decide

/-- The pieces of a kind. -/
def spellings : Piece → List Spelling
  | onset => onsets
  | rhyme => rhymes
  | mark => marks
  | vowel => vowels

/-- The kinds of pieces that may stand behind one. -/
def next : Piece → List Piece
  | onset => [rhyme]
  | rhyme => [onset, mark]
  | mark => [onset, mark, vowel]
  | vowel => [onset, mark]

/-- The pieces that may stand behind one. -/
def following (p : Piece) : List Spelling :=
  p.next.flatMap spellings

/-- The characters that pieces behind one begin with. -/
def initials (script : Spelling → Text) (p : Piece) : Text :=
  p.following.filterMap fun s => (script s).head?

/-- The samples of what stands before a cut behind a piece. -/
def lefts : Piece → List Text
  | onset => [['k'], ['r']]
  | rhyme => [['a'], ['e'], ['o']]
  | mark => [[' ']]
  | vowel => [['a'], ['e'], ['o']]

/-- The samples of what stands after a cut behind a piece. -/
def rights : Piece → List Text
  | onset => [[' '], ['a'], ['e'], ['o']]
  | rhyme => [[' '], ['k'], ['r']]
  | mark => [[' '], ['a'], ['e'], ['o'], ['k'], ['r']]
  | vowel => [[' '], ['k'], ['r']]

/-- A piece has letters in both scripts, in the case of the rules. -/
theorem filled : ∀ p ∈ all, ∀ s ∈ p.spellings,
    s.roman ≠ [] ∧ s.bengali ≠ [] ∧ fixCase s.roman = s.roman := by
  decide +kernel

/-- What a spelling looks like from behind is listed. -/
theorem sample_mem_lefts : ∀ p ∈ all, ∀ s ∈ p.spellings, sample s.roman.reverse ∈ p.lefts := by
  decide +kernel

/-- What can follow a piece looks like what is listed, and so does the end. -/
theorem sample_mem_rights : ∀ p ∈ all, ([' '] : Text) ∈ p.rights ∧
    ∀ s ∈ p.following, sample s.roman ∈ p.rights := by
  decide +kernel

/-- The rules at a piece: the first one takes the spelling as a whole, no literal
goes on into the next piece, and the output between any two pieces is the Bengali
spelling. -/
theorem rules_at : ∀ p ∈ all, ∀ q ∈ p.next, ∀ s ∈ q.spellings,
    (∀ r ∈ table.firstByCode? s.roman, r.find = s.roman) ∧
    (table.firstByCode? s.roman = none → s.roman.length = 1) ∧
    (table.continuations s.roman).all (· ∉ q.initials Spelling.roman) = true ∧
    ∀ left ∈ p.lefts, ∀ right ∈ q.rights,
      ((table.firstByCode? s.roman).elim s.roman fun r => r.output left right) = s.bengali := by
  decide +kernel

/-- The rules back at a piece: the first one leads back to its spelling, and no
literal goes on into the next piece. -/
theorem rules_back_at : ∀ p ∈ all, ∀ s ∈ p.spellings,
    ((table.source? s.bengali).isSome ∨ s.bengali.length = 1) ∧
    cleanup (((table.source? s.bengali).map (·.find)).getD s.bengali) = s.roman ∧
    (RuleTable.continuations (table.map (·.turned)) s.bengali).all
      (· ∉ p.initials Spelling.bengali) = true := by
  decide +kernel

variable {p q : Piece} {s : Spelling}

/-- A spelling is matched as a whole in front of what may follow it. -/
theorem isUnit_roman (hnext : q ∈ p.next) (hs : s ∈ q.spellings) :
    table.IsUnit s.roman (q.initials Spelling.roman) := by
  obtain ⟨hwhole, hsingle, hclosed, -⟩ := rules_at p p.mem_all q hnext s hs
  rw [RuleTable.firstByCode?_eq] at hwhole hsingle
  rw [List.all_eq_true] at hclosed
  exact ⟨(filled q q.mem_all s hs).1, hwhole, hsingle, fun c hc => of_decide_eq_true (hclosed c hc)⟩

/-- The reverse rule for the Bengali of a spelling is its source, turned. -/
theorem first?_bengali (hs : s ∈ p.spellings) :
    reverseTable.first? s.bengali = (table.source? s.bengali).map (·.turned) :=
  RuleTable.first?_reverse (rules_back_at p p.mem_all s hs).1

/-- The Bengali of a spelling is matched as a whole in front of what may follow it. -/
theorem isUnit_bengali (hs : s ∈ p.spellings) :
    reverseTable.IsUnit s.bengali (p.initials Spelling.bengali) := by
  obtain ⟨hsource, -, hclosed⟩ := rules_back_at p p.mem_all s hs
  refine ⟨(filled p p.mem_all s hs).2.1, fun r hr => ?_, fun hnone => ?_, fun c hc => ?_⟩
  · rw [Option.mem_def, first?_bengali hs, Option.map_eq_some_iff] at hr
    obtain ⟨r, hr, rfl⟩ := hr
    exact RuleTable.replace_of_source? hr
  · rw [first?_bengali hs, Option.map_eq_none_iff] at hnone
    simpa [hnone] using hsource
  · have hnot := List.all_eq_true.1 hclosed c (RuleTable.mem_continuations_of_reverse hc)
    exact of_decide_eq_true hnot

/-- Between two pieces a piece is put out in Bengali. -/
theorem output_roman (hnext : q ∈ p.next) (hs : s ∈ q.spellings) {left right : Text}
    (hleft : sample left ∈ p.lefts) (hright : sample right ∈ q.rights) :
    Segment.output ⟨left, s.roman, right, table.first? s.roman⟩ = s.bengali := by
  have houtput := (rules_at p p.mem_all q hnext s hs).2.2.2 _ hleft _ hright
  rw [RuleTable.firstByCode?_eq] at houtput
  cases hr : table.first? s.roman with
  | none => simpa only [hr, Segment.output, Option.elim_none] using houtput
  | some r =>
    rw [hr, Option.elim_some, ← output_sample (RuleTable.mem_of_first? hr)] at houtput
    exact houtput

/-- A piece is led back to its spelling. -/
theorem cleanup_plainOutput (hs : s ∈ p.spellings) (left right : Text) :
    cleanup (Segment.plainOutput ⟨left, s.bengali, right, reverseTable.first? s.bengali⟩) =
      s.roman := by
  have hback := (rules_back_at p p.mem_all s hs).2.1
  rw [first?_bengali hs]
  cases hr : table.source? s.bengali <;> simpa [hr, Segment.plainOutput, Rule.turned] using hback

end Piece

/-- A row of pieces behind one of kind `p`, in which every piece may stand behind
the one before it. -/
inductive Row : (p : Piece) → List Spelling → Prop where
  | done (p : Piece) : Row p []
  | piece {p q : Piece} {s : Spelling} {row : List Spelling} (hnext : q ∈ p.next)
      (hs : s ∈ q.spellings) (later : Row q row) : Row p (s :: row)

/-- A text of open syllables is written by a row of pieces. -/
theorem OpenText.exists_row {vowelAllowed : Bool} {t : Text} (h : OpenText vowelAllowed t)
    {p : Piece} (honset : .onset ∈ p.next) (hmark : .mark ∈ p.next)
    (hvowel : vowelAllowed = true → .vowel ∈ p.next) :
    ∃ row, Row p row ∧ row.flatMap Spelling.roman = t := by
  induction h generalizing p with
  | done => exact ⟨[], .done p, rfl⟩
  | syllable hk hw _ ih =>
    obtain ⟨row, hrow, rfl⟩ := ih (p := .rhyme) (by decide) (by decide) nofun
    refine ⟨_ :: _ :: row, .piece honset hk (.piece (q := .rhyme) (by decide) hw hrow), ?_⟩
    simp
  | mark hm _ ih =>
    obtain ⟨row, hrow, rfl⟩ := ih (p := .mark) (by decide) (by decide) fun _ => by decide
    exact ⟨_ :: row, .piece hmark hm hrow, rfl⟩
  | vowel hv _ ih =>
    obtain ⟨row, hrow, rfl⟩ := ih (p := .vowel) (by decide) (by decide) nofun
    exact ⟨_ :: row, .piece (hvowel rfl) hv hrow, rfl⟩

namespace Row

variable {p q : Piece} {s : Spelling} {row : List Spelling} {left : Text}

/-- A row goes on with the initial of a piece that may stand there. -/
theorem head_mem_initials {script : Spelling → Text}
    (hfilled : ∀ q : Piece, ∀ s ∈ q.spellings, script s ≠ []) (h : Row p row) :
    ∀ c ∈ (row.flatMap script).head?, c ∈ p.initials script := by
  cases h with
  | done => simp
  | @piece _ q s row hnext hs later =>
    intro c hc
    have hhead : ((s :: row).flatMap script).head? = (script s).head? := by
      obtain ⟨d, x, hx⟩ := List.exists_cons_of_ne_nil (hfilled q s hs)
      simp [hx]
    exact List.mem_filterMap.2 ⟨s, List.mem_flatMap.2 ⟨q, hnext, hs⟩, hhead ▸ hc⟩

/-- A row looks from in front like what its first piece lists. -/
theorem sample_mem_rights (h : Row p row) : sample (row.flatMap Spelling.roman) ∈ p.rights := by
  obtain ⟨hnone, hfollowing⟩ := Piece.sample_mem_rights p p.mem_all
  cases h with
  | done => exact hnone
  | @piece _ q s row hnext hs later =>
    rw [List.flatMap_cons, sample_append (Piece.filled q q.mem_all s hs).1]
    exact hfollowing s (List.mem_flatMap.2 ⟨q, hnext, hs⟩)

/-- **A row is converted piece by piece.** -/
theorem exists_cut (h : Row p row) (hleft : sample left ∈ p.lefts) :
    ∃ segments, Cut table left (row.flatMap Spelling.roman) segments ∧
      segments.flatMap Segment.output = row.flatMap Spelling.bengali := by
  induction h generalizing left with
  | done p => exact ⟨[], .done left, rfl⟩
  | @piece p q s row hnext hs later ih =>
    have hfilled := (Piece.filled q q.mem_all s hs).1
    have hbehind : sample (s.roman.reverse ++ left) ∈ q.lefts := by
      rw [sample_append (by simpa using hfilled)]
      exact Piece.sample_mem_lefts q q.mem_all s hs
    obtain ⟨segments, hcut, hbengali⟩ := ih hbehind
    have hinitial := later.head_mem_initials fun q s hs => (Piece.filled q q.mem_all s hs).1
    have hpiece := Cut.unit (Piece.isUnit_roman hnext hs) hinitial hcut
    refine ⟨_, hpiece, ?_⟩
    rw [List.flatMap_cons, Piece.output_roman hnext hs hleft later.sample_mem_rights, hbengali,
      List.flatMap_cons]

/-- **A row is led back piece by piece.** -/
theorem exists_cut_back (h : Row p row) (left : Text) :
    ∃ segments, Cut reverseTable left (row.flatMap Spelling.bengali) segments ∧
      cleanup (segments.flatMap Segment.plainOutput) = row.flatMap Spelling.roman := by
  induction h generalizing left with
  | done p => exact ⟨[], .done left, rfl⟩
  | @piece p q s row hnext hs later ih =>
    obtain ⟨segments, hcut, hroman⟩ := ih (s.bengali.reverse ++ left)
    have hinitial := later.head_mem_initials fun q s hs => (Piece.filled q q.mem_all s hs).2.1
    have hpiece := Cut.unit (Piece.isUnit_bengali hs) hinitial hcut
    refine ⟨_, hpiece, ?_⟩
    rw [List.flatMap_cons, cleanup_append, Piece.cleanup_plainOutput hs, hroman,
      List.flatMap_cons]

/-- A row is written in the case of the rules. -/
theorem fixCase_roman (h : Row p row) :
    fixCase (row.flatMap Spelling.roman) = row.flatMap Spelling.roman := by
  induction h with
  | done => rfl
  | @piece p q s row hnext hs later ih =>
    have hs := (Piece.filled q q.mem_all s hs).2.2
    rw [fixCase] at hs ih ⊢
    rw [List.flatMap_cons, List.map_append, hs, ih]

end Row

/-- **Open syllables lead back to themselves.**  A text of open syllables, digits,
blanks and single vowels at the beginning or behind a digit or blank is the
romanized text of its Bengali one. -/
theorem toRoman_toBengali {t : Text} (h : OpenText true t) :
    reverseTable.toRoman (table.toBengali t) = t := by
  obtain ⟨row, hrow, rfl⟩ := h.exists_row (p := .mark) (by decide) (by decide) fun _ => by decide
  have hstart : sample [] ∈ Piece.mark.lefts := by decide
  obtain ⟨segments, hcut, hbengali⟩ := hrow.exists_cut hstart
  obtain ⟨back, hback, hroman⟩ := hrow.exists_cut_back []
  have hforward : table.toBengali (row.flatMap Spelling.roman) = row.flatMap Spelling.bengali := by
    rw [RuleTable.toBengali, hrow.fixCase_roman, RuleTable.segments, RuleTable.segmentsFrom_eq hcut,
      hbengali]
  rw [hforward, hback.toRoman_eq, hroman]

/-- A text with a piece of each kind, in which `o` is a vowel and `oo` a rhyme. -/
theorem toRoman_toBengali_o_khooRi :
    let t : Text := "o khooRi7"
    OpenText true t ∧ reverseTable.toRoman (table.toBengali t) = t := by
  intro t
  have htext : (spell "o" "অ").roman ++ ((spell " " " ").roman ++ ((spell "kh" "খ").roman ++
      (spell "oo" "ু").roman ++ ((spell "R" "ড়").roman ++ (spell "i" "ি").roman ++
        ((spell "7" "৭").roman ++ [])))) = t := by
    decide +kernel
  have hopen : OpenText true t := by
    rw [← htext]
    refine .vowel (by simp [vowels]) (.mark (by simp [marks]) ?_)
    refine .syllable (by simp [onsets]) (by simp [rhymes]) ?_
    refine .syllable (by simp [onsets]) (by simp [rhymes]) ?_
    exact .mark (by simp [marks]) (.done true)
  exact ⟨hopen, toRoman_toBengali hopen⟩

end Bundled
end PhoneticBengali
