/-
# The order of a reverse table

A reverse table is sorted by insertion, the longest literal first, and a rule is
inserted before the ones with literals of its length.  So sorting keeps the rules
(`longestFirst_perm`), and the order of those whose literals have one length
(`filter_longestFirst`).

These two facts leave no choice, as the rules of one length stand together in a
sorted table.  So a reverse table is told by them alone (`eq_reverse_iff`).

In a sorted table a text that is itself a literal is matched as a whole: what
stands before the first rule for it is longer or another text of its length.
That rule is also the first one for the text in the table as it was before
sorting, which the reverse table is made from (`first?_reverse`).
-/

import PhoneticBengali.Bundled
import PhoneticBengali.Proofs.Segmentation

namespace PhoneticBengali

/-- A rule can be turned if it has a literal and an output, and its literal is not `o`. -/
theorem Rule.isReversible_iff {r : Rule} :
    r.isReversible = true ↔ r.find ≠ [] ∧ r.replace ≠ [] ∧ r.find ≠ (['o'] : Text) := by
  simp only [isReversible, inherentVowel, Bool.and_eq_true, Bool.not_eq_true',
    List.isEmpty_eq_false_iff, bne_iff_ne, and_assoc]

namespace RuleTable

open Bundled (plain)

variable {table : RuleTable}

/-- To insert a rule by its length is to add it. -/
theorem insertByLength_perm (r : Rule) (table : RuleTable) :
    (insertByLength r table).Perm (r :: table) := by
  induction table with
  | nil => exact .refl [r]
  | cons s table ih =>
    rw [insertByLength]
    split
    · exact .refl _
    · exact (ih.cons s).trans (.swap r s table)

/-- Sorting keeps the rules of a table. -/
theorem longestFirst_perm (table : RuleTable) : table.longestFirst.Perm table := by
  induction table with
  | nil => exact .refl []
  | cons r table ih => exact (insertByLength_perm r _).trans (ih.cons r)

/-- A table in order of length stays in order when a rule is inserted. -/
theorem pairwise_insertByLength {r : Rule}
    (h : table.Pairwise fun s t => t.find.length ≤ s.find.length) :
    (insertByLength r table).Pairwise fun s t => t.find.length ≤ s.find.length := by
  induction table with
  | nil => exact List.pairwise_singleton _ r
  | cons s table ih =>
    obtain ⟨hs, htable⟩ := List.pairwise_cons.1 h
    rw [insertByLength]
    split
    · rename_i hle
      refine List.pairwise_cons.2 ⟨fun t ht => ?_, h⟩
      rcases List.mem_cons.1 ht with rfl | ht
      · exact hle
      · exact (hs t ht).trans hle
    · rename_i hlt
      refine List.pairwise_cons.2 ⟨fun t ht => ?_, ih htable⟩
      rcases List.mem_cons.1 ((insertByLength_perm r table).mem_iff.1 ht) with rfl | ht
      · omega
      · exact hs t ht

/-- The literals of a sorted table do not get longer. -/
theorem pairwise_longestFirst (table : RuleTable) :
    table.longestFirst.Pairwise fun s t => t.find.length ≤ s.find.length := by
  induction table with
  | nil => exact .nil
  | cons r table ih => exact pairwise_insertByLength ih

/-- A rule is inserted before the ones with literals of its length. -/
theorem filter_insertByLength (r : Rule) (table : RuleTable) (n : Nat) :
    (insertByLength r table).filter (·.find.length = n) =
      (r :: table).filter (·.find.length = n) := by
  induction table with
  | nil => rfl
  | cons s table ih =>
    rw [insertByLength]
    split
    · rfl
    · rename_i hlt
      rw [List.filter_cons, ih, List.filter_cons, List.filter_cons, List.filter_cons]
      -- a rule that is passed over has a longer literal, so it and `r` are not both kept
      by_cases hs : s.find.length = n
      · simp [hs, show ¬ r.find.length = n by omega]
      · simp [hs]

/-- **Sorting is stable.**  Rules whose literals have one length keep their order. -/
theorem filter_longestFirst (table : RuleTable) (n : Nat) :
    table.longestFirst.filter (·.find.length = n) = table.filter (·.find.length = n) := by
  induction table with
  | nil => rfl
  | cons r table ih =>
    have hsort : longestFirst (r :: table) = insertByLength r (longestFirst table) := rfl
    rw [hsort, filter_insertByLength, List.filter_cons, List.filter_cons, ih]

/-- Tables with the same rules of each length have the same rules. -/
theorem mem_iff_of_filter_eq {a b : RuleTable}
    (h : ∀ n, a.filter (·.find.length = n) = b.filter (·.find.length = n)) {s : Rule} :
    s ∈ a ↔ s ∈ b := by
  simpa using congrArg (s ∈ ·) (h s.find.length)

/-- No literal is longer than the first one of a sorted table. -/
theorem length_le_head (table : RuleTable) {r s : Rule}
    (h : List.Pairwise (fun s t => t.find.length ≤ s.find.length) (s :: table))
    (hr : r ∈ s :: table) : r.find.length ≤ s.find.length := by
  rcases List.mem_cons.1 hr with rfl | hr
  · exact Nat.le_refl _
  · exact List.rel_of_pairwise_cons h hr

/-- **Sorted tables are told apart by the order of the rules of one length.** -/
theorem eq_of_filter_eq {a b : RuleTable}
    (ha : a.Pairwise fun s t => t.find.length ≤ s.find.length)
    (hb : b.Pairwise fun s t => t.find.length ≤ s.find.length)
    (h : ∀ n, a.filter (·.find.length = n) = b.filter (·.find.length = n)) : a = b := by
  induction a generalizing b with
  | nil =>
    refine (List.eq_nil_iff_forall_not_mem.2 fun s hs => ?_).symm
    exact List.not_mem_nil ((mem_iff_of_filter_eq h).2 hs)
  | cons r a ih =>
    cases b with
    | nil => exact absurd ((mem_iff_of_filter_eq h).1 (List.mem_cons_self ..)) List.not_mem_nil
    | cons s b =>
      -- the first rules have literals of one length, the greatest, so they are the first of it
      have hlength : r.find.length = s.find.length :=
        Nat.le_antisymm
          (length_le_head b hb ((mem_iff_of_filter_eq h).1 (List.mem_cons_self ..)))
          (length_le_head a ha ((mem_iff_of_filter_eq h).2 (List.mem_cons_self ..)))
      obtain rfl : r = s := by
        have hfirst := h s.find.length
        rw [List.filter_cons_of_pos (by simpa using hlength),
          List.filter_cons_of_pos (by simp)] at hfirst
        exact (List.cons.inj hfirst).1
      rw [ih ha.of_cons hb.of_cons fun n => ?_]
      have hn := h n
      rw [List.filter_cons, List.filter_cons] at hn
      split at hn
      · exact (List.cons.inj hn).2
      · exact hn

/-- The first rule for a literal is the same before and after sorting. -/
theorem find?_longestFirst (table : RuleTable) (x : Text) :
    table.longestFirst.find? (·.find == x) = table.find? (·.find == x) := by
  have hlength : ∀ l : RuleTable,
      l.find? (·.find == x) = (l.filter (·.find.length = x.length)).find? (·.find == x) := by
    intro l
    rw [List.find?_filter]
    refine List.find?_congr fun r _ => ?_
    by_cases h : r.find = x <;> simp [h]
  rw [hlength, filter_longestFirst, ← hlength]

/-- **A sorted table finds the longest literal**, and of the rules for it the first
one. -/
theorem first?_eq_some_iff_of_pairwise (h : table.Pairwise fun s t => t.find.length ≤ s.find.length)
    {rest : Text} {s : Rule} :
    table.first? rest = some s ↔ table.find? (·.find == s.find) = some s ∧ s.find <+: rest ∧
      ∀ q ∈ table, q.find <+: rest → q.find.length ≤ s.find.length := by
  induction table with
  | nil => simp [first?]
  | cons q table ih =>
    obtain ⟨hq, htable⟩ := List.pairwise_cons.1 h
    rw [first?, List.find?_cons, List.find?_cons]
    by_cases hmatch : q.find <+: rest
    · rw [(q.matchesAt_iff rest).2 hmatch]
      constructor
      · rintro ⟨rfl⟩
        refine ⟨by rw [beq_self_eq_true], hmatch, fun r hr _ => ?_⟩
        rcases List.mem_cons.1 hr with rfl | hr
        · exact Nat.le_refl _
        · exact hq r hr
      · rintro ⟨hfind, hbegins, hlongest⟩
        -- the literals of `q` and `s` stand at one place and neither is longer
        have hle : s.find.length ≤ q.find.length := by
          split at hfind
          · rw [Option.some.inj hfind]
          · exact hq s (List.mem_of_find?_eq_some hfind)
        have hge := hlongest q (List.mem_cons_self ..) hmatch
        have hsame : q.find = s.find :=
          (List.prefix_of_prefix_length_le hmatch hbegins hge).eq_of_length_le hle
        rwa [hsame, beq_self_eq_true] at hfind
    · have hno : q.matchesAt rest = false := by
        rw [← Bool.not_eq_true, q.matchesAt_iff]
        exact hmatch
      rw [hno]
      have hother : s.find <+: rest → (q.find == s.find) = false := by
        intro hbegins
        rw [beq_eq_false_iff_ne]
        intro hsame
        exact hmatch (hsame ▸ hbegins)
      have hrest := ih htable
      rw [first?] at hrest
      rw [hrest]
      constructor
      · rintro ⟨hfind, hbegins, hlongest⟩
        rw [hother hbegins]
        exact ⟨hfind, hbegins, List.forall_mem_cons.2 ⟨fun hq => absurd hq hmatch, hlongest⟩⟩
      · rintro ⟨hfind, hbegins, hlongest⟩
        rw [hother hbegins] at hfind
        exact ⟨hfind, hbegins, fun r hr => hlongest r (List.mem_cons_of_mem _ hr)⟩

/-- In a sorted table a text that is a literal is matched as a whole. -/
theorem first?_of_pairwise (h : table.Pairwise fun s t => t.find.length ≤ s.find.length)
    {x : Text} {r : Rule} (hr : table.find? (·.find == x) = some r) : table.first? x = some r := by
  obtain rfl : r.find = x := eq_of_beq (List.find?_some (p := fun r : Rule => r.find == x) hr)
  exact (first?_eq_some_iff_of_pairwise h).2 ⟨hr, List.prefix_refl _, fun q _ hq => hq.length_le⟩

/-- **What a reverse table is.**  Of the rules with two sides and a `find` other than `o`
it has each, turned around, as often as it stands in the table, and no others; the
literals do not get longer, and the rules with literals of one length stand in table
order.  No other list is such. -/
theorem eq_reverse_iff (table sorted : RuleTable) :
    let turned := (table.filter fun r => r.find ≠ [] ∧ r.replace ≠ [] ∧ r.find ≠ (['o'] : Text)).map
      fun r => (⟨r.replace, r.find, r.alternatives⟩ : Rule)
    sorted = table.reverse ↔
      sorted.Perm turned ∧ (sorted.Pairwise fun s t => t.find.length ≤ s.find.length) ∧
        ∀ n, sorted.filter (·.find.length = n) = turned.filter (·.find.length = n) := by
  intro turned
  have hturned : (table.filter (·.isReversible)).map (·.turned) = turned := by
    refine congrArg (List.map _) (List.filter_congr fun r _ => ?_)
    rw [Bool.eq_iff_iff, Rule.isReversible_iff, decide_eq_true_iff]
  rw [reverse, hturned]
  constructor
  · rintro rfl
    exact ⟨longestFirst_perm turned, pairwise_longestFirst turned, filter_longestFirst turned⟩
  · rintro ⟨-, hsorted, hstable⟩
    refine eq_of_filter_eq hsorted (pairwise_longestFirst turned) fun n => ?_
    rw [hstable, filter_longestFirst]

/-- The first of two rules for `ক` stays the first, and `o` is left out. -/
example : reverse [plain "k" "ক", plain "kkh" "ক্ষ", plain "q" "ক", plain "o" "অ", plain "kh" "খ"] =
    [plain "ক্ষ" "kkh", plain "ক" "k", plain "ক" "q", plain "খ" "kh"] := by
  decide +kernel

/-- The rule that leads back from `x` as a whole, with characters compared by code. -/
def source? (table : RuleTable) (x : Text) : Option Rule :=
  table.find? fun r => (behind? r.replace x).any List.isEmpty && r.isReversible

/-- The source of an output is the first rule that can be turned and has this output. -/
theorem source?_eq (table : RuleTable) (x : Text) :
    table.source? x = table.find? fun r => r.isReversible && r.replace == x := by
  refine List.find?_congr fun r _ => ?_
  rw [Bool.eq_iff_iff]
  simp only [Bool.and_eq_true, Option.any_eq_true, behind?_eq_some_iff, List.isEmpty_iff,
    beq_iff_eq]
  rw [and_comm, eq_comm (b := x)]
  simp

/-- The source of an output has it. -/
theorem replace_of_source? {x : Text} {r : Rule} (h : table.source? x = some r) :
    r.replace = x := by
  rw [source?_eq] at h
  have hr := List.find?_some (p := fun r : Rule => r.isReversible && r.replace == x) h
  exact eq_of_beq (Bool.and_eq_true_iff.1 hr).2

/-- The reverse table consists of the rules that can be turned, turned. -/
theorem mem_reverse {s : Rule} :
    s ∈ table.reverse ↔ ∃ r ∈ table, r.isReversible = true ∧ r.turned = s := by
  simp only [reverse, (longestFirst_perm _).mem_iff, List.mem_map, List.mem_filter, and_assoc]

/-- No literal of a reverse table is empty. -/
theorem find_ne_nil_of_mem_reverse {s : Rule} (hs : s ∈ table.reverse) : s.find ≠ [] := by
  obtain ⟨r, -, hreversible, rfl⟩ := mem_reverse.1 hs
  exact (Rule.isReversible_iff.1 hreversible).2.1

/-- So every text has a cut under a reverse table, whatever table that is made of. -/
theorem cut_segments_reverse (table : RuleTable) (t : Text) :
    Cut table.reverse [] t (table.reverse.segments t) :=
  cut_segments (fun _ => find_ne_nil_of_mem_reverse) t

/-- The literals of a reverse table are the outputs that rules give by default. -/
theorem mem_continuations_of_reverse {x : Text} {c : CodePoint}
    (h : c ∈ table.reverse.continuations x) : c ∈ continuations (table.map (·.turned)) x := by
  obtain ⟨s, hs, hcontinued⟩ := mem_continuations.1 h
  obtain ⟨r, hr, -, rfl⟩ := mem_reverse.1 hs
  exact mem_continuations.2 ⟨r.turned, List.mem_map_of_mem hr, hcontinued⟩

/-- The first rule of a reverse table with the literal `x` is the first in table
order that leads back from it. -/
theorem find?_reverse (table : RuleTable) (x : Text) :
    table.reverse.find? (·.find == x) = (table.source? x).map (·.turned) := by
  rw [source?_eq, reverse, find?_longestFirst, List.find?_map, List.find?_filter]
  refine congrArg _ (List.find?_congr fun r _ => ?_)
  rw [Bool.eq_iff_iff]
  simp [Rule.turned]

/-- **A reverse table at a text of its own.**  The first rule for an output, or for
a single character, is the first in table order that leads back from it. -/
theorem first?_reverse {x : Text} (h : (table.source? x).isSome ∨ x.length = 1) :
    table.reverse.first? x = (table.source? x).map (·.turned) := by
  have hsource := table.find?_reverse x
  cases hr : table.source? x with
  | some r =>
    rw [hr] at hsource
    exact first?_of_pairwise (pairwise_longestFirst _) hsource
  | none =>
    have hlength : x.length = 1 := by simpa [hr] using h
    refine first?_eq_none_iff.2 fun s hs hbegins => ?_
    -- a literal that fits into one character is that character
    rw [hr, Option.map_none, List.find?_eq_none] at hsource
    refine hsource s hs (beq_iff_eq.2 (hbegins.eq_of_length_le ?_))
    rw [hlength]
    exact List.length_pos_iff.2 (find_ne_nil_of_mem_reverse hs)

end RuleTable
end PhoneticBengali
