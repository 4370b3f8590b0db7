/-
# The longest literal at hand

In a table that passes the check of its order no rule comes after another one
whose literal it begins with (`RuleTable.isValid_iff`).  Of the literals that
stand at one place of a text, each is the beginning of any longer one, so the
first rule that matches has the longest literal, and every other rule that
matches a shorter one (`RuleTable.isLongest_of_first?`).  Which rule that is does
not depend on the order, so any two orders that pass the check convert every text
alike.
-/

import PhoneticBengali.Bundled
import PhoneticBengali.Proofs.Rule.Order
import PhoneticBengali.Proofs.Segmentation

namespace PhoneticBengali
namespace RuleTable

open Bundled (plain)

variable {table : RuleTable}

/-- No rule comes after one whose literal it begins with. -/
def IsOrdered (table : RuleTable) : Prop :=
  table.Pairwise fun r s => ¬ r.find <+: s.find

/-- `r` is the rule with the longest of the literals that stand at the beginning of
`rest`: any other rule of the table that matches has a shorter one. -/
def IsLongest (table : RuleTable) (r : Rule) (rest : Text) : Prop :=
  r.find <+: rest ∧ ∃ earlier later, table = earlier ++ r :: later ∧
    ∀ s ∈ earlier ++ later, s.find <+: rest → s.find.length < r.find.length

/-- **The check of the order tells ordered tables.** -/
theorem isValid_iff (hfinds : ∀ r ∈ table, r.find ≠ []) :
    (checkOrder table).isValid = true ↔ table.IsOrdered := by
  have hvalid : (checkOrder table).isValid = true ↔
      ∀ i, ¬ ∃ c ∈ (checkOrder table).shadowed ++ (checkOrder table).duplicates, c.index = i := by
    rw [OrderReport.isValid, Bool.and_eq_true, List.isEmpty_iff, List.isEmpty_iff,
      ← List.append_eq_nil_iff, List.eq_nil_iff_forall_not_mem]
    exact ⟨fun h _ ⟨c, hc, _⟩ => h c hc, fun h c hc => h c.index ⟨c, hc, rfl⟩⟩
  simp only [hvalid, exists_entry_iff hfinds, IsOrdered, List.pairwise_iff_getElem]
  constructor
  · intro h i j hi hj hij hbegins
    refine h j ⟨table[j], List.getElem?_eq_getElem hj, table[i], ?_, hbegins⟩
    exact List.mem_take_iff_getElem.2 ⟨i, by omega, rfl⟩
  · rintro h i ⟨r, hr, s, hs, hbegins⟩
    obtain ⟨hi, rfl⟩ := List.getElem?_eq_some_iff.1 hr
    obtain ⟨j, hj, rfl⟩ := List.mem_take_iff_getElem.1 hs
    exact h j i (by omega) hi (by omega) hbegins

/-! ### What the first rule is in an ordered table -/

/-- Rules with the longest literal are one, also in tables that list the same rules
in different orders. -/
theorem IsLongest.eq {table' : RuleTable} {r r' : Rule} {rest : Text} (h : table.IsLongest r rest)
    (h' : table'.IsLongest r' rest) (hperm : table.Perm table') : r = r' := by
  obtain ⟨hr, earlier, later, rfl, hlonger⟩ := h
  obtain ⟨hr', earlier', later', rfl, hlonger'⟩ := h'
  by_contra hne
  have hmem : r' ∈ earlier ++ r :: later := hperm.mem_iff.2 (by simp)
  have hmem' : r ∈ earlier' ++ r' :: later' := hperm.mem_iff.1 (by simp)
  have hlt := hlonger r' (by simpa [Ne.symm hne] using hmem) hr'
  have hlt' := hlonger' r (by simpa [hne] using hmem') hr
  omega

/-- **The first match is the longest.**  A rule that matches behind the first one
has a literal that begins the first one's, and a proper part of it, since the order
forbids the converse. -/
theorem isLongest_of_first? (hordered : table.IsOrdered) {rest : Text} {r : Rule}
    (h : table.first? rest = some r) : table.IsLongest r rest := by
  have hr := prefix_of_first? h
  obtain ⟨-, earlier, later, rfl, hearlier⟩ := List.find?_eq_some_iff_append.1 h
  refine ⟨hr, earlier, later, rfl, fun s hs hmatch => ?_⟩
  rcases List.mem_append.1 hs with hs | hs
  · have hno := hearlier s hs
    rw [Bool.not_eq_true', ← Bool.not_eq_true, s.matchesAt_iff] at hno
    exact absurd hmatch hno
  · have hnot : ¬ r.find <+: s.find :=
      (List.pairwise_cons.1 (List.pairwise_append.1 hordered).2.1).1 s hs
    have hbegins := (List.prefix_or_prefix_of_prefix hr hmatch).resolve_left hnot
    refine lt_of_le_of_ne hbegins.length_le fun hlength => ?_
    exact hnot (hbegins.eq_of_length hlength ▸ List.prefix_refl _)

/-- Ordered tables of the same rules have the same first rules. -/
theorem first?_perm {table' : RuleTable} (hperm : table.Perm table') (hordered : table.IsOrdered)
    (hordered' : table'.IsOrdered) (rest : Text) : table.first? rest = table'.first? rest := by
  cases h : table.first? rest with
  | none =>
    refine (first?_eq_none_iff.2 fun r hr => ?_).symm
    exact first?_eq_none_iff.1 h r (hperm.mem_iff.2 hr)
  | some r =>
    cases h' : table'.first? rest with
    | none =>
      have hnone := first?_eq_none_iff.1 h' r (hperm.mem_iff.1 (mem_of_first? h))
      exact absurd (prefix_of_first? h) hnone
    | some r' =>
      rw [(isLongest_of_first? hordered h).eq (isLongest_of_first? hordered' h') hperm]

/-- Tables with the same first rules cut every text alike. -/
theorem segmentsFrom_congr {table' : RuleTable} (h : ∀ rest, table.first? rest = table'.first? rest)
    (left : Text) (skip : Nat) (rest : Text) :
    segmentsFrom table left skip rest = segmentsFrom table' left skip rest := by
  induction rest generalizing left skip with
  | nil => simp [segmentsFrom]
  | cons c rest ih =>
    cases skip with
    | zero => simp only [segmentsFrom, h, ih]
    | succ skip => simp only [segmentsFrom, ih]

/-- **Maximal munch.**  In a table that passes the check of its order, each segment
of a text has the first rule that matches where it begins; that rule is the one
with the longest literal, and a segment without a rule begins where none matches.
So tables of the same rules that pass the check convert every text alike. -/
theorem segments_longest (hfinds : ∀ r ∈ table, r.find ≠ [])
    (hvalid : (checkOrder table).isValid = true) :
    (∀ t, ∀ s ∈ table.segments (fixCase t),
      s.left.reverse ++ s.source ++ s.right = fixCase t ∧
      s.rule = table.first? (s.source ++ s.right) ∧
      match s.rule with
      | some r => s.source = r.find ∧ table.IsLongest r (s.source ++ s.right)
      | none => ∀ r ∈ table, ¬ r.find <+: s.source ++ s.right) ∧
    ∀ table' : RuleTable, table'.Perm table → (checkOrder table').isValid = true →
      ∀ t, table'.toBengali t = table.toBengali t := by
  have hordered := (isValid_iff hfinds).1 hvalid
  constructor
  · intro t s hs
    have hcut := cut_segments hfinds (fixCase t)
    have hrule := hcut.rule_eq hs
    refine ⟨by simpa using hcut.text_eq hs, hrule, ?_⟩
    cases hr : s.rule with
    | some r => exact ⟨hcut.source_eq hs hr, isLongest_of_first? hordered (hrule.symm.trans hr)⟩
    | none => exact first?_eq_none_iff.1 (hrule.symm.trans hr)
  · intro table' hperm hvalid' t
    have hfinds' : ∀ r ∈ table', r.find ≠ [] := fun r hr => hfinds r (hperm.mem_iff.1 hr)
    have hordered' := (isValid_iff hfinds').1 hvalid'
    rw [toBengali, toBengali, segments, segments,
      segmentsFrom_congr (first?_perm hperm hordered' hordered)]

/-- The hypotheses of `segments_longest` are met by four of the bundled rules in two
orders: `bhl` is one match of `bhlbhk`, though `bh` and `b` stand there as well. -/
theorem segments_longest_bhl :
    let table : RuleTable := [plain "bhl" "ভ্ল", plain "bh" "ভ", plain "b" "ব", plain "k" "ক"]
    let table' : RuleTable := [plain "k" "ক", plain "bhl" "ভ্ল", plain "bh" "ভ", plain "b" "ব"]
    (∀ r ∈ table, r.find ≠ []) ∧ (checkOrder table).isValid = true ∧ table'.Perm table ∧
      (checkOrder table').isValid = true ∧
      (∀ s ∈ table.segments (fixCase ['B', 'h', 'l', 'b', 'h', 'k']), ∀ r, s.rule = some r →
        table.IsLongest r (s.source ++ s.right)) ∧
      table'.toBengali ['B', 'h', 'l', 'b', 'h', 'k'] =
        table.toBengali ['B', 'h', 'l', 'b', 'h', 'k'] := by
  intro table table'
  have hfinds : ∀ r ∈ table, r.find ≠ [] := by decide +kernel
  have hvalid : (checkOrder table).isValid = true := by decide +kernel
  have hperm : table'.Perm table := by decide +kernel
  have hvalid' : (checkOrder table').isValid = true := by decide +kernel
  have h := segments_longest hfinds hvalid
  refine ⟨hfinds, hvalid, hperm, hvalid', fun s hs r hr => ?_, h.2 table' hperm hvalid' _⟩
  have hs' := (h.1 _ s hs).2.2
  rw [hr] at hs'
  exact hs'.2

end RuleTable
end PhoneticBengali
