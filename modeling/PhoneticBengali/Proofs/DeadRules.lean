/-
# Rules that never match

The check of a table's order reports the rules whose literal begins with an
earlier one, and no other rule (`RuleTable.mem_indices_iff`).  Wherever such a
rule matches, the earlier rule matches as well, so the reported rules are never
the first to match, and all of them may be left out at once
(`RuleTable.toBengali_live`).  The check reports each of them once, so its count is
that of the rules left out (`RuleTable.length_live_add_count`).

A rule that is not reported is the first to match its own literal.  A text is
brought into the case of the rules before it is looked at, so such a rule converts
its literal exactly if that is in this case (`RuleTable.converts_find_iff`).
-/

import PhoneticBengali.Proofs.LongestMatch
import PhoneticBengali.Proofs.Surroundings

namespace PhoneticBengali

/-- The positions of the rules that a check reports. -/
def OrderReport.indices (r : OrderReport) : List Nat :=
  (r.shadowed ++ r.duplicates).map (·.index)

namespace RuleTable

open Bundled (plain)

variable {table : RuleTable}

/-- The rule at position `i` has a literal that begins with a known one or with
that of an earlier rule. -/
def IsBlocked (table : RuleTable) (known : List Text) (i : Nat) : Prop :=
  ∃ r, table[i]? = some r ∧
    ∃ x, (x ∈ known ∨ x ∈ (table.take i).map (·.find)) ∧ x <+: r.find

/-- The rules at positions other than the given ones. -/
def without (table : RuleTable) (indices : List Nat) : RuleTable :=
  (table.zipIdx.filter (·.2 ∉ indices)).map (·.1)

/-- The rules that the check of the order does not report. -/
def live (table : RuleTable) : RuleTable :=
  table.without (checkOrder table).indices

/-- **What the check reports.**  It lists the rules whose literal begins with that
of an earlier rule. -/
theorem mem_indices_iff (hfinds : ∀ r ∈ table, r.find ≠ []) {i : Nat} :
    i ∈ (checkOrder table).indices ↔ table.IsBlocked [] i := by
  simp only [OrderReport.indices, List.mem_map, exists_entry_iff hfinds, IsBlocked,
    List.not_mem_nil, false_or, exists_exists_and_eq_and]

/-- No rule is reported twice. -/
theorem nodup_indices (hfinds : ∀ r ∈ table, r.find ≠ []) : (checkOrder table).indices.Nodup := by
  obtain ⟨hshadowed, hduplicates⟩ := pairwise_conflictsFrom recalls_nil hfinds
  rw [OrderReport.indices, List.map_append, List.nodup_append]
  refine ⟨List.pairwise_map.2 (hshadowed.imp Nat.ne_of_lt),
    List.pairwise_map.2 (hduplicates.imp Nat.ne_of_lt), fun i hi j hj => ?_⟩
  obtain ⟨c, hc, rfl⟩ := List.mem_map.1 hi
  obtain ⟨d, hd, rfl⟩ := List.mem_map.1 hj
  exact ((mem_shadowed_iff hfinds c).1 hc).index_ne hfinds ((mem_duplicates_iff hfinds d).1 hd)

/-! ### Tables without the rules reported -/

/-- What is left of a table was in it. -/
theorem mem_of_mem_without {indices : List Nat} {r : Rule} (h : r ∈ table.without indices) :
    r ∈ table := by
  obtain ⟨p, hp, rfl⟩ := List.mem_map.1 h
  exact List.mem_of_getElem? (List.mem_zipIdx_iff_getElem?.1 (List.mem_filter.1 hp).1)

/-- A blocked rule is never the first to match, so it can be left out. -/
theorem first?_without {indices : List Nat} (h : ∀ i ∈ indices, table.IsBlocked [] i)
    (rest : Text) : (table.without indices).first? rest = table.first? rest := by
  cases hr : table.first? rest with
  | none =>
    refine first?_eq_none_iff.2 fun r hmem => ?_
    exact first?_eq_none_iff.1 hr r (mem_of_mem_without hmem)
  | some r =>
    obtain ⟨hmatch, earlier, later, rfl, hearlier⟩ := List.find?_eq_some_iff_append.1 hr
    -- were it left out, the rule that blocks it would match and be the first
    have hkept : earlier.length ∉ indices := by
      intro hmem
      obtain ⟨s, hs, x, hx, hxs⟩ := h _ hmem
      obtain rfl : r = s := by simpa using hs
      obtain ⟨s, hs, rfl⟩ : ∃ s ∈ earlier, s.find = x := by simpa using hx
      have hsmatch := (s.matchesAt_iff rest).2 (hxs.trans ((r.matchesAt_iff rest).1 hmatch))
      simpa [hsmatch] using hearlier s hs
    have hsplit : without (earlier ++ r :: later) indices = without earlier indices ++
        r :: ((later.zipIdx (earlier.length + 1)).filter (·.2 ∉ indices)).map (·.1) := by
      simp [without, List.zipIdx_append, List.zipIdx_cons, hkept]
    refine List.find?_eq_some_iff_append.2 ⟨hmatch, _, _, hsplit, fun s hs => ?_⟩
    exact hearlier s (mem_of_mem_without hs)

/-- Without the blocked rules no rule comes after one whose literal it begins with. -/
theorem isOrdered_without {indices : List Nat} (h : ∀ i, table.IsBlocked [] i → i ∈ indices) :
    (table.without indices).IsOrdered := by
  rw [IsOrdered, without, List.pairwise_map, List.pairwise_filter, List.pairwise_iff_getElem]
  intro i j hi hj hij _ hlive hprefix
  simp only [List.getElem_zipIdx, Nat.zero_add, decide_eq_true_eq] at hlive hprefix
  rw [List.length_zipIdx] at hi hj
  refine hlive (h j ⟨table[j], List.getElem?_eq_getElem hj, table[i].find, .inr ?_, hprefix⟩)
  exact List.mem_map_of_mem (List.mem_take_iff_getElem.2 ⟨i, by omega, rfl⟩)

/-- Each position that is left out takes one rule away. -/
theorem length_without {indices : List Nat} (hnodup : indices.Nodup)
    (hlt : ∀ i ∈ indices, i < table.length) :
    (table.without indices).length + indices.length = table.length := by
  have hperm : ((List.range table.length).filter (· ∈ indices)).Perm indices := by
    refine (List.perm_ext_iff_of_nodup (List.nodup_range.filter _) hnodup).2 fun i => ?_
    simpa using hlt i
  have hkept : (table.without indices).length =
      ((List.range table.length).filter (· ∉ indices)).length := by
    rw [without, List.length_map, List.range_eq_range', ← List.zipIdx_map_snd, List.filter_map,
      List.length_map]
    rfl
  have hpartition :=
    List.length_eq_length_filter_add (l := List.range table.length) (fun i => decide (i ∈ indices))
  simp only [List.length_range, hperm.length_eq, ← decide_not] at hpartition
  omega

/-- **The rules that the check reports are dead.**  Without all of them every text is
converted as before, and the check finds nothing to report any more. -/
theorem toBengali_live (hfinds : ∀ r ∈ table, r.find ≠ []) :
    (∀ t, table.live.toBengali t = table.toBengali t) ∧
      (checkOrder table.live).shadowed = [] ∧ (checkOrder table.live).duplicates = [] := by
  have hlive : ∀ r ∈ table.live, r.find ≠ [] := fun r hr => hfinds r (mem_of_mem_without hr)
  have hfirst : ∀ rest, table.live.first? rest = table.first? rest :=
    first?_without fun i => (mem_indices_iff hfinds).1
  have hvalid : (checkOrder table.live).isValid = true :=
    (isValid_iff hlive).2 (isOrdered_without fun i => (mem_indices_iff hfinds).2)
  refine ⟨fun t => ?_, ?_⟩
  · rw [toBengali, toBengali, segments, segments, segmentsFrom_congr hfirst]
  · simpa [OrderReport.isValid] using hvalid

/-- **The check counts the dead rules**: those it reports and those that are left make up
the table. -/
theorem length_live_add_count (hfinds : ∀ r ∈ table, r.find ≠ []) :
    table.live.length + (checkOrder table).count = table.length := by
  have hlt : ∀ i ∈ (checkOrder table).indices, i < table.length := fun i hi => by
    obtain ⟨r, hr, -⟩ := (mem_indices_iff hfinds).1 hi
    exact (List.getElem?_eq_some_iff.1 hr).1
  have hcount : (checkOrder table).indices.length = (checkOrder table).count := by
    rw [OrderReport.indices, List.length_map, List.length_append, OrderReport.count]
  rw [← hcount]
  exact length_without (nodup_indices hfinds) hlt

/-- Four rules of which three are reported: `kh` and `khn` begin with `k`, and the
second `k` is a duplicate. -/
theorem toBengali_live_k_kh_khn :
    let table : RuleTable := [plain "k" "ক", plain "kh" "খ", plain "khn" "খ্ন", plain "k" "খ"]
    (∀ r ∈ table, r.find ≠ []) ∧ table.live = [plain "k" "ক"] ∧
      (∀ t, table.live.toBengali t = table.toBengali t) ∧
      (checkOrder table.live).shadowed = [] ∧ (checkOrder table.live).duplicates = [] := by
  intro table
  have hfinds : ∀ r ∈ table, r.find ≠ [] := by decide +kernel
  have hlive : table.live = [plain "k" "ক"] := by decide +kernel
  exact ⟨hfinds, hlive, toBengali_live hfinds⟩

/-! ### The rules not reported -/

/-- The rule `r` at position `i` is the first to match the text `t`, takes all of it
and so converts it. -/
structure Converts (table : RuleTable) (i : Nat) (r : Rule) (t : Text) : Prop where
  first : table.findIdx? (·.matchesAt (fixCase t)) = some i
  whole : table.segments (fixCase t) = [⟨[], r.find, [], some r⟩]
  output : table.toBengali t ∈ r.outputs

/-- A rule that is first to match its own literal, in the case of the rules, converts
it. -/
theorem converts_of_findIdx? {i : Nat} {r : Rule} (hi : table[i]? = some r) (hne : r.find ≠ [])
    (hcase : fixCase r.find = r.find)
    (hfirst : table.findIdx? (·.matchesAt r.find) = some i) : table.Converts i r r.find := by
  obtain ⟨hlt, hmatch, hearlier⟩ := List.findIdx?_eq_some_iff_getElem.1 hfirst
  obtain ⟨_, hr⟩ := List.getElem?_eq_some_iff.1 hi
  have hfirst' : table.first? (r.find ++ []) = some r := by
    rw [List.append_nil]
    refine List.find?_eq_some_iff_getElem.2 ⟨hr ▸ hmatch, i, hlt, hr, fun j hj => ?_⟩
    rw [Bool.not_eq_true', ← Bool.not_eq_true]
    exact hearlier j hj
  have hwhole : table.segments r.find = [⟨[], r.find, [], some r⟩] := by
    have hcut : table.segmentsFrom [] 0 (r.find ++ []) = _ := segmentsFrom_literal hne hfirst'
    simpa [segments, segmentsFrom] using hcut
  refine ⟨hcase.symm ▸ hfirst, hcase.symm ▸ hwhole, ?_⟩
  rw [toBengali, hcase, hwhole]
  simpa [Segment.output] using r.output_mem_outputs [] []

/-- No rule before one that is not blocked matches its literal. -/
theorem findIdx?_of_not_isBlocked {i : Nat} {r : Rule} (hi : table[i]? = some r)
    (h : ¬ table.IsBlocked [] i) : table.findIdx? (·.matchesAt r.find) = some i := by
  obtain ⟨hlt, rfl⟩ := List.getElem?_eq_some_iff.1 hi
  refine List.findIdx?_eq_some_iff_getElem.2 ⟨hlt, ?_, fun j hj hmatch => ?_⟩
  · exact (Rule.matchesAt_iff ..).2 (List.prefix_refl _)
  · refine h ⟨_, hi, _, .inr (List.mem_map_of_mem (List.mem_take_iff_getElem.2 ?_)),
      (Rule.matchesAt_iff ..).1 hmatch⟩
    exact ⟨j, by omega, rfl⟩

/-- A rule that is not reported converts its own literal, unless the case of the rules
makes another text of it. -/
theorem converts_find_iff (hfinds : ∀ r ∈ table, r.find ≠ []) {i : Nat} {r : Rule}
    (hi : table[i]? = some r) (hlive : i ∉ (checkOrder table).indices) :
    table.Converts i r r.find ↔ fixCase r.find = r.find := by
  rw [mem_indices_iff hfinds] at hlive
  constructor
  · intro h
    obtain ⟨hlt, hmatch, -⟩ := List.findIdx?_eq_some_iff_getElem.1 h.first
    obtain ⟨_, rfl⟩ := List.getElem?_eq_some_iff.1 hi
    have hlength : (fixCase table[i].find).length = table[i].find.length := List.length_map ..
    exact (((Rule.matchesAt_iff ..).1 hmatch).eq_of_length hlength.symm).symm
  · intro hcase
    have hne := hfinds r (List.mem_of_getElem? hi)
    exact converts_of_findIdx? hi hne hcase (findIdx?_of_not_isBlocked hi hlive)

end RuleTable
end PhoneticBengali
