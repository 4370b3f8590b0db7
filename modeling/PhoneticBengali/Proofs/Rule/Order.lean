/-
# What the check of the order lists

The check goes through a table once.  To the rule at hand it compares where each
literal first stood before it (`RuleTable.Recalls`), and it enters the rule once at
most:

| entered as | if the literal of the rule | with |
| --- | --- | --- |
| duplicate | is that of an earlier rule | the first rule with this literal |
| shadowed | is new, and that of an earlier rule is a proper beginning of it | the first rule with the shortest such literal |

What one step enters (`RuleTable.isRepeated_append_iff`, `RuleTable.isShadowed_append_iff`)
gives what a run does (`RuleTable.mem_conflictsFrom_iff`).  The entries come in the order
of the table.  So a rule that stands behind several beginnings of its literal, or behind
the same one twice, is listed with one of them only (`RuleTable.not_every_pair_listed`),
and the number of entries is that of the rules that cannot match.
-/

import PhoneticBengali.Bundled
import PhoneticBengali.Rule.Order
import Mathlib.Data.List.Basic

namespace PhoneticBengali
namespace RuleTable

open Bundled (plain)

variable {table earlier later : RuleTable} {seen : List (Text × Nat)} {r : Rule} {x : Text}

/-! ### Where literals first stand -/

/-- The position of the first rule with the literal `x`. -/
def position? (table : RuleTable) (x : Text) : Option Nat :=
  table.findIdx? (·.find == x)

/-- A literal without a position is that of no rule. -/
theorem position?_eq_none_iff : table.position? x = none ↔ ∀ s ∈ table, s.find ≠ x := by
  simp [position?, List.findIdx?_eq_none_iff]

/-- A literal with a position is that of some rule. -/
theorem position?_ne_none_iff : table.position? x ≠ none ↔ ∃ s ∈ table, s.find = x := by
  simp [position?_eq_none_iff]

/-- A position is one in the table. -/
theorem lt_length_of_position? {j : Nat} (h : table.position? x = some j) : j < table.length :=
  (List.findIdx?_eq_some_iff_getElem.1 h).1

/-- A literal is looked for in the earlier rules, then in the later ones. -/
theorem position?_append :
    (earlier ++ later).position? x =
      (earlier.position? x).or ((later.position? x).map (· + earlier.length)) :=
  List.findIdx?_append

/-- The first rule with the literal has position zero. -/
theorem position?_cons :
    position? (r :: later) x = if r.find = x then some 0 else (later.position? x).map (· + 1) := by
  simp [position?, List.findIdx?_cons]

/-- A position among the earlier rules is found there. -/
theorem position?_append_lt_iff {j : Nat} :
    (earlier ++ later).position? x = some j ∧ j < earlier.length ↔
      earlier.position? x = some j := by
  rw [position?_append]
  cases h : earlier.position? x with
  | some i =>
    have hi := lt_length_of_position? h
    rw [Option.some_or]
    exact ⟨fun hj => hj.1, fun hj => ⟨hj, Option.some.inj hj ▸ hi⟩⟩
  | none =>
    rw [Option.none_or]
    constructor
    · rintro ⟨hj, hlt⟩
      obtain ⟨k, -, rfl⟩ := Option.map_eq_some_iff.1 hj
      omega
    · rintro ⟨⟩

/-- A literal first stands at a rule if the rule has it and no earlier one. -/
theorem position?_append_cons_iff :
    (earlier ++ r :: later).position? x = some earlier.length ↔
      earlier.position? x = none ∧ r.find = x := by
  rw [position?_append, position?_cons]
  cases h : earlier.position? x with
  | some i =>
    have hi := lt_length_of_position? h
    simp only [Option.some_or, Option.some.injEq, reduceCtorEq, false_and, iff_false]
    omega
  | none =>
    rw [Option.none_or]
    by_cases hr : r.find = x
    · simp [hr]
    · cases hlater : later.position? x with
      | none => simp [hr]
      | some k =>
        simp only [hr, if_false, Option.map_some, Option.some.injEq, and_false, iff_false]
        omega

/-- `seen` tells where each literal of the earlier rules first stood. -/
def Recalls (seen : List (Text × Nat)) (earlier : RuleTable) : Prop :=
  ∀ x, seen.lookup x = earlier.position? x

/-- Nothing seen recalls no rules. -/
theorem recalls_nil : Recalls [] [] :=
  fun _ => rfl

/-- A literal that has stood before adds nothing to what is recalled. -/
theorem Recalls.repeated (h : Recalls seen earlier) {j : Nat}
    (hr : earlier.position? r.find = some j) : Recalls seen (earlier ++ [r]) := by
  intro x
  rw [h, position?_append, position?_cons]
  by_cases hx : r.find = x
  · rw [← hx, hr, Option.some_or]
  · rw [if_neg hx]
    simp [position?]

/-- A new literal is recalled from then on. -/
theorem Recalls.new (h : Recalls seen earlier) (hr : earlier.position? r.find = none) :
    Recalls ((r.find, earlier.length) :: seen) (earlier ++ [r]) := by
  intro x
  rw [List.lookup_cons, position?_append, position?_cons, ← h]
  by_cases hx : r.find = x
  · rw [if_pos hx, ← hx, beq_self_eq_true, h, hr]
    simp
  · rw [if_neg hx, beq_eq_false_iff_ne.2 (Ne.symm hx)]
    simp [position?]

/-! ### The beginnings of a literal -/

/-- The proper beginnings of a text are its prefixes but itself and the empty one. -/
theorem mem_properBeginnings {t u : Text} :
    u ∈ properBeginnings t ↔ u <+: t ∧ u ≠ [] ∧ u ≠ t := by
  simp only [properBeginnings, List.mem_map, List.mem_range'_1]
  constructor
  · rintro ⟨n, hn, rfl⟩
    have hlength : (t.take n).length = n := by rw [List.length_take]; omega
    refine ⟨List.take_prefix n t, fun h => ?_, fun h => ?_⟩
    · rw [h, List.length_nil] at hlength
      omega
    · rw [h] at hlength
      omega
  · rintro ⟨hu, hne, hwhole⟩
    refine ⟨u.length, ⟨List.length_pos_iff.2 hne, ?_⟩, (List.prefix_iff_eq_take.1 hu).symm⟩
    have hle := hu.length_le
    have hlt : u.length ≠ t.length := fun h => hwhole (hu.eq_of_length h)
    omega

/-- The shortest beginnings come first. -/
theorem pairwise_properBeginnings (t : Text) :
    (properBeginnings t).Pairwise fun u v => u.length < v.length := by
  rw [properBeginnings, List.pairwise_map]
  refine List.Pairwise.imp_of_mem (fun {m n} hm hn hlt => ?_) (List.pairwise_lt_range' ..)
  rw [List.mem_range'_1] at hm hn
  rw [List.length_take, List.length_take]
  omega

/-- The entry for a rule behind `earlier` with the new literal `t`: the first beginning
that has stood before. -/
def shadowing? (earlier : RuleTable) (t : Text) : Option Conflict :=
  (properBeginnings t).findSome? fun u =>
    (earlier.position? u).map fun j => ⟨earlier.length, t, j, u⟩

/-- The first beginning that has stood before is the shortest one. -/
theorem shadowing?_eq_some_iff {t : Text} {c : Conflict} :
    earlier.shadowing? t = some c ↔
      c.index = earlier.length ∧ c.find = t ∧
      earlier.position? c.earlierFind = some c.earlierIndex ∧
      c.earlierFind ∈ properBeginnings t ∧
      ∀ u ∈ properBeginnings t, earlier.position? u ≠ none → c.earlierFind.length ≤ u.length := by
  have hsorted := pairwise_properBeginnings t
  rw [shadowing?, List.findSome?_eq_some_iff]
  constructor
  · rintro ⟨before, u, behind, hsplit, hu, hbefore⟩
    obtain ⟨j, hj, rfl⟩ := Option.map_eq_some_iff.1 hu
    rw [hsplit] at hsorted ⊢
    refine ⟨rfl, rfl, hj, by simp, fun v hv hknown => ?_⟩
    rcases List.mem_append.1 hv with hv | hv
    · exact absurd (Option.map_eq_none_iff.1 (hbefore v hv)) hknown
    · rcases List.mem_cons.1 hv with rfl | hv
      · exact Nat.le_refl _
      · exact Nat.le_of_lt ((List.pairwise_cons.1 (List.pairwise_append.1 hsorted).2.1).1 v hv)
  · rintro ⟨hindex, hfind, hj, hmem, hshortest⟩
    obtain ⟨before, behind, hsplit⟩ := List.append_of_mem hmem
    refine ⟨before, c.earlierFind, behind, hsplit, ?_, fun v hv => ?_⟩
    · rw [hj, Option.map_some, ← hindex, ← hfind]
    · rw [Option.map_eq_none_iff]
      by_contra hknown
      rw [hsplit] at hsorted hshortest
      have hle := hshortest v (List.mem_append_left _ hv) hknown
      have hlt := (List.pairwise_append.1 hsorted).2.2 v hv _ (List.mem_cons_self ..)
      omega

/-! ### What one step enters -/

/-- The entry of a rule with a new literal.  Of the earlier rules it names the first one
with the shortest literal that the rule's own properly begins with. -/
structure IsShadowed (table : RuleTable) (c : Conflict) : Prop where
  new : table.position? c.find = some c.index
  first : table.position? c.earlierFind = some c.earlierIndex
  earlier : c.earlierIndex < c.index
  begins : c.earlierFind <+: c.find
  proper : c.earlierFind ≠ c.find
  shortest : ∀ s ∈ table.take c.index, s.find <+: c.find → c.earlierFind.length ≤ s.find.length

/-- The entry of a rule with the literal of an earlier one.  It names the first of these. -/
structure IsRepeated (table : RuleTable) (c : Conflict) : Prop where
  stands : (table[c.index]?).map (·.find) = some c.find
  same : c.earlierFind = c.find
  first : table.position? c.find = some c.earlierIndex
  earlier : c.earlierIndex < c.index

/-- A shadowed rule is one of the table. -/
theorem IsShadowed.lt_length {c : Conflict} (h : table.IsShadowed c) : c.index < table.length :=
  lt_length_of_position? h.new

/-- A repeated rule is one of the table. -/
theorem IsRepeated.lt_length {c : Conflict} (h : table.IsRepeated c) : c.index < table.length := by
  obtain ⟨s, hs, -⟩ := Option.map_eq_some_iff.1 h.stands
  exact (List.getElem?_eq_some_iff.1 hs).1

/-- A rule behind others repeats the first of them with its literal. -/
theorem isRepeated_append_iff {c : Conflict} :
    c.index = earlier.length ∧ (earlier ++ r :: later).IsRepeated c ↔
      ∃ j, earlier.position? r.find = some j ∧ c = ⟨earlier.length, r.find, j, r.find⟩ := by
  constructor
  · obtain ⟨index, x, j, y⟩ := c
    rintro ⟨rfl, h⟩
    obtain rfl : y = x := h.same
    obtain rfl : r.find = y := by simpa using h.stands
    exact ⟨j, position?_append_lt_iff.1 ⟨h.first, h.earlier⟩, rfl⟩
  · rintro ⟨j, hj, rfl⟩
    obtain ⟨hfirst, hlt⟩ := (@position?_append_lt_iff _ (r :: later) _ _).2 hj
    exact ⟨rfl, by simp, rfl, hfirst, hlt⟩

/-- A rule behind others is shadowed, unless it repeats one, by the one that they tell. -/
theorem isShadowed_append_iff (hfinds : ∀ s ∈ earlier, s.find ≠ []) {c : Conflict} :
    c.index = earlier.length ∧ (earlier ++ r :: later).IsShadowed c ↔
      earlier.position? r.find = none ∧ earlier.shadowing? r.find = some c := by
  rw [shadowing?_eq_some_iff]
  constructor
  · rintro ⟨hindex, h⟩
    obtain ⟨hnew, hfind⟩ := position?_append_cons_iff.1 (hindex ▸ h.new)
    have hfirst := position?_append_lt_iff.1 ⟨h.first, hindex ▸ h.earlier⟩
    have hshortest := h.shortest
    rw [hindex, List.take_left' rfl] at hshortest
    obtain ⟨s, hs, hsfind⟩ := position?_ne_none_iff.1 (hfirst ▸ Option.some_ne_none _)
    rw [hfind]
    refine ⟨hnew, hindex, rfl, hfirst, mem_properBeginnings.2 ⟨h.begins, ?_, h.proper⟩, ?_⟩
    · exact hsfind ▸ hfinds s hs
    · intro u hu hknown
      obtain ⟨q, hq, rfl⟩ := position?_ne_none_iff.1 hknown
      exact hshortest q hq (mem_properBeginnings.1 hu).1
  · rintro ⟨hnew, hindex, hfind, hfirst, hmem, hshortest⟩
    obtain ⟨hbegins, -, hproper⟩ := mem_properBeginnings.1 hmem
    obtain ⟨hfirst', hlt⟩ := (@position?_append_lt_iff _ (r :: later) _ _).2 hfirst
    refine ⟨hindex, ⟨?_, hfirst', hindex ▸ hlt, hfind ▸ hbegins, hfind ▸ hproper, ?_⟩⟩
    · rw [hindex, hfind]
      exact position?_append_cons_iff.2 ⟨hnew, rfl⟩
    · rw [hindex, List.take_left' rfl, hfind]
      intro s hs hbegin
      have hother := position?_eq_none_iff.1 hnew s hs
      exact hshortest s.find (mem_properBeginnings.2 ⟨hbegin, hfinds s hs, hother⟩)
        (position?_ne_none_iff.2 ⟨s, hs, rfl⟩)

/-! ### What a run enters -/

/-- A rule that repeats one adds to the duplicates and is not remembered. -/
theorem conflictsFrom_repeated (h : Recalls seen earlier) {j : Nat}
    (hr : earlier.position? r.find = some j) (index : Nat) :
    conflictsFrom seen index (r :: later) =
      ((conflictsFrom seen (index + 1) later).1,
        ⟨index, r.find, j, r.find⟩ :: (conflictsFrom seen (index + 1) later).2) := by
  simp only [conflictsFrom, h r.find, hr]

/-- A new rule adds what shadows it, if anything does, and is remembered. -/
theorem conflictsFrom_new (h : Recalls seen earlier) (hr : earlier.position? r.find = none) :
    conflictsFrom seen earlier.length (r :: later) =
      ((earlier.shadowing? r.find).toList ++
          (conflictsFrom ((r.find, earlier.length) :: seen) (earlier.length + 1) later).1,
        (conflictsFrom ((r.find, earlier.length) :: seen) (earlier.length + 1) later).2) := by
  simp only [conflictsFrom, shadowing?, h _, hr]

/-- **What a run enters.**  The entries for the rules from a place on are the ones that
these rules have in the whole table. -/
theorem mem_conflictsFrom_iff (h : Recalls seen earlier)
    (hfinds : ∀ s ∈ earlier ++ later, s.find ≠ []) (c : Conflict) :
    (c ∈ (conflictsFrom seen earlier.length later).1 ↔
      earlier.length ≤ c.index ∧ (earlier ++ later).IsShadowed c) ∧
    (c ∈ (conflictsFrom seen earlier.length later).2 ↔
      earlier.length ≤ c.index ∧ (earlier ++ later).IsRepeated c) := by
  induction later generalizing seen earlier with
  | nil =>
    rw [List.append_nil]
    have hshadowed : ¬ (earlier.length ≤ c.index ∧ earlier.IsShadowed c) := fun ⟨hle, hc⟩ =>
      Nat.not_le_of_lt hc.lt_length hle
    have hrepeated : ¬ (earlier.length ≤ c.index ∧ earlier.IsRepeated c) := fun ⟨hle, hc⟩ =>
      Nat.not_le_of_lt hc.lt_length hle
    simp [conflictsFrom, hshadowed, hrepeated]
  | cons r later ih =>
    have hsplit : earlier ++ r :: later = (earlier ++ [r]) ++ later := List.append_cons ..
    have hlength : (earlier ++ [r]).length = earlier.length + 1 := by simp
    have hearlier : ∀ s ∈ earlier, s.find ≠ [] := fun s hs => hfinds s (List.mem_append_left _ hs)
    have hindex : earlier.length ≤ c.index ↔
        c.index = earlier.length ∨ earlier.length + 1 ≤ c.index := by omega
    rw [hindex, or_and_right, or_and_right, isShadowed_append_iff hearlier, isRepeated_append_iff]
    rw [hsplit] at hfinds ⊢
    cases hr : earlier.position? r.find with
    | some j =>
      obtain ⟨hshadowed, hrepeated⟩ := ih (h.repeated hr) hfinds
      rw [hlength] at hshadowed hrepeated
      rw [conflictsFrom_repeated h hr, hshadowed, List.mem_cons, hrepeated]
      simp
    | none =>
      obtain ⟨hshadowed, hrepeated⟩ := ih (h.new hr) hfinds
      rw [hlength] at hshadowed hrepeated
      rw [conflictsFrom_new h hr, List.mem_append, hshadowed, hrepeated]
      simp

/-- Entries for later rules come later. -/
theorem pairwise_conflictsFrom (h : Recalls seen earlier)
    (hfinds : ∀ s ∈ earlier ++ later, s.find ≠ []) :
    (conflictsFrom seen earlier.length later).1.Pairwise (·.index < ·.index) ∧
      (conflictsFrom seen earlier.length later).2.Pairwise (·.index < ·.index) := by
  induction later generalizing seen earlier with
  | nil => exact ⟨.nil, .nil⟩
  | cons r later ih =>
    have hlength : (earlier ++ [r]).length = earlier.length + 1 := by simp
    rw [List.append_cons] at hfinds
    cases hr : earlier.position? r.find with
    | some j =>
      have hlater := mem_conflictsFrom_iff (h.repeated hr) hfinds
      obtain ⟨hshadowed, hrepeated⟩ := ih (h.repeated hr) hfinds
      rw [hlength] at hlater hshadowed hrepeated
      rw [conflictsFrom_repeated h hr]
      exact ⟨hshadowed, List.pairwise_cons.2 ⟨fun c hc => ((hlater c).2.1 hc).1, hrepeated⟩⟩
    | none =>
      have hlater := mem_conflictsFrom_iff (h.new hr) hfinds
      obtain ⟨hshadowed, hrepeated⟩ := ih (h.new hr) hfinds
      rw [hlength] at hlater hshadowed hrepeated
      rw [conflictsFrom_new h hr]
      refine ⟨List.pairwise_append.2 ⟨?_, hshadowed, fun c hc d hd => ?_⟩, hrepeated⟩
      · cases earlier.shadowing? r.find <;> simp
      · have hindex := (shadowing?_eq_some_iff.1 (Option.mem_toList.1 hc)).1
        have hle := ((hlater d).1.1 hd).1
        omega

/-- **The report lists just the shadowed rules** as shadowed. -/
theorem mem_shadowed_iff (hfinds : ∀ s ∈ table, s.find ≠ []) (c : Conflict) :
    c ∈ (checkOrder table).shadowed ↔ table.IsShadowed c := by
  simpa [checkOrder] using (mem_conflictsFrom_iff recalls_nil hfinds c).1

/-- **The report lists just the repeated rules** as duplicates. -/
theorem mem_duplicates_iff (hfinds : ∀ s ∈ table, s.find ≠ []) (c : Conflict) :
    c ∈ (checkOrder table).duplicates ↔ table.IsRepeated c := by
  simpa [checkOrder] using (mem_conflictsFrom_iff recalls_nil hfinds c).2

/-! ### Which rules are entered -/

/-- A rule at a position stands between the earlier rules and the later ones. -/
theorem exists_eq_append {i : Nat} (hi : table[i]? = some r) :
    ∃ later, table = table.take i ++ r :: later ∧ (table.take i).length = i := by
  obtain ⟨hlt, rfl⟩ := List.getElem?_eq_some_iff.1 hi
  refine ⟨table.drop (i + 1), ?_, ?_⟩
  · rw [← List.drop_eq_getElem_cons, List.take_append_drop]
  · rw [List.length_take]
    omega

/-- A rule is a duplicate if an earlier rule has its literal. -/
theorem exists_isRepeated_iff {i : Nat} (hi : table[i]? = some r) :
    (∃ c, table.IsRepeated c ∧ c.index = i) ↔ ∃ s ∈ table.take i, s.find = r.find := by
  obtain ⟨later, htable, hlength⟩ := exists_eq_append hi
  rw [← position?_ne_none_iff, Option.ne_none_iff_exists']
  generalize table.take i = earlier at htable hlength
  subst htable hlength
  constructor
  · rintro ⟨c, hc, hindex⟩
    obtain ⟨j, hj, -⟩ := isRepeated_append_iff.1 ⟨hindex, hc⟩
    exact ⟨j, hj⟩
  · rintro ⟨j, hj⟩
    obtain ⟨hindex, hc⟩ := isRepeated_append_iff.2 ⟨j, hj, rfl⟩
    exact ⟨_, hc, hindex⟩

/-- A rule is shadowed if its literal is new and begins with that of an earlier rule. -/
theorem exists_isShadowed_iff (hfinds : ∀ s ∈ table, s.find ≠ []) {i : Nat}
    (hi : table[i]? = some r) :
    (∃ c, table.IsShadowed c ∧ c.index = i) ↔
      (∀ s ∈ table.take i, s.find ≠ r.find) ∧ ∃ s ∈ table.take i, s.find <+: r.find := by
  have hearlier : ∀ s ∈ table.take i, s.find ≠ [] := fun s hs => hfinds s (List.mem_of_mem_take hs)
  obtain ⟨later, htable, hlength⟩ := exists_eq_append hi
  rw [← position?_eq_none_iff]
  generalize table.take i = earlier at htable hlength hearlier
  subst htable hlength
  constructor
  · rintro ⟨c, hc, hindex⟩
    obtain ⟨hnew, hentry⟩ := (isShadowed_append_iff hearlier).1 ⟨hindex, hc⟩
    obtain ⟨-, -, hfirst, hmem, -⟩ := shadowing?_eq_some_iff.1 hentry
    obtain ⟨s, hs, hsfind⟩ := position?_ne_none_iff.1 (hfirst ▸ Option.some_ne_none _)
    exact ⟨hnew, s, hs, hsfind ▸ (mem_properBeginnings.1 hmem).1⟩
  · rintro ⟨hnew, s, hs, hbegins⟩
    have hmem : s.find ∈ properBeginnings r.find := mem_properBeginnings.2
      ⟨hbegins, hearlier s hs, position?_eq_none_iff.1 hnew s hs⟩
    have hentry : shadowing? earlier r.find ≠ none := by
      rw [shadowing?, ne_eq, List.findSome?_eq_none_iff]
      intro hnone
      exact position?_ne_none_iff.2 ⟨s, hs, rfl⟩ (Option.map_eq_none_iff.1 (hnone s.find hmem))
    obtain ⟨c, hc⟩ := Option.ne_none_iff_exists'.1 hentry
    obtain ⟨hindex, hshadowed⟩ := (isShadowed_append_iff hearlier).2 ⟨hnew, hc⟩
    exact ⟨c, hshadowed, hindex⟩

/-- No rule is listed as shadowed and as a duplicate. -/
theorem IsShadowed.index_ne (hfinds : ∀ s ∈ table, s.find ≠ []) {c d : Conflict}
    (hc : table.IsShadowed c) (hd : table.IsRepeated d) : c.index ≠ d.index := by
  intro hindex
  have hlt := hc.lt_length
  have hi : table[c.index]? = some table[c.index] := List.getElem?_eq_getElem hc.lt_length
  obtain ⟨s, hs, hfind⟩ := (exists_isRepeated_iff hi).1 ⟨d, hd, hindex.symm⟩
  exact ((exists_isShadowed_iff hfinds hi).1 ⟨c, hc, rfl⟩).1 s hs hfind

/-- **Which rules are entered.**  They are the rules whose literal begins with that of an
earlier rule. -/
theorem exists_entry_iff (hfinds : ∀ s ∈ table, s.find ≠ []) {i : Nat} :
    (∃ c ∈ (checkOrder table).shadowed ++ (checkOrder table).duplicates, c.index = i) ↔
      ∃ r, table[i]? = some r ∧ ∃ s ∈ table.take i, s.find <+: r.find := by
  simp only [List.mem_append, mem_shadowed_iff hfinds, mem_duplicates_iff hfinds]
  constructor
  · rintro ⟨c, hc, rfl⟩
    have hlt : c.index < table.length := hc.elim IsShadowed.lt_length IsRepeated.lt_length
    refine ⟨table[c.index], List.getElem?_eq_getElem hlt, ?_⟩
    rcases hc with hc | hc
    · exact ((exists_isShadowed_iff hfinds (List.getElem?_eq_getElem hlt)).1 ⟨c, hc, rfl⟩).2
    · obtain ⟨s, hs, hfind⟩ :=
        (exists_isRepeated_iff (List.getElem?_eq_getElem hlt)).1 ⟨c, hc, rfl⟩
      exact ⟨s, hs, hfind ▸ List.prefix_refl _⟩
  · rintro ⟨r, hi, s, hs, hbegins⟩
    by_cases hnew : ∀ q ∈ table.take i, q.find ≠ r.find
    · obtain ⟨c, hc, hindex⟩ := (exists_isShadowed_iff hfinds hi).2 ⟨hnew, s, hs, hbegins⟩
      exact ⟨c, .inl hc, hindex⟩
    · obtain ⟨c, hc, hindex⟩ := (exists_isRepeated_iff hi).2 (by simpa using hnew)
      exact ⟨c, .inr hc, hindex⟩

/-- **What the check of the order lists.**  Each rule that cannot match has one entry, and
no other rule has one.  The duplicates are the rules with the literal of an earlier rule,
each with the first such rule.  The shadowed rules are those with a new literal of which
the literal of an earlier rule is a proper beginning, each with the first rule that has
the shortest such literal. -/
theorem checkOrder_entries (hfinds : ∀ s ∈ table, s.find ≠ []) :
    (∀ c, c ∈ (checkOrder table).shadowed ↔ table.IsShadowed c) ∧
    (∀ c, c ∈ (checkOrder table).duplicates ↔ table.IsRepeated c) ∧
    (checkOrder table).shadowed.Pairwise (·.index < ·.index) ∧
    (checkOrder table).duplicates.Pairwise (·.index < ·.index) ∧
    ∀ (i : Nat) (r : Rule), table[i]? = some r →
      ((∃ c ∈ (checkOrder table).shadowed, c.index = i) ↔
        (∀ s ∈ table.take i, s.find ≠ r.find) ∧
          ∃ s ∈ table.take i, s.find <+: r.find ∧ s.find ≠ r.find) ∧
      ((∃ c ∈ (checkOrder table).duplicates, c.index = i) ↔
        ∃ s ∈ table.take i, s.find = r.find) := by
  obtain ⟨hshadowed, hduplicates⟩ := pairwise_conflictsFrom recalls_nil hfinds
  refine ⟨mem_shadowed_iff hfinds, mem_duplicates_iff hfinds, by simpa [checkOrder] using hshadowed,
    by simpa [checkOrder] using hduplicates, fun i r hi => ⟨?_, ?_⟩⟩
  · simp only [mem_shadowed_iff hfinds, exists_isShadowed_iff hfinds hi]
    refine and_congr_right fun hnew => exists_congr fun s => and_congr_right fun hs => ?_
    exact (and_iff_left (hnew s hs)).symm
  · simp only [mem_duplicates_iff hfinds, exists_isRepeated_iff hi]

/-- A table in which `kh`, `k` and `khn` stand behind beginnings of their literals, partly
several times. -/
def crowded : RuleTable :=
  [plain "k" "ক", plain "kh" "খ", plain "k" "ক", plain "khn" "খ্ন", plain "khn" "খ্ন"]

/-- The hypothesis of `checkOrder_entries` is met by a table in which `khn` comes behind
`k`, `kh` and `k`: it has an entry with the first `k` alone. -/
theorem checkOrder_entries_crowded :
    (∀ s ∈ crowded, s.find ≠ []) ∧ crowded.IsShadowed ⟨3, ['k', 'h', 'n'], 0, ['k']⟩ ∧
      ¬ crowded.IsShadowed ⟨3, ['k', 'h', 'n'], 1, ['k', 'h']⟩ := by
  have hfinds : ∀ s ∈ crowded, s.find ≠ [] := by decide +kernel
  obtain ⟨hshadowed, -⟩ := checkOrder_entries hfinds
  refine ⟨hfinds, (hshadowed _).1 (by decide +kernel), fun h => ?_⟩
  exact absurd ((hshadowed _).2 h) (by decide +kernel)

/-- Not every rule in front of which a proper beginning of its literal stands is named. -/
theorem not_every_pair_listed :
    (∀ s ∈ crowded, s.find ≠ []) ∧
    ¬ ∀ (i j : Nat) (r s : Rule), j < i → crowded[i]? = some r → crowded[j]? = some s →
      s.find <+: r.find → s.find ≠ r.find →
      ∃ c ∈ (checkOrder crowded).shadowed, c.index = i ∧ c.earlierIndex = j := by
  refine ⟨by decide +kernel, fun h => ?_⟩
  obtain ⟨c, hc, hindex, hearlier⟩ := h 3 1 _ _ (by decide) rfl rfl (by decide) (by decide)
  have hlisted : ((checkOrder crowded).shadowed.all fun c => c.index != 3 || c.earlierIndex != 1) =
      true := by decide +kernel
  have hno := List.all_eq_true.1 hlisted c hc
  simp [hindex, hearlier] at hno

end RuleTable
end PhoneticBengali
