/-
# Alternatives that are dropped

An entry that is refused as an alternative could as well be kept, in its place, as an
alternative that is void: one with an exact condition that has no literal, negated or not,
and with any output.

| entry of a rule's list | kept as (`Alternative.Keeps`) |
| --- | --- |
| read as an alternative | that alternative |
| refused, in whatever way | any void alternative |

No text tells the table that keeps them from the table that is read
(`RuleTable.toBengali_keeping`).  Which alternative of a rule applies first is the same in
both, so each rule acts as its counterpart (`Rule.ActsAs`), and of tables that act alike
rule by rule this holds as a whole (`RuleTable.toBengali_eq_of_actsAs`).
-/

import PhoneticBengali.Proofs.Rule.Description
import PhoneticBengali.Forward

namespace PhoneticBengali

/-- Every list has a picking by any `p`. -/
theorem exists_picks {α β : Type} (p : α → β → Prop) (xs : List α) : ∃ ys, Picks p xs ys := by
  induction xs with
  | nil => exact ⟨[], .nil⟩
  | cons x xs ih =>
    obtain ⟨ys, hys⟩ := ih
    by_cases hx : ∃ y, p x y
    · obtain ⟨y, hy⟩ := hx
      exact ⟨y :: ys, .take hy hys⟩
    · exact ⟨ys, .skip (not_exists.1 hx) hys⟩

/-! ### What never applies -/

/-- An exact condition without a literal, or with an empty one. -/
structure Condition.IsVoid (k : Condition) : Prop where
  scope_eq : k.scope = .exact
  literal_eq : k.literal = none ∨ k.literal = some []

/-- Negated or not, it never holds. -/
theorem Condition.IsVoid.holds_eq_false {k : Condition} (h : k.IsVoid) (left right : Text) :
    k.holds left right = false := by
  rw [holds, h.scope_eq]
  rcases h.literal_eq with hliteral | hliteral <;> rw [hliteral]

namespace Alternative

/-- An alternative one of whose conditions is void. -/
def IsVoid (a : Alternative) : Prop :=
  ∃ k ∈ a.conditions, k.IsVoid

/-- A void alternative never applies. -/
theorem IsVoid.applies_eq_false {a : Alternative} (h : a.IsVoid) (left right : Text) :
    a.applies left right = false := by
  obtain ⟨k, hk, hvoid⟩ := h
  exact List.all_eq_false.2 ⟨k, hk, by simp [hvoid.holds_eq_false]⟩

/-- An entry is kept as an alternative. -/
inductive Keeps (raw : Document) (a : Alternative) : Prop where
  | read (h : ofDocument raw = .ok a)
  | refused {fault : GrammarFault} (h : ofDocument raw = .error fault) (void : a.IsVoid)

/-- Every entry can be kept: as what it is read as, or as a void alternative. -/
theorem exists_keeps (raw : Document) : ∃ a, Keeps raw a := by
  cases hraw : ofDocument raw with
  | ok a => exact ⟨a, .read hraw⟩
  | error fault =>
    have hvoid : Condition.IsVoid ⟨.before, .exact, false, none⟩ := ⟨rfl, .inl rfl⟩
    exact ⟨⟨[_], []⟩, .refused hraw ⟨_, List.mem_singleton_self _, hvoid⟩⟩

/-- The entries of a list can be kept one by one. -/
theorem exists_forall₂_keeps (items : List Document) :
    ∃ alternatives, List.Forall₂ Keeps items alternatives := by
  induction items with
  | nil => exact ⟨[], .nil⟩
  | cons raw items ih =>
    obtain ⟨alternatives, hlater⟩ := ih
    obtain ⟨a, ha⟩ := exists_keeps raw
    exact ⟨a :: alternatives, .cons ha hlater⟩

/-- The first one that applies is one that is read: those before it that are not read
never apply. -/
theorem find?_applies_of_keeps {items : List Document} {alternatives : List Alternative}
    (h : List.Forall₂ Keeps items alternatives) (left right : Text) :
    alternatives.find? (·.applies left right) =
      (items.filterMap fun raw => (ofDocument raw).toOption).find? (·.applies left right) := by
  induction h with
  | nil => rfl
  | cons hkeeps _ ih =>
    cases hkeeps with
    | read hread =>
      rw [List.filterMap_cons_some (by rw [hread]; rfl), List.find?_cons, List.find?_cons, ih]
    | refused hrefused hvoid =>
      rw [List.filterMap_cons_none (by rw [hrefused]; rfl), ← ih,
        List.find?_cons_of_neg (by simp [hvoid.applies_eq_false])]

end Alternative

/-! ### Rules that act alike -/

/-- A rule matches where another does, and puts out the same there. -/
structure Rule.ActsAs (r s : Rule) : Prop where
  find_eq : r.find = s.find
  output_eq : ∀ left right, r.output left right = s.output left right

namespace RuleTable

variable {table table' : RuleTable}

/-- Tables that act alike have rules that act alike where either has one. -/
theorem first?_actsAs (h : List.Forall₂ Rule.ActsAs table table') (rest : Text) :
    Option.Rel Rule.ActsAs (table.first? rest) (table'.first? rest) := by
  induction h with
  | nil => exact .none
  | @cons r s _ _ hacts _ ih =>
    have hmatches : r.matchesAt rest = s.matchesAt rest := by
      rw [Rule.matchesAt, Rule.matchesAt, hacts.find_eq]
    rw [first?, first?, List.find?_cons, List.find?_cons, hmatches]
    cases s.matchesAt rest with
    | true => exact .some hacts
    | false => exact ih

/-- The segments that tables which act alike cut put out the same. -/
theorem output_segmentsFrom_of_actsAs (h : List.Forall₂ Rule.ActsAs table table') (left : Text)
    (skip : Nat) (rest : Text) :
    (segmentsFrom table left skip rest).flatMap Segment.output =
      (segmentsFrom table' left skip rest).flatMap Segment.output := by
  induction rest generalizing left skip with
  | nil => rw [segmentsFrom, segmentsFrom]
  | cons c rest ih =>
    cases skip with
    | succ skip => exact ih (c :: left) skip
    | zero =>
      have hfirst := first?_actsAs h (c :: rest)
      rw [segmentsFrom, segmentsFrom]
      generalize table.first? (c :: rest) = first at hfirst
      generalize table'.first? (c :: rest) = first' at hfirst
      cases hfirst with
      | none => simp only [List.flatMap_cons, ih]
      | some hacts =>
        simp only [List.flatMap_cons, Segment.output, hacts.output_eq, hacts.find_eq, ih]

/-- **Tables whose rules act alike** convert every text alike. -/
theorem toBengali_eq_of_actsAs (h : List.Forall₂ Rule.ActsAs table table') (t : Text) :
    table.toBengali t = table'.toBengali t :=
  output_segmentsFrom_of_actsAs h [] 0 (fixCase t)

end RuleTable

/-! ### Keeping what is dropped -/

namespace Rule

/-- An entry is kept as a rule: with the texts it has, and with an alternative for each
entry of its list. -/
def Keeps (raw : Document) (r : Rule) : Prop :=
  ∃ find replace items, HasForm raw find replace items ∧ r.find = find ∧
    r.replace = replace ∧ List.Forall₂ Alternative.Keeps items r.alternatives

/-- An entry with the form of a rule can be kept as one. -/
theorem HasForm.exists_keeps {raw : Document} {find replace : Text} {items : List Document}
    (h : HasForm raw find replace items) : ∃ r, Keeps raw r := by
  obtain ⟨alternatives, hkeeps⟩ := Alternative.exists_forall₂_keeps items
  exact ⟨⟨find, replace, alternatives⟩, find, replace, items, h, rfl, rfl, hkeeps⟩

/-- An entry that is kept as a rule is read as one that acts as it. -/
theorem Keeps.exists_actsAs {raw : Document} {r : Rule} (h : Keeps raw r) :
    ∃ s, RuleTable.accepted? raw = some s ∧ s.ActsAs r := by
  obtain ⟨find, replace, items, hform, hfind, hreplace, hkeeps⟩ := h
  refine ⟨_, RuleTable.accepted?_eq_some_iff.2 hform.value_ofDocument, hfind.symm,
    fun left right => ?_⟩
  rw [output, output, hreplace, Alternative.find?_applies_of_keeps hkeeps]

/-- And an entry that is not is not read. -/
theorem accepted?_eq_none {raw : Document} (h : ∀ r, ¬ Keeps raw r) :
    RuleTable.accepted? raw = none := by
  refine Option.eq_none_iff_forall_ne_some.2 fun s hs => ?_
  have hs := RuleTable.accepted?_eq_some_iff.1 hs
  obtain ⟨find, replace, items, hform, -⟩ := value_ofDocument_eq_some_iff.1 hs
  obtain ⟨r, hr⟩ := hform.exists_keeps
  exact h r hr

end Rule

namespace RuleTable

/-- What the entries add acts as what they are kept as. -/
theorem forall₂_actsAs_of_picks_keeps {entries : List Document} {kept : RuleTable}
    (h : Picks Rule.Keeps entries kept) :
    List.Forall₂ Rule.ActsAs (entries.filterMap accepted?) kept := by
  induction h with
  | nil => exact .nil
  | take hkeeps _ ih =>
    obtain ⟨s, hs, hacts⟩ := hkeeps.exists_actsAs
    rw [List.filterMap_cons_some hs]
    exact .cons hacts ih
  | skip hnone _ ih =>
    rw [List.filterMap_cons_none (Rule.accepted?_eq_none hnone)]
    exact ih

/-- **To drop an alternative is to keep one that never applies.**  Every list of entries
can be kept as a table in which each alternative that reading refuses is void and in its
place, and is read as a table if its entries are rules or can be shown; if it is, and
however it is kept, both tables convert every text alike. -/
theorem toBengali_keeping (entries : List Document) :
    (∃ kept, Picks Rule.Keeps entries kept) ∧
      ((∀ raw ∈ entries, ¬ Rule.IsUnshowable raw) →
        ∃ table, (ofDocument (.list entries)).value = .ok table) ∧
      ∀ table kept : RuleTable, (ofDocument (.list entries)).value = .ok table →
        Picks Rule.Keeps entries kept → ∀ t, table.toBengali t = kept.toBengali t := by
  refine ⟨exists_picks Rule.Keeps entries, fun hshown => ?_, fun table kept htable hkept t => ?_⟩
  · rcases value_ofDocument_list entries with ⟨⟨raw, hraw, hunshowable⟩, -⟩ | ⟨-, hvalue⟩
    · exact absurd hunshowable (hshown raw hraw)
    · exact ⟨_, hvalue⟩
  · rcases value_ofDocument_list entries with ⟨-, hfault⟩ | ⟨-, hvalue⟩
    · cases htable.symm.trans hfault
    · obtain rfl := Except.ok.inj (htable.symm.trans hvalue)
      exact toBengali_eq_of_actsAs (forall₂_actsAs_of_picks_keeps hkept) t

open Document in
/-- Two refused alternatives, of a side that there is not and of no condition, in front of
one that is read, and an entry that is no rule. -/
theorem toBengali_keeping_middle :
    let edge := map [(str "type", str "prefix"), (str "scope", str "punctuation")]
    let middle := map [(str "type", str "middle"), (str "scope", str "vowel")]
    let entries := [null, map [(str "find", str "a"), (str "replace", str "A"), (str "rules", list [
      map [(str "matches", list [middle]), (str "replace", str "B")],
      map [(str "matches", list []), (str "replace", str "D")],
      map [(str "matches", list [edge]), (str "replace", str "C")]])]]
    let kept : RuleTable := [⟨"a", "A", [⟨[⟨.before, .exact, false, none⟩], "B"⟩,
      ⟨[⟨.after, .exact, true, none⟩], "D"⟩,
      ⟨[⟨.before, .letter .punctuation, false, none⟩], "C"⟩]⟩]
    ∃ table, (ofDocument (.list entries)).value = .ok table ∧ Picks Rule.Keeps entries kept ∧
      table ≠ kept ∧ (∀ t, table.toBengali t = kept.toBengali t) ∧
        kept.toBengali "ba a" = "bA C" := by
  intro edge middle entries kept
  have hread : (ofDocument (.list entries)).value =
      .ok [⟨"a", "A", [⟨[⟨.before, .letter .punctuation, false, none⟩], "C"⟩]⟩] := rfl
  have hnull : ∀ r, ¬ Rule.Keeps null r := by
    rintro r ⟨find, replace, items, hform, -⟩
    cases hform
  have hkept : Picks Rule.Keeps entries kept := by
    refine .skip hnull (.take ?_ .nil)
    refine ⟨"a", "A", _, .mapping rfl (by decide) rfl (.inr rfl), rfl, rfl, ?_⟩
    refine .cons (.refused rfl ?_) (.cons (.refused rfl ?_) (.cons (.read rfl) .nil))
    · exact ⟨_, List.mem_singleton_self _, rfl, .inl rfl⟩
    · exact ⟨_, List.mem_singleton_self _, rfl, .inl rfl⟩
  refine ⟨_, hread, hkept, by decide, ?_, by decide +kernel⟩
  exact (toBengali_keeping entries).2.2 _ kept hread hkept

end RuleTable
end PhoneticBengali
