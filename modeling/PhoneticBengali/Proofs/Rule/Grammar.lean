/-
# What the grammar lets through

Whatever the entries of a list are, the rules that are read from it are well-formed
(`RuleTable.isWellFormed_filterMap_accepted?`):

| part | has |
| --- | --- |
| rule | a literal that is not empty and well-formed alternatives |
| alternative | one well-formed condition or more |
| condition | one of the four scopes, with a literal that is not empty for `exact` only |

So no pass over a text, forward or back, stands still, and no scan runs out of the
passes it is granted (`RuleTable.ofDocument_list_safe`).
-/

import PhoneticBengali.Proofs.Passes
import PhoneticBengali.Proofs.Rule.Description

namespace PhoneticBengali

namespace Condition

/-- A condition of one of the four scopes, with a literal exactly if the scope asks
for one. -/
def IsWellFormed (k : Condition) : Prop :=
  match k.scope with
  | .exact => ∃ l, l ≠ [] ∧ k.literal = some l
  | .letter _ => k.literal = none
  | .other _ => False

/-- A condition that is described is well-formed. -/
theorem Describes.isWellFormed {raw : Document} {k : Condition} (h : Describes raw k) :
    k.IsWellFormed := by
  cases h with
  | mapping scope_mem _ _ _ hliteral =>
    obtain ⟨side, scope, negate, literal⟩ := k
    cases scope with
    | letter k => exact hliteral
    | exact =>
      obtain ⟨s, hfilled, -, hs⟩ := hliteral
      exact ⟨s, hfilled, hs⟩
    | other name => simp [Scope.named] at scope_mem

/-- The conditions that a list describes are well-formed. -/
theorem isWellFormed_of_describes {items : List Document} {conditions : List Condition}
    (each : List.Forall₂ Describes items conditions) : ∀ k ∈ conditions, k.IsWellFormed := by
  induction each with
  | nil => exact List.forall_mem_nil _
  | cons h _ ih => exact List.forall_mem_cons.2 ⟨h.isWellFormed, ih⟩

end Condition

namespace Alternative

/-- A well-formed condition or more. -/
structure IsWellFormed (a : Alternative) : Prop where
  conditions_ne_nil : a.conditions ≠ []
  conditions : ∀ k ∈ a.conditions, k.IsWellFormed

/-- An alternative that is described is well-formed. -/
theorem Describes.isWellFormed {raw : Document} {a : Alternative} (h : Describes raw a) :
    a.IsWellFormed := by
  cases h with
  | @mapping _ _ _ conditions _ _ matches_ne_nil each =>
    refine ⟨fun hnil => matches_ne_nil ?_, Condition.isWellFormed_of_describes each⟩
    obtain rfl : conditions = [] := hnil
    exact List.forall₂_nil_right_iff.1 each

end Alternative

namespace Rule

/-- A literal and well-formed alternatives. -/
structure IsWellFormed (r : Rule) : Prop where
  find_ne_nil : r.find ≠ []
  alternatives : ∀ a ∈ r.alternatives, a.IsWellFormed

/-- A rule that is read is well-formed. -/
theorem isWellFormed_of_ofDocument {raw : Document} {r : Rule}
    (h : (ofDocument raw).value = .ok (some r)) : r.IsWellFormed := by
  obtain ⟨find, replace, items, hform, rfl⟩ := value_ofDocument_eq_some_iff.1 h
  cases hform with
  | mapping _ find_ne _ _ =>
    refine ⟨find_ne, fun a ha => ?_⟩
    obtain ⟨raw, -, hraw⟩ := List.mem_filterMap.1 ha
    exact (Alternative.describes_of_ofDocument (Except.toOption_eq_some_iff.1 hraw)).isWellFormed

end Rule

namespace RuleTable

/-- Well-formed rules. -/
def IsWellFormed (table : RuleTable) : Prop :=
  ∀ r ∈ table, r.IsWellFormed

/-- What the entries of a list add to a table is well-formed. -/
theorem isWellFormed_filterMap_accepted? (entries : List Document) :
    IsWellFormed (entries.filterMap accepted?) := by
  intro r hr
  obtain ⟨raw, -, hraw⟩ := List.mem_filterMap.1 hr
  exact Rule.isWellFormed_of_ofDocument (accepted?_eq_some_iff.1 hraw)

open Document in
/-- Of three entries and two alternatives one rule with one alternative remains. -/
example :
    (ofEntries [null, map [(str "find", str ""), (str "replace", str "ক")],
      map [(str "find", str "k"), (str "replace", str "ক"), (str "rules", list [null,
        map [(str "replace", str "খ"), (str "matches", list [map [(str "type", str "prefix"),
          (str "scope", str "!exact"), (str "value", str "a")]])]])]]).value =
      .ok [⟨"k", "ক", [⟨[⟨.before, .exact, true, some "a"⟩], "খ"⟩]⟩] := by
  decide

/-- **What a list is read to is safe.**  A list is read, unless one of its entries is no rule
and cannot be shown, and then its rules are well-formed.  So a forward pass over any text
takes at least one character and none beyond the end, the text is done after as many passes
as it has characters at the latest, and the way back never breaks off. -/
theorem ofDocument_list_safe (entries : List Document) :
    (∃ raw ∈ entries, Rule.IsUnshowable raw) ∧
        (ofDocument (.list entries)).value = .error (.unshowable .tooLong) ∨
      (∀ raw ∈ entries, ¬ Rule.IsUnshowable raw) ∧
        ∃ table, (ofDocument (.list entries)).value = .ok table ∧ table.IsWellFormed ∧
          ∀ t : Text,
            (∀ cursor < (fixCase t).length, cursor < (table.pass (fixCase t) cursor).2 ∧
              (table.pass (fixCase t) cursor).2 ≤ (fixCase t).length) ∧
            (∃ outputs, table.Passes (fixCase t) 0 outputs ∧ outputs.length ≤ t.length ∧
              table.toBengali t = outputs.flatten) ∧
            (table.reverse.scanReverse t).truncated = false ∧
            (table.reverse.scanReverse t).iterations ≤ t.length := by
  refine (value_ofDocument_list entries).imp_right fun ⟨hshown, hvalue⟩ => ⟨hshown, ?_⟩
  have hformed := isWellFormed_filterMap_accepted? entries
  have hfinds : ∀ r ∈ entries.filterMap accepted?, r.find ≠ [] :=
    fun r hr => (hformed r hr).find_ne_nil
  refine ⟨_, hvalue, hformed, fun t => ⟨fun cursor hcursor => ?_, ?_, ?_⟩⟩
  · exact ⟨lt_pass hfinds (fixCase t) cursor, pass_le hcursor⟩
  · exact exists_passes hfinds t
  · exact scanReverse_reverse _ t

/-- A list of one integer of too many digits is no table without rules. -/
theorem ofDocument_list_long :
    (ofDocument (.list [.int Numeral.leastLong])).value = .error (.unshowable .tooLong) := by
  have hunshowable : Rule.IsUnshowable (.int Numeral.leastLong) := by
    refine ⟨?_, Numeral.isLong_leastLong⟩
    rintro find replace items ⟨⟩
  rcases value_ofDocument_list [.int Numeral.leastLong] with ⟨-, h⟩ | ⟨hnone, -⟩
  · exact h
  · exact absurd hunshowable (hnone _ (List.mem_singleton_self _))

end RuleTable
end PhoneticBengali
