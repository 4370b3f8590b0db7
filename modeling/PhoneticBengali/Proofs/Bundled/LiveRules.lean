/-
# The bundled rules are live

The bundled table passes the check of its order (`isValid_checkOrder`), so each of
its rules is the first to match its own literal.  Two literals are not in the case
of the rules:

| literal | is looked up as |
| --- | --- |
| `AZ` | `aZ` |
| `A` and a backtick | `a` and a backtick |

Their own rules do not match them, and the rules for what they are looked up as put
out the same.
-/

import PhoneticBengali.Proofs.Bundled.Basic
import PhoneticBengali.Proofs.DeadRules

namespace PhoneticBengali
namespace Bundled

/-- The bundled rules are in order: none is hidden by an earlier one. -/
theorem isOrdered : table.IsOrdered := by
  have hbehind : table.Pairwise fun r s => (behind? r.find s.find).isSome = false := by
    decide +kernel
  refine hbehind.imp fun {r s} hnone hprefix => ?_
  obtain ⟨y, hy⟩ := hprefix
  rw [behind?_eq_some_iff.2 hy.symm] at hnone
  cases hnone

/-- **The bundled rules pass the check of their order.** -/
theorem isValid_checkOrder : table.checkOrder.isValid = true :=
  (RuleTable.isValid_iff find_ne_nil).2 isOrdered

/-- The literals that are not in the case of the rules. -/
def upperFinds : List Text :=
  [['A', 'Z'], ['A', '\x60']]

/-- The literals that are not in the case of the rules are the two listed. -/
theorem fixCase_find_eq_iff : ∀ r ∈ table, fixCase r.find = r.find ↔ r.find ∉ upperFinds := by
  decide +kernel

/-- The literals listed are converted to the outputs of their rules nonetheless. -/
theorem toBengali_upperFinds :
    ∀ r ∈ table, r.find ∈ upperFinds → table.toBengali r.find = r.replace := by
  decide +kernel

/-- **The rules that the check does not report are live.**  Such a rule is the first
to match its own literal, takes all of it and puts out its default or what one of its
alternatives has, exactly if the literal is in the case of the rules.  So it is with
every bundled rule but two, and these two literals are led to the same outputs by
other rules. -/
theorem applies_to_own_find :
    (∀ (rules : RuleTable) (i : Nat) (r : Rule), (∀ s ∈ rules, s.find ≠ []) →
      rules[i]? = some r → i ∉ rules.checkOrder.indices →
        (rules.Converts i r r.find ↔ fixCase r.find = r.find)) ∧
    table.checkOrder.isValid = true ∧
    ∀ (i : Nat) (r : Rule), table[i]? = some r →
      (table.Converts i r r.find ↔ r.find ∉ upperFinds) ∧
      table.toBengali r.find ∈ r.outputs := by
  refine ⟨fun rules i r hfinds hi hlive => RuleTable.converts_find_iff hfinds hi hlive,
    isValid_checkOrder, fun i r hi => ?_⟩
  have hr := List.mem_of_getElem? hi
  have hlive : i ∉ table.checkOrder.indices := by
    have hvalid := isValid_checkOrder
    simp only [OrderReport.isValid, Bool.and_eq_true, List.isEmpty_iff] at hvalid
    simp [OrderReport.indices, hvalid]
  have hconverts : table.Converts i r r.find ↔ r.find ∉ upperFinds :=
    (RuleTable.converts_find_iff find_ne_nil hi hlive).trans (fixCase_find_eq_iff r hr)
  refine ⟨hconverts, ?_⟩
  by_cases hupper : r.find ∈ upperFinds
  · rw [toBengali_upperFinds r hr hupper]
    exact List.mem_cons_self ..
  · exact (hconverts.2 hupper).output

/-- The hypotheses of `applies_to_own_find` are met by `k` behind `kh`. -/
theorem applies_to_own_find_k :
    let rules : RuleTable := [plain "kh" "খ", plain "k" "ক"]
    (∀ s ∈ rules, s.find ≠ []) ∧ rules[1]? = some (plain "k" "ক") ∧
      1 ∉ rules.checkOrder.indices ∧ rules.Converts 1 (plain "k" "ক") "k" := by
  intro rules
  have hfinds : ∀ s ∈ rules, s.find ≠ [] := by decide +kernel
  have hlive : 1 ∉ rules.checkOrder.indices := by decide +kernel
  refine ⟨hfinds, rfl, hlive, ?_⟩
  exact (applies_to_own_find.1 rules 1 (plain "k" "ক") hfinds rfl hlive).2 (by decide +kernel)

/-- The case of the rules cannot be left out: a rule for `A` alone passes the check,
and `A` is looked up as `a`, which no rule matches. -/
theorem upper_find_not_applied :
    let rules : RuleTable := [plain "A" "আ"]
    (∀ s ∈ rules, s.find ≠ []) ∧ rules[0]? = some (plain "A" "আ") ∧
      0 ∉ rules.checkOrder.indices ∧ rules.toBengali "A" = "a" ∧
      rules.toBengali "A" ∉ (plain "A" "আ").outputs ∧
      ¬ rules.Converts 0 (plain "A" "আ") "A" := by
  intro rules
  have houtput : rules.toBengali "A" ∉ (plain "A" "আ").outputs := by decide +kernel
  exact ⟨by decide +kernel, rfl, by decide +kernel, by decide +kernel, houtput,
    fun h => houtput h.output⟩

end Bundled
end PhoneticBengali
