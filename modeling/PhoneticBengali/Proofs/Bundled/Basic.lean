/-
# The bundled rules and their surroundings

No literal of the bundled rules is empty, and their exact conditions ask for single
characters, eight in all.  So a rule tells surroundings apart by the nearest
characters, and those by class unless they are among the eight.  `sample` keeps no
more of a text than that:

| nearest character | sample |
| --- | --- |
| one of the eight | itself |
| another vowel | `e` |
| another consonant | `k` |
| other punctuation, or none | a blank |

A rule puts out the same between two texts as between their samples
(`output_sample`), which leaves 11 surroundings to look at on each side.
-/

import PhoneticBengali.Bundled
import PhoneticBengali.Proofs.Surroundings

namespace PhoneticBengali
namespace Bundled

/-- No literal of the bundled rules is empty. -/
theorem find_ne_nil : ∀ r ∈ table, r.find ≠ [] := by
  decide +kernel

/-- The literals of the bundled rules consist of ASCII characters. -/
theorem find_ascii : ∀ r ∈ table, (r.find.all (·.toNat < 0x80)) = true := by
  decide +kernel

/-- The characters that exact conditions of the bundled rules ask for. -/
def marked : Text :=
  ['r', 'y', 'w', 'x', 'Z', 'o', 'a', '\x60']

/-- The exact conditions of the bundled rules ask for just these. -/
theorem exactLiterals_marked : ∀ l ∈ table.exactLiterals, l ∈ marked.map ([·]) := by
  decide +kernel

/-- A text of one character that no bundled rule tells from `t` beside a match. -/
def sample : Text → Text
  | [] => [' ']
  | c :: _ =>
    if c ∈ marked then [c]
    else match LetterClass.of c with
      | .vowel => ['e']
      | .consonant => ['k']
      | .punctuation => [' ']

/-- The sample of a text is that of its beginning. -/
theorem sample_append {x : Text} (hx : x ≠ []) (t : Text) : sample (x ++ t) = sample x := by
  obtain ⟨c, x, rfl⟩ := List.exists_cons_of_ne_nil hx
  rfl

/-- Nearest characters of one class that no exact condition asks for look alike. -/
theorem alike_of_unmarked {x y : Text}
    (hclass : LetterClass.ofNeighbour x = LetterClass.ofNeighbour y)
    (hx : ∀ c ∈ x.head?, c ∉ marked) (hy : ∀ c ∈ y.head?, c ∉ marked) : table.Alike x y := by
  refine ⟨hclass, fun c hc => ?_⟩
  have hmarked : c ∈ marked := by simpa using exactLiterals_marked [c] hc
  exact ⟨fun h => absurd hmarked (hx c h), fun h => absurd hmarked (hy c h)⟩

/-- No bundled rule tells a text from its sample. -/
theorem alike_sample (t : Text) : table.Alike t (sample t) := by
  have hsingle : ∀ c, c ∉ marked → ∀ d ∈ [c].head?, d ∉ marked := by simp
  cases t with
  | nil => exact alike_of_unmarked (by decide) (by simp) (hsingle ' ' (by decide))
  | cons d t =>
    rw [sample]
    split
    · exact ⟨rfl, fun c _ => Iff.rfl⟩
    · rename_i hd
      have hdt : ∀ c ∈ (d :: t).head?, c ∉ marked := by simpa using hd
      have hclass : LetterClass.ofNeighbour (d :: t) = LetterClass.of d := rfl
      split
      · rename_i h
        exact alike_of_unmarked (hclass.trans (h.trans (by decide))) hdt (hsingle 'e' (by decide))
      · rename_i h
        exact alike_of_unmarked (hclass.trans (h.trans (by decide))) hdt (hsingle 'k' (by decide))
      · rename_i h
        exact alike_of_unmarked (hclass.trans (h.trans (by decide))) hdt (hsingle ' ' (by decide))

/-- The 11 samples. -/
def samples : List Text :=
  ([['e'], ['k'], [' ']] : List Text) ++ marked.map ([·])

/-- The sample of a text is one of the 11. -/
theorem sample_mem_samples (t : Text) : sample t ∈ samples := by
  cases t with
  | nil => decide
  | cons c t =>
    rw [sample]
    split
    · rename_i hc
      exact List.mem_append_right _ (List.mem_map_of_mem hc)
    · split <;> decide

/-- **A rule puts out what it puts out between samples.** -/
theorem output_sample {r : Rule} (hr : r ∈ table) (left right : Text) :
    r.output left right = r.output (sample left) (sample right) := by
  refine RuleTable.output_eq_of_alike (fun l hl => ?_) hr (alike_sample left) (alike_sample right)
  obtain ⟨c, -, rfl⟩ := List.mem_map.1 (exactLiterals_marked l hl)
  rfl

end Bundled
end PhoneticBengali
