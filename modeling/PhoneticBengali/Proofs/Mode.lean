/-
# The spellings of a mode

The name of a mode is looked up in lower case, and lowering knows all characters.  What
it leads to ASCII from beyond is

| character | in lower case |
| --- | --- |
| `U+212A`, the Kelvin sign | `k` |
| `U+0130` | `i` and a dot above, which is beyond ASCII |

No name has a `k`, so none is spelled with a character beyond ASCII.  A mode therefore
has the spellings of its names with ASCII letters in any case, and no others; all of them
do the same.  Whatever spells no mode leaves a text as it is, and a warning shows it
(`Tables.transliterate_spelled`).  What holds an integer that is too long cannot be shown,
so nothing is transliterated then (`Tables.transliterate_long`).
-/

import PhoneticBengali.Mode
import PhoneticBengali.Proofs.Characters

namespace PhoneticBengali

/-! ### Lowering and ASCII -/

/-- A code point with ASCII capitals lowered. -/
def CodePoint.toLower : CodePoint → CodePoint
  | .scalar c => .scalar c.toLower
  | .surrogate n => .surrogate n

/-- On ASCII, lowering is that of the capitals. -/
theorem lowerChar_ascii {c : CodePoint} (hc : c.toNat < 128) : lowerChar c = [c.toLower] :=
  forall_ascii (p := fun c => lowerChar c = [c.toLower]) (by decide +kernel) hc

/-- Beyond ASCII there are no capitals of ASCII. -/
theorem toLower_of_foreign {c : CodePoint} (hc : 128 ≤ c.toNat) : c.toLower = c := by
  cases c with
  | surrogate n => rfl
  | scalar c =>
    refine congrArg CodePoint.scalar (dif_neg fun hupper => ?_)
    have hlast : c.toNat ≤ 'Z'.toNat := UInt32.le_iff_toNat_le.1 hupper.2
    exact absurd (hlast.trans_lt (by decide)) (Nat.not_lt.2 hc)

/-- The ranges that lead to ASCII begin there, but for the one of the Kelvin sign. -/
theorem lowerRanges_foreign : ∀ r ∈ lowerRanges,
    r.last < 128 ∨ 128 ≤ r.image ∨ r.image = 'k'.toNat ∧ r.last = r.first := by
  decide +kernel

/-- A character beyond ASCII is lowered to `k` or to something beyond ASCII. -/
theorem exists_mem_lowerChar {c : CodePoint} (hc : 128 ≤ c.toNat) :
    ∃ d ∈ lowerChar c, d.toNat = 0 ∨ d = 'k' ∨ 128 ≤ d.toNat := by
  by_cases hdotted : c = '\u0130'
  · subst hdotted
    exact ⟨'\u0307', by decide, by decide⟩
  · obtain ⟨l, hl⟩ : ∃ l, lowerChar c = [l] := by
      rw [lowerChar, if_neg hdotted]
      exact ⟨_, rfl⟩
    refine ⟨l, hl ▸ List.mem_singleton_self l, ?_⟩
    rcases lowerChar_cases hl with rfl | hzero | ⟨r, hr, himage⟩
    · exact .inr (.inr hc)
    · exact .inl hzero
    · have hreaches := CaseRange.reaches_of_image? himage
      rw [CaseRange.image?] at himage
      split at himage
      · rename_i hrange
        rw [CaseRange.Reaches] at hreaches
        rcases lowerRanges_foreign r hr with hlast | himage | ⟨hkelvin, hsingle⟩
        · omega
        · exact .inr (.inr (by omega))
        · have hcode : ('k' : CodePoint).toNat = 'k'.toNat := rfl
          exact .inr (.inl (CodePoint.toNat_inj.1 (by omega)))
      · cases himage

/-- A text of ASCII characters without `k`: nothing but ASCII is lowered to it. -/
def IsNative (x : Text) : Prop :=
  ∀ d ∈ x, d.toNat ≠ 0 ∧ d ≠ 'k' ∧ d.toNat < 128

instance : DecidablePred IsNative := fun x =>
  List.decidableBAll _ x

/-- What is lowered into such a text, or is one of its letters in capitals, is ASCII. -/
theorem lowerChar_of_isNative {x : Text} (hx : IsNative x) {c : CodePoint}
    (h : lowerChar c ⊆ x ∨ c.toLower ∈ x) : lowerChar c = [c.toLower] := by
  refine lowerChar_ascii (Nat.lt_of_not_le fun hc => ?_)
  rcases h with hsub | hmem
  · obtain ⟨d, hd, hforeign⟩ := exists_mem_lowerChar hc
    obtain ⟨hzero, hk, hascii⟩ := hx d (hsub hd)
    rcases hforeign with h | h | h
    · exact hzero h
    · exact hk h
    · omega
  · rw [toLower_of_foreign hc] at hmem
    exact absurd (hx c hmem).2.2 (Nat.not_lt.2 hc)

/-- **What is lowered to such a text** is what it is spelled with in capitals. -/
theorem lowerCase_eq_iff {x : Text} (hx : IsNative x) (t : Text) :
    lowerCase t = x ↔ t.map CodePoint.toLower = x := by
  have hmap (h : ∀ c ∈ t, lowerChar c ⊆ x ∨ c.toLower ∈ x) :
      lowerCase t = t.map CodePoint.toLower := by
    rw [lowerCase, List.flatMap_congr fun c hc => lowerChar_of_isNative hx (h c hc),
      List.map_eq_flatMap]
  constructor
  · rintro rfl
    exact (hmap fun c hc => .inl fun d hd => List.mem_flatMap.2 ⟨c, hc, hd⟩).symm
  · rintro rfl
    exact hmap fun c hc => .inr (List.mem_map_of_mem hc)

/-! ### Names -/

namespace Mode

/-- No name has a `k`. -/
theorem isNative_of_mem_names : ∀ p ∈ names, IsNative p.1 := by
  decide

/-- The names, listed. -/
theorem names_eq : names = ([("forward", bengali), ("reverse", roman), ("avro", bengali),
    ("orva", roman), ("banglish", banglish), ("lishbang", lishbang)] : List (Text × Mode)) :=
  rfl

/-- No two names are alike, so each is found. -/
theorem lookup_names_iff {t : Text} {m : Mode} : names.lookup t = some m ↔ (t, m) ∈ names := by
  rw [List.lookup_eq_some_iff]
  constructor
  · rintro ⟨before, after, hnames, -⟩
    exact hnames ▸ List.mem_append_right _ (List.mem_cons_self ..)
  · intro hmem
    obtain ⟨before, after, hnames⟩ := List.append_of_mem hmem
    refine ⟨before, after, hnames, fun p hp => bne_iff_ne.2 fun heq => ?_⟩
    have hdistinct : (names.map (·.1)).Nodup := by decide
    rw [hnames, List.map_append, List.nodup_append] at hdistinct
    exact hdistinct.2.2 _ (List.mem_map_of_mem hp) _ (List.mem_cons_self ..) heq.symm

/-- **The spellings of a mode** are its names with ASCII letters in any case. -/
theorem ofName?_eq_some_iff {t : Text} {m : Mode} :
    ofName? t = some m ↔ (t.map CodePoint.toLower, m) ∈ names := by
  rw [ofName?, lookup_names_iff]
  constructor
  · intro h
    have hcase := (lowerCase_eq_iff (isNative_of_mem_names _ h) t).1 rfl
    rwa [hcase]
  · intro h
    have hcase := (lowerCase_eq_iff (isNative_of_mem_names _ h) t).2 rfl
    rwa [hcase]

end Mode

namespace Tables

/-- **Modes are told by their names alone.**  A text names a mode exactly if, its ASCII
capitals lowered, it is one of the mode's names, and what is no text names none.  All
spellings of a mode do the same to every text, and never fail.  What names no mode leaves
a text as it is, and a warning shows it; only what cannot be shown is a fault. -/
theorem transliterate_spelled (tables : Tables) :
    (∀ (s : Text) (m : Mode), Mode.ofDocument? (.str s) = some m ↔
      (s.map CodePoint.toLower, m) ∈ ([("forward", .bengali), ("reverse", .roman),
        ("avro", .bengali), ("orva", .roman), ("banglish", .banglish),
        ("lishbang", .lishbang)] : List (Text × Mode))) ∧
    (∀ d : Document, (∀ s, d ≠ .str s) → Mode.ofDocument? d = none) ∧
    (∀ (d d' : Document) (m : Mode), Mode.ofDocument? d = some m → Mode.ofDocument? d' = some m →
      ∀ t, tables.transliterate d t = tables.transliterate d' t ∧
        ∃ u, (tables.transliterate d t).value = .ok u) ∧
    ∀ d : Document, Mode.ofDocument? d = none → ∀ t, tables.transliterate d t =
      if d.holdsLong then .fail .tooLong else ⟨.ok t, [Mode.unsupported d.inline]⟩ := by
  refine ⟨fun s m => ?_, fun d hd => ?_, fun d d' m hd hd' t => ⟨?_, ?_⟩, fun d hd t => ?_⟩
  · rw [Mode.ofDocument?, Mode.ofName?_eq_some_iff, Mode.names_eq]
  · cases d with
    | str s => exact absurd rfl (hd s)
    | _ => rfl
  · rw [transliterate, transliterate, hd, hd']
  · rw [transliterate, hd]
    exact ⟨_, rfl⟩
  · rw [transliterate, hd]
    dsimp only
    rw [Document.shown]
    cases d.holdsLong <;> rfl

/-- `AVRO` and `Forward` are one mode; `L\u0130SHBANG`, with the dotted capital, is none and leaves
the text. -/
theorem transliterate_spelled_avro_forward :
    let tables : Tables := {}
    let dotted : Document := .str "L\u0130SHBANG"
    Mode.ofDocument? (.str "AVRO") = some .bengali ∧
      Mode.ofDocument? (.str "Forward") = some .bengali ∧ Mode.ofDocument? dotted = none ∧
      tables.transliterate (.str "AVRO") "ka" = tables.transliterate (.str "Forward") "ka" ∧
      tables.transliterate dotted "ka" = ⟨.ok "ka", [Mode.unsupported dotted.inline]⟩ := by
  intro tables dotted
  have hupper : Mode.ofDocument? (.str "AVRO") = some .bengali := by decide +kernel
  have halias : Mode.ofDocument? (.str "Forward") = some .bengali := by decide +kernel
  have hdotted : Mode.ofDocument? dotted = none := by decide +kernel
  obtain ⟨-, -, hsame, hnone⟩ := transliterate_spelled tables
  exact ⟨hupper, halias, hdotted, (hsame _ _ _ hupper halias _).1, hnone _ hdotted _⟩

/-- An integer that cannot be shown names no mode, but does not leave the text either. -/
theorem transliterate_long :
    Mode.ofDocument? (.int Numeral.leastLong) = none ∧
      (({} : Tables).transliterate (.int Numeral.leastLong) "ka").value = .error .tooLong := by
  refine ⟨rfl, ?_⟩
  rw [transliterate, Document.shown, Document.holdsLong, Numeral.isLong_leastLong]
  rfl

end Tables
end PhoneticBengali
