/-
# Documents on one line

A document that is written on one line has no character below `U+0020` in its text
(`Json.isOneLine_encode`), whatever is in its texts and keys: those in strings are escaped,
and no other part of the form has any.
-/

import PhoneticBengali.Proofs.Json.Numbers

namespace PhoneticBengali

/-! ### Texts on one line -/

/-- No control character is in a text, so no line feed either. -/
def Text.IsOneLine (t : Text) : Prop :=
  ∀ c ∈ t, 0x20 ≤ c.toNat

instance : DecidablePred Text.IsOneLine := fun t =>
  List.decidableBAll _ t

namespace Text.IsOneLine

variable {t u : Text}

/-- A line feed is a control character. -/
theorem newline_not_mem (h : t.IsOneLine) : ('\n' : CodePoint) ∉ t :=
  fun hmem => absurd (h _ hmem) (by decide)

/-- The empty text is on one line. -/
theorem nil : IsOneLine [] :=
  nofun

/-- A text on one line stays on it with another character in front. -/
theorem cons {c : CodePoint} (hc : 0x20 ≤ c.toNat) (h : t.IsOneLine) : IsOneLine (c :: t) :=
  List.forall_mem_cons.2 ⟨hc, h⟩

/-- Two texts on one line are on one line together. -/
theorem append (ht : t.IsOneLine) (hu : u.IsOneLine) : IsOneLine (t ++ u) :=
  List.forall_mem_append.2 ⟨ht, hu⟩

/-- Texts on one line are on one line with such a text between them. -/
theorem intercalate (ht : t.IsOneLine) {ts : List Text} (h : ∀ u ∈ ts, u.IsOneLine) :
    IsOneLine (t.intercalate ts) := by
  induction ts with
  | nil => exact nil
  | cons u ts ih =>
    obtain ⟨hu, hts⟩ := List.forall_mem_cons.1 h
    cases ts with
    | nil => rwa [List.intercalate_singleton]
    | cons v ts =>
      rw [List.intercalate_cons_cons]
      exact (hu.append ht).append (ih hts)

/-- Decimal digits are on one line. -/
theorem map_digit {ds : List Nat} (h : ∀ d ∈ ds, d < 10) : IsOneLine (ds.map Numeral.digit) := by
  have hdigit : ∀ d < 10, 0x20 ≤ (Numeral.digit d).toNat := by decide
  intro c hc
  obtain ⟨d, hd, rfl⟩ := List.mem_map.1 hc
  exact hdigit d (h d hd)

/-- Hexadecimal digits are on one line. -/
theorem hexDigits (width n : Nat) : IsOneLine (Text.hexDigits width n) := by
  have hdigit : ∀ d < 16, 0x20 ≤ (Text.hexDigit d).toNat := by decide
  induction width generalizing n with
  | zero => exact nil
  | succ width ih => exact (ih (n / 16)).append (cons (hdigit _ (Nat.mod_lt n (by decide))) nil)

end Text.IsOneLine

namespace Json

open Text.IsOneLine

/-! ### Parts of a document -/

/-- Control characters are escaped. -/
theorem isOneLine_escapeChar (c : CodePoint) : (escapeChar c).IsOneLine := by
  have hletter : ∀ l, escapeLetter? c = some l → 0x20 ≤ l.toNat := by
    intro l hl
    unfold escapeLetter? at hl
    split at hl
    · rename_i hc
      obtain rfl := Option.some.inj hl
      obtain rfl | rfl := hc <;> decide
    repeat' split at hl
    all_goals cases hl <;> decide
  unfold escapeChar
  split
  · rename_i l hl
    exact cons (by decide) (cons (hletter l hl) nil)
  · split
    · exact append (cons (by decide) (cons (by decide) nil)) (hexDigits 4 _)
    · exact cons (by omega) nil

/-- A string is on one line. -/
theorem isOneLine_string (t : Text) : (string t).IsOneLine := by
  have hquote : Text.IsOneLine "\"" := by decide
  refine append (append hquote fun c hc => ?_) hquote
  obtain ⟨d, -, hd⟩ := List.mem_flatMap.1 hc
  exact isOneLine_escapeChar d c hd

/-- A natural number is on one line. -/
theorem isOneLine_ofNat (n : Nat) : (Numeral.ofNat n).IsOneLine := by
  obtain ⟨ds, hds, hwhole, -⟩ := Numeral.ofNat_eq n
  rw [hds]
  exact map_digit hwhole.digits

/-- An integer is on one line. -/
theorem isOneLine_ofInt (n : Int) : (Numeral.ofInt n).IsOneLine := by
  cases n with
  | ofNat n => exact isOneLine_ofNat n
  | negSucc n => exact cons (by decide) (isOneLine_ofNat (n + 1))

/-- An exponent is on one line. -/
theorem isOneLine_exponentText (e : Int) : (Decimal.exponentText e).IsOneLine := by
  obtain ⟨ds, hds, hlt, -⟩ := Decimal.exponentText_eq e
  have hsign : 0x20 ≤ (if e < 0 then ('-' : CodePoint) else '+').toNat := by
    split <;> decide
  rw [hds]
  exact cons (by decide) (cons hsign (map_digit hlt))

/-- The spelling of a floating-point number is on one line. -/
theorem isOneLine_spelling {s : Decimal.Spelling} (hs : s.IsFloat) : s.text.IsOneLine := by
  refine append (map_digit hs.whole.digits) (append ?_ ?_)
  · split
    · exact nil
    · exact cons (by decide) (map_digit hs.part)
  · cases s.exponent with
    | none => exact nil
    | some e => exact isOneLine_exponentText e

/-- A floating-point number with its sign is on one line. -/
theorem isOneLine_float (x : Binary64) : (float x).IsOneLine := by
  cases x with
  | undefined => decide
  | signed negative size =>
    have hsize : Text.IsOneLine (if size = .infinity then "Infinity" else size.shortest.text) := by
      split
      · decide
      · obtain ⟨s, hs, htext, -⟩ := size.shortest.exists_spelling
        rw [htext]
        exact isOneLine_spelling hs
    cases negative with
    | true => exact cons (by decide) hsize
    | false => exact hsize

/-! ### Documents -/

/-- Parts on one line are on one line between brackets. -/
theorem isOneLine_enclose {opening closing : CodePoint} (depth : Nat)
    (hopening : 0x20 ≤ opening.toNat) (hclosing : 0x20 ≤ closing.toNat) {parts : List Text}
    (h : ∀ t ∈ parts, t.IsOneLine) :
    (enclose .line depth opening closing parts).IsOneLine := by
  have hseparator : (Layout.separator .line (depth + 1)).IsOneLine :=
    show Text.IsOneLine ", " by decide
  rw [enclose]
  split
  · exact cons hopening (cons hclosing nil)
  · exact append (append (append (cons hopening nil) (intercalate hseparator h)) nil)
      (cons hclosing nil)

mutual

/-- A document has one line. -/
theorem isOneLine_write (depth : Nat) : ∀ d, (write .line depth d).IsOneLine
  | .null => by rw [write]; decide
  | .bool b => by cases b <;> rw [write] <;> decide
  | .int n => isOneLine_ofInt n
  | .float x => isOneLine_float x
  | .str s => isOneLine_string s
  | .bytes _ | .time _ | .set _ => nil
  | .pair x y =>
    isOneLine_enclose depth (by decide) (by decide) (List.forall_mem_cons.2
      ⟨isOneLine_write (depth + 1) x, List.forall_mem_singleton.2 (isOneLine_write (depth + 1) y)⟩)
  | .list items =>
    isOneLine_enclose depth (by decide) (by decide) (isOneLine_writeItems (depth + 1) items)
  | .map entries =>
    isOneLine_enclose depth (by decide) (by decide) (isOneLine_writeEntries (depth + 1) entries)

/-- The items of a list have one line each. -/
theorem isOneLine_writeItems (depth : Nat) :
    ∀ items, ∀ t ∈ writeItems .line depth items, t.IsOneLine
  | [] => nofun
  | d :: rest => List.forall_mem_cons.2
      ⟨isOneLine_write depth d, isOneLine_writeItems depth rest⟩

/-- The entries of a mapping have one line each. -/
theorem isOneLine_writeEntries (depth : Nat) :
    ∀ entries, ∀ t ∈ writeEntries .line depth entries, t.IsOneLine
  | [] => nofun
  | (k, v) :: rest => List.forall_mem_cons.2
      ⟨((isOneLine_string (key k)).append (by decide)).append (isOneLine_write depth v),
        isOneLine_writeEntries depth rest⟩

end

/-- **A document is written on one line.** -/
theorem isOneLine_encode (d : Document) : (encode .line d).IsOneLine :=
  isOneLine_write 0 d

end Json
end PhoneticBengali
