/-
# Texts

A text is the list of its code points.  Every length, offset and cut in this
library counts code points.

| code point | is |
| --- | --- |
| `scalar c` | the character `c` |
| `surrogate n` | the half `0xD800 + n` of a surrogate pair, standing alone |

A text may hold such halves: an escape can spell one, and a word of a command line
holds one for every octet that is no part of a character.  They have no form in
UTF-8.

A character stands for its code point and a string for its text.
-/

namespace PhoneticBengali

/-- A character, or half of a surrogate pair that stands alone. -/
inductive CodePoint where
  | scalar (c : Char)
  | surrogate (n : Fin 0x800)
deriving DecidableEq, Repr, Inhabited

namespace CodePoint

instance : Coe Char CodePoint :=
  ⟨scalar⟩

/-- The number of a code point. -/
def toNat : CodePoint → Nat
  | scalar c => c.toNat
  | surrogate n => 0xD800 + n

/-- The code point of a number, that of zero if there is none. -/
def ofNat (n : Nat) : CodePoint :=
  if h : 0xD800 ≤ n ∧ n < 0xE000 then surrogate ⟨n - 0xD800, by omega⟩ else scalar (Char.ofNat n)

/-- Whether a code point is half of a surrogate pair. -/
def isSurrogate : CodePoint → Bool
  | scalar _ => false
  | surrogate _ => true

/-- Whether a code point is a decimal digit of ASCII. -/
def isDigit : CodePoint → Bool
  | scalar c => c.isDigit
  | surrogate _ => false

/-- Whether a code point is a letter or a digit of ASCII. -/
def isAlphanum : CodePoint → Bool
  | scalar c => c.isAlphanum
  | surrogate _ => false

instance : LT CodePoint :=
  ⟨fun a b => a.toNat < b.toNat⟩

instance : LE CodePoint :=
  ⟨fun a b => a.toNat ≤ b.toNat⟩

instance : DecidableLT CodePoint :=
  fun a b => inferInstanceAs (Decidable (a.toNat < b.toNat))

instance : DecidableLE CodePoint :=
  fun a b => inferInstanceAs (Decidable (a.toNat ≤ b.toNat))

/-- The number of a character is its own. -/
@[simp]
theorem toNat_scalar (c : Char) : (scalar c).toNat = c.toNat :=
  rfl

/-- The halves of pairs are numbered from `0xD800` on. -/
@[simp]
theorem toNat_surrogate (n : Fin 0x800) : (surrogate n).toNat = 0xD800 + n :=
  rfl

/-- A code point is known by its number. -/
theorem toNat_inj {a b : CodePoint} : a.toNat = b.toNat ↔ a = b := by
  refine ⟨fun h => ?_, fun h => h ▸ rfl⟩
  cases a with
  | scalar c =>
    cases b with
    | scalar d => exact congrArg scalar (Char.toNat_inj.mp h)
    | surrogate n =>
      have := c.valid
      simp only [toNat, Char.toNat, UInt32.isValidChar, Nat.isValidChar] at h this
      omega
  | surrogate m =>
    cases b with
    | scalar d =>
      have := d.valid
      simp only [toNat, Char.toNat, UInt32.isValidChar, Nat.isValidChar] at h this
      omega
    | surrogate n => exact congrArg surrogate (Fin.ext (by simpa [toNat] using h))

/-- Every number below `0x110000` is that of a code point. -/
theorem toNat_ofNat {n : Nat} (h : n < 0x110000) : (ofNat n).toNat = n := by
  unfold ofNat
  split
  · simp only [toNat]
    omega
  · have valid : n.isValidChar := by simp only [Nat.isValidChar]; omega
    rw [toNat_scalar, Char.ofNat, dif_pos valid]
    rfl

/-- A code point comes back from its number. -/
@[simp]
theorem ofNat_toNat (c : CodePoint) : ofNat c.toNat = c := by
  cases c with
  | scalar c =>
    have := c.valid
    simp only [UInt32.isValidChar, Nat.isValidChar] at this
    rw [ofNat, dif_neg (by simp only [toNat, Char.toNat]; omega)]
    exact congrArg scalar (Char.ofNat_toNat c)
  | surrogate n =>
    rw [ofNat, dif_pos (by simp only [toNat]; omega)]
    simp [toNat]

end CodePoint

/-- A sequence of code points. -/
abbrev Text := List CodePoint

namespace Text

/-- The text of a string. -/
def ofString (s : String) : Text :=
  s.toList.map .scalar

instance : Coe String Text :=
  ⟨ofString⟩

end Text
end PhoneticBengali
