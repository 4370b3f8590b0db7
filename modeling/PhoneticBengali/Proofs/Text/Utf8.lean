/-
# Reading what was written in UTF-8

The octets of a text are read as that text (`Utf8.decode_encode`).  A character above
`U+007F` is one octet that begins it, and others that hold six bits each.  Whatever its
length, the value read while it is under way is its code without the bits still owed
(`Partial.Begins`), so there is one step for all of them.
-/

import Mathlib.Algebra.Group.Nat.Defs
import Mathlib.Data.List.TakeWhile
import PhoneticBengali.Text.Utf8

namespace PhoneticBengali
namespace Utf8

/-- The octets for the last `count` digits of `n` in base 64. -/
def following (n : Nat) : (count : Nat) → Octets
  | 0 => []
  | count + 1 => UInt8.ofNat (n / 0x40 ^ count % 0x40 + 0x80) :: following n count

/-- The character under way has the code `n`: the first digits of it were read, and the
next one is within the bounds. -/
structure Partial.Begins (p : Partial) (n : Nat) : Prop where
  value : p.value = n / 0x40 ^ p.owed
  low : p.low ≤ n / 0x40 ^ (p.owed - 1) % 0x40 + 0x80
  high : n / 0x40 ^ (p.owed - 1) % 0x40 + 0x80 ≤ p.high

/-- A number below 256 is that of an octet. -/
theorem toNat_ofNat {n : Nat} (h : n < 0x100) : (UInt8.ofNat n).toNat = n := by
  rw [UInt8.toNat_ofNat', Nat.mod_eq_of_lt h]

/-- A digit more in base 64. -/
theorem div_pow_eq (n count : Nat) :
    0x40 * (n / 0x40 ^ (count + 1)) + n / 0x40 ^ count % 0x40 = n / 0x40 ^ count := by
  rw [Nat.pow_succ, ← Nat.div_div_eq_div_mul, Nat.div_add_mod]

/-- One octet of a character under way. -/
theorem read_octet {p : Partial} {n count : Nat} (howed : p.owed = count + 1) (h : p.Begins n)
    (position : Nat) (rest : Octets) :
    let octet := UInt8.ofNat (n / 0x40 ^ count % 0x40 + 0x80)
    let value := n / 0x40 ^ count
    let next : Partial := { octets := octet :: p.octets, owed := count, value }
    read position (some p) (octet :: rest) =
      if count = 0 then
        (read (position + 1) none rest).map fun r => (CodePoint.ofNat value :: r.1, r.2)
      else read (position + 1) (some next) rest := by
  obtain ⟨hvalue, hlow, hhigh⟩ := h
  rw [howed, Nat.add_sub_cancel] at hlow hhigh
  have hdigit : n / 0x40 ^ count % 0x40 < 0x40 := Nat.mod_lt _ (by decide)
  have hoctet := toNat_ofNat (n := n / 0x40 ^ count % 0x40 + 0x80) (by omega)
  have hvalue : 0x40 * p.value + n / 0x40 ^ count % 0x40 = n / 0x40 ^ count := by
    rw [hvalue, howed, div_pow_eq]
  intro octet value next
  rw [read, hoctet, if_pos ⟨hlow, hhigh⟩, howed]
  simp only [Nat.add_sub_cancel, Nat.add_eq_right, hvalue]
  cases read (position + 1) none rest <;> rfl

/-- **The octets that are owed complete the character.** -/
theorem read_following {p : Partial} {n count : Nat} (howed : p.owed = count + 1)
    (h : p.Begins n) (position : Nat) (rest : Octets) :
    read position (some p) (following n (count + 1) ++ rest) =
      (read (position + (count + 1)) none rest).map fun r => (CodePoint.ofNat n :: r.1, r.2) := by
  induction count generalizing p position with
  | zero =>
    rw [following, List.cons_append, read_octet howed h, if_pos rfl, Nat.pow_zero, Nat.div_one]
    rfl
  | succ count ih =>
    rw [following, List.cons_append, read_octet howed h, if_neg (Nat.succ_ne_zero count)]
    have hdigit : n / 0x40 ^ count % 0x40 < 0x40 := Nat.mod_lt _ (by decide)
    refine (ih rfl ⟨rfl, Nat.le_add_left .., ?_⟩ (position + 1)).trans ?_
    · exact Nat.le_of_lt_succ (Nat.add_lt_add_right hdigit 0x80)
    · rw [Nat.add_right_comm, Nat.add_assoc]

/-! ### Octets that begin a character -/

/-- The octet begins the character of code `n`, and `count` others follow. -/
def Leads (b : UInt8) (n count : Nat) : Prop :=
  0x7F < b.toNat ∧ ∃ p, begin? b = some p ∧ p.owed = count ∧ p.Begins n

/-- An octet from `0xC2` on begins two octets. -/
theorem begin?_two : ∀ m < 0x20, 2 ≤ m → begin? (UInt8.ofNat (m + 0xC0)) =
    some { octets := [UInt8.ofNat (m + 0xC0)], owed := 1, value := m } := by
  decide

/-- An octet from `0xE0` on begins three. -/
theorem begin?_three : ∀ m < 0x10, begin? (UInt8.ofNat (m + 0xE0)) =
    some { octets := [UInt8.ofNat (m + 0xE0)], owed := 2, value := m,
           low := if m = 0 then 0xA0 else 0x80, high := if m = 0xD then 0x9F else 0xBF } := by
  decide

/-- An octet from `0xF0` to `0xF4` begins four. -/
theorem begin?_four : ∀ m < 5, begin? (UInt8.ofNat (m + 0xF0)) =
    some { octets := [UInt8.ofNat (m + 0xF0)], owed := 3, value := m,
           low := if m = 0 then 0x90 else 0x80, high := if m = 4 then 0x8F else 0xBF } := by
  decide

/-- The first of two octets leads to the second. -/
theorem leads_two {n : Nat} (h : 0x7F < n) (h' : n ≤ 0x7FF) :
    Leads (UInt8.ofNat (n / 0x40 + 0xC0)) n 1 := by
  rw [Leads, toNat_ofNat (by omega)]
  refine ⟨by omega, _, begin?_two _ (by omega) (by omega), rfl, rfl, ?_, ?_⟩
  · show 0x80 ≤ n / 1 % 0x40 + 0x80
    omega
  · show n / 1 % 0x40 + 0x80 ≤ 0xBF
    omega

/-- No character is a surrogate, so the second octet is small enough after `ED`. -/
theorem leads_three {n : Nat} (h : 0x7FF < n) (h' : n ≤ 0xFFFF)
    (hvalid : n < 0xD800 ∨ 0xDFFF < n) : Leads (UInt8.ofNat (n / 0x1000 + 0xE0)) n 2 := by
  rw [Leads, toNat_ofNat (by omega)]
  refine ⟨by omega, _, begin?_three _ (by omega), rfl, rfl, ?_, ?_⟩
  · show (if n / 0x1000 = 0 then 0xA0 else 0x80) ≤ n / 0x40 % 0x40 + 0x80
    split <;> omega
  · show n / 0x40 % 0x40 + 0x80 ≤ if n / 0x1000 = 0xD then 0x9F else 0xBF
    split <;> omega

/-- The first of four octets leads to the others. -/
theorem leads_four {n : Nat} (h : 0xFFFF < n) (h' : n < 0x110000) :
    Leads (UInt8.ofNat (n / 0x40000 + 0xF0)) n 3 := by
  rw [Leads, toNat_ofNat (by omega)]
  refine ⟨by omega, _, begin?_four _ (by omega), rfl, rfl, ?_, ?_⟩
  · show (if n / 0x40000 = 0 then 0x90 else 0x80) ≤ n / 0x1000 % 0x40 + 0x80
    split <;> omega
  · show n / 0x1000 % 0x40 + 0x80 ≤ if n / 0x40000 = 4 then 0x8F else 0xBF
    split <;> omega

/-- **A character above `U+007F` is an octet that begins it, and those that follow.** -/
theorem utf8EncodeChar_eq {c : Char} (h : 0x7F < c.toNat) :
    ∃ b count, String.utf8EncodeChar c = b :: following c.toNat (count + 1) ∧
      Leads b c.toNat (count + 1) := by
  have hvalid : c.toNat < 0xD800 ∨ 0xDFFF < c.toNat ∧ c.toNat < 0x110000 := c.valid
  rw [String.utf8EncodeChar]
  simp only [Char.toNat_val]
  generalize c.toNat = n at h hvalid ⊢
  rw [if_neg (Nat.not_le.2 h)]
  by_cases htwo : n ≤ 0x7FF
  · refine ⟨_, 0, ?_, leads_two h htwo⟩
    have hfirst : n / 0x40 % 0x20 = n / 0x40 := Nat.mod_eq_of_lt (by omega)
    rw [if_pos htwo, hfirst]
    simp only [following, Nat.reducePow, Nat.div_one]
  · rw [if_neg htwo]
    by_cases hthree : n ≤ 0xFFFF
    · refine ⟨_, 1, ?_, leads_three (Nat.not_le.1 htwo) hthree (by omega)⟩
      have hfirst : n / 0x1000 % 0x10 = n / 0x1000 := Nat.mod_eq_of_lt (by omega)
      rw [if_pos hthree, hfirst]
      simp only [following, Nat.reducePow, Nat.div_one]
    · refine ⟨_, 2, ?_, leads_four (Nat.not_le.1 hthree) (by omega)⟩
      have hfirst : n / 0x40000 % 0x08 = n / 0x40000 := Nat.mod_eq_of_lt (by omega)
      rw [if_neg hthree, hfirst]
      simp only [following, Nat.reducePow, Nat.div_one]

/-- An ASCII character is one octet. -/
theorem utf8EncodeChar_ascii {c : Char} (h : c.toNat ≤ 0x7F) :
    String.utf8EncodeChar c = [UInt8.ofNat c.toNat] := by
  rw [String.utf8EncodeChar]
  simp only [Char.toNat_val]
  rw [if_pos h]

/-! ### Texts -/

/-- **A character is read from its octets**, whatever follows. -/
theorem read_utf8EncodeChar (c : Char) (position : Nat) (rest : Octets) :
    ∃ later, read position none (String.utf8EncodeChar c ++ rest) =
      (read later none rest).map fun r => (.scalar c :: r.1, r.2) := by
  have hpoint : CodePoint.ofNat c.toNat = .scalar c := CodePoint.ofNat_toNat (.scalar c)
  by_cases h : c.toNat ≤ 0x7F
  · have hoctet : (UInt8.ofNat c.toNat).toNat = c.toNat := toNat_ofNat (by omega)
    refine ⟨position + 1, ?_⟩
    rw [utf8EncodeChar_ascii h, List.singleton_append, read, hoctet, if_pos h, hpoint]
    cases read (position + 1) none rest <;> rfl
  · obtain ⟨b, count, hoctets, hb, p, hp, howed, hbegins⟩ := utf8EncodeChar_eq (Nat.not_le.1 h)
    refine ⟨position + 1 + (count + 1), ?_⟩
    rw [hoctets, List.cons_append, read, if_neg (Nat.not_le.2 hb), hp]
    dsimp only
    rw [read_following howed hbegins, hpoint]

/-- The octets of a text without halves of pairs are read as the text. -/
theorem read_encode {t : Text} (h : isEncodable t = true) (position : Nat) :
    read position none (encode t) = .ok (t, none) := by
  induction t generalizing position with
  | nil => rfl
  | cons c t ih =>
    obtain ⟨hc, ht⟩ := Bool.and_eq_true_iff.1 h
    cases c with
    | surrogate n => cases hc
    | scalar c =>
      obtain ⟨later, hread⟩ := read_utf8EncodeChar c position (encode t)
      rw [encode, List.flatMap_cons, ← encode, encodePoint, hread, ih ht]
      rfl

/-- **What was written is read**, unless a half of a pair stands in it. -/
theorem decode_encode {t : Text} (h : isEncodable t = true) : decode (encode t) = .ok t := by
  rw [decode, read_encode h]
  rfl

/-! ### Refusals -/

/-- **A text is refused exactly if it holds half of a pair.** -/
theorem encodeFault?_eq_none_iff {t : Text} :
    encodeFault? t = none ↔ isEncodable t = true := by
  have hnil : t.dropWhile (!·.isSurrogate) = [] ↔ ∀ c ∈ t, (!c.isSurrogate) = true :=
    List.dropWhile_eq_nil_iff
  rw [encodeFault?, firstRefused?, isEncodable, List.all_eq_true, ← hnil]
  cases t.dropWhile (!·.isSurrogate) with
  | nil => exact iff_of_true rfl rfl
  | cons c rest => exact iff_of_false nofun nofun

/-- Two texts have octets together if each has. -/
theorem isEncodable_append (t u : Text) :
    isEncodable (t ++ u) = (isEncodable t && isEncodable u) :=
  List.all_append

/-- Texts have octets together if each has. -/
theorem isEncodable_flatten (ts : List Text) : isEncodable ts.flatten = ts.all isEncodable :=
  List.all_flatten

end Utf8
end PhoneticBengali
