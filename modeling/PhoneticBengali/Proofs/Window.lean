/-
# Windows are surroundings

A condition can be asked about two offsets of a text (`Condition.holdsAt`) or about
the text to the left and to the right of a match (`Condition.holds`).  At offsets in
order these are one question (`Condition.holdsAt_eq_holds`):

| scope | at offsets | of the surroundings |
| --- | --- | --- |
| `letter`, before | the character at `start - 1`, if there is one | the nearest one to the left |
| `letter`, after | the character at `stop`, if there is one | the nearest one to the right |
| `exact`, before | the window that ends at `start` | the literal ends the left part |
| `exact`, after | the window that begins at `stop` | the literal begins the right part |

A window that leaves the text is longer than the part it would have to lie in, so
its literal does not stand there either.
-/

import PhoneticBengali.Rule.Window
import Mathlib.Data.List.Basic

namespace PhoneticBengali

/-- Offsets inside a text cut out what stands between them. -/
theorem slice_natCast (t : Text) (start stop : Nat) :
    slice t start stop = (t.take stop).drop start := by
  rw [slice, if_neg (by omega), Int.toNat_natCast]

/-- A longer text does not begin a shorter one. -/
theorem isPrefixOf_of_length_lt {x y : Text} (h : y.length < x.length) :
    x.isPrefixOf y = false := by
  rw [← Bool.not_eq_true, List.isPrefixOf_iff_prefix]
  intro hprefix
  have := hprefix.length_le
  omega

/-- The window that ends where `left` ends is the literal exactly if `left`, read
away from there, begins with the literal read backwards. -/
theorem windowIs_before (l left rest : Text) (negate : Bool) :
    windowIs l (left.reverse ++ rest) (left.length - l.length) left.length negate =
      (l.reverse.isPrefixOf left != negate) := by
  have hinside : (left.length : Int) ≤ (left.reverse ++ rest).length := by
    rw [List.length_append, List.length_reverse]
    omega
  rw [windowIs]
  by_cases hlength : left.length < l.length
  · have hnot : l.reverse.isPrefixOf left = false :=
      isPrefixOf_of_length_lt (by rwa [List.length_reverse])
    rw [if_pos (by omega), hnot, Bool.false_bne]
  · have hstart : ((left.length : Int) - l.length).toNat = left.length - l.length := by omega
    have hslice : slice (left.reverse ++ rest) (left.length - l.length) left.length =
        left.reverse.drop (left.length - l.length) := by
      rw [slice_natCast, List.take_left' List.length_reverse]
    have hsame : left.reverse.drop (left.length - l.length) = l ↔ l.reverse <+: left := by
      rw [← List.reverse_suffix, List.reverse_reverse, List.suffix_iff_eq_drop,
        List.length_reverse, eq_comm]
    rw [if_neg (by omega), hstart, hslice]
    congr 1
    rw [Bool.eq_iff_iff, beq_iff_eq, List.isPrefixOf_iff_prefix, hsame]

/-- The window that begins where `before` ends is the literal exactly if what
follows begins with it. -/
theorem windowIs_after (l before rest : Text) (negate : Bool) :
    windowIs l (before ++ rest) before.length (before.length + l.length) negate =
      (l.isPrefixOf rest != negate) := by
  rw [windowIs]
  by_cases hlength : rest.length < l.length
  · rw [if_pos (by rw [List.length_append]; omega), isPrefixOf_of_length_lt hlength,
      Bool.false_bne]
  · have hslice : slice (before ++ rest) before.length ((before.length : Int) + l.length) =
        rest.take l.length := by
      rw [← Int.natCast_add, slice_natCast, List.take_length_add_append, List.drop_left]
    have hsame : rest.take l.length = l ↔ l <+: rest := by
      rw [List.prefix_iff_eq_take, eq_comm]
    rw [if_neg (by rw [List.length_append]; omega), Int.toNat_natCast, hslice]
    congr 1
    rw [Bool.eq_iff_iff, beq_iff_eq, List.isPrefixOf_iff_prefix, hsame]

namespace LetterClass

/-- The neighbour one place before the end of `left` is its nearest character. -/
theorem ofNeighbour_before (left rest : Text) :
    ofNeighbour (if (left.length : Int) - 1 < 0 then []
        else (left.reverse ++ rest).drop ((left.length : Int) - 1).toNat) =
      ofNeighbour left := by
  cases left with
  | nil => rfl
  | cons c left =>
    have hstart : (((c :: left).length : Int) - 1).toNat = left.reverse.length := by simp
    rw [if_neg (by simp), hstart, List.reverse_cons, List.append_assoc, List.drop_left]
    rfl

/-- The window that begins at the end of a match begins with the neighbour behind it. -/
theorem ofNeighbour_after (before right : Text) :
    ofNeighbour (if (before.length : Int) < 0 then []
        else (before ++ right).drop (before.length : Int).toNat) =
      ofNeighbour right := by
  rw [if_neg (by omega), Int.toNat_natCast, List.drop_left]

end LetterClass

/-- **Offsets in order cut a text into its surroundings**, and a condition asked at
them is asked about these. -/
theorem Condition.holdsAt_eq_holds (k : Condition) (left x right : Text) :
    k.holdsAt (left.reverse ++ x ++ right) left.length (left.length + x.length : Nat) =
      k.holds left right := by
  obtain ⟨side, scope, negate, literal⟩ := k
  cases side with
  | before =>
    rw [List.append_assoc]
    match scope, literal with
    | .exact, some (c :: l) => exact windowIs_before (c :: l) left (x ++ right) negate
    | .exact, some [] => rfl
    | .exact, none => rfl
    | .letter c, _ =>
      have hneighbour := LetterClass.ofNeighbour_before left (x ++ right)
      exact congrArg (fun n => (n == c) != negate) hneighbour
    | .other _, _ => rfl
  | after =>
    have hstop : left.length + x.length = (left.reverse ++ x).length := by simp
    rw [hstop]
    match scope, literal with
    | .exact, some (c :: l) => exact windowIs_after (c :: l) (left.reverse ++ x) right negate
    | .exact, some [] => rfl
    | .exact, none => rfl
    | .letter c, _ =>
      have hneighbour := LetterClass.ofNeighbour_after (left.reverse ++ x) right
      exact congrArg (fun n => (n == c) != negate) hneighbour
    | .other _, _ => rfl

end PhoneticBengali
