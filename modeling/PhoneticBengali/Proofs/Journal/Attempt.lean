/-
# Attempts in a row

Attempts are made one after the other, up to the first fault.  The value of a row is that of
a traversal of the values (`Attempt.value_all`): all of them if each attempt has one
(`mapM_eq_ok_iff`), and a fault if one of them has none (`exists_error_mapM_iff`).
-/

import PhoneticBengali.Journal.Record

namespace PhoneticBengali

variable {α β ε : Type}

/-- A list is gone through if each of its entries has a value, and these are what it gives. -/
theorem mapM_eq_ok_iff {f : α → Except ε β} {xs : List α} {ys : List β} :
    xs.mapM f = .ok ys ↔ xs.map f = ys.map .ok := by
  induction xs generalizing ys with
  | nil => cases ys <;> simp [pure, Except.pure]
  | cons x xs ih =>
    rw [List.mapM_cons]
    cases hx : f x with
    | error fault => cases ys <;> simp [bind, Except.bind, hx]
    | ok y =>
      cases hxs : xs.mapM f with
      | error fault => cases ys <;> simp [bind, Except.bind, ← ih, hxs, hx]
      | ok rest => cases ys <;> simp [bind, Except.bind, pure, Except.pure, ← ih, hxs, hx]

/-- It is not gone through exactly if one of its entries has none. -/
theorem exists_error_mapM_iff {f : α → Except ε β} {xs : List α} :
    (∃ fault, xs.mapM f = .error fault) ↔ ∃ x ∈ xs, ∃ fault, f x = .error fault := by
  induction xs with
  | nil => simp [pure, Except.pure]
  | cons x xs ih =>
    rw [List.mapM_cons]
    simp only [List.mem_cons, exists_eq_or_imp, ← ih]
    cases f x with
    | error fault => simp [bind, Except.bind]
    | ok y => cases xs.mapM f <;> simp [bind, Except.bind, pure, Except.pure]

namespace Attempt

/-- The value of an attempt that goes on with another. -/
theorem value_andThen (x : Attempt ε α) (f : α → Attempt ε β) :
    (x.andThen f).value = x.value >>= fun a => (f a).value := by
  rw [andThen]
  cases x.value <;> rfl

/-- The value of a row is that of a traversal. -/
theorem value_all (xs : List (Attempt ε α)) : (all xs).value = xs.mapM (·.value) := by
  induction xs with
  | nil => rfl
  | cons x rest ih =>
    rw [all, value_andThen, List.mapM_cons, ← ih]
    cases x.value with
    | error fault => rfl
    | ok a => cases hrest : (all rest).value <;> simp [Noted.map, hrest, Except.map, bind,
        Except.bind, pure, Except.pure]

end Attempt
end PhoneticBengali
