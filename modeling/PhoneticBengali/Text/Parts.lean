/-
# Parts of a text
-/

import PhoneticBengali.Text.Basic

namespace PhoneticBengali

/-- The parts of a text between the occurrences of `c`. -/
def Text.parts (c : CodePoint) : Text → List Text
  | [] => [[]]
  | x :: t =>
    match Text.parts c t with
    | [] => [[x]]
    | part :: parts => if x = c then [] :: part :: parts else (x :: part) :: parts

end PhoneticBengali
