/-
# The letters of the romanization

A romanized letter is classed by its lower-case form:

| class | lower-case form |
| --- | --- |
| vowel | one of `a e i o u` |
| consonant | one of the other 21 ASCII letters |
| punctuation | anything else, of one character or two |

Twelve letters mean another sound as a capital, such as the retroflex `T` beside
the dental `t`.  `fixCase` keeps those as typed and writes every other character
in lower case, so that rules need to know one spelling of each sound.
-/

import PhoneticBengali.Text.LowerCase

namespace PhoneticBengali

/-- What a character is in the romanization. -/
inductive LetterClass where
  | vowel
  | consonant
  | punctuation
deriving DecidableEq, Repr

namespace LetterClass

/-- The romanized vowels in lower case. -/
def vowels : Text :=
  ['a', 'e', 'i', 'o', 'u']

/-- The romanized consonants in lower case. -/
def consonants : Text :=
  ['b', 'c', 'd', 'f', 'g', 'h', 'j', 'k', 'l', 'm', 'n', 'p', 'q', 'r', 's', 't', 'v', 'w',
   'x', 'y', 'z']

/-- The class of what `t` is in lower case: only one letter is a vowel or a
consonant. -/
def ofText (t : Text) : LetterClass :=
  match lowerCase t with
  | [c] =>
    if vowels.contains c then vowel else if consonants.contains c then consonant else punctuation
  | _ => punctuation

/-- The class of a character. -/
def of (c : CodePoint) : LetterClass :=
  ofText [c]

end LetterClass

/-- The letters, in lower case, that keep the case they are typed in. -/
def caseSignificant : Text :=
  ['o', 'i', 'u', 'd', 'g', 'j', 'n', 'r', 's', 't', 'y', 'z']

/-- A character in the case the rules are written for: lower case, unless the
letter is case-significant or its lower-case form has several characters. -/
def fixCaseChar (c : CodePoint) : CodePoint :=
  match lowerChar c with
  | [l] => if caseSignificant.contains l then c else l
  | _ => c

/-- A text in the case the rules are written for. -/
def fixCase (t : Text) : Text :=
  t.map fixCaseChar

end PhoneticBengali
