/-
# The bundled rules

The phonetic rules that are used unless another table is given.  Every literal
stands before any shorter one that it begins with, so that the longest literal
at hand is the first to match.

Vowel signs are the default output of the vowel rules; the independent letters
come from alternatives that apply where no consonant precedes.  A backtick after
a vowel asks for the sign wherever it stands, and otherwise breaks literals.
-/

import PhoneticBengali.Rule.Basic
import PhoneticBengali.Reverse

namespace PhoneticBengali
namespace Bundled

/-- A rule with one output. -/
def plain (find replace : String) : Rule where
  find := find
  replace := replace

/-- A rule whose output depends on its surroundings. -/
def varied (find replace : String) (alternatives : List (List Condition × String)) : Rule where
  find := find
  replace := replace
  alternatives := alternatives.map fun a => ⟨a.1, a.2⟩

/-- The neighbour on that side is of class `k`. -/
def is (side : Side) (k : LetterClass) : Condition where
  side := side
  scope := .letter k

/-- The neighbour on that side is not of class `k`. -/
def isNot (side : Side) (k : LetterClass) : Condition :=
  { is side k with negate := true }

/-- The text on that side continues with the literal. -/
def reads (side : Side) (literal : String) : Condition where
  side := side
  scope := .exact
  literal := some literal

/-- The text on that side does not continue with the literal. -/
def readsNot (side : Side) (literal : String) : Condition :=
  { reads side literal with negate := true }

/-- The bundled rule table. -/
def table : RuleTable :=
  [plain "bhl" "ভ্ল", plain "psh" "পশ", plain "bdh" "ব্ধ", plain "bj" "ব্জ",
   plain "bd" "ব্দ", plain "bb" "ব্ব", plain "bl" "ব্ল", plain "bh" "ভ", plain "vl" "ভ্ল",
   plain "b" "ব", plain "v" "ভ", plain "cNG" "চ্ঞ", plain "cch" "চ্ছ", plain "cc" "চ্চ",
   plain "ch" "ছ", plain "c" "চ", plain "dhn" "ধ্ন", plain "dhm" "ধ্ম", plain "dgh" "দ্ঘ",
   plain "ddh" "দ্ধ", plain "dbh" "দ্ভ", plain "dv" "দ্ভ", plain "dm" "দ্ম",
   plain "DD" "ড্ড", plain "Dh" "ঢ", plain "dh" "ধ", plain "dg" "দ্গ", plain "dd" "দ্দ",
   plain "D" "ড", plain "d" "দ", plain "..." "...", plain ".`" ".", plain ".." "।॥",
   plain "." "।", plain "ghn" "ঘ্ন", plain "Ghn" "ঘ্ন", plain "gdh" "গ্ধ",
   plain "Gdh" "গ্ধ", plain "gN" "গ্ণ", plain "GN" "গ্ণ", plain "gn" "গ্ন",
   plain "Gn" "গ্ন", plain "gm" "গ্ম", plain "Gm" "গ্ম", plain "gl" "গ্ল",
   plain "Gl" "গ্ল", plain "gg" "জ্ঞ", plain "GG" "জ্ঞ", plain "Gg" "জ্ঞ",
   plain "gG" "জ্ঞ", plain "gh" "ঘ", plain "Gh" "ঘ", plain "g" "গ", plain "G" "গ",
   plain "hN" "হ্ণ", plain "hn" "হ্ন", plain "hm" "হ্ম", plain "hl" "হ্ল", plain "h" "হ",
   plain "jjh" "জ্ঝ", plain "jNG" "জ্ঞ", plain "jh" "ঝ", plain "jj" "জ্জ", plain "j" "জ",
   plain "J" "জ", plain "kkhN" "ক্ষ্ণ", plain "kShN" "ক্ষ্ণ", plain "kkhm" "ক্ষ্ম",
   plain "kShm" "ক্ষ্ম", plain "kxN" "ক্ষ্ণ", plain "kxm" "ক্ষ্ম", plain "kkh" "ক্ষ",
   plain "kSh" "ক্ষ", plain "ksh" "কশ", plain "kx" "ক্ষ", plain "kk" "ক্ক",
   plain "kT" "ক্ট", plain "kt" "ক্ত", plain "kl" "ক্ল", plain "ks" "ক্স", plain "kh" "খ",
   plain "k" "ক", plain "lbh" "ল্ভ", plain "ldh" "ল্ধ", plain "lkh" "লখ", plain "lgh" "লঘ",
   plain "lph" "লফ", plain "lk" "ল্ক", plain "lg" "ল্গ", plain "lT" "ল্ট",
   plain "lD" "ল্ড", plain "lp" "ল্প", plain "lv" "ল্ভ", plain "lm" "ল্ম",
   plain "ll" "ল্ল", plain "lb" "ল্ব", plain "l" "ল", plain "mth" "ম্থ", plain "mph" "ম্ফ",
   plain "mbh" "ম্ভ", plain "mpl" "মপ্ল", plain "mn" "ম্ন", plain "mp" "ম্প",
   plain "mv" "ম্ভ", plain "mm" "ম্ম", plain "ml" "ম্ল", plain "mb" "ম্ব",
   plain "mf" "ম্ফ", plain "m" "ম", plain "0" "০", plain "1" "১", plain "2" "২",
   plain "3" "৩", plain "4" "৪", plain "5" "৫", plain "6" "৬", plain "7" "৭",
   plain "8" "৮", plain "9" "৯", plain "NgkSh" "ঙ্ক্ষ", plain "Ngkkh" "ঙ্ক্ষ",
   plain "NGch" "ঞ্ছ", plain "Nggh" "ঙ্ঘ", plain "Ngkh" "ঙ্খ", plain "NGjh" "ঞ্ঝ",
   plain "ngOU" "ঙ্গৌ", plain "ngOI" "ঙ্গৈ", plain "Ngkx" "ঙ্ক্ষ", plain "NGc" "ঞ্চ",
   plain "nch" "ঞ্ছ", plain "njh" "ঞ্ঝ", plain "ngh" "ঙ্ঘ", plain "Ngk" "ঙ্ক",
   plain "Ngx" "ঙ্ষ", plain "Ngg" "ঙ্গ", plain "Ngm" "ঙ্ম", plain "NGj" "ঞ্জ",
   plain "ndh" "ন্ধ", plain "nTh" "ন্ঠ", plain "NTh" "ণ্ঠ", plain "nth" "ন্থ",
   plain "nkh" "ঙ্খ", plain "ngo" "ঙ্গ", plain "nga" "ঙ্গা", plain "ngi" "ঙ্গি",
   plain "ngI" "ঙ্গী", plain "ngu" "ঙ্গু", plain "ngU" "ঙ্গূ", plain "nge" "ঙ্গে",
   plain "ngO" "ঙ্গো", plain "NDh" "ণ্ঢ", plain "nsh" "নশ", plain "Ngr" "ঙর",
   plain "NGr" "ঞর", plain "ngr" "ংর", plain "nj" "ঞ্জ", plain "Ng" "ঙ", plain "NG" "ঞ",
   plain "nk" "ঙ্ক", plain "ng" "ং", plain "nn" "ন্ন", plain "NN" "ণ্ণ", plain "Nn" "ণ্ন",
   plain "nm" "ন্ম", plain "Nm" "ণ্ম", plain "nd" "ন্দ", plain "nT" "ন্ট",
   plain "NT" "ণ্ট", plain "nD" "ন্ড", plain "ND" "ণ্ড", plain "nt" "ন্ত",
   plain "ns" "ন্স", plain "nc" "ঞ্চ", plain "n" "ন", plain "N" "ণ", plain "OI`" "ৈ",
   plain "OU`" "ৌ", plain "O`" "ো",
   varied "OI" "ৈ"
     [([isNot .before .consonant], "ঐ"),
      ([is .before .punctuation], "ঐ")],
   varied "OU" "ৌ"
     [([isNot .before .consonant], "ঔ"),
      ([is .before .punctuation], "ঔ")],
   varied "O" "ো"
     [([isNot .before .consonant], "ও"),
      ([is .before .punctuation], "ও")],
   plain "phl" "ফ্ল", plain "pT" "প্ট", plain "pt" "প্ত", plain "pn" "প্ন",
   plain "pp" "প্প", plain "pl" "প্ল", plain "ps" "প্স", plain "ph" "ফ", plain "fl" "ফ্ল",
   plain "f" "ফ", plain "p" "প", plain "rri`" "ৃ",
   varied "rri" "ৃ"
     [([isNot .before .consonant], "ঋ"),
      ([is .before .punctuation], "ঋ")],
   plain "rrZ" "রর\u200d্য", plain "rry" "রর\u200d্য",
   varied "rZ" "র\u200d্য"
     [([is .before .consonant, readsNot .before "r", readsNot .before "y",
        readsNot .before "w", readsNot .before "x"], "্র্য")],
   varied "ry" "র\u200d্য"
     [([is .before .consonant, readsNot .before "r", readsNot .before "y",
        readsNot .before "w", readsNot .before "x"], "্র্য")],
   varied "rr" "রর"
     [([isNot .before .consonant, isNot .after .vowel,
        readsNot .after "r", isNot .after .punctuation], "র্"),
      ([is .before .consonant, readsNot .before "r"], "্রর")],
   plain "Rg" "ড়্গ", plain "Rh" "ঢ়", plain "R" "ড়",
   varied "r" "র"
     [([is .before .consonant, readsNot .before "r", readsNot .before "y",
        readsNot .before "w", readsNot .before "x", readsNot .before "Z"], "্র")],
   plain "shch" "শ্ছ", plain "ShTh" "ষ্ঠ", plain "Shph" "ষ্ফ", plain "Sch" "শ্ছ",
   plain "skl" "স্ক্ল", plain "skh" "স্খ", plain "sth" "স্থ", plain "sph" "স্ফ",
   plain "shc" "শ্চ", plain "sht" "শ্ত", plain "shn" "শ্ন", plain "shm" "শ্ম",
   plain "shl" "শ্ল", plain "Shk" "ষ্ক", plain "ShT" "ষ্ট", plain "ShN" "ষ্ণ",
   plain "Shp" "ষ্প", plain "Shf" "ষ্ফ", plain "Shm" "ষ্ম", plain "spl" "স্প্ল",
   plain "sk" "স্ক", plain "Sc" "শ্চ", plain "sT" "স্ট", plain "st" "স্ত",
   plain "sn" "স্ন", plain "sp" "স্প", plain "sf" "স্ফ", plain "sm" "স্ম",
   plain "sl" "স্ল", plain "sh" "শ", plain "St" "শ্ত", plain "Sn" "শ্ন", plain "Sm" "শ্ম",
   plain "Sl" "শ্ল", plain "Sh" "ষ", plain "s" "স", plain "S" "শ", plain "oo`" "ু",
   varied "oo" "ু"
     [([isNot .before .consonant, readsNot .after "`"], "উ"),
      ([is .before .punctuation, readsNot .after "`"], "উ")],
   plain "o`" "", plain "oZ" "অ্য",
   varied "o" ""
     [([is .before .vowel, readsNot .before "o"], "ও"),
      ([is .before .vowel, reads .before "o"], "অ"),
      ([is .before .punctuation], "অ")],
   plain "tth" "ত্থ", plain "t``" "ৎ", plain "TT" "ট্ট", plain "Tm" "ট্ম", plain "Th" "ঠ",
   plain "tn" "ত্ন", plain "tm" "ত্ম", plain "th" "থ", plain "tt" "ত্ত", plain "T" "ট",
   plain "t" "ত", plain "aZ" "অ্যা", plain "AZ" "অ্যা", plain "a`" "া", plain "A`" "া",
   varied "a" "া"
     [([is .before .punctuation, readsNot .after "`"], "আ"),
      ([isNot .before .consonant, readsNot .before "a", readsNot .after "`"], "য়া"),
      ([reads .before "a", readsNot .after "`"], "আ")],
   plain "i`" "ি",
   varied "i" "ি"
     [([isNot .before .consonant, readsNot .after "`"], "ই"),
      ([is .before .punctuation, readsNot .after "`"], "ই")],
   plain "I`" "ী",
   varied "I" "ী"
     [([isNot .before .consonant, readsNot .after "`"], "ঈ"),
      ([is .before .punctuation, readsNot .after "`"], "ঈ")],
   plain "u`" "ু",
   varied "u" "ু"
     [([isNot .before .consonant, readsNot .after "`"], "উ"),
      ([is .before .punctuation, readsNot .after "`"], "উ")],
   plain "U`" "ূ",
   varied "U" "ূ"
     [([isNot .before .consonant, readsNot .after "`"], "ঊ"),
      ([is .before .punctuation, readsNot .after "`"], "ঊ")],
   plain "ee`" "ী",
   varied "ee" "ী"
     [([isNot .before .consonant, readsNot .after "`"], "ঈ"),
      ([is .before .punctuation, readsNot .after "`"], "ঈ")],
   plain "e`" "ে",
   varied "e" "ে"
     [([isNot .before .consonant, readsNot .after "`"], "এ"),
      ([is .before .punctuation, readsNot .after "`"], "এ")],
   plain "z" "য", plain "Z" "্য",
   varied "y" "্য"
     [([isNot .before .consonant, isNot .before .punctuation], "য়"),
      ([is .before .punctuation], "ইয়")],
   plain "Y" "য়", plain "q" "ক",
   varied "w" "ও"
     [([is .before .punctuation, is .after .vowel], "ওয়"),
      ([is .before .consonant], "্ব")],
   varied "x" "ক্স"
     [([is .before .punctuation], "এক্স")],
   plain ":`" ":", plain ":" "ঃ", plain "^`" "^", plain "^" "ঁ", plain ",," "্\u200c",
   plain "," ",", plain "$" "৳", plain "`" ""]

/-- The rules back from Bengali to the romanization. -/
def reverseTable : RuleTable :=
  table.reverse

end Bundled
end PhoneticBengali
