/-
# Faults of YAML texts

Why a text is no YAML document, or none that a value is known for.  A run tells of
most of these faults.  Some arise where a value is worked out that the form of its
text does not allow for, and escape a run that reads its settings.
-/

import PhoneticBengali.Calendar.Timestamp
import PhoneticBengali.Text.Quoted

namespace PhoneticBengali
namespace Yaml

/-- What is wrong with a YAML text. -/
inductive Fault where
  /-- A character that no text may hold. -/
  | unprintable (c : CodePoint)
  /-- A character that begins no token. -/
  | noToken (c : CodePoint)
  | unclosedQuote
  | unknownEscape
  /-- An escaped code above the last code point. -/
  | codeTooLarge
  /-- A document marker inside a quoted scalar. -/
  | markerInQuote
  /-- A key that had to be followed by a colon. -/
  | colonExpected
  | sequenceNotAllowed
  | keyNotAllowed
  | valueNotAllowed
  | badBlockHeader
  | badDirective
  | badAnchor
  | badTag
  | unknownHandle (handle : Text)
  | nodeExpected
  | blockEndExpected
  | flowEndExpected
  | documentStartExpected
  | secondDocument
  | repeatedAnchor (name : Text)
  | unknownAnchor (name : Text)
  /-- A tag without a value, or one that does not fit its node. -/
  | unknownTag (tag : Text)
  | mergeOfNonMapping
  | badKey
  /-- A text that should be octets in base 64. -/
  | badOctets
  /-- An item of an ordered mapping that is no mapping of one entry. -/
  | badPair
  /-- An alias inside the node that it stands for: no document holds itself. -/
  | endless (name : Text)
  /-- A text that is no numeral of a base. -/
  | badNumeral (base : Nat) (t : Text)
  /-- A text that is no number. -/
  | badNumber (t : Text)
  /-- A numeral with more digits than are converted. -/
  | tooManyDigits (count : Nat)
  /-- A timestamp that names no date or no time. -/
  | calendar (fault : CalendarFault)
  /-- A numeral of base sixty with a count whose worth is out of range. -/
  | tooManyCounts
  /-- An escaped code of 32 binary digits. -/
  | codeBeyond
  /-- A text that names no truth value. -/
  | noTruth (t : Text)
  /-- A numeral without a character. -/
  | noCharacter
  /-- A text that has not the form of a timestamp. -/
  | noTimestamp
  /-- Whatever else a reader may fail with: whether a run that reads its settings tells of
  it, the kind of the fault and what is said about it. -/
  | raised (told : Bool) (kind : String) (said : Text)
deriving DecidableEq, Repr

namespace Fault

/-- What is said about a fault. -/
def message : Fault → Text
  | unprintable _ => "special characters are not allowed"
  | noToken c => "found character " ++ [c] ++ " that cannot start any token"
  | unclosedQuote => "found unexpected end of stream in a quoted scalar"
  | unknownEscape => "found unknown escape character"
  | codeTooLarge => "chr() arg not in range(0x110000)"
  | markerInQuote => "found unexpected document separator"
  | colonExpected => "could not find expected ':'"
  | sequenceNotAllowed => "sequence entries are not allowed here"
  | keyNotAllowed => "mapping keys are not allowed here"
  | valueNotAllowed => "mapping values are not allowed here"
  | badBlockHeader => "expected chomping or indentation indicators"
  | badDirective => "found a malformed directive"
  | badAnchor => "expected a name of letters and digits"
  | badTag => "found a malformed tag"
  | unknownHandle handle => "found undefined tag handle " ++ handle
  | nodeExpected => "expected the node content"
  | blockEndExpected => "expected the end of a block"
  | flowEndExpected => "expected a comma or a closing bracket"
  | documentStartExpected => "expected the start of a document"
  | secondDocument => "expected a single document in the stream"
  | repeatedAnchor name => "found duplicate anchor " ++ name
  | unknownAnchor name => "found undefined alias " ++ name
  | unknownTag tag => "could not determine a constructor for the tag " ++ tag
  | mergeOfNonMapping => "expected a mapping or list of mappings for merging"
  | badKey => "found unhashable key"
  | badOctets => "failed to decode base64 data"
  | badPair => "expected a mapping of length 1"
  | endless name => "found the alias " ++ name ++ " inside its own node"
  | badNumeral base t =>
    "invalid literal for int() with base " ++ Numeral.ofNat base ++ ": " ++ Text.quoted t
  | badNumber t => "could not convert string to float: " ++ Text.quoted t
  | tooManyDigits count =>
    "Exceeds the limit (4300 digits) for integer string conversion: value has " ++
      Numeral.ofNat count ++ " digits; use sys.set_int_max_str_digits() to increase the limit"
  | calendar fault => fault.message
  | tooManyCounts => "int too large to convert to float"
  | codeBeyond => "Python int too large to convert to C int"
  | noTruth t => Text.quoted t
  | noCharacter => "string index out of range"
  | noTimestamp => "'NoneType' object has no attribute 'groupdict'"
  | raised _ _ said => said

/-- Whether a run that reads its settings tells of a fault; the others escape. -/
def isTold : Fault → Bool
  | tooManyCounts | codeBeyond | noTruth _ | noCharacter | noTimestamp => false
  | raised told _ _ => told
  | _ => true

end Fault
end Yaml
end PhoneticBengali
