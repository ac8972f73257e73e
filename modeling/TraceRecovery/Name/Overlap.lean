/-!
# Comparing two lists of words

How much of one list of words is found in another. The counts are exact; only their quotients are
taken in floating point, so every ratio is the double nearest to the quotient of two counts.
-/

namespace TraceRecovery.Name

/-- Whether there is a word at all and every one of them occurs in `haystack`. -/
def isContained (needle haystack : List String) : Bool :=
  !needle.isEmpty && needle.all haystack.contains

/-- The lesser of two numbers; of two equal ones the first. -/
def lesser (a b : Float) : Float := if b < a then b else a

/-- The share of the longer list that the shorter one covers by its number of words, at most 1. -/
def lengthRatio (needle haystack : List String) : Float :=
  if needle.isEmpty || haystack.isEmpty then 0
  else lesser (Float.ofNat needle.length / Float.ofNat haystack.length) 1

/-- The share of the words of `needle` that occur in `haystack`. -/
def containedRatio (needle haystack : List String) : Float :=
  if needle.isEmpty then 0
  else Float.ofNat (needle.countP haystack.contains) / Float.ofNat needle.length

end TraceRecovery.Name
