import ScriptOutline.Text.Ranges
import ScriptOutline.Text.Alphabetic
import ScriptOutline.Text.Mark
import ScriptOutline.Text.Number
import ScriptOutline.Text.Recent

/-!
The characters of words, names, dotted paths and parameters. Words and parameters draw on different
Unicode properties, so neither class contains the other; and words are those of Unicode 16, while
parameters know the characters of Unicode 17.
-/

set_option autoImplicit false

namespace ScriptOutline.Text

/-- Connecting punctuation beyond ASCII: the Unicode category Pc. -/
def connectorRanges : List (Nat × Nat) :=
  [(0x203F, 0x2040), (0x2054, 0x2054), (0xFE33, 0xFE34), (0xFE4D, 0xFE4F), (0xFF3F, 0xFF3F)]

/-- Letters, marks, decimal digits, connectors and the two joiners, recent ones aside: a word
boundary stands where such a character meets any other. -/
def isWord (c : Char) : Bool :=
  let n := c.toNat
  if n < 0x80 then c.isAlphanum || c == '_'
  else !inRanges recentRanges n &&
    (inRanges alphabeticRanges n || inRanges markRanges n || inRanges decimalRanges n ||
      inRanges connectorRanges n || n == 0x200C || n == 0x200D)

/-- Names in a line are runs of word characters and dollar signs. -/
def isName (c : Char) : Bool := isWord c || c == '$'

def isDotted (c : Char) : Bool := isName c || c == '.'

/-- Letters and numbers of every kind. Unlike a word this leaves out marks and connectors, and
takes in numbers such as `½`. -/
def isAlphanumeric (c : Char) : Bool :=
  let n := c.toNat
  if n < 0x80 then c.isAlphanum
  else inRanges alphabeticRanges n || inRanges decimalRanges n || inRanges otherNumberRanges n

/-- Parameters are runs of letters, numbers and underscores. -/
def isParam (c : Char) : Bool := isAlphanumeric c || c == '_'

end ScriptOutline.Text
