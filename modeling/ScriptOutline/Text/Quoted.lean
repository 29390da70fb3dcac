import ScriptOutline.Text.Ranges
import ScriptOutline.Text.Unprinted

/-!
Text as messages and logs show it. Messages put it in double quotes and spell out what cannot be
seen; logs spell out what a terminal would act on.
-/

set_option autoImplicit false

namespace ScriptOutline.Text

def isPrinted (c : Char) : Bool :=
  let n := c.toNat
  if n < 0x80 then 0x20 ≤ n && n < 0x7F else !inRanges unprintedRanges n

def spelledOut (c : Char) : List Char :=
  ['\\', 'u', '\x7b'] ++ Nat.toDigits 16 c.toNat ++ ['\x7d']

/-- One character inside double quotes, as messages show text. -/
def quoteChar (c : Char) : List Char :=
  match c with
  | '\x00' => ['\\', '0']
  | '\t' => ['\\', 't']
  | '\n' => ['\\', 'n']
  | '\r' => ['\\', 'r']
  | '"' => ['\\', '"']
  | '\\' => ['\\', '\\']
  | c => if isPrinted c then [c] else spelledOut c

/-- A text in double quotes, with whatever would not be seen written out. -/
def quoted (s : List Char) : List Char := '"' :: s.flatMap quoteChar ++ ['"']

/-- One character in a log. The bell, the backspace, the form feed, the escape, the deletion and the
controls of the second set are written out; other controls stand as they are. -/
def logChar (c : Char) : List Char :=
  match c with
  | '\x07' => ['\\', 'x', '0', '7']
  | '\x08' => ['\\', 'x', '0', '8']
  | '\x0c' => ['\\', 'x', '0', 'c']
  | '\x1b' => ['\\', 'x', '1', 'b']
  | '\x7f' => ['\\', 'x', '7', 'f']
  | c => if 0x80 ≤ c.toNat && c.toNat ≤ 0x9F then spelledOut c else [c]

def logged (s : List Char) : List Char := s.flatMap logChar

end ScriptOutline.Text
