import ScriptOutline.Json.Value

/-!
JSON values written as text, on one line or indented.
-/

set_option autoImplicit false

namespace ScriptOutline.Json

def hexDigit (n : Nat) : Char := Nat.digitChar n

/-- A character inside a JSON text. Only quotes, backslashes and controls are escaped. -/
def escape (c : Char) : List Char :=
  match c with
  | '"' => ['\\', '"']
  | '\\' => ['\\', '\\']
  | '\x08' => ['\\', 'b']
  | '\x0c' => ['\\', 'f']
  | '\n' => ['\\', 'n']
  | '\r' => ['\\', 'r']
  | '\t' => ['\\', 't']
  | c =>
    if c.toNat < 0x20 then ['\\', 'u', '0', '0', hexDigit (c.toNat / 16), hexDigit (c.toNat % 16)]
    else [c]

def textLiteral (s : String) : List Char := '"' :: s.toList.flatMap escape ++ ['"']

def boolWord (b : Bool) : List Char := if b then ['t', 'r', 'u', 'e'] else ['f', 'a', 'l', 's', 'e']

mutual

def Value.compact : Value → List Char
  | .null => ['n', 'u', 'l', 'l']
  | .bool b => boolWord b
  | .number n => n.text
  | .text s => textLiteral s
  | .array vs => '[' :: compactItems vs ++ [']']
  | .object fields => '\x7b' :: compactFields fields ++ ['\x7d']

def compactItems : List Value → List Char
  | [] => []
  | [v] => v.compact
  | v :: vs => v.compact ++ ',' :: compactItems vs

def compactFields : List (String × Value) → List Char
  | [] => []
  | [(k, v)] => textLiteral k ++ ':' :: v.compact
  | (k, v) :: fields => textLiteral k ++ ':' :: v.compact ++ ',' :: compactFields fields

end

def newLine (level : Nat) : List Char := '\n' :: List.replicate (2 * level) ' '

mutual

/-- A value with each item and field on a line of its own. -/
def Value.pretty (level : Nat) : Value → List Char
  | .null => ['n', 'u', 'l', 'l']
  | .bool b => boolWord b
  | .number n => n.text
  | .text s => textLiteral s
  | .array [] => ['[', ']']
  | .array (v :: vs) => '[' :: prettyItems (level + 1) (v :: vs) ++ newLine level ++ [']']
  | .object [] => ['\x7b', '\x7d']
  | .object (f :: fields) =>
    '\x7b' :: prettyFields (level + 1) (f :: fields) ++ newLine level ++ ['\x7d']

def prettyItems (level : Nat) : List Value → List Char
  | [] => []
  | [v] => newLine level ++ v.pretty level
  | v :: vs => newLine level ++ v.pretty level ++ ',' :: prettyItems level vs

def prettyFields (level : Nat) : List (String × Value) → List Char
  | [] => []
  | [(k, v)] => newLine level ++ textLiteral k ++ ':' :: ' ' :: v.pretty level
  | (k, v) :: fields =>
    newLine level ++ textLiteral k ++ ':' :: ' ' :: v.pretty level ++
      ',' :: prettyFields level fields

end

end ScriptOutline.Json
