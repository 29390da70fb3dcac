import ScriptOutline.Text.Blank
import ScriptOutline.Text.Word
import ScriptOutline.Text.Pieces

/-!
What the shapes of lines are made of: blanks, names, the word `function`, parameters and values.
Every reader takes as much as it can, and nothing has to be given back but a single blank.
-/

set_option autoImplicit false

namespace ScriptOutline.Line
open Text

def skipBlanks (s : List Char) : List Char := s.dropWhile isBlank

def blanks? : List Char → Option (List Char)
  | [] => none
  | c :: s => if isBlank c then some (skipBlanks s) else none

/-- A run of name characters as long as it goes, which has to be there. -/
def name? (s : List Char) : Option (List Char × List Char) :=
  if (s.takeWhile isName).isEmpty then none else some (s.takeWhile isName, s.dropWhile isName)

/-- An equals sign, blanks before it aside. -/
def equals? (s : List Char) : Option (List Char) :=
  match skipBlanks s with
  | '=' :: rest => some rest
  | _ => none

/-- What stands between an opening parenthesis and the next closing one, or the end. -/
def group? : List Char → Option (List Char)
  | '(' :: rest => some (rest.takeWhile (· != ')'))
  | _ => none

/-- A parameter list holds its tokens; defaults and patterns are not understood. -/
def params (list : List Char) : List String := (runs isParam list).map String.ofList

def functionWord : List Char := ['f', 'u', 'n', 'c', 't', 'i', 'o', 'n']

/-- The word `function`, where a word ends after it. -/
def function? (s : List Char) : Option (List Char) :=
  match after? functionWord s with
  | none => none
  | some [] => some []
  | some (c :: rest) => if isWord c then none else some (c :: rest)

/-- The parameters of a function value, whose own name is skipped. Without a parenthesis there
are none. -/
def functionValue? (s : List Char) : Option (List String) :=
  (function? (skipBlanks s)).map fun rest =>
    ((group? (skipBlanks ((skipBlanks rest).dropWhile isName))).map params).getD []

/-- The text up to a semicolon or the end of the line. Blanks before it do not belong to it,
unless nothing else is left for it: then the last of them is the value. -/
def value? (s : List Char) : Option (List Char) :=
  match (skipBlanks s).takeWhile (fun c => c != '\n' && c != ';') with
  | [] => (s.takeWhile isBlank).getLast?.map (fun c => [c])
  | v => some v

end ScriptOutline.Line
