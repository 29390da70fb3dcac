import ScriptOutline.Text.Blank

/-!
The eight kinds of records, and their names as users may write them.
-/

set_option autoImplicit false

namespace ScriptOutline
open Text

inductive Kind where
  | comment | functionStatement | functionExpression | method | prototypeMethod
  | property | prototypeProperty | declaration
  deriving DecidableEq, Repr

namespace Kind

/-- Every kind, in the order in which kinds are listed. -/
def all : List Kind :=
  [comment, functionStatement, functionExpression, method, prototypeMethod, property,
    prototypeProperty, declaration]

theorem mem_all (k : Kind) : k ∈ all := by cases k <;> decide

def name : Kind → String
  | comment => "comment"
  | functionStatement => "function statement"
  | functionExpression => "function expression"
  | method => "method"
  | prototypeMethod => "prototype method"
  | property => "property"
  | prototypeProperty => "prototype property"
  | declaration => "declaration"

/-- The kind spelled exactly so. -/
def ofName? (s : String) : Option Kind := all.find? (·.name == s)

/-- Letters lose their ASCII case, and a dash or an underscore may stand for a space. -/
def fold (c : Char) : Char := if c == '-' || c == '_' then ' ' else c.toLower

/-- The kind that a user means, whitespace around it, case and word separators aside. -/
def parse? (s : String) : Option Kind := ofName? (String.ofList ((trim s.toList).map fold))

/-- Complains of the spelling as the user gave it. -/
def unknown (s : String) : String := s!"unknown context type: {s}"

def parse (s : String) : Except String Kind :=
  match parse? s with
  | some k => .ok k
  | none => .error (unknown s)

@[simp] theorem ofName?_name (k : Kind) : ofName? k.name = some k := by cases k <;> decide

theorem name_of_ofName? {s : String} {k : Kind} (h : ofName? s = some k) : k.name = s := by
  simpa using List.find?_some h

end Kind

end ScriptOutline
