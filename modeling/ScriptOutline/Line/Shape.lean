import ScriptOutline.Line.Target
import ScriptOutline.Record

/-!
The shapes of lines, each read by itself, and the order in which they are tried.
-/

set_option autoImplicit false

namespace ScriptOutline

inductive Shape where
  | commentOpen | functionStatement | functionExpression | namedExport | anonymousExport
  | prototypeMethod | prototypeProperty | method | property | declaration
  deriving DecidableEq, Repr

/-- A line: its number, counted from one, and its text as it stands. -/
structure Line where
  number : Nat
  raw : List Char
  deriving DecidableEq, Repr

/-- The text that shapes are read from. -/
def Line.stripped (l : Line) : List Char := Text.trimStart l.raw

/-- What a shape finds in a line. -/
inductive Finding where
  | commentOpen
  | code (form : Form) (name : String)
  deriving DecidableEq, Repr

namespace Line
open Text

def commentOpen? : List Char → Option Finding
  | '/' :: '*' :: _ => some .commentOpen
  | _ => none

def functionStatement? (s : List Char) : Option Finding := do
  let s ← after? functionWord s
  let s ← blanks? s
  let (n, s) ← name? s
  let list ← group? (skipBlanks s)
  return .code (.functionStatement (params list)) (String.ofList n)

def functionExpression? (s : List Char) : Option Finding := do
  let (n, s) ← varTarget? s
  let ps ← functionValue? s
  return .code (.functionExpression none ps) (String.ofList n)

def namedExport? (s : List Char) : Option Finding := do
  let s ← exportsTarget? s
  let s ← after? functionWord (skipBlanks s)
  let s ← blanks? s
  let (n, s) ← name? s
  let ps := ((group? (skipBlanks s)).map params).getD []
  return .code (.functionExpression (some (String.ofList exportsPath)) ps) (String.ofList n)

def anonymousExport? (s : List Char) : Option Finding := do
  let s ← exportsTarget? s
  let s ← function? (skipBlanks s)
  let ps := ((group? (skipBlanks s)).map params).getD []
  return .code (.functionExpression (some (String.ofList exportsPath)) ps) ""

def prototypeMethod? (s : List Char) : Option Finding := do
  let (c, n, s) ← prototypeTarget? s
  let ps ← functionValue? s
  return .code (.prototypeMethod (String.ofList c) ps) (String.ofList n)

def prototypeProperty? (s : List Char) : Option Finding := do
  let (c, n, s) ← prototypeTarget? s
  let v ← value? s
  return .code (.prototypeProperty (String.ofList c) (String.ofList v)) (String.ofList n)

def method? (s : List Char) : Option Finding := do
  let (r, n, s) ← dottedTarget? s
  let ps ← functionValue? s
  return .code (.method (String.ofList r) ps) (String.ofList n)

def property? (s : List Char) : Option Finding := do
  let (r, n, s) ← memberTarget? s
  let v ← value? s
  return .code (.property (String.ofList r) (String.ofList v)) (String.ofList n)

def assigned? (s : List Char) : Option (List Char × List Char) := do
  let (n, s) ← varTarget? s
  let v ← value? s
  return (n, v)

/-- The first place in a text where a variable is given a value. -/
def findAssigned? : List Char → Option (List Char × List Char)
  | [] => none
  | c :: s => (assigned? (c :: s)).or (findAssigned? s)

/-- A declaration stands at the start of the stripped line; its name and value are taken from
the line as it stands. -/
def declaration? (raw : List Char) : Option Finding := do
  let here ← assigned? (Text.trimStart raw)
  let (n, v) := (findAssigned? raw).getD here
  return .code (.declaration (String.ofList v)) (String.ofList n)

end Line

namespace Shape

/-- Every shape, a special one before any that also fits its lines. -/
def all : List Shape :=
  [commentOpen, functionStatement, functionExpression, namedExport, anonymousExport,
    prototypeMethod, prototypeProperty, method, property, declaration]

theorem mem_all (s : Shape) : s ∈ all := by cases s <;> decide

def find? (l : Line) : Shape → Option Finding
  | commentOpen => Line.commentOpen? l.stripped
  | functionStatement => Line.functionStatement? l.stripped
  | functionExpression => Line.functionExpression? l.stripped
  | namedExport => Line.namedExport? l.stripped
  | anonymousExport => Line.anonymousExport? l.stripped
  | prototypeMethod => Line.prototypeMethod? l.stripped
  | prototypeProperty => Line.prototypeProperty? l.stripped
  | method => Line.method? l.stripped
  | property => Line.property? l.stripped
  | declaration => Line.declaration? l.raw

end Shape

namespace Line

def shape? (l : Line) : Option Shape := Shape.all.find? (fun s => (s.find? l).isSome)

/-- What the first fitting shape finds. -/
def classify (l : Line) : Option Finding := Shape.all.findSome? (·.find? l)

def record (l : Line) (form : Form) (name : String) : Record :=
  .code ⟨l.number, form, name, form.signature name, String.ofList l.raw⟩

end Line

end ScriptOutline
