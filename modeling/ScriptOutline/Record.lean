import ScriptOutline.Kind

/-!
Records: what an outline says of a comment or of a line of code.
-/

set_option autoImplicit false

namespace ScriptOutline

/-- What a line of code introduces, with the parts that only this form has. -/
inductive Form where
  | functionStatement (params : List String)
  /-- The receiver is present when the function is exported. -/
  | functionExpression (receiver : Option String) (params : List String)
  | method (receiver : String) (params : List String)
  | prototypeMethod (owner : String) (params : List String)
  | property (receiver : String) (value : String)
  | prototypeProperty (owner : String) (value : String)
  | declaration (value : String)
  deriving DecidableEq, Repr

namespace Form

def kind : Form → Kind
  | functionStatement .. => .functionStatement
  | functionExpression .. => .functionExpression
  | method .. => .method
  | prototypeMethod .. => .prototypeMethod
  | property .. => .property
  | prototypeProperty .. => .prototypeProperty
  | declaration .. => .declaration

def params? : Form → Option (List String)
  | functionStatement ps | functionExpression _ ps | method _ ps | prototypeMethod _ ps => some ps
  | _ => none

def value? : Form → Option String
  | property _ v | prototypeProperty _ v | declaration v => some v
  | _ => none

/-- The text that names the thing in full. A function without a name of its own goes by its
receiver. -/
def signature (name : String) : Form → String
  | functionStatement _ | functionExpression none _ => name ++ "()"
  | functionExpression (some receiver) _ => (if name = "" then receiver else name) ++ "()"
  | method receiver _ => receiver ++ "." ++ name ++ "()"
  | prototypeMethod owner _ => owner ++ ".prototype." ++ name ++ "()"
  | property receiver _ => receiver ++ "." ++ name
  | prototypeProperty owner _ => owner ++ ".prototype." ++ name
  | declaration _ => name

end Form

/-- One line of code. `source` is the line as it stands, indentation included. -/
structure CodeLine where
  line : Nat
  form : Form
  name : String
  signature : String
  source : String
  deriving DecidableEq, Repr

/-- One entry of an outline. A comment spans lines and carries its text only on request. -/
inductive Record where
  | comment (first last : Nat) (text : Option String)
  | code (c : CodeLine)
  deriving DecidableEq, Repr

namespace Record

/-- The line that the record was made from, counted from one. -/
def line : Record → Nat
  | comment first _ _ => first
  | code c => c.line

def kind : Record → Kind
  | comment .. => .comment
  | code c => c.form.kind

def name? : Record → Option String
  | comment .. => none
  | code c => some c.name

def params? : Record → Option (List String)
  | comment .. => none
  | code c => c.form.params?

def signature? : Record → Option String
  | comment .. => none
  | code c => some c.signature

def source? : Record → Option String
  | comment .. => none
  | code c => some c.source

/-- Changes the name alone; the signature stays. -/
def mapName (f : String → String) : Record → Record
  | comment first last text => comment first last text
  | code c => code { c with name := f c.name }

@[simp] theorem line_mapName (f : String → String) (r : Record) : (r.mapName f).line = r.line := by
  cases r <;> rfl

@[simp] theorem kind_mapName (f : String → String) (r : Record) : (r.mapName f).kind = r.kind := by
  cases r <;> rfl

@[simp] theorem name?_mapName (f : String → String) (r : Record) :
    (r.mapName f).name? = r.name?.map f := by cases r <;> rfl

end Record

end ScriptOutline
