import ScriptOutline.Json.Value
import ScriptOutline.Record

/-!
Records as JSON objects.
-/

set_option autoImplicit false

namespace ScriptOutline
open Json

def optionalField (key : String) : Option String → List (String × Value)
  | some s => [(key, .text s)]
  | none => []

/-- The fields of a form that stand between the line and the name of a record. -/
def Form.owner : Form → List (String × Value)
  | functionStatement _ | declaration _ => []
  | functionExpression receiver _ => optionalField "receiver" receiver
  | method receiver _ | property receiver _ => [("receiver", .text receiver)]
  | prototypeMethod owner _ | prototypeProperty owner _ => [("class", .text owner)]

/-- The field of a form that stands behind the name of a record. -/
def Form.content : Form → List (String × Value)
  | functionStatement ps | functionExpression _ ps | method _ ps | prototypeMethod _ ps =>
    [("params", Value.texts ps)]
  | property _ v | prototypeProperty _ v | declaration v => [("value", .text v)]

/-- The fields of a record in the order in which they are written. -/
def Record.fields : Record → List (String × Value)
  | comment first last text =>
    [("type", .text Kind.comment.name), ("begin", .nat first), ("end", .nat last)] ++
      optionalField "content" text
  | code c =>
    [("type", .text c.form.kind.name), ("begin", .nat c.line)] ++ c.form.owner ++
      [("name", .text c.name)] ++ c.form.content ++
      [("string", .text c.signature), ("original", .text c.source)]

def Record.value (r : Record) : Value := .object r.fields

end ScriptOutline
