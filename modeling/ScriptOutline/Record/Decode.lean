import ScriptOutline.Kind.Decode
import ScriptOutline.Record

/-!
Records out of JSON texts. A record is an object with its kind under `type`, or an array that starts
with the kind; either is read as a whole before its fields are looked at.
-/

set_option autoImplicit false

namespace ScriptOutline
open Json

/-- What a field of a record has to hold. -/
inductive FieldType where
  | nat | text | optionalText | texts
  deriving DecidableEq, Repr

def FieldType.check (v : Value) : FieldType → Decoded Unit
  | nat => do discard v.asNat
  | text => do discard v.asText
  | optionalText => do discard v.asText?
  | texts => do discard v.asTexts

namespace Kind

/-- The fields of a kind of record, in order. -/
def fields : Kind → List (String × FieldType)
  | comment => [("begin", .nat), ("end", .nat), ("content", .optionalText)]
  | functionStatement =>
    [("begin", .nat), ("name", .text), ("params", .texts), ("string", .text), ("original", .text)]
  | functionExpression =>
    [("begin", .nat), ("receiver", .optionalText), ("name", .text), ("params", .texts),
      ("string", .text), ("original", .text)]
  | method =>
    [("begin", .nat), ("receiver", .text), ("name", .text), ("params", .texts),
      ("string", .text), ("original", .text)]
  | prototypeMethod =>
    [("begin", .nat), ("class", .text), ("name", .text), ("params", .texts),
      ("string", .text), ("original", .text)]
  | property =>
    [("begin", .nat), ("receiver", .text), ("name", .text), ("value", .text),
      ("string", .text), ("original", .text)]
  | prototypeProperty =>
    [("begin", .nat), ("class", .text), ("name", .text), ("value", .text),
      ("string", .text), ("original", .text)]
  | declaration =>
    [("begin", .nat), ("name", .text), ("value", .text), ("string", .text), ("original", .text)]

def variant : Kind → String
  | comment => "Comment"
  | functionStatement => "FunctionStatement"
  | functionExpression => "FunctionExpression"
  | method => "Method"
  | prototypeMethod => "PrototypeMethod"
  | property => "Property"
  | prototypeProperty => "PrototypeProperty"
  | declaration => "Declaration"

end Kind

namespace Record

/-- Parameters may also go by the name of arguments. -/
def fieldName (key : String) : String := if key = "args" then "params" else key

/-- Each known field at most once, holding what it should; others are passed over. -/
def checkFields (known : List (String × FieldType)) (seen : List String) :
    List (String × Value) → Decoded Unit
  | [] => .ok ()
  | (key, v) :: fields =>
    match known.lookup key with
    | none => checkFields known seen fields
    | some t =>
      if seen.contains key then .error (.duplicateField key)
      else do
        t.check v
        checkFields known (key :: seen) fields

def field {α : Type} (fields : List (String × Value)) (decode : Value → Decoded α) (key : String) :
    Decoded α :=
  match fields.lookup key with
  | some v => decode v
  | none => .error (.missingField key)

def field? (fields : List (String × Value)) (key : String) : Decoded (Option String) :=
  match fields.lookup key with
  | some v => v.asText?
  | none => .ok none

/-- A record of a kind out of its fields, which stand in any order. -/
def ofFields (k : Kind) (fields : List (String × Value)) : Decoded Record := do
  checkFields k.fields [] fields
  let text := field fields Value.asText
  let texts := field fields Value.asTexts
  let line ← field fields Value.asNat "begin"
  let code (name : String) (form : Form) : Decoded Record := do
    let signature ← text "string"
    let source ← text "original"
    return .code ⟨line, form, name, signature, source⟩
  match k with
  | .comment => do
    let last ← field fields Value.asNat "end"
    let content ← field? fields "content"
    return .comment line last content
  | .functionStatement => do
    let name ← text "name"
    code name (.functionStatement (← texts "params"))
  | .functionExpression => do
    let receiver ← field? fields "receiver"
    let name ← text "name"
    code name (.functionExpression receiver (← texts "params"))
  | .method => do
    let receiver ← text "receiver"
    let name ← text "name"
    code name (.method receiver (← texts "params"))
  | .prototypeMethod => do
    let owner ← text "class"
    let name ← text "name"
    code name (.prototypeMethod owner (← texts "params"))
  | .property => do
    let receiver ← text "receiver"
    let name ← text "name"
    code name (.property receiver (← text "value"))
  | .prototypeProperty => do
    let owner ← text "class"
    let name ← text "name"
    code name (.prototypeProperty owner (← text "value"))
  | .declaration => do
    let name ← text "name"
    code name (.declaration (← text "value"))

/-- Items for the fields of a kind in order. Only optional ones at the end may be left out. -/
def checkItems (k : Kind) (index : Nat) : List (String × FieldType) → List Value → Decoded Unit
  | [], [] => .ok ()
  | [], vs => .error (.invalidLength (index + vs.length) s!"{index} elements in sequence")
  | (_, .optionalText) :: known, [] => checkItems k (index + 1) known []
  | _ :: _, [] =>
    .error (.invalidLength index
      s!"struct variant Context::{k.variant} with {k.fields.length} elements")
  | (_, t) :: known, v :: vs => do
    t.check v
    checkItems k (index + 1) known vs

def ofItems (k : Kind) (items : List Value) : Decoded Record := do
  checkItems k 0 k.fields items
  ofFields k ((k.fields.map Prod.fst).zip items)

/-- The kind that a record names, wherever it does so, and its other fields. All of them are read
before any is looked at, but a second kind or one unknown is noticed at once. -/
def readTagged (depth : Nat) (tag : Option Kind) :
    List Json.Field → Decoded (Option Kind × List (String × Value))
  | [] => .ok (tag, [])
  | (key, n) :: fields => do
    let key ← ofFault key
    if key = "type" then
      if tag.isSome then throw (.duplicateField "type")
      let k ← Kind.decodeTag n
      readTagged depth (some k) fields
    else
      let v ← ofFault (n.value depth)
      let (tag, vs) ← readTagged depth tag fields
      return (tag, (fieldName key, v) :: vs)

def decode (depth : Nat) : Node → Decoded Record
  | .object fields stop => do
    let (tag, fields) ← readTagged (depth + 1) none fields
    atStop stop
    match tag with
    | some k => ofFields k fields
    | none => throw (.missingField "type")
  | .array [] stop => do
    atStop stop
    throw (.missingField "type")
  | .array (tag :: items) stop => do
    let k ← Kind.decodeTag tag
    let vs ← ofFault (itemValues (depth + 1) items)
    atStop stop
    ofItems k vs
  | n => n.invalid "internally tagged enum Context"

def ofText (s : List Char) : Decoded Record := (Document.ofText s).decode (decode 0)

end Record

end ScriptOutline
