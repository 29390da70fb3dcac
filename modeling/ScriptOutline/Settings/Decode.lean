import ScriptOutline.Json.Problem
import ScriptOutline.Settings

/-!
Settings out of JSON texts, and settings as a JSON value.
-/

set_option autoImplicit false

namespace ScriptOutline.Settings
open Json

def fieldNames : List String := ["include", "exclude", "types", "comment_body", "strict_comments"]

/-- A null is as good as no switch. -/
def decodeSwitch : Node → Decoded (Option Bool)
  | .null => .ok none
  | n => n.asBool.map some

def decodeField (s : Settings) (key : String) (n : Node) : Decoded Settings :=
  match key with
  | "include" => n.asTexts.map fun xs => { s with includes := xs }
  | "exclude" => n.asTexts.map fun xs => { s with excludes := xs }
  | "types" => n.asTexts.map fun xs => { s with types := xs }
  | "comment_body" => (decodeSwitch n).map fun b => { s with withText := b }
  | "strict_comments" => (decodeSwitch n).map fun b => { s with strict := b }
  | _ => .error (.unknownField key fieldNames)

/-- Fields by name, each at most once. A name is looked at before its value. -/
def decodeFields (seen : List String) (s : Settings) : List Json.Field → Decoded Settings
  | [] => .ok s
  | (key, n) :: fields => do
    let key ← ofFault key
    if !fieldNames.contains key then throw (.unknownField key fieldNames)
    if seen.contains key then throw (.duplicateField key)
    let s ← decodeField s key n
    decodeFields (key :: seen) s fields

/-- Fields by place. Those at the end may be left out; there are not to be more of them. -/
def decodeItems (excess : Problem) (s : Settings) : List String → List Node → Decoded Settings
  | _, [] => .ok s
  | [], _ :: _ => .error excess
  | key :: keys, n :: items => do
    let s ← decodeField s key n
    decodeItems excess s keys items

/-- Settings are written by name or by place. What is wrong with too many places depends on
whether there is still text to read. -/
def decode (excess : Nat → Problem) : Node → Decoded Settings
  | .object fields stop => do
    let s ← decodeFields [] {} fields
    atStop stop
    return s
  | .array items stop => do
    let s ← decodeItems (excess items.length) {} fieldNames items
    atStop stop
    return s
  | n => n.invalid "struct CodeContextConfig"

def ofText (text : List Char) : Decoded Settings :=
  (Document.ofText text).decode (decode fun _ => .malformed .trailingCharacters)

/-- Settings out of a value that has been read before. Its fields come in the order of their keys,
and of repeated ones the last alone. -/
def ofValue (v : Value) : Decoded Settings :=
  let sorted : Value :=
    match v with
    | .object fields => .object (sortFields fields)
    | v => v
  decode (.invalidLength · "fewer elements in array") sorted.node

/-- The value of a key of the object that a text holds; of repeated ones the last. -/
def section? (key : String) (text : List Char) : Decoded (Option Value) := do
  let v ← (Document.ofText text).decode (fun n => ofFault (n.value 0))
  match v with
  | .object fields => return (sortFields fields).lookup key
  | _ => return none

def value (s : Settings) : Value :=
  let switch : Option Bool → Value
    | none => .null
    | some b => .bool b
  .object [("include", .texts s.includes), ("exclude", .texts s.excludes),
    ("types", .texts s.types), ("comment_body", switch s.withText),
    ("strict_comments", switch s.strict)]

end ScriptOutline.Settings
