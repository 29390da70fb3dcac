import ScriptOutline.Json.Node
import ScriptOutline.Text.Quoted

/-!
Reading values out of nodes, and what may be wrong with them.
-/

set_option autoImplicit false

namespace ScriptOutline.Json

/-- What stands where something else was expected. -/
inductive Found where
  | null
  | bool (b : Bool)
  | number (n : Number)
  | text (s : String)
  | sequence
  | map

def Found.describe : Found → String
  | null => "null"
  | bool b => s!"boolean `{b}`"
  | number (.whole n) => s!"integer `{String.ofList (wholeText n)}`"
  | number (.real x) => s!"floating point `{String.ofList (realText x)}`"
  | text s => s!"string {String.ofList (Text.quoted s.toList)}"
  | sequence => "sequence"
  | map => "map"

/-- Why a JSON text does not tell what it should. -/
inductive Problem where
  | malformed (f : Fault)
  | invalidType (found : Found) (expected : String)
  | invalidValue (found : Found) (expected : String)
  | invalidLength (n : Nat) (expected : String)
  | missingField (name : String)
  | duplicateField (name : String)
  | unknownVariant (name : String) (known : List String)
  | unknownField (name : String) (known : List String)

def listNames (names : List String) : String :=
  ", ".intercalate (names.map fun name => s!"`{name}`")

def Problem.describe (fault : Fault → String) : Problem → String
  | malformed f => fault f
  | invalidType found expected => s!"invalid type: {found.describe}, expected {expected}"
  | invalidValue found expected => s!"invalid value: {found.describe}, expected {expected}"
  | invalidLength n expected => s!"invalid length {n}, expected {expected}"
  | missingField name => s!"missing field `{name}`"
  | duplicateField name => s!"duplicate field `{name}`"
  | unknownVariant name known => s!"unknown variant `{name}`, expected one of {listNames known}"
  | unknownField name known => s!"unknown field `{name}`, expected one of {listNames known}"

def Problem.message : Problem → String := Problem.describe Fault.message

/-! Taking values out of a text, from left to right. -/

abbrev Decoded (α : Type) := Except Problem α

def invalid {α : Type} (found : Found) (expected : String) : Decoded α :=
  .error (.invalidType found expected)

def malformed {α : Type} (f : Fault) : Decoded α := .error (.malformed f)

def ofFault {α : Type} (e : Except Fault α) : Decoded α := e.mapError .malformed

def Value.found : Value → Found
  | .null => .null
  | .bool b => .bool b
  | .number n => .number n
  | .text s => .text s
  | .array _ => .sequence
  | .object _ => .map

/-- What a node shows before anything inside it is read. -/
def Node.found : Node → Decoded Found
  | .null => .ok .null
  | .bool b => .ok (.bool b)
  | .number n => .ok (.number n)
  | .text s => .ok (.text s)
  | .flawed f => malformed f
  | .array _ _ => .ok .sequence
  | .object _ _ => .ok .map
  | .broken f _ => malformed f

def Node.invalid {α : Type} (n : Node) (expected : String) : Decoded α := do
  Json.invalid (← n.found) expected

def Node.asText : Node → Decoded String
  | .text s => .ok s
  | n => n.invalid "a string"

def Node.asBool : Node → Decoded Bool
  | .bool b => .ok b
  | n => n.invalid "a boolean"

/-- What a closing bracket is to be, once all before it is read. -/
def atStop : Option Fault → Decoded Unit
  | none => .ok ()
  | some f => malformed f

def Node.asTexts : Node → Decoded (List String)
  | .array items stop => do
    let xs ← items.mapM Node.asText
    atStop stop
    return xs
  | n => n.invalid "a sequence"

def Document.decode {α : Type} (d : Document) (decode : Node → Decoded α) : Decoded α := do
  let a ← decode d.root
  if d.trailing then malformed .trailingCharacters
  return a

/-! Taking values out of what has been read. -/

def Value.asNat : Value → Decoded Nat
  | .number (.whole n) =>
    if n < 0 then .error (.invalidValue (.number (.whole n)) "usize") else .ok n.toNat
  | v => Json.invalid v.found "usize"

def Value.asText : Value → Decoded String
  | .text s => .ok s
  | v => Json.invalid v.found "a string"

/-- A null is as good as no text. -/
def Value.asText? : Value → Decoded (Option String)
  | .null => .ok none
  | v => v.asText.map some

def Value.asTexts : Value → Decoded (List String)
  | .array vs => vs.mapM Value.asText
  | v => Json.invalid v.found "a sequence"

/-! Reading as a whole, and skipping. -/

def depthLimit : Nat := 127

mutual

/-- The whole of a node that stands inside `depth` containers. -/
def Node.value (depth : Nat) : Node → Except Fault Value
  | .null => .ok .null
  | .bool b => .ok (.bool b)
  | .number n => .ok (.number n)
  | .text s => .ok (.text s)
  | .flawed f => .error f
  | .broken f _ => .error f
  | .array items stop => do
    if depthLimit ≤ depth then throw .tooDeep
    let vs ← itemValues (depth + 1) items
    match stop with
    | none => return .array vs
    | some f => throw f
  | .object fields stop => do
    if depthLimit ≤ depth then throw .tooDeep
    let vs ← fieldValues (depth + 1) fields
    match stop with
    | none => return .object vs
    | some f => throw f

def itemValues (depth : Nat) : List Node → Except Fault (List Value)
  | [] => .ok []
  | n :: ns => do
    let v ← n.value depth
    return v :: (← itemValues depth ns)

def fieldValues (depth : Nat) : List Field → Except Fault (List (String × Value))
  | [] => .ok []
  | (key, n) :: ns => do
    let k ← key
    let v ← n.value depth
    return (k, v) :: (← fieldValues depth ns)

end

mutual

/-- A value that nobody wants only has to end. -/
def Node.skip : Node → Except Fault Unit
  | .broken _ f => .error f
  | .array items stop => do
    skipItems items
    match stop with
    | none => return
    | some f => throw f
  | .object fields stop => do
    skipFields fields
    match stop with
    | none => return
    | some f => throw f
  | _ => .ok ()

def skipItems : List Node → Except Fault Unit
  | [] => .ok ()
  | n :: ns => do
    n.skip
    skipItems ns

def skipFields : List Field → Except Fault Unit
  | [] => .ok ()
  | (_, n) :: ns => do
    n.skip
    skipFields ns

end

end ScriptOutline.Json
