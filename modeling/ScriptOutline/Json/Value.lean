import ScriptOutline.Json.Number

/-!
JSON values.
-/

set_option autoImplicit false

namespace ScriptOutline.Json

/-- A value that has been read as a whole. An object keeps the order of its fields. -/
inductive Value where
  | null
  | bool (b : Bool)
  | number (n : Number)
  | text (s : String)
  | array (items : List Value)
  | object (fields : List (String × Value))

def Value.nat (n : Nat) : Value := .number (.whole n)

def Value.texts (xs : List String) : Value := .array (xs.map .text)

/-- Puts a field in its place by key, in the stead of one with the same key. -/
def insertField (key : String) (v : Value) : List (String × Value) → List (String × Value)
  | [] => [(key, v)]
  | (k, w) :: fields =>
    if key = k then (key, v) :: fields
    else if key < k then (key, v) :: (k, w) :: fields
    else (k, w) :: insertField key v fields

/-- The fields in the order of their keys. Of repeated keys the last one counts. -/
def sortFields (fields : List (String × Value)) : List (String × Value) :=
  fields.foldl (fun sorted (k, v) => insertField k v sorted) []

end ScriptOutline.Json
