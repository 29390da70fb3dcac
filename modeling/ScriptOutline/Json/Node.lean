import ScriptOutline.Json.Token
import ScriptOutline.Json.Value

/-!
JSON texts as trees that keep the faults where they stand, so that a reader fails on the first thing
that it dislikes, be it a fault or a value of the wrong form.
-/

set_option autoImplicit false

namespace ScriptOutline.Json

/-- A JSON text as far as it goes. Whoever takes values out of it from left to right meets its
faults where they stand. A flawed scalar has an end but no value. The items or fields of a
container stop at their closing bracket or at a fault. -/
inductive Node where
  | null
  | bool (b : Bool)
  | number (n : Number)
  | text (s : String)
  | flawed (f : Fault)
  | array (items : List Node) (stop : Option Fault)
  | object (fields : List (Except Fault String × Node)) (stop : Option Fault)
  | broken (read skipped : Fault)

abbrev Field := Except Fault String × Node

def Node.fault (f : Fault) : Node := .broken f f

mutual

/-- A value that has been read, to be taken apart again. -/
def Value.node : Value → Node
  | .null => .null
  | .bool b => .bool b
  | .number n => .number n
  | .text s => .text s
  | .array vs => .array (itemNodes vs) none
  | .object fields => .object (fieldNodes fields) none

def itemNodes : List Value → List Node
  | [] => []
  | v :: vs => v.node :: itemNodes vs

def fieldNodes : List (String × Value) → List Field
  | [] => []
  | (k, v) :: fields => (.ok k, v.node) :: fieldNodes fields

end

/-- The node of a token that stands where a value should, brackets aside. -/
def Token.node : Token → Node
  | .null => .null
  | .bool b => .bool b
  | .number (.ok n) => .number n
  | .number (.error f) => .flawed f
  | .text (.ok s) => .text s
  | .text (.error f) => .flawed f
  | .cutText read skipped | .fault read skipped => .broken read skipped
  | _ => .fault .noValue

/-! Every call takes a token or is followed by one that does, so as many calls are enough as there
are tokens, twice over. -/

mutual

def readNode : Nat → List Token → Node × List Token
  | 0, _ | _, [] => (.fault .endInValue, [])
  | n + 1, .openArray :: ts =>
    match ts with
    | .closeArray :: ts => (.array [] none, ts)
    | [] => (.array [] (some .endInArray), [])
    | ts =>
      let (items, stop, ts) := readItems n ts
      (.array items stop, ts)
  | n + 1, .openObject :: ts =>
    match ts with
    | .closeObject :: ts => (.object [] none, ts)
    | [] => (.object [] (some .endInObject), [])
    | ts =>
      let (fields, stop, ts) := readFields n ts
      (.object fields stop, ts)
  | _ + 1, t :: ts => (t.node, ts)

def readItems : Nat → List Token → List Node × Option Fault × List Token
  | 0, _ => ([], some .endInArray, [])
  | n + 1, ts =>
    let (item, ts) := readNode n ts
    match ts with
    | .closeArray :: ts => ([item], none, ts)
    | .comma :: .closeArray :: ts => ([item, .fault .trailingComma], none, ts)
    | .comma :: ts =>
      let (items, stop, ts) := readItems n ts
      (item :: items, stop, ts)
    | [] => ([item], some .endInArray, [])
    | ts => ([item], some .noArraySeparator, ts)

def readFields : Nat → List Token → List Field × Option Fault × List Token
  | 0, _ | _, [] => ([], some .endInValue, [])
  | n + 1, .text key :: ts =>
    match ts with
    | .colon :: ts =>
      let (v, ts) := readNode n ts
      match ts with
      | .closeObject :: ts => ([(key, v)], none, ts)
      | .comma :: .closeObject :: ts => ([(key, v)], some .trailingComma, ts)
      | .comma :: ts =>
        let (fields, stop, ts) := readFields n ts
        ((key, v) :: fields, stop, ts)
      | [] => ([(key, v)], some .endInObject, [])
      | ts => ([(key, v)], some .noObjectSeparator, ts)
    | [] => ([(key, .fault .endInObject)], none, [])
    | ts => ([(key, .fault .noColon)], none, ts)
  | _, .cutText read skipped :: ts => ([(.error read, .fault skipped)], none, ts)
  | _, ts => ([], some .noKey, ts)

end

/-- A whole text: its value, and whether anything but space follows it. -/
structure Document where
  root : Node
  trailing : Bool

def Document.ofText (s : List Char) : Document :=
  let ts := tokens s
  let (root, rest) := readNode (2 * ts.length) ts
  ⟨root, !rest.isEmpty⟩

end ScriptOutline.Json
