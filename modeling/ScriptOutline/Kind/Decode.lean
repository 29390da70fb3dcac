import ScriptOutline.Json.Problem
import ScriptOutline.Kind

/-!
Kinds out of JSON texts.
-/

set_option autoImplicit false

namespace ScriptOutline.Kind
open Json

def names : List String := all.map name

def decodeName (s : String) : Decoded Kind :=
  match ofName? s with
  | some k => .ok k
  | none => .error (.unknownVariant s names)

def decodeTag : Node → Decoded Kind
  | .text s => decodeName s
  | n => n.invalid "variant identifier"

def atEnd (ts : List Token) : Decoded Unit :=
  if ts.isEmpty then .ok () else malformed .trailingCharacters

/-- Why no name stands behind an opening brace. -/
def noName : List Token → Fault
  | [] => .endInValue
  | .cutText f _ :: _ => f
  | _ => .noKey

/-- Behind the name of a kind that is written as an object: nothing but a null. -/
def decodeNull (ts : List Token) : Decoded Unit :=
  match ts with
  | .colon :: ts =>
    match readNode (2 * ts.length) ts with
    | (.null, .closeObject :: ts) => atEnd ts
    | (.null, []) => malformed .endInObject
    | (.null, _) => malformed .noValue
    | (n, _) => n.invalid "unit"
  | [] => malformed .endInObject
  | _ => malformed .noColon

/-- A kind is written as its name, or as an object that gives its name a null. -/
def decode (s : List Char) : Decoded Kind :=
  match tokens s with
  | .openObject :: .text name :: ts => do
    let k ← decodeTag (Token.text name).node
    decodeNull ts
    return k
  | .openObject :: ts => malformed (noName ts)
  | .text name :: ts => do
    let k ← decodeTag (Token.text name).node
    atEnd ts
    return k
  | .cutText f _ :: _ => malformed f
  | [] => malformed .endInValue
  | _ => malformed .noValue

end ScriptOutline.Kind
