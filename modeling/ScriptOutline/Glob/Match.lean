import ScriptOutline.Glob.Method
import ScriptOutline.Text.Utf8

/-!
What patterns match: bytes, from the first to the last. What a token may leave of a path is a list,
so matching needs no measure but the pattern.
-/

set_option autoImplicit false

namespace ScriptOutline.Glob
open Text

def slash : UInt8 := 0x2F

def suffixes : Bytes → List Bytes
  | [] => [[]]
  | b :: s => (b :: s) :: suffixes s

def afterSlashes : Bytes → List Bytes
  | [] => []
  | b :: s => if b = slash then s :: afterSlashes s else afterSlashes s

def afterBytes : Bytes → Bytes → List Bytes
  | [], s => [s]
  | _ :: _, [] => []
  | b :: bs, a :: s => if b = a then afterBytes bs s else []

/-- A range of a class takes bytes, not characters: a character beyond ASCII stands for each of its
bytes, and a range runs from the last byte of its start to the first of its end. -/
def rangeHas (r : Char × Char) (b : UInt8) : Bool :=
  let lo := String.utf8EncodeChar r.1
  let hi := String.utf8EncodeChar r.2
  if r.1 = r.2 then lo.contains b
  else lo.contains b || hi.contains b || (lo.getLastD 0 ≤ b && b ≤ hi.headD 0)

def classHas (negated : Bool) (ranges : List (Char × Char)) (b : UInt8) : Bool :=
  ranges.any (rangeHas · b) != negated

mutual

/-- What may be left of a path behind a token. -/
def Token.rests (t : Token) (s : Bytes) : List Bytes :=
  match t with
  | .literal c => afterBytes (String.utf8EncodeChar c) s
  | .any => match s with | [] => [] | _ :: s => [s]
  | .star => suffixes s
  | .leading => s :: afterSlashes s
  | .trailing => match s with | [] => [] | b :: s => if b = slash then suffixes s else []
  | .middle => match s with | [] => [] | b :: s => if b = slash then s :: afterSlashes s else []
  | .charClass negated ranges =>
    match s with
    | [] => []
    | b :: s => if classHas negated ranges b then [s] else []
  | .alternates branches => if allVoid branches then [s] else branchRests branches s

/-- What may be left behind tokens in a row, from any of some starts. -/
def tokenRests : List Token → List Bytes → List Bytes
  | [], starts => starts
  | t :: ts, starts => tokenRests ts (starts.flatMap (t.rests ·)).eraseDups

/-- What may be left behind one of the branches. An empty branch is as good as none. -/
def branchRests : List (List Token) → Bytes → List Bytes
  | [], _ => []
  | ts :: branches, s =>
    if branchVoid ts then branchRests branches s else tokenRests ts [s] ++ branchRests branches s

end

/-- The name of the file at the end of a path. The parent directory is none. -/
def fileName? (path : Bytes) : Option Bytes :=
  let name := (path.reverse.takeWhile (· != slash)).reverse
  if path.isEmpty || name == [0x2E, 0x2E] then none else some name

def covers (g : Glob) (path : Bytes) : Bool :=
  match g.tokens with
  | [.leading] => true
  | ts => (tokenRests ts [path]).contains []

/-- A pattern about the name of a file never takes a path that ends in the parent directory. -/
def hits (g : Glob) (path : Bytes) : Bool :=
  g.covers path && (!g.method.needsName || (fileName? path).isSome)

end ScriptOutline.Glob
