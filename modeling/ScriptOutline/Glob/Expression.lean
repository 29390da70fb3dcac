import ScriptOutline.Glob.Method

/-!
Patterns as regular expressions. Expressions may not be nested too deeply, so not every list of
patterns can be put to use (`obstacle?`).
-/

set_option autoImplicit false

namespace ScriptOutline.Glob

/-! The text of an expression. -/

/-- Characters that mean something in an expression. -/
def metaCharacters : List Char :=
  ['\\', '.', '+', '*', '?', '(', ')', '|', '[', ']', '\x7b', '\x7d', '^', '$', '#', '&', '-', '~']

def byteExpression (b : UInt8) : List Char :=
  if 0x80 ≤ b then ['\\', 'x'] ++ Nat.toDigits 16 b.toNat
  else
    let c := Char.ofNat b.toNat
    if metaCharacters.contains c then ['\\', c] else [c]

def charExpression (c : Char) : List Char := (String.utf8EncodeChar c).flatMap byteExpression

def rangeExpression (r : Char × Char) : List Char :=
  if r.1 = r.2 then charExpression r.1 else charExpression r.1 ++ '-' :: charExpression r.2

def groupStart : List Char := ['(', '?', ':']

mutual

def Token.expression : Token → List Char
  | .literal c => charExpression c
  | .any => ['.']
  | .star => ['.', '*']
  | .leading => "(?:/?|.*/)".toList
  | .trailing => "/.*".toList
  | .middle => "(?:/|/.*/)".toList
  | .charClass negated ranges =>
    '[' :: (if negated then ['^'] else []) ++ ranges.flatMap rangeExpression ++ [']']
  | .alternates branches =>
    match branchExpressions branches with
    | [] => []
    | es => groupStart ++ ['|'].intercalate es ++ [')']

def tokensExpression : List Token → List Char
  | [] => []
  | t :: ts => t.expression ++ tokensExpression ts

def branchExpressions : List (List Token) → List (List Char)
  | [] => []
  | ts :: branches =>
    if branchVoid ts then branchExpressions branches
    else tokensExpression ts :: branchExpressions branches

end

/-- The expression of a pattern, for bytes from the first to the last. -/
def expression (g : Glob) : List Char :=
  let body := match g.tokens with
    | [.leading] => Token.star.expression
    | ts => tokensExpression ts
  "(?-u)^".toList ++ body ++ ['$']

/-! How deep an expression is. Groups, repetitions, classes and sequences count one level each, and
so do alternatives and the parts of a class where there are several. -/

def Token.width : Token → Nat
  | .literal c => c.utf8Size
  | .trailing => 2
  | .alternates branches => if allVoid branches then 0 else 1
  | _ => 1

def tokensWidth : List Token → Nat
  | [] => 0
  | t :: ts => t.width + tokensWidth ts

def rangeWidth (r : Char × Char) : Nat :=
  if r.1 = r.2 then r.1.utf8Size else r.1.utf8Size + r.2.utf8Size - 1

def classWidth : List (Char × Char) → Nat
  | [] => 0
  | r :: rs => rangeWidth r + classWidth rs

mutual

def Token.depth : Token → Nat
  | .literal _ | .any => 0
  | .star | .trailing => 1
  | .leading | .middle => 4
  | .charClass _ ranges => if 1 < classWidth ranges then 2 else 1
  | .alternates branches =>
    if allVoid branches then 0
    else (if 1 < branches.countP (!branchVoid ·) then 2 else 1) + branchesDepth branches

def tokensDepth : List Token → Nat
  | [] => 0
  | t :: ts => max t.depth (tokensDepth ts)

def branchesDepth : List (List Token) → Nat
  | [] => 0
  | ts :: branches =>
    max ((if 1 < tokensWidth ts then 1 else 0) + tokensDepth ts) (branchesDepth branches)

end

def depthLimit : Nat := 250

/-- Whether the expression of a pattern, a sequence at the outermost, has too many levels. -/
def isTooDeep (g : Glob) : Bool := depthLimit < tokensDepth g.tokens + 1

/-! Lists of patterns. -/

/-- What keeps a list of patterns from being used. -/
inductive Obstacle where
  /-- An expression that is used by itself. -/
  | single (expression : List Char)
  /-- The expression at a place among those that are used together. -/
  | among (index : Nat)
  deriving DecidableEq, Repr

def Obstacle.message : Obstacle → String
  | single e => s!"error parsing glob '{String.ofList e}': error parsing pattern 0"
  | among index => s!"error parsing pattern {index}"

/-- The first expression that is too deep: of those that are used by themselves, or else of those
that are used together. -/
def obstacle? (gs : List Glob) : Option Obstacle :=
  match gs.find? fun g => g.method == .guarded && g.isTooDeep with
  | some g => some (.single g.expression)
  | none => ((gs.filter (·.method == .expression)).findIdx? isTooDeep).map .among

end ScriptOutline.Glob
