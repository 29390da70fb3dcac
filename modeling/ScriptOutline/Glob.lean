/-!
Patterns for paths, in tokens.
-/

set_option autoImplicit false

namespace ScriptOutline.Glob

inductive Token where
  | literal (c : Char)
  /-- `?`, any one byte. -/
  | any
  /-- `*`, any bytes, slashes too. -/
  | star
  /-- `**/` in front: nothing, or any directories. -/
  | leading
  /-- `/**` at the end: anything below. -/
  | trailing
  /-- `/**/` between: one slash or more, with any directories between. -/
  | middle
  | charClass (negated : Bool) (ranges : List (Char × Char))
  | alternates (branches : List (List Token))

mutual

/-- Whether a token has nothing in it to match: a group all of whose branches are empty. -/
def Token.isVoid : Token → Bool
  | .alternates branches => allVoid branches
  | _ => false

def branchVoid : List Token → Bool
  | [] => true
  | t :: ts => t.isVoid && branchVoid ts

def allVoid : List (List Token) → Bool
  | [] => true
  | ts :: branches => branchVoid ts && allVoid branches

end

inductive Mistake where
  | danglingEscape
  | unclosedClass
  | invalidRange (lo hi : Char)
  | unopenedAlternates
  | unclosedAlternates
  deriving DecidableEq, Repr

def Mistake.message : Mistake → String
  | danglingEscape => "dangling '\\'"
  | unclosedClass => "unclosed character class; missing ']'"
  | invalidRange lo hi => s!"invalid range; '{lo}' > '{hi}'"
  | unopenedAlternates =>
    "unopened alternate group; missing '\x7b' (maybe escape '\x7d' with '[\x7d]'?)"
  | unclosedAlternates =>
    "unclosed alternate group; missing '\x7d' (maybe escape '\x7b' with '[\x7b]'?)"

end ScriptOutline.Glob

namespace ScriptOutline

structure Glob where
  tokens : List Glob.Token

end ScriptOutline
