import ScriptOutline.Glob

/-!
Ways to match a pattern. Most patterns come down to a comparison of text; the others are regular
expressions, and some of those are tried only on paths with a certain extension.
-/

set_option autoImplicit false

namespace ScriptOutline.Glob

/-- What a pattern is held against. -/
inductive Method where
  /-- The whole path, its start or its end, as text. -/
  | text
  /-- The name of the file or its extension, as text. -/
  | name
  /-- The whole path, if the file has the extension that the pattern ends in. -/
  | guarded
  /-- The whole path, whatever its name. -/
  | expression
  deriving DecidableEq, Repr

/-- Whether only a path with the name of a file at its end comes into question. -/
def Method.needsName : Method → Bool
  | name | guarded => true
  | text | expression => false

/-- The literal characters that end a pattern, last one first, and the tokens before them. -/
def splitLiterals : List Token → List Char × List Token
  | .literal c :: ts =>
    let (cs, before) := splitLiterals ts
    (c :: cs, before)
  | ts => ([], ts)

def Token.isLiteral : Token → Bool
  | .literal _ => true
  | _ => false

/-- The way to match a pattern with `last` as the literals at its end and `before` as the other
tokens, both last one first. -/
def Method.ofParts (last : List Char) (before : List Token) : Method :=
  let ext := last.takeWhile (· != '.')
  let dotted := ext.length < last.length && !ext.contains '/'
  match last, before with
  | [], .trailing :: start => if start.all Token.isLiteral then text else expression
  | [], .star :: start => if !start.isEmpty && start.all Token.isLiteral then text else expression
  | [], _ => expression
  | _, [] => text
  | _, [.leading] => if last.contains '/' then text else name
  | _, [.star] | _, [.star, .leading] =>
    if dotted && last.length == ext.length + 1 then name
    else if last == ['/'] then expression
    else text
  | _, _ => if dotted then guarded else expression

def method (g : Glob) : Method :=
  let (last, before) := splitLiterals g.tokens.reverse
  Method.ofParts last before

end ScriptOutline.Glob
