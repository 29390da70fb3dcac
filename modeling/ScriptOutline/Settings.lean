import ScriptOutline.Glob.Expression
import ScriptOutline.Glob.Match
import ScriptOutline.Glob.Parse
import ScriptOutline.Kind
import ScriptOutline.Outline

/-!
Settings as users write them, and the policy that they resolve to: which paths are admitted, which
kinds are kept, and how sources are read.
-/

set_option autoImplicit false

namespace ScriptOutline

/-- What a user may settle. An empty list and an absent switch leave the default in force. -/
structure Settings where
  includes : List String := []
  excludes : List String := []
  types : List String := []
  withText : Option Bool := none
  strict : Option Bool := none
  deriving DecidableEq, Repr

structure Policy where
  includes : Option (List Glob)
  excludes : List Glob
  kinds : Option (List Kind)
  options : Options

inductive PatternList where
  | includes | excludes
  deriving DecidableEq, Repr

def PatternList.name : PatternList → String
  | includes => "include"
  | excludes => "exclude"

/-- What is wrong with settings: an entry that means nothing, or patterns that cannot be used. -/
inductive SettingsError where
  | type (entry : String)
  | pattern (list : PatternList) (text : String) (mistake : Glob.Mistake)
  | unusable (obstacle : Glob.Obstacle)
  deriving DecidableEq, Repr

/-- The explanation, from the outside to the cause. -/
def SettingsError.chain : SettingsError → List String
  | type entry => [s!"invalid entry in types: {entry}", Kind.unknown entry]
  | pattern list text mistake =>
    [s!"invalid {list.name} pattern: {text}", s!"error parsing glob '{text}': {mistake.message}"]
  | unusable obstacle => [obstacle.message]

namespace Settings

def defaultExcludes : List String :=
  ["**/node_modules/**", "**/dist/**", "**/build/**", "**/coverage/**", "**/*.min.js"]

def kindOf (entry : String) : Except SettingsError Kind :=
  match Kind.parse? entry with
  | some k => .ok k
  | none => .error (.type entry)

def globOf (list : PatternList) (pattern : String) : Except SettingsError Glob :=
  match Glob.parse pattern.toList with
  | .ok tokens => .ok ⟨tokens⟩
  | .error mistake => .error (.pattern list pattern mistake)

/-- Whether every entry means something: first the types, then what is included, then what is
excluded. -/
def validate (s : Settings) : Except SettingsError Unit := do
  s.types.forM fun entry => discard (kindOf entry)
  s.includes.forM fun pattern => discard (globOf .includes pattern)
  s.excludes.forM fun pattern => discard (globOf .excludes pattern)

/-- The kinds among some, each once and in order. -/
def kindSet (ks : List Kind) : List Kind := Kind.all.filter ks.contains

def usable (globs : List Glob) : Except SettingsError (List Glob) :=
  match Glob.obstacle? globs with
  | none => .ok globs
  | some obstacle => .error (.unusable obstacle)

def resolve (s : Settings) : Except SettingsError Policy := do
  s.validate
  let kinds ← s.types.mapM kindOf
  let includes ← usable (← s.includes.mapM (globOf .includes))
  let excludes ← usable
    (← (if s.excludes.isEmpty then defaultExcludes else s.excludes).mapM (globOf .excludes))
  return {
    includes := if s.includes.isEmpty then none else some includes
    excludes := excludes
    kinds := if s.types.isEmpty then none else some (kindSet kinds)
    options := ⟨s.withText.getD false, s.strict.getD false⟩ }

end Settings

namespace Policy

/-- Whether a path is of interest. What is excluded is so even if it is included. -/
def admits (p : Policy) (path : String) : Bool :=
  let bytes := Text.encodeUtf8 path.toList
  !p.excludes.any (·.hits bytes) &&
    match p.includes with
    | none => true
    | some globs => globs.any (·.hits bytes)

def keeps (p : Policy) (k : Kind) : Bool :=
  match p.kinds with
  | none => true
  | some ks => ks.contains k

def sieve (p : Policy) : Sieve Unit := fun r _ _ s => (if p.keeps r.kind then some r else none, s)

def outline (p : Policy) (text : List Char) : Except SourceError (List Record) :=
  (outlineWith p.options p.sieve text ()).1

end Policy

end ScriptOutline
