import ScriptOutline.Disk
import ScriptOutline.Settings.Decode

/-!
Where settings are looked for, and what may go wrong on the way.
-/

set_option autoImplicit false

namespace ScriptOutline
open Json

inductive LoadError where
  | unreadable (path : String) (why : AccessError)
  | malformed (path : String) (why : Problem)
  | meaningless (path : String) (why : SettingsError)
  | packageUnreadable (path : String) (why : AccessError)
  | packageMalformed (path : String) (why : Problem)
  | sectionMalformed (path : String) (why : Problem)
  | sectionMeaningless (path : String) (why : SettingsError)
  | unresolved (why : SettingsError)

/-- The explanation, from the outside to the cause, given the wording of faults. -/
def LoadError.chain (fault : Fault → String) : LoadError → List String
  | unreadable path why => [s!"failed to read config file: {path}", why.message]
  | malformed path why => [s!"failed to parse config file: {path}", why.describe fault]
  | meaningless path why => s!"invalid config in: {path}" :: why.chain
  | packageUnreadable path why => [s!"failed to read {path}", why.message]
  | packageMalformed path why => [s!"failed to parse {path}", why.describe fault]
  | sectionMalformed path why => [s!"invalid codeContext config in {path}", why.describe fault]
  | sectionMeaningless path why => s!"invalid codeContext config in {path}" :: why.chain
  | unresolved why => why.chain

namespace Disk

def loadSettings (d : Disk) (path : String) : Except LoadError Settings := do
  let text ← (d.readText path).mapError (.unreadable path)
  let s ← (Settings.ofText text).mapError (.malformed path)
  s.validate.mapError (.meaningless path)
  return s

/-- Settings in a section of a file that is about a package as a whole, if it has that section. -/
def loadSection (d : Disk) (path : String) : Except LoadError (Option Settings) := do
  let text ← (d.readText path).mapError (.packageUnreadable path)
  let v ← (Settings.section? "codeContext" text).mapError (.packageMalformed path)
  match v with
  | none => return none
  | some v => do
    let s ← (Settings.ofValue v).mapError (.sectionMalformed path)
    s.validate.mapError (.sectionMeaningless path)
    return some s

/-- The settings of the first file under `root` that there is, and its path. A package without the
section has none, and nothing else is looked at. -/
def discover (d : Disk) (root : String) : Except LoadError (Option (Settings × String)) :=
  let hidden := joinPath root ".codecontextrc.json"
  let visible := joinPath root "codecontext.config.json"
  let package := joinPath root "package.json"
  if d.exists? hidden then (d.loadSettings hidden).map fun s => some (s, hidden)
  else if d.exists? visible then (d.loadSettings visible).map fun s => some (s, visible)
  else if d.exists? package then
    (d.loadSection package).map fun s? => s?.map fun s => (s, package)
  else .ok none

/-- The policy for `root`, and the path of the settings behind it: those at an explicit path, or
those that are found, or the defaults. -/
def policy (d : Disk) (root : String) (explicit : Option String) :
    Except LoadError (Policy × Option String) := do
  let found ←
    match explicit with
    | some path => (d.loadSettings path).map fun s => some (s, path)
    | none => d.discover root
  let (s, path) := match found with
    | some (s, path) => (s, some path)
    | none => ({}, none)
  let p ← s.resolve.mapError .unresolved
  return (p, path)

end Disk

end ScriptOutline
