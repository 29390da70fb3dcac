import ScriptOutline.Command
import ScriptOutline.Settings.Discovery
import ScriptOutline.Survey

/-!
What a command answers: its output, its diagnostics and its exit code, as a function of the working
directory and the input.
-/

set_option autoImplicit false

namespace ScriptOutline
open Text

/-- How a command ends: its exit code, its output, and the lines of its diagnostics. -/
structure Outcome where
  code : Nat
  output : List Char := []
  diagnostics : List String := []
  deriving DecidableEq, Repr

namespace Outcome

def linesOf (s : String) : List String := (lines s.toList).map String.ofList

/-- A cause of an error. The lines of it behind the first stand as far in as the first. -/
def cause (first next : String) (s : String) : List String :=
  match linesOf s with
  | [] => []
  | l :: ls => (first ++ l) :: ls.map (next ++ ·)

def place (n : Nat) : String := String.ofList ((Nat.toDigits 10 n).leftpad 5 ' ') ++ ": "

/-- The causes behind an error. Only where there are several they are numbered. -/
def causes : List String → List String
  | [] => []
  | [s] => ["", "Caused by:"] ++ cause "    " "    " s
  | ss =>
    ["", "Caused by:"] ++
      (ss.zipIdx.flatMap fun (s, n) => cause (place n) "       " s)

/-- The end of a command that fails: what went wrong, from the outside to the cause. -/
def failure (chain : List String) : Outcome :=
  match chain with
  | [] => ⟨1, [], []⟩
  | s :: rest => ⟨1, [], linesOf ("Error: " ++ s) ++ causes rest⟩

def success (output : List Char) (diagnostics : List String) : Outcome := ⟨0, output, diagnostics⟩

def misuse : Outcome := ⟨2, [], []⟩

end Outcome

namespace Policy

/-- A policy with what single options override: types replace types, switches only switch on. -/
def override (p : Policy) (types : List String) (withText strict : Bool) :
    Except String Policy := do
  let kinds ← types.mapM Kind.parse
  return { p with
    kinds := if types.isEmpty then p.kinds else some (Settings.kindSet kinds)
    options := ⟨p.options.withText || withText, p.options.strict || strict⟩ }

def countText (n : Nat) : String := String.ofList (Nat.toDigits 10 n)

def boolText (b : Bool) : String := if b then "true" else "false"

def description (p : Policy) (source : Option String) : List String :=
  let types := match p.kinds with
    | some ks => ", ".intercalate (ks.map Kind.name)
    | none => "all"
  let includes := if p.includes.isSome then "custom patterns" else "all files"
  ["Configuration:",
    "  Source: " ++ source.getD "defaults (no config file found)",
    "",
    "Extraction:",
    "  types: " ++ types,
    "  comment_body: " ++ boolText p.options.withText,
    "  strict_comments: " ++ boolText p.options.strict,
    "",
    "Filters:",
    "  include: " ++ includes,
    "  exclude: " ++ countText p.excludes.length ++ " patterns"]

end Policy

namespace Command

def unlines (ls : List String) : List Char := ls.flatMap fun l => l.toList ++ ['\n']

def warning (s : String) : String :=
  "WARN code_context_core: " ++ String.ofList (logged s.toList)

/-- A report as it is written: JSON gets a line feed of its own. -/
def report (format : Report.Format) (files : List FileOutline) : List Char :=
  Report.render files format ++
    match format with
    | .json => ['\n']
    | _ => []

/-- The outline of the input, by the name that it goes by. -/
def outlineInput (p : Policy) (input : Bytes) : Except SourceError FileOutline := do
  let text ← textOfBytes input
  let rs ← p.outline text
  return ⟨"<stdin>", rs⟩

/-- The directory in which settings are looked for: the path itself, if it is none of a file. -/
def root (d : Disk) (path : String) : String :=
  if path = "-" || d.isFile path then d.workingDir else path

/-- The records asked for. Settings come first, then the options, then the sources. -/
def runExtract (d : Disk) (input : Bytes) (path : String) (format : Report.Format)
    (settings : Option String) (types : List String) (withText strict : Bool) : Outcome :=
  match d.policy (root d path) settings with
  | .error e => .failure ("failed to load configuration" :: e.chain Json.Fault.message)
  | .ok (p, _) =>
    match p.override types withText strict with
    | .error e => .failure [e]
    | .ok p =>
      if path = "-" then
        match outlineInput p input with
        | .error e => .failure [e.message]
        | .ok f => .success (report format [f]) []
      else
        match Survey.ofPath? d p path with
        | none => .failure [s!"Path does not exist: {path}"]
        | some s =>
          .success (report format s.outlines) (s.warnings.flatMap (Outcome.linesOf ∘ warning))

def run (d : Disk) (input : Bytes) : Command → Outcome
  | .extract path format settings types withText strict =>
    runExtract d input path format settings types withText strict
  | .validate settings =>
    match d.policy d.workingDir settings with
    | .error e =>
      ⟨1, [], Outcome.linesOf
        ("Config validation failed: " ++ ": ".intercalate (e.chain Json.Fault.message))⟩
    | .ok (_, some path) => .success (unlines ["Config valid: " ++ path]) []
    | .ok (_, none) => .success (unlines ["No config file found. Using defaults."]) []
  | .describe settings =>
    match d.policy d.workingDir settings with
    | .error e => .failure ("failed to load configuration" :: e.chain Json.Fault.message)
    | .ok (p, source) => .success (unlines (p.description source)) []

def runArgs (d : Disk) (input : Bytes) (args : List String) : Outcome :=
  match ofArgs? args with
  | some c => c.run d input
  | none => .misuse

end Command

end ScriptOutline
