import ScriptOutline.Report

/-!
The command line: what arguments ask for.
-/

set_option autoImplicit false

namespace ScriptOutline

inductive Command where
  /-- The records at a path, or of the input for a dash, under settings that single options
  override. -/
  | extract (path : String) (format : Report.Format) (settings : Option String)
      (types : List String) (withText strict : Bool)
  | validate (settings : Option String)
  | describe (settings : Option String)
  deriving DecidableEq, Repr

namespace Command

/-! Arguments. -/

/-- An argument, or an option with the argument that is its value. -/
inductive Item where
  | flag (name : String)
  | option (name value : String)
  | operand (s : String)
  deriving DecidableEq, Repr

/-- A dash with something behind it does not stand for a value. -/
def isDashed (arg : List Char) : Bool := arg.head? == some '-' && arg != ['-']

/-- The name of a long option and the value behind an equals sign. -/
def splitOption (arg : List Char) : String × Option String :=
  let name := arg.takeWhile (· != '=')
  (String.ofList name,
    if name.length < arg.length then some (String.ofList (arg.drop (name.length + 1))) else none)

def verbose : String := "--verbose"

/-- Sorts arguments, given the options with a value and those without. Behind two dashes there are
no options. Nothing may be unknown, lack its value or have one too many. -/
def sort (valued flags : List String) : List String → Option (List Item)
  | [] => some []
  | arg :: rest =>
    if arg = "--" then some (rest.map .operand)
    else if arg = "-v" then (sort valued flags rest).map (.flag verbose :: ·)
    else if !isDashed arg.toList then (sort valued flags rest).map (.operand arg :: ·)
    else
      match splitOption arg.toList with
      | (name, some value) =>
        if valued.contains name then (sort valued flags rest).map (.option name value :: ·) else none
      | (name, none) =>
        if (verbose :: flags).contains name then (sort valued flags rest).map (.flag name :: ·)
        else if valued.contains name then
          match rest with
          | [] => none
          | value :: rest =>
            if isDashed value.toList then none
            else (sort valued flags rest).map (.option name value :: ·)
        else none

def operands (items : List Item) : List String :=
  items.filterMap fun | .operand s => some s | _ => none

def values (name : String) (items : List Item) : List String :=
  items.filterMap fun | .option n v => if n = name then some v else none | _ => none

/-- Whether a flag is given, which it may be once. -/
def flag? (name : String) (items : List Item) : Option Bool :=
  match items.count (.flag name) with
  | 0 => some false
  | 1 => some true
  | _ => none

/-- The value of an option that may be given once. -/
def value? (name : String) (items : List Item) : Option (Option String) :=
  match values name items with
  | [] => some none
  | [v] => some (some v)
  | _ => none

/-- A path that may be given once, and is not empty. -/
def path? (name : String) (items : List Item) : Option (Option String) := do
  let p ← value? name items
  if p = some "" then none else some p

def format? : Option String → Option Report.Format
  | none | some "text" => some .text
  | some "json" => some .json
  | some "jsonl" => some .jsonl
  | some _ => none

def extract? (args : List String) : Option Command := do
  let items ← sort ["--format", "--config", "--type"] ["--comment-body", "--strict-comments"] args
  let format ← format? (← value? "--format" items)
  let settings ← path? "--config" items
  let withText ← flag? "--comment-body" items
  let strict ← flag? "--strict-comments" items
  let _ ← flag? verbose items
  match operands items with
  | [path] =>
    if path = "" then none
    else some (.extract path format settings (values "--type" items) withText strict)
  | _ => none

/-- A command that takes nothing but the path of its settings. -/
def settings? (args : List String) (command : Option String → Command) : Option Command := do
  let items ← sort ["--path"] [] args
  let settings ← path? "--path" items
  let _ ← flag? verbose items
  if (operands items).isEmpty then some (command settings) else none

/-- The arguments behind the one flag that may stand in front of a command. -/
def dropVerbose : List String → Option (List String)
  | [] => some []
  | arg :: rest =>
    if arg = "-v" || arg = verbose then
      match rest with
      | [] => some []
      | next :: _ => if next = "-v" || next = verbose then none else some rest
    else some (arg :: rest)

/-- The command that arguments give, if they give one. -/
def ofArgs? (args : List String) : Option Command := do
  match ← dropVerbose args with
  | "extract" :: args => extract? args
  | "config" :: args =>
    match ← dropVerbose args with
    | "validate" :: args => settings? args .validate
    | "show" :: args => settings? args .describe
    | _ => none
  | _ => none

end Command

end ScriptOutline
