import ScriptOutline.Command.Run

/-!
The program: reads the working directory, runs one command, and prints what it answers.
-/

set_option autoImplicit false

namespace ScriptOutline.Main
open Text

/-- The paths that a command names, in steps. -/
def asked : Command → List (List String)
  | .extract path _ settings _ _ _ => steps path :: (settings.map steps).toList
  | .validate settings | .describe settings => (settings.map steps).toList

/-- Reads a directory, without what a survey passes by and no path asked for leads through. -/
partial def readEntries (dir : String) (asked : List (List String)) :
    IO (List (String × Tree)) := do
  let mut entries := []
  for entry in ← (← IO.FS.realPath dir).readDir do
    let name := entry.fileName
    let path := dir ++ "/" ++ name
    let onward := asked.filterMap fun
      | step :: rest => if step = name then some rest else none
      | [] => none
    match (← entry.path.symlinkMetadata).type with
    | .file => entries := (name, .file (← IO.FS.readBinFile path).toList) :: entries
    | .symlink => entries := (name, .link (← IO.FS.realPath path).toString) :: entries
    | .dir =>
      let inner ←
        if SourceFile.isSkipped name && onward.isEmpty then pure []
        else readEntries path (onward.filter (!·.isEmpty))
      entries := (name, .dir inner) :: entries
    | .other => pure ()
  return entries

def plain (path : List String) : List String := path.filter fun s => s != "" && s != "."

def readDisk (c : Command) : IO Disk := do
  let here := (← IO.currentDir).toString
  return ⟨here, ← readEntries here ((asked c).map plain)⟩

def finish (o : Outcome) : IO UInt32 := do
  for l in o.diagnostics do IO.eprintln l
  IO.print (String.ofList o.output)
  return o.code.toUInt32

end ScriptOutline.Main

/-- Runs the command that the arguments give, in the working directory. -/
def main (args : List String) : IO UInt32 := do
  match ScriptOutline.Command.ofArgs? args with
  | none =>
    IO.eprintln "usage: extract PATH | config validate | config show"
    return 2
  | some c =>
    let input ← match c with
      | .extract "-" .. => (← IO.getStdin).readBinToEnd
      | _ => pure ByteArray.empty
    ScriptOutline.Main.finish (c.run (← ScriptOutline.Main.readDisk c) input.toList)
