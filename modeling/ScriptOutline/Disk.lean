import ScriptOutline.Text.Pieces
import ScriptOutline.Text.Utf8

/-!
A working directory and what can be reached from it: files, directories and symbolic links.
-/

set_option autoImplicit false

namespace ScriptOutline
open Text

/-- A file, a directory or a symbolic link. -/
inductive Tree where
  | file (bytes : Bytes)
  | dir (entries : List (String × Tree))
  | link (target : String)

/-- Why nothing can be read at a path. -/
inductive AccessError where
  | notFound | notDirectory | isDirectory | tooManyLinks | nameTooLong | nullCharacter | notText
  deriving DecidableEq, Repr

def AccessError.message : AccessError → String
  | notFound => "No such file or directory (os error 2)"
  | notDirectory => "Not a directory (os error 20)"
  | isDirectory => "Is a directory (os error 21)"
  | tooManyLinks => "Too many levels of symbolic links (os error 40)"
  | nameTooLong => "File name too long (os error 36)"
  | nullCharacter => "file name contained an unexpected NUL byte"
  | notText => "stream did not contain valid UTF-8"

def steps (path : String) : List String := (pieces (· == '/') path.toList).map String.ofList

def joinPath (path name : String) : String :=
  if path.isEmpty || path.toList.getLast? == some '/' then path ++ name else path ++ "/" ++ name

/-- A working directory, by its absolute path, with all that is below it. -/
structure Disk where
  workingDir : String
  entries : List (String × Tree)

namespace Disk

def linkLimit : Nat := 40

/-- The steps of an absolute path below the working directory. -/
def below? (d : Disk) (path : String) : Option (List String) :=
  if path = d.workingDir then some []
  else
    (after? (joinPath d.workingDir "").toList path.toList).map fun rest =>
      steps (String.ofList rest)

def isAbsolute (path : String) : Bool := path.toList.head? == some '/'

def nameLimit : Nat := 255

def pathLimit : Nat := 4095

/-- Goes on from the directories `here`, the innermost first. Every step but the last has to lead to
a directory; a link is followed from the directory that it is in. -/
def follow (d : Disk) (links : Nat) (here : List Tree) : List String → Except AccessError Tree
  | [] =>
    match here with
    | [] => .error .notFound
    | t :: _ => .ok t
  | step :: rest =>
    match here with
    | [] => .error .notFound
    | .dir entries :: above =>
      if step = "" || step = "." then d.follow links here rest
      else if step = ".." then d.follow links above rest
      else if nameLimit < step.utf8ByteSize then .error .nameTooLong
      else
        match entries.lookup step with
        | none => .error .notFound
        | some (.link target) =>
          match links with
          | 0 => .error .tooManyLinks
          | links + 1 =>
            if isAbsolute target then
              match d.below? target with
              | some path => d.follow links [.dir d.entries] (path ++ rest)
              | none => .error .notFound
            else d.follow links here (steps target ++ rest)
        | some t => d.follow links (t :: here) rest
    | _ :: _ => .error .notDirectory
  termination_by path => (links, path.length)

def find (d : Disk) (path : String) : Except AccessError Tree :=
  if path.toList.contains '\x00' then .error .nullCharacter
  else if path = "" then .error .notFound
  else if pathLimit < path.utf8ByteSize then .error .nameTooLong
  else if isAbsolute path then
    match d.below? path with
    | some path => d.follow linkLimit [.dir d.entries] path
    | none => .error .notFound
  else d.follow linkLimit [.dir d.entries] (steps path)

def exists? (d : Disk) (path : String) : Bool := (d.find path).toOption.isSome

def isFile (d : Disk) (path : String) : Bool :=
  match d.find path with
  | .ok (.file _) => true
  | _ => false

def read (d : Disk) (path : String) : Except AccessError Bytes := do
  match ← d.find path with
  | .file bytes => return bytes
  | .dir _ => throw .isDirectory
  | .link _ => throw .notFound

def readText (d : Disk) (path : String) : Except AccessError (List Char) := do
  (decodeUtf8 (← d.read path)).mapError fun _ => .notText

end Disk

end ScriptOutline
