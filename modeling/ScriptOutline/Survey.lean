import ScriptOutline.Disk
import ScriptOutline.Report
import ScriptOutline.Settings

/-!
Which files below a directory are sources, and the outlines of all of them.
-/

set_option autoImplicit false

namespace ScriptOutline
open Text

/-- A source file below a directory: the names on the way to it, its own last, and its bytes. -/
structure SourceFile where
  names : List String
  bytes : Bytes
  deriving DecidableEq, Repr

namespace SourceFile

/-- The extension of a file name. What a leading dot begins is none. -/
def extension? (name : String) : Option String :=
  match (pieces (· == '.') name.toList).reverse with
  | _ :: [] | _ :: [[]] | [] => none
  | ext :: _ => some (String.ofList ext)

def extensions : List String := ["js", "mjs", "cjs", "jsx", "ts", "mts", "cts", "tsx"]

def typesSuffix : List Char := ['.', 'd', '.', 't', 's']

/-- Whether a file name is that of a source. Files that only declare types are none. -/
def isSource (name : String) : Bool :=
  !typesSuffix.isSuffixOf name.toList && (extension? name).any extensions.contains

def skippedNames : List String := ["node_modules", "dist", "build", "coverage", "target"]

def isSkipped (name : String) : Bool :=
  name.toList.head? == some '.' || skippedNames.contains name

mutual

/-- The source files at a place, reached by `names`. Links are not followed. -/
def atTree (names : List String) (name : String) : Tree → List SourceFile
  | .file bytes => if isSource name then [⟨names ++ [name], bytes⟩] else []
  | .dir entries => if isSkipped name then [] else ofEntries (names ++ [name]) entries
  | .link _ => []

/-- The source files among the entries of a directory, and below. -/
def ofEntries (names : List String) : List (String × Tree) → List SourceFile
  | [] => []
  | (name, t) :: entries => atTree names name t ++ ofEntries names entries

end

def namesLe : List String → List String → Bool
  | [], _ => true
  | _ :: _, [] => false
  | a :: as, b :: bs => a < b || (a == b && namesLe as bs)

/-- The source files below a directory, in the order of their names. -/
def below (entries : List (String × Tree)) : List SourceFile :=
  (ofEntries [] entries).mergeSort fun f g => namesLe f.names g.names

def relative (f : SourceFile) : String := "/".intercalate f.names

def path (root : String) (f : SourceFile) : String := joinPath root f.relative

end SourceFile

/-- What is found in files, and the files that nothing could be found in. -/
structure Survey where
  outlines : List FileOutline := []
  skipped : List (String × SourceError) := []

namespace Survey

/-- Adds a file, or the reason why it is skipped, in front. -/
def add (p : Policy) (path : String) (bytes : Bytes) (s : Survey) : Survey :=
  match textOfBytes bytes >>= p.outline with
  | .ok rs => { s with outlines := ⟨path, rs⟩ :: s.outlines }
  | .error e => { s with skipped := (path, e) :: s.skipped }

def ofFiles (p : Policy) (files : List (String × Bytes)) : Survey :=
  files.foldr (fun f s => s.add p f.1 f.2) {}

/-- The files that a path leads to: a file by itself, whatever its name, or the source files below
a directory. A policy admits them by the path from there. -/
def files? (d : Disk) (p : Policy) (path : String) : Option (List (String × Bytes)) :=
  match d.find path with
  | .ok (.file bytes) => some (if p.admits path then [(path, bytes)] else [])
  | .ok (.dir entries) =>
    some (((SourceFile.below entries).filter fun f => p.admits f.relative).map fun f =>
      (f.path path, f.bytes))
  | _ => none

/-- The survey of a file or a directory, if there is one at the path. -/
def ofPath? (d : Disk) (p : Policy) (path : String) : Option Survey :=
  (files? d p path).map (ofFiles p)

def missing (path : String) : String := s!"path does not exist: {path}"

def warnings (s : Survey) : List String :=
  if s.skipped.isEmpty then []
  else (s.skipped.map fun (path, e) => s!"skipping file {path}: {e.message}") ++
    [s!"skipped {s.skipped.length} file(s) due to extraction errors"]

end Survey

end ScriptOutline
