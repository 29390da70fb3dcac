import ScriptOutline.Json.Print
import ScriptOutline.Record.Fields
import ScriptOutline.Text.Blank

/-!
Reports on outlines: as a table, as JSON, and as JSON with one record a line.
-/

set_option autoImplicit false

namespace ScriptOutline
open Json

/-- The records of one file. -/
structure FileOutline where
  file : String
  records : List Record
  deriving DecidableEq, Repr

namespace Report

/-! Tables. -/

def valueWidth : Nat := 60

def shorten (width : Nat) (s : List Char) : List Char :=
  if width < s.length then s.take (width - 3) ++ ['.', '.', '.'] else s

def cell (width : Nat) (s : List Char) : List Char := s.rightpad width ' '

def describe : Record → List Char
  | .comment first last _ => s!"lines {first}-{last}".toList
  | .code c =>
    match c.form.value? with
    | some v =>
      c.signature.toList ++ [' ', '=', ' '] ++ shorten valueWidth (Text.trimEnd v.toList)
    | none => c.signature.toList

def row (line kind description : List Char) : List Char :=
  [' ', ' '] ++ cell 6 line ++ ' ' :: cell 20 kind ++ ' ' :: description ++ ['\n']

def recordRow (r : Record) : List Char :=
  row (Nat.toDigits 10 r.line) r.kind.name.toList (describe r)

def fileTable (f : FileOutline) : List Char :=
  f.file.toList ++ '\n' ::
    if f.records.isEmpty then "  (no context)\n".toList
    else row "LINE".toList "TYPE".toList "SIGNATURE".toList ++ f.records.flatMap recordRow

def table (files : List FileOutline) : List Char := files.flatMap fileTable

/-! JSON. -/

def fileValue (f : FileOutline) : Value :=
  .object [("file", .text f.file), ("contexts", .array (f.records.map Record.value))]

def json (files : List FileOutline) : List Char := (Value.array (files.map fileValue)).pretty 0

/-- A record and its file, with the keys in order. -/
def lineValue (file : String) (r : Record) : Value :=
  .object (sortFields (r.fields ++ [("file", .text file)]))

def jsonLine (file : String) (r : Record) : List Char := (lineValue file r).compact ++ ['\n']

def jsonLines (files : List FileOutline) : List Char :=
  files.flatMap fun f => f.records.flatMap (jsonLine f.file)

inductive Format where
  | text | json | jsonl
  deriving DecidableEq, Repr

def render (files : List FileOutline) : Format → List Char
  | .text => table files
  | .json => json files
  | .jsonl => jsonLines files

end Report

end ScriptOutline
