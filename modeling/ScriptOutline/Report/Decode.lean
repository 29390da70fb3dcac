import ScriptOutline.Record.Decode
import ScriptOutline.Report

/-!
Outlines of files out of JSON texts.
-/

set_option autoImplicit false

namespace ScriptOutline.FileOutline
open Json

def decodeRecords : Node → Decoded (List Record)
  | .array items stop => do
    let rs ← items.mapM (Record.decode 3)
    atStop stop
    return rs
  | n => n.invalid "a sequence"

/-- Takes the two fields where they stand and skips others. -/
def readFields (file : Option String) (records : Option (List Record)) :
    List Json.Field → Decoded (Option String × Option (List Record))
  | [] => .ok (file, records)
  | (key, n) :: fields => do
    let key ← ofFault key
    if key = "file" then
      if file.isSome then throw (.duplicateField "file")
      let s ← n.asText
      readFields (some s) records fields
    else if key = "contexts" then
      if records.isSome then throw (.duplicateField "contexts")
      let rs ← decodeRecords n
      readFields file (some rs) fields
    else
      ofFault n.skip
      readFields file records fields

def expected : String := "struct FileContext with 2 elements"

def decode : Node → Decoded FileOutline
  | .object fields stop => do
    let (file, records) ← readFields none none fields
    atStop stop
    match file, records with
    | none, _ => throw (.missingField "file")
    | _, none => throw (.missingField "contexts")
    | some file, some records => return ⟨file, records⟩
  | .array [] stop => do
    atStop stop
    throw (.invalidLength 0 expected)
  | .array [file] stop => do
    discard file.asText
    atStop stop
    throw (.invalidLength 1 expected)
  | .array (file :: records :: more) stop => do
    let file ← file.asText
    let records ← decodeRecords records
    if !more.isEmpty then malformed .trailingCharacters
    atStop stop
    return ⟨file, records⟩
  | n => n.invalid "struct FileContext"

def decodeAll : Node → Decoded (List FileOutline)
  | .array items stop => do
    let files ← items.mapM decode
    atStop stop
    return files
  | n => n.invalid "a sequence"

/-- The outlines that a JSON text holds. -/
def listOfText (s : List Char) : Decoded (List FileOutline) :=
  (Document.ofText s).decode decodeAll

end ScriptOutline.FileOutline
