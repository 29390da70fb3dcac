import Mathlib.Algebra.GroupWithZero.Nat
import Mathlib.Data.List.Forall2
import ScriptOutline.Proofs.RoundTrip

/-!
JSON with one record a line: every line is an object by itself, from which the record and its file
can be read, and there is nothing else (`json_lines_rows`).
-/

set_option autoImplicit false

namespace ScriptOutline
open Json

namespace Json

/-! Values on one line. -/

theorem newline_not_mem_escape (c : Char) : '\n' ∉ escape c := by
  have hdigit : ∀ n < 16, '\n' ≠ hexDigit n := by decide
  unfold escape
  split
  case h_8 _ _ hnewline _ _ =>
    split
    case isTrue hcontrol =>
      have hhigh := hdigit (c.toNat / 16) (by omega)
      have hlow := hdigit (c.toNat % 16) (by omega)
      simp [hhigh, hlow]
    case isFalse => simpa using fun h => hnewline h.symm
  all_goals decide

theorem newline_not_mem_textLiteral (s : String) : '\n' ∉ textLiteral s := by
  simp [textLiteral, newline_not_mem_escape]

theorem newline_not_mem_toDigits (n : Nat) : '\n' ∉ Nat.toDigits 10 n := fun h =>
  absurd (Nat.isDigit_of_mem_toDigits (by decide) (by decide) h) (by decide)

theorem newline_not_mem_wholeText (n : Int) : '\n' ∉ wholeText n := by
  unfold wholeText
  split <;> simp [newline_not_mem_toDigits]

mutual

theorem newline_not_mem_compact (v : Value) (hv : v.Natural) : '\n' ∉ v.compact := by
  match v with
  | .null => decide
  | .bool b => cases b <;> decide
  | .number (.real x) => exact absurd hv id
  | .number (.whole n) => exact newline_not_mem_wholeText n
  | .text s => exact newline_not_mem_textLiteral s
  | .array vs => simpa [Value.compact] using newline_not_mem_compactItems vs hv
  | .object fields => simpa [Value.compact] using newline_not_mem_compactFields fields hv

theorem newline_not_mem_compactItems (vs : List Value) (hvs : ItemsNatural vs) :
    '\n' ∉ compactItems vs := by
  match vs with
  | [] => simp [compactItems]
  | [v] => exact newline_not_mem_compact v hvs.1
  | v :: w :: vs =>
    have hv := newline_not_mem_compact v hvs.1
    have htail := newline_not_mem_compactItems (w :: vs) hvs.2
    simp [compactItems, hv, htail]

theorem newline_not_mem_compactFields (fields : List (String × Value))
    (hfields : FieldsNatural fields) : '\n' ∉ compactFields fields := by
  match fields with
  | [] => simp [compactFields]
  | [(k, v)] =>
    have hv := newline_not_mem_compact v hfields.1
    simp [compactFields, newline_not_mem_textLiteral, hv]
  | (k, v) :: f :: fields =>
    have hv := newline_not_mem_compact v hfields.1
    have htail := newline_not_mem_compactFields (f :: fields) hfields.2
    simp [compactFields, newline_not_mem_textLiteral, hv, htail]

end

theorem Value.ofText_compact {v : Value} (hv : v.Natural) (hdepth : v.depth ≤ depthLimit) :
    Value.ofText v.compact = .ok v := by
  have hread : v.node.value 0 = .ok v := value_node v 0 (by omega)
  rw [Value.ofText, document_compact hv, Document.decode, hread]
  rfl

theorem fieldDepth_le {fields : List (String × Value)} {n : Nat} (h : ∀ f ∈ fields, f.2.depth ≤ n) :
    fieldDepth fields ≤ n := by
  induction fields with
  | nil => exact Nat.zero_le n
  | cons f fields ih =>
    exact Nat.max_le.2 ⟨h f List.mem_cons_self, ih fun g hg => h g (List.mem_cons_of_mem _ hg)⟩

end Json

namespace Report

/-! Rows. -/

/-- No field of any kind goes by the name of the file. -/
theorem lookup_fields_file (k : Kind) : k.fields.lookup "file" = none := by
  cases k <;> rfl

/-- The fields of a row, in whatever order. -/
def rowFields (file : String) (r : Record) : List (String × Value) :=
  r.fields ++ [("file", .text file)]

section

variable {r : Record} (h : r.InRange) (file : String)

include h

theorem nodup_keys_rowFields : ((rowFields file r).map Prod.fst).Nodup := by
  rw [rowFields, List.map_append, List.map_singleton, ← List.concat_eq_append, List.nodup_concat]
  refine ⟨?_, r.nodup_keys_fields⟩
  intro hmem
  obtain ⟨f, hf, hkey⟩ := List.mem_map.1 hmem
  rw [r.fields_eq_cons, List.mem_cons] at hf
  rcases hf with rfl | hf
  · exact absurd hkey (show "type" ≠ "file" by decide)
  · obtain ⟨t, ht, -⟩ := Record.fields_hold h f hf
    rw [hkey, lookup_fields_file] at ht
    contradiction

theorem rowFields_perm : (sortFields (rowFields file r)).Perm (rowFields file r) :=
  sortFields_perm (nodup_keys_rowFields h file)

theorem nodup_keys_row : ((sortFields (rowFields file r)).map Prod.fst).Nodup :=
  ((rowFields_perm h file).map Prod.fst).nodup_iff.2 (nodup_keys_rowFields h file)

theorem flat_of_mem_row {f : String × Value} (hf : f ∈ sortFields (rowFields file r)) :
    f.2.Natural ∧ f.2.depth ≤ 1 := by
  rcases List.mem_append.1 ((rowFields_perm h file).mem_iff.1 hf) with hf | hf
  · exact Record.flat_of_mem_fields h hf
  · rw [List.mem_singleton.1 hf]
    exact ⟨trivial, Nat.zero_le 1⟩

theorem natural_lineValue : (lineValue file r).Natural := by
  rw [lineValue, Value.Natural, fieldsNatural_iff]
  exact fun f hf => (flat_of_mem_row h file hf).1

theorem depth_lineValue : (lineValue file r).depth ≤ 2 := by
  have hfields : fieldDepth (sortFields (rowFields file r)) ≤ 1 :=
    fieldDepth_le fun f hf => (flat_of_mem_row h file hf).2
  exact Nat.succ_le_succ hfields

theorem ofText_row : Record.ofText (lineValue file r).compact = .ok r := by
  have hfile : ∀ f ∈ [("file", Value.text file)],
      r.kind.fields.lookup f.1 = none ∧ Record.Untagged 1 f := by
    intro f hf
    obtain rfl := List.mem_singleton.1 hf
    have htype : "file" ≠ "type" := by decide
    have hargs : "file" ≠ "args" := by decide
    exact ⟨lookup_fields_file r.kind, htype, hargs, show 1 + 0 ≤ depthLimit by decide⟩
  have hread : Record.decode 0 (lineValue file r).node = .ok r :=
    Record.decode_node_of_perm h (by decide) (rowFields_perm h file) (nodup_keys_row h file) hfile
  rw [Record.ofText, document_compact (natural_lineValue h file), Document.decode, hread]
  rfl

end

/-- What a row says by itself: nothing but an object on one line, with the name of the file beside
the fields of the record. -/
structure IsRow (row : List Char) (file : String) (r : Record) : Prop where
  one_line : '\n' ∉ row
  object : ∃ fields, Value.ofText row = .ok (.object fields) ∧ fields.Perm (rowFields file r) ∧
    (fields.map Prod.fst).Nodup ∧ fields.lookup "file" = some (.text file)
  record : Record.ofText row = .ok r

theorem isRow_compact {r : Record} (h : r.InRange) (file : String) :
    IsRow (lineValue file r).compact file r where
  one_line := newline_not_mem_compact _ (natural_lineValue h file)
  object := by
    have hdepth : (lineValue file r).depth ≤ depthLimit :=
      Nat.le_trans (depth_lineValue h file) (by decide)
    refine ⟨sortFields (rowFields file r), Value.ofText_compact (natural_lineValue h file) hdepth,
      rowFields_perm h file, nodup_keys_row h file, ?_⟩
    rw [lookup_eq_some_iff_mem (nodup_keys_row h file), (rowFields_perm h file).mem_iff]
    exact List.mem_append_right _ (List.mem_singleton_self _)
  record := ofText_row h file

/-- The records of all files in order, each with its file. -/
def filed (files : List FileOutline) : List (String × Record) :=
  files.flatMap fun f => f.records.map (f.file, ·)

theorem jsonLines_eq_flatMap (files : List FileOutline) :
    jsonLines files = (filed files).flatMap fun p => jsonLine p.1 p.2 := by
  simp [jsonLines, filed, List.flatMap_assoc, List.flatMap_map]

end Report

open Report

/-- With one record a line there is a row for each record of each file, in their order, and nothing
else. The rows hold the same records of the same files as all outlines in one JSON text do. -/
theorem json_lines_rows (files : List FileOutline) (h : ∀ f ∈ files, f.InRange) :
    ∃ rows : List (List Char),
      Report.jsonLines files = rows.flatMap (· ++ ['\n']) ∧
      rows.length = (files.map fun f => f.records.length).sum ∧
      List.Forall₂ (fun row p => IsRow row p.1 p.2) rows (filed files) ∧
      (FileOutline.listOfText (Report.json files)).map filed = .ok (filed files) := by
  refine ⟨(filed files).map fun p => (lineValue p.1 p.2).compact, ?_, ?_, ?_, ?_⟩
  · rw [jsonLines_eq_flatMap, List.flatMap_map]
    rfl
  · simp [filed, List.length_flatMap]
  · rw [List.forall₂_map_left_iff, List.forall₂_same]
    intro p hp
    obtain ⟨f, hf, hp⟩ := List.mem_flatMap.1 hp
    obtain ⟨r, hr, rfl⟩ := List.mem_map.1 hp
    exact isRow_compact (h f hf r hr) f.file
  · rw [FileOutline.listOfText_json h]
    rfl

theorem json_lines_rows_greatest_line :
    ∃ rows : List (List Char),
      Report.jsonLines [⟨"", []⟩, ⟨"\"\n.js", [.comment 0 0xFFFFFFFFFFFFFFFF (some "\n"),
          .code ⟨1, .functionExpression none ["\x01"], "file", "\\", "type\r\n"⟩]⟩] =
        rows.flatMap (· ++ ['\n']) ∧
      rows.length = 2 ∧
      List.Forall₂ (fun row p => IsRow row p.1 p.2) rows
        [("\"\n.js", .comment 0 0xFFFFFFFFFFFFFFFF (some "\n")),
          ("\"\n.js", .code ⟨1, .functionExpression none ["\x01"], "file", "\\", "type\r\n"⟩)] := by
  obtain ⟨rows, htext, hlength, hrows, -⟩ := json_lines_rows
    [⟨"", []⟩, ⟨"\"\n.js", [.comment 0 0xFFFFFFFFFFFFFFFF (some "\n"),
      .code ⟨1, .functionExpression none ["\x01"], "file", "\\", "type\r\n"⟩]⟩] (by decide)
  exact ⟨rows, htext, hlength, hrows⟩

end ScriptOutline
