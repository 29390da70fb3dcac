import Mathlib.Data.List.DropRight
import ScriptOutline.Proofs.Classification
import ScriptOutline.Proofs.JsonLines
import ScriptOutline.Proofs.RecordInvariant

/-!
The table of outlines. It has a line for each file, and one for each record below: what is taken
from a line of source holds no line feed, so neither does a row. Rows are laid out in columns, and
the line and the kind of a record are read back from its row (`table_rows`).
-/

set_option autoImplicit false

namespace ScriptOutline
open Text

/-- The records of a file are those of some text, through a sieve that drops records or renames
them. -/
def FileOutline.Outlined (f : FileOutline) : Prop :=
  ∃ (σ : Type) (sieve : Sieve σ) (o : Options) (text : List Char) (s : σ),
    sieve.OnlyRenames ∧ (outlineWith o sieve text s).1 = .ok f.records

namespace Report

/-! Rows. -/

/-- The digits of a row, behind its indent. -/
def rowDigits (row : List Char) : List Char := (row.drop 2).takeWhile Char.isDigit

/-- Where the kind of a row begins: the digits fill six places if they are fewer, and a blank
follows them. -/
def kindPlace (row : List Char) : Nat := 2 + max 6 (rowDigits row).length + 1

/-- The kind that a row names in twenty places, blanks at their end aside. -/
def rowKind? (row : List Char) : Option Kind :=
  Kind.ofName? (String.ofList (((row.drop (kindPlace row)).take 20).rdropWhile (· == ' ')))

/-- What a row says in its last column, which a blank parts from the kind. -/
def rowCell (row : List Char) : List Char := row.drop (kindPlace row + 20 + 1)

/-- What is left of a value without the whitespace at its end. -/
def IsTrimmed (v kept : List Char) : Prop :=
  ∃ gap, v = kept ++ gap ∧ (∀ c ∈ gap, isWhitespace c = true) ∧
    ∀ c ∈ kept.getLast?, isWhitespace c = false

/-- What is said of a record: where a comment begins and ends, the signature of a function, and the
signature and the value of anything else. Of a value with more than sixty characters the first
fifty-seven are shown. -/
inductive Says : Record → List Char → Prop
  | comment {first last : Nat} {text : Option String} :
      Says (.comment first last text) s!"lines {first}-{last}".toList
  | function {c : CodeLine} : c.form.value? = none → Says (.code c) c.signature.toList
  | value {c : CodeLine} {v : String} {kept : List Char} : c.form.value? = some v →
      IsTrimmed v.toList kept → kept.length ≤ 60 →
      Says (.code c) (c.signature.toList ++ " = ".toList ++ kept)
  | shortened {c : CodeLine} {v : String} {kept : List Char} : c.form.value? = some v →
      IsTrimmed v.toList kept → 60 < kept.length →
      Says (.code c) (c.signature.toList ++ " = ".toList ++ kept.take 57 ++ "...".toList)

/-- A row shows a record: an indent, the line in digits, the kind, and what is said of it. -/
structure Shows (row : List Char) (r : Record) : Prop where
  one_line : '\n' ∉ row
  indent : row.take 2 = [' ', ' ']
  line : Nat.ofDigitChars 10 (rowDigits row) 0 = r.line
  fill : ∀ c ∈ (row.take (kindPlace row)).drop (2 + (rowDigits row).length), c = ' '
  kind : rowKind? row = some r.kind
  gap : row[kindPlace row + 20]? = some ' '
  cell : Says r (rowCell row)

/-- The row of a record, without the line feed that ends it. -/
def rowText (r : Record) : List Char :=
  [' ', ' '] ++ cell 6 (Nat.toDigits 10 r.line) ++ ' ' :: cell 20 r.kind.name.toList ++
    ' ' :: describe r

theorem rowText_mapName (g : String → String) (r : Record) : rowText (r.mapName g) = rowText r := by
  cases r <;> rfl

theorem isTrimmed_trimEnd (v : List Char) : IsTrimmed v (trimEnd v) := by
  obtain ⟨gap, hgap, hv⟩ := exists_eq_trimEnd_append v
  refine ⟨gap, hv, hgap, fun c hc => ?_⟩
  obtain ⟨hne, hlast⟩ := List.mem_getLast?_eq_getLast hc
  have hstop := List.rdropWhile_last_not isWhitespace v hne
  rw [Bool.not_eq_true] at hstop
  rw [hlast]
  exact hstop

theorem says_describe (r : Record) : Says r (describe r) := by
  cases r with
  | comment first last text => exact .comment
  | code c =>
    cases hv : c.form.value? with
    | none =>
      simp only [describe, hv]
      exact .function hv
    | some v =>
      have htrimmed := isTrimmed_trimEnd v.toList
      simp only [describe, hv, shorten]
      split
      · rename_i hlong
        have hsays := Says.shortened hv htrimmed hlong
        rwa [List.append_assoc] at hsays
      · rename_i hshort
        exact .value hv htrimmed (Nat.le_of_not_lt hshort)

/-! Columns. -/

theorem length_kindCell (k : Kind) : (cell 20 k.name.toList).length = 20 := by
  cases k <;> rfl

theorem ofName?_kindCell (k : Kind) :
    Kind.ofName? (String.ofList ((cell 20 k.name.toList).rdropWhile (· == ' '))) = some k := by
  cases k <;> decide +kernel

/-- A row up to its kind. -/
def rowStart (r : Record) : List Char :=
  [' ', ' '] ++ Nat.toDigits 10 r.line ++
    List.replicate (6 - (Nat.toDigits 10 r.line).length + 1) ' '

section
variable (r : Record)

theorem rowText_eq :
    rowText r = rowStart r ++ (cell 20 r.kind.name.toList ++ ' ' :: describe r) := by
  simp [rowText, rowStart, cell, List.rightpad, List.replicate_succ']

theorem rowDigits_rowText : rowDigits (rowText r) = Nat.toDigits 10 r.line := by
  have hdrop : (rowText r).drop 2 = Nat.toDigits 10 r.line ++
      ' ' :: (List.replicate (6 - (Nat.toDigits 10 r.line).length) ' ' ++
        (cell 20 r.kind.name.toList ++ ' ' :: describe r)) := by
    rw [rowText_eq, rowStart, List.replicate_succ, List.append_assoc, List.append_assoc]
    rfl
  rw [rowDigits, hdrop]
  refine (Line.takeWhile_dropWhile_eq_iff.2 ⟨rfl, fun c hc => ?_, fun c hc => ?_⟩).1
  · exact Nat.isDigit_of_mem_toDigits (by decide) (by decide) hc
  · cases hc
    rfl

theorem length_rowStart : (rowStart r).length = kindPlace (rowText r) := by
  rw [kindPlace, rowDigits_rowText]
  simp only [rowStart, List.length_append, List.length_cons, List.length_nil,
    List.length_replicate]
  omega

theorem drop_kindPlace : (rowText r).drop (kindPlace (rowText r)) =
    cell 20 r.kind.name.toList ++ ' ' :: describe r := by
  rw [← length_rowStart, rowText_eq, List.drop_left]

theorem rowKind?_rowText : rowKind? (rowText r) = some r.kind := by
  rw [rowKind?, drop_kindPlace, List.take_left' (length_kindCell r.kind), ofName?_kindCell]

theorem rowCell_rowText : rowCell (rowText r) = describe r := by
  rw [rowCell, Nat.add_assoc, ← List.drop_drop, drop_kindPlace, ← List.drop_drop,
    List.drop_left' (length_kindCell r.kind)]
  rfl

variable {r}

theorem shows_rowText (h : '\n' ∉ rowText r) : Shows (rowText r) r where
  one_line := h
  indent := by
    rw [rowText_eq, rowStart]
    rfl
  line := by rw [rowDigits_rowText, Nat.ofDigitChars_ten_toDigits]
  fill := by
    have hstart : (rowText r).take (kindPlace (rowText r)) = rowStart r := by
      rw [← length_rowStart, rowText_eq, List.take_left]
    have hdigits : 2 + (Nat.toDigits 10 r.line).length =
        ([' ', ' '] ++ Nat.toDigits 10 r.line).length := by
      rw [List.length_append]
      rfl
    intro c hc
    rw [hstart, rowDigits_rowText, hdigits, rowStart, List.drop_left] at hc
    exact List.eq_of_mem_replicate hc
  kind := rowKind?_rowText r
  gap := by
    have hlength := length_kindCell r.kind
    rw [← List.getElem?_drop, drop_kindPlace, List.getElem?_append_right (Nat.le_of_eq hlength),
      hlength]
    rfl
  cell := by
    rw [rowCell_rowText]
    exact says_describe r

end

/-! Rows are lines. -/

theorem newline_not_mem_kind (k : Kind) : '\n' ∉ k.name.toList := by
  cases k <;> decide +kernel

theorem newline_not_mem_cell {s : List Char} (h : '\n' ∉ s) (width : Nat) :
    '\n' ∉ cell width s := by
  simp [cell, List.rightpad, h]

theorem newline_not_mem_describe_code {c : CodeLine} (hsignature : '\n' ∉ c.signature.toList)
    (hvalue : ∀ v, c.form.value? = some v → '\n' ∉ v.toList) : '\n' ∉ describe (.code c) := by
  cases hv : c.form.value? with
  | none => simpa only [describe, hv]
  | some v =>
    have htrimmed : '\n' ∉ trimEnd v.toList := fun h =>
      hvalue v hv ((List.rdropWhile_prefix isWhitespace v.toList).subset h)
    simp only [describe, hv, shorten]
    split
    · have hkept : '\n' ∉ (trimEnd v.toList).take (valueWidth - 3) := fun h =>
        htrimmed (List.mem_of_mem_take h)
      simp [hsignature, hkept]
    · simp [hsignature, htrimmed]

theorem newline_not_mem_rowText {r : Record} (h : '\n' ∉ describe r) : '\n' ∉ rowText r := by
  have hline := newline_not_mem_cell (Json.newline_not_mem_toDigits r.line) 6
  have hkind := newline_not_mem_cell (newline_not_mem_kind r.kind) 20
  simp [rowText, hline, hkind, h]

end Report

/-! Signatures. -/

namespace Line

theorem IsPath.newline_not_mem {s : List Char} (h : IsPath s) : '\n' ∉ s :=
  fun hmem => absurd (h.2 _ hmem) (by decide)

theorem name_of_exported {l : Line} {s : Shape} {r : String} {ps : List String} {name : String}
    (h : s.find? l = some (.code (.functionExpression (some r) ps) name)) :
    name = "" ∨ IsName name.toList := by
  cases s with
  | namedExport =>
    simp only [Shape.find?, namedExport?, Option.bind_eq_bind, Option.bind_eq_some_iff,
      Prod.exists] at h
    obtain ⟨_, -, _, -, _, -, n, _, hn, h⟩ := h
    cases h
    rw [String.toList_ofList]
    exact .inr (name?_eq_some_iff.1 hn).2.1
  | anonymousExport =>
    simp only [Shape.find?, anonymousExport?, Option.bind_eq_bind, Option.bind_eq_some_iff] at h
    obtain ⟨_, -, _, -, h⟩ := h
    cases h
    exact .inl rfl
  | functionExpression =>
    obtain ⟨⟨n, rest⟩, -, h⟩ := Option.bind_eq_some_iff.1 h
    obtain ⟨ps, -, h⟩ := Option.bind_eq_some_iff.1 h
    cases h
  | _ => cases (found_of_find? h).kind

/-- Names and paths are all that a signature takes from its line. -/
theorem newline_not_mem_signature {l : Line} {s : Shape} {form : Form} {name : String}
    (h : s.find? l = some (.code form name)) : '\n' ∉ (form.signature name).toList := by
  have hfits := fitsIn_of_find? h
  cases form with
  | functionStatement ps =>
    obtain ⟨rest, hname, -⟩ := hfits
    simp [Form.signature, hname.isPath.newline_not_mem]
  | functionExpression receiver ps =>
    cases receiver with
    | none =>
      obtain ⟨rest, ⟨hname, -⟩, -⟩ := hfits
      simp [Form.signature, hname.isPath.newline_not_mem]
    | some r =>
      obtain ⟨rfl, -⟩ := hfits
      have hpath : IsPath exportsPath := by decide
      rw [Form.signature]
      split
      · simp [hpath.newline_not_mem]
      · rename_i hne
        have hname := (name_of_exported h).resolve_left hne
        simp [hname.isPath.newline_not_mem]
  | method r ps =>
    obtain ⟨rest, ⟨hr, hname, -⟩, -⟩ := hfits
    simp [Form.signature, hr.newline_not_mem, hname.isPath.newline_not_mem]
  | prototypeMethod c ps =>
    obtain ⟨hc, rest, ⟨-, hname, -⟩, -⟩ := hfits
    simp [Form.signature, hc.isPath.newline_not_mem, hname.isPath.newline_not_mem]
  | property r v =>
    obtain ⟨hr, rest, ⟨-, hname, -⟩, -⟩ := hfits
    simp [Form.signature, hr.isPath.newline_not_mem, hname.isPath.newline_not_mem]
  | prototypeProperty c v =>
    obtain ⟨hc, rest, ⟨-, hname, -⟩, -⟩ := hfits
    simp [Form.signature, hc.isPath.newline_not_mem, hname.isPath.newline_not_mem]
  | declaration v =>
    obtain ⟨rest, ⟨hname, -⟩, -⟩ := hfits
    simp [Form.signature, hname.isPath.newline_not_mem]

end Line

namespace Report

/-- Nothing that is said of a record in an outline holds a line feed. -/
theorem newline_not_mem_describe {o : Options} {text : List Char} {r : Record}
    (h : r ∈ ((Source.ofText text).candidates o).records) : '\n' ∉ describe r := by
  cases r with
  | comment first last t =>
    change '\n' ∉ ("lines " ++ first.repr ++ "-" ++ last.repr).toList
    simp [Json.newline_not_mem_toDigits]
  | code c =>
    obtain ⟨l, hl, hentry⟩ := (Source.ofText text).entry_of_mem_offer o h
    have hcode : l.code? = some c := by
      rw [← Source.entry_code? (Source.ofText text) o.withText, hentry]
      rfl
    obtain ⟨form, name, hclass, rfl⟩ := Line.exists_classify_of_code? hcode
    obtain ⟨s, hs⟩ := Line.exists_find?_of_classify hclass
    have hraw : '\n' ∉ l.raw := (not_mem_of_mem_lines hl).2
    refine newline_not_mem_describe_code (Line.newline_not_mem_signature hs) fun v hv hmem => ?_
    obtain ⟨-, hpiece, -⟩ := (Line.found_of_find? hs).sound.value v hv
    exact hraw (hpiece.subset hmem)

theorem newline_not_mem_rowText_of_outlined {f : FileOutline} (h : f.Outlined) {r : Record}
    (hr : r ∈ f.records) : '\n' ∉ rowText r := by
  obtain ⟨σ, sieve, o, text, s, hsieve, houtline⟩ := h
  have hkept : (sieve.run (Source.ofText text).lines 0
      ((Source.ofText text).candidates o).records s).1 = f.records := by
    rw [outlineWith_eq, Candidates.outcome] at houtline
    cases hf : ((Source.ofText text).candidates o).failure with
    | none => simpa [hf] using houtline
    | some n => simp [hf] at houtline
  have hrows := hsieve.map_run_sublist (fun g r => rowText_mapName g r) (Source.ofText text).lines 0
    ((Source.ofText text).candidates o).records s
  rw [hkept] at hrows
  obtain ⟨r', hr', hsame⟩ := List.mem_map.1 (hrows.mem (List.mem_map_of_mem hr))
  rw [← hsame]
  exact newline_not_mem_rowText (newline_not_mem_describe hr')

/-! Tables. -/

/-- The lines of a file in a table, given the row of each record. -/
def fileLines (row : Record → List Char) (f : FileOutline) : List (List Char) :=
  f.file.toList :: if f.records = [] then ["  (no context)".toList]
    else "  LINE   TYPE                 SIGNATURE".toList :: f.records.map row

theorem fileTable_eq (f : FileOutline) :
    fileTable f = (fileLines rowText f).flatMap (· ++ ['\n']) := by
  have hnone : "  (no context)\n".toList = "  (no context)".toList ++ ['\n'] := by decide +kernel
  have hheading : row "LINE".toList "TYPE".toList "SIGNATURE".toList =
      "  LINE   TYPE                 SIGNATURE".toList ++ ['\n'] := by decide +kernel
  rw [fileTable, fileLines, List.flatMap_cons, List.append_assoc, List.singleton_append]
  by_cases h : f.records = []
  · rw [if_pos h, if_pos (List.isEmpty_iff.2 h), hnone, List.flatMap_singleton]
  · rw [if_neg h, if_neg (by rwa [List.isEmpty_iff]), hheading, List.flatMap_cons,
      List.flatMap_map]
    rfl

theorem lines_flatMap {ls : List (List Char)} (h : ∀ l ∈ ls, '\n' ∉ l) :
    lines (ls.flatMap (· ++ ['\n'])) = ls ++ [[]] := by
  induction ls with
  | nil => rfl
  | cons l ls ih =>
    obtain ⟨hl, hls⟩ := List.forall_mem_cons.1 h
    rw [List.flatMap_cons, List.append_assoc, List.singleton_append, lines_join, ih hls,
      lines_of_not_mem hl]
    rfl

end Report

open Report in
/-- In a table, a line for each file stands before its rows, which are one line for each record, in
their order. A row shows the line and the kind of its record where they can be read back, and what
is said of the record. -/
theorem table_rows (files : List FileOutline) (hnames : ∀ f ∈ files, '\n' ∉ f.file.toList)
    (houtlined : ∀ f ∈ files, f.Outlined) :
    ∃ row : Record → List Char,
      lines (Report.table files) = files.flatMap (fileLines row) ++ [[]] ∧
      ∀ f ∈ files, ∀ r ∈ f.records, Shows (row r) r := by
  have hrow : ∀ f ∈ files, ∀ r ∈ f.records, '\n' ∉ rowText r := fun f hf r hr =>
    newline_not_mem_rowText_of_outlined (houtlined f hf) hr
  have htable : Report.table files =
      (files.flatMap (fileLines rowText)).flatMap (· ++ ['\n']) := by
    rw [List.flatMap_assoc, Report.table]
    exact List.flatMap_congr fun f _ => fileTable_eq f
  refine ⟨rowText, ?_, fun f hf r hr => shows_rowText (hrow f hf r hr)⟩
  rw [htable, lines_flatMap]
  intro l hl
  obtain ⟨f, hf, hl⟩ := List.mem_flatMap.1 hl
  obtain rfl | hl := List.mem_cons.1 hl
  · exact hnames f hf
  · split at hl
    · rw [List.mem_singleton.1 hl]
      decide
    · obtain rfl | hl := List.mem_cons.1 hl
      · decide
      · obtain ⟨r, hr, rfl⟩ := List.mem_map.1 hl
        exact hrow f hf r hr

open Report in
/-- A value of sixty-one characters, with whitespace behind them, below a comment; another record is
dropped. -/
theorem table_rows_shortened :
    let value := String.ofList (List.replicate 61 'é') ++ " \t"
    let text := ("/* a\n*/\nvar b = 1;\na.b = " ++ value ++ ";").toList
    let comment := Record.comment 1 2 none
    let property : Record :=
      .code ⟨4, .property "a" value, "b'", "a.b", "a.b = " ++ value ++ ";"⟩
    let files : List FileOutline := [⟨"a b.js", [comment, property]⟩, ⟨"", []⟩]
    dropSecond.OnlyRenames ∧ (outlineWith {} dropSecond text 0).1 = .ok [comment, property] ∧
      (outlineWith {} dropSecond [] 0).1 = .ok [] ∧
      ∃ row : Record → List Char,
        lines (Report.table files) = ["a b.js".toList,
          "  LINE   TYPE                 SIGNATURE".toList, row comment, row property, [],
          "  (no context)".toList, []] ∧
        Shows (row comment) comment ∧ Shows (row property) property := by
  intro value text comment property files
  have hrun : (outlineWith {} dropSecond text 0).1 = .ok [comment, property] := by
    rw [outlineWith_eq]
    decide +kernel
  have hnone : (outlineWith {} dropSecond [] 0).1 = .ok [] := by
    rw [outlineWith_eq]
    decide +kernel
  have hnames : ∀ f ∈ files, '\n' ∉ f.file.toList := by
    simp only [files, List.forall_mem_cons]
    decide +kernel
  have houtlined : ∀ f ∈ files, f.Outlined := by
    simp only [files, List.forall_mem_cons]
    exact ⟨⟨_, _, _, _, _, onlyRenames_dropSecond, hrun⟩,
      ⟨_, _, _, _, _, onlyRenames_dropSecond, hnone⟩, by simp⟩
  obtain ⟨row, hlines, hshows⟩ := table_rows files hnames houtlined
  have hfirst := hshows _ List.mem_cons_self
  exact ⟨onlyRenames_dropSecond, hrun, hnone, row, hlines, hfirst comment (by simp),
    hfirst property (by simp)⟩

end ScriptOutline
