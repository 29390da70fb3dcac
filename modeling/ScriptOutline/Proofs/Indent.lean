import Mathlib.Data.List.DropRight
import ScriptOutline.Proofs.Offer
import ScriptOutline.Proofs.Span

/-!
Indentation. Without the whitespace at the start of its lines a text has the same outline, but for
that whitespace in the sources and comments that its records carry (`outline_unindented`).
-/

set_option autoImplicit false

namespace ScriptOutline
open Text

namespace Text

/-- A text without the whitespace at the start of its lines; `start` tells whether the text itself
starts a line. -/
def unindent (start : Bool) : List Char → List Char
  | [] => []
  | c :: s =>
    if c = '\n' then '\n' :: unindent true s
    else if start && isWhitespace c then unindent true s
    else c :: unindent false s

theorem unindent_opener (start : Bool) (s : List Char) :
    unindent start ('/' :: '*' :: s) = '/' :: '*' :: unindent false s := by
  simp [unindent, isWhitespace]

/-- Behind the start of a line nothing is lost. -/
theorem exists_cons_of_unindent_false {s r : List Char} {c : Char}
    (h : unindent false s = c :: r) : ∃ r', s = c :: r' := by
  cases s with
  | nil => simp [unindent] at h
  | cons d s =>
    by_cases hn : d = '\n'
    · obtain ⟨rfl, -⟩ : '\n' = c ∧ unindent true s = r := by simpa [unindent, hn] using h
      exact ⟨s, by rw [hn]⟩
    · obtain ⟨rfl, -⟩ : d = c ∧ unindent false s = r := by simpa [unindent, hn] using h
      exact ⟨s, rfl⟩

theorem unindent_sublist (start : Bool) (s : List Char) : (unindent start s).Sublist s := by
  induction s generalizing start with
  | nil => exact .slnil
  | cons c s ih =>
    by_cases hn : c = '\n'
    · simpa [unindent, hn] using ih true
    · by_cases hw : start && isWhitespace c
      · simpa [unindent, hn, hw] using (ih true).cons c
      · simpa [unindent, hn, hw] using ih false

theorem lineFeeds_unindent (start : Bool) (s : List Char) :
    Comment.lineFeeds (unindent start s) = Comment.lineFeeds s := by
  induction s generalizing start with
  | nil => rfl
  | cons c s ih =>
    simp only [Comment.lineFeeds] at ih
    by_cases hn : c = '\n'
    · simp [unindent, Comment.lineFeeds, hn, ih]
    · by_cases hw : start && isWhitespace c <;> simp [unindent, Comment.lineFeeds, hn, hw, ih]

/-- The first line is trimmed if it is whole. -/
theorem lines_unindent (start : Bool) (s : List Char) :
    lines (unindent start s) =
      match lines s with
      | [] => []
      | l :: ls => (if start then trimStart l else l) :: ls.map trimStart := by
  induction s generalizing start with
  | nil => cases start <;> rfl
  | cons c s ih =>
    have ht := ih true
    have hf := ih false
    simp only [lines] at ht hf
    cases hs : pieces (· == '\n') s with
    | nil => exact absurd hs (pieces_ne_nil _ s)
    | cons l ls =>
      simp only [hs] at ht hf
      by_cases hn : c = '\n'
      · cases start <;> simp [lines, unindent, pieces, hn, ht, hs, trimStart]
      · cases start with
        | false => simp [lines, unindent, pieces, hn, hf, hs]
        | true =>
          by_cases hw : isWhitespace c = true <;>
            simp [lines, unindent, pieces, hn, hw, ht, hf, hs, trimStart]

theorem lines_unindent_true (s : List Char) :
    lines (unindent true s) = (lines s).map trimStart := by
  rw [lines_unindent]
  cases lines s <;> rfl

theorem intercalate_lines (s : List Char) : ['\n'].intercalate (lines s) = s := by
  simp only [lines]
  induction s with
  | nil => rfl
  | cons c s ih =>
    by_cases hn : c = '\n'
    · simp [pieces, hn, List.intercalate_cons_of_ne_nil, pieces_ne_nil, ih]
    · cases hs : pieces (· == '\n') s with
      | nil => exact absurd hs (pieces_ne_nil _ s)
      | cons l ls =>
        rw [hs] at ih
        simp [pieces, hn, hs, List.intercalate_cons_cons_left, ih]

theorem unindent_eq_of_lines {s t : List Char}
    (h : (lines s).map trimStart = (lines t).map trimStart) :
    unindent true s = unindent true t := by
  rw [← intercalate_lines (unindent true s), ← intercalate_lines (unindent true t),
    lines_unindent_true, lines_unindent_true, h]

end Text

namespace Comment

def unindent (c : Comment) : Comment := { c with text := Text.unindent false c.text }

theorem toClose_cons {c : Char} {s : List Char} (h : ∀ r, c = '*' → s = '/' :: r → False) :
    toClose (c :: s) = (toClose s).map fun (body, after) => (c :: body, after) := by
  rw [toClose]
  exact h

/-- Delimiters hold no whitespace, so they stand where they stood. -/
theorem toClose_unindent (start : Bool) (s : List Char) :
    toClose (Text.unindent start s) = (toClose s).map fun (body, after) =>
      (Text.unindent start body, Text.unindent false after) := by
  fun_induction toClose s generalizing start with
  | case1 => rfl
  | case2 rest => simp [isWhitespace, toClose, Text.unindent]
  | case3 c rest hc ih =>
    by_cases hn : c = '\n'
    · subst hn
      simp [Text.unindent, toClose_cons, ih, Function.comp_def]
    · by_cases hw : start && isWhitespace c
      · simp [Text.unindent, hn, hw, ih, Function.comp_def]
      · have hkeep : ∀ r, c = '*' → Text.unindent false rest = '/' :: r → False := by
          intro r hstar hr
          obtain ⟨r', hr'⟩ := exists_cons_of_unindent_false hr
          exact hc r' hstar hr'
        simp [Text.unindent, hn, hw, toClose_cons hkeep, ih, Function.comp_def]

theorem scan_open (line : Nat) (rest : List Char) :
    scan line ('/' :: '*' :: rest) =
      match toClose rest with
      | none => []
      | some (body, after) =>
        ⟨line, line + lineFeeds ('/' :: '*' :: body), '/' :: '*' :: body⟩ ::
          scan (line + lineFeeds ('/' :: '*' :: body)) after := by
  rw [scan]
  split <;> rename_i h <;> simp [h]

theorem scan_cons {line : Nat} {c : Char} {s : List Char}
    (h : ∀ r, c = '/' → s = '*' :: r → False) :
    scan line (c :: s) = scan (if c = '\n' then line + 1 else line) s := by
  rw [scan]
  exact h

theorem scan_unindent (line : Nat) (start : Bool) (s : List Char) :
    scan line (Text.unindent start s) = (scan line s).map unindent := by
  fun_induction scan line s generalizing start with
  | case1 => simp [Text.unindent, scan]
  | case2 line rest hnone =>
    rw [unindent_opener, scan_open, toClose_unindent, hnone]
    rfl
  | case3 line rest body after hsome _ text ih =>
    have htext : Text.unindent false text = '/' :: '*' :: Text.unindent false body :=
      unindent_opener false body
    have hfeeds := lineFeeds_unindent false text
    rw [htext] at hfeeds
    rw [unindent_opener, scan_open, toClose_unindent, hsome]
    simp [unindent, htext, hfeeds, ih]
  | case4 line c rest hc ih =>
    by_cases hn : c = '\n'
    · subst hn
      simpa [Text.unindent, scan_cons] using ih true
    · by_cases hw : start && isWhitespace c
      · simpa [Text.unindent, hn, hw] using ih true
      · have hkeep : ∀ r, c = '/' → Text.unindent false rest = '*' :: r → False := by
          intro r hslash hr
          obtain ⟨r', hr'⟩ := exists_cons_of_unindent_false hr
          exact hc r' hslash hr'
        simpa [Text.unindent, hn, hw, scan_cons hkeep] using ih false

theorem ofText_unindent (s : List Char) :
    ofText (Text.unindent true s) = (ofText s).map unindent := by
  have hfirst : ∀ c d : Comment, c.unindent.first = d.unindent.first ↔ c.first = d.first :=
    fun _ _ => Iff.rfl
  rw [ofText, scan_unindent, firstPerLine_map hfirst, ofText]

theorem at?_unindent (cs : List Comment) (line : Nat) :
    at? (cs.map unindent) line = (at? cs line).map unindent := by
  rw [at?, at?, List.find?_map]
  rfl

theorem covers_unindent (cs : List Comment) (line : Nat) :
    covers (cs.map unindent) line = covers cs line := by
  have hfilter : (cs.map unindent).filter (·.first < line) =
      (cs.filter (·.first < line)).map unindent := List.filter_map
  rw [covers, covers, hfilter, List.getLast?_map]
  cases (cs.filter (·.first < line)).getLast? <;> rfl

end Comment

namespace Line

def unindent (l : Line) : Line := { l with raw := trimStart l.raw }

/-- Only behind whitespace can a declaration start. -/
theorem assigned?_cons_of_isWhitespace {c : Char} (hc : isWhitespace c = true) (s : List Char) :
    assigned? (c :: s) = none := by
  have hv : 'v' ≠ c := by
    intro h
    subst h
    cases hc
  simp [assigned?, varTarget?, varWord, after?, hv]

theorem findAssigned?_trimStart (raw : List Char) :
    findAssigned? (trimStart raw) = findAssigned? raw := by
  induction raw with
  | nil => rfl
  | cons c s ih =>
    by_cases hw : isWhitespace c = true
    · rw [findAssigned?, assigned?_cons_of_isWhitespace hw, Option.none_or, ← ih, trimStart,
        List.dropWhile_cons_of_pos hw, trimStart]
    · rw [trimStart_eq_self_of_head (by simpa using hw)]

theorem findAssigned?_of_assigned? {s : List Char} {p : List Char × List Char}
    (h : assigned? s = some p) : findAssigned? s = some p := by
  cases s with
  | nil => simp [assigned?, varTarget?, varWord, after?] at h
  | cons c s => rw [findAssigned?, h, Option.some_or]

/-- What a declaration takes from the line as it stands is what the trimmed line has at its
start. -/
theorem declaration?_eq (raw : List Char) :
    declaration? raw = (assigned? (trimStart raw)).map fun (n, v) =>
      .code (.declaration (String.ofList v)) (String.ofList n) := by
  cases h : assigned? (trimStart raw) with
  | none => simp [declaration?, h]
  | some p =>
    have hfind := findAssigned?_of_assigned? h
    rw [findAssigned?_trimStart] at hfind
    simp [declaration?, h, hfind]

theorem classify_unindent (l : Line) : l.unindent.classify = l.classify := by
  have htrim : trimStart (trimStart l.raw) = trimStart l.raw := List.dropWhile_idempotent _ _
  have hfind : ∀ s : Shape, s.find? l.unindent = s.find? l := by
    intro s
    cases s <;> simp only [Shape.find?, stripped, unindent, declaration?_eq, htrim]
  simp only [classify, hfind]

end Line

/-- A record whose source and comment are unindented; all else stays. -/
def Record.unindent : Record → Record
  | .comment first last text =>
    .comment first last (text.map fun t => String.ofList (Text.unindent false t.toList))
  | .code c => .code { c with source := String.ofList (trimStart c.source.toList) }

def unindented (text : List Char) : List Char := Text.unindent true (withoutReturns text)

namespace Source

theorem ofText_unindented (text : List Char) :
    ofText (unindented text) =
      ⟨(ofText text).lines.map Line.unindent, (ofText text).comments.map Comment.unindent⟩ := by
  have hsame : withoutReturns (unindented text) = unindented text :=
    withoutReturns_eq_self fun h => by
      have := (unindent_sublist true (withoutReturns text)).mem h
      simp [withoutReturns] at this
  rw [ofText, hsame, unindented, lines_unindent_true, Comment.ofText_unindent]
  simp [ofText, numbered, List.zipIdx_map, Line.unindent, Function.comp_def]

theorem entry_unindent (src : Source) (ls : List Line) (withText : Bool) (l : Line) :
    entry ⟨ls, src.comments.map Comment.unindent⟩ withText l.unindent =
      (src.entry withText l).map Record.unindent := by
  have hnumber : l.unindent.number = l.number := rfl
  simp only [entry, Line.classify_unindent, Comment.at?_unindent, Comment.covers_unindent, hnumber]
  cases l.classify with
  | none => rfl
  | some x =>
    cases x with
    | code form name =>
      simp [Entry.map, Line.record, Record.unindent, Line.unindent]
    | commentOpen =>
      cases Comment.at? src.comments l.number with
      | some c =>
        cases withText <;> simp [Entry.map, Comment.toRecord, Record.unindent, Comment.unindent]
      | none => cases Comment.covers src.comments l.number <;> rfl

theorem candidates_unindented (o : Options) (text : List Char) :
    (ofText (unindented text)).candidates o =
      ((ofText text).candidates o).map Record.unindent id := by
  rw [ofText_unindented, candidates]
  exact offer_map _ o rfl fun l _ => ⟨entry_unindent _ _ _ l, rfl⟩

end Source

theorem outline_unindented (o : Options) (text : List Char) :
    outline o (unindented text) = (outline o text).map (·.map Record.unindent) := by
  rw [outline_eq, outline_eq, Source.candidates_unindented, Candidates.outcome, Candidates.outcome,
    Candidates.map]
  cases ((Source.ofText text).candidates o).failure <;> rfl

/-- Texts that differ in the indentation of their lines have the same outline, but for what of it
stands in sources and comments. A declaration has its name and value wherever its line starts. -/
theorem outline_ignores_indentation (o : Options) (a b : List Char)
    (h : (lines (withoutReturns a)).map trimStart = (lines (withoutReturns b)).map trimStart) :
    (outline o a).map (·.map Record.unindent) = (outline o b).map (·.map Record.unindent) ∧
      ∀ raw, Line.declaration? raw = (Line.assigned? (trimStart raw)).map fun (n, v) =>
        .code (.declaration (String.ofList v)) (String.ofList n) := by
  refine ⟨?_, Line.declaration?_eq⟩
  rw [← outline_unindented, ← outline_unindented, unindented, unindented, unindent_eq_of_lines h]

/-- The second text has its lines indented otherwise, one of them by an ideographic space, and ends
them with carriage returns. -/
theorem outline_ignores_ideographic_indentation :
    let a := "/* a\n  b */\n\tvar c = 1; // d\nE.f = function (g)\n  /* h".toList
    let b := "  /* a\r\nb */\r\n\u3000var c = 1; // d\r\n \tE.f = function (g)\n/* h".toList
    (lines (withoutReturns a)).map trimStart = (lines (withoutReturns b)).map trimStart ∧
      (outline ⟨true, false⟩ a).map (·.map Record.unindent) =
        (outline ⟨true, false⟩ b).map (·.map Record.unindent) := by
  intro a b
  have hlines : (lines (withoutReturns a)).map trimStart =
      (lines (withoutReturns b)).map trimStart := by decide +kernel
  exact ⟨hlines, (outline_ignores_indentation ⟨true, false⟩ a b hlines).1⟩

end ScriptOutline
