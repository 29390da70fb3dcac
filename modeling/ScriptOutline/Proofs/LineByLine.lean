import Mathlib.Data.List.Basic
import ScriptOutline.Proofs.Offer

/-!
Code is found line by line: what a line of code adds to an outline is what the line has for an
outline by itself, but for its number (`outline_code_line_by_line`).
-/

set_option autoImplicit false

namespace ScriptOutline
open Text

def Record.code? : Record → Option CodeLine
  | .comment .. => none
  | .code c => some c

def Line.code? (l : Line) : Option CodeLine :=
  match l.classify with
  | some (.code form name) => (l.record form name).code?
  | _ => none

/-- The code in the outline of a text. -/
def codeLines (text : List Char) : List CodeLine :=
  match outline {} text with
  | .ok rs => rs.filterMap Record.code?
  | .error _ => []

def CodeLine.at (n : Nat) (c : CodeLine) : CodeLine := { c with line := n }

theorem Line.code?_renumber (m n : Nat) (raw : List Char) :
    Line.code? ⟨n, raw⟩ = (Line.code? ⟨m, raw⟩).map (CodeLine.at n) := by
  have hclass : Line.classify ⟨n, raw⟩ = Line.classify ⟨m, raw⟩ := Line.classify_congr rfl
  rw [Line.code?, Line.code?, hclass]
  cases Line.classify ⟨m, raw⟩ with
  | none => rfl
  | some x => cases x <;> rfl

theorem Line.source_of_code? {l : Line} {c : CodeLine} (h : l.code? = some c) :
    c.source.toList = l.raw := by
  rw [Line.code?] at h
  split at h
  · cases h
    exact String.toList_ofList
  · cases h

theorem Record.code?_eq_some_iff {r : Record} {c : CodeLine} : r.code? = some c ↔ r = .code c := by
  cases r <;> simp [Record.code?]

/-- The comments of a source have no part in its code. -/
theorem Source.entry_code? (src : Source) (withText : Bool) (l : Line) :
    (src.entry withText l).record?.bind Record.code? = l.code? := by
  rw [Source.entry, Line.code?]
  cases l.classify with
  | none => rfl
  | some x =>
    cases x with
    | code form name => rfl
    | commentOpen =>
      simp only
      cases Comment.at? src.comments l.number with
      | some c => rfl
      | none => cases Comment.covers src.comments l.number <;> rfl

theorem codeLines_eq (text : List Char) :
    codeLines text = (Source.ofText text).lines.filterMap Line.code? := by
  rw [codeLines, outline_lenient rfl]
  simp only [List.filterMap_filterMap, Source.entry_code?]

theorem not_mem_of_mem_lines {text : List Char} {l : Line} (h : l ∈ (Source.ofText text).lines) :
    '\r' ∉ l.raw ∧ '\n' ∉ l.raw := by
  obtain ⟨n, hraw, -⟩ := mem_numbered_iff.1 h
  obtain ⟨k, hk⟩ := exists_lineBegins hraw
  refine ⟨fun hm => ?_, hk.no_break⟩
  have hdrop : '\r' ∈ (withoutReturns text).drop k := by
    rcases hk.text with ht | ⟨rest, ht⟩
    · rw [ht]; exact hm
    · rw [ht]; exact List.mem_append_left _ hm
  have := List.mem_of_mem_drop hdrop
  simp [withoutReturns] at this

theorem Source.lines_ofText_raw {text : List Char} {l : Line}
    (h : l ∈ (Source.ofText text).lines) : (Source.ofText l.raw).lines = [⟨1, l.raw⟩] := by
  obtain ⟨hr, hn⟩ := not_mem_of_mem_lines h
  rw [Source.ofText, withoutReturns_eq_self hr, lines_of_not_mem hn]
  rfl

theorem codeLines_raw {text : List Char} {l : Line} (h : l ∈ (Source.ofText text).lines) :
    codeLines l.raw = (Line.code? ⟨1, l.raw⟩).toList := by
  rw [codeLines_eq, Source.lines_ofText_raw h]
  cases hc : Line.code? ⟨1, l.raw⟩ <;> simp [hc]

theorem outline_raw_of_code? {text : List Char} {l : Line} {c : CodeLine}
    (h : l ∈ (Source.ofText text).lines) (hc : l.code? = some c) :
    outline {} c.source.toList = .ok [.code (c.at 1)] := by
  have halone : Line.code? ⟨1, l.raw⟩ = some (c.at 1) := by
    rw [Line.code?_renumber l.number]
    exact congrArg (Option.map (CodeLine.at 1)) hc
  have hrecord :
      ((Source.ofText l.raw).entry false ⟨1, l.raw⟩).record? = some (.code (c.at 1)) := by
    rw [← Source.entry_code? (Source.ofText l.raw) false, Option.bind_eq_some_iff] at halone
    obtain ⟨r, hr, hcode⟩ := halone
    rw [hr, Record.code?_eq_some_iff.1 hcode]
  rw [Line.source_of_code? hc, outline_lenient rfl, Source.lines_ofText_raw h]
  simp [hrecord]

/-- The code of a text is that of its lines, each by itself: a line has one piece of code at most,
which keeps its place alone, and from its text alone the outline gives it back. -/
theorem outline_code_line_by_line (text : List Char) :
    ∃ rs, outline {} text = .ok rs ∧
      rs.filterMap Record.code? = (Source.ofText text).lines.flatMap
        (fun l => (codeLines l.raw).map (CodeLine.at l.number)) ∧
      (∀ l ∈ (Source.ofText text).lines, (codeLines l.raw).length ≤ 1) ∧
      ∀ c, .code c ∈ rs → outline {} c.source.toList = .ok [.code (c.at 1)] := by
  refine ⟨_, outline_lenient rfl text, ?_, ?_, ?_⟩
  · simp only [List.filterMap_filterMap, Source.entry_code?]
    rw [List.filterMap_eq_flatMap_toList]
    refine List.flatMap_congr fun l hl => ?_
    rw [codeLines_raw hl, ← Option.toList_map, ← Line.code?_renumber]
  · intro l hl
    rw [codeLines_raw hl]
    cases Line.code? ⟨1, l.raw⟩ <;> simp
  · intro c hc
    obtain ⟨l, hl, hentry⟩ := List.mem_filterMap.1 hc
    refine outline_raw_of_code? hl ?_
    rw [← Source.entry_code? (Source.ofText text) false, hentry]
    rfl

end ScriptOutline
