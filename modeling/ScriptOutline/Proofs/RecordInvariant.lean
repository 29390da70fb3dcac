import ScriptOutline.Proofs.Calls
import ScriptOutline.Proofs.CommentRecord
import ScriptOutline.Proofs.Finding
import ScriptOutline.Proofs.LineByLine

/-!
What holds of the records of every outline: their lines, the lines of comments, and what a record of
code takes from its line. A sieve that only drops records or changes names keeps all of it, and a
signature is that of the name which the record was found with (`outline_records_sound`).
-/

set_option autoImplicit false

namespace ScriptOutline
open Text

/-- The lines of the delimiters of a comment. -/
def Record.span? : Record → Option (Nat × Nat)
  | comment first last _ => some (first, last)
  | code _ => none

def Record.unnamed (r : Record) : Record := r.mapName fun _ => ""

theorem Record.exists_eq_of_unnamed {r : Record} {c : CodeLine}
    (h : r.unnamed = (code c).unnamed) : ∃ name, r = .code { c with name := name } := by
  cases r with
  | comment first last t => cases h
  | code d =>
    obtain ⟨line, form, name, signature, source⟩ := c
    cases h
    exact ⟨d.name, rfl⟩

/-- A record of code has its line for a source, and takes from there what it holds. -/
structure CodeLine.SoundIn (ls : List (List Char)) (c : CodeLine) : Prop where
  source : ls[c.line - 1]? = some c.source.toList
  form : c.form.SoundIn c.source.toList

/-! Sieves. -/

/-- Whatever it keeps, it keeps with no other change than one of the name. -/
def Sieve.OnlyRenames {σ : Type} (f : Sieve σ) : Prop :=
  ∀ r kept lines s r', (f r kept lines s).1 = some r' → ∃ g, r' = r.mapName g

theorem Sieve.OnlyRenames.map_run_sublist {σ β : Type} {f : Sieve σ} (hf : f.OnlyRenames)
    {view : Record → β} (hview : ∀ g r, view (r.mapName g) = view r) (lines : List Line)
    (kept : Nat) (rs : List Record) (s : σ) :
    ((f.run lines kept rs s).1.map view).Sublist (rs.map view) := by
  induction rs generalizing kept s with
  | nil => exact List.Sublist.refl _
  | cons r rs ih =>
    cases h : f r kept lines s with
    | mk answer s' =>
      cases answer with
      | none => simpa [run, h] using (ih kept s').cons (view r)
      | some r' =>
        obtain ⟨g, rfl⟩ := hf r kept lines s r' (by rw [h])
        simpa [run, h, hview] using (ih (kept + 1) s').cons_cons (view r)

/-! Entries. -/

theorem Line.exists_classify_of_code? {l : Line} {c : CodeLine} (h : l.code? = some c) :
    ∃ form name, l.classify = some (.code form name) ∧
      c = ⟨l.number, form, name, form.signature name, String.ofList l.raw⟩ := by
  rw [code?] at h
  split at h
  · rename_i form name hclass
    cases h
    exact ⟨form, name, hclass, rfl⟩
  · cases h

namespace Source
variable {text : List Char} {withText : Bool} {l : Line}

theorem exists_comment_of_entry {first last : Nat} {t : Option String}
    (h : (ofText text).entry withText l = .record (.comment first last t)) :
    ∃ c ∈ Comment.ofText (withoutReturns text), c.first = first ∧ c.last = last := by
  rw [entry] at h
  split at h
  · cases h
  · cases h
  · split at h
    · rename_i c hc
      cases h
      exact ⟨c, List.mem_of_find?_eq_some hc, rfl, rfl⟩
    · split at h <;> cases h

theorem sound_of_entry {c : CodeLine} (hl : l ∈ (ofText text).lines)
    (h : (ofText text).entry withText l = .record (.code c)) :
    c.SoundIn (Text.lines (withoutReturns text)) ∧ c.form.SignedAs c.name c.signature := by
  have hcode : l.code? = some c := by
    rw [← entry_code? (ofText text) withText, h]
    rfl
  obtain ⟨form, name, hclass, rfl⟩ := Line.exists_classify_of_code? hcode
  obtain ⟨s, hs⟩ := Line.exists_find?_of_classify hclass
  obtain ⟨-, hsigned, hsound⟩ := Line.found_of_find? hs
  obtain ⟨i, hraw, hnumber⟩ := mem_numbered_iff.1 hl
  refine ⟨⟨?_, ?_⟩, hsigned⟩
  · rw [hnumber, Nat.add_sub_cancel, String.toList_ofList]
    exact hraw
  · rw [String.toList_ofList]
    exact hsound

variable (o : Options)

theorem pairwise_candidates (text : List Char) :
    ((ofText text).candidates o).records.Pairwise fun r r' => r.line < r'.line :=
  (ofText text).pairwise_offer o (pairwise_numbered _)

theorem pairwise_span?_candidates (text : List Char) :
    (((ofText text).candidates o).records.filterMap Record.span?).Pairwise
      fun x y => x.2 ≤ y.1 := by
  rw [List.pairwise_filterMap]
  refine (pairwise_candidates o text).imp_of_mem fun {r r'} hr hr' hlt x hx y hy => ?_
  obtain ⟨l, -, hentry⟩ := (ofText text).entry_of_mem_offer o hr
  obtain ⟨l', -, hentry'⟩ := (ofText text).entry_of_mem_offer o hr'
  cases r with
  | code c => cases hx
  | comment first last t =>
    cases r' with
    | code c => cases hy
    | comment first' last' t' =>
      cases hx
      cases hy
      obtain ⟨c, hc, rfl, rfl⟩ := exists_comment_of_entry hentry
      obtain ⟨d, hd, rfl, rfl⟩ := exists_comment_of_entry hentry'
      exact Comment.last_le_first_of_lt hc hd hlt

theorem line_of_mem_candidates {r : Record} (h : r ∈ ((ofText text).candidates o).records) :
    1 ≤ r.line ∧ r.line ≤ (Text.lines (withoutReturns text)).length := by
  obtain ⟨l, hl, hline⟩ := (ofText text).line_of_mem_offer o h
  obtain ⟨i, hi, hnumber⟩ := mem_numbered_iff.1 hl
  have := (List.getElem?_eq_some_iff.1 hi).1
  omega

theorem comment_of_mem_candidates {first last : Nat} {t : Option String}
    (h : .comment first last t ∈ ((ofText text).candidates o).records) :
    first ≤ last ∧ last ≤ (Text.lines (withoutReturns text)).length := by
  obtain ⟨l, -, hentry⟩ := (ofText text).entry_of_mem_offer o h
  obtain ⟨c, hc, rfl, rfl⟩ := exists_comment_of_entry hentry
  obtain ⟨x, hx, -, rfl⟩ := Comment.mem_ofText_iff.1 hc
  exact ⟨lineAt_mono (Nat.le_of_lt (Span.start_lt_stop_of_mem hx)), lineAt_le_length_lines _ _⟩

theorem code_of_mem_candidates {c : CodeLine}
    (h : .code c ∈ ((ofText text).candidates o).records) :
    c.SoundIn (Text.lines (withoutReturns text)) ∧ c.form.SignedAs c.name c.signature := by
  obtain ⟨l, hl, hentry⟩ := (ofText text).entry_of_mem_offer o h
  exact sound_of_entry hl hentry

end Source

/-- Through a sieve that drops records or renames them an outline has its records in the order of
their lines, and comments that do not overlap. A record of code is sound as it was found, and signed
as its form and the name that it was found with determine. -/
theorem outline_records_sound {σ : Type} (o : Options) {f : Sieve σ} (hf : f.OnlyRenames)
    (text : List Char) (s : σ) {rs : List Record} (h : (outlineWith o f text s).1 = .ok rs) :
    let ls := lines (withoutReturns text)
    rs.Pairwise (fun r r' => r.line < r'.line) ∧
      (∀ r ∈ rs, 1 ≤ r.line ∧ r.line ≤ ls.length) ∧
      (∀ first last t, .comment first last t ∈ rs → first ≤ last ∧ last ≤ ls.length) ∧
      (rs.filterMap Record.span?).Pairwise (fun x y => x.2 ≤ y.1) ∧
      ∃ found, outline o text = .ok found ∧ ∀ c, .code c ∈ rs → c.SoundIn ls ∧
        ∃ name, .code { c with name := name } ∈ found ∧ c.form.SignedAs name c.signature := by
  intro ls
  have hfailure : ((Source.ofText text).candidates o).failure = none := by
    cases hf : ((Source.ofText text).candidates o).failure with
    | none => rfl
    | some n => simp [outlineWith_eq, Candidates.outcome, hf] at h
  obtain rfl : (f.run (Source.ofText text).lines 0
      ((Source.ofText text).candidates o).records s).1 = rs := by
    simpa [outlineWith_eq, Candidates.outcome, hfailure] using h
  have hkept : ∀ {β : Type} (view : Record → β), (∀ g r, view (r.mapName g) = view r) → _ :=
    fun view hview => hf.map_run_sublist hview (Source.ofText text).lines 0
      ((Source.ofText text).candidates o).records s
  have hline := hkept Record.line fun g r => r.line_mapName g
  have hspan := hkept Record.span? fun g r => by cases r <;> rfl
  have hunnamed := hkept Record.unnamed fun g r => by cases r <;> rfl
  refine ⟨?_, fun r hr => ?_, fun first last t hmem => ?_, ?_,
    ((Source.ofText text).candidates o).records, ?_, fun c hc => ?_⟩
  · have hpair := Source.pairwise_candidates o text
    exact List.pairwise_map.1 ((List.pairwise_map.2 hpair).sublist hline)
  · obtain ⟨r', hr', hsame⟩ := List.mem_map.1 (hline.mem (List.mem_map_of_mem hr))
    rw [← hsame]
    exact Source.line_of_mem_candidates o hr'
  · obtain ⟨r', hr', hsame⟩ := List.mem_map.1 (hspan.mem (List.mem_map_of_mem hmem))
    cases r' with
    | code c => cases hsame
    | comment first' last' t' =>
      cases hsame
      exact Source.comment_of_mem_candidates o hr'
  · have hsub := hspan.filterMap id
    rw [List.filterMap_map, List.filterMap_map] at hsub
    exact (Source.pairwise_span?_candidates o text).sublist hsub
  · rw [outline_eq, Candidates.outcome, hfailure]
  · obtain ⟨r', hr', hsame⟩ := List.mem_map.1 (hunnamed.mem (List.mem_map_of_mem hc))
    obtain ⟨name, rfl⟩ := Record.exists_eq_of_unnamed hsame
    obtain ⟨hsound, hsigned⟩ := Source.code_of_mem_candidates o hr'
    exact ⟨⟨hsound.source, hsound.form⟩, name, hr', hsigned⟩

/-- Drops the second record and marks the names of all others. -/
def dropSecond : Sieve Nat := fun r _ _ n =>
  (if n = 1 then none else some (r.mapName (· ++ "'")), n + 1)

theorem onlyRenames_dropSecond : dropSecond.OnlyRenames := by
  intro r kept lines n r' h
  by_cases hn : n = 1
  · simp [dropSecond, hn] at h
  · exact ⟨(· ++ "'"), by simpa [dropSecond, hn, eq_comm] using h⟩

/-- An export without a name gets one, and keeps the signature that it was found with. -/
theorem outline_records_sound_renamed :
    let text :=
      "/* a\r\nvar b = 1; */ /* c\n*/\n\tvar d = ';';\nmodule.exports = function ()".toList
    let exported : CodeLine := ⟨5, .functionExpression (some "module.exports") [], "'",
      "module.exports()", "module.exports = function ()"⟩
    let rs := [Record.comment 1 2 none, .code ⟨4, .declaration "'", "d'", "d", "\tvar d = ';';"⟩,
      .code exported]
    dropSecond.OnlyRenames ∧ (outlineWith {} dropSecond text 0).1 = .ok rs ∧
      rs.Pairwise (fun r r' => r.line < r'.line) ∧
      exported.SoundIn (lines (withoutReturns text)) ∧
      ∃ name, .code { exported with name := name } ∈ ((Source.ofText text).candidates {}).records ∧
        exported.form.SignedAs name "module.exports()" := by
  intro text exported rs
  have hrun : (outlineWith {} dropSecond text 0).1 = .ok rs := by
    rw [outlineWith_eq]
    decide +kernel
  obtain ⟨hordered, -, -, -, found, hfound, hcode⟩ :=
    outline_records_sound {} onlyRenames_dropSecond text 0 hrun
  obtain ⟨hsound, name, hmem, hsigned⟩ := hcode exported (by simp [rs])
  rw [outline_eq_ok_of_lenient rfl] at hfound
  cases hfound
  exact ⟨onlyRenames_dropSecond, hrun, hordered, hsound, name, hmem, hsigned⟩

end ScriptOutline
