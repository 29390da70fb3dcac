import ScriptOutline.Proofs.Lenient

/-!
Comments in an outline. A comment whose `/*` begins its line has one record there, and a record of a
comment is that of the first one on its line; its text comes and goes without any other change
(`outline_comments_complete`).
-/

set_option autoImplicit false

namespace ScriptOutline
open Text Delimiter

/-- Before and behind the entry with a key, an ordered list has those with less and with more. -/
theorem eq_filter_append_cons_of_ordered {α : Type} {key : α → Nat} {xs : List α}
    (h : xs.Pairwise (fun a b => key a < key b)) {x : α} (hx : x ∈ xs) :
    xs = xs.filter (key · < key x) ++ x :: xs.filter (key x < key ·) := by
  induction xs with
  | nil => simp at hx
  | cons a xs ih =>
    obtain ⟨ha, hxs⟩ := List.pairwise_cons.1 h
    rcases List.mem_cons.1 hx with rfl | hx
    · have hless : xs.filter (key · < key x) = [] := by
        refine List.filter_eq_nil_iff.2 fun b hb => ?_
        simpa using Nat.le_of_lt (ha b hb)
      have hmore : xs.filter (key x < key ·) = xs :=
        List.filter_eq_self.2 fun b hb => decide_eq_true (ha b hb)
      simp [hless, hmore]
    · have hlt := ha x hx
      have ih := ih hxs hx
      simpa [hlt, Nat.not_lt_of_lt hlt] using ih

theorem filter_eq_singleton_of_ordered {α : Type} {key : α → Nat} {xs : List α}
    (h : xs.Pairwise (fun a b => key a < key b)) {x : α} (hx : x ∈ xs) :
    xs.filter (key · == key x) = [x] := by
  have hcut := congrArg (List.filter (key · == key x)) (eq_filter_append_cons_of_ordered h hx)
  have hless : (xs.filter (key · < key x)).filter (key · == key x) = [] := by
    refine List.filter_eq_nil_iff.2 fun a ha => ?_
    simpa using Nat.ne_of_lt (of_decide_eq_true (List.mem_filter.1 ha).2)
  have hmore : (xs.filter (key x < key ·)).filter (key · == key x) = [] := by
    refine List.filter_eq_nil_iff.2 fun a ha => ?_
    simpa using Nat.ne_of_gt (of_decide_eq_true (List.mem_filter.1 ha).2)
  rwa [List.filter_append, hless, List.filter_cons_of_pos (by simp), hmore] at hcut

namespace Span

/-- The record of a comment: the lines of its delimiters, and its text on request. -/
def record (withText : Bool) (s : List Char) (c : Span) : Record :=
  .comment (lineAt s c.start) (lineAt s (c.stop - 2))
    (if withText then some (String.ofList (c.text s)) else none)

/-- A comment ends on the line on which its `*/` begins. -/
theorem lineAt_stop {s : List Char} {c : Span} (h : c ∈ all s) :
    lineAt s c.stop = lineAt s (c.stop - 2) := by
  obtain ⟨-, j, -, hstop, hclose⟩ := delimited_of_mem h
  obtain ⟨rest, hrest⟩ := (standsAt_iff_exists rfl).1 hclose
  have hstar : lineAt s (j + 1) = lineAt s j :=
    (lineAt_succ hrest).trans (if_neg (by decide))
  have hslash : lineAt s (j + 1 + 1) = lineAt s (j + 1) :=
    (lineAt_succ (drop_succ_of_drop hrest)).trans (if_neg (by decide))
  rw [hstop, Nat.add_sub_cancel]
  exact hslash.trans hstar

theorem toRecord_comment (withText : Bool) {s : List Char} {c : Span} (h : c ∈ all s) :
    (c.comment s).toRecord withText = c.record withText s := by
  rw [Comment.toRecord, record, ← lineAt_stop h]
  rfl

/-- A comment whose `/*` begins its line is the first that opens there. -/
theorem opensFirst_of_leads {s : List Char} {c : Span}
    (h : Leads s (c.line s) c.start) : c.OpensFirst s := by
  intro d hd hlt hline
  have := h.start_le_of_line_eq hd hline
  omega

end Span

namespace Source

theorem entry_of_leads (withText : Bool) {text : List Char} {l : Line} {c : Span}
    (hl : l ∈ (ofText text).lines) (hc : c ∈ Span.all (withoutReturns text))
    (hlead : Leads (withoutReturns text) (c.line (withoutReturns text)) c.start)
    (hn : l.number = c.line (withoutReturns text)) :
    (ofText text).entry withText l = .record (c.record withText (withoutReturns text)) := by
  have hclass : l.classify = some .commentOpen :=
    (Line.classify_eq_commentOpen_iff l).2 ((opens_iff_exists_leads hl).2 ⟨_, hn ▸ hlead⟩)
  have hat : Comment.at? (ofText text).comments l.number =
      some (c.comment (withoutReturns text)) := by
    rw [ofText, Comment.at?_ofText, Span.find?_line_eq_some_iff.2
      ⟨hc, hn.symm, Span.opensFirst_of_leads hlead⟩]
    rfl
  simp only [entry, hclass, hat, Span.toRecord_comment withText hc]

theorem exists_span_of_entry {withText : Bool} {text : List Char} {l : Line} {r : Record}
    (h : (ofText text).entry withText l = .record r) (hr : r.kind = .comment) :
    ∃ c ∈ Span.all (withoutReturns text), c.OpensFirst (withoutReturns text) ∧
      r = c.record withText (withoutReturns text) := by
  rw [entry] at h
  split at h
  · cases h
  · rename_i form name _
    cases h
    cases form <;> cases hr
  · split at h
    · rename_i c hat
      rw [ofText, Comment.at?_ofText, Option.map_eq_some_iff] at hat
      obtain ⟨x, hx, rfl⟩ := hat
      obtain ⟨hx, -, hfirst⟩ := Span.find?_line_eq_some_iff.1 hx
      cases h
      exact ⟨x, hx, hfirst, Span.toRecord_comment withText hx⟩
    · split at h <;> cases h

variable (src : Source) (o : Options)

theorem pairwise_offer {ls : List Line} (h : ls.Pairwise (fun l m => l.number < m.number)) :
    (src.offer o ls).records.Pairwise (fun r r' => r.line < r'.line) := by
  rw [offer_records, List.pairwise_filterMap]
  refine (h.sublist (List.takeWhile_sublist _)).imp fun hlt r hr r' hr' => ?_
  rw [src.line_of_entry (Entry.record?_eq_some_iff.1 hr),
    src.line_of_entry (Entry.record?_eq_some_iff.1 hr')]
  exact hlt

theorem mem_offer_iff_of_failure_none {ls : List Line} (h : (src.offer o ls).failure = none)
    {r : Record} :
    r ∈ (src.offer o ls).records ↔ ∃ l ∈ ls, src.entry o.withText l = .record r := by
  have hall : ∀ l ∈ ls, (!src.fails o l) = true := by
    rw [offer_failure, Option.map_eq_none_iff, List.find?_eq_none] at h
    simpa using h
  rw [offer_records, List.takeWhile_eq_self_iff.2 hall, List.mem_filterMap]
  simp only [Entry.record?_eq_some_iff]

end Source

/-- A record without the text of its comment. -/
def Record.withoutText : Record → Record
  | .comment first last _ => .comment first last none
  | .code c => .code c

theorem Source.entry_withoutText (src : Source) (withText : Bool) (l : Line) :
    src.entry false l = (src.entry withText l).map Record.withoutText := by
  simp only [entry]
  cases l.classify with
  | none => rfl
  | some x =>
    cases x with
    | code form name => rfl
    | commentOpen =>
      cases Comment.at? src.comments l.number with
      | some c => rfl
      | none => cases Comment.covers src.comments l.number <;> rfl

theorem Candidates.outcome_map (g : Record → Record) (c : Candidates) :
    (c.map g id).outcome = c.outcome.map (List.map g) := by
  obtain ⟨rs, failure⟩ := c
  cases failure <;> rfl

theorem outline_withoutText (o : Options) (text : List Char) :
    outline { o with withText := false } text =
      (outline o text).map (List.map Record.withoutText) := by
  have hmap : (Source.ofText text).offer { o with withText := false }
      ((Source.ofText text).lines.map id) =
        ((Source.ofText text).candidates o).map Record.withoutText id :=
    Source.offer_map _ { o with withText := false } (show _ = o.strict from rfl) fun l _ =>
      ⟨(Source.ofText text).entry_withoutText o.withText l, rfl⟩
  rw [List.map_id] at hmap
  rw [outline_eq, outline_eq, Source.candidates, hmap, Candidates.outcome_map]

/-- Of the comments in a text, each whose `/*` begins its line is one record of the outline and the
only one for that line, and only a comment that opens first on its line is a record. Comments
without their text are those with it, the text erased. -/
theorem outline_comments_complete (o : Options) (text : List Char) :
    let s := withoutReturns text
    (∀ rs, outline o text = .ok rs →
      (∀ c ∈ Span.all s, Leads s (c.line s) c.start →
        rs.filter (·.line == c.line s) = [c.record o.withText s]) ∧
      ∀ r ∈ rs, r.kind = .comment →
        ∃ c ∈ Span.all s, c.OpensFirst s ∧ r = c.record o.withText s) ∧
    outline { o with withText := false } text =
      (outline o text).map (List.map Record.withoutText) := by
  intro s
  refine ⟨fun rs hrs => ?_, outline_withoutText o text⟩
  have hfailure : ((Source.ofText text).candidates o).failure = none := by
    cases hf : ((Source.ofText text).candidates o).failure with
    | none => rfl
    | some n => simp [outline_eq, Candidates.outcome, hf] at hrs
  obtain rfl : ((Source.ofText text).candidates o).records = rs := by
    simpa [outline_eq, Candidates.outcome, hfailure] using hrs
  constructor
  · intro c hc hlead
    obtain ⟨l, hl, hn⟩ := Source.exists_line_number_eq text c.start
    have hentry := Source.entry_of_leads o.withText hl hc hlead hn
    have hmem := ((Source.ofText text).mem_offer_iff_of_failure_none o hfailure).2 ⟨l, hl, hentry⟩
    exact filter_eq_singleton_of_ordered
      ((Source.ofText text).pairwise_offer o (pairwise_numbered _)) hmem
  · intro r hr hkind
    obtain ⟨l, -, hentry⟩ :=
      ((Source.ofText text).mem_offer_iff_of_failure_none o hfailure).1 hr
    exact Source.exists_span_of_entry hentry hkind

/-- The first comment holds a `/*` that begins the second line, and another comment opens behind it
there. -/
theorem outline_comments_complete_reopened :
    let s := withoutReturns " \t/* a\r\n/* b */ /* c\n*/".toList
    let rs := [Record.comment 1 2 (some "/* a\n/* b */"), .comment 2 3 (some "/* c\n*/")]
    outline ⟨true, true⟩ " \t/* a\r\n/* b */ /* c\n*/".toList = .ok rs ∧
      Span.all s = [⟨2, 14⟩, ⟨15, 22⟩] ∧ Leads s (Span.line s ⟨2, 14⟩) 2 ∧
      rs.filter (·.line == Span.line s ⟨2, 14⟩) = [Span.record true s ⟨2, 14⟩] ∧
      ∃ c ∈ Span.all s, c.OpensFirst s ∧
        .comment 2 3 (some "/* c\n*/") = c.record true s := by
  intro s rs
  have hall : Span.all s = [⟨2, 14⟩, ⟨15, 22⟩] := by decide +kernel
  have hfound : (Source.ofText " \t/* a\r\n/* b */ /* c\n*/".toList).candidates ⟨true, true⟩ =
      ⟨rs, none⟩ := by decide +kernel
  have houtline : outline ⟨true, true⟩ " \t/* a\r\n/* b */ /* c\n*/".toList = .ok rs := by
    rw [outline_eq, hfound]
    rfl
  have hlead : Leads s (Span.line s ⟨2, 14⟩) 2 := by
    refine ⟨by decide +kernel, rfl, fun q hq _ => ?_⟩
    obtain rfl | rfl : q = 0 ∨ q = 1 := by omega
    · exact ⟨' ', by decide +kernel, rfl⟩
    · exact ⟨'\t', by decide +kernel, rfl⟩
  obtain ⟨hcomplete, hfaithful⟩ := (outline_comments_complete ⟨true, true⟩ _).1 rs houtline
  exact ⟨houtline, hall, hlead, hcomplete ⟨2, 14⟩ (hall ▸ List.mem_cons_self) hlead,
    hfaithful _ (by simp [rs]) rfl⟩

end ScriptOutline
