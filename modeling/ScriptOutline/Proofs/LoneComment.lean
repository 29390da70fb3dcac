import ScriptOutline.Proofs.CommentRecord
import ScriptOutline.Proofs.Indent
import ScriptOutline.Proofs.LineByLine

/-!
Texts that are one comment. The outline has that comment first, and behind it what the lines of the
comment but its first have for an outline by themselves: the reading of code does not know of
comments (`outline_lone_comment`).
-/

set_option autoImplicit false

namespace ScriptOutline
open Text Delimiter

/-- One block comment, with nothing but whitespace around it. -/
structure LoneComment where
  before : List Char
  body : List Char
  behind : List Char
  blank_before : ∀ c ∈ before, isWhitespace c = true
  blank_behind : ∀ c ∈ behind, isWhitespace c = true
  open_body : ¬ closer.text <:+: body

theorem Delimiter.not_standsAt_of_isWhitespace (d : Delimiter) {s : List Char} {i : Nat} {c : Char}
    (hc : s[i]? = some c) (hw : isWhitespace c = true) : ¬ d.StandsAt s i := by
  intro h
  obtain ⟨rest, hrest⟩ := h
  have hhead : s[i]? = (d.text ++ rest).head? := by rw [hrest, List.head?_drop]
  rw [hc] at hhead
  cases d <;> cases hhead <;> cases hw

theorem Line.classify_eq_none_of_blank {l : Line} (h : ∀ c ∈ l.raw, isWhitespace c = true) :
    l.classify = none := by
  have htrim : trimStart l.raw = [] := List.dropWhile_eq_nil_iff.2 h
  rw [← l.classify_unindent, unindent, htrim]
  rfl

namespace LoneComment
variable (x : LoneComment)

def text : List Char := x.before ++ '/' :: '*' :: (x.body ++ '*' :: '/' :: x.behind)

/-- The line of the `/*`. -/
def first : Nat := 1 + Comment.lineFeeds x.before

/-- The line of the `*/`. -/
def last : Nat := x.first + Comment.lineFeeds x.body

def span : Span := ⟨x.before.length, x.before.length + 2 + x.body.length + 2⟩

theorem drop_before : x.text.drop x.before.length =
    '/' :: '*' :: (x.body ++ '*' :: '/' :: x.behind) := List.drop_left

theorem drop_body (k : Nat) : x.text.drop (x.before.length + 2 + k) =
    (x.body ++ '*' :: '/' :: x.behind).drop k := by
  rw [Nat.add_assoc, ← List.drop_drop, x.drop_before, ← List.drop_drop]
  rfl

theorem blank_of_lt {i : Nat} (hi : i < x.before.length) :
    ∃ c, x.text[i]? = some c ∧ isWhitespace c = true :=
  ⟨x.before[i], by rw [text, List.getElem?_append_left hi, List.getElem?_eq_getElem],
    x.blank_before _ (List.getElem_mem hi)⟩

theorem blank_of_stop_le {i : Nat} (hi : x.span.stop ≤ i) {c : Char}
    (hc : x.text[i]? = some c) : isWhitespace c = true := by
  obtain ⟨k, rfl⟩ := Nat.exists_eq_add_of_le hi
  have hdrop : x.text.drop x.span.stop = x.behind := by
    rw [span, Nat.add_assoc, x.drop_body, ← List.drop_drop, List.drop_left]
    rfl
  rw [← List.getElem?_drop, hdrop] at hc
  exact x.blank_behind c (List.mem_of_getElem? hc)

theorem not_standsAt_body {k : Nat} (hk : k < x.body.length) :
    ¬ closer.StandsAt x.text (x.before.length + 2 + k) := by
  rw [StandsAt, x.drop_body, List.drop_append_of_le_length (Nat.le_of_lt hk)]
  intro h
  rcases hrest : x.body.drop k with - | ⟨a, - | ⟨b, rest⟩⟩
  · exact absurd (List.drop_eq_nil_iff.1 hrest) (Nat.not_le_of_lt hk)
  · rw [hrest] at h
    simp [Delimiter.text] at h
  · refine x.open_body (List.IsInfix.trans ?_ (List.drop_suffix k _).isInfix)
    rw [hrest] at h ⊢
    exact List.IsPrefix.isInfix (by simpa [Delimiter.text] using h)

theorem all_text : Span.all x.text = [x.span] := by
  have hopen : opener.first? x.text 0 = some x.before.length := by
    refine first?_eq_some_iff.2 ⟨Nat.zero_le _, ?_, fun i _ hi => ?_⟩
    · rw [StandsAt, x.drop_before]
      exact ⟨_, rfl⟩
    · obtain ⟨c, hc, hw⟩ := x.blank_of_lt hi
      exact not_standsAt_of_isWhitespace _ hc hw
  have hclose : closer.first? x.text (x.before.length + 2) =
      some (x.before.length + 2 + x.body.length) := by
    refine first?_eq_some_iff.2 ⟨Nat.le_add_right _ _, ?_, fun j hj hlt => ?_⟩
    · rw [StandsAt, x.drop_body, List.drop_left]
      exact ⟨_, rfl⟩
    · obtain ⟨k, rfl⟩ := Nat.exists_eq_add_of_le hj
      exact x.not_standsAt_body (by omega)
  have hnext : opener.first? x.text x.span.stop = none := by
    refine first?_eq_none_iff.2 fun i hi h => ?_
    have hlt : i < x.text.length := by have := h.add_two_le; omega
    have hc := List.getElem?_eq_getElem hlt
    exact not_standsAt_of_isWhitespace _ hc (x.blank_of_stop_le hi hc) h
  have hrest : Span.allFrom x.text (x.before.length + 2 + x.body.length + 2) = [] :=
    Span.allFrom_nil hnext
  rw [Span.all, Span.allFrom_some hopen, hclose]
  simp only [hrest, span]

theorem mem_all : x.span ∈ Span.all x.text := by rw [x.all_text]; exact List.mem_cons_self

theorem line_span : x.span.line x.text = x.first := by
  rw [Span.line, lineAt, span, text, List.take_left, first]

theorem lineAt_stop : lineAt x.text x.span.stop = x.last := by
  have hclose : Comment.lineFeeds ['/', '*'] = 0 ∧ Comment.lineFeeds ['*', '/'] = 0 := by decide
  have htake : x.text.take x.span.stop = x.before ++ (['/', '*'] ++ (x.body ++ ['*', '/'])) := by
    have htext : x.text = x.before ++ (['/', '*'] ++ (x.body ++ ['*', '/'])) ++ x.behind := by
      simp [text]
    rw [htext, List.take_left' (by simp [span]; omega)]
  simp only [Comment.lineFeeds] at hclose
  simp only [lineAt, htake, Comment.lineFeeds, List.count_append, hclose, last, first]
  omega

theorem leads : Leads x.text x.first x.span.start := by
  refine ⟨(Span.delimited_of_mem x.mem_all).1, x.line_span, fun q hq _ => x.blank_of_lt hq⟩

theorem record_span : x.span.record false x.text = .comment x.first x.last none := by
  have hfirst : lineAt x.text x.span.start = x.first := x.line_span
  rw [Span.record, ← Span.lineAt_stop x.mem_all, x.lineAt_stop, hfirst]
  rfl

end LoneComment

namespace Source
variable {text : List Char} {x : LoneComment} (htext : withoutReturns text = x.text)
include htext

/-- Outside the lines of the comment there is only whitespace. -/
theorem entry_of_outside {l : Line} (hl : l ∈ (ofText text).lines)
    (h : l.number < x.first ∨ x.last < l.number) : (ofText text).entry false l = .nothing := by
  have hblank : ∀ c ∈ l.raw, isWhitespace c = true := by
    intro c hc
    obtain ⟨n, hraw, hnumber⟩ := mem_numbered_iff.1 hl
    obtain ⟨k, hk⟩ := exists_lineBegins hraw
    obtain ⟨i, hi, rfl⟩ := List.getElem_of_mem hc
    have hline := hk.lineAt_add (Nat.le_of_lt hi)
    have hget := hk.getElem?_eq hi
    rw [htext] at hline hget
    rw [List.getElem?_eq_getElem hi] at hget
    by_cases hstart : k + i < x.span.start
    · obtain ⟨d, hd, hw⟩ := x.blank_of_lt hstart
      rw [hget] at hd
      cases hd
      exact hw
    by_cases hstop : x.span.stop ≤ k + i
    · exact x.blank_of_stop_le hstop hget
    have hfirst := lineAt_mono (s := x.text) (Nat.le_of_not_lt hstart)
    have hlast := lineAt_mono (s := x.text) (Nat.le_of_not_le hstop)
    have hspan : lineAt x.text x.span.start = x.first := x.line_span
    rw [hline, hspan] at hfirst
    rw [hline, x.lineAt_stop] at hlast
    omega
  simp only [entry, Line.classify_eq_none_of_blank hblank]

/-- On its other lines the comment itself is not seen again, so that only code counts. -/
theorem record?_entry_of_inside {l : Line} (h : x.first < l.number ∧ l.number ≤ x.last) :
    ((ofText text).entry false l).record? = l.code?.map Record.code := by
  obtain ⟨hlt, hle⟩ := h
  have hat : Comment.at? (Comment.ofText (withoutReturns text)) l.number = none := by
    rw [at?_ofText_eq_none_iff, htext, x.all_text]
    intro c hc
    rw [List.mem_singleton.1 hc, x.line_span]
    omega
  have hcovers : Comment.covers (Comment.ofText (withoutReturns text)) l.number = true := by
    rw [Comment.covers_iff (Comment.pairwise_ofText _), htext]
    have hmem : x.span.comment x.text ∈ Comment.ofText x.text := by
      refine Comment.mem_ofText_iff.2 ⟨x.span, x.mem_all, ?_, rfl⟩
      exact Span.opensFirst_of_leads (x.line_span.symm ▸ x.leads)
    exact ⟨_, hmem, (congrArg (· < l.number) x.line_span).mpr hlt,
      (congrArg (l.number ≤ ·) x.lineAt_stop).mpr hle⟩
  rw [entry, Line.code?]
  cases l.classify with
  | none => rfl
  | some f =>
    cases f with
    | code form name => rfl
    | commentOpen => simp [ofText, hat, hcovers, Entry.record?]

theorem filterMap_entry :
    (ofText text).lines.filterMap (fun l => ((ofText text).entry false l).record?) =
      .comment x.first x.last none ::
        ((ofText text).lines.filter fun l => x.first < l.number && l.number ≤ x.last).filterMap
          fun l => l.code?.map Record.code := by
  obtain ⟨l, hl, hn⟩ := exists_line_number_eq text x.span.start
  rw [htext] at hn
  have hnumber : l.number = x.first := hn.trans x.line_span
  have hentry : (ofText text).entry false l = .record (.comment x.first x.last none) := by
    have hlead : Leads x.text (x.span.line x.text) x.span.start := x.line_span.symm ▸ x.leads
    rw [entry_of_leads false hl (htext ▸ x.mem_all) (htext ▸ hlead) (htext ▸ hn), htext,
      x.record_span]
  have hbefore : ((ofText text).lines.filter (·.number < l.number)).filterMap
      (fun l => ((ofText text).entry false l).record?) = [] := by
    refine List.filterMap_eq_nil_iff.2 fun m hm => ?_
    obtain ⟨hm, hlt⟩ := List.mem_filter.1 hm
    rw [entry_of_outside htext hm (.inl (hnumber ▸ of_decide_eq_true hlt))]
    rfl
  have hbehind : ((ofText text).lines.filter (l.number < ·.number)).filterMap
      (fun l => ((ofText text).entry false l).record?) =
        ((ofText text).lines.filter fun l => x.first < l.number && l.number ≤ x.last).filterMap
          fun l => l.code?.map Record.code := by
    rw [List.filterMap_filter, List.filterMap_filter]
    refine List.filterMap_congr fun m hm => ?_
    rw [hnumber]
    by_cases hlt : x.first < m.number
    · by_cases hle : m.number ≤ x.last
      · simp [hlt, hle, record?_entry_of_inside htext ⟨hlt, hle⟩]
      · simp [hlt, hle, entry_of_outside htext hm (.inr (Nat.lt_of_not_le hle)), Entry.record?]
    · simp [hlt]
  have hpair : (ofText text).lines.Pairwise (fun l m => l.number < m.number) :=
    pairwise_numbered _
  have hcut := congrArg (List.filterMap fun l => ((ofText text).entry false l).record?)
    (eq_filter_append_cons_of_ordered hpair hl)
  have hrecord : ((ofText text).entry false l).record? =
      some (.comment x.first x.last none) := Entry.record?_eq_some_iff.2 hentry
  simpa only [List.filterMap_append, hbefore, List.nil_append, List.filterMap_cons, hrecord,
    hbehind] using hcut

end Source

/-- A text that is one comment has that comment in its outline, then what the lines of the comment
behind its first have by themselves; it has nothing else if none of them is code. -/
theorem outline_lone_comment (x : LoneComment) {text : List Char}
    (htext : withoutReturns text = x.text) :
    let inside := (Source.ofText text).lines.filter fun l =>
      x.first < l.number && l.number ≤ x.last
    outline {} text = .ok (.comment x.first x.last none ::
        inside.flatMap fun l => (codeLines l.raw).map fun c => .code (c.at l.number)) ∧
      (outline {} text = .ok [.comment x.first x.last none] ↔
        ∀ l ∈ inside, codeLines l.raw = []) := by
  intro inside
  have halone : inside.filterMap (fun l => l.code?.map Record.code) =
      inside.flatMap fun l => (codeLines l.raw).map fun c => .code (c.at l.number) := by
    rw [List.filterMap_eq_flatMap_toList]
    refine List.flatMap_congr fun l hl => ?_
    rw [codeLines_raw (List.mem_filter.1 hl).1, Line.code?_renumber 1]
    cases Line.code? ⟨1, l.raw⟩ <;> rfl
  have houtline : outline {} text = .ok (.comment x.first x.last none ::
      inside.flatMap fun l => (codeLines l.raw).map fun c => .code (c.at l.number)) := by
    rw [outline_lenient rfl, Source.filterMap_entry htext, halone]
  refine ⟨houtline, ?_⟩
  rw [houtline]
  simp

/-- Of the lines inside, one is a `/*` again and one is code. -/
theorem outline_lone_comment_with_code :
    let x : LoneComment := ⟨"\n \t".toList, "*\n/* b\nvar c = 2;\n ".toList, " \n".toList,
      List.all_eq_true.1 (by decide +kernel), List.all_eq_true.1 (by decide +kernel),
      by decide +kernel⟩
    let text := "\r\n \t/**\r\n/* b\r\nvar c = 2;\r\n */ \r\n".toList
    withoutReturns text = x.text ∧
      outline {} text =
        .ok [.comment 2 5 none, .code ⟨4, .declaration "2", "c", "c", "var c = 2;"⟩] := by
  intro x text
  have htext : withoutReturns text = x.text := by decide +kernel
  have hinside : ((Source.ofText text).lines.filter fun l =>
      x.first < l.number && l.number ≤ x.last) =
        [⟨3, "/* b".toList⟩, ⟨4, "var c = 2;".toList⟩, ⟨5, " */ ".toList⟩] := by decide +kernel
  refine ⟨htext, (outline_lone_comment x htext).1.trans ?_⟩
  rw [hinside]
  decide +kernel

/-- A comment need not be all that its text has in an outline: a line of it may be code, and a `*/`
may come about where a carriage return is taken out of it. -/
theorem outline_lone_comment_not_alone :
    let x : LoneComment := ⟨[], "\nvar a = 1;\n".toList, [],
      List.all_eq_true.1 (by decide +kernel), List.all_eq_true.1 (by decide +kernel),
      by decide +kernel⟩
    let y : LoneComment := ⟨[], " *\r/\n".toList, [],
      List.all_eq_true.1 (by decide +kernel), List.all_eq_true.1 (by decide +kernel),
      by decide +kernel⟩
    (x.text = "/*\nvar a = 1;\n*/".toList ∧ x.first = 1 ∧ x.last = 3 ∧
        outline {} x.text =
          .ok [.comment 1 3 none, .code ⟨2, .declaration "1", "a", "a", "var a = 1;"⟩] ∧
        outline {} x.text ≠ .ok [.comment x.first x.last none]) ∧
      y.text = "/* *\r/\n*/".toList ∧ y.first = 1 ∧ y.last = 2 ∧
        outline {} y.text = .ok [.comment 1 1 none] ∧
        outline {} y.text ≠ .ok [.comment y.first y.last none] := by
  decide +kernel

end ScriptOutline
