import ScriptOutline.Proofs.Offer
import ScriptOutline.Proofs.Span

/-!
Texts joined at a line break. If the first one ends outside its comments, the outline of the whole
is that of the first, then that of the second with its lines moved down (`outline_join`).
-/

set_option autoImplicit false

namespace ScriptOutline
open Text Delimiter

def Comment.shift (n : Nat) (c : Comment) : Comment :=
  { c with first := c.first + n, last := c.last + n }

namespace Span

def shift (n : Nat) (c : Span) : Span := ⟨n + c.start, n + c.stop⟩

/-- The place behind the last comment found from a place on. -/
def lastStop (s : List Char) (lo : Nat) : Nat := ((allFrom s lo).getLast?.map (·.stop)).getD lo

/-- What follows the last comment of a text. -/
def tail (s : List Char) : List Char := s.drop (lastStop s 0)

theorem lastStop_cons {s : List Char} {lo : Nat} {c : Span}
    (h : allFrom s lo = c :: allFrom s c.stop) : lastStop s lo = lastStop s c.stop := by
  rw [lastStop, lastStop, h, List.getLast?_cons]
  cases (allFrom s c.stop).getLast? <;> rfl

theorem allFrom_skip {s : List Char} {lo hi : Nat} (hle : lo ≤ hi)
    (h : ∀ i, lo ≤ i → i < hi → ¬ opener.StandsAt s i) : allFrom s lo = allFrom s hi := by
  induction hle with
  | refl => rfl
  | @step m hm ih =>
    rw [ih fun i hi hlt => h i hi (Nat.lt_succ_of_lt hlt),
      allFrom_succ (h m hm (Nat.lt_succ_self m))]

theorem allFrom_join_right (s t : List Char) (lo : Nat) :
    allFrom (s ++ '\n' :: t) (s.length + 1 + lo) = (allFrom t lo).map (shift (s.length + 1)) := by
  fun_induction allFrom t lo with
  | case1 lo ho =>
    have hopen : opener.first? (s ++ '\n' :: t) (s.length + 1 + lo) = none := by
      rw [first?_join_right, ho]; rfl
    rw [allFrom_nil hopen]
    rfl
  | case2 lo i ho hc =>
    have hopen : opener.first? (s ++ '\n' :: t) (s.length + 1 + lo) = some (s.length + 1 + i) := by
      rw [first?_join_right, ho]; rfl
    have hclose : closer.first? (s ++ '\n' :: t) (s.length + 1 + i + 2) = none := by
      rw [Nat.add_assoc _ i 2, first?_join_right, hc]; rfl
    rw [allFrom_some hopen, hclose]
    rfl
  | case3 lo i ho j hc _ ih =>
    have hopen : opener.first? (s ++ '\n' :: t) (s.length + 1 + lo) = some (s.length + 1 + i) := by
      rw [first?_join_right, ho]; rfl
    have hclose : closer.first? (s ++ '\n' :: t) (s.length + 1 + i + 2) =
        some (s.length + 1 + j) := by
      rw [Nat.add_assoc _ i 2, first?_join_right, hc]; rfl
    rw [allFrom_some hopen, hclose, List.map_cons, ← ih]
    rfl

/-- The comments of the first text are found as before, and those of the second behind the break. -/
theorem allFrom_join {s : List Char} {lo : Nat} (hlo : lo ≤ s.length)
    (h : ∀ i, lastStop s lo ≤ i → ¬ opener.StandsAt s i) (t : List Char) :
    allFrom (s ++ '\n' :: t) lo = allFrom s lo ++ (all t).map (shift (s.length + 1)) := by
  fun_induction allFrom s lo with
  | case1 lo ho =>
    have hskip : ∀ i, lo ≤ i → i < s.length + 1 → ¬ opener.StandsAt (s ++ '\n' :: t) i := by
      intro i hi hlt
      rw [standsAt_join_left (by omega)]
      exact first?_eq_none_iff.1 ho i hi
    rw [allFrom_skip (by omega) hskip, ← Nat.add_zero (s.length + 1), allFrom_join_right]
    rfl
  | case2 lo i ho hc =>
    -- An opener without a closer stands where none may stand.
    obtain ⟨hi, hopen, -⟩ := first?_eq_some_iff.1 ho
    have hstop : lastStop s lo = lo := by rw [lastStop, allFrom_some ho, hc]; rfl
    exact absurd hopen (h i (by omega))
  | case3 lo i ho j hc _ ih =>
    have hj := (first?_eq_some_iff.1 hc).2.1.add_two_le
    have hcons : allFrom s lo = ⟨i, j + 2⟩ :: allFrom s (j + 2) := by rw [allFrom_some ho, hc]
    rw [lastStop_cons hcons] at h
    rw [allFrom_some (first?_join_left t ho), first?_join_left t hc, List.cons_append]
    simp only
    rw [ih hj h]

theorem stop_le_length {s : List Char} {c : Span} (h : c ∈ all s) : c.stop ≤ s.length := by
  obtain ⟨-, j, -, hj, hclose⟩ := delimited_of_mem h
  have := hclose.add_two_le
  omega

theorem comment_join_left {s : List Char} {c : Span} (h : c ∈ all s) (t : List Char) :
    c.comment (s ++ '\n' :: t) = c.comment s := by
  have hstop := stop_le_length h
  have hstart := start_lt_stop_of_mem h
  simp only [comment, line, text, lineAt_append_left hstop, lineAt_append_left
    (show c.start ≤ s.length by omega), List.drop_append_of_le_length
    (show c.start ≤ s.length by omega)]
  rw [List.take_append_of_le_length (by rw [List.length_drop]; omega)]

theorem comment_join_right (s t : List Char) (c : Span) :
    (c.shift (s.length + 1)).comment (s ++ '\n' :: t) =
      (c.comment t).shift (lines s).length := by
  simp only [comment, shift, line, text, Comment.shift, lineAt_join_right, drop_join,
    Nat.add_sub_add_left]

end Span

namespace Comment

theorem firstPerLine_append {cs ds : List Comment}
    (h : ∀ c ∈ cs, ∀ d ∈ ds, d.first ≠ c.first) :
    firstPerLine (cs ++ ds) = firstPerLine cs ++ firstPerLine ds := by
  induction cs with
  | nil => rfl
  | cons c cs ih =>
    have hds : (firstPerLine ds).filter (·.first != c.first) = firstPerLine ds := by
      rw [List.filter_eq_self]
      intro d hd
      simpa using h c List.mem_cons_self d ((firstPerLine_sublist ds).mem hd)
    rw [List.cons_append, firstPerLine, ih fun d hd => h d (List.mem_cons_of_mem _ hd),
      List.filter_append, hds]
    rfl

theorem ofText_join {s : List Char} (h : ∀ i, Span.lastStop s 0 ≤ i → ¬ opener.StandsAt s i)
    (t : List Char) :
    ofText (s ++ '\n' :: t) = ofText s ++ (ofText t).map (shift (lines s).length) := by
  have hall : (Span.all (s ++ '\n' :: t)).map (·.comment (s ++ '\n' :: t)) =
      (Span.all s).map (·.comment s) ++
        ((Span.all t).map (·.comment t)).map (shift (lines s).length) := by
    rw [Span.all, Span.allFrom_join (Nat.zero_le _) h, List.map_append, List.map_map, List.map_map]
    congr 1
    · exact List.map_congr_left fun c hc => Span.comment_join_left hc t
    · exact List.map_congr_left fun c _ => Span.comment_join_right s t c
  rw [ofText_eq, hall, firstPerLine_append,
    firstPerLine_map fun c d => by simp [shift], ← ofText_eq, ← ofText_eq]
  intro c hc d hd
  obtain ⟨x, -, rfl⟩ := List.mem_map.1 hc
  obtain ⟨e, he, rfl⟩ := List.mem_map.1 hd
  obtain ⟨y, -, rfl⟩ := List.mem_map.1 he
  have hx := lineAt_le_length_lines s x.start
  simp only [shift, Span.comment, Span.line, lineAt] at hx ⊢
  omega

variable {cs ds : List Comment} {n line : Nat}

theorem at?_join_left (hline : line ≤ n) (hds : ∀ d ∈ ds, 1 ≤ d.first) :
    at? (cs ++ ds.map (shift n)) line = at? cs line := by
  have hnone : (ds.map (shift n)).find? (·.first == line) = none := by
    rw [List.find?_eq_none]
    intro c hc
    obtain ⟨d, hd, rfl⟩ := List.mem_map.1 hc
    have := hds d hd
    simp only [shift, beq_iff_eq]
    omega
  rw [at?, at?, List.find?_append, hnone, Option.or_none]

theorem at?_join_right (hline : 1 ≤ line) (hcs : ∀ c ∈ cs, c.first ≤ n) :
    at? (cs ++ ds.map (shift n)) (line + n) = (at? ds line).map (shift n) := by
  have hnone : cs.find? (·.first == line + n) = none := by
    rw [List.find?_eq_none]
    intro c hc
    have := hcs c hc
    simp only [beq_iff_eq]
    omega
  rw [at?, at?, List.find?_append, hnone, Option.none_or, List.find?_map]
  congr 2
  funext d
  rw [Bool.eq_iff_iff]
  simp [shift]

theorem covers_join_left (hline : line ≤ n) (hds : ∀ d ∈ ds, 1 ≤ d.first) :
    covers (cs ++ ds.map (shift n)) line = covers cs line := by
  have hnil : (ds.map (shift n)).filter (·.first < line) = [] := by
    rw [List.filter_eq_nil_iff]
    intro c hc
    obtain ⟨d, hd, rfl⟩ := List.mem_map.1 hc
    have hfirst := hds d hd
    intro hlt
    have hlt : d.first + n < line := of_decide_eq_true hlt
    omega
  rw [covers, covers, List.filter_append, hnil, List.append_nil]

theorem covers_join_right (hline : 1 ≤ line) (hcs : ∀ c ∈ cs, c.last ≤ n) :
    covers (cs ++ ds.map (shift n)) (line + n) = covers ds line := by
  have hfilter : (ds.map (shift n)).filter (·.first < line + n) =
      (ds.filter (·.first < line)).map (shift n) := by
    rw [List.filter_map]
    congr 2
    funext d
    rw [Bool.eq_iff_iff]
    simp [shift]
  rw [covers, covers, List.filter_append, hfilter, List.getLast?_append, List.getLast?_map]
  cases (ds.filter (·.first < line)).getLast? with
  | some d =>
    rw [Option.map_some, Option.some_or, Bool.eq_iff_iff]
    simp [shift]
  | none =>
    rw [Option.map_none, Option.none_or]
    cases hlast : (cs.filter (·.first < line + n)).getLast? with
    | none => rfl
    | some c =>
      have := hcs c (List.mem_filter.1 (List.mem_of_getLast? hlast)).1
      simp only [decide_eq_false_iff_not]
      omega

theorem lines_of_mem_ofText {s : List Char} {c : Comment} (h : c ∈ ofText s) :
    1 ≤ c.first ∧ c.first ≤ (lines s).length ∧ c.last ≤ (lines s).length := by
  obtain ⟨x, -, -, rfl⟩ := mem_ofText_iff.1 h
  exact ⟨Nat.le_add_right 1 _, lineAt_le_length_lines s _, lineAt_le_length_lines s _⟩

end Comment

def Line.shift (n : Nat) (l : Line) : Line := { l with number := l.number + n }

def Record.shift (n : Nat) : Record → Record
  | .comment first last text => .comment (first + n) (last + n) text
  | .code c => .code { c with line := c.line + n }

def SourceError.shift (n : Nat) : SourceError → SourceError
  | .notUtf8 e => .notUtf8 e
  | .unclosedComment line => .unclosedComment (line + n)

theorem numbered_append (xs ys : List (List Char)) :
    numbered (xs ++ ys) = numbered xs ++ (numbered ys).map (Line.shift xs.length) := by
  rw [numbered, List.zipIdx_append, List.map_append, Nat.add_comm 1 xs.length,
    ← List.map_snd_add_zipIdx_eq_zipIdx, List.map_map, numbered, numbered, List.map_map]
  rfl

theorem withoutReturns_join (a b : List Char) :
    withoutReturns (a ++ '\n' :: b) = withoutReturns a ++ '\n' :: withoutReturns b := by
  simp [withoutReturns]

theorem number_le_of_mem {ls : List (List Char)} {l : Line} (h : l ∈ numbered ls) :
    1 ≤ l.number ∧ l.number ≤ ls.length := by
  obtain ⟨i, hi, hn⟩ := mem_numbered_iff.1 h
  obtain ⟨hlt, -⟩ := List.getElem?_eq_some_iff.1 hi
  omega

namespace Source

theorem ofText_join {a : List Char}
    (h : ∀ i, Span.lastStop (withoutReturns a) 0 ≤ i → ¬ opener.StandsAt (withoutReturns a) i)
    (b : List Char) :
    ofText (a ++ '\n' :: b) =
      ⟨(ofText a).lines ++ (ofText b).lines.map (Line.shift (Text.lines (withoutReturns a)).length),
        (ofText a).comments ++
          (ofText b).comments.map (Comment.shift (Text.lines (withoutReturns a)).length)⟩ := by
  rw [ofText, withoutReturns_join, Comment.ofText_join h, lines_join, numbered_append]
  rfl

theorem entry_join_left {src : Source} {ls : List Line} {ds : List Comment} {n : Nat} {l : Line}
    (hl : l.number ≤ n) (hds : ∀ d ∈ ds, 1 ≤ d.first) (withText : Bool) :
    entry ⟨ls, src.comments ++ ds.map (Comment.shift n)⟩ withText l = src.entry withText l := by
  simp only [entry, Comment.at?_join_left hl hds, Comment.covers_join_left hl hds]

theorem entry_join_right {src : Source} {ls : List Line} {cs : List Comment} {n : Nat} {l : Line}
    (hl : 1 ≤ l.number) (hcs : ∀ c ∈ cs, c.first ≤ n ∧ c.last ≤ n) (withText : Bool) :
    entry ⟨ls, cs ++ src.comments.map (Comment.shift n)⟩ withText (l.shift n) =
      (src.entry withText l).map (Record.shift n) := by
  have hclass : (l.shift n).classify = l.classify := Line.classify_congr rfl
  have hat : Comment.at? (cs ++ src.comments.map (Comment.shift n)) (l.shift n).number =
      (Comment.at? src.comments l.number).map (Comment.shift n) :=
    Comment.at?_join_right hl fun c hc => (hcs c hc).1
  have hcovers : Comment.covers (cs ++ src.comments.map (Comment.shift n)) (l.shift n).number =
      Comment.covers src.comments l.number :=
    Comment.covers_join_right hl fun c hc => (hcs c hc).2
  simp only [entry, hclass, hat, hcovers]
  cases l.classify with
  | none => rfl
  | some x =>
    cases x with
    | code form name => rfl
    | commentOpen =>
      cases Comment.at? src.comments l.number with
      | some c => rfl
      | none => cases Comment.covers src.comments l.number <;> rfl

theorem candidates_join (o : Options) {a : List Char}
    (h : ¬ opener.text <:+: Span.tail (withoutReturns a)) (b : List Char) :
    (ofText (a ++ '\n' :: b)).candidates o =
      ((ofText a).candidates o).append
        (((ofText b).candidates o).map (Record.shift (Text.lines (withoutReturns a)).length)
          (· + (Text.lines (withoutReturns a)).length)) := by
  have hstop : ∀ i, Span.lastStop (withoutReturns a) 0 ≤ i →
      ¬ opener.StandsAt (withoutReturns a) i :=
    fun i hi hs => h (infix_drop_iff.2 ⟨i, hi, hs⟩)
  rw [ofText_join hstop, candidates, offer_append]
  congr 1
  · refine offer_congr _ o fun l hl => ?_
    exact entry_join_left (number_le_of_mem hl).2
      (fun d hd => (Comment.lines_of_mem_ofText hd).1) o.withText
  · refine offer_map _ o rfl fun l hl => ⟨?_, rfl⟩
    exact entry_join_right (number_le_of_mem hl).1
      (fun c hc => (Comment.lines_of_mem_ofText hc).2) o.withText

end Source

/-- Outlines join as their texts do, if the first text ends outside its comments. -/
theorem outline_join (o : Options) (a b : List Char)
    (h : ¬ opener.text <:+: Span.tail (withoutReturns a)) :
    outline o (a ++ '\n' :: b) =
      match outline o a with
      | .error e => .error e
      | .ok rs =>
        match outline o b with
        | .error e => .error (e.shift (lines (withoutReturns a)).length)
        | .ok rs' => .ok (rs ++ rs'.map (Record.shift (lines (withoutReturns a)).length)) := by
  rw [outline_eq, outline_eq, outline_eq, Source.candidates_join o h]
  generalize (Source.ofText a).candidates o = c
  generalize (Source.ofText b).candidates o = d
  obtain ⟨rs, failure⟩ := c
  obtain ⟨rs', failure'⟩ := d
  cases failure <;> cases failure' <;> rfl

/-- The first text has two lines, so the comment that the second leaves open is reported two lines
further down. -/
theorem outline_join_second_fails :
    ¬ opener.text <:+: Span.tail (withoutReturns "/* a\r\nb */ c".toList) ∧
      outline ⟨true, true⟩ ("/* a\r\nb */ c".toList ++ '\n' :: "var d = 1;\n /* e".toList) =
        .error (.unclosedComment 4) := by
  have htail : ¬ opener.text <:+: Span.tail (withoutReturns "/* a\r\nb */ c".toList) := by
    decide +kernel
  have hfirst : (Source.ofText "/* a\r\nb */ c".toList).candidates ⟨true, true⟩ =
      ⟨[.comment 1 2 (some "/* a\nb */")], none⟩ := by decide +kernel
  have hsecond : ((Source.ofText "var d = 1;\n /* e".toList).candidates ⟨true, true⟩).failure =
      some 2 := by decide +kernel
  refine ⟨htail, (outline_join ⟨true, true⟩ _ "var d = 1;\n /* e".toList htail).trans ?_⟩
  rw [outline_eq, outline_eq, hfirst, Candidates.outcome, Candidates.outcome, hsecond]
  rfl

end ScriptOutline
