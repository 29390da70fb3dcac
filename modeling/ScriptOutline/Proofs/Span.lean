import ScriptOutline.Proofs.Place

/-!
Block comments as spans of places. `Span.all` finds a comment by looking for its two delimiters and
goes on behind it; reading a text character by character finds the same comments
(`Comment.scan_drop`). Of those that open on one line only the first can be looked up
(`Comment.mem_ofText_iff`). Whether one of these covers a line is decided by the nearest that opens
above it (`Comment.covers_ofText_iff`).
-/

set_option autoImplicit false

namespace ScriptOutline
open Text Delimiter

/-- The places of a comment: from its `/*` up to the place behind its `*/`. -/
structure Span where
  start : Nat
  stop : Nat
  deriving DecidableEq, Repr

namespace Span

def Holds (c : Span) (i : Nat) : Prop := c.start ≤ i ∧ i < c.stop

instance (c : Span) (i : Nat) : Decidable (c.Holds i) := inferInstanceAs (Decidable (_ ∧ _))

def text (s : List Char) (c : Span) : List Char := (s.drop c.start).take (c.stop - c.start)

def line (s : List Char) (c : Span) : Nat := lineAt s c.start

def comment (s : List Char) (c : Span) : Comment := ⟨c.line s, lineAt s c.stop, c.text s⟩

/-- A comment from the first `/*` at `lo` or behind it to the first `*/` at least two places
later, then those behind it, until one of the delimiters is missing. -/
def allFrom (s : List Char) (lo : Nat) : List Span :=
  match ho : opener.first? s lo with
  | none => []
  | some i =>
    match hc : closer.first? s (i + 2) with
    | none => []
    | some j =>
      have : s.length - (j + 2) < s.length - lo := by
        obtain ⟨hlo, -⟩ := first?_eq_some_iff.1 ho
        obtain ⟨hi, hj, -⟩ := first?_eq_some_iff.1 hc
        have := hj.add_two_le
        omega
      ⟨i, j + 2⟩ :: allFrom s (j + 2)
  termination_by s.length - lo

/-- The comments of a text, from left to right. -/
def all (s : List Char) : List Span := allFrom s 0

end Span

theorem Comment.toClose_drop (s : List Char) (lo : Nat) :
    Comment.toClose (s.drop lo) = (closer.first? s lo).map fun j =>
      ((s.drop lo).take (j + 2 - lo), s.drop (j + 2)) := by
  generalize ht : s.drop lo = t
  fun_induction Comment.toClose t generalizing lo with
  | case1 => rw [first?_of_drop_eq_nil ht]; rfl
  | case2 rest =>
    have hsome : closer.first? s lo = some lo :=
      first?_of_standsAt ((standsAt_iff_exists rfl).2 ⟨rest, ht⟩)
    have hrest : s.drop (lo + 2) = rest := drop_succ_of_drop (drop_succ_of_drop ht)
    simp [hsome, hrest]
  | case3 c rest hc ih =>
    have hno : ¬ closer.StandsAt s lo := not_standsAt_of_drop rfl ht hc
    rw [first?_succ hno, ih (lo + 1) (drop_succ_of_drop ht)]
    cases hf : closer.first? s (lo + 1) with
    | none => rfl
    | some j =>
      have hj := (first?_eq_some_iff.1 hf).1
      simp [show j + 2 - lo = (j + 2 - (lo + 1)) + 1 by omega]

theorem Span.allFrom_nil {s : List Char} {lo : Nat} (h : opener.first? s lo = none) :
    allFrom s lo = [] := by
  rw [allFrom]
  split <;> simp_all

theorem Span.allFrom_some {s : List Char} {lo i : Nat} (h : opener.first? s lo = some i) :
    allFrom s lo = match closer.first? s (i + 2) with
      | none => []
      | some j => ⟨i, j + 2⟩ :: allFrom s (j + 2) := by
  rw [allFrom]
  split <;> rename_i hf <;> rw [h] at hf <;> cases hf
  split <;> simp_all

theorem Span.allFrom_succ {s : List Char} {lo : Nat} (h : ¬ opener.StandsAt s lo) :
    allFrom s lo = allFrom s (lo + 1) := by
  cases hf : opener.first? s (lo + 1) with
  | none => rw [allFrom_nil hf, allFrom_nil ((first?_succ h).trans hf)]
  | some i => rw [allFrom_some hf, allFrom_some ((first?_succ h).trans hf)]

/-- Reading a text character by character finds the comments that its delimiters bound. -/
theorem Comment.scan_drop (s : List Char) (lo : Nat) :
    Comment.scan (lineAt s lo) (s.drop lo) = (Span.allFrom s lo).map (·.comment s) := by
  generalize hl : lineAt s lo = line
  generalize ht : s.drop lo = t
  fun_induction Comment.scan line t generalizing lo with
  | case1 => simp [Span.allFrom_nil (first?_of_drop_eq_nil ht)]
  | case2 _ rest hnone =>
    have ho : opener.StandsAt s lo := (standsAt_iff_exists rfl).2 ⟨rest, ht⟩
    have hrest : s.drop (lo + 2) = rest := drop_succ_of_drop (drop_succ_of_drop ht)
    rw [← hrest, Comment.toClose_drop, Option.map_eq_none_iff] at hnone
    simp [Span.allFrom_some (first?_of_standsAt ho), hnone]
  | case3 line rest body after hsome _ text ih =>
    have ho : opener.StandsAt s lo := (standsAt_iff_exists rfl).2 ⟨rest, ht⟩
    have hrest : s.drop (lo + 2) = rest := drop_succ_of_drop (drop_succ_of_drop ht)
    rw [← hrest, Comment.toClose_drop, Option.map_eq_some_iff] at hsome
    obtain ⟨j, hj, hsome⟩ := hsome
    obtain ⟨rfl, rfl⟩ := Prod.mk.inj hsome
    obtain ⟨n, rfl⟩ := Nat.exists_eq_add_of_le (first?_eq_some_iff.1 hj).1
    have htext : text = (s.drop lo).take (n + 2 + 2) := by
      simp [text, ht, hrest, show lo + 2 + n + 2 - (lo + 2) = n + 2 by omega]
    have hline : lineAt s (lo + 2 + n + 2) = line + Comment.lineFeeds text := by
      rw [htext, ← hl, ← lineAt_add_drop]
      congr 1; omega
    rw [Span.allFrom_some (first?_of_standsAt ho), hj, ih _ hline rfl]
    simp [Span.comment, Span.text, Span.line, hl, hline, htext,
      show lo + 2 + n + 2 - lo = n + 2 + 2 by omega]
  | case4 line c rest hc ih =>
    have hno : ¬ opener.StandsAt s lo := not_standsAt_of_drop rfl ht hc
    have hline : lineAt s (lo + 1) = if c = '\n' then line + 1 else line := by
      rw [lineAt_succ ht, hl]
    rw [Span.allFrom_succ hno]
    exact ih (lo + 1) hline (drop_succ_of_drop ht)

namespace Span

theorem start_le_of_mem {s : List Char} {lo : Nat} {c : Span} (h : c ∈ allFrom s lo) :
    lo ≤ c.start := by
  fun_induction allFrom s lo with
  | case1 => simp at h
  | case2 => simp at h
  | case3 lo i ho j hc _ ih =>
    have hi := (first?_eq_some_iff.1 ho).1
    have hj := (first?_eq_some_iff.1 hc).1
    rcases List.mem_cons.1 h with rfl | h
    · exact hi
    · have := ih h
      omega

theorem delimited_of_mem {s : List Char} {lo : Nat} {c : Span} (h : c ∈ allFrom s lo) :
    opener.StandsAt s c.start ∧ ∃ j, c.start + 2 ≤ j ∧ c.stop = j + 2 ∧ closer.StandsAt s j := by
  fun_induction allFrom s lo with
  | case1 => simp at h
  | case2 => simp at h
  | case3 lo i ho j hc _ ih =>
    obtain ⟨-, hi, -⟩ := first?_eq_some_iff.1 ho
    obtain ⟨hij, hj, -⟩ := first?_eq_some_iff.1 hc
    rcases List.mem_cons.1 h with rfl | h
    · exact ⟨hi, j, hij, rfl, hj⟩
    · exact ih h

theorem start_lt_stop_of_mem {s : List Char} {lo : Nat} {c : Span} (h : c ∈ allFrom s lo) :
    c.start < c.stop := by
  obtain ⟨-, j, hj, hstop, -⟩ := delimited_of_mem h
  omega

theorem pairwise_allFrom (s : List Char) (lo : Nat) :
    (allFrom s lo).Pairwise (fun c d => c.stop ≤ d.start) := by
  fun_induction allFrom s lo with
  | case1 => exact .nil
  | case2 => exact .nil
  | case3 lo i _ j _ _ ih => exact .cons (fun d hd => start_le_of_mem hd) ih

/-- A `/*` that is closed somewhere lies in a comment, its own or another. -/
theorem exists_holds_of_closed {s : List Char} {lo p q : Nat} (hlo : lo ≤ p)
    (hp : opener.StandsAt s p) (hpq : p + 2 ≤ q) (hq : closer.StandsAt s q) :
    ∃ c ∈ allFrom s lo, c.Holds p := by
  fun_induction allFrom s lo with
  | case1 lo ho => exact absurd hp (first?_eq_none_iff.1 ho p hlo)
  | case2 lo i ho hc =>
    obtain ⟨-, -, hmin⟩ := first?_eq_some_iff.1 ho
    have hip : i ≤ p := Nat.le_of_not_lt fun hlt => hmin p hlo hlt hp
    exact absurd hq (first?_eq_none_iff.1 hc q (by omega))
  | case3 lo i ho j hc _ ih =>
    obtain ⟨-, -, hmin⟩ := first?_eq_some_iff.1 ho
    have hip : i ≤ p := Nat.le_of_not_lt fun hlt => hmin p hlo hlt hp
    by_cases hpj : p < j + 2
    · exact ⟨_, List.mem_cons_self, hip, hpj⟩
    · obtain ⟨c, hc, hcp⟩ := ih (Nat.le_of_not_lt hpj)
      exact ⟨c, List.mem_cons_of_mem _ hc, hcp⟩

theorem pairwise_start (s : List Char) :
    (all s).Pairwise (fun c d => c.start < d.start) :=
  (pairwise_allFrom s 0).imp_of_mem fun hc _ hcd =>
    Nat.lt_of_lt_of_le (start_lt_stop_of_mem hc) hcd

/-- No other comment opens on the same line before it. -/
def OpensFirst (s : List Char) (c : Span) : Prop :=
  ∀ d ∈ all s, d.start < c.start → d.line s ≠ c.line s

theorem find?_line_eq_some_iff {s : List Char} {k : Nat} {c : Span} :
    (all s).find? (·.line s == k) = some c ↔ c ∈ all s ∧ c.line s = k ∧ c.OpensFirst s := by
  rw [find?_eq_some_iff_of_ordered (pairwise_start s)]
  simp only [beq_iff_eq, beq_eq_false_iff_ne, OpensFirst]
  constructor
  · intro h
    obtain ⟨hc, rfl, hmin⟩ := h
    exact ⟨hc, rfl, hmin⟩
  · intro h
    obtain ⟨hc, rfl, hmin⟩ := h
    exact ⟨hc, rfl, hmin⟩

theorem comment_last_eq {s : List Char} {c : Span} (h : c.start ≤ c.stop) :
    (c.comment s).last = (c.comment s).first + Comment.lineFeeds (c.comment s).text := by
  obtain ⟨n, hn⟩ := Nat.exists_eq_add_of_le h
  simp only [comment, line, text, hn, lineAt_add_drop, Nat.add_sub_cancel_left]

end Span

namespace Comment

theorem ofText_eq (s : List Char) :
    ofText s = firstPerLine ((Span.all s).map (·.comment s)) := by
  rw [ofText, Span.all, ← scan_drop]
  rfl

theorem firstPerLine_sublist (cs : List Comment) : (firstPerLine cs).Sublist cs := by
  induction cs with
  | nil => exact .slnil
  | cons c cs ih => exact (List.filter_sublist.trans ih).cons_cons c

theorem pairwise_firstPerLine (cs : List Comment) :
    (firstPerLine cs).Pairwise (fun c d => c.first ≠ d.first) := by
  induction cs with
  | nil => exact .nil
  | cons c cs ih =>
    refine .cons (fun d hd => ?_) (ih.sublist List.filter_sublist)
    exact Ne.symm (by simpa using (List.mem_filter.1 hd).2)

theorem firstPerLine_map {f : Comment → Comment}
    (hf : ∀ c d, (f c).first = (f d).first ↔ c.first = d.first) (cs : List Comment) :
    firstPerLine (cs.map f) = (firstPerLine cs).map f := by
  induction cs with
  | nil => rfl
  | cons c cs ih =>
    rw [List.map_cons, firstPerLine, firstPerLine, ih, List.map_cons, List.filter_map]
    congr 3
    funext d
    rw [Bool.eq_iff_iff]
    simp [hf]

theorem at?_firstPerLine (cs : List Comment) (k : Nat) : at? (firstPerLine cs) k = at? cs k := by
  induction cs with
  | nil => rfl
  | cons c cs ih =>
    simp only [at?] at ih
    by_cases hk : c.first = k
    · simp [at?, firstPerLine, hk]
    · rw [at?, at?, firstPerLine, List.find?_cons_of_neg (by simpa using hk),
        List.find?_cons_of_neg (by simpa using hk), List.find?_filter, ← ih]
      congr 1
      funext d
      by_cases hd : d.first = k <;> simp [hd, Ne.symm hk]

theorem at?_ofText (s : List Char) (k : Nat) :
    at? (ofText s) k = ((Span.all s).find? (·.line s == k)).map (·.comment s) := by
  rw [ofText_eq, at?_firstPerLine, at?, List.find?_map]
  rfl

/-- The comments that can be looked up stand in order, and none opens on a line before the one that
ends the comment before it. -/
theorem pairwise_ofText (s : List Char) :
    (ofText s).Pairwise (fun c d => c.first < d.first ∧ c.last ≤ d.first) := by
  have hspans : ((Span.all s).map (·.comment s)).Pairwise
      (fun c d => c.first ≤ d.first ∧ c.last ≤ d.first) := by
    rw [List.pairwise_map]
    refine (Span.pairwise_allFrom s 0).imp_of_mem fun hc _ hcd => ⟨lineAt_mono ?_, lineAt_mono hcd⟩
    exact Nat.le_trans (Nat.le_of_lt (Span.start_lt_stop_of_mem hc)) hcd
  have hkept := hspans.sublist (firstPerLine_sublist _)
  rw [ofText_eq]
  refine (hkept.and (pairwise_firstPerLine _)).imp ?_
  intro c d h
  obtain ⟨⟨hfirst, hlast⟩, hne⟩ := h
  exact ⟨Nat.lt_of_le_of_ne hfirst hne, hlast⟩

theorem at?_first_of_mem {s : List Char} {c : Comment} (h : c ∈ ofText s) :
    at? (ofText s) c.first = some c := by
  rw [at?, find?_eq_some_iff_of_ordered ((pairwise_ofText s).imp And.left)]
  exact ⟨h, by simp, fun d _ hlt => by simpa using Nat.ne_of_lt hlt⟩

theorem mem_ofText_iff {s : List Char} {c : Comment} :
    c ∈ ofText s ↔ ∃ x ∈ Span.all s, x.OpensFirst s ∧ x.comment s = c := by
  constructor
  · intro h
    have hat := at?_first_of_mem h
    rw [at?_ofText, Option.map_eq_some_iff] at hat
    obtain ⟨x, hx, hxc⟩ := hat
    obtain ⟨hx, -, hfirst⟩ := Span.find?_line_eq_some_iff.1 hx
    exact ⟨x, hx, hfirst, hxc⟩
  · intro h
    obtain ⟨x, hx, hfirst, rfl⟩ := h
    have hat : at? (ofText s) (x.line s) = some (x.comment s) := by
      rw [at?_ofText, Span.find?_line_eq_some_iff.2 ⟨hx, rfl, hfirst⟩]
      rfl
    exact List.mem_of_find?_eq_some hat

theorem exists_first_eq_iff (s : List Char) (k : Nat) :
    (∃ c ∈ ofText s, c.first = k) ↔ ∃ c ∈ Span.all s, c.line s = k := by
  have h : (at? (ofText s) k).isSome = ((Span.all s).find? (·.line s == k)).isSome := by
    rw [at?_ofText, Option.isSome_map]
  rw [Bool.eq_iff_iff] at h
  simpa [at?] using h

theorem last_le_first_of_lt {s : List Char} {c d : Comment} (hc : c ∈ ofText s)
    (hd : d ∈ ofText s) (hlt : c.first < d.first) : c.last ≤ d.first := by
  obtain ⟨i, hi, rfl⟩ := List.getElem_of_mem hc
  obtain ⟨j, hj, rfl⟩ := List.getElem_of_mem hd
  have hpair := List.pairwise_iff_getElem.1 (pairwise_ofText s)
  rcases Nat.lt_trichotomy i j with hij | rfl | hji
  · exact (hpair i j hi hj hij).2
  · exact absurd hlt (Nat.lt_irrefl _)
  · have := (hpair j i hj hi hji).1
    omega

/-- What can be looked up is the left-to-right scan, the first comment of each line: its lines are
those of its delimiters, its text is what stands between them, and the next one opens on no line
before its last. -/
theorem ofText_first_of_each_line (s : List Char) :
    (∀ k, (∃ c ∈ ofText s, c.first = k) ↔ ∃ c ∈ Span.all s, c.line s = k) ∧
      (∀ k, at? (ofText s) k = ((Span.all s).find? (·.line s == k)).map (·.comment s)) ∧
      (ofText s).Pairwise (fun c d => c.first < d.first) ∧
      (∀ c ∈ ofText s, ∀ d ∈ ofText s, c.first < d.first → c.last ≤ d.first) ∧
      ∀ c ∈ ofText s, c.first ≤ c.last ∧ c.last - c.first = lineFeeds c.text := by
  refine ⟨exists_first_eq_iff s, at?_ofText s, (pairwise_ofText s).imp And.left, ?_, ?_⟩
  · intro c hc d hd hlt
    exact last_le_first_of_lt hc hd hlt
  · intro c hc
    obtain ⟨x, hx, -, rfl⟩ := mem_ofText_iff.1 hc
    have := Span.comment_last_eq (s := s) (Nat.le_of_lt (Span.start_lt_stop_of_mem hx))
    omega

/-- Of the comments that open before a line, the others end before the last one opens. -/
theorem eq_or_ends_of_getLast? {cs : List Comment}
    (h : cs.Pairwise (fun c d => c.first < d.first ∧ c.last ≤ d.first)) {line : Nat} {d : Comment}
    (hd : (cs.filter (·.first < line)).getLast? = some d) :
    d ∈ cs ∧ d.first < line ∧
      ∀ c ∈ cs, c.first < line → c = d ∨ c.first < d.first ∧ c.last ≤ d.first := by
  obtain ⟨before, hcut⟩ := List.getLast?_eq_some_iff.1 hd
  have hmem : ∀ {c}, c ∈ cs ∧ c.first < line ↔ c ∈ before ∨ c = d := by
    intro c
    have : c ∈ cs.filter (·.first < line) ↔ c ∈ before ++ [d] := by rw [hcut]
    simpa using this
  have hpair := hcut ▸ h.sublist List.filter_sublist
  obtain ⟨hdmem, hdlt⟩ := hmem.2 (.inr rfl)
  refine ⟨hdmem, hdlt, fun c hc hlt => ?_⟩
  rcases hmem.1 ⟨hc, hlt⟩ with hc | rfl
  · exact .inr ((List.pairwise_append.1 hpair).2.2 c hc d (by simp))
  · exact .inl rfl

/-- The comment that opened last covers a line if any does: the others end before it opens. -/
theorem covers_iff {cs : List Comment}
    (h : cs.Pairwise (fun c d => c.first < d.first ∧ c.last ≤ d.first)) (line : Nat) :
    covers cs line = true ↔ ∃ c ∈ cs, c.first < line ∧ line ≤ c.last := by
  rw [covers]
  split
  · rename_i d hd
    obtain ⟨hdmem, hdlt, hothers⟩ := eq_or_ends_of_getLast? h hd
    constructor
    · intro hle
      exact ⟨d, hdmem, hdlt, of_decide_eq_true hle⟩
    · intro h
      obtain ⟨c, hc, hlt, hle⟩ := h
      rcases hothers c hc hlt with rfl | ⟨-, hends⟩
      · exact decide_eq_true hle
      · omega
  · rename_i hnone
    rw [List.getLast?_eq_none_iff, List.filter_eq_nil_iff] at hnone
    constructor
    · intro hfalse
      cases hfalse
    · intro h
      obtain ⟨c, hc, hlt, -⟩ := h
      exact absurd (decide_eq_true hlt) (hnone c hc)

/-- Of the comments that open before a line, the one that opens nearest to it. -/
structure NearestBefore (cs : List Comment) (line : Nat) (c : Comment) : Prop where
  mem : c ∈ cs
  opens_before : c.first < line
  none_between : ∀ d ∈ cs, d.first < line → d.first ≤ c.first

theorem exists_nearestBefore_of_covers {cs : List Comment}
    (h : cs.Pairwise (fun c d => c.first < d.first ∧ c.last ≤ d.first)) {line : Nat}
    (hcovers : covers cs line = true) : ∃ c, NearestBefore cs line c ∧ line ≤ c.last := by
  rw [covers] at hcovers
  split at hcovers
  · rename_i d hd
    obtain ⟨hdmem, hdlt, hothers⟩ := eq_or_ends_of_getLast? h hd
    refine ⟨d, ⟨hdmem, hdlt, fun c hc hlt => ?_⟩, of_decide_eq_true hcovers⟩
    rcases hothers c hc hlt with rfl | ⟨hbefore, -⟩
    · exact Nat.le_refl _
    · exact Nat.le_of_lt hbefore
  · cases hcovers

/-- Whether a line lies in a comment that opened before it can be read off the comment that opens
nearest to it, as though all of them had been looked at. -/
theorem covers_ofText_iff (s : List Char) (line : Nat) :
    (covers (ofText s) line = true ↔
      ∃ c, NearestBefore (ofText s) line c ∧ line ≤ c.last) ∧
    (covers (ofText s) line = true ↔ ∃ c ∈ ofText s, c.first < line ∧ line ≤ c.last) := by
  have hany := covers_iff (pairwise_ofText s) line
  refine ⟨⟨exists_nearestBefore_of_covers (pairwise_ofText s), fun h => ?_⟩, hany⟩
  obtain ⟨c, hc, hle⟩ := h
  exact hany.2 ⟨c, hc.mem, hc.opens_before, hle⟩

end Comment

end ScriptOutline
