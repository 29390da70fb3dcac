import ScriptOutline.Proofs.Offer
import ScriptOutline.Proofs.Span

/-!
The lines at which a strict outline fails. A `/*` at the start of a line is taken for the comment
that opens first on its line, or for text of such a comment; otherwise it counts as never closed.
That is wrong only for text of a comment that opens second on its line (`strict_failure_iff`).
-/

set_option autoImplicit false

namespace ScriptOutline
open Text Delimiter

/-- The `/*` at a place begins a line: only whitespace stands before it there. -/
structure Leads (s : List Char) (line p : Nat) : Prop where
  opens : opener.StandsAt s p
  line_eq : lineAt s p = line
  blank : ∀ q < p, lineAt s q = line → ∃ c, s[q]? = some c ∧ isWhitespace c = true

theorem opener_prefix_trimStart_iff (raw : List Char) :
    opener.text <+: trimStart raw ↔
      ∃ i ≤ raw.length, opener.StandsAt raw i ∧ ∀ c ∈ raw.take i, isWhitespace c = true := by
  constructor
  · intro ho
    obtain ⟨blank, hblank, hraw⟩ := exists_eq_append_trimStart raw
    generalize trimStart raw = rest at ho hraw
    subst hraw
    refine ⟨blank.length, by simp, ?_, ?_⟩
    · rw [StandsAt, List.drop_left]
      exact ho
    · rw [List.take_left]
      exact hblank
  · intro h
    obtain ⟨i, -, ho, hw⟩ := h
    obtain ⟨rest, hrest⟩ := (standsAt_iff_exists rfl).1 ho
    have htrim : trimStart raw = raw.drop i := by
      calc trimStart raw = trimStart (raw.take i ++ raw.drop i) := by rw [List.take_append_drop]
        _ = trimStart (raw.drop i) := List.dropWhile_append_of_pos hw
        _ = raw.drop i := by rw [hrest]; rfl
    rw [htrim]
    exact ho

theorem LineBegins.leads_iff {s raw : List Char} {line k i : Nat} (h : LineBegins s raw line k)
    (hi : i ≤ raw.length) :
    Leads s line (k + i) ↔ opener.StandsAt raw i ∧ ∀ c ∈ raw.take i, isWhitespace c = true := by
  constructor
  · intro hp
    refine ⟨(h.standsAt_iff hi).1 hp.opens, fun c hc => ?_⟩
    obtain ⟨j, hj, rfl⟩ := List.getElem_of_mem hc
    rw [List.length_take] at hj
    obtain ⟨c, hc, hw⟩ := hp.blank (k + j) (by omega) (h.lineAt_add (by omega))
    rw [h.getElem?_eq (by omega)] at hc
    rw [List.getElem_take]
    obtain ⟨_, rfl⟩ := List.getElem?_eq_some_iff.1 hc
    exact hw
  · intro hp
    obtain ⟨ho, hw⟩ := hp
    have hopens := (h.standsAt_iff hi).2 ho
    refine ⟨hopens, h.lineAt_add hi, fun q hq hline => ?_⟩
    have := hopens.add_two_le
    obtain ⟨j, hj, rfl⟩ := h.exists_eq_add hline (by omega)
    have hjr : j < raw.length := by omega
    refine ⟨raw[j], ?_, hw _ ?_⟩
    · rw [h.getElem?_eq hjr, List.getElem?_eq_getElem]
    · exact List.mem_take_iff_getElem.2 ⟨j, by omega, rfl⟩

theorem opens_iff_exists_leads {s : List Char} {l : Line} (hl : l ∈ numbered (lines s)) :
    opener.text <+: l.stripped ↔ ∃ p, Leads s l.number p := by
  obtain ⟨n, hraw, hnumber⟩ := mem_numbered_iff.1 hl
  obtain ⟨k, hk⟩ := exists_lineBegins hraw
  rw [hnumber, Line.stripped, opener_prefix_trimStart_iff]
  constructor
  · intro h
    obtain ⟨i, hi, h⟩ := h
    exact ⟨k + i, (hk.leads_iff hi).2 h⟩
  · intro h
    obtain ⟨p, hp⟩ := h
    have := hp.opens.add_two_le
    obtain ⟨i, hi, rfl⟩ := hk.exists_eq_add hp.line_eq (by omega)
    exact ⟨i, hi, (hk.leads_iff hi).1 hp⟩

/-- A line that a `/*` begins lies in a comment if that `/*` does. -/
theorem Leads.holds_iff {s : List Char} {line p : Nat} (hp : Leads s line p) {c : Span}
    (hc : c ∈ Span.all s) (hne : c.line s ≠ line) :
    c.Holds p ↔ c.line s < line ∧ line ≤ lineAt s c.stop := by
  constructor
  · intro h
    have hstart := lineAt_mono (s := s) h.1
    have hstop := lineAt_mono (s := s) (Nat.le_of_lt h.2)
    rw [hp.line_eq] at hstart hstop
    exact ⟨Nat.lt_of_le_of_ne hstart hne, hstop⟩
  · intro h
    obtain ⟨hlt, hle⟩ := h
    constructor
    · by_cases hstart : c.start ≤ p
      · exact hstart
      · have := lineAt_mono (s := s) (Nat.le_of_not_le hstart)
        rw [hp.line_eq] at this
        exact absurd hlt (Nat.not_lt_of_le this)
    · by_cases hstop : p < c.stop
      · exact hstop
      -- The closing mark would stand before `p` on its line, but it is not whitespace.
      · obtain ⟨-, j, -, hj, hclose⟩ := Span.delimited_of_mem hc
        obtain ⟨rest, hrest⟩ := (standsAt_iff_exists rfl).1 hclose
        have hslash : s.drop (j + 1) = '/' :: rest := drop_succ_of_drop hrest
        have hsucc : lineAt s (j + 2) = lineAt s (j + 1) :=
          (lineAt_succ hslash).trans (if_neg (by decide))
        have hmono := lineAt_mono (s := s) (show j + 2 ≤ p by omega)
        rw [hp.line_eq] at hmono
        rw [hj] at hle
        obtain ⟨d, hd, hw⟩ := hp.blank (j + 1) (by omega) (by omega)
        have hd' := List.head?_drop (l := s) (i := j + 1)
        rw [hslash, hd] at hd'
        cases hd'
        cases hw

/-- A `/*` that begins a line and is taken for no comment: none opens on its line, and none that
opens first on its own line holds it. -/
structure Unresolved (s : List Char) (line p : Nat) : Prop where
  leads : Leads s line p
  none_opens : ∀ c ∈ Span.all s, c.line s ≠ line
  none_holds : ∀ c ∈ Span.all s, c.OpensFirst s → ¬ c.Holds p

theorem covers_iff_exists_holds {s : List Char} {line p : Nat} (hp : Leads s line p)
    (hnone : ∀ c ∈ Span.all s, c.line s ≠ line) :
    Comment.covers (Comment.ofText s) line = true ↔
      ∃ c ∈ Span.all s, c.OpensFirst s ∧ c.Holds p := by
  rw [Comment.covers_iff (Comment.pairwise_ofText s)]
  constructor
  · intro h
    obtain ⟨c, hc, hlt, hle⟩ := h
    obtain ⟨x, hx, hfirst, rfl⟩ := Comment.mem_ofText_iff.1 hc
    exact ⟨x, hx, hfirst, (hp.holds_iff hx (hnone x hx)).2 ⟨hlt, hle⟩⟩
  · intro h
    obtain ⟨x, hx, hfirst, hholds⟩ := h
    exact ⟨x.comment s, Comment.mem_ofText_iff.2 ⟨x, hx, hfirst, rfl⟩,
      (hp.holds_iff hx (hnone x hx)).1 hholds⟩

theorem at?_ofText_eq_none_iff (s : List Char) (line : Nat) :
    Comment.at? (Comment.ofText s) line = none ↔ ∀ c ∈ Span.all s, c.line s ≠ line := by
  simp [Comment.at?_ofText]

theorem entry_eq_unclosed_iff {text : List Char} {withText : Bool} {l : Line}
    (hl : l ∈ (Source.ofText text).lines) :
    (Source.ofText text).entry withText l = .unclosed ↔
      ∃ p, Unresolved (withoutReturns text) l.number p := by
  have hopens := opens_iff_exists_leads hl
  rw [← Line.classify_eq_commentOpen_iff] at hopens
  constructor
  · intro h
    rw [Source.entry] at h
    split at h
    · cases h
    · cases h
    · rename_i hclass
      obtain ⟨p, hp⟩ := hopens.1 hclass
      split at h
      · cases h
      · rename_i hat
        have hnone := (at?_ofText_eq_none_iff _ _).1 hat
        have hcovers := covers_iff_exists_holds hp hnone
        split at h
        · cases h
        · rename_i hno
          refine ⟨p, hp, hnone, fun c hc hfirst hholds => hno ?_⟩
          exact hcovers.2 ⟨c, hc, hfirst, hholds⟩
  · intro h
    obtain ⟨p, hp, hnone, hholds⟩ := h
    have hcovers : ¬ Comment.covers (Comment.ofText (withoutReturns text)) l.number = true := by
      rw [covers_iff_exists_holds hp hnone]
      intro hc
      obtain ⟨c, hc, hfirst, hcp⟩ := hc
      exact hholds c hc hfirst hcp
    have hat := (at?_ofText_eq_none_iff _ _).2 hnone
    simp only [Source.entry, hopens.2 ⟨p, hp⟩, Source.ofText, hat]
    exact if_neg hcovers

/-- No comment holds a `/*`, and no later `*/` could close it. -/
def NeverClosed (s : List Char) (p : Nat) : Prop :=
  (∀ c ∈ Span.all s, ¬ c.Holds p) ∧ ∀ q, p + 2 ≤ q → ¬ closer.StandsAt s q

theorem Unresolved.neverClosed_iff {s : List Char} {line p : Nat} (h : Unresolved s line p) :
    NeverClosed s p ↔ ∀ c ∈ Span.all s, c.Holds p → c.OpensFirst s := by
  constructor
  · intro hnever c hc hholds
    exact absurd hholds (hnever.1 c hc)
  · intro hfirst
    have hnone : ∀ c ∈ Span.all s, ¬ c.Holds p := fun c hc hholds =>
      h.none_holds c hc (hfirst c hc hholds) hholds
    refine ⟨hnone, fun q hq hclose => ?_⟩
    obtain ⟨c, hc, hholds⟩ :=
      Span.exists_holds_of_closed (Nat.zero_le p) h.leads.opens hq hclose
    exact hnone c hc hholds

theorem Source.exists_line_number_eq (text : List Char) (p : Nat) :
    ∃ l ∈ (Source.ofText text).lines, l.number = lineAt (withoutReturns text) p := by
  have hle := lineAt_le_length_lines (withoutReturns text) p
  have hpos : 1 ≤ lineAt (withoutReturns text) p := Nat.le_add_right 1 _
  generalize lineAt (withoutReturns text) p = line at hle hpos
  have hraw : line - 1 < (Text.lines (withoutReturns text)).length := by omega
  exact ⟨⟨line, (Text.lines (withoutReturns text))[line - 1]⟩,
    mem_numbered_iff.2 ⟨line - 1, List.getElem?_eq_getElem hraw, by simp; omega⟩, rfl⟩

theorem Unresolved.mem_lines {text : List Char} {line p : Nat}
    (h : Unresolved (withoutReturns text) line p) :
    ∃ l ∈ (Source.ofText text).lines, l.number = line :=
  h.leads.line_eq ▸ Source.exists_line_number_eq text p

/-- A strict outline fails at the first line that some unresolved `/*` begins, whatever the sieve.
Such a `/*` is in truth never closed unless a comment holds it that does not open first on its
line. -/
theorem strict_failure_iff {σ : Type} (o : Options) (f : Sieve σ) (text : List Char) (st : σ)
    (n : Nat) :
    (outlineWith o f text st).1 = .error (.unclosedComment n) ↔
      o.strict = true ∧ (∀ m < n, ∀ p, ¬ Unresolved (withoutReturns text) m p) ∧
        ∃ p, Unresolved (withoutReturns text) n p ∧
          (NeverClosed (withoutReturns text) p ↔
            ∀ c ∈ Span.all (withoutReturns text), c.Holds p →
              c.OpensFirst (withoutReturns text)) := by
  rw [outlineWith_fst_eq_error_iff, Source.candidates_failure_eq_some_iff]
  simp only [Source.fails, Bool.and_eq_true, beq_iff_eq]
  constructor
  · intro h
    obtain ⟨l, hl, rfl, ⟨hstrict, hentry⟩, hmin⟩ := h
    obtain ⟨p, hp⟩ := (entry_eq_unclosed_iff hl).1 hentry
    refine ⟨hstrict, fun m hm q hq => ?_, p, hp, hp.neverClosed_iff⟩
    obtain ⟨k, hk, rfl⟩ := hq.mem_lines
    have := hmin k hk hm
    simp [hstrict, (entry_eq_unclosed_iff hk).2 ⟨q, hq⟩] at this
  · intro h
    obtain ⟨hstrict, hmin, p, hp, -⟩ := h
    obtain ⟨l, hl, rfl⟩ := hp.mem_lines
    refine ⟨l, hl, rfl, ⟨hstrict, (entry_eq_unclosed_iff hl).2 ⟨p, hp⟩⟩, fun m hm hlt => ?_⟩
    have hne : (Source.ofText text).entry o.withText m ≠ .unclosed := by
      intro he
      obtain ⟨q, hq⟩ := (entry_eq_unclosed_iff hm).1 he
      exact hmin m.number hlt q hq
    simp [hne]

/-- The second comment of the first line holds the second line and is closed on the third. -/
theorem strict_failure_in_closed_comment :
    let s := withoutReturns "/* a */ /* b\n/* c\n*/".toList
    outline ⟨false, true⟩ "/* a */ /* b\n/* c\n*/".toList = .error (.unclosedComment 2) ∧
      Leads s 2 13 ∧ Span.all s = [⟨0, 7⟩, ⟨8, 20⟩] ∧ Span.Holds ⟨8, 20⟩ 13 ∧
      closer.StandsAt s 18 ∧ ¬ NeverClosed s 13 := by
  intro s
  have hall : Span.all s = [⟨0, 7⟩, ⟨8, 20⟩] := by decide +kernel
  have hline : ∀ q < 13, lineAt s q ≠ 2 := by decide +kernel
  have hholds : Span.Holds ⟨8, 20⟩ 13 := by decide
  have hfound : (Source.ofText "/* a */ /* b\n/* c\n*/".toList).candidates ⟨false, true⟩ =
      ⟨[.comment 1 1 none], some 2⟩ := by decide +kernel
  refine ⟨?_, ⟨by decide +kernel, by decide +kernel, ?_⟩, hall, hholds, by decide +kernel, ?_⟩
  · rw [outline_eq, hfound]
    rfl
  · intro q hq he
    exact absurd he (hline q hq)
  · intro hnever
    exact hnever.1 ⟨8, 20⟩ (by simp [hall]) hholds

end ScriptOutline
