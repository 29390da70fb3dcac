import ScriptOutline.Proofs.Calls
import ScriptOutline.Proofs.Unclosed

/-!
Strict and lenient reading. They ask the same until the strict one fails, and it fails no later than
at a `/*` that begins a line and lies in no comment (`strict_outline_follows_lenient`).
-/

set_option autoImplicit false

namespace ScriptOutline
open Text Delimiter

/-- What stands before a leading `/*` on its line is whitespace, so no comment opens there. -/
theorem Leads.start_le_of_line_eq {s : List Char} {line p : Nat} (hp : Leads s line p) {c : Span}
    (hc : c ∈ Span.all s) (hline : c.line s = line) : p ≤ c.start := by
  by_cases hlt : c.start < p
  · obtain ⟨hopens, -⟩ := Span.delimited_of_mem hc
    obtain ⟨rest, hrest⟩ := (standsAt_iff_exists rfl).1 hopens
    obtain ⟨d, hd, hw⟩ := hp.blank c.start hlt hline
    have hslash : s[c.start]? = some '/' := by
      rw [← List.head?_drop, hrest]
      rfl
    rw [hslash] at hd
    cases hd
    cases hw
  · omega

theorem Leads.unresolved {s : List Char} {line p : Nat} (hp : Leads s line p)
    (hnone : ∀ c ∈ Span.all s, ¬ c.Holds p) : Unresolved s line p := by
  refine ⟨hp, fun c hc hline => ?_, fun c hc _ => hnone c hc⟩
  have hle := hp.start_le_of_line_eq hc hline
  obtain ⟨-, j, hj, -, hclose⟩ := Span.delimited_of_mem hc
  obtain ⟨d, hd, hholds⟩ :=
    Span.exists_holds_of_closed (Nat.zero_le p) hp.opens (show p + 2 ≤ j by omega) hclose
  exact hnone d hd hholds

theorem Source.exists_failure_le_of_unresolved {o : Options} (ho : o.strict = true)
    {text : List Char} {n p : Nat} (h : Unresolved (withoutReturns text) n p) :
    ∃ m ≤ n, ((ofText text).candidates o).failure = some m := by
  obtain ⟨l, hl, rfl⟩ := h.mem_lines
  have hfails : (ofText text).fails o l = true := by
    simp [fails, ho, (entry_eq_unclosed_iff hl).2 ⟨p, h⟩]
  have hsome : ((ofText text).lines.find? ((ofText text).fails o)).isSome :=
    List.find?_isSome.2 ⟨l, hl, hfails⟩
  obtain ⟨m, hm⟩ := Option.isSome_iff_exists.1 hsome
  obtain ⟨-, -, hmin⟩ := (find?_eq_some_iff_of_ordered (pairwise_numbered _)).1 hm
  refine ⟨m.number, Nat.le_of_not_lt fun hlt => ?_, ?_⟩
  · simpa [hfails] using hmin l hl hlt
  · rw [candidates, offer_failure, hm]
    rfl

section Calls
variable {σ : Type} {o : Options} (f : Sieve σ) {text : List Char} (s : σ)

theorem outlineWith_lenient_of_failure_none
    (h : ((Source.ofText text).candidates o).failure = none) :
    outlineWith { o with strict := false } f text s = outlineWith o f text s := by
  have hsame : (Source.ofText text).candidates { o with strict := false } =
      (Source.ofText text).candidates o := Source.offer_lenient_of_failure_none _ o h
  rw [outlineWith_eq, outlineWith_eq, hsame]

theorem callsMade_lenient_of_failure {n : Nat}
    (h : ((Source.ofText text).candidates o).failure = some n) :
    ∃ more, callsMade { o with strict := false } f text s = callsMade o f text s ++ more ∧
      (∀ c ∈ callsMade o f text s, c.candidate.line < n) ∧
      ∀ c ∈ more, n < c.candidate.line := by
  obtain ⟨rest, hrest, hlt, hgt⟩ := Source.candidates_lenient_of_failure o h
  obtain ⟨kept, st, hcalls⟩ :=
    f.calls_append (Source.ofText text).lines 0 ((Source.ofText text).candidates o).records rest s
  refine ⟨f.calls (Source.ofText text).lines kept rest st, ?_, fun c hc => ?_, fun c hc => ?_⟩
  · rw [callsMade_eq, callsMade_eq, hrest, hcalls]
  · apply hlt
    rw [← callsMade_candidate o f text s]
    exact List.mem_map_of_mem hc
  · apply hgt
    rw [← f.calls_candidate (Source.ofText text).lines kept rest st]
    exact List.mem_map_of_mem hc

end Calls

/-- Strict reading does as lenient reading does, or it fails at a line that a `/*` begins, after
what lenient reading asks before that line. Lenient reading never fails; strict reading does at a
`/*` that begins a line and lies in no comment, if not before. -/
theorem strict_outline_follows_lenient {σ : Type} (withText : Bool) (f : Sieve σ)
    (text : List Char) (s : σ) :
    (∃ rs, (outlineWith ⟨withText, false⟩ f text s).1 = .ok rs) ∧
      (outlineWith ⟨withText, true⟩ f text s = outlineWith ⟨withText, false⟩ f text s ∧
          callsMade ⟨withText, true⟩ f text s = callsMade ⟨withText, false⟩ f text s ∨
        ∃ n, (outlineWith ⟨withText, true⟩ f text s).1 = .error (.unclosedComment n) ∧
          (∃ l ∈ (Source.ofText text).lines, l.number = n ∧ opener.text <+: l.stripped) ∧
          (∀ c ∈ callsMade ⟨withText, false⟩ f text s, c.candidate.line ≠ n) ∧
          callsMade ⟨withText, true⟩ f text s =
            (callsMade ⟨withText, false⟩ f text s).filter (·.candidate.line < n)) ∧
      ∀ n p, Leads (withoutReturns text) n p →
        (∀ c ∈ Span.all (withoutReturns text), ¬ c.Holds p) →
        ∃ m ≤ n, (outlineWith ⟨withText, true⟩ f text s).1 = .error (.unclosedComment m) := by
  refine ⟨?_, ?_, ?_⟩
  · rw [outlineWith_fst_eq_map, outline_eq_ok_of_lenient rfl]
    exact ⟨_, rfl⟩
  · cases hf : ((Source.ofText text).candidates ⟨withText, true⟩).failure with
    | none =>
      left
      have hrun := outlineWith_lenient_of_failure_none f s hf
      have hwatched := outlineWith_lenient_of_failure_none f.watched (s, []) hf
      exact ⟨hrun.symm, congrArg (·.2.2) hwatched.symm⟩
    | some n =>
      right
      obtain ⟨more, hmore, hlt, hgt⟩ := callsMade_lenient_of_failure f s hf
      obtain ⟨l, hl, hnumber, hfails, -⟩ := (Source.candidates_failure_eq_some_iff _ _ _).1 hf
      have hentry : (Source.ofText text).entry withText l = .unclosed := by
        simpa [Source.fails] using hfails
      obtain ⟨p, hp⟩ := (entry_eq_unclosed_iff hl).1 hentry
      refine ⟨n, (outlineWith_fst_eq_error_iff _ f text s n).2 hf,
        ⟨l, hl, hnumber, (opens_iff_exists_leads hl).2 ⟨p, hp.leads⟩⟩, fun c hc => ?_, ?_⟩
      · rw [hmore] at hc
        rcases List.mem_append.1 hc with hc | hc
        · exact Nat.ne_of_lt (hlt c hc)
        · exact Nat.ne_of_gt (hgt c hc)
      · rw [hmore, filter_lt_append hlt hgt]
  · intro n p hp hnone
    obtain ⟨m, hm, hf⟩ := Source.exists_failure_le_of_unresolved (o := ⟨withText, true⟩) rfl
      (hp.unresolved hnone)
    exact ⟨m, hm, (outlineWith_fst_eq_error_iff _ f text s m).2 hf⟩

/-- Two lines open a comment that is never closed, and reading fails at the first of them. The sieve
drops the first candidate and counts the others. -/
theorem strict_outline_fails_before_second :
    let text := "var a = 1;\n /* b\n  /* c\nvar d = 2;".toList
    let f : Sieve Nat := fun r _ _ asked => (if asked = 0 then none else some r, asked + 1)
    Leads (withoutReturns text) 3 19 ∧ (∀ c ∈ Span.all (withoutReturns text), ¬ c.Holds 19) ∧
      ∃ m ≤ 3, (outlineWith ⟨true, true⟩ f text 0).1 = .error (.unclosedComment m) := by
  intro text f
  have hall : Span.all (withoutReturns text) = [] := by decide +kernel
  have hblank : ∀ q < 19, lineAt (withoutReturns text) q = 3 → q = 17 ∨ q = 18 := by
    decide +kernel
  have hleads : Leads (withoutReturns text) 3 19 := by
    refine ⟨by decide +kernel, by decide +kernel, fun q hq hline => ⟨' ', ?_, rfl⟩⟩
    rcases hblank q hq hline with rfl | rfl <;> decide +kernel
  have hnone : ∀ c ∈ Span.all (withoutReturns text), ¬ c.Holds 19 := by simp [hall]
  exact ⟨hleads, hnone, (strict_outline_follows_lenient true f text 0).2.2 3 19 hleads hnone⟩

end ScriptOutline
