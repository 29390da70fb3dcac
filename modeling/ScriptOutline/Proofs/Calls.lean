import ScriptOutline.Proofs.Offer

/-!
What a sieve is asked. Every candidate is put to it once and in order, whatever it answers, and the
outline is the list of its answers (`outline_asks_each_candidate_once`).
-/

set_option autoImplicit false

namespace ScriptOutline
open Text

/-- One question to a sieve, and its answer. -/
structure Call where
  candidate : Record
  kept : Nat
  lines : List Line
  answer : Option Record
  deriving DecidableEq, Repr

namespace Sieve
variable {σ : Type}

/-- Asks the same sieve, and notes what is asked and answered. -/
def watched (f : Sieve σ) : Sieve (σ × List Call) := fun r kept lines (s, calls) =>
  let (answer, s) := f r kept lines s
  (answer, s, calls ++ [⟨r, kept, lines, answer⟩])

def calls (f : Sieve σ) (lines : List Line) (kept : Nat) : List Record → σ → List Call
  | [], _ => []
  | r :: rs, s =>
    match f r kept lines s with
    | (none, s) => ⟨r, kept, lines, none⟩ :: f.calls lines kept rs s
    | (some r', s) => ⟨r, kept, lines, some r'⟩ :: f.calls lines (kept + 1) rs s

variable (f : Sieve σ) (lines : List Line)

/-- A sieve does not notice that it is watched. -/
theorem watched_run (kept : Nat) (rs : List Record) (s : σ) (before : List Call) :
    f.watched.run lines kept rs (s, before) =
      ((f.run lines kept rs s).1, (f.run lines kept rs s).2,
        before ++ f.calls lines kept rs s) := by
  induction rs generalizing kept s before with
  | nil => simp [run, calls]
  | cons r rs ih =>
    cases h : f r kept lines s with
    | mk answer s' => cases answer <;> simp [run, calls, watched, h, ih]

/-- What is kept counts one towards the index of the next call. -/
theorem calls_cons (kept : Nat) (r : Record) (rs : List Record) (s : σ) :
    f.calls lines kept (r :: rs) s =
      ⟨r, kept, lines, (f r kept lines s).1⟩ ::
        f.calls lines (kept + (f r kept lines s).1.toList.length) rs (f r kept lines s).2 := by
  cases h : f r kept lines s with
  | mk answer s' => cases answer <;> simp [calls, h]

theorem calls_candidate (kept : Nat) (rs : List Record) (s : σ) :
    (f.calls lines kept rs s).map (·.candidate) = rs := by
  induction rs generalizing kept s with
  | nil => rfl
  | cons r rs ih => rw [calls_cons, List.map_cons, ih]

theorem run_eq_answers (kept : Nat) (rs : List Record) (s : σ) :
    (f.run lines kept rs s).1 = (f.calls lines kept rs s).filterMap (·.answer) := by
  induction rs generalizing kept s with
  | nil => rfl
  | cons r rs ih =>
    cases h : f r kept lines s with
    | mk answer s' => cases answer <;> simp [run, calls, h, ih]

theorem lines_of_mem_calls {kept : Nat} {rs : List Record} {s : σ} {c : Call}
    (hc : c ∈ f.calls lines kept rs s) : c.lines = lines := by
  induction rs generalizing kept s with
  | nil => simp [calls] at hc
  | cons r rs ih =>
    rw [calls_cons] at hc
    rcases List.mem_cons.1 hc with rfl | hc
    · rfl
    · exact ih hc

/-- Only what was kept before a call counts towards its index. -/
theorem kept_of_calls (kept : Nat) (rs : List Record) (s : σ) (i : Nat)
    (hi : i < (f.calls lines kept rs s).length) :
    (f.calls lines kept rs s)[i].kept =
      kept + (((f.calls lines kept rs s).take i).filterMap (·.answer)).length := by
  induction rs generalizing kept s i with
  | nil => simp [calls] at hi
  | cons r rs ih =>
    simp only [calls_cons]
    cases i with
    | zero => simp
    | succ i =>
      rw [List.getElem_cons_succ, ih]
      cases (f r kept lines s).1 <;> simp
      omega

theorem calls_append (kept : Nat) (rs rs' : List Record) (s : σ) :
    ∃ kept' s', f.calls lines kept (rs ++ rs') s =
      f.calls lines kept rs s ++ f.calls lines kept' rs' s' := by
  induction rs generalizing kept s with
  | nil => exact ⟨kept, s, rfl⟩
  | cons r rs ih =>
    obtain ⟨k, t, ht⟩ := ih (kept + (f r kept lines s).1.toList.length) (f r kept lines s).2
    refine ⟨k, t, ?_⟩
    rw [List.cons_append, calls_cons, calls_cons, ht, List.cons_append]

end Sieve

/-- Reads lines one by one, and asks the sieve about a candidate as soon as it is found. -/
def Source.sift {σ : Type} (src : Source) (o : Options) (f : Sieve σ) (kept : Nat) :
    List Line → σ → Except SourceError (List Record) × σ
  | [], s => (.ok [], s)
  | l :: ls, s =>
    match src.entry o.withText l with
    | .nothing => src.sift o f kept ls s
    | .unclosed =>
      if o.strict then (.error (.unclosedComment l.number), s) else src.sift o f kept ls s
    | .record r =>
      match f r kept src.lines s with
      | (none, s) => src.sift o f kept ls s
      | (some r', s) =>
        let (rest, s) := src.sift o f (kept + 1) ls s
        (rest.map (r' :: ·), s)

/-- A sieve that is asked as the lines are read decides no differently. -/
theorem Source.sift_eq {σ : Type} (src : Source) (o : Options) (f : Sieve σ) (kept : Nat)
    (ls : List Line) (s : σ) :
    src.sift o f kept ls s =
      (Candidates.outcome
          ⟨(f.run src.lines kept (src.offer o ls).records s).1, (src.offer o ls).failure⟩,
        (f.run src.lines kept (src.offer o ls).records s).2) := by
  induction ls generalizing kept s with
  | nil => rfl
  | cons l ls ih =>
    cases he : src.entry o.withText l with
    | nothing => simp [sift, offer, he, ih]
    | unclosed =>
      cases hs : o.strict <;> simp [sift, offer, he, hs, ih, Candidates.outcome, Sieve.run]
    | record r =>
      cases h : f r kept src.lines s with
      | mk answer s' =>
        cases answer with
        | none => simp [sift, offer, he, h, ih, Candidates.cons, Sieve.run]
        | some r' =>
          cases hf : (src.offer o ls).failure <;>
            simp [sift, offer, he, h, ih, hf, Candidates.cons, Sieve.run, Candidates.outcome,
              Except.map]

section Outline
variable {σ : Type} (o : Options) (f : Sieve σ) (text : List Char) (s : σ)

theorem outlineWith_eq :
    outlineWith o f text s =
      (Candidates.outcome
          ⟨(f.run (Source.ofText text).lines 0 ((Source.ofText text).candidates o).records s).1,
            ((Source.ofText text).candidates o).failure⟩,
        (f.run (Source.ofText text).lines 0 ((Source.ofText text).candidates o).records s).2) := by
  simp only [outlineWith, Candidates.outcome]
  cases ((Source.ofText text).candidates o).failure <;> rfl

/-- The calls that an outline makes to its sieve. -/
def callsMade : List Call := (outlineWith o f.watched text (s, [])).2.2

theorem callsMade_eq :
    callsMade o f text s =
      f.calls (Source.ofText text).lines 0 ((Source.ofText text).candidates o).records s := by
  rw [callsMade, outlineWith_eq, Sieve.watched_run]
  rfl

theorem outlineWith_watched :
    outlineWith o f.watched text (s, []) =
      ((outlineWith o f text s).1, (outlineWith o f text s).2, callsMade o f text s) := by
  rw [callsMade_eq, outlineWith_eq, outlineWith_eq, Sieve.watched_run]
  rfl

theorem callsMade_candidate :
    (callsMade o f text s).map (·.candidate) = ((Source.ofText text).candidates o).records := by
  rw [callsMade_eq, Sieve.calls_candidate]

theorem raw_lines (text : List Char) :
    (Source.ofText text).lines.map (·.raw) = lines (withoutReturns text) := by
  simp [Source.ofText, numbered, Function.comp_def]

theorem lines_of_mem_callsMade {c : Call} (hc : c ∈ callsMade o f text s) :
    c.lines.map (·.raw) = lines (withoutReturns text) := by
  rw [callsMade_eq] at hc
  rw [f.lines_of_mem_calls _ hc, raw_lines]

theorem kept_of_callsMade {i : Nat} (hi : i < (callsMade o f text s).length) :
    (callsMade o f text s)[i].kept =
      (((callsMade o f text s).take i).filterMap (·.answer)).length := by
  simp only [callsMade_eq] at hi ⊢
  simpa using f.kept_of_calls _ 0 _ s i hi

theorem outlineWith_fst_eq_map :
    (outlineWith o f text s).1 =
      (outline o text).map fun _ => (callsMade o f text s).filterMap (·.answer) := by
  rw [outlineWith_eq, outline_eq, callsMade_eq, Sieve.run_eq_answers, Candidates.outcome,
    Candidates.outcome]
  cases ((Source.ofText text).candidates o).failure <;> rfl

/-- A sieve is asked once about each record that the outline of the text has without it, up to the
line at which that fails; the outline through the sieve is what it answers, or the same failure. -/
theorem outline_asks_each_candidate_once :
    let calls := callsMade o f text s
    outlineWith o f.watched text (s, []) =
        ((outlineWith o f text s).1, (outlineWith o f text s).2, calls) ∧
      (outline o text = .ok (calls.map (·.candidate)) ∨
        ∃ n rs, outline o text = .error (.unclosedComment n) ∧
          outline { o with strict := false } text = .ok rs ∧
          calls.map (·.candidate) = rs.filter (·.line < n)) ∧
      (∀ i : Fin calls.length, calls[i].lines.map (·.raw) = lines (withoutReturns text) ∧
        calls[i].kept = ((calls.take i).filterMap (·.answer)).length) ∧
      (outlineWith o f text s).1 =
        (outline o text).map (fun _ => calls.filterMap (·.answer)) ∧
      outlineWith o f text s =
        (Source.ofText text).sift o f 0 (Source.ofText text).lines s := by
  intro calls
  refine ⟨outlineWith_watched o f text s, ?_, ?_, outlineWith_fst_eq_map o f text s, ?_⟩
  · have hcalls := callsMade_candidate o f text s
    cases hf : ((Source.ofText text).candidates o).failure with
    | none =>
      left
      rw [outline_eq, Candidates.outcome, hf, hcalls]
    | some n =>
      right
      obtain ⟨rest, hrest, hlt, hgt⟩ := Source.candidates_lenient_of_failure o hf
      refine ⟨n, _, ?_, outline_eq_ok_of_lenient rfl text, ?_⟩
      · rw [outline_eq, Candidates.outcome, hf]
      · rw [hcalls, hrest, filter_lt_append hlt hgt]
  · intro i
    exact ⟨lines_of_mem_callsMade o f text s (List.getElem_mem i.isLt),
      kept_of_callsMade o f text s i.isLt⟩
  · rw [Source.sift_eq, outlineWith_eq]
    rfl

end Outline

end ScriptOutline
