import Mathlib.Data.List.TakeWhile
import ScriptOutline.Outline
import ScriptOutline.Proofs.Place

/-!
What the lines of a source offer: the records of the lines before the first that fails
(`offer_records`, `offer_failure`). A line fails only where a comment opens, and what a line of code
offers depends on its text alone.
-/

set_option autoImplicit false

namespace ScriptOutline
open Text Delimiter

namespace Line

theorem classify_congr {l m : Line} (h : l.raw = m.raw) : l.classify = m.classify := by
  have hfind : ∀ s : Shape, s.find? l = s.find? m := by
    intro s
    cases s <;> simp only [Shape.find?, stripped, h]
  simp only [classify, hfind]

theorem commentOpen?_eq_some_iff {s : List Char} {x : Finding} :
    commentOpen? s = some x ↔ opener.text <+: s ∧ x = .commentOpen := by
  constructor
  · intro h
    fun_cases commentOpen? s with
    | case1 rest => exact ⟨⟨rest, rfl⟩, by simpa [commentOpen?, eq_comm] using h⟩
    | case2 => simp_all [commentOpen?]
  · intro h
    obtain ⟨⟨rest, rfl⟩, rfl⟩ := h
    rfl

theorem find?_ne_commentOpen {l : Line} {s : Shape} (hs : s ≠ .commentOpen) :
    s.find? l ≠ some .commentOpen := by
  cases s with
  | commentOpen => exact absurd rfl hs
  | functionStatement | functionExpression | namedExport | anonymousExport | prototypeMethod
  | prototypeProperty | method | property | declaration =>
    simp [Shape.find?, functionStatement?, functionExpression?, namedExport?, anonymousExport?,
      prototypeMethod?, prototypeProperty?, method?, property?, declaration?,
      Option.bind_eq_some_iff]

theorem classify_eq_commentOpen_iff (l : Line) :
    l.classify = some .commentOpen ↔ opener.text <+: l.stripped := by
  rw [classify, Shape.all, List.findSome?_cons]
  constructor
  · intro h
    split at h
    · rename_i x hx
      exact (commentOpen?_eq_some_iff.1 hx).1
    · obtain ⟨s, hs, hfind⟩ := List.exists_of_findSome?_eq_some h
      have hne : s ≠ .commentOpen := by
        intro he
        simp [he] at hs
      exact absurd hfind (find?_ne_commentOpen hne)
  · intro h
    have : Shape.commentOpen.find? l = some .commentOpen := commentOpen?_eq_some_iff.2 ⟨h, rfl⟩
    rw [this]

end Line

theorem withoutReturns_eq_self {s : List Char} (h : '\r' ∉ s) : withoutReturns s = s := by
  rw [withoutReturns, List.filter_eq_self]
  intro c hc
  rw [bne_iff_ne]
  intro he
  exact h (he ▸ hc)

theorem mem_numbered_iff {ls : List (List Char)} {l : Line} :
    l ∈ numbered ls ↔ ∃ i, ls[i]? = some l.raw ∧ l.number = i + 1 := by
  obtain ⟨n, raw⟩ := l
  simp only [numbered, List.mem_map, Prod.exists, Line.mk.injEq,
    List.mem_zipIdx_iff_le_and_getElem?_sub]
  constructor
  · intro h
    obtain ⟨raw, n, ⟨hn, hraw⟩, rfl, rfl⟩ := h
    exact ⟨n - 1, hraw, by omega⟩
  · intro h
    obtain ⟨i, hi, rfl⟩ := h
    exact ⟨raw, i + 1, ⟨by omega, by simpa using hi⟩, rfl, rfl⟩

theorem pairwise_numbered (ls : List (List Char)) :
    (numbered ls).Pairwise (fun l m => l.number < m.number) := by
  rw [numbered, List.pairwise_map, List.pairwise_iff_getElem]
  intro i j hi hj hij
  simpa using hij

theorem filter_lt_append {α : Type} {key : α → Nat} {n : Nat} {xs ys : List α}
    (hxs : ∀ x ∈ xs, key x < n) (hys : ∀ y ∈ ys, n < key y) :
    (xs ++ ys).filter (key · < n) = xs := by
  have hbefore : xs.filter (key · < n) = xs :=
    List.filter_eq_self.2 fun x hx => decide_eq_true (hxs x hx)
  have hbehind : ys.filter (key · < n) = [] := by
    refine List.filter_eq_nil_iff.2 fun y hy => ?_
    have := hys y hy
    simp; omega
  rw [List.filter_append, hbefore, hbehind, List.append_nil]

/-- What a line adds to the records. -/
def Entry.record? : Entry → Option Record
  | .record r => some r
  | _ => none

theorem Entry.record?_eq_some_iff {e : Entry} {r : Record} :
    e.record? = some r ↔ e = .record r := by
  cases e <;> simp [record?]

def Entry.map (g : Record → Record) : Entry → Entry
  | .nothing => .nothing
  | .record r => .record (g r)
  | .unclosed => .unclosed

theorem Entry.map_id (e : Entry) : e.map id = e := by cases e <;> rfl

namespace Candidates

/-- What is offered behind a failure is lost. -/
def append (c d : Candidates) : Candidates :=
  match c.failure with
  | none => ⟨c.records ++ d.records, d.failure⟩
  | some _ => c

theorem cons_append (r : Record) (c d : Candidates) :
    (c.cons r).append d = (c.append d).cons r := by
  obtain ⟨rs, failure⟩ := c
  cases failure <;> rfl

def map (g : Record → Record) (k : Nat → Nat) (c : Candidates) : Candidates :=
  ⟨c.records.map g, c.failure.map k⟩

theorem map_id (c : Candidates) : c.map id id = c := by
  rw [map, List.map_id, Option.map_id]
  rfl

end Candidates

namespace Source
variable (src : Source) (o : Options)

/-- Whether reading stops at a line. -/
def fails (l : Line) : Bool := o.strict && src.entry o.withText l == .unclosed

theorem offer_failure (ls : List Line) :
    (src.offer o ls).failure = (ls.find? (src.fails o)).map (·.number) := by
  induction ls with
  | nil => rfl
  | cons l ls ih =>
    cases he : src.entry o.withText l with
    | nothing => simp [offer, fails, he, ih]
    | record r => simp [offer, fails, he, ih, Candidates.cons]
    | unclosed => cases hs : o.strict <;> simp [offer, fails, he, ih, hs]

theorem offer_records (ls : List Line) :
    (src.offer o ls).records =
      (ls.takeWhile (!src.fails o ·)).filterMap fun l => (src.entry o.withText l).record? := by
  induction ls with
  | nil => rfl
  | cons l ls ih =>
    cases he : src.entry o.withText l with
    | nothing => simp [offer, fails, he, ih, Entry.record?]
    | record r => simp [offer, fails, he, ih, Candidates.cons, Entry.record?]
    | unclosed => cases hs : o.strict <;> simp [offer, fails, he, ih, hs, Entry.record?]

/-- A comment that opens on a line is looked up by that line. -/
theorem line_of_entry {withText : Bool} {l : Line} {r : Record}
    (h : src.entry withText l = .record r) : r.line = l.number := by
  rw [entry] at h
  split at h
  · cases h
  · cases h
    rfl
  · split at h
    · rename_i c hc
      have hline := List.find?_some hc
      cases h
      simpa [Comment.toRecord, Record.line] using hline
    · split at h <;> cases h

theorem entry_of_mem_offer {ls : List Line} {r : Record} (h : r ∈ (src.offer o ls).records) :
    ∃ l ∈ ls, src.entry o.withText l = .record r := by
  rw [offer_records] at h
  obtain ⟨l, hl, hr⟩ := List.mem_filterMap.1 h
  exact ⟨l, (List.takeWhile_sublist _).mem hl, Entry.record?_eq_some_iff.1 hr⟩

theorem line_of_mem_offer {ls : List Line} {r : Record} (h : r ∈ (src.offer o ls).records) :
    ∃ l ∈ ls, r.line = l.number := by
  obtain ⟨l, hl, hentry⟩ := src.entry_of_mem_offer o h
  exact ⟨l, hl, src.line_of_entry hentry⟩

theorem offer_append (ls ms : List Line) :
    src.offer o (ls ++ ms) = (src.offer o ls).append (src.offer o ms) := by
  induction ls with
  | nil => rfl
  | cons l ls ih =>
    cases he : src.entry o.withText l with
    | nothing => simp only [List.cons_append, offer, he, ih]
    | record r => simp only [List.cons_append, offer, he, ih, Candidates.cons_append]
    | unclosed => cases hs : o.strict <;> simp [offer, he, ih, hs, Candidates.append]

/-- Two sources whose lines add the same up to a change `g` offer the same up to that change. -/
theorem offer_map {src' : Source} {o' : Options} {f : Line → Line} {g : Record → Record}
    {k : Nat → Nat} (hstrict : o.strict = o'.strict) {ls : List Line}
    (h : ∀ l ∈ ls, src.entry o.withText (f l) = (src'.entry o'.withText l).map g ∧
      (f l).number = k l.number) :
    src.offer o (ls.map f) = (src'.offer o' ls).map g k := by
  induction ls with
  | nil => rfl
  | cons l ls ih =>
    obtain ⟨he, hn⟩ := h l List.mem_cons_self
    have ih := ih fun m hm => h m (List.mem_cons_of_mem _ hm)
    cases hl : src'.entry o'.withText l with
    | nothing => simp only [List.map_cons, offer, he, hl, Entry.map, ih]
    | record r => simp only [List.map_cons, offer, he, hl, Entry.map, ih]; rfl
    | unclosed =>
      simp only [List.map_cons, offer, he, hl, Entry.map, ih, hn, hstrict]
      split <;> rfl

theorem offer_congr {src' : Source} {ls : List Line}
    (h : ∀ l ∈ ls, src.entry o.withText l = src'.entry o.withText l) :
    src.offer o ls = src'.offer o ls := by
  have hmap := src.offer_map (o := o) (f := id) (g := id) (k := id) rfl fun l hl =>
    ⟨(h l hl).trans (Entry.map_id _).symm, rfl⟩
  rwa [List.map_id, Candidates.map_id] at hmap

theorem offer_failure_of_lenient (ho : o.strict = false) (ls : List Line) :
    (src.offer o ls).failure = none := by
  rw [offer_failure, List.find?_eq_none.2 (by simp [fails, ho])]
  rfl

theorem offer_lenient_of_failure_none {ls : List Line} (h : (src.offer o ls).failure = none) :
    src.offer { o with strict := false } ls = src.offer o ls := by
  induction ls with
  | nil => rfl
  | cons l ls ih =>
    cases he : src.entry o.withText l with
    | nothing => simp_all [offer]
    | record r => simp_all [offer, Candidates.cons]
    | unclosed => cases hs : o.strict <;> simp_all [offer]

/-- Without an error reading goes on behind the line of the error. -/
theorem offer_lenient_of_failure_some {ls : List Line} {n : Nat}
    (hls : ls.Pairwise (fun l m => l.number < m.number)) (h : (src.offer o ls).failure = some n) :
    ∃ rest, (src.offer { o with strict := false } ls).records = (src.offer o ls).records ++ rest ∧
      (∀ r ∈ (src.offer o ls).records, r.line < n) ∧ ∀ r ∈ rest, n < r.line := by
  induction ls with
  | nil => simp [offer] at h
  | cons l ls ih =>
    obtain ⟨hl, hls⟩ := List.pairwise_cons.1 hls
    cases he : src.entry o.withText l with
    | nothing =>
      obtain ⟨rest, hrest⟩ := ih hls (by simpa [offer, he] using h)
      exact ⟨rest, by simpa [offer, he] using hrest⟩
    | record r =>
      have hf : (src.offer o ls).failure = some n := by
        simpa [offer, he, Candidates.cons] using h
      obtain ⟨rest, hrest, hlt, hgt⟩ := ih hls hf
      rw [offer_failure, Option.map_eq_some_iff] at hf
      obtain ⟨m, hm, rfl⟩ := hf
      have hr : r.line < m.number := by
        rw [src.line_of_entry he]
        exact hl m (List.mem_of_find?_eq_some hm)
      refine ⟨rest, by simp [offer, he, Candidates.cons, hrest], ?_, hgt⟩
      simpa [offer, he, Candidates.cons] using ⟨hr, hlt⟩
    | unclosed =>
      cases hs : o.strict with
      | false =>
        have hf : (src.offer o ls).failure = some n := by simpa [offer, he, hs] using h
        obtain ⟨rest, hrest⟩ := ih hls hf
        exact ⟨rest, by simpa [offer, he, hs] using hrest⟩
      | true =>
        obtain rfl : l.number = n := by simpa [offer, he, hs] using h
        refine ⟨(src.offer { o with strict := false } ls).records, ?_, ?_, ?_⟩
        · simp [offer, he, hs]
        · simp [offer, he, hs]
        · intro r hr
          obtain ⟨m, hm, hline⟩ := src.line_of_mem_offer _ hr
          rw [hline]
          exact hl m hm

theorem candidates_failure_eq_some_iff (text : List Char) (n : Nat) :
    ((ofText text).candidates o).failure = some n ↔
      ∃ l ∈ (ofText text).lines, l.number = n ∧ (ofText text).fails o l = true ∧
        ∀ m ∈ (ofText text).lines, m.number < n → (ofText text).fails o m = false := by
  have hpair := pairwise_numbered (Text.lines (withoutReturns text))
  simp only [candidates, offer_failure, Option.map_eq_some_iff]
  constructor
  · intro h
    obtain ⟨l, hl, rfl⟩ := h
    obtain ⟨hmem, hfails, hmin⟩ := (find?_eq_some_iff_of_ordered hpair).1 hl
    exact ⟨l, hmem, rfl, hfails, hmin⟩
  · intro h
    obtain ⟨l, hmem, rfl, hfails, hmin⟩ := h
    exact ⟨l, (find?_eq_some_iff_of_ordered hpair).2 ⟨hmem, hfails, hmin⟩, rfl⟩

theorem candidates_lenient_of_failure {text : List Char} {n : Nat}
    (h : ((ofText text).candidates o).failure = some n) :
    ∃ rest, ((ofText text).candidates { o with strict := false }).records =
        ((ofText text).candidates o).records ++ rest ∧
      (∀ r ∈ ((ofText text).candidates o).records, r.line < n) ∧ ∀ r ∈ rest, n < r.line :=
  offer_lenient_of_failure_some _ o (pairwise_numbered _) h

end Source

/-- Whether and where an outline fails does not depend on the sieve. -/
theorem outlineWith_fst_eq_error_iff {σ : Type} (o : Options) (f : Sieve σ) (text : List Char)
    (s : σ) (n : Nat) :
    (outlineWith o f text s).1 = .error (.unclosedComment n) ↔
      ((Source.ofText text).candidates o).failure = some n := by
  simp only [outlineWith]
  split <;> simp_all

def Candidates.outcome (c : Candidates) : Except SourceError (List Record) :=
  match c.failure with
  | none => .ok c.records
  | some n => .error (.unclosedComment n)

theorem outline_eq (o : Options) (text : List Char) :
    outline o text = ((Source.ofText text).candidates o).outcome := by
  simp only [outline, outlineWith, Sieve.run_all, Candidates.outcome]
  cases ((Source.ofText text).candidates o).failure <;> rfl

theorem outline_eq_ok_of_lenient {o : Options} (ho : o.strict = false) (text : List Char) :
    outline o text = .ok ((Source.ofText text).candidates o).records := by
  have hfailure : ((Source.ofText text).candidates o).failure = none :=
    Source.offer_failure_of_lenient _ o ho _
  rw [outline_eq, Candidates.outcome, hfailure]

/-- Where comments that are never closed are no error, every line is read. -/
theorem outline_lenient {o : Options} (ho : o.strict = false) (text : List Char) :
    outline o text = .ok ((Source.ofText text).lines.filterMap fun l =>
      ((Source.ofText text).entry o.withText l).record?) := by
  rw [outline_eq_ok_of_lenient ho, Source.candidates, Source.offer_records,
    List.takeWhile_eq_self_iff.2 (by simp [Source.fails, ho])]

end ScriptOutline
