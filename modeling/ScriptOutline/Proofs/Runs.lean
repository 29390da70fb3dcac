import ScriptOutline.Proofs.Parameters

/-!
Runs. The runs of a text with a property are exactly the pieces with the property that cannot be
made longer at either end, from left to right (`exists_runs`). A parameter list is read as the runs
of letters, numbers and underscores in it: nothing but other characters is lost, other characters
part it, and the parameters read from it are read again wherever they are parted
(`params_are_maximal_runs`).
-/

set_option autoImplicit false

namespace ScriptOutline
open Text

/-- A piece of a text, with what stands before it and behind it. -/
structure Piece where
  before : List Char
  text : List Char
  after : List Char
  deriving DecidableEq, Repr

namespace Piece

/-- Some characters with a property, that cannot be made longer at either end. -/
structure IsRun (p : Char → Bool) (s : List Char) (x : Piece) : Prop where
  whole : s = x.before ++ (x.text ++ x.after)
  nonempty : x.text ≠ []
  all : ∀ c ∈ x.text, p c = true
  left : ∀ c ∈ x.before.getLast?, p c = false
  right : ∀ c ∈ x.after.head?, p c = false

/-- The piece as it stands in a longer text. -/
def behind (start : List Char) (x : Piece) : Piece := { x with before := start ++ x.before }

theorem length_before_behind (start : List Char) (x : Piece) :
    (x.behind start).before.length = start.length + x.before.length := List.length_append

variable {p : Char → Bool} {w t : List Char} {c : Char} {x : Piece}

/-- A run that begins where the text does is all that comes first. -/
theorem IsRun.eq_of_before_eq_nil {rest : List Char} (hw : ∀ d ∈ w, p d = true)
    (hrest : ∀ d ∈ rest.head?, p d = false) (h : x.IsRun p (w ++ rest))
    (hbefore : x.before = []) : w ≠ [] ∧ x = ⟨[], w, rest⟩ := by
  obtain ⟨before, text, after⟩ := x
  obtain ⟨hwhole, hne, hall, -, hright⟩ := h
  dsimp only at hbefore hwhole hne hall hright
  rw [hbefore, List.nil_append] at hwhole
  subst hbefore
  obtain ⟨rfl, rfl⟩ := Line.takeWhile_dropWhile_eq_iff.2 ⟨hwhole, hall, hright⟩
  obtain ⟨htake, hdrop⟩ := Line.takeWhile_dropWhile_eq_iff.2 ⟨rfl, hw, hrest⟩
  rw [htake] at hne
  exact ⟨hne, by rw [htake, hdrop]⟩

/-- Behind characters with the property no run begins among them. -/
theorem IsRun.before_eq_nil {u : List Char} (hw : ∀ d ∈ x.before ++ u, p d = true) {s : List Char}
    (h : x.IsRun p s) : x.before = [] := by
  by_contra hne
  have hlast := h.left _ (List.getLast?_eq_some_getLast hne)
  rw [hw _ (List.mem_append_left u (List.getLast_mem hne))] at hlast
  cases hlast

theorem isRun_of_forall_iff (hw : ∀ d ∈ w, p d = true) :
    x.IsRun p w ↔ w ≠ [] ∧ x = ⟨[], w, []⟩ := by
  constructor
  · intro h
    have hbefore : x.before = [] := h.before_eq_nil (u := x.text ++ x.after) (by rwa [← h.whole])
    rw [← List.append_nil w] at h
    exact h.eq_of_before_eq_nil hw (by simp) hbefore
  · intro h
    obtain ⟨hne, rfl⟩ := h
    exact ⟨by simp, hne, hw, by simp, by simp⟩

/-- A character without the property ends the first run, and the others are runs of what follows
it. -/
theorem isRun_append_cons_iff (hw : ∀ d ∈ w, p d = true) (hc : p c = false) :
    x.IsRun p (w ++ c :: t) ↔
      (w ≠ [] ∧ x = ⟨[], w, c :: t⟩) ∨ ∃ y : Piece, y.IsRun p t ∧ x = y.behind (w ++ [c]) := by
  constructor
  · intro h
    obtain ⟨u, hbefore, hrest⟩ | ⟨u, hbefore, -⟩ := List.append_eq_append_iff.1 h.whole
    · -- The run begins behind `w`, so it begins behind `c`, which is none of its characters.
      right
      obtain ⟨before, text, after⟩ := x
      obtain ⟨-, hne, hall, hleft, hright⟩ := h
      cases u with
      | nil =>
        obtain ⟨d, text, rfl⟩ := List.exists_cons_of_ne_nil hne
        obtain ⟨rfl, -⟩ := List.cons.inj hrest
        cases (hall c List.mem_cons_self).symm.trans hc
      | cons d u =>
        obtain ⟨rfl, rfl⟩ := List.cons.inj hrest
        obtain rfl : before = w ++ c :: u := hbefore
        refine ⟨⟨u, text, after⟩, ⟨rfl, hne, hall, fun d hd => hleft d ?_, hright⟩, ?_⟩
        · rw [Option.mem_def] at hd
          simp [List.getLast?_cons, hd]
        · simp [behind]
    · left
      subst hbefore
      exact h.eq_of_before_eq_nil hw (by simpa using hc) (h.before_eq_nil hw)
  · intro h
    obtain ⟨hne, rfl⟩ | ⟨y, ⟨rfl, hne, hall, hleft, hright⟩, rfl⟩ := h
    · exact ⟨rfl, hne, hw, by simp, by simpa using hc⟩
    · refine ⟨by simp [behind], hne, hall, fun d hd => ?_, hright⟩
      rw [behind, List.getLast?_append, Option.mem_def, Option.or_eq_some_iff] at hd
      obtain hd | ⟨-, hd⟩ := hd
      · exact hleft d hd
      · rw [List.getLast?_concat, Option.some.injEq] at hd
        rwa [← hd]

end Piece

namespace Text

variable {p : Char → Bool}

/-- A text consists of characters with a property, or it goes on behind the first without it. -/
theorem parted_induction {motive : List Char → Prop}
    (last : ∀ w, (∀ c ∈ w, p c = true) → motive w)
    (more : ∀ w c t, (∀ d ∈ w, p d = true) → p c = false → motive t → motive (w ++ c :: t))
    (s : List Char) : motive s := by
  induction hn : s.length using Nat.strongRecOn generalizing s with
  | ind n ih =>
    have hs : s.takeWhile p ++ s.dropWhile p = s := List.takeWhile_append_dropWhile
    have hw : ∀ c ∈ s.takeWhile p, p c = true := List.all_eq_true.1 List.all_takeWhile
    have hstop := List.head?_dropWhile_not p s
    cases hrest : s.dropWhile p with
    | nil =>
      rw [hrest, List.append_nil] at hs
      exact hs ▸ last _ hw
    | cons c t =>
      rw [hrest] at hs hstop
      have hlength := congrArg List.length hs
      rw [List.length_append, List.length_cons] at hlength
      exact hs ▸ more _ c t hw hstop (ih t.length (by omega) t rfl)

/-- The runs of a text are its pieces with the property that cannot be made longer, in their
order. -/
theorem exists_runs (p : Char → Bool) (s : List Char) :
    ∃ xs : List Piece, runs p s = xs.map Piece.text ∧
      xs.Pairwise (fun x y => x.before.length < y.before.length) ∧
      ∀ x, x ∈ xs ↔ x.IsRun p s := by
  induction s using parted_induction (p := p) with
  | last w hw =>
    by_cases hne : w = []
    · subst hne
      exact ⟨[], rfl, .nil, fun x => by simp [Piece.isRun_of_forall_iff hw]⟩
    · exact ⟨[⟨[], w, []⟩], runs_of_forall hw hne, List.pairwise_singleton _ _,
        fun x => by simp [Piece.isRun_of_forall_iff hw, hne]⟩
  | more w c t hw hc ih =>
    obtain ⟨ys, htext, hordered, hmem⟩ := ih
    have hbehind : (ys.map (Piece.behind (w ++ [c]))).Pairwise
        fun x y => x.before.length < y.before.length := by
      refine List.pairwise_map.2 (hordered.imp fun {x y} hxy => ?_)
      rw [Piece.length_before_behind, Piece.length_before_behind]
      exact Nat.add_lt_add_left hxy _
    have hruns : runs p (w ++ c :: t) =
        runs p w ++ (ys.map (Piece.behind (w ++ [c]))).map Piece.text := by
      rw [runs_append_cons hc, htext, List.map_map]
      rfl
    by_cases hne : w = []
    · subst hne
      refine ⟨ys.map (Piece.behind [c]), hruns, hbehind, fun x => ?_⟩
      rw [Piece.isRun_append_cons_iff hw hc]
      simp [hmem, eq_comm]
    · refine ⟨⟨[], w, c :: t⟩ :: ys.map (Piece.behind (w ++ [c])), ?_, ?_, fun x => ?_⟩
      · rw [hruns, runs_of_forall hw hne]
        rfl
      · refine .cons (fun x hx => ?_) hbehind
        obtain ⟨y, -, rfl⟩ := List.mem_map.1 hx
        rw [Piece.length_before_behind, List.length_append, List.length_singleton]
        exact Nat.lt_of_lt_of_le (Nat.succ_pos _) (Nat.le_add_right _ _)
      · rw [Piece.isRun_append_cons_iff hw hc]
        simp [hmem, hne, eq_comm]

/-- Runs that are parted come back. -/
theorem runs_intercalate {sep : List Char} (hne : sep ≠ []) (hsep : ∀ c ∈ sep, p c = false)
    {ws : List (List Char)} (hws : ∀ w ∈ ws, w ≠ [] ∧ ∀ c ∈ w, p c = true) :
    runs p (sep.intercalate ws) = ws := by
  obtain ⟨c, sep, rfl⟩ := List.exists_cons_of_ne_nil hne
  obtain ⟨hc, hrest⟩ := List.forall_mem_cons.1 hsep
  induction ws with
  | nil => rfl
  | cons w ws ih =>
    obtain ⟨⟨hw, hall⟩, hws⟩ := List.forall_mem_cons.1 hws
    cases ws with
    | nil => rw [List.intercalate_singleton, runs_of_forall hall hw]
    | cons v ws =>
      rw [List.intercalate_cons_cons, List.append_assoc, List.cons_append, runs_append_cons hc,
        runs_of_forall hall hw, runs_of_forall_append hrest, ih hws]
      rfl

/-- Nothing is lost but what lacks the property. -/
theorem flatten_runs (p : Char → Bool) (s : List Char) : (runs p s).flatten = s.filter p := by
  have hwhole : ∀ w, (∀ c ∈ w, p c = true) → (runs p w).flatten = w.filter p := by
    intro w hw
    rw [List.filter_eq_self.2 hw]
    by_cases hne : w = []
    · rw [hne]
      rfl
    · rw [runs_of_forall hw hne, List.flatten_singleton]
  induction s using parted_induction (p := p) with
  | last w hw => exact hwhole w hw
  | more w c t hw hc ih =>
    rw [runs_append_cons hc, List.flatten_append, hwhole w hw, ih, List.filter_append,
      List.filter_cons_of_neg (by simp [hc])]

end Text

/-- The parameters of a list are the runs of letters, numbers and underscores in it, from left to
right. Other characters part them and are all that is left out; and parted by other characters, in
whatever way, the parameters come back as they are. -/
theorem params_are_maximal_runs (s : List Char) :
    (∃ xs : List Piece, Line.params s = xs.map (fun x => String.ofList x.text) ∧
      xs.Pairwise (fun x y => x.before.length < y.before.length) ∧
      ∀ x, x ∈ xs ↔ x.IsRun isParam s) ∧
    (∀ w ∈ Line.params s, IsParameter w) ∧
    (Line.params s).flatMap String.toList = s.filter isParam ∧
    (∀ c t, isParam c = false → Line.params (s ++ c :: t) = Line.params s ++ Line.params t) ∧
    ∀ sep, sep ≠ [] → (∀ c ∈ sep, isParam c = false) →
      Line.params (sep.intercalate ((Line.params s).map String.toList)) = Line.params s := by
  have hchars : (Line.params s).map String.toList = runs isParam s := by
    rw [Line.params, List.map_map]
    exact (List.map_congr_left fun w _ => String.toList_ofList).trans (List.map_id _)
  refine ⟨?_, fun w hw => Line.isParameter_of_mem_params hw, ?_,
    fun c t hc => Line.params_append_cons hc s t, fun sep hne hsep => ?_⟩
  · obtain ⟨xs, hxs, hordered, hmem⟩ := exists_runs isParam s
    refine ⟨xs, ?_, hordered, hmem⟩
    rw [Line.params, hxs, List.map_map]
    rfl
  · rw [List.flatMap_def, hchars, flatten_runs]
  · have hruns : ∀ w ∈ runs isParam s, w ≠ [] ∧ ∀ c ∈ w, isParam c = true := by
      obtain ⟨xs, hxs, -, hmem⟩ := exists_runs isParam s
      rw [hxs]
      intro w hw
      obtain ⟨x, hx, rfl⟩ := List.mem_map.1 hw
      obtain ⟨-, hne, hall, -, -⟩ := (hmem x).1 hx
      exact ⟨hne, hall⟩
    rw [hchars, Line.params, runs_intercalate hne hsep hruns, Line.params]

/-- A pattern with a default, from which letters, numbers and underscores are taken. -/
theorem params_are_maximal_runs_of_pattern :
    let s := "\x7bé, _b\x7d = ½".toList
    let ps := ["é", "_b", "½"]
    Line.params s = ps ∧
      isParam ',' = false ∧
      Line.params ("\x7bé".toList ++ ',' :: " _b\x7d = ½".toList) =
        Line.params "\x7bé".toList ++ Line.params " _b\x7d = ½".toList ∧
      (∀ c ∈ "$ ".toList, isParam c = false) ∧
      Line.params ("$ ".toList.intercalate (ps.map String.toList)) = ps := by
  intro s ps
  have hps : Line.params s = ps := by decide +kernel
  have hcomma : isParam ',' = false := by decide +kernel
  have hsep : ∀ c ∈ "$ ".toList, isParam c = false :=
    List.forall_mem_cons.2
      ⟨by decide +kernel, List.forall_mem_singleton.2 (by decide +kernel)⟩
  obtain ⟨-, -, -, happend, -⟩ := params_are_maximal_runs "\x7bé".toList
  obtain ⟨-, -, -, -, hagain⟩ := params_are_maximal_runs s
  refine ⟨hps, hcomma, happend ',' _ hcomma, hsep, ?_⟩
  rw [← hps]
  exact hagain _ (by decide +kernel) hsep

end ScriptOutline
