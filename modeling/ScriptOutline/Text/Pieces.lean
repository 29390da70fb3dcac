/-!
Cutting a text at separators. A text with a separator in it is cut into the pieces of what stands
before it and those of what stands behind it (`pieces_append_cons`); lines, runs and the steps of
paths are pieces.
-/

set_option autoImplicit false

namespace ScriptOutline.Text

/-- The pieces between separators, empty ones kept: one more than there are separators. -/
def pieces (sep : Char → Bool) : List Char → List (List Char)
  | [] => [[]]
  | c :: cs => if sep c then [] :: pieces sep cs else (pieces sep cs).modifyHead (c :: ·)

theorem pieces_ne_nil (sep : Char → Bool) (s : List Char) : pieces sep s ≠ [] := by
  induction s with
  | nil => simp [pieces]
  | cons c cs ih =>
    by_cases h : sep c <;> simp [pieces, h]
    cases hp : pieces sep cs <;> simp_all

theorem length_pieces (sep : Char → Bool) (s : List Char) :
    (pieces sep s).length = s.countP sep + 1 := by
  induction s with
  | nil => rfl
  | cons c cs ih => by_cases h : sep c <;> simp [pieces, h, ih]

theorem pieces_append_cons {sep : Char → Bool} {c : Char} (hc : sep c = true) (s t : List Char) :
    pieces sep (s ++ c :: t) = pieces sep s ++ pieces sep t := by
  induction s with
  | nil => simp [pieces, hc]
  | cons a s ih =>
    by_cases h : sep a
    · simp [pieces, h, ih]
    · have hne := pieces_ne_nil sep s
      cases hp : pieces sep s <;> simp_all [pieces]

theorem pieces_of_forall {sep : Char → Bool} {s : List Char} (h : ∀ c ∈ s, sep c = false) :
    pieces sep s = [s] := by
  induction s with
  | nil => rfl
  | cons c cs ih => simp_all [pieces]

theorem of_mem_pieces {sep : Char → Bool} {s p : List Char} (hp : p ∈ pieces sep s) :
    ∀ c ∈ p, sep c = false := by
  induction s generalizing p with
  | nil => simp_all [pieces]
  | cons a s ih =>
    by_cases h : sep a
    · simp only [pieces, h, if_true, List.mem_cons] at hp
      rcases hp with rfl | hp
      · simp
      · exact ih hp
    · have hne := pieces_ne_nil sep s
      cases hs : pieces sep s with
      | nil => exact absurd hs hne
      | cons q qs =>
        simp only [pieces, h, hs, List.modifyHead_cons, List.mem_cons, Bool.false_eq_true,
          if_false] at hp
        rcases hp with rfl | hp
        · intro c hc
          rcases List.mem_cons.1 hc with rfl | hc
          · simpa using h
          · exact ih (by simp [hs]) c hc
        · exact ih (by simp [hs, hp])

/-- The pieces that are not the last one stand in front of a separator, and at the start or behind
another. -/
theorem mem_dropLast_pieces_iff {c : Char} {s p : List Char} :
    p ∈ (pieces (· == c) s).dropLast ↔
      c ∉ p ∧ ((∃ t, s = p ++ c :: t) ∨ ∃ u t, s = u ++ c :: (p ++ c :: t)) := by
  have hwhole : ∀ {w : List Char}, c ∉ w → pieces (· == c) w = [w] := fun h =>
    pieces_of_forall fun d hd => by rw [beq_eq_false_iff_ne]; rintro rfl; exact h hd
  constructor
  · intro h
    induction hn : s.length using Nat.strongRecOn generalizing s with
    | ind n ih =>
      by_cases hc : c ∈ s
      · obtain ⟨u, t, rfl, hu⟩ := List.eq_append_cons_of_mem hc
        rw [pieces_append_cons (by simp), hwhole hu, List.singleton_append,
          List.dropLast_cons_of_ne_nil (pieces_ne_nil _ _), List.mem_cons] at h
        obtain rfl | h := h
        · exact ⟨hu, .inl ⟨t, rfl⟩⟩
        · rw [List.length_append, List.length_cons] at hn
          obtain ⟨hp, ⟨t', rfl⟩ | ⟨u', t', rfl⟩⟩ := ih t.length (by omega) h rfl
          · exact ⟨hp, .inr ⟨u, t', rfl⟩⟩
          · exact ⟨hp, .inr ⟨u ++ c :: u', t', by simp⟩⟩
      · simp [hwhole hc] at h
  · rintro ⟨hp, ⟨t, rfl⟩ | ⟨u, t, rfl⟩⟩
    · rw [pieces_append_cons (by simp), hwhole hp, List.singleton_append,
        List.dropLast_cons_of_ne_nil (pieces_ne_nil _ _)]
      exact List.mem_cons_self
    · rw [pieces_append_cons (by simp), pieces_append_cons (by simp), hwhole hp,
        List.singleton_append, List.dropLast_append_of_ne_nil (List.cons_ne_nil _ _),
        List.dropLast_cons_of_ne_nil (pieces_ne_nil _ _)]
      exact List.mem_append_right _ List.mem_cons_self

/-- The lines of a text: what stands between its line feeds. -/
def lines (s : List Char) : List (List Char) := pieces (· == '\n') s

/-- The maximal runs of characters with a property, in order. -/
def runs (p : Char → Bool) (s : List Char) : List (List Char) :=
  (pieces (fun c => !p c) s).filter (fun w => !w.isEmpty)

theorem runs_of_forall {p : Char → Bool} {w : List Char} (hw : ∀ c ∈ w, p c = true) (hne : w ≠ []) :
    runs p w = [w] := by
  rw [runs, pieces_of_forall fun c hc => by rw [hw c hc]; rfl]
  simp [hne]

theorem runs_append_cons {p : Char → Bool} {c : Char} (hc : p c = false) (s t : List Char) :
    runs p (s ++ c :: t) = runs p s ++ runs p t := by
  rw [runs, pieces_append_cons (by simp [hc]), List.filter_append, runs, runs]

/-- What holds no character with the property adds nothing, be it in front or behind. -/
theorem runs_of_forall_append {p : Char → Bool} {t : List Char} (h : ∀ c ∈ t, p c = false)
    (s : List Char) : runs p (t ++ s) = runs p s := by
  induction t with
  | nil => rfl
  | cons c t ih =>
    obtain ⟨hc, ht⟩ := List.forall_mem_cons.1 h
    rw [List.cons_append, ← List.nil_append (c :: _), runs_append_cons hc, ih ht]
    rfl

theorem runs_append_of_forall {p : Char → Bool} {t : List Char} (h : ∀ c ∈ t, p c = false)
    (s : List Char) : runs p (s ++ t) = runs p s := by
  cases t with
  | nil => rw [List.append_nil]
  | cons c t =>
    obtain ⟨hc, ht⟩ := List.forall_mem_cons.1 h
    have hnil : runs p t = [] := by
      rw [← List.append_nil t, runs_of_forall_append ht]
      rfl
    rw [runs_append_cons hc, hnil, List.append_nil]

def after? : List Char → List Char → Option (List Char)
  | [], s => some s
  | _ :: _, [] => none
  | w :: ws, c :: s => if w = c then after? ws s else none

theorem after?_eq_some_iff {w s r : List Char} : after? w s = some r ↔ s = w ++ r := by
  fun_induction after? w s <;> simp_all [eq_comm]

end ScriptOutline.Text
