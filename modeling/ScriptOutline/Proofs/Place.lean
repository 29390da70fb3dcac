import ScriptOutline.Comment
import ScriptOutline.Text.Pieces

/-!
Places in a text, counted from its start: where the delimiters of comments stand, and on which line
a place is. No delimiter reaches over a line break, so the places of a text that is joined from two
at a line break are those of its parts (`standsAt_join_left`, `standsAt_join_right`).
-/

set_option autoImplicit false

namespace ScriptOutline
open Text

/-- In a list that is ordered by a key, what is found first is what fits with the least key. -/
theorem find?_eq_some_iff_of_ordered {α : Type} {key : α → Nat} {p : α → Bool} {xs : List α}
    (h : xs.Pairwise (fun a b => key a < key b)) {x : α} :
    xs.find? p = some x ↔ x ∈ xs ∧ p x = true ∧ ∀ y ∈ xs, key y < key x → p y = false := by
  induction xs with
  | nil => simp
  | cons a xs ih =>
    obtain ⟨ha, hxs⟩ := List.pairwise_cons.1 h
    have ih := ih hxs
    by_cases hp : p a = true
    · rw [List.find?_cons_of_pos hp]
      constructor
      · intro hx
        cases hx
        refine ⟨List.mem_cons_self, hp, fun y hy hlt => ?_⟩
        rcases List.mem_cons.1 hy with rfl | hy
        · exact absurd hlt (Nat.lt_irrefl _)
        · exact absurd hlt (Nat.lt_asymm (ha y hy))
      · intro hx
        obtain ⟨hx, -, hmin⟩ := hx
        rcases List.mem_cons.1 hx with rfl | hx
        · rfl
        · have := hmin a List.mem_cons_self (ha x hx)
          simp [hp] at this
    · rw [List.find?_cons_of_neg hp, ih]
      constructor
      · intro hx
        obtain ⟨hx, hpx, hmin⟩ := hx
        refine ⟨List.mem_cons_of_mem _ hx, hpx, fun y hy hlt => ?_⟩
        rcases List.mem_cons.1 hy with rfl | hy
        · simpa using hp
        · exact hmin y hy hlt
      · intro hx
        obtain ⟨hx, hpx, hmin⟩ := hx
        rcases List.mem_cons.1 hx with rfl | hx
        · exact absurd hpx hp
        · exact ⟨hx, hpx, fun y hy => hmin y (List.mem_cons_of_mem _ hy)⟩

theorem drop_succ_of_drop {s rest : List Char} {c : Char} {i : Nat} (h : s.drop i = c :: rest) :
    s.drop (i + 1) = rest := by
  rw [← List.drop_drop, h]
  rfl

theorem drop_join (s t : List Char) (i : Nat) :
    (s ++ '\n' :: t).drop (s.length + 1 + i) = t.drop i := by
  rw [List.drop_append, List.drop_eq_nil_of_le (by omega), List.nil_append,
    show s.length + 1 + i - s.length = i + 1 by omega, List.drop_succ_cons]

/-- What opens and what closes a block comment. -/
inductive Delimiter where
  | opener | closer
  deriving DecidableEq, Repr

namespace Delimiter

def text : Delimiter → List Char
  | opener => ['/', '*']
  | closer => ['*', '/']

def StandsAt (d : Delimiter) (s : List Char) (i : Nat) : Prop := d.text <+: s.drop i

instance (d : Delimiter) (s : List Char) (i : Nat) : Decidable (d.StandsAt s i) :=
  inferInstanceAs (Decidable (d.text <+: s.drop i))

/-- The first place, at `lo` or behind it, where a delimiter stands. -/
def first? (d : Delimiter) (s : List Char) (lo : Nat) : Option Nat :=
  (List.range' lo (s.length - lo)).find? fun i => d.StandsAt s i

theorem text_length (d : Delimiter) : d.text.length = 2 := by cases d <;> rfl

theorem standsAt_iff_exists {d : Delimiter} {a b : Char} (hd : d.text = [a, b]) {s : List Char}
    {i : Nat} : d.StandsAt s i ↔ ∃ rest, s.drop i = a :: b :: rest := by
  simp [StandsAt, hd, List.IsPrefix, eq_comm]

theorem not_standsAt_of_drop {d : Delimiter} {a b c : Char} {s rest : List Char} {i : Nat}
    (hd : d.text = [a, b]) (hs : s.drop i = c :: rest)
    (h : ∀ r, c = a → rest = b :: r → False) : ¬ d.StandsAt s i := by
  rw [standsAt_iff_exists hd, hs]
  intro he
  obtain ⟨r, hr⟩ := he
  obtain ⟨hc, hrest⟩ := List.cons_eq_cons.1 hr
  exact h r hc hrest

theorem StandsAt.add_two_le {d : Delimiter} {s : List Char} {i : Nat} (h : d.StandsAt s i) :
    i + 2 ≤ s.length := by
  have hl := h.length_le
  rw [text_length, List.length_drop] at hl
  omega

theorem first?_eq_some_iff {d : Delimiter} {s : List Char} {lo i : Nat} :
    d.first? s lo = some i ↔
      lo ≤ i ∧ d.StandsAt s i ∧ ∀ j, lo ≤ j → j < i → ¬ d.StandsAt s j := by
  simp only [first?, List.find?_range'_eq_some, decide_eq_true_eq, List.mem_range'_1,
    Bool.not_eq_eq_eq_not, Bool.not_true, decide_eq_false_iff_not]
  constructor
  · intro h
    obtain ⟨hi, ⟨hlo, -⟩, hmin⟩ := h
    exact ⟨hlo, hi, hmin⟩
  · intro h
    obtain ⟨hlo, hi, hmin⟩ := h
    have := hi.add_two_le
    exact ⟨hi, ⟨hlo, by omega⟩, hmin⟩

theorem first?_eq_none_iff {d : Delimiter} {s : List Char} {lo : Nat} :
    d.first? s lo = none ↔ ∀ i, lo ≤ i → ¬ d.StandsAt s i := by
  simp only [first?, List.find?_range'_eq_none, Bool.not_eq_eq_eq_not, Bool.not_true,
    decide_eq_false_iff_not]
  constructor
  · intro h i hlo hi
    have := hi.add_two_le
    exact h i hlo (by omega) hi
  · intro h i hlo _
    exact h i hlo

theorem first?_of_drop_eq_nil {d : Delimiter} {s : List Char} {lo : Nat} (h : s.drop lo = []) :
    d.first? s lo = none := by
  rw [first?_eq_none_iff]
  intro i hi hs
  have := hs.add_two_le
  have := List.drop_eq_nil_iff.1 h
  omega

theorem first?_of_standsAt {d : Delimiter} {s : List Char} {lo : Nat} (h : d.StandsAt s lo) :
    d.first? s lo = some lo :=
  first?_eq_some_iff.2 ⟨Nat.le_refl lo, h, fun _ hj hlt => absurd hj (Nat.not_le_of_lt hlt)⟩

theorem first?_succ {d : Delimiter} {s : List Char} {lo : Nat} (h : ¬ d.StandsAt s lo) :
    d.first? s lo = d.first? s (lo + 1) := by
  have hskip : ∀ {j}, lo ≤ j → d.StandsAt s j → lo + 1 ≤ j := by
    intro j hj hs
    rcases Nat.eq_or_lt_of_le hj with rfl | hlt
    · exact absurd hs h
    · exact hlt
  cases hf : d.first? s (lo + 1) with
  | none =>
    rw [first?_eq_none_iff] at hf ⊢
    exact fun i hi hs => hf i (hskip hi hs) hs
  | some i =>
    rw [first?_eq_some_iff] at hf ⊢
    obtain ⟨hlo, hi, hmin⟩ := hf
    exact ⟨by omega, hi, fun j hj hlt hs => hmin j (hskip hj hs) hlt hs⟩

/-- A delimiter stands before a line break where it stands in the first text alone. -/
theorem standsAt_join_left {d : Delimiter} {s t : List Char} {i : Nat} (hi : i ≤ s.length) :
    d.StandsAt (s ++ '\n' :: t) i ↔ d.StandsAt s i := by
  rw [StandsAt, StandsAt, List.drop_append_of_le_length hi]
  rcases s.drop i with - | ⟨a, - | ⟨b, r⟩⟩ <;> cases d <;> simp [text]

theorem standsAt_join_right {d : Delimiter} {s t : List Char} {i : Nat} :
    d.StandsAt (s ++ '\n' :: t) (s.length + 1 + i) ↔ d.StandsAt t i := by
  rw [StandsAt, StandsAt, drop_join]

theorem infix_drop_iff {d : Delimiter} {s : List Char} {lo : Nat} :
    d.text <:+: s.drop lo ↔ ∃ i, lo ≤ i ∧ d.StandsAt s i := by
  rw [List.infix_iff_prefix_suffix]
  constructor
  · intro h
    obtain ⟨t, ht, hsuffix⟩ := h
    rw [List.suffix_iff_eq_drop, List.drop_drop] at hsuffix
    exact ⟨_, Nat.le_add_right lo _, hsuffix ▸ ht⟩
  · intro h
    obtain ⟨i, hi, hs⟩ := h
    exact ⟨s.drop i, hs, List.drop_suffix_drop_left s hi⟩

theorem first?_join_left {d : Delimiter} {s : List Char} {lo i : Nat} (t : List Char)
    (h : d.first? s lo = some i) : d.first? (s ++ '\n' :: t) lo = some i := by
  rw [first?_eq_some_iff] at h ⊢
  obtain ⟨hlo, hi, hmin⟩ := h
  have hle := hi.add_two_le
  refine ⟨hlo, (standsAt_join_left (by omega)).2 hi, fun j hj hlt => ?_⟩
  rw [standsAt_join_left (by omega)]
  exact hmin j hj hlt

theorem first?_join_right {d : Delimiter} {s t : List Char} {lo : Nat} :
    d.first? (s ++ '\n' :: t) (s.length + 1 + lo) = (d.first? t lo).map (s.length + 1 + ·) := by
  have hback : ∀ {i}, s.length + 1 + lo ≤ i → ∃ j, lo ≤ j ∧ i = s.length + 1 + j :=
    fun {i} hi => ⟨i - (s.length + 1), by omega, by omega⟩
  cases hf : d.first? t lo with
  | none =>
    rw [first?_eq_none_iff] at hf
    refine first?_eq_none_iff.2 fun i hi => ?_
    obtain ⟨j, hj, rfl⟩ := hback hi
    rw [standsAt_join_right]
    exact hf j hj
  | some i =>
    obtain ⟨hlo, hi, hmin⟩ := first?_eq_some_iff.1 hf
    rw [Option.map_some, first?_eq_some_iff]
    refine ⟨by omega, standsAt_join_right.2 hi, fun k hk hlt => ?_⟩
    obtain ⟨j, hj, rfl⟩ := hback hk
    rw [standsAt_join_right]
    exact hmin j hj (by omega)

end Delimiter

/-- The line that a place is on, counted from one. A line feed is on the line that it ends. -/
def lineAt (s : List Char) (i : Nat) : Nat := 1 + Comment.lineFeeds (s.take i)

theorem lineAt_add_drop (s : List Char) (i n : Nat) :
    lineAt s (i + n) = lineAt s i + Comment.lineFeeds ((s.drop i).take n) := by
  simp only [lineAt, Comment.lineFeeds, List.take_add, List.count_append]
  omega

theorem lineAt_mono {s : List Char} {i j : Nat} (h : i ≤ j) : lineAt s i ≤ lineAt s j := by
  obtain ⟨n, rfl⟩ := Nat.exists_eq_add_of_le h
  rw [lineAt_add_drop]
  omega

theorem lineAt_succ {s rest : List Char} {c : Char} {i : Nat} (h : s.drop i = c :: rest) :
    lineAt s (i + 1) = if c = '\n' then lineAt s i + 1 else lineAt s i := by
  rw [lineAt_add_drop, h]
  by_cases hc : c = '\n' <;> simp [Comment.lineFeeds, hc]

theorem lineAt_lt_of_break {s : List Char} {i j k : Nat} (hk : s[k]? = some '\n') (hi : i ≤ k)
    (hj : k < j) : lineAt s i < lineAt s j := by
  obtain ⟨hlt, hk⟩ := List.getElem?_eq_some_iff.1 hk
  have hd : s.drop k = '\n' :: s.drop (k + 1) := by rw [List.drop_eq_getElem_cons hlt, hk]
  calc lineAt s i ≤ lineAt s k := lineAt_mono hi
    _ < lineAt s (k + 1) := by simp [lineAt_succ hd]
    _ ≤ lineAt s j := lineAt_mono hj

theorem lineAt_append_left {s t : List Char} {i : Nat} (hi : i ≤ s.length) :
    lineAt (s ++ t) i = lineAt s i := by
  rw [lineAt, lineAt, List.take_append_of_le_length hi]

theorem length_lines (s : List Char) : (lines s).length = Comment.lineFeeds s + 1 :=
  length_pieces _ s

theorem lineAt_join_right {s t : List Char} {i : Nat} :
    lineAt (s ++ '\n' :: t) (s.length + 1 + i) = lineAt t i + (lines s).length := by
  rw [lineAt, lineAt, length_lines, Comment.lineFeeds, Comment.lineFeeds, Comment.lineFeeds,
    List.take_append, List.take_of_length_le (by omega),
    show s.length + 1 + i - s.length = i + 1 by omega, List.take_succ_cons, List.count_append,
    List.count_cons_self]
  omega

theorem lineAt_le_length_lines (s : List Char) (i : Nat) : lineAt s i ≤ (lines s).length := by
  have h := (List.take_sublist i s).count_le '\n'
  rw [length_lines, lineAt, Comment.lineFeeds, Comment.lineFeeds]
  omega

theorem lines_of_not_mem {s : List Char} (h : '\n' ∉ s) : lines s = [s] := by
  refine pieces_of_forall fun c hc => ?_
  rw [beq_eq_false_iff_ne]
  intro he
  exact h (he ▸ hc)

theorem lines_join (s t : List Char) : lines (s ++ '\n' :: t) = lines s ++ lines t :=
  pieces_append_cons rfl s t

/-- A line begins at a place: its text follows there, up to a break or the end, and every earlier
place is on an earlier line. -/
structure LineBegins (s raw : List Char) (line k : Nat) : Prop where
  text : s.drop k = raw ∨ ∃ rest, s.drop k = raw ++ '\n' :: rest
  no_break : '\n' ∉ raw
  line_eq : lineAt s k = line
  before : ∀ q < k, lineAt s q < line

theorem exists_lineBegins {s raw : List Char} {n : Nat} (h : (lines s)[n]? = some raw) :
    ∃ k, LineBegins s raw (n + 1) k := by
  induction n generalizing s with
  | zero =>
    by_cases hs : '\n' ∈ s
    · obtain ⟨a, b, rfl, ha⟩ := List.eq_append_cons_of_mem hs
      rw [lines_join, lines_of_not_mem ha] at h
      obtain rfl : a = raw := by simpa using h
      exact ⟨0, .inr ⟨b, rfl⟩, ha, rfl, by simp⟩
    · rw [lines_of_not_mem hs] at h
      obtain rfl : s = raw := by simpa using h
      exact ⟨0, .inl rfl, hs, rfl, by simp⟩
  | succ n ih =>
    have hs : '\n' ∈ s := by
      by_cases hs : '\n' ∈ s
      · exact hs
      · simp [lines_of_not_mem hs] at h
    obtain ⟨a, b, rfl, ha⟩ := List.eq_append_cons_of_mem hs
    have hlen : (lines a).length = 1 := by rw [lines_of_not_mem ha]; rfl
    have hb : (lines b)[n]? = some raw := by
      simpa [lines_join, List.getElem?_append_right, hlen] using h
    obtain ⟨k, hk⟩ := ih hb
    refine ⟨a.length + 1 + k, ?_, hk.no_break, ?_, ?_⟩
    · rw [drop_join]
      exact hk.text
    · rw [lineAt_join_right, hk.line_eq, hlen]
    · intro q hq
      by_cases hqa : q ≤ a.length
      · have := lineAt_le_length_lines a q
        rw [lineAt_append_left hqa]
        omega
      · obtain ⟨m, rfl⟩ := Nat.exists_eq_add_of_le (Nat.lt_of_not_le hqa)
        have := hk.before m (by omega)
        rw [lineAt_join_right, hlen]
        omega

namespace LineBegins
variable {s raw : List Char} {line k : Nat} (h : LineBegins s raw line k)
include h

theorem take_eq {i : Nat} (hi : i ≤ raw.length) : (s.drop k).take i = raw.take i := by
  rcases h.text with ht | ⟨rest, ht⟩
  · rw [ht]
  · rw [ht, List.take_append_of_le_length hi]

theorem getElem?_eq {i : Nat} (hi : i < raw.length) : s[k + i]? = raw[i]? := by
  rw [← List.getElem?_take_of_lt (Nat.lt_succ_self i), ← h.take_eq hi, List.getElem?_take_of_lt
    (Nat.lt_succ_self i), List.getElem?_drop]

theorem lineAt_add {i : Nat} (hi : i ≤ raw.length) : lineAt s (k + i) = line := by
  have hno : '\n' ∉ raw.take i := fun hm => h.no_break (List.mem_of_mem_take hm)
  rw [lineAt_add_drop, h.take_eq hi, h.line_eq, Comment.lineFeeds,
    List.count_eq_zero_of_not_mem hno, Nat.add_zero]

theorem standsAt_iff {d : Delimiter} {i : Nat} (hi : i ≤ raw.length) :
    d.StandsAt s (k + i) ↔ d.StandsAt raw i := by
  have hdrop : d.StandsAt s (k + i) ↔ d.StandsAt (s.drop k) i := by
    rw [Delimiter.StandsAt, Delimiter.StandsAt, List.drop_drop]
  rcases h.text with ht | ⟨rest, ht⟩
  · rw [hdrop, ht]
  · rw [hdrop, ht, Delimiter.standsAt_join_left hi]

theorem exists_eq_add {p : Nat} (hp : lineAt s p = line) (hlen : p < s.length) :
    ∃ i ≤ raw.length, p = k + i := by
  have hkp : k ≤ p := by
    by_cases hlt : p < k
    · have := h.before p hlt
      omega
    · omega
  obtain ⟨i, rfl⟩ := Nat.exists_eq_add_of_le hkp
  refine ⟨i, ?_, rfl⟩
  rcases h.text with ht | ⟨rest, ht⟩
  · have := congrArg List.length ht
    rw [List.length_drop] at this
    omega
  · by_cases hi : i ≤ raw.length
    · exact hi
    · have hbreak : s[k + raw.length]? = some '\n' := by rw [← List.getElem?_drop, ht]; simp
      have := lineAt_lt_of_break hbreak (Nat.le_add_right k _)
        (show k + raw.length < k + i by omega)
      rw [hp, h.line_eq] at this
      omega

end LineBegins

end ScriptOutline
