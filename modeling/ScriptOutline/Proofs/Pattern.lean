import ScriptOutline.Proofs.Utf8
import ScriptOutline.Settings

/-!
Patterns that take whole directories, and patterns for the end of a path. Tokens in a row match in
turn (`mem_tokenRests_cons_iff`), so a pattern is matched exactly by the paths that can be parted as
its tokens say. That patterns match bytes makes no difference: slashes stand among the bytes of a
path where they stand in the path.
-/

set_option autoImplicit false

namespace ScriptOutline.Glob
open Text

/-! Tokens in a row. -/

section
variable {t : Token} {ts : List Token} {s r : Bytes}

/-- Each start is followed by itself. -/
theorem mem_tokenRests_iff {starts : List Bytes} :
    r ∈ tokenRests ts starts ↔ ∃ s ∈ starts, r ∈ tokenRests ts [s] := by
  induction ts generalizing starts with
  | nil => simp [tokenRests]
  | cons t ts ih =>
    have hstep : ∀ starts, r ∈ tokenRests (t :: ts) starts ↔
        ∃ s ∈ starts, ∃ s' ∈ t.rests s, r ∈ tokenRests ts [s'] := by
      intro starts
      rw [tokenRests, ih]
      simp only [List.mem_eraseDups, List.mem_flatMap]
      grind
    rw [hstep]
    exact exists_congr fun s => and_congr_right fun _ => by simp [hstep]

theorem mem_tokenRests_cons_iff :
    r ∈ tokenRests (t :: ts) [s] ↔ ∃ s' ∈ t.rests s, r ∈ tokenRests ts [s'] := by
  rw [tokenRests, mem_tokenRests_iff]
  simp [List.mem_eraseDups]

theorem mem_afterBytes_iff {bs : Bytes} : r ∈ afterBytes bs s ↔ s = bs ++ r := by
  fun_induction afterBytes bs s <;> simp_all [eq_comm]

theorem mem_suffixes_iff : r ∈ suffixes s ↔ r <:+ s := by
  induction s with
  | nil => simp [suffixes]
  | cons b s ih => rw [suffixes, List.mem_cons, ih, List.suffix_cons_iff]

theorem mem_afterSlashes_iff : r ∈ afterSlashes s ↔ ∃ before, s = before ++ slash :: r := by
  induction s with
  | nil => simp [afterSlashes]
  | cons b s ih =>
    have hcons : (∃ before, b :: s = before ++ slash :: r) ↔
        (b = slash ∧ s = r) ∨ ∃ before, s = before ++ slash :: r := by
      constructor
      · rintro ⟨before, h⟩
        cases before with
        | nil => exact .inl (List.cons.inj h)
        | cons a before => exact .inr ⟨before, (List.cons.inj h).2⟩
      · rintro (⟨rfl, rfl⟩ | ⟨before, rfl⟩)
        · exact ⟨[], rfl⟩
        · exact ⟨b :: before, rfl⟩
    rw [hcons, ← ih, afterSlashes]
    split <;> simp_all [eq_comm]

/-! What single tokens leave. -/

theorem mem_rests_literal_iff {c : Char} :
    r ∈ (Token.literal c).rests s ↔ s = String.utf8EncodeChar c ++ r := mem_afterBytes_iff

theorem mem_rests_star_iff : r ∈ Token.star.rests s ↔ r <:+ s := mem_suffixes_iff

theorem mem_rests_leading_iff :
    r ∈ Token.leading.rests s ↔ s = r ∨ ∃ before, s = before ++ slash :: r := by
  rw [Token.rests, List.mem_cons, mem_afterSlashes_iff, eq_comm]

theorem mem_rests_trailing_iff :
    r ∈ Token.trailing.rests s ↔ ∃ below, s = slash :: below ∧ r <:+ below := by
  cases s with
  | nil => simp [Token.rests]
  | cons b s => by_cases hb : b = slash <;> simp [Token.rests, hb, mem_suffixes_iff]

/-- The tokens of a text without wildcards. -/
def literals (w : List Char) : List Token := w.map .literal

theorem mem_tokenRests_literals_iff {w : List Char} :
    r ∈ tokenRests (literals w ++ ts) [s] ↔
      ∃ s', s = encodeUtf8 w ++ s' ∧ r ∈ tokenRests ts [s'] := by
  induction w generalizing s with
  | nil => simp [literals, encodeUtf8]
  | cons c w ih =>
    rw [literals, List.map_cons, List.cons_append, mem_tokenRests_cons_iff]
    simp only [mem_rests_literal_iff, encodeUtf8_cons, List.append_assoc]
    constructor
    · rintro ⟨s', rfl, h⟩
      obtain ⟨s'', rfl, hr⟩ := ih.1 h
      exact ⟨s'', rfl, hr⟩
    · rintro ⟨s', rfl, hr⟩
      exact ⟨_, rfl, ih.2 ⟨s', rfl, hr⟩⟩

theorem covers_iff {g : Glob} (h : g.tokens ≠ [.leading]) {path : Bytes} :
    g.covers path = true ↔ [] ∈ tokenRests g.tokens [path] := by
  rw [covers]
  split
  · contradiction
  · rw [List.contains_iff_mem]

end

/-! Directories. -/

/-- Whatever stands in a directory of this name. -/
def within (w : List Char) : Glob := ⟨.leading :: (literals w ++ [.trailing])⟩

theorem needsName_within (w : List Char) : (within w).method.needsName = false := by
  have hparts : splitLiterals (within w).tokens.reverse = ([], (within w).tokens.reverse) := by
    simp [within, splitLiterals]
  rw [method, hparts]
  simp only [within, List.reverse_cons, List.reverse_append, List.reverse_nil, List.nil_append,
    List.cons_append, Method.ofParts]
  split <;> rfl

theorem covers_within_iff {w : List Char} {path : Bytes} :
    (within w).covers path = true ↔ ∃ below, path = encodeUtf8 w ++ slash :: below ∨
      ∃ before, path = before ++ slash :: (encodeUtf8 w ++ slash :: below) := by
  have htrailing : ∀ s, [] ∈ tokenRests [.trailing] [s] ↔ ∃ below, s = slash :: below := by
    intro s
    rw [mem_tokenRests_cons_iff]
    simp [tokenRests, mem_rests_trailing_iff]
  rw [covers_iff (by simp [within, literals]), within, mem_tokenRests_cons_iff]
  simp only [mem_rests_leading_iff, mem_tokenRests_literals_iff, htrailing]
  constructor
  · rintro ⟨s, hs, -, rfl, below, rfl⟩
    exact ⟨below, hs⟩
  · rintro ⟨below, hs⟩
    exact ⟨_, hs, _, rfl, below, rfl⟩

theorem exists_of_encodeUtf8_slash {s : List Char} {before after : Bytes}
    (h : encodeUtf8 s = before ++ slash :: after) :
    ∃ a b, s = a ++ '/' :: b ∧ before = encodeUtf8 a ∧ after = encodeUtf8 b :=
  exists_of_encodeUtf8_eq_append (c := '/') (by decide) h

theorem encodeUtf8_slash (a b : List Char) :
    encodeUtf8 (a ++ '/' :: b) = encodeUtf8 a ++ slash :: encodeUtf8 b := by
  rw [encodeUtf8_append, encodeUtf8_cons]
  rfl

/-- A name stands before a slash among the bytes of a text where it does so in the text. -/
theorem exists_encodeUtf8_eq_iff {w s : List Char} :
    (∃ below, encodeUtf8 s = encodeUtf8 w ++ slash :: below) ↔ ∃ b, s = w ++ '/' :: b := by
  constructor
  · rintro ⟨below, h⟩
    obtain ⟨a, b, rfl, ha, -⟩ := exists_of_encodeUtf8_slash h
    exact ⟨b, by rw [encodeUtf8_inj.1 ha]⟩
  · rintro ⟨b, rfl⟩
    exact ⟨encodeUtf8 b, encodeUtf8_slash w b⟩

/-- A directory is a step of the path other than the last. -/
theorem hits_within_iff {w path : List Char} (hw : '/' ∉ w) :
    (within w).hits (encodeUtf8 path) = true ↔ w ∈ (pieces (· == '/') path).dropLast := by
  rw [hits, needsName_within, Bool.not_false, Bool.true_or, Bool.and_true, covers_within_iff,
    mem_dropLast_pieces_iff, and_iff_right hw, exists_or, exists_encodeUtf8_eq_iff]
  refine or_congr_right ⟨?_, ?_⟩
  · rintro ⟨below, before, h⟩
    obtain ⟨u, s, rfl, -, hs⟩ := exists_of_encodeUtf8_slash h
    obtain ⟨t, rfl⟩ := exists_encodeUtf8_eq_iff.1 ⟨below, hs.symm⟩
    exact ⟨u, t, rfl⟩
  · rintro ⟨u, t, rfl⟩
    exact ⟨encodeUtf8 t, encodeUtf8 u, by rw [encodeUtf8_slash, encodeUtf8_slash]⟩

/-! Ends of paths. -/

/-- Whatever ends in this text, in any directory. -/
def ending (w : List Char) : Glob := ⟨.leading :: .star :: literals w⟩

theorem covers_ending_iff {w : List Char} {path : Bytes} :
    (ending w).covers path = true ↔ encodeUtf8 w <:+ path := by
  have hend : ∀ s, [] ∈ tokenRests (literals w) [s] ↔ s = encodeUtf8 w := by
    intro s
    rw [← List.append_nil (literals w), mem_tokenRests_literals_iff]
    simp [tokenRests]
  rw [covers_iff (by simp [ending]), ending, mem_tokenRests_cons_iff]
  simp only [mem_tokenRests_cons_iff, mem_rests_leading_iff, mem_rests_star_iff, hend,
    exists_eq_right]
  constructor
  · rintro ⟨s, rfl | ⟨before, rfl⟩, hsuffix⟩
    · exact hsuffix
    · exact hsuffix.trans ((List.suffix_cons slash s).trans (List.suffix_append before _))
  · intro h
    exact ⟨path, .inl rfl, h⟩

theorem suffix_encodeUtf8_iff {c : Char} (hc : c.toNat < 0x80) {w path : List Char} :
    encodeUtf8 (c :: w) <:+ encodeUtf8 path ↔ c :: w <:+ path := by
  constructor
  · rintro ⟨before, h⟩
    rw [encodeUtf8_cons, utf8EncodeChar_of_ascii hc, List.singleton_append] at h
    obtain ⟨a, b, rfl, -, hb⟩ := exists_of_encodeUtf8_eq_append hc h.symm
    rw [encodeUtf8_inj.1 hb]
    exact List.suffix_append a _
  · rintro ⟨a, rfl⟩
    rw [encodeUtf8_append]
    exact List.suffix_append _ _

/-! Patterns as they are written. -/

/-- Characters that stand for themselves in a pattern. -/
def isPlain (c : Char) : Bool := !(['?', '*', '[', '\x7b', '\x7d', ',', '\\'].contains c)

theorem parseFrom_plain {c : Char} (hc : isPlain c = true) (prev : Option Char)
    (groups : List Group) (done : List Token) (s : List Char) :
    parseFrom prev groups done (c :: s) = parseFrom (some c) groups (.literal c :: done) s := by
  simp only [isPlain, Bool.not_eq_true', List.contains_eq_mem, decide_eq_false_iff_not,
    List.mem_cons, not_or] at hc
  rw [parseFrom] <;> simp_all

theorem parseFrom_literals {w : List Char} {c : Char} (hw : ∀ d ∈ w, isPlain d = true)
    (hc : isPlain c = true) (prev : Option Char) (groups : List Group) (done : List Token)
    (s : List Char) :
    parseFrom prev groups done (w ++ c :: s) =
      parseFrom (some c) groups (.literal c :: ((literals w).reverse ++ done)) s := by
  induction w generalizing prev done with
  | nil => exact parseFrom_plain hc prev groups done s
  | cons d w ih =>
    obtain ⟨hd, hw⟩ := List.forall_mem_cons.1 hw
    rw [List.cons_append, parseFrom_plain hd, ih hw]
    simp [literals]

/-- Two stars in front, with a slash behind them, are one token. -/
theorem parse_leading (s : List Char) :
    parse ('*' :: '*' :: '/' :: s) = parseFrom (some '/') [] [.leading] s := by
  rw [parse, parseFrom]
  rfl

theorem parse_within {w : List Char} (hw : ∀ c ∈ w, isPlain c = true) :
    parse ('*' :: '*' :: '/' :: (w ++ ['/', '*', '*'])) = .ok (within w).tokens := by
  have htrailing : ∀ before, parseFrom (some '/') [] (.literal '/' :: before) ['*', '*'] =
      .ok (.trailing :: before).reverse := by
    intro before
    rw [parseFrom]
    change parseFrom (some '*') [] (.trailing :: before) [] = _
    rw [parseFrom]
    rfl
  rw [parse_leading, parseFrom_literals hw (by decide), htrailing]
  simp [within, literals]

theorem parse_ending {w : List Char} {c : Char} (hw : ∀ d ∈ w, isPlain d = true)
    (hc : isPlain c = true) :
    parse ('*' :: '*' :: '/' :: '*' :: (w ++ [c])) = .ok (ending (w ++ [c])).tokens := by
  have hstar : ∀ s, w ++ [c] ≠ '*' :: s := by
    intro s h
    have hmem : ∀ d ∈ w ++ [c], isPlain d = true := by simpa [or_imp, forall_and] using ⟨hw, hc⟩
    exact absurd (hmem '*' (by simp [h])) (by decide)
  have hnext : parseFrom (some '/') [] [.leading] ('*' :: (w ++ [c])) =
      parseFrom (some '*') [] [.star, .leading] (w ++ [c]) := by
    rw [parseFrom]
    exact hstar
  rw [parse_leading, hnext, parseFrom_literals hw hc, parseFrom]
  simp [ending, literals]

end ScriptOutline.Glob
