import ScriptOutline.Proofs.Classification

/-!
The grammar of lines: what is found in a line, told by how its text can be parted
(`FollowsGrammar`). No part of it depends on the order in which shapes are tried, or on how far a
reader goes before it gives back some of what it has read.
-/

set_option autoImplicit false

namespace ScriptOutline
open Text

namespace Line

/-! Values. -/

/-- The value that a text gives: what stands behind its first blanks up to a semicolon, or if
nothing does, the last of these blanks. -/
def IsValue (rest v : List Char) : Prop :=
  (skipBlanks rest).takeWhile (· != ';') = v ∧ v ≠ [] ∨
  (skipBlanks rest).takeWhile (· != ';') = [] ∧
    ∃ b c, rest.takeWhile isBlank = b ++ [c] ∧ v = [c]

theorem takeWhile_congr {p q : Char → Bool} {s : List Char} (h : ∀ c ∈ s, p c = q c) :
    s.takeWhile p = s.takeWhile q := by
  induction s with
  | nil => rfl
  | cons c s ih =>
    obtain ⟨hc, hs⟩ := List.forall_mem_cons.1 h
    rw [List.takeWhile_cons, List.takeWhile_cons, hc, ih hs]

theorem value?_eq_some_iff {rest v : List Char} (h : '\n' ∉ rest) :
    value? rest = some v ↔ IsValue rest v := by
  have hstop : (skipBlanks rest).takeWhile (fun c => c != '\n' && c != ';') =
      (skipBlanks rest).takeWhile (· != ';') := by
    refine takeWhile_congr fun c hc => ?_
    have hne : c ≠ '\n' := fun he => h (he ▸ (List.dropWhile_suffix _).mem hc)
    simp [hne]
  rw [value?, hstop, IsValue]
  cases (skipBlanks rest).takeWhile (· != ';') with
  | nil =>
    simp only [Option.map_eq_some_iff, List.getLast?_eq_some_iff]
    grind
  | cons c w => grind

/-! Assigned texts. -/

/-- What a text assigns: all that stands behind its first equals sign, blanks before it aside. -/
def assignedText (s : List Char) : List Char := skipBlanks ((s.dropWhile (· != '=')).drop 1)

/-- What stands behind the first equals sign of a text. -/
def behindSign (s : List Char) : List Char := (s.dropWhile (· != '=')).drop 1

theorem behindSign_append {left rest : List Char} (h : '=' ∉ left) :
    behindSign (left ++ '=' :: rest) = rest := by
  have hleft : ∀ c ∈ left, (c != '=') = true := by
    intro c hc
    rw [bne_iff_ne]
    rintro rfl
    exact h hc
  rw [behindSign, List.dropWhile_append_of_pos hleft]
  rfl

/-- No left side holds a sign. -/
theorem sign_not_mem {left : List Char} (h : ∀ c ∈ left, isDotted c = true ∨ isBlank c = true) :
    '=' ∉ left := fun hsign => absurd (h _ hsign) (by decide)

theorem Assigns.behindSign_eq {s r n rest : List Char} (h : Assigns s r n rest) :
    behindSign s = rest := by
  obtain ⟨hr, hn, b, hb, rfl⟩ := h
  rw [← List.append_assoc]
  refine behindSign_append (sign_not_mem ?_)
  simp only [List.forall_mem_append, List.forall_mem_cons]
  exact ⟨⟨fun c hc => .inl (hr.2 c hc), .inl rfl, fun c hc => .inl (hn.isPath.2 c hc)⟩,
    fun c hc => .inr (hb c hc)⟩

theorem Declares.behindSign_eq {s n rest : List Char} (h : Declares s n rest) :
    behindSign s = rest := by
  obtain ⟨hn, b, b', -, hb, hb', rfl⟩ := h
  have hvar : IsPath varWord := by decide
  simp only [← List.append_assoc]
  refine behindSign_append (sign_not_mem ?_)
  simp only [List.forall_mem_append]
  exact ⟨⟨⟨fun c hc => .inl (hvar.2 c hc), fun c hc => .inr (hb c hc)⟩,
    fun c hc => .inl (hn.isPath.2 c hc)⟩, fun c hc => .inr (hb' c hc)⟩

theorem Assigns.assignedText_eq {s r n rest : List Char} (h : Assigns s r n rest) :
    assignedText s = skipBlanks rest := congrArg skipBlanks h.behindSign_eq

theorem Declares.assignedText_eq {s n rest : List Char} (h : Declares s n rest) :
    assignedText s = skipBlanks rest := congrArg skipBlanks h.behindSign_eq

/-- What a text assigns is there and is no function. -/
structure AssignsValue (s : List Char) : Prop where
  given : ∃ c t, assignedText s = c :: t ∧ c ≠ ';'
  other : ∀ u, ¬ IsFunction (assignedText s) u

theorem AssignsValue.isValue_iff {s rest v : List Char} (h : AssignsValue s)
    (hrest : assignedText s = skipBlanks rest) :
    ((∀ u, ¬ IsFunction (skipBlanks rest) u) ∧ IsValue rest v) ↔
      v = (assignedText s).takeWhile (· != ';') := by
  obtain ⟨⟨c, t, hgiven, hc⟩, hother⟩ := h
  rw [hrest] at hgiven hother
  have hne : (skipBlanks rest).takeWhile (· != ';') ≠ [] := by
    rw [hgiven, List.takeWhile_cons_of_pos (by simpa using hc)]
    exact List.cons_ne_nil _ _
  rw [hrest, IsValue]
  constructor
  · rintro ⟨-, ⟨rfl, -⟩ | ⟨hnil, -⟩⟩
    · rfl
    · exact absurd hnil hne
  · rintro rfl
    exact ⟨hother, .inl ⟨rfl, hne⟩⟩

end Line

/-! The grammar. -/

open Line in
/-- What is found in a line with the text `s` is told by how the text can be parted. Where it
assigns a value, the last three say the same as the three before them. -/
structure FollowsGrammar (s : List Char) (found : Option Finding) : Prop where
  commentOpen : found = some .commentOpen ↔ ∃ rest, s = '/' :: '*' :: rest
  functionStatement (n : String) :
    (∃ ps, found = some (.code (.functionStatement ps) n)) ↔ ∃ rest, StatesFunction s n.toList rest
  functionExpression (n : String) :
    (∃ ps, found = some (.code (.functionExpression none ps) n)) ↔
      ∃ rest u, Declares s n.toList rest ∧ IsFunction (skipBlanks rest) u
  exportedFunction (r n : String) :
    (∃ ps, found = some (.code (.functionExpression (some r) ps) n)) ↔
      r = "module.exports" ∧
        ∃ rest u, Exports s rest ∧ IsFunction (skipBlanks rest) u ∧ n.toList = ownName u
  prototypeMethod (c n : String) :
    (∃ ps, found = some (.code (.prototypeMethod c ps) n)) ↔
      IsName c.toList ∧ ∃ rest u, Assigns s (c.toList ++ '.' :: prototypeWord) n.toList rest ∧
        IsFunction (skipBlanks rest) u
  method (r n : String) :
    (∃ ps, found = some (.code (.method r ps) n)) ↔
      (∃ rest u, Assigns s r.toList n.toList rest ∧ IsFunction (skipBlanks rest) u) ∧
      (¬ ∃ rest u, Exports s rest ∧ IsFunction (skipBlanks rest) u) ∧
      ¬ ∃ c m rest u, IsName c ∧ Assigns s (c ++ '.' :: prototypeWord) m rest ∧
        IsFunction (skipBlanks rest) u
  prototypeProperty (c n v : String) :
    found = some (.code (.prototypeProperty c v) n) ↔
      IsName c.toList ∧ ∃ rest, Assigns s (c.toList ++ '.' :: prototypeWord) n.toList rest ∧
        (∀ u, ¬ IsFunction (skipBlanks rest) u) ∧ IsValue rest v.toList
  property (r n v : String) :
    found = some (.code (.property r v) n) ↔
      IsName r.toList ∧ ∃ rest, Assigns s r.toList n.toList rest ∧
        (∀ u, ¬ IsFunction (skipBlanks rest) u) ∧ IsValue rest v.toList
  declaration (n v : String) :
    found = some (.code (.declaration v) n) ↔
      ∃ rest, Declares s n.toList rest ∧
        (∀ u, ¬ IsFunction (skipBlanks rest) u) ∧ IsValue rest v.toList
  prototypeProperty_of_value (h : AssignsValue s) (c n v : String) :
    found = some (.code (.prototypeProperty c v) n) ↔
      IsName c.toList ∧ (∃ rest, Assigns s (c.toList ++ '.' :: prototypeWord) n.toList rest) ∧
        v.toList = (assignedText s).takeWhile (· != ';')
  property_of_value (h : AssignsValue s) (r n v : String) :
    found = some (.code (.property r v) n) ↔
      IsName r.toList ∧ (∃ rest, Assigns s r.toList n.toList rest) ∧
        v.toList = (assignedText s).takeWhile (· != ';')
  declaration_of_value (h : AssignsValue s) (n v : String) :
    found = some (.code (.declaration v) n) ↔
      (∃ rest, Declares s n.toList rest) ∧ v.toList = (assignedText s).takeWhile (· != ';')

namespace Line

section
variable {l : Line}

theorem functionStatement_iff (n : String) :
    (∃ ps, l.classify = some (.code (.functionStatement ps) n)) ↔
      ∃ rest, StatesFunction l.stripped n.toList rest := by
  constructor
  · rintro ⟨ps, h⟩
    exact fitsIn_of_classify h
  · rintro ⟨rest, h⟩
    rw [classify_of_statesFunction h, String.ofList_toList]
    exact ⟨_, rfl⟩

theorem functionExpression_iff (n : String) :
    (∃ ps, l.classify = some (.code (.functionExpression none ps) n)) ↔
      ∃ rest u, Declares l.stripped n.toList rest ∧ IsFunction (skipBlanks rest) u := by
  constructor
  · rintro ⟨ps, h⟩
    obtain ⟨rest, hdeclares, hps⟩ := fitsIn_of_classify h
    obtain ⟨u, hu⟩ := exists_functionValue?_iff.1 ⟨ps, hps⟩
    exact ⟨rest, u, hdeclares, hu⟩
  · rintro ⟨rest, u, hdeclares, hu⟩
    obtain ⟨ps, hps⟩ := exists_functionValue?_iff.2 ⟨u, hu⟩
    rw [classify_of_declares hdeclares, hps, String.ofList_toList]
    exact ⟨ps, rfl⟩

theorem exportedFunction_iff (r n : String) :
    (∃ ps, l.classify = some (.code (.functionExpression (some r) ps) n)) ↔
      r = "module.exports" ∧ ∃ rest u, Exports l.stripped rest ∧
        IsFunction (skipBlanks rest) u ∧ n.toList = ownName u := by
  constructor
  · rintro ⟨ps, h⟩
    obtain ⟨rfl, rest, u, hexports, hu⟩ := fitsIn_of_classify h
    obtain ⟨ps', hclass⟩ := classify_of_export hexports hu
    cases h.symm.trans hclass
    exact ⟨rfl, rest, u, hexports, hu, String.toList_ofList⟩
  · rintro ⟨rfl, rest, u, hexports, hu, hn⟩
    obtain ⟨ps, hclass⟩ := classify_of_export hexports hu
    rw [← hn, String.ofList_toList] at hclass
    exact ⟨ps, hclass⟩

theorem prototypeMethod_iff (c n : String) :
    (∃ ps, l.classify = some (.code (.prototypeMethod c ps) n)) ↔
      IsName c.toList ∧ ∃ rest u,
        Assigns l.stripped (c.toList ++ '.' :: prototypeWord) n.toList rest ∧
          IsFunction (skipBlanks rest) u := by
  constructor
  · rintro ⟨ps, h⟩
    obtain ⟨hc, rest, hassigns, hps⟩ := fitsIn_of_classify h
    obtain ⟨u, hu⟩ := exists_functionValue?_iff.1 ⟨ps, hps⟩
    exact ⟨hc, rest, u, hassigns, hu⟩
  · rintro ⟨hc, rest, u, hassigns, hu⟩
    obtain ⟨ps, hps⟩ := exists_functionValue?_iff.2 ⟨u, hu⟩
    rw [classify_of_prototype_member hc hassigns, hps, String.ofList_toList, String.ofList_toList]
    exact ⟨ps, rfl⟩

theorem method_iff (r n : String) :
    (∃ ps, l.classify = some (.code (.method r ps) n)) ↔
      (∃ rest u, Assigns l.stripped r.toList n.toList rest ∧ IsFunction (skipBlanks rest) u) ∧
      (¬ ∃ rest u, Exports l.stripped rest ∧ IsFunction (skipBlanks rest) u) ∧
      ¬ ∃ c m rest u, IsName c ∧ Assigns l.stripped (c ++ '.' :: prototypeWord) m rest ∧
        IsFunction (skipBlanks rest) u := by
  constructor
  · rintro ⟨ps, h⟩
    obtain ⟨rest, hassigns, hps⟩ := fitsIn_of_classify h
    obtain ⟨u, hu⟩ := exists_functionValue?_iff.1 ⟨ps, hps⟩
    refine ⟨⟨rest, u, hassigns, hu⟩, ?_, ?_⟩
    · rintro ⟨rest', u', hexports, hu'⟩
      obtain ⟨ps', hclass⟩ := classify_of_export hexports hu'
      cases h.symm.trans hclass
    · rintro ⟨c, m, rest', u', hc, hassigns', hu'⟩
      obtain ⟨ps', hps'⟩ := exists_functionValue?_iff.2 ⟨u', hu'⟩
      rw [classify_of_prototype_member hc hassigns', hps'] at h
      cases h
  · rintro ⟨⟨rest, u, hassigns, hu⟩, hexports, hprototype⟩
    obtain ⟨ps, hps⟩ := exists_functionValue?_iff.2 ⟨u, hu⟩
    rw [classify_of_member hassigns (fun he => hexports ⟨rest, u, hassigns.exports he, hu⟩)
      fun c hc he => hprototype ⟨c, _, rest, u, hc, he ▸ hassigns, hu⟩, hps]
    exact ⟨ps, by simp⟩

/-- A value is found where no function is. -/
theorem or_eq_some_iff_of_other {rest : List Char} {f : List String → Finding}
    {o : Option Finding} {x : Finding} (hx : ∀ ps, f ps ≠ x) :
    ((functionValue? rest).map f).or o = some x ↔
      (∀ u, ¬ IsFunction (skipBlanks rest) u) ∧ o = some x := by
  rw [← functionValue?_eq_none_iff]
  cases functionValue? rest <;> simp [hx]

theorem value?_eq_some_iff_of_suffix {rest v : List Char} (hline : '\n' ∉ l.raw)
    (hrest : rest <:+ l.stripped) : value? rest = some v ↔ IsValue rest v :=
  value?_eq_some_iff fun hmem => hline ((hrest.trans (List.dropWhile_suffix _)).mem hmem)

theorem prototypeProperty_iff (hline : '\n' ∉ l.raw) (c n v : String) :
    l.classify = some (.code (.prototypeProperty c v) n) ↔
      IsName c.toList ∧ ∃ rest, Assigns l.stripped (c.toList ++ '.' :: prototypeWord) n.toList rest ∧
        (∀ u, ¬ IsFunction (skipBlanks rest) u) ∧ IsValue rest v.toList := by
  constructor
  · intro h
    obtain ⟨hc, rest, hassigns, hv⟩ := fitsIn_of_classify h
    rw [classify_of_prototype_member hc hassigns, or_eq_some_iff_of_other (by simp)] at h
    exact ⟨hc, rest, hassigns, h.1, (value?_eq_some_iff_of_suffix hline hassigns.suffix).1 hv⟩
  · rintro ⟨hc, rest, hassigns, hother, hv⟩
    rw [classify_of_prototype_member hc hassigns, or_eq_some_iff_of_other (by simp),
      (value?_eq_some_iff_of_suffix hline hassigns.suffix).2 hv]
    exact ⟨hother, by simp⟩

theorem IsName.ne_prototype {r : List Char} (h : IsName r) (c : List Char) :
    r ≠ c ++ '.' :: prototypeWord := by
  rintro rfl
  exact h.dot_not_mem (by simp)

theorem property_iff (hline : '\n' ∉ l.raw) (r n v : String) :
    l.classify = some (.code (.property r v) n) ↔
      IsName r.toList ∧ ∃ rest, Assigns l.stripped r.toList n.toList rest ∧
        (∀ u, ¬ IsFunction (skipBlanks rest) u) ∧ IsValue rest v.toList := by
  constructor
  · intro h
    obtain ⟨hr, rest, hassigns, hv⟩ := fitsIn_of_classify h
    refine ⟨hr, rest, hassigns, fun u hu => ?_,
      (value?_eq_some_iff_of_suffix hline hassigns.suffix).1 hv⟩
    -- What is exported is a member of a name too, so its line has both left sides.
    by_cases hpath : r.toList ++ '.' :: n.toList = exportsPath
    · obtain ⟨ps, hclass⟩ := classify_of_export (hassigns.exports hpath) hu
      cases h.symm.trans hclass
    · rw [classify_of_member hassigns hpath fun c _ => hr.ne_prototype c,
        or_eq_some_iff_of_other (by simp)] at h
      exact h.1 u hu
  · rintro ⟨hr, rest, hassigns, hother, hv⟩
    rw [classify_of_assigns hassigns, exported?_of_assigns_other hassigns hother, Option.none_or,
      member?_of_assigns hassigns fun c _ => hr.ne_prototype c, if_pos hr,
      or_eq_some_iff_of_other (by simp),
      (value?_eq_some_iff_of_suffix hline hassigns.suffix).2 hv]
    exact ⟨hother, by simp⟩

theorem declaration_iff (hline : '\n' ∉ l.raw) (n v : String) :
    l.classify = some (.code (.declaration v) n) ↔
      ∃ rest, Declares l.stripped n.toList rest ∧
        (∀ u, ¬ IsFunction (skipBlanks rest) u) ∧ IsValue rest v.toList := by
  constructor
  · intro h
    obtain ⟨rest, hdeclares, hv⟩ := fitsIn_of_classify h
    rw [classify_of_declares hdeclares, or_eq_some_iff_of_other (by simp)] at h
    exact ⟨rest, hdeclares, h.1, (value?_eq_some_iff_of_suffix hline hdeclares.suffix).1 hv⟩
  · rintro ⟨rest, hdeclares, hother, hv⟩
    rw [classify_of_declares hdeclares, or_eq_some_iff_of_other (by simp),
      (value?_eq_some_iff_of_suffix hline hdeclares.suffix).2 hv]
    exact ⟨hother, by simp⟩

end

/-- Where a value is assigned, the conditions on it can be left to the text as a whole. -/
theorem AssignsValue.exists_iff {s v : List Char} {left : List Char → Prop} (h : AssignsValue s)
    (hleft : ∀ rest, left rest → assignedText s = skipBlanks rest) :
    (∃ rest, left rest ∧ (∀ u, ¬ IsFunction (skipBlanks rest) u) ∧ IsValue rest v) ↔
      (∃ rest, left rest) ∧ v = (assignedText s).takeWhile (· != ';') := by
  constructor
  · rintro ⟨rest, hrest, hvalue⟩
    exact ⟨⟨rest, hrest⟩, (h.isValue_iff (hleft rest hrest)).1 hvalue⟩
  · rintro ⟨⟨rest, hrest⟩, hv⟩
    exact ⟨rest, hrest, (h.isValue_iff (hleft rest hrest)).2 hv⟩

end Line

open Line in
/-- Every line that is one line follows the grammar. -/
theorem classify_follows_grammar (l : Line) (hline : '\n' ∉ l.raw) :
    FollowsGrammar l.stripped l.classify where
  commentOpen := by
    rw [classify_eq_commentOpen_iff]
    exact ⟨fun ⟨rest, h⟩ => ⟨rest, h.symm⟩, fun ⟨rest, h⟩ => ⟨rest, h.symm⟩⟩
  functionStatement := functionStatement_iff
  functionExpression := functionExpression_iff
  exportedFunction := exportedFunction_iff
  prototypeMethod := prototypeMethod_iff
  method := method_iff
  prototypeProperty := prototypeProperty_iff hline
  property := property_iff hline
  declaration := declaration_iff hline
  prototypeProperty_of_value h c n v := by
    rw [prototypeProperty_iff hline, h.exists_iff fun _ => Assigns.assignedText_eq]
  property_of_value h r n v := by
    rw [property_iff hline, h.exists_iff fun _ => Assigns.assignedText_eq]
  declaration_of_value h n v := by
    rw [declaration_iff hline, h.exists_iff fun _ => Declares.assignedText_eq]

open Line in
/-- An exported function with a name of its own, and the value of a member up to a semicolon. -/
theorem classify_follows_grammar_named_export_and_property :
    let named : Line := ⟨3, "\tmodule.exports =function \t$run".toList⟩
    let member : Line := ⟨4, "a.b =  c; d".toList⟩
    '\n' ∉ named.raw ∧
      (∃ ps, named.classify =
        some (.code (.functionExpression (some "module.exports") ps) "$run")) ∧
      '\n' ∉ member.raw ∧ AssignsValue member.stripped ∧
      member.classify = some (.code (.property "a" "c") "b") := by
  intro named member
  have hnamed : '\n' ∉ named.raw := by decide +kernel
  have hmember : '\n' ∉ member.raw := by decide +kernel
  have hvalue : AssignsValue member.stripped := by
    refine ⟨⟨'c', "; d".toList, by decide +kernel, by decide⟩, fun u hu => ?_⟩
    have hnone : function? (assignedText member.stripped) = none := by decide +kernel
    cases hnone.symm.trans (function?_eq_some_iff.2 hu)
  refine ⟨hnamed, ?_, hmember, hvalue, ?_⟩
  · exact ((classify_follows_grammar named hnamed).exportedFunction "module.exports" "$run").2
      ⟨rfl, "function \t$run".toList, " \t$run".toList,
        exportsTarget?_eq_some_iff.1 (by decide +kernel),
        function?_eq_some_iff.1 (by decide +kernel), by decide +kernel⟩
  · exact ((classify_follows_grammar member hmember).property_of_value hvalue "a" "b" "c").2
      ⟨by decide +kernel, ⟨"  c; d".toList, dottedTarget?_eq_some_iff.1 (by decide +kernel)⟩,
        by decide +kernel⟩

end ScriptOutline
