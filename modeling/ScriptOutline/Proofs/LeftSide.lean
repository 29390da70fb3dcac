import ScriptOutline.Line.Shape

/-!
What the readers of a line accept, as equations for its text. The longest dotted path that a line
starts with decides about its left side: `var`, `module.exports`, or a receiver and a member that
are parted at the last dot (`dottedTarget?_eq_some_iff`); the special left sides are cases of that
one (`prototypeTarget?_eq_some_iff`, `memberTarget?_eq_some_iff`).
-/

set_option autoImplicit false

namespace ScriptOutline.Line
open Text

/-- A run is the longest one if what follows it does not go on with it. -/
theorem takeWhile_dropWhile_eq_iff {p : Char → Bool} {s run rest : List Char} :
    s.takeWhile p = run ∧ s.dropWhile p = rest ↔
      s = run ++ rest ∧ (∀ c ∈ run, p c = true) ∧ ∀ c ∈ rest.head?, p c = false := by
  constructor
  · intro h
    obtain ⟨rfl, rfl⟩ := h
    refine ⟨List.takeWhile_append_dropWhile.symm, List.all_eq_true.1 List.all_takeWhile, ?_⟩
    intro c hc
    have hstop := List.head?_dropWhile_not p s
    rwa [Option.mem_def.1 hc] at hstop
  · intro h
    obtain ⟨rfl, hrun, hrest⟩ := h
    have hstop : rest.takeWhile p = [] ∧ rest.dropWhile p = rest := by
      cases rest with
      | nil => exact ⟨rfl, rfl⟩
      | cons c rest => simp [hrest c rfl]
    rw [List.takeWhile_append_of_pos hrun, List.dropWhile_append_of_pos hrun, hstop.1, hstop.2,
      List.append_nil]
    exact ⟨rfl, rfl⟩

/-- One name character or more. -/
def IsName (s : List Char) : Prop := s ≠ [] ∧ ∀ c ∈ s, isName c = true

/-- Names and dots in any order, one character or more. -/
def IsPath (s : List Char) : Prop := s ≠ [] ∧ ∀ c ∈ s, isDotted c = true

def IsBlanks (s : List Char) : Prop := ∀ c ∈ s, isBlank c = true

-- Only the characters of the list are to be tried, not all that there are.
instance : DecidablePred IsName := fun s =>
  decidable_of_iff (s ≠ [] ∧ s.all isName = true) (by rw [List.all_eq_true, IsName])

instance : DecidablePred IsPath := fun s =>
  decidable_of_iff (s ≠ [] ∧ s.all isDotted = true) (by rw [List.all_eq_true, IsPath])

theorem isDotted_of_isName {c : Char} (h : isName c = true) : isDotted c = true := by
  rw [isDotted, h, Bool.true_or]

theorem isDotted_of_isBlank {c : Char} (h : isBlank c = true) : isDotted c = false := by
  simp only [isBlank, Bool.or_eq_true, beq_iff_eq] at h
  rcases h with rfl | rfl <;> rfl

theorem isName_of_isBlank {c : Char} (h : isBlank c = true) : isName c = false := by
  have hdotted := isDotted_of_isBlank h
  rw [isDotted, Bool.or_eq_false_iff] at hdotted
  exact hdotted.1

/-- No whitespace belongs to a parameter. -/
theorem isParam_of_isWhitespace {c : Char} (h : isWhitespace c = true) : isParam c = false := by
  let codes := List.range' 0x9 5 ++ List.range' 0x2000 11 ++
    [0x20, 0x85, 0xA0, 0x1680, 0x2028, 0x2029, 0x202F, 0x205F, 0x3000]
  have hcodes : ∀ n ∈ codes, isParam (Char.ofNat n) = false := by decide +kernel
  have hmem : c.toNat ∈ codes := by
    simp only [isWhitespace, Bool.or_eq_true, Bool.and_eq_true, decide_eq_true_eq,
      beq_iff_eq] at h
    simp only [codes, List.mem_append, List.mem_range'_1, List.mem_cons, List.not_mem_nil]
    omega
  rw [← Char.ofNat_toNat c]
  exact hcodes _ hmem

theorem isWord_of_isDotted {c : Char} (h : isDotted c = false) : isWord c = false := by
  simp only [isDotted, isName, Bool.or_eq_false_iff] at h
  exact h.1.1

theorem IsName.isPath {s : List Char} (h : IsName s) : IsPath s :=
  ⟨h.1, fun c hc => isDotted_of_isName (h.2 c hc)⟩

theorem IsName.dot_not_mem {s : List Char} (h : IsName s) : '.' ∉ s :=
  fun hdot => absurd (h.2 '.' hdot) (by decide)

theorem isName_of_isDotted {s : List Char} (h : ∀ c ∈ s, isDotted c = true) (hdot : '.' ∉ s) :
    ∀ c ∈ s, isName c = true := by
  intro c hc
  have hd := h c hc
  rw [isDotted, Bool.or_eq_true, beq_iff_eq] at hd
  rcases hd with hn | rfl
  · exact hn
  · exact absurd hc hdot

/-- No blank is skipped in front of a name. -/
theorem IsName.head?_append {s : List Char} (h : IsName s) (rest : List Char) :
    ∀ c ∈ (s ++ rest).head?, isBlank c = false := by
  obtain ⟨d, s, rfl⟩ := List.exists_cons_of_ne_nil h.1
  rintro c ⟨⟩
  cases hblank : isBlank d with
  | false => rfl
  | true => cases (h.2 d List.mem_cons_self).symm.trans (isName_of_isBlank hblank)

/-! Readers. -/

theorem name?_eq_some_iff {s n rest : List Char} :
    name? s = some (n, rest) ↔
      s = n ++ rest ∧ IsName n ∧ ∀ c ∈ rest.head?, isName c = false := by
  rw [name?]
  split
  · rename_i hempty
    refine iff_of_false (by simp) fun h => h.2.1.1 ?_
    rw [← (takeWhile_dropWhile_eq_iff.2 ⟨h.1, h.2.1.2, h.2.2⟩).1]
    exact List.isEmpty_iff.1 hempty
  · rename_i hempty
    rw [Option.some_inj, Prod.mk.injEq, takeWhile_dropWhile_eq_iff, IsName]
    refine and_congr_right fun hs => ⟨fun h => ⟨⟨?_, h.1⟩, h.2⟩, fun h => ⟨h.1.2, h.2⟩⟩
    rintro rfl
    rw [(takeWhile_dropWhile_eq_iff.2 ⟨hs, h⟩).1] at hempty
    exact hempty rfl

theorem blanks?_eq_some_iff {s rest : List Char} :
    blanks? s = some rest ↔
      ∃ b, b ≠ [] ∧ IsBlanks b ∧ s = b ++ rest ∧ ∀ c ∈ rest.head?, isBlank c = false := by
  cases s with
  | nil =>
    refine iff_of_false (by simp [blanks?]) ?_
    rintro ⟨b, hne, -, hb, -⟩
    exact hne (List.append_eq_nil_iff.1 hb.symm).1
  | cons c s =>
    rw [blanks?]
    constructor
    · intro h
      split at h
      · rename_i hc
        obtain ⟨hs, hb, hrest⟩ := takeWhile_dropWhile_eq_iff.1 ⟨rfl, Option.some_inj.1 h⟩
        exact ⟨c :: s.takeWhile isBlank, List.cons_ne_nil _ _,
          List.forall_mem_cons.2 ⟨hc, hb⟩, congrArg (c :: ·) hs, hrest⟩
      · cases h
    · intro h
      obtain ⟨b, hne, hb, hs, hrest⟩ := h
      obtain ⟨d, b, rfl⟩ := List.exists_cons_of_ne_nil hne
      rw [List.cons_append, List.cons.injEq] at hs
      obtain ⟨rfl, hs⟩ := hs
      obtain ⟨hc, hb⟩ := List.forall_mem_cons.1 hb
      rw [if_pos hc, skipBlanks, (takeWhile_dropWhile_eq_iff.2 ⟨hs, hb, hrest⟩).2]

theorem skipBlanks_append {b rest : List Char} (hb : IsBlanks b)
    (hrest : ∀ c ∈ rest.head?, isBlank c = false) : skipBlanks (b ++ rest) = rest :=
  (takeWhile_dropWhile_eq_iff.2 ⟨rfl, hb, hrest⟩).2

theorem skipBlanks_eq_cons_iff {c : Char} {s rest : List Char} (hc : isBlank c = false) :
    skipBlanks s = c :: rest ↔ ∃ b, IsBlanks b ∧ s = b ++ c :: rest := by
  constructor
  · intro h
    obtain ⟨hs, hb, -⟩ := takeWhile_dropWhile_eq_iff.1 ⟨rfl, h⟩
    exact ⟨_, hb, hs⟩
  · intro h
    obtain ⟨b, hb, rfl⟩ := h
    refine skipBlanks_append hb ?_
    rintro d ⟨⟩
    exact hc

theorem equals?_eq_some_iff {s rest : List Char} :
    equals? s = some rest ↔ ∃ b, IsBlanks b ∧ s = b ++ '=' :: rest := by
  rw [← skipBlanks_eq_cons_iff rfl, equals?]
  split <;> simp_all

theorem group?_eq_some_iff {s list : List Char} :
    group? s = some list ↔ ∃ rest, s = '(' :: rest ∧ rest.takeWhile (· != ')') = list := by
  fun_cases group? s <;> simp_all

theorem head?_blanks {b : List Char} (hne : b ≠ []) (hb : IsBlanks b) (rest : List Char) :
    ∀ c ∈ (b ++ rest).head?, isDotted c = false := by
  obtain ⟨d, b, rfl⟩ := List.exists_cons_of_ne_nil hne
  rintro c ⟨⟩
  exact isDotted_of_isBlank (hb d List.mem_cons_self)

/-- Blanks and what ends a path do not belong to it. -/
theorem head?_blanks_cons {b : List Char} {d : Char} (hb : IsBlanks b) (hd : isDotted d = false)
    (rest : List Char) : ∀ c ∈ (b ++ d :: rest).head?, isDotted c = false := by
  cases b with
  | nil =>
    rintro c ⟨⟩
    exact hd
  | cons e b => exact head?_blanks (List.cons_ne_nil e b) hb _

theorem name?_append {n b rest : List Char} {d : Char} (hn : IsName n) (hb : IsBlanks b)
    (hd : isDotted d = false) : name? (n ++ (b ++ d :: rest)) = some (n, b ++ d :: rest) := by
  refine name?_eq_some_iff.2 ⟨rfl, hn, fun c hc => ?_⟩
  have hdotted := head?_blanks_cons hb hd rest c hc
  cases hname : isName c with
  | false => rfl
  | true => cases (isDotted_of_isName hname).symm.trans hdotted

theorem name?_assigned {n b rest : List Char} (hn : IsName n) (hb : IsBlanks b) :
    name? (n ++ (b ++ '=' :: rest)) = some (n, b ++ '=' :: rest) :=
  name?_append hn hb rfl

/-! Left sides. -/

/-- A text declares the variable `n`. -/
def Declares (s n rest : List Char) : Prop :=
  IsName n ∧ ∃ b b', b ≠ [] ∧ IsBlanks b ∧ IsBlanks b' ∧
    s = varWord ++ (b ++ (n ++ (b' ++ '=' :: rest)))

/-- A left side does not depend on what is assigned. -/
theorem Declares.exists_left {s n rest : List Char} (h : Declares s n rest) :
    ∃ left, s = left ++ '=' :: rest ∧ ∀ rest', Declares (left ++ '=' :: rest') n rest' := by
  obtain ⟨hn, b, b', hne, hb, hb', rfl⟩ := h
  exact ⟨varWord ++ (b ++ (n ++ b')), by simp, fun rest' => ⟨hn, b, b', hne, hb, hb', by simp⟩⟩

theorem Declares.suffix {s n rest : List Char} (h : Declares s n rest) : rest <:+ s := by
  obtain ⟨left, rfl, -⟩ := h.exists_left
  exact (List.suffix_cons '=' rest).trans (List.suffix_append left _)

theorem varTarget?_eq_some_iff {s n rest : List Char} :
    varTarget? s = some (n, rest) ↔ Declares s n rest := by
  constructor
  · intro h
    obtain ⟨s₁, hvar, h⟩ := Option.bind_eq_some_iff.1 h
    obtain ⟨s₂, hblanks, h⟩ := Option.bind_eq_some_iff.1 h
    obtain ⟨⟨n', s₃⟩, hname, h⟩ := Option.bind_eq_some_iff.1 h
    obtain ⟨rest', hequals, h⟩ := Option.bind_eq_some_iff.1 h
    cases h
    obtain rfl := after?_eq_some_iff.1 hvar
    obtain ⟨b, hne, hb, rfl, -⟩ := blanks?_eq_some_iff.1 hblanks
    obtain ⟨rfl, hn, -⟩ := name?_eq_some_iff.1 hname
    obtain ⟨b', hb', rfl⟩ := equals?_eq_some_iff.1 hequals
    exact ⟨hn, b, b', hne, hb, hb', rfl⟩
  · intro h
    obtain ⟨hn, b, b', hne, hb, hb', rfl⟩ := h
    have hvar : after? varWord (varWord ++ (b ++ (n ++ (b' ++ '=' :: rest)))) =
        some (b ++ (n ++ (b' ++ '=' :: rest))) := after?_eq_some_iff.2 rfl
    have hblanks : blanks? (b ++ (n ++ (b' ++ '=' :: rest))) =
        some (n ++ (b' ++ '=' :: rest)) :=
      blanks?_eq_some_iff.2 ⟨b, hne, hb, rfl, hn.head?_append _⟩
    have hequals : equals? (b' ++ '=' :: rest) = some rest :=
      equals?_eq_some_iff.2 ⟨b', hb', rfl⟩
    simp [varTarget?, hvar, hblanks, name?_assigned hn hb', hequals]

/-- A text assigns to what a module exports. -/
def Exports (s rest : List Char) : Prop :=
  ∃ b, IsBlanks b ∧ s = exportsPath ++ (b ++ '=' :: rest)

theorem exportsTarget?_eq_some_iff {s rest : List Char} :
    exportsTarget? s = some rest ↔ Exports s rest := by
  simp only [exportsTarget?, Option.bind_eq_bind, Option.bind_eq_some_iff, after?_eq_some_iff,
    equals?_eq_some_iff, Exports]
  constructor
  · rintro ⟨s₁, rfl, b, hb, rfl⟩
    exact ⟨b, hb, rfl⟩
  · rintro ⟨b, hb, rfl⟩
    exact ⟨_, rfl, b, hb, rfl⟩

/-- A text assigns to the member `n` of a path `r`. -/
def Assigns (s r n rest : List Char) : Prop :=
  IsPath r ∧ IsName n ∧ ∃ b, IsBlanks b ∧ s = r ++ '.' :: n ++ (b ++ '=' :: rest)

theorem Assigns.exists_left {s r n rest : List Char} (h : Assigns s r n rest) :
    ∃ left, s = left ++ '=' :: rest ∧ ∀ rest', Assigns (left ++ '=' :: rest') r n rest' := by
  obtain ⟨hr, hn, b, hb, rfl⟩ := h
  exact ⟨r ++ '.' :: n ++ b, by simp, fun rest' => ⟨hr, hn, b, hb, by simp⟩⟩

theorem Assigns.suffix {s r n rest : List Char} (h : Assigns s r n rest) : rest <:+ s := by
  obtain ⟨left, rfl, -⟩ := h.exists_left
  exact (List.suffix_cons '=' rest).trans (List.suffix_append left _)

theorem Assigns.takeWhile_dropWhile {s r n rest : List Char} (h : Assigns s r n rest) :
    s.takeWhile isDotted = r ++ '.' :: n ∧
      ∃ b, IsBlanks b ∧ s.dropWhile isDotted = b ++ '=' :: rest := by
  obtain ⟨hr, hn, b, hb, hs⟩ := h
  have hpath : ∀ c ∈ r ++ '.' :: n, isDotted c = true := by
    rw [List.forall_mem_append, List.forall_mem_cons]
    exact ⟨hr.2, rfl, hn.isPath.2⟩
  obtain ⟨htake, hdrop⟩ :=
    takeWhile_dropWhile_eq_iff.2 ⟨hs, hpath, head?_blanks_cons hb rfl rest⟩
  exact ⟨htake, b, hb, hdrop⟩

theorem dottedTarget?_eq_some_iff {s r n rest : List Char} :
    dottedTarget? s = some (r, n, rest) ↔ Assigns s r n rest := by
  constructor
  · intro h
    obtain ⟨⟨r', n'⟩, hsplit, h⟩ := Option.bind_eq_some_iff.1 h
    by_cases hempty : r'.isEmpty || n'.isEmpty
    · simp [hempty] at h
    · obtain ⟨rest', hequals, h⟩ := Option.bind_eq_some_iff.1 (by simpa [hempty] using h)
      cases h
      obtain ⟨hpath, hdot⟩ := splitLast_eq_some_iff.1 hsplit
      obtain ⟨b, hb, hdrop⟩ := equals?_eq_some_iff.1 hequals
      obtain ⟨hs, hdotted, -⟩ := takeWhile_dropWhile_eq_iff.1 ⟨hpath, hdrop⟩
      rw [List.forall_mem_append, List.forall_mem_cons] at hdotted
      rw [Bool.or_eq_true, not_or, List.isEmpty_iff, List.isEmpty_iff] at hempty
      exact ⟨⟨hempty.1, hdotted.1⟩, ⟨hempty.2, isName_of_isDotted hdotted.2.2 hdot⟩, b, hb, hs⟩
  · intro h
    obtain ⟨htake, b, hb, hdrop⟩ := h.takeWhile_dropWhile
    have hsplit : splitLast (s.takeWhile isDotted) = some (r, n) :=
      splitLast_eq_some_iff.2 ⟨htake, h.2.1.dot_not_mem⟩
    have hequals : equals? (s.dropWhile isDotted) = some rest :=
      equals?_eq_some_iff.2 ⟨b, hb, hdrop⟩
    simp [dottedTarget?, hsplit, hequals, h.1.1, h.2.1.1]

theorem name?_dot {n : List Char} (hn : IsName n) (rest : List Char) :
    name? (n ++ '.' :: rest) = some (n, '.' :: rest) := by
  refine name?_eq_some_iff.2 ⟨rfl, hn, ?_⟩
  rintro c ⟨⟩
  rfl

/-- The left side of a member is that of a path which is one name. -/
theorem memberTarget?_eq_some_iff {s r n rest : List Char} :
    memberTarget? s = some (r, n, rest) ↔ IsName r ∧ Assigns s r n rest := by
  constructor
  · intro h
    obtain ⟨⟨r', s₁⟩, hreceiver, h⟩ := Option.bind_eq_some_iff.1 h
    obtain ⟨s₂, hdot, h⟩ := Option.bind_eq_some_iff.1 h
    obtain ⟨⟨n', s₃⟩, hmember, h⟩ := Option.bind_eq_some_iff.1 h
    obtain ⟨rest', hequals, h⟩ := Option.bind_eq_some_iff.1 h
    cases h
    obtain ⟨rfl, hr, -⟩ := name?_eq_some_iff.1 hreceiver
    obtain rfl := after?_eq_some_iff.1 hdot
    obtain ⟨rfl, hn, -⟩ := name?_eq_some_iff.1 hmember
    obtain ⟨b, hb, rfl⟩ := equals?_eq_some_iff.1 hequals
    exact ⟨hr, hr.isPath, hn, b, hb, by simp⟩
  · intro h
    obtain ⟨hr, -, hn, b, hb, rfl⟩ := h
    have hequals : equals? (b ++ '=' :: rest) = some rest := equals?_eq_some_iff.2 ⟨b, hb, rfl⟩
    simp [memberTarget?, name?_dot hr, after?, name?_assigned hn hb, hequals]

def prototypeWord : List Char := ['p', 'r', 'o', 't', 'o', 't', 'y', 'p', 'e']

/-- The left side of a member of a prototype is that of a path which is a name and then
`prototype`. -/
theorem prototypeTarget?_eq_some_iff {s c n rest : List Char} :
    prototypeTarget? s = some (c, n, rest) ↔
      IsName c ∧ Assigns s (c ++ '.' :: prototypeWord) n rest := by
  have hword : IsPath ('.' :: prototypeWord) := by decide
  constructor
  · intro h
    obtain ⟨⟨c', s₁⟩, howner, h⟩ := Option.bind_eq_some_iff.1 h
    obtain ⟨s₂, hstep, h⟩ := Option.bind_eq_some_iff.1 h
    obtain ⟨⟨n', s₃⟩, hmember, h⟩ := Option.bind_eq_some_iff.1 h
    obtain ⟨rest', hequals, h⟩ := Option.bind_eq_some_iff.1 h
    cases h
    obtain ⟨rfl, hc, -⟩ := name?_eq_some_iff.1 howner
    obtain rfl := after?_eq_some_iff.1 hstep
    obtain ⟨rfl, hn, -⟩ := name?_eq_some_iff.1 hmember
    obtain ⟨b, hb, rfl⟩ := equals?_eq_some_iff.1 hequals
    refine ⟨hc, ⟨by simp, ?_⟩, hn, b, hb, by simp [prototypeStep, prototypeWord]⟩
    exact List.forall_mem_append.2 ⟨hc.isPath.2, hword.2⟩
  · intro h
    obtain ⟨hc, -, hn, b, hb, rfl⟩ := h
    have hequals : equals? (b ++ '=' :: rest) = some rest := equals?_eq_some_iff.2 ⟨b, hb, rfl⟩
    simp [prototypeTarget?, name?_dot hc, after?, prototypeStep, prototypeWord,
      name?_assigned hn hb, hequals]

end ScriptOutline.Line
