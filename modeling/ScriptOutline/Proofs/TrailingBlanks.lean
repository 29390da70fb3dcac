import ScriptOutline.Proofs.Assignment

/-!
Blanks behind a line. Every reader leaves them where they are: what it takes is the same, and what
it hands on has the blanks behind it (`Padded`). Only a value may take them in, and it has to where
nothing but blanks is left for it. So blanks behind a line change what is found in it, blanks at
the end of its value aside, exactly if the line ends with the sign of an assignment
(`trailing_blanks_change_finding_iff`).
-/

set_option autoImplicit false

namespace ScriptOutline
open Text

namespace Line

/-- The second text is the first one with blanks behind it. -/
def Padded (s t : List Char) : Prop := ∃ b, IsBlanks b ∧ t = s ++ b

/-- The text behind the blanks is the value if nothing in it ends a value. -/
theorem value?_eq_skipBlanks {s : List Char} (hne : skipBlanks s ≠ [])
    (h : ∀ c ∈ skipBlanks s, (c != '\n' && c != ';') = true) : value? s = some (skipBlanks s) := by
  have hv := value?_of_skipBlanks (List.append_nil _).symm hne (by simpa using h)
  rwa [List.takeWhile_nil, List.append_nil] at hv

theorem value?_of_isBlanks {s : List Char} (hb : IsBlanks s) (hne : s ≠ []) :
    value? s = some [s.getLast hne] := by
  rw [value?, skipBlanks, List.dropWhile_eq_nil_iff.2 hb, List.takeWhile_eq_self_iff.2 hb,
    List.takeWhile_nil, List.getLast?_eq_some_getLast hne]
  rfl

namespace Padded
variable {s t : List Char}

/-! Runs. -/

/-- A run of other characters ends before the blanks. -/
theorem split_run {p : Char → Bool} (h : Padded s t) (hp : ∀ c, isBlank c = true → p c = false) :
    t.takeWhile p = s.takeWhile p ∧ Padded (s.dropWhile p) (t.dropWhile p) := by
  obtain ⟨b, hb, rfl⟩ := h
  obtain ⟨hs, hrun, hrest⟩ := (takeWhile_dropWhile_eq_iff (p := p) (s := s)).1 ⟨rfl, rfl⟩
  have hend : ∀ c ∈ (s.dropWhile p ++ b).head?, p c = false := by
    cases hdrop : s.dropWhile p with
    | nil => exact fun c hc => hp c (hb c (List.mem_of_mem_head? hc))
    | cons d rest => exact fun c hc => hrest c (hdrop ▸ hc)
  have hsplit := takeWhile_dropWhile_eq_iff.2
    ⟨(congrArg (· ++ b) hs).trans (List.append_assoc ..), hrun, hend⟩
  exact ⟨hsplit.1, b, hb, hsplit.2⟩

/-- A run that may hold blanks takes them in if it takes in all else. -/
theorem split_blankRun {p : Char → Bool} (h : Padded s t)
    (hp : ∀ c, isBlank c = true → p c = true) :
    ((∀ c ∈ t, p c = true) ∧ ∀ c ∈ s, p c = true) ∨
      s.dropWhile p ≠ [] ∧ t.takeWhile p = s.takeWhile p ∧
        Padded (s.dropWhile p) (t.dropWhile p) := by
  obtain ⟨b, hb, rfl⟩ := h
  cases hdrop : s.dropWhile p with
  | nil =>
    have hs : ∀ c ∈ s, p c = true := by simpa using hdrop
    exact .inl ⟨List.forall_mem_append.2 ⟨hs, fun c hc => hp c (hb c hc)⟩, hs⟩
  | cons d rest =>
    obtain ⟨hs, hrun, hrest⟩ := takeWhile_dropWhile_eq_iff.1 ⟨rfl, hdrop⟩
    have hsplit := takeWhile_dropWhile_eq_iff.2
      ⟨(congrArg (· ++ b) hs).trans (List.append_assoc ..), hrun, hrest⟩
    exact .inr ⟨List.cons_ne_nil _ _, hsplit.1, b, hb, hsplit.2⟩

theorem dropWhile {p : Char → Bool} (h : Padded s t) (hp : ∀ c, isBlank c = true → p c = true) :
    Padded (s.dropWhile p) (t.dropWhile p) := by
  obtain ⟨ht, hs⟩ | ⟨-, -, hrest⟩ := h.split_blankRun hp
  · rw [List.dropWhile_eq_nil_iff.2 ht, List.dropWhile_eq_nil_iff.2 hs]
    exact ⟨[], List.forall_mem_nil _, rfl⟩
  · exact hrest

theorem takeWhile {p : Char → Bool} (h : Padded s t) (hp : ∀ c, isBlank c = true → p c = true) :
    Padded (s.takeWhile p) (t.takeWhile p) := by
  obtain ⟨ht, hs⟩ | ⟨-, hrun, -⟩ := h.split_blankRun hp
  · rwa [List.takeWhile_eq_self_iff.2 ht, List.takeWhile_eq_self_iff.2 hs]
  · exact ⟨[], List.forall_mem_nil _, by rw [hrun, List.append_nil]⟩

theorem skipBlanks (h : Padded s t) : Padded (skipBlanks s) (skipBlanks t) :=
  h.dropWhile fun _ => id

theorem trimStart (h : Padded s t) : Padded (trimStart s) (trimStart t) :=
  h.dropWhile fun _ => isWhitespace_of_isBlank

/-! Functions. -/

/-- Both texts begin with the same character, or only the blanks are left. -/
theorem cases_head (h : Padded s t) :
    (s = [] ∧ IsBlanks t) ∨ ∃ c s' t', s = c :: s' ∧ t = c :: t' ∧ Padded s' t' := by
  obtain ⟨b, hb, rfl⟩ := h
  cases s with
  | nil => exact .inl ⟨rfl, hb⟩
  | cons c s => exact .inr ⟨c, s, s ++ b, rfl, rfl, b, hb, rfl⟩

theorem params_eq (h : Padded s t) : params t = params s := by
  obtain ⟨b, hb, rfl⟩ := h
  rw [params, params, runs_append_of_forall fun c hc =>
    isParam_of_isWhitespace (isWhitespace_of_isBlank (hb c hc))]

/-- What stands before a closing parenthesis may go on with the blanks, but no parameter does. -/
theorem listParams_eq (h : Padded s t) :
    params (t.takeWhile (· != ')')) = params (s.takeWhile (· != ')')) := by
  have hlist : Padded (s.takeWhile (· != ')')) (t.takeWhile (· != ')')) := by
    refine h.takeWhile fun c hc => ?_
    rw [bne_iff_ne]
    rintro rfl
    cases hc
  exact hlist.params_eq

theorem group?_eq (h : Padded s t) : (group? t).map params = (group? s).map params := by
  obtain ⟨rfl, hb⟩ | ⟨c, s, t, rfl, rfl, htail⟩ := h.cases_head
  · cases t with
    | nil => rfl
    | cons c t =>
      have hopen : c ≠ '(' := by
        rintro rfl
        exact absurd (hb _ List.mem_cons_self) (by decide)
      simp [group?, hopen]
  · by_cases hopen : c = '('
    · subst hopen
      exact congrArg some htail.listParams_eq
    · simp [group?, hopen]

/-- What follows a character that is no blank follows it in both texts. -/
theorem of_sign {left rest : List Char} {d : Char} (h : Padded s t) (hd : isBlank d = false)
    (ht : t = left ++ d :: rest) : ∃ rest', s = left ++ d :: rest' ∧ Padded rest' rest := by
  obtain ⟨b, hb, rfl⟩ := h
  have hblanks : ∀ x, b ≠ x ++ d :: rest := by
    rintro x rfl
    cases hd.symm.trans (hb d (by simp))
  obtain ⟨x, -, hx⟩ | ⟨x, rfl, hx⟩ := List.append_eq_append_iff.1 ht
  · exact absurd hx (hblanks x)
  · cases x with
    | nil => exact absurd hx.symm (hblanks [])
    | cons e x =>
      obtain ⟨rfl, rfl⟩ := List.cons.inj hx
      exact ⟨x, rfl, b, hb, rfl⟩

theorem isFunction {u : List Char} (h : Padded s t) (hu : IsFunction s u) :
    ∃ u', IsFunction t u' ∧ Padded u u' := by
  obtain ⟨b, hb, rfl⟩ := h
  obtain ⟨rfl, hend⟩ := hu
  refine ⟨u ++ b, ⟨List.append_assoc .., ?_⟩, b, hb, rfl⟩
  cases u with
  | nil =>
    exact fun c hc => isWord_of_isDotted (isDotted_of_isBlank (hb c (List.mem_of_mem_head? hc)))
  | cons d u => exact hend

theorem of_isFunction {u : List Char} (h : Padded s t) (hu : IsFunction t u) :
    ∃ u', IsFunction s u' ∧ Padded u' u := by
  have ht : t = functionWord.dropLast ++ 'n' :: u := hu.1
  obtain ⟨u', hs, hpadded⟩ := h.of_sign rfl ht
  refine ⟨u', ⟨hs, fun c hc => hu.2 c ?_⟩, hpadded⟩
  obtain ⟨b, -, rfl⟩ := hpadded
  obtain ⟨w, rfl⟩ := List.head?_eq_some_iff.1 hc
  rfl

theorem functionValue?_eq (h : Padded s t) : functionValue? t = functionValue? s := by
  cases hs : functionValue? s with
  | none =>
    rw [functionValue?_eq_none_iff] at hs ⊢
    intro u hu
    obtain ⟨u', hu', -⟩ := h.skipBlanks.of_isFunction hu
    exact hs u' hu'
  | some ps =>
    obtain ⟨u, hu, rfl⟩ := Option.map_eq_some_iff.1 hs
    obtain ⟨u', hu', hpadded⟩ := h.skipBlanks.isFunction (function?_eq_some_iff.1 hu)
    have hlist := (hpadded.skipBlanks.split_run fun _ => isName_of_isBlank).2.skipBlanks.group?_eq
    rw [functionValue?, function?_eq_some_iff.2 hu', Option.map_some, hlist]

theorem ownName_eq (h : Padded s t) : ownName t = ownName s := by
  obtain ⟨rfl, hb⟩ | ⟨c, s, t, rfl, rfl, htail⟩ := h.cases_head
  · cases t with
    | nil => rfl
    | cons c t =>
      obtain ⟨hc, ht⟩ := List.forall_mem_cons.1 hb
      have hskip : Line.skipBlanks t = [] := List.dropWhile_eq_nil_iff.2 ht
      simp [ownName, blanks?, hc, hskip]
  · have hname := (htail.skipBlanks.split_run fun _ => isName_of_isBlank).1
    by_cases hc : isBlank c = true <;> simp [ownName, blanks?, hc, hname]

theorem exportParams_eq (h : Padded s t) : exportParams t = exportParams s := by
  rw [exportParams, exportParams, h.ownName_eq]
  split
  · rw [h.skipBlanks.group?_eq]
  · rw [(h.skipBlanks.split_run fun _ => isName_of_isBlank).2.skipBlanks.group?_eq]

/-! Values. -/

theorem rdropWhile_eq (h : Padded s t) : t.rdropWhile isBlank = s.rdropWhile isBlank := by
  obtain ⟨b, hb, rfl⟩ := h
  have hreverse : ∀ c ∈ b.reverse, isBlank c = true := fun c hc => hb c (List.mem_reverse.1 hc)
  rw [List.rdropWhile, List.reverse_append, List.dropWhile_append_of_pos hreverse, List.rdropWhile]

theorem value?_eq (h : Padded s t) (hs : s = [] → t = []) :
    (value? t).map (·.rdropWhile isBlank) = (value? s).map (·.rdropWhile isBlank) := by
  have hkeep : ∀ c, isBlank c = true → (c != '\n' && c != ';') = true := by
    intro c hc
    simp only [isBlank, Bool.or_eq_true, beq_iff_eq] at hc
    rcases hc with rfl | rfl <;> rfl
  obtain ⟨ht, hs'⟩ | ⟨hne, htake, hskip⟩ := h.split_blankRun (p := isBlank) fun _ => id
  · by_cases hnil : s = []
    · rw [hnil, hs hnil]
    · have hnil' : t ≠ [] := by
        obtain ⟨b, -, rfl⟩ := h
        exact List.append_ne_nil_of_left_ne_nil hnil b
      simp [value?_of_isBlanks hs' hnil, value?_of_isBlanks ht hnil', List.rdropWhile_singleton,
        hs' _ (List.getLast_mem hnil), ht _ (List.getLast_mem hnil')]
  · obtain ⟨ht, hs'⟩ | ⟨-, hvalue, -⟩ := hskip.split_blankRun hkeep
    · have hne' : Line.skipBlanks t ≠ [] := by
        obtain ⟨b, -, hb⟩ := hskip
        rw [Line.skipBlanks, hb]
        exact List.append_ne_nil_of_left_ne_nil hne b
      rw [value?_eq_skipBlanks hne hs', value?_eq_skipBlanks hne' ht]
      exact congrArg some hskip.rdropWhile_eq
    · rw [value?, value?, Line.skipBlanks, Line.skipBlanks, hvalue, htake]

/-! Left sides. -/

/-- What ends at a sign is a left side of both texts or of none. -/
theorem of_left {L : List Char → List Char → Prop} {d : Char} (h : Padded s t)
    (hd : isBlank d = false) (hL : ∀ s rest, L s rest →
      ∃ left, s = left ++ d :: rest ∧ ∀ rest', L (left ++ d :: rest') rest') :
    (∀ rest, L s rest → ∃ rest', L t rest' ∧ Padded rest rest') ∧
      ∀ rest', L t rest' → ∃ rest, L s rest ∧ Padded rest rest' := by
  constructor
  · intro rest hs
    obtain ⟨b, hb, rfl⟩ := h
    obtain ⟨left, rfl, hleft⟩ := hL s rest hs
    exact ⟨rest ++ b, by simpa using hleft (rest ++ b), b, hb, rfl⟩
  · intro rest' ht
    obtain ⟨left, ht', hleft⟩ := hL t rest' ht
    obtain ⟨rest, rfl, hpadded⟩ := h.of_sign hd ht'
    exact ⟨rest, hleft rest, hpadded⟩

end Padded

end Line

/-! Findings. -/

/-- The form with another value, if it has one. -/
def Form.mapValue (f : String → String) : Form → Form
  | property r v => property r (f v)
  | prototypeProperty c v => prototypeProperty c (f v)
  | declaration v => declaration (f v)
  | form => form

/-- A value without the blanks at its end. -/
def trimBlanks (v : String) : String := String.ofList (v.toList.rdropWhile isBlank)

/-- A finding without the blanks at the end of its value. -/
def Finding.trimmed : Finding → Finding
  | commentOpen => commentOpen
  | code form name => code (form.mapValue trimBlanks) name

namespace Line
variable {l m : Line}

theorem map_trimmed_eq {form : String → Form} {name : String} {v w : Option (List Char)}
    (hform : ∀ v, (form v).mapValue trimBlanks = form (trimBlanks v))
    (h : v.map (·.rdropWhile isBlank) = w.map (·.rdropWhile isBlank)) :
    (v.map fun v => Finding.code (form (String.ofList v)) name).map Finding.trimmed =
      (w.map fun v => Finding.code (form (String.ofList v)) name).map Finding.trimmed := by
  have hsplit : ∀ v : Option (List Char),
      (v.map fun v => Finding.code (form (String.ofList v)) name).map Finding.trimmed =
        (v.map (·.rdropWhile isBlank)).map fun v => Finding.code (form (String.ofList v)) name := by
    intro v
    cases v <;> simp [Finding.trimmed, hform, trimBlanks]
  rw [hsplit, hsplit, h]

theorem trimmed_or_eq {rest rest' : List Char} {f : List String → Finding} {form : String → Form}
    {name : String} (h : Padded rest rest') (hne : rest = [] → rest' = [])
    (hform : ∀ v, (form v).mapValue trimBlanks = form (trimBlanks v)) :
    (((functionValue? rest').map f).or
      ((value? rest').map fun v => .code (form (String.ofList v)) name)).map Finding.trimmed =
    (((functionValue? rest).map f).or
      ((value? rest).map fun v => .code (form (String.ofList v)) name)).map Finding.trimmed := by
  rw [Option.map_or, Option.map_or, h.functionValue?_eq, map_trimmed_eq hform (h.value?_eq hne)]

theorem exported?_padded {s t r n rest rest' : List Char} (hs : Assigns s r n rest)
    (ht : Assigns t r n rest') (h : Padded rest rest') : exported? t = exported? s := by
  by_cases hpath : r ++ '.' :: n = exportsPath
  · by_cases hu : ∃ u, IsFunction (skipBlanks rest) u
    · obtain ⟨u, hu⟩ := hu
      obtain ⟨u', hu', hpadded⟩ := h.skipBlanks.isFunction hu
      rw [exported?_of_function (hs.exports hpath) hu, exported?_of_function (ht.exports hpath) hu',
        hpadded.ownName_eq, hpadded.exportParams_eq]
    · have hu' : ∀ u, ¬ IsFunction (skipBlanks rest') u := by
        intro u hu'
        obtain ⟨u', hu'', -⟩ := h.skipBlanks.of_isFunction hu'
        exact hu ⟨u', hu''⟩
      rw [exported?_of_assigns_other hs (not_exists.1 hu), exported?_of_assigns_other ht hu']
  · rw [exported?_of_assigns hs hpath, exported?_of_assigns ht hpath]

/-- What assigns to a member assigns the same with blanks behind it. -/
theorem classify_assigns_padded {r n rest rest' : List Char} (hl : Assigns l.stripped r n rest)
    (hm : Assigns m.stripped r n rest') (h : Padded rest rest')
    (hsign : ¬ SetsValue l.stripped []) :
    m.classify.map Finding.trimmed = l.classify.map Finding.trimmed := by
  by_cases hprototype : ∃ c, IsName c ∧ r = c ++ '.' :: prototypeWord
  · obtain ⟨c, hc, rfl⟩ := hprototype
    have hne : rest = [] → rest' = [] := by
      rintro rfl
      exact absurd (.inr (.inr ⟨c, n, hc, hl⟩)) hsign
    rw [classify_of_prototype_member hc hl, classify_of_prototype_member hc hm]
    exact trimmed_or_eq h hne fun _ => rfl
  · have hprototype' : ∀ c, IsName c → r ≠ c ++ '.' :: prototypeWord :=
      fun c hc he => hprototype ⟨c, hc, he⟩
    have hmember : (member? m.stripped).map Finding.trimmed =
        (member? l.stripped).map Finding.trimmed := by
      rw [member?_of_assigns hl hprototype', member?_of_assigns hm hprototype']
      by_cases hr : IsName r
      · have hne : rest = [] → rest' = [] := by
          rintro rfl
          exact absurd (.inr (.inl ⟨r, n, hr, hl⟩)) hsign
        rw [if_pos hr, if_pos hr]
        exact trimmed_or_eq h hne fun _ => rfl
      · rw [if_neg hr, if_neg hr, h.functionValue?_eq]
    rw [classify_of_assigns hl, classify_of_assigns hm, Option.map_or, Option.map_or,
      exported?_padded hl hm h, hmember]

/-- Blanks behind a line that does not end with a sign add at most blanks to its value. -/
theorem classify_padded (h : Padded l.stripped m.stripped) (hsign : ¬ SetsValue l.stripped []) :
    m.classify.map Finding.trimmed = l.classify.map Finding.trimmed := by
  by_cases hcomment : Delimiter.opener.text <+: l.stripped
  · have hcomment' : Delimiter.opener.text <+: m.stripped := by
      obtain ⟨b, -, hb⟩ := h
      exact hb ▸ hcomment.trans (List.prefix_append _ _)
    rw [(classify_eq_commentOpen_iff l).2 hcomment, (classify_eq_commentOpen_iff m).2 hcomment']
  by_cases hstates : ∃ n rest, StatesFunction l.stripped n rest
  · obtain ⟨n, rest, hl⟩ := hstates
    obtain ⟨rest', hm, hpadded⟩ :=
      (h.of_left rfl fun s rest => StatesFunction.exists_left (n := n)).1 rest hl
    rw [classify_of_statesFunction hl, classify_of_statesFunction hm, hpadded.listParams_eq]
  by_cases hsets : ∃ rest, Sets l.stripped rest
  · obtain ⟨rest, ⟨n, hl⟩ | ⟨r, n, hl⟩⟩ := hsets
    · obtain ⟨rest', hm, hpadded⟩ :=
        (h.of_left rfl fun s rest => Declares.exists_left (n := n)).1 rest hl
      have hne : rest = [] → rest' = [] := by
        rintro rfl
        exact absurd (.inl ⟨n, hl⟩) hsign
      rw [classify_of_declares hl, classify_of_declares hm]
      exact trimmed_or_eq hpadded hne fun _ => rfl
    · obtain ⟨rest', hm, hpadded⟩ :=
        (h.of_left rfl fun s rest => Assigns.exists_left (r := r) (n := n)).1 rest hl
      exact classify_assigns_padded hl hm hpadded hsign
  · have hcomment' : ¬ Delimiter.opener.text <+: m.stripped := by
      rintro ⟨rest, hrest⟩
      have hm : m.stripped = ['/'] ++ '*' :: rest := hrest.symm
      obtain ⟨rest', hl, -⟩ := h.of_sign rfl hm
      exact hcomment ⟨rest', hl.symm⟩
    have hstates' : ¬ ∃ n rest, StatesFunction m.stripped n rest := by
      rintro ⟨n, rest, hm⟩
      obtain ⟨rest', hl, -⟩ :=
        (h.of_left rfl fun s rest => StatesFunction.exists_left (n := n)).2 rest hm
      exact hstates ⟨n, rest', hl⟩
    have hsets' : ¬ ∃ rest, Sets m.stripped rest := by
      rintro ⟨rest, hm⟩
      obtain ⟨rest', hl, -⟩ := (h.of_left rfl fun s rest => Sets.exists_left).2 rest hm
      exact hsets ⟨rest', hl⟩
    rw [classify_eq_none hcomment hstates hsets, classify_eq_none hcomment' hstates' hsets']

/-! Values of blanks. -/

/-- A value is made of blanks only if it is the last of those behind the sign, with nothing more
of the value behind them. -/
theorem value?_isBlanks_iff {rest v : List Char} :
    (value? rest = some v ∧ IsBlanks v) ↔ ∃ b c tail, IsBlanks (b ++ [c]) ∧
      (∀ d ∈ tail.head?, d = '\n' ∨ d = ';') ∧ rest = b ++ c :: tail ∧ v = [c] := by
  constructor
  · rintro ⟨hv, hblanks⟩
    obtain ⟨hrest, hb, hskip⟩ :=
      (takeWhile_dropWhile_eq_iff (p := isBlank) (s := rest)).1 ⟨rfl, rfl⟩
    rw [value?] at hv
    split at hv
    · rename_i hnil
      obtain ⟨c, hc, rfl⟩ := Option.map_eq_some_iff.1 hv
      obtain ⟨b, hlast⟩ := List.getLast?_eq_some_iff.1 hc
      obtain ⟨htext, -, hstop⟩ := takeWhile_dropWhile_eq_iff.1 ⟨hnil, rfl⟩
      rw [List.nil_append] at htext
      rw [← htext] at hstop
      refine ⟨b, c, skipBlanks rest, hlast ▸ hb, fun d hd => ?_, ?_, rfl⟩
      · simpa [Decidable.or_iff_not_imp_left] using hstop d hd
      · rw [hlast] at hrest
        simpa [skipBlanks] using hrest
    · rename_i hne
      cases hv
      -- Text behind the blanks starts with no blank, and so does a value that is taken from it.
      obtain ⟨d, v, hvalue⟩ := List.exists_cons_of_ne_nil hne
      have hhead : d ∈ (skipBlanks rest).head? := by
        rw [← List.takeWhile_append_dropWhile (p := fun c => c != '\n' && c != ';')
          (l := skipBlanks rest), hvalue]
        rfl
      rw [hvalue] at hblanks
      cases (hskip d hhead).symm.trans (hblanks d List.mem_cons_self)
  · rintro ⟨b, c, tail, hb, hend, rfl, rfl⟩
    have hstop : ∀ d ∈ tail.head?, isBlank d = false ∧ (d != '\n' && d != ';') = false := by
      intro d hd
      obtain rfl | rfl := hend d hd <;> decide
    have hsplit : (b ++ c :: tail).takeWhile isBlank = b ++ [c] ∧
        (b ++ c :: tail).dropWhile isBlank = tail :=
      takeWhile_dropWhile_eq_iff.2 ⟨by simp, hb, fun d hd => (hstop d hd).1⟩
    have hnil : tail.takeWhile (fun d => d != '\n' && d != ';') = [] :=
      (takeWhile_dropWhile_eq_iff.2
        ⟨rfl, List.forall_mem_nil _, fun d hd => (hstop d hd).2⟩).1
    refine ⟨?_, List.forall_mem_singleton.2 (hb c (by simp))⟩
    rw [value?, skipBlanks, hsplit.2, hnil, hsplit.1]
    simp

theorem findsValue_isBlanks_iff {v : String} :
    (l.FindsValue v ∧ IsBlanks v.toList) ↔ ∃ b c tail, IsBlanks (b ++ [c]) ∧
      (∀ d ∈ tail.head?, d = '\n' ∨ d = ';') ∧ SetsValue l.stripped (b ++ c :: tail) ∧
        v = String.singleton c := by
  constructor
  · rintro ⟨hv, hblanks⟩
    obtain ⟨rest, hsets, -, hvalue⟩ := findsValue_iff.1 hv
    obtain ⟨b, c, tail, hb, hend, rfl, hc⟩ := value?_isBlanks_iff.1 ⟨hvalue, hblanks⟩
    exact ⟨b, c, tail, hb, hend, hsets, String.toList_injective (by simpa using hc)⟩
  · rintro ⟨b, c, tail, hb, hend, hsets, rfl⟩
    obtain ⟨hvalue, hblanks⟩ := value?_isBlanks_iff.2 ⟨b, c, tail, hb, hend, rfl, rfl⟩
    have hother : ∀ u, ¬ IsFunction (skipBlanks (b ++ c :: tail)) u := by
      rintro u ⟨hu, -⟩
      cases hvalue.symm.trans (value?_of_skipBlanks hu (by decide) (by simp [functionWord]))
    exact ⟨findsValue_of_setsValue hsets hother (by simpa using hvalue), by simpa using hblanks⟩

/-- The line with more text at its end. -/
def followedBy (l : Line) (b : List Char) : Line := { l with raw := l.raw ++ b }

theorem padded_followedBy {b : List Char} (hb : IsBlanks b) :
    Padded l.stripped (l.followedBy b).stripped :=
  Padded.trimStart ⟨b, hb, rfl⟩

theorem setsValue_followedBy {rest : List Char} (h : SetsValue l.stripped rest) (b : List Char) :
    SetsValue (l.followedBy b).stripped (rest ++ b) := by
  obtain ⟨left, hs, hleft⟩ := h.exists_left
  have hstripped : (l.followedBy b).stripped = l.stripped ++ b := by
    have hne : l.stripped ≠ [] := by simp [hs]
    rw [stripped, followedBy, trimStart, List.dropWhile_append, ← trimStart, ← stripped,
      if_neg (by rwa [List.isEmpty_iff])]
  rw [hstripped, hs, List.append_assoc]
  exact hleft (rest ++ b)

/-- A line that ends with the sign of an assignment gives nothing. -/
theorem classify_of_setsValue_nil (h : SetsValue l.stripped []) : l.classify = none := by
  obtain ⟨form, name, -, hclass⟩ :=
    exists_classify_eq_of_setsValue h (functionValue?_eq_none_iff.1 rfl)
  exact hclass

end Line

open Line in
/-- Blanks behind a line change what is found in it, blanks at the end of a value aside, exactly if
the line ends with the sign of an assignment to what takes values. Then nothing is found without the
blanks, and with them the last one as a value. And a value made only of blanks is found nowhere but
where all that is left for it is blanks, up to a semicolon, a line feed or the end; it is the last
of them. -/
theorem trailing_blanks_change_finding_iff (l : Line) :
    (∀ b, IsBlanks b →
      ((l.followedBy b).classify.map Finding.trimmed ≠ l.classify.map Finding.trimmed ↔
        b ≠ [] ∧ SetsValue l.stripped [])) ∧
    (∀ b c, IsBlanks (b ++ [c]) → SetsValue l.stripped [] →
      l.classify = none ∧ (l.followedBy (b ++ [c])).FindsValue (String.singleton c)) ∧
    ∀ v, (l.FindsValue v ∧ IsBlanks v.toList) ↔ ∃ b c tail, IsBlanks (b ++ [c]) ∧
      (∀ d ∈ tail.head?, d = '\n' ∨ d = ';') ∧ SetsValue l.stripped (b ++ c :: tail) ∧
        v = String.singleton c := by
  have hblank : ∀ b c, IsBlanks (b ++ [c]) → SetsValue l.stripped [] →
      l.classify = none ∧ (l.followedBy (b ++ [c])).FindsValue (String.singleton c) := by
    intro b c hb hsign
    have hsets : SetsValue (l.followedBy (b ++ [c])).stripped (b ++ c :: []) :=
      setsValue_followedBy hsign (b ++ [c])
    exact ⟨classify_of_setsValue_nil hsign,
      (findsValue_isBlanks_iff.2 ⟨b, c, [], hb, by simp, hsets, rfl⟩).1⟩
  refine ⟨fun b hb => ⟨fun hne => ⟨?_, ?_⟩, ?_⟩, hblank, fun v => findsValue_isBlanks_iff⟩
  · rintro rfl
    exact hne (by rw [followedBy, List.append_nil])
  · by_contra hsign
    exact hne (classify_padded (padded_followedBy hb) hsign)
  · rintro ⟨hne, hsign⟩
    obtain ⟨b, c, rfl⟩ := List.eq_nil_or_concat' b |>.resolve_left hne
    obtain ⟨hnone, form, name, hclass, -⟩ := hblank b c hb hsign
    rw [hnone, hclass]
    exact Option.some_ne_none _

open Line in
/-- A space and a tab behind the sign, and the same before a semicolon. Behind a value they stay
without effect. -/
theorem trailing_blanks_change_finding_iff_tab :
    let sign : Line := ⟨1, "A.prototype.b =".toList⟩
    let semicolon : Line := ⟨2, "  var c = \t; d".toList⟩
    let value : Line := ⟨3, "e.f = g".toList⟩
    IsBlanks [' ', '\t'] ∧ SetsValue sign.stripped [] ∧
      (sign.followedBy [' ', '\t']).classify.map Finding.trimmed ≠
        sign.classify.map Finding.trimmed ∧
      sign.classify = none ∧ (sign.followedBy [' ', '\t']).FindsValue "\t" ∧
      SetsValue semicolon.stripped " \t; d".toList ∧ semicolon.FindsValue "\t" ∧
      ¬ SetsValue value.stripped [] ∧
      (value.followedBy [' ', '\t']).classify.map Finding.trimmed =
        value.classify.map Finding.trimmed := by
  intro sign semicolon value
  have hblanks : IsBlanks [' ', '\t'] := List.all_eq_true.1 (by decide)
  have hsign : SetsValue sign.stripped [] :=
    .inr (.inr ⟨"A".toList, "b".toList, prototypeTarget?_eq_some_iff.1 (by decide +kernel)⟩)
  have hsemicolon : SetsValue semicolon.stripped " \t; d".toList :=
    .inl ⟨"c".toList, varTarget?_eq_some_iff.1 (by decide +kernel)⟩
  have hvalue : ¬ SetsValue value.stripped [] := by
    intro h
    have hrest := h.sets.behindSign_eq
    revert hrest
    decide +kernel
  obtain ⟨hnone, hfound⟩ :=
    (trailing_blanks_change_finding_iff sign).2.1 [' '] '\t' hblanks hsign
  have hsame := (trailing_blanks_change_finding_iff value).1 [' ', '\t'] hblanks
  refine ⟨hblanks, hsign, ?_, hnone, hfound, hsemicolon, ?_, hvalue, ?_⟩
  · exact ((trailing_blanks_change_finding_iff sign).1 _ hblanks).2 ⟨List.cons_ne_nil _ _, hsign⟩
  · exact (((trailing_blanks_change_finding_iff semicolon).2.2 "\t").2
      ⟨[' '], '\t', "; d".toList, hblanks, by simp, hsemicolon, rfl⟩).1
  · exact not_not.1 fun hne => hvalue (hsame.1 hne).2

open Line in
/-- One blank makes a value of a line that has none. -/
theorem trailing_blank_found_as_value :
    let l : Line := ⟨1, "a.b =".toList⟩
    l.classify = none ∧
      (l.followedBy [' ']).classify = some (.code (.property "a" " ") "b") := by
  decide +kernel

end ScriptOutline
