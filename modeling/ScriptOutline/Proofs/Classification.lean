import ScriptOutline.Proofs.Finding

/-!
Which shape a line has, from the way its text is made. A line that states a function, declares a
variable or assigns to a member starts with a path that leaves few shapes for it; what stands
behind the left side decides between these (`classify_of_declares`, `classify_of_export`,
`classify_of_prototype_member`, `classify_of_member`). The other way round, every finding stands at
a left side of its own (`fitsIn_of_classify`).
-/

set_option autoImplicit false

namespace ScriptOutline
open Text

namespace Line

/-! Functions. -/

/-- A text is the word `function` and then `u`, which does not go on with the word. -/
def IsFunction (t u : List Char) : Prop := t = functionWord ++ u ∧ ∀ c ∈ u.head?, isWord c = false

theorem function?_eq_some_iff {t u : List Char} : function? t = some u ↔ IsFunction t u := by
  rw [function?, IsFunction, ← after?_eq_some_iff]
  cases after? functionWord t with
  | none => simp
  | some w =>
    cases w with
    | nil =>
      rw [Option.some_inj, iff_self_and]
      rintro rfl
      simp
    | cons c w =>
      dsimp only
      by_cases hc : isWord c = true
      · simp only [if_pos hc, Option.some_inj, false_iff, reduceCtorEq]
        rintro ⟨rfl, hend⟩
        simp [hend c rfl] at hc
      · rw [if_neg hc, Option.some_inj, iff_self_and]
        rintro rfl
        simpa using hc

theorem exists_functionValue?_iff {rest : List Char} :
    (∃ ps, functionValue? rest = some ps) ↔ ∃ u, IsFunction (skipBlanks rest) u := by
  simp [functionValue?, function?_eq_some_iff]

theorem functionValue?_eq_none_iff {rest : List Char} :
    functionValue? rest = none ↔ ∀ u, ¬ IsFunction (skipBlanks rest) u := by
  rw [← not_exists, ← exists_functionValue?_iff, Option.eq_none_iff_forall_ne_some, not_exists]

/-- A text states a function `n`, whose parameters stand in `rest`. -/
def StatesFunction (s n rest : List Char) : Prop :=
  IsName n ∧ ∃ b b', b ≠ [] ∧ IsBlanks b ∧ IsBlanks b' ∧
    s = functionWord ++ (b ++ (n ++ (b' ++ '(' :: rest)))

theorem StatesFunction.exists_left {s n rest : List Char} (h : StatesFunction s n rest) :
    ∃ left, s = left ++ '(' :: rest ∧ ∀ rest', StatesFunction (left ++ '(' :: rest') n rest' := by
  obtain ⟨hn, b, b', hne, hb, hb', rfl⟩ := h
  exact ⟨functionWord ++ (b ++ (n ++ b')), by simp,
    fun rest' => ⟨hn, b, b', hne, hb, hb', by simp⟩⟩

theorem functionStatement?_eq_some_iff {s : List Char} {x : Finding} :
    functionStatement? s = some x ↔ ∃ n rest, StatesFunction s n rest ∧
      x = .code (.functionStatement (params (rest.takeWhile (· != ')')))) (String.ofList n) := by
  constructor
  · intro h
    obtain ⟨s₁, hword, h⟩ := Option.bind_eq_some_iff.1 h
    obtain ⟨s₂, hblanks, h⟩ := Option.bind_eq_some_iff.1 h
    obtain ⟨⟨n, s₃⟩, hname, h⟩ := Option.bind_eq_some_iff.1 h
    obtain ⟨list, hgroup, h⟩ := Option.bind_eq_some_iff.1 h
    cases h
    obtain rfl := after?_eq_some_iff.1 hword
    obtain ⟨b, hne, hb, rfl, -⟩ := blanks?_eq_some_iff.1 hblanks
    obtain ⟨rfl, hn, -⟩ := name?_eq_some_iff.1 hname
    obtain ⟨rest, hopen, rfl⟩ := group?_eq_some_iff.1 hgroup
    obtain ⟨b', hb', rfl⟩ := (skipBlanks_eq_cons_iff rfl).1 hopen
    exact ⟨n, rest, ⟨hn, b, b', hne, hb, hb', rfl⟩, rfl⟩
  · intro h
    obtain ⟨n, rest, ⟨hn, b, b', hne, hb, hb', rfl⟩, rfl⟩ := h
    have hword : after? functionWord (functionWord ++ (b ++ (n ++ (b' ++ '(' :: rest)))) =
        some (b ++ (n ++ (b' ++ '(' :: rest))) := after?_eq_some_iff.2 rfl
    have hblanks : blanks? (b ++ (n ++ (b' ++ '(' :: rest))) =
        some (n ++ (b' ++ '(' :: rest)) :=
      blanks?_eq_some_iff.2 ⟨b, hne, hb, rfl, hn.head?_append _⟩
    have hname : name? (n ++ (b' ++ '(' :: rest)) = some (n, b' ++ '(' :: rest) :=
      name?_append hn hb' rfl
    have hopen : skipBlanks (b' ++ '(' :: rest) = '(' :: rest :=
      (skipBlanks_eq_cons_iff rfl).2 ⟨b', hb', rfl⟩
    simp [functionStatement?, hword, hblanks, hname, hopen, group?]

/-! The path that a line starts with. -/

theorem path_of_commentOpen? {s : List Char} {x : Finding} (h : commentOpen? s = some x) :
    s.takeWhile isDotted = [] := by
  obtain ⟨⟨rest, rfl⟩, -⟩ := commentOpen?_eq_some_iff.1 h
  rfl

theorem path_of_functionStatement? {s : List Char} {x : Finding}
    (h : functionStatement? s = some x) : s.takeWhile isDotted = functionWord := by
  obtain ⟨n, rest, ⟨-, b, b', hne, hb, -, rfl⟩, -⟩ := functionStatement?_eq_some_iff.1 h
  have hpath : IsPath functionWord := by decide
  exact (takeWhile_dropWhile_eq_iff.2 ⟨rfl, hpath.2, head?_blanks hne hb _⟩).1

theorem path_of_varTarget? {s : List Char} {x : List Char × List Char}
    (h : varTarget? s = some x) : s.takeWhile isDotted = varWord := by
  obtain ⟨-, b, b', hne, hb, -, rfl⟩ := varTarget?_eq_some_iff.1 h
  have hpath : IsPath varWord := by decide
  exact (takeWhile_dropWhile_eq_iff.2 ⟨rfl, hpath.2, head?_blanks hne hb _⟩).1

theorem path_of_exportsTarget? {s rest : List Char} (h : exportsTarget? s = some rest) :
    s.takeWhile isDotted = exportsPath := by
  obtain ⟨b, hb, rfl⟩ := exportsTarget?_eq_some_iff.1 h
  have hpath : IsPath exportsPath := by decide
  exact (takeWhile_dropWhile_eq_iff.2 ⟨rfl, hpath.2, head?_blanks_cons hb rfl _⟩).1

/-! Members. -/

theorem Assigns.eq_of_assigns {s r n rest r' n' rest' : List Char} (h : Assigns s r n rest)
    (h' : Assigns s r' n' rest') : r = r' ∧ n = n' ∧ rest = rest' := by
  have hsame := (dottedTarget?_eq_some_iff.2 h).symm.trans (dottedTarget?_eq_some_iff.2 h')
  simpa using hsame

/-- Only `module` has the member that may be exported to. -/
theorem receiver_of_exportsPath {r n : List Char} (hn : IsName n)
    (h : r ++ '.' :: n = exportsPath) : r = ['m', 'o', 'd', 'u', 'l', 'e'] := by
  have hsplit := splitLast_eq_some_iff.2 ⟨h.symm, hn.dot_not_mem⟩
  have hmodule : splitLast exportsPath =
      some (['m', 'o', 'd', 'u', 'l', 'e'], ['e', 'x', 'p', 'o', 'r', 't', 's']) := by decide
  rw [hmodule] at hsplit
  cases hsplit
  rfl

/-! The order of the shapes. -/

/-- The shapes of exported functions, in the order in which they are tried. -/
def exported? (s : List Char) : Option Finding := (namedExport? s).or (anonymousExport? s)

/-- The shapes that are about members, in the order in which they are tried. -/
def member? (s : List Char) : Option Finding :=
  (prototypeMethod? s).or ((prototypeProperty? s).or ((method? s).or (property? s)))

theorem classify_eq (l : Line) :
    l.classify = (commentOpen? l.stripped).or ((functionStatement? l.stripped).or
      ((functionExpression? l.stripped).or ((exported? l.stripped).or
        ((member? l.stripped).or (declaration? l.raw))))) := by
  have hcons : ∀ (s : Shape) (ss : List Shape),
      (s :: ss).findSome? (·.find? l) = (s.find? l).or (ss.findSome? (·.find? l)) := by
    intro s ss
    rw [List.findSome?_cons]
    cases s.find? l <;> rfl
  rw [classify, Shape.all]
  simp only [hcons, List.findSome?_nil, Option.or_none]
  simp only [Shape.find?, exported?, member?, Option.or_assoc]

/-- Where a line starts with another path than its shape has, the shape does not fit. -/
theorem eq_none_of_path {α : Type} {o : Option α} {s path : List Char}
    (hpath : ∀ x, o = some x → s.takeWhile isDotted = path)
    (hne : s.takeWhile isDotted ≠ path) : o = none :=
  Option.eq_none_iff_forall_ne_some.2 fun x hx => hne (hpath x hx)

theorem exported?_of_path {s : List Char} (h : s.takeWhile isDotted ≠ exportsPath) :
    exported? s = none := by
  have htarget := eq_none_of_path (fun _ => path_of_exportsTarget?) h
  rw [exported?, namedExport?, anonymousExport?, htarget]
  rfl

theorem declaration?_of_path {raw : List Char} (h : (trimStart raw).takeWhile isDotted ≠ varWord) :
    declaration? raw = none := by
  rw [declaration?_eq, assigned?, eq_none_of_path (fun _ => path_of_varTarget?) h]
  rfl

theorem member?_of_path {s : List Char} (h : '.' ∉ s.takeWhile isDotted) : member? s = none := by
  have hassigns : ∀ r n rest, ¬ Assigns s r n rest := by
    intro r n rest hassigns
    rw [hassigns.takeWhile_dropWhile.1] at h
    simp at h
  have hdotted : dottedTarget? s = none :=
    Option.eq_none_iff_forall_ne_some.2 fun _ h => hassigns _ _ _ (dottedTarget?_eq_some_iff.1 h)
  have hprototype : prototypeTarget? s = none :=
    Option.eq_none_iff_forall_ne_some.2 fun _ h =>
      hassigns _ _ _ (prototypeTarget?_eq_some_iff.1 h).2
  have hmember : memberTarget? s = none :=
    Option.eq_none_iff_forall_ne_some.2 fun _ h => hassigns _ _ _ (memberTarget?_eq_some_iff.1 h).2
  rw [member?, prototypeMethod?, prototypeProperty?, method?, property?, hprototype, hdotted,
    hmember]
  rfl

/-! Statements and declarations. -/

theorem classify_of_statesFunction {l : Line} {n rest : List Char}
    (h : StatesFunction l.stripped n rest) :
    l.classify =
      some (.code (.functionStatement (params (rest.takeWhile (· != ')')))) (String.ofList n)) := by
  have hstatement := functionStatement?_eq_some_iff.2 ⟨n, rest, h, rfl⟩
  have hpath := path_of_functionStatement? hstatement
  rw [classify_eq, hstatement,
    eq_none_of_path (fun _ => path_of_commentOpen?) (by rw [hpath]; decide)]
  rfl

theorem classify_of_declares {l : Line} {n rest : List Char} (h : Declares l.stripped n rest) :
    l.classify =
      ((functionValue? rest).map fun ps =>
        .code (.functionExpression none ps) (String.ofList n)).or
      ((value? rest).map fun v => .code (.declaration (String.ofList v)) (String.ofList n)) := by
  have htarget := varTarget?_eq_some_iff.2 h
  have hpath := path_of_varTarget? htarget
  have hne : ∀ {path : List Char}, varWord ≠ path → l.stripped.takeWhile isDotted ≠ path :=
    fun hpath' he => hpath' (hpath.symm.trans he)
  have hexpression : functionExpression? l.stripped = (functionValue? rest).map fun ps =>
      .code (.functionExpression none ps) (String.ofList n) := by
    rw [functionExpression?, htarget]
    cases hps : functionValue? rest <;> simp [hps]
  have hdeclaration : declaration? l.raw = (value? rest).map fun v =>
      .code (.declaration (String.ofList v)) (String.ofList n) := by
    rw [declaration?_eq, assigned?, ← stripped, htarget]
    cases hv : value? rest <;> simp [hv]
  rw [classify_eq, hexpression, hdeclaration,
    eq_none_of_path (fun _ => path_of_commentOpen?) (hne (by decide)),
    eq_none_of_path (fun _ => path_of_functionStatement?) (hne (by decide)),
    exported?_of_path (hne (by decide)), member?_of_path (by rw [hpath]; decide)]
  rfl

/-- A line that assigns to a member has one of the shapes that are about members, or it exports a
function. -/
theorem classify_of_assigns {l : Line} {r n rest : List Char}
    (h : Assigns l.stripped r n rest) :
    l.classify = (exported? l.stripped).or (member? l.stripped) := by
  have hword : ∀ {word : List Char}, '.' ∉ word → l.stripped.takeWhile isDotted ≠ word := by
    rintro word hdot rfl
    rw [h.takeWhile_dropWhile.1] at hdot
    simp at hdot
  have hcomment := eq_none_of_path (fun _ => path_of_commentOpen?) (hword (by simp))
  have hstatement := eq_none_of_path (fun _ => path_of_functionStatement?) (hword (by decide))
  have hvar := eq_none_of_path (fun _ => path_of_varTarget?) (hword (by decide))
  have hexpression : functionExpression? l.stripped = none := by
    rw [functionExpression?, hvar]
    rfl
  rw [classify_eq, hcomment, hstatement, hexpression,
    declaration?_of_path (hword (by decide)), Option.none_or, Option.none_or, Option.none_or,
    Option.or_none]

section
variable {l : Line} {r c n rest : List Char}

theorem exported?_of_assigns {s : List Char} (h : Assigns s r n rest)
    (hexports : r ++ '.' :: n ≠ exportsPath) : exported? s = none :=
  exported?_of_path fun hpath => hexports (h.takeWhile_dropWhile.1.symm.trans hpath)

theorem property?_of_assigns (h : Assigns l.stripped r n rest) :
    property? l.stripped = if IsName r then
      (value? rest).map fun v => .code (.property (String.ofList r) (String.ofList v))
        (String.ofList n)
      else none := by
  split
  · rename_i hr
    rw [property?, memberTarget?_eq_some_iff.2 ⟨hr, h⟩]
    cases hv : value? rest <;> simp [hv]
  · rename_i hr
    have htarget : memberTarget? l.stripped = none := by
      refine Option.eq_none_iff_forall_ne_some.2 fun target htarget => hr ?_
      obtain ⟨hr', h'⟩ := memberTarget?_eq_some_iff.1 htarget
      rwa [(h.eq_of_assigns h').1]
    rw [property?, htarget]
    rfl

theorem method?_of_assigns (h : Assigns l.stripped r n rest) :
    method? l.stripped = (functionValue? rest).map fun ps =>
      .code (.method (String.ofList r) ps) (String.ofList n) := by
  rw [method?, dottedTarget?_eq_some_iff.2 h]
  cases hps : functionValue? rest <;> simp [hps]

theorem exportsPath_ne_prototype (hn : IsName n) :
    c ++ '.' :: prototypeWord ++ '.' :: n ≠ exportsPath := by
  intro h
  have hdot : '.' ∈ c ++ '.' :: prototypeWord := by simp
  rw [receiver_of_exportsPath hn h] at hdot
  exact absurd hdot (by decide)

/-- A member of the prototype of a name is one of the prototype kinds, whatever else its line has
the shape of. -/
theorem classify_of_prototype_member (hc : IsName c)
    (h : Assigns l.stripped (c ++ '.' :: prototypeWord) n rest) :
    l.classify =
      ((functionValue? rest).map fun ps =>
        .code (.prototypeMethod (String.ofList c) ps) (String.ofList n)).or
      ((value? rest).map fun v =>
        .code (.prototypeProperty (String.ofList c) (String.ofList v)) (String.ofList n)) := by
  have htarget := prototypeTarget?_eq_some_iff.2 ⟨hc, h⟩
  have hproperty : property? l.stripped = none := by
    rw [property?_of_assigns h, if_neg fun hr => absurd hr.dot_not_mem (by simp)]
  rw [classify_of_assigns h, exported?_of_assigns h (exportsPath_ne_prototype h.2.1),
    Option.none_or, member?, prototypeMethod?, prototypeProperty?, htarget, method?_of_assigns h,
    hproperty]
  cases hps : functionValue? rest <;> cases hv : value? rest <;> simp [hps, hv]

/-- A member of any other path is a method if its value is a function, or else a property, but this
only if the path is a name. -/
theorem member?_of_assigns (h : Assigns l.stripped r n rest)
    (hprototype : ∀ c, IsName c → r ≠ c ++ '.' :: prototypeWord) :
    member? l.stripped =
      ((functionValue? rest).map fun ps =>
        .code (.method (String.ofList r) ps) (String.ofList n)).or
      (if IsName r then
        (value? rest).map fun v => .code (.property (String.ofList r) (String.ofList v))
          (String.ofList n)
        else none) := by
  have htarget : prototypeTarget? l.stripped = none := by
    refine Option.eq_none_iff_forall_ne_some.2 fun target htarget => ?_
    obtain ⟨hc, h'⟩ := prototypeTarget?_eq_some_iff.1 htarget
    exact hprototype _ hc (h.eq_of_assigns h').1
  rw [member?, prototypeMethod?, prototypeProperty?, htarget, method?_of_assigns h,
    property?_of_assigns h]
  rfl

theorem classify_of_member (h : Assigns l.stripped r n rest)
    (hexports : r ++ '.' :: n ≠ exportsPath)
    (hprototype : ∀ c, IsName c → r ≠ c ++ '.' :: prototypeWord) :
    l.classify =
      ((functionValue? rest).map fun ps =>
        .code (.method (String.ofList r) ps) (String.ofList n)).or
      (if IsName r then
        (value? rest).map fun v => .code (.property (String.ofList r) (String.ofList v))
          (String.ofList n)
        else none) := by
  rw [classify_of_assigns h, exported?_of_assigns h hexports, Option.none_or,
    member?_of_assigns h hprototype]

end

/-! Exports. -/

/-- The name that an exported function has of its own: the longest run of name characters behind
the blanks after its word, if blanks there are. -/
def ownName (u : List Char) : List Char := ((blanks? u).map (·.takeWhile isName)).getD []

section
variable {l : Line} {s rest u : List Char}

theorem Exports.assigns (h : Exports s rest) : ∃ r n, IsName r ∧ Assigns s r n rest := by
  obtain ⟨b, hb, rfl⟩ := h
  exact ⟨['m', 'o', 'd', 'u', 'l', 'e'], ['e', 'x', 'p', 'o', 'r', 't', 's'],
    by decide, by decide, by decide, b, hb, rfl⟩

theorem Assigns.exports {r n : List Char} (h : Assigns s r n rest)
    (hpath : r ++ '.' :: n = exportsPath) : Exports s rest := by
  obtain ⟨-, -, b, hb, rfl⟩ := h
  exact ⟨b, hb, by rw [hpath]⟩

/-- The parameters of an exported function. They stand behind the name that it has of its own. -/
def exportParams (u : List Char) : List String :=
  let behind := if ownName u = [] then u else (skipBlanks u).dropWhile isName
  ((group? (skipBlanks behind)).map params).getD []

theorem exported?_of_function (h : Exports s rest) (hu : IsFunction (skipBlanks rest) u) :
    exported? s = some (.code
      (.functionExpression (some (String.ofList exportsPath)) (exportParams u))
      (String.ofList (ownName u))) := by
  have hword := after?_eq_some_iff.2 hu.1
  rw [exported?, namedExport?, anonymousExport?, exportsTarget?_eq_some_iff.2 h, exportParams,
    ownName]
  simp only [Option.bind_eq_bind, Option.bind_some, hword, function?_eq_some_iff.2 hu]
  -- Without blanks, or without a name behind them, only the second of the two shapes is left.
  cases hblanks : blanks? u with
  | none => rfl
  | some t =>
    have ht : skipBlanks u = t := by
      obtain ⟨b, -, hb, rfl, hend⟩ := blanks?_eq_some_iff.1 hblanks
      exact skipBlanks_append hb hend
    simp only [Option.bind_some, Option.map_some, Option.getD_some, name?, ht]
    split
    · rename_i hempty
      simp [List.isEmpty_iff.1 hempty, ht]
    · rename_i hempty
      rw [List.isEmpty_iff] at hempty
      simp [hempty]

theorem classify_of_export (h : Exports l.stripped rest) (hu : IsFunction (skipBlanks rest) u) :
    ∃ ps, l.classify = some (.code (.functionExpression (some (String.ofList exportsPath)) ps)
      (String.ofList (ownName u))) := by
  obtain ⟨r, n, -, hassigns⟩ := h.assigns
  exact ⟨exportParams u, by rw [classify_of_assigns hassigns, exported?_of_function h hu]; rfl⟩

theorem isFunction_of_blanks? {t x : List Char} (ht : after? functionWord t = some u)
    (hu : blanks? u = some x) : IsFunction t u := by
  refine ⟨after?_eq_some_iff.1 ht, fun c hc => ?_⟩
  obtain ⟨b, hne, hb, rfl, -⟩ := blanks?_eq_some_iff.1 hu
  exact isWord_of_isDotted (head?_blanks hne hb x c hc)

theorem ownName_ne_nil_iff :
    ownName u ≠ [] ↔ ∃ x, blanks? u = some x ∧ ∃ n, name? x = some n := by
  rw [ownName]
  cases blanks? u with
  | none => simp
  | some x => simp [name?]

theorem exists_namedExport?_iff :
    (∃ x, namedExport? s = some x) ↔
      ∃ rest, Exports s rest ∧ ∃ u, IsFunction (skipBlanks rest) u ∧ ownName u ≠ [] := by
  simp only [namedExport?, Option.bind_eq_bind, Option.bind_eq_some_iff, exportsTarget?_eq_some_iff,
    ownName_ne_nil_iff]
  constructor
  · rintro ⟨x, rest, hexports, u, hword, t, hblanks, n, hname, -⟩
    exact ⟨rest, hexports, u, isFunction_of_blanks? hword hblanks, t, hblanks, n, hname⟩
  · rintro ⟨rest, hexports, u, hu, t, hblanks, n, hname⟩
    exact ⟨_, rest, hexports, u, after?_eq_some_iff.2 hu.1, t, hblanks, n, hname, rfl⟩

theorem exists_of_namedExport? {x : Finding} (h : namedExport? s = some x) :
    ∃ rest u, Exports s rest ∧ IsFunction (skipBlanks rest) u := by
  obtain ⟨rest, hexports, u, hu, -⟩ := exists_namedExport?_iff.1 ⟨x, h⟩
  exact ⟨rest, u, hexports, hu⟩

theorem exists_of_anonymousExport? {x : Finding} (h : anonymousExport? s = some x) :
    ∃ rest u, Exports s rest ∧ IsFunction (skipBlanks rest) u := by
  obtain ⟨rest, htarget, h⟩ := Option.bind_eq_some_iff.1 h
  obtain ⟨u, hfunction, -⟩ := Option.bind_eq_some_iff.1 h
  exact ⟨rest, u, exportsTarget?_eq_some_iff.1 htarget, function?_eq_some_iff.1 hfunction⟩

/-- An export of anything else is an assignment like others. -/
theorem exported?_of_other (h : ¬ ∃ rest u, Exports s rest ∧ IsFunction (skipBlanks rest) u) :
    exported? s = none := by
  rw [exported?, Option.or_eq_none_iff]
  exact ⟨Option.eq_none_iff_forall_ne_some.2 fun _ hx => h (exists_of_namedExport? hx),
    Option.eq_none_iff_forall_ne_some.2 fun _ hx => h (exists_of_anonymousExport? hx)⟩

theorem exported?_of_assigns_other {r n : List Char} (h : Assigns s r n rest)
    (hother : ∀ u, ¬ IsFunction (skipBlanks rest) u) : exported? s = none := by
  refine exported?_of_other ?_
  rintro ⟨rest', u, hexports, hu⟩
  obtain ⟨r', n', -, hassigns⟩ := hexports.assigns
  obtain ⟨-, -, rfl⟩ := h.eq_of_assigns hassigns
  exact hother u hu

end

end Line

/-! Findings. -/

/-- What a form needs: the left side that it is found at, and what its reader takes from behind
that. -/
def Form.FitsIn (s : List Char) (name : String) : Form → Prop
  | functionStatement _ => ∃ rest, Line.StatesFunction s name.toList rest
  | functionExpression none ps =>
    ∃ rest, Line.Declares s name.toList rest ∧ Line.functionValue? rest = some ps
  | functionExpression (some r) _ => r = String.ofList Line.exportsPath ∧
    ∃ rest u, Line.Exports s rest ∧ Line.IsFunction (Line.skipBlanks rest) u
  | method r ps =>
    ∃ rest, Line.Assigns s r.toList name.toList rest ∧ Line.functionValue? rest = some ps
  | prototypeMethod c ps => Line.IsName c.toList ∧
    ∃ rest, Line.Assigns s (c.toList ++ '.' :: Line.prototypeWord) name.toList rest ∧
      Line.functionValue? rest = some ps
  | property r v => Line.IsName r.toList ∧
    ∃ rest, Line.Assigns s r.toList name.toList rest ∧ Line.value? rest = some v.toList
  | prototypeProperty c v => Line.IsName c.toList ∧
    ∃ rest, Line.Assigns s (c.toList ++ '.' :: Line.prototypeWord) name.toList rest ∧
      Line.value? rest = some v.toList
  | declaration v => ∃ rest, Line.Declares s name.toList rest ∧ Line.value? rest = some v.toList

namespace Line

theorem fitsIn_of_find? {l : Line} {s : Shape} {form : Form} {name : String}
    (h : s.find? l = some (.code form name)) : form.FitsIn l.stripped name := by
  cases s with
  | commentOpen => cases (commentOpen?_eq_some_iff.1 h).2
  | functionStatement =>
    obtain ⟨n, rest, hstates, h⟩ := functionStatement?_eq_some_iff.1 h
    cases h
    exact ⟨rest, by rwa [String.toList_ofList]⟩
  | functionExpression =>
    obtain ⟨⟨n, rest⟩, htarget, h⟩ := Option.bind_eq_some_iff.1 h
    obtain ⟨ps, hps, h⟩ := Option.bind_eq_some_iff.1 h
    cases h
    exact ⟨rest, by rw [String.toList_ofList, ← varTarget?_eq_some_iff, htarget], hps⟩
  | namedExport =>
    have hexports := exists_of_namedExport? h
    simp only [Shape.find?, namedExport?, Option.bind_eq_bind, Option.bind_eq_some_iff,
      Prod.exists] at h
    obtain ⟨_, -, _, -, _, -, n, _, -, h⟩ := h
    cases h
    exact ⟨rfl, hexports⟩
  | anonymousExport =>
    have hexports := exists_of_anonymousExport? h
    simp only [Shape.find?, anonymousExport?, Option.bind_eq_bind, Option.bind_eq_some_iff] at h
    obtain ⟨_, -, _, -, h⟩ := h
    cases h
    exact ⟨rfl, hexports⟩
  | prototypeMethod =>
    obtain ⟨⟨c, n, rest⟩, htarget, h⟩ := Option.bind_eq_some_iff.1 h
    obtain ⟨ps, hps, h⟩ := Option.bind_eq_some_iff.1 h
    cases h
    obtain ⟨hc, hassigns⟩ := prototypeTarget?_eq_some_iff.1 htarget
    simp only [Form.FitsIn, String.toList_ofList]
    exact ⟨hc, rest, hassigns, hps⟩
  | prototypeProperty =>
    obtain ⟨⟨c, n, rest⟩, htarget, h⟩ := Option.bind_eq_some_iff.1 h
    obtain ⟨v, hv, h⟩ := Option.bind_eq_some_iff.1 h
    cases h
    obtain ⟨hc, hassigns⟩ := prototypeTarget?_eq_some_iff.1 htarget
    simp only [Form.FitsIn, String.toList_ofList]
    exact ⟨hc, rest, hassigns, hv⟩
  | method =>
    obtain ⟨⟨r, n, rest⟩, htarget, h⟩ := Option.bind_eq_some_iff.1 h
    obtain ⟨ps, hps, h⟩ := Option.bind_eq_some_iff.1 h
    cases h
    simp only [Form.FitsIn, String.toList_ofList]
    exact ⟨rest, dottedTarget?_eq_some_iff.1 htarget, hps⟩
  | property =>
    obtain ⟨⟨r, n, rest⟩, htarget, h⟩ := Option.bind_eq_some_iff.1 h
    obtain ⟨v, hv, h⟩ := Option.bind_eq_some_iff.1 h
    cases h
    obtain ⟨hr, hassigns⟩ := memberTarget?_eq_some_iff.1 htarget
    simp only [Form.FitsIn, String.toList_ofList]
    exact ⟨hr, rest, hassigns, hv⟩
  | declaration =>
    rw [Shape.find?, declaration?_eq] at h
    obtain ⟨⟨n, v⟩, h', h⟩ := Option.map_eq_some_iff.1 h
    obtain ⟨⟨n', rest⟩, htarget, h'⟩ := Option.bind_eq_some_iff.1 h'
    obtain ⟨v', hv, h'⟩ := Option.bind_eq_some_iff.1 h'
    cases h'
    cases h
    simp only [Form.FitsIn, String.toList_ofList]
    exact ⟨rest, varTarget?_eq_some_iff.1 htarget, hv⟩

theorem fitsIn_of_classify {l : Line} {form : Form} {name : String}
    (h : l.classify = some (.code form name)) : form.FitsIn l.stripped name := by
  obtain ⟨s, hs⟩ := exists_find?_of_classify h
  exact fitsIn_of_find? hs

end Line

end ScriptOutline
