import ScriptOutline.Proofs.Assignment

/-!
Parameter lists. Whatever shape a function has, its record has the parameters that stand between
its parentheses (`params_of_sets`). Where these hold names that are parted by commas, a name comes
back whole exactly if it has no character but letters, numbers and underscores: names and parameters
are made of different characters, and a parameter ends where one of its own does not go on
(`parameters_of_names_iff`).
-/

set_option autoImplicit false

namespace ScriptOutline
open Text

namespace Line

/-! Lists of names. -/

/-- A text spells a name, with any whitespace around it. -/
def Spells (n : String) (item : List Char) : Prop :=
  IsName n.toList ∧ ∃ gap gap', (∀ c ∈ gap, isWhitespace c = true) ∧
    (∀ c ∈ gap', isWhitespace c = true) ∧ item = gap ++ (n.toList ++ gap')

/-- A text lists names, parted by commas. -/
inductive Lists : List String → List Char → Prop
  | none {gap : List Char} : (∀ c ∈ gap, isWhitespace c = true) → Lists [] gap
  | one {n : String} {item : List Char} : Spells n item → Lists [n] item
  | more {n m : String} {names : List String} {item rest : List Char} :
      Spells n item → Lists (m :: names) rest → Lists (n :: m :: names) (item ++ ',' :: rest)

/-- Whitespace around a name adds nothing to its parameters. -/
theorem Spells.params_eq {n : String} {item : List Char} (h : Spells n item) :
    params item = params n.toList := by
  obtain ⟨-, gap, gap', hgap, hgap', rfl⟩ := h
  rw [params, runs_of_forall_append fun c hc => isParam_of_isWhitespace (hgap c hc),
    runs_append_of_forall fun c hc => isParam_of_isWhitespace (hgap' c hc), params]

theorem params_append_cons {c : Char} (hc : isParam c = false) (s t : List Char) :
    params (s ++ c :: t) = params s ++ params t := by
  rw [params, runs_append_cons hc, List.map_append, params, params]

/-- The parameters of a list are those of its names, in order. -/
theorem Lists.params_eq {names : List String} {text : List Char} (h : Lists names text) :
    params text = names.flatMap fun n => params n.toList := by
  induction h with
  | @none gap hgap =>
    rw [← List.append_nil gap, params,
      runs_of_forall_append fun c hc => isParam_of_isWhitespace (hgap c hc)]
    rfl
  | one hitem => rw [hitem.params_eq, List.flatMap_singleton]
  | more hitem _ ih =>
    rw [params_append_cons (by decide), hitem.params_eq, ih]
    rfl

theorem Spells.close_not_mem {n : String} {item : List Char} (h : Spells n item) :
    ')' ∉ item := by
  obtain ⟨hn, gap, gap', hgap, hgap', rfl⟩ := h
  simp only [List.mem_append, not_or]
  exact ⟨fun hc => absurd (hgap _ hc) (by decide), fun hc => absurd (hn.2 _ hc) (by decide),
    fun hc => absurd (hgap' _ hc) (by decide)⟩

theorem Lists.close_not_mem {names : List String} {text : List Char} (h : Lists names text) :
    ')' ∉ text := by
  induction h with
  | none hgap => exact fun hc => absurd (hgap _ hc) (by decide)
  | one hitem => exact hitem.close_not_mem
  | more hitem _ ih =>
    simp only [List.mem_append, List.mem_cons, not_or]
    exact ⟨hitem.close_not_mem, by decide, ih⟩

/-- A list goes on to the closing parenthesis, or to the end of its line. -/
theorem Lists.takeWhile_eq {names : List String} {text tail : List Char} (h : Lists names text)
    (htail : ∀ c ∈ tail.head?, c = ')') : (text ++ tail).takeWhile (· != ')') = text := by
  refine (takeWhile_dropWhile_eq_iff.2 ⟨rfl, fun c hc => ?_, fun c hc => ?_⟩).1
  · rw [bne_iff_ne]
    rintro rfl
    exact h.close_not_mem hc
  · rw [htail c hc]
    rfl

theorem params_of_isParameter {p : String} (h : IsParameter p) : params p.toList = [p] := by
  have hne : p.toList ≠ [] := by rw [ne_eq, String.toList_eq_nil_iff]; exact h.1
  rw [params, runs_of_forall h.2 hne, List.map_singleton, String.ofList_toList]

/-- Names come back as they are exactly if they are parameters. -/
theorem flatMap_params_eq_iff {names : List String} :
    (names.flatMap fun n => params n.toList) = names ↔ ∀ n ∈ names, IsParameter n := by
  constructor
  · intro h n hn
    rw [← h] at hn
    obtain ⟨m, -, hparams⟩ := List.mem_flatMap.1 hn
    exact isParameter_of_mem_params hparams
  · intro h
    rw [List.flatMap_congr fun n hn => params_of_isParameter (h n hn)]
    exact List.flatMap_singleton' names

/-! Functions. -/

/-- A text is a function, with a name of its own or without, whose parameters stand in `rest`. -/
inductive OpensFunction : List Char → List Char → Prop
  | anonymous {b rest : List Char} : IsBlanks b →
      OpensFunction (functionWord ++ (b ++ '(' :: rest)) rest
  | named {b n b' rest : List Char} : b ≠ [] → IsBlanks b → IsName n → IsBlanks b' →
      OpensFunction (functionWord ++ (b ++ (n ++ (b' ++ '(' :: rest)))) rest

theorem ownName_append {b rest : List Char} (hb : IsBlanks b)
    (hrest : ∀ c ∈ rest.head?, isBlank c = false) :
    ownName (b ++ rest) = if b = [] then [] else rest.takeWhile isName := by
  split
  · rename_i hnil
    cases rest with
    | nil => simp [hnil, ownName, blanks?]
    | cons c rest => simp [hnil, ownName, blanks?, hrest c rfl]
  · rename_i hne
    rw [ownName, blanks?_eq_some_iff.2 ⟨b, hne, hb, rfl, hrest⟩]
    rfl

/-- Both readers of functions find these parameters. -/
theorem OpensFunction.exists_isFunction {t rest : List Char} (h : OpensFunction t rest) :
    ∃ u, IsFunction t u ∧ exportParams u = params (rest.takeWhile (· != ')')) ∧
      group? (skipBlanks ((skipBlanks u).dropWhile isName)) =
        some (rest.takeWhile (· != ')')) := by
  cases h with
  | @anonymous b _ hb =>
    have hskip : skipBlanks (b ++ '(' :: rest) = '(' :: rest :=
      (skipBlanks_eq_cons_iff rfl).2 ⟨b, hb, rfl⟩
    have hown : ownName (b ++ '(' :: rest) = [] := by
      rw [ownName_append hb (by simp [isBlank])]
      split <;> rfl
    refine ⟨_, ⟨rfl, fun c hc => isWord_of_isDotted (head?_blanks_cons hb rfl rest c hc)⟩, ?_, ?_⟩
    · rw [exportParams, hown, if_pos rfl, hskip]
      rfl
    · rw [hskip]
      rfl
  | @named b n b' _ hne hb hn hb' =>
    have hskip : skipBlanks (b ++ (n ++ (b' ++ '(' :: rest))) = n ++ (b' ++ '(' :: rest) :=
      skipBlanks_append hb (hn.head?_append _)
    have hopen : skipBlanks (b' ++ '(' :: rest) = '(' :: rest :=
      (skipBlanks_eq_cons_iff rfl).2 ⟨b', hb', rfl⟩
    have hname : name? (n ++ (b' ++ '(' :: rest)) = some (n, b' ++ '(' :: rest) :=
      name?_append hn hb' rfl
    obtain ⟨htake, hdrop⟩ := takeWhile_dropWhile_eq_iff.2
      ⟨rfl, hn.2, (name?_eq_some_iff.1 hname).2.2⟩
    have hown : ownName (b ++ (n ++ (b' ++ '(' :: rest))) = n := by
      rw [ownName_append hb (hn.head?_append _), if_neg hne, htake]
    refine ⟨_, ⟨rfl, fun c hc => isWord_of_isDotted (head?_blanks hne hb _ c hc)⟩, ?_, ?_⟩
    · rw [exportParams, hown, if_neg hn.1, hskip, hdrop, hopen]
      rfl
    · rw [hskip, hdrop, hopen]
      rfl

/-- Whatever a function is assigned to, the parameters found are those between its parentheses. -/
theorem params_of_sets {l : Line} {s rest : List Char} (h : Sets l.stripped s)
    (hfunction : OpensFunction (skipBlanks s) rest) :
    ∃ form name, l.classify = some (.code form name) ∧ form.IsFunctionValue ∧
      form.params? = some (params (rest.takeWhile (· != ')'))) := by
  obtain ⟨u, hu, hexport, hgroup⟩ := hfunction.exists_isFunction
  obtain ⟨form, name, hclass, hform, hparams⟩ := exists_classify_eq_of_sets h hu
  refine ⟨form, name, hclass, hform, ?_⟩
  rcases hparams with hparams | hparams
  · rw [hparams, functionValue?, function?_eq_some_iff.2 hu, Option.map_some, hgroup]
    rfl
  · rw [hparams, hexport]

end Line

open Line in
/-- Names between the parentheses of a function come back as the runs of letters, numbers and
underscores in them, in order, so exactly as they are if and only if each of them is one such
run. -/
theorem parameters_of_names_iff (l : Line) (names : List String) (text tail : List Char)
    (hnames : Lists names text) (htail : ∀ c ∈ tail.head?, c = ')') :
    (∀ n, StatesFunction l.stripped n (text ++ tail) →
      l.classify = some (.code
        (.functionStatement (names.flatMap fun n => params n.toList)) (String.ofList n))) ∧
    (∀ rest, Sets l.stripped rest → OpensFunction (skipBlanks rest) (text ++ tail) →
      ∃ form name, l.classify = some (.code form name) ∧ form.IsFunctionValue ∧
        form.params? = some (names.flatMap fun n => params n.toList)) ∧
    ((names.flatMap fun n => params n.toList) = names ↔ ∀ n ∈ names, IsParameter n) := by
  refine ⟨fun n h => ?_, fun rest h hfunction => ?_, flatMap_params_eq_iff⟩
  · rw [classify_of_statesFunction h, hnames.takeWhile_eq htail, hnames.params_eq]
  · rw [← hnames.params_eq, ← hnames.takeWhile_eq htail]
    exact params_of_sets h hfunction

open Line in
/-- A statement and a method of a prototype, with two names each that come back as they are. -/
theorem parameters_of_names_iff_two :
    let names := ["_key", "b1"]
    let text := " _key ".toList ++ ',' :: "\tb1".toList
    let statement : Line := ⟨1, "function get$( _key ,\tb1) \x7b".toList⟩
    let method : Line := ⟨2, "A.prototype.get = function ( _key ,\tb1".toList⟩
    Lists names text ∧
      StatesFunction statement.stripped "get$".toList (text ++ [')', ' ', '\x7b']) ∧
      statement.classify = some (.code (.functionStatement names) "get$") ∧
      Sets method.stripped " function ( _key ,\tb1".toList ∧
      OpensFunction (skipBlanks " function ( _key ,\tb1".toList) text ∧
      ∃ form name, method.classify = some (.code form name) ∧ form.params? = some names := by
  intro names text statement method
  have hlists : Lists names text :=
    .more ⟨by decide +kernel, [' '], [' '], List.all_eq_true.1 rfl, List.all_eq_true.1 rfl,
        by decide +kernel⟩
      (.one ⟨by decide +kernel, ['\t'], [], List.all_eq_true.1 rfl, List.all_eq_true.1 rfl,
        by decide +kernel⟩)
  have hstates : StatesFunction statement.stripped "get$".toList (text ++ [')', ' ', '\x7b']) :=
    ⟨by decide +kernel, [' '], [], by decide, List.all_eq_true.1 rfl, List.all_eq_true.1 rfl,
      by decide +kernel⟩
  have hassigns : Assigns method.stripped ("A".toList ++ '.' :: prototypeWord) "get".toList
      " function ( _key ,\tb1".toList := dottedTarget?_eq_some_iff.1 (by decide +kernel)
  have hsets : Sets method.stripped " function ( _key ,\tb1".toList := .inr ⟨_, _, hassigns⟩
  have hopens : OpensFunction (skipBlanks " function ( _key ,\tb1".toList) text := by
    have hskip : skipBlanks " function ( _key ,\tb1".toList =
        functionWord ++ ([' '] ++ '(' :: text) := by decide +kernel
    rw [hskip]
    exact .anonymous (List.all_eq_true.1 rfl)
  have hclosed := parameters_of_names_iff statement names text [')', ' ', '\x7b'] hlists (by simp)
  have hopen := parameters_of_names_iff method names text [] hlists (by simp)
  have hwhole : (names.flatMap fun n => params n.toList) = names := by decide +kernel
  refine ⟨hlists, hstates, ?_, hsets, hopens, ?_⟩
  · rw [hclosed.1 _ hstates, hwhole, String.ofList_toList]
  · obtain ⟨form, name, hclass, -, hparams⟩ :=
      hopen.2.1 _ hsets (by rwa [List.append_nil])
    exact ⟨form, name, hclass, hwhole ▸ hparams⟩

open Line in
/-- A dollar sign belongs to a name, and to no parameter. -/
theorem parameter_loses_dollar_sign :
    let l : Line := ⟨1, "function f($a, b) \x7b\x7d".toList⟩
    Lists ["$a", "b"] "$a, b".toList ∧
      StatesFunction l.stripped "f".toList ("$a, b".toList ++ ") \x7b\x7d".toList) ∧
      l.classify = some (.code (.functionStatement ["a", "b"]) "f") := by
  intro l
  have hlists : Lists ["$a", "b"] ("$a".toList ++ ',' :: " b".toList) :=
    .more ⟨by decide +kernel, [], [], List.all_eq_true.1 rfl, List.all_eq_true.1 rfl,
        by decide +kernel⟩
      (.one ⟨by decide +kernel, [' '], [], List.all_eq_true.1 rfl, List.all_eq_true.1 rfl,
        by decide +kernel⟩)
  have htext : "$a".toList ++ ',' :: " b".toList = "$a, b".toList := by decide +kernel
  have hstates : StatesFunction l.stripped "f".toList
      ("$a, b".toList ++ ") \x7b\x7d".toList) :=
    ⟨by decide +kernel, [' '], [], by decide, List.all_eq_true.1 rfl, List.all_eq_true.1 rfl,
      by decide +kernel⟩
  exact ⟨htext ▸ hlists, hstates, by decide +kernel⟩

end ScriptOutline
