import ScriptOutline.Proofs.Grammar

/-!
Assignments, and what is found at them. A function is found exactly where one is assigned
(`findsFunction_iff`), and a value where anything else is, if the left side is one that takes values
(`findsValue_iff`). So a value is never a function. But the word `function` ends at a dollar sign,
with which a name goes on, and an equals sign is taken for one of assignment whatever follows it.
-/

set_option autoImplicit false

namespace ScriptOutline
open Text

/-- The forms of functions that are assigned. A function statement assigns nothing. -/
def Form.IsFunctionValue : Form → Prop
  | functionExpression .. | method .. | prototypeMethod .. => True
  | _ => False

namespace Line

def FindsFunction (l : Line) : Prop :=
  ∃ form name, l.classify = some (.code form name) ∧ form.IsFunctionValue

def FindsValue (l : Line) (v : String) : Prop :=
  ∃ form name, l.classify = some (.code form name) ∧ form.value? = some v

/-- A text assigns what stands in `rest`, to a variable or to a member of a path. -/
def Sets (s rest : List Char) : Prop :=
  (∃ n, Declares s n rest) ∨ ∃ r n, Assigns s r n rest

/-- A text assigns what stands in `rest` to what takes values too: a variable, or a member of a
name or of the prototype of a name. -/
def SetsValue (s rest : List Char) : Prop :=
  (∃ n, Declares s n rest) ∨ (∃ r n, IsName r ∧ Assigns s r n rest) ∨
    ∃ c n, IsName c ∧ Assigns s (c ++ '.' :: prototypeWord) n rest

theorem SetsValue.sets {s rest : List Char} (h : SetsValue s rest) : Sets s rest := by
  obtain ⟨n, h⟩ | ⟨r, n, -, h⟩ | ⟨c, n, -, h⟩ := h
  · exact .inl ⟨n, h⟩
  · exact .inr ⟨r, n, h⟩
  · exact .inr ⟨_, n, h⟩

/-! Functions. -/

section
variable {l : Line}

theorem sets_of_fitsIn {s : List Char} {form : Form} {name : String} (h : form.FitsIn s name)
    (hform : form.IsFunctionValue) : ∃ rest u, Sets s rest ∧ IsFunction (skipBlanks rest) u := by
  cases form with
  | functionExpression receiver ps =>
    cases receiver with
    | none =>
      obtain ⟨rest, hdeclares, hps⟩ := h
      obtain ⟨u, hu⟩ := exists_functionValue?_iff.1 ⟨ps, hps⟩
      exact ⟨rest, u, .inl ⟨_, hdeclares⟩, hu⟩
    | some r =>
      obtain ⟨-, rest, u, hexports, hu⟩ := h
      obtain ⟨r, n, -, hassigns⟩ := hexports.assigns
      exact ⟨rest, u, .inr ⟨r, n, hassigns⟩, hu⟩
  | method r ps =>
    obtain ⟨rest, hassigns, hps⟩ := h
    obtain ⟨u, hu⟩ := exists_functionValue?_iff.1 ⟨ps, hps⟩
    exact ⟨rest, u, .inr ⟨_, _, hassigns⟩, hu⟩
  | prototypeMethod c ps =>
    obtain ⟨-, rest, hassigns, hps⟩ := h
    obtain ⟨u, hu⟩ := exists_functionValue?_iff.1 ⟨ps, hps⟩
    exact ⟨rest, u, .inr ⟨_, _, hassigns⟩, hu⟩
  | functionStatement | property | prototypeProperty | declaration => cases hform

/-- Where a function is assigned, it is found with its parameters. -/
theorem exists_classify_eq_of_sets {rest u : List Char} (h : Sets l.stripped rest)
    (hu : IsFunction (skipBlanks rest) u) :
    ∃ form name, l.classify = some (.code form name) ∧ form.IsFunctionValue ∧
      (form.params? = functionValue? rest ∨ form.params? = some (exportParams u)) := by
  obtain ⟨ps, hps⟩ := exists_functionValue?_iff.2 ⟨u, hu⟩
  obtain ⟨n, hdeclares⟩ | ⟨r, n, hassigns⟩ := h
  · rw [classify_of_declares hdeclares, hps]
    exact ⟨_, _, rfl, trivial, .inl rfl⟩
  · by_cases hexports : r ++ '.' :: n = exportsPath
    · rw [classify_of_assigns hassigns, exported?_of_function (hassigns.exports hexports) hu]
      exact ⟨_, _, rfl, trivial, .inr rfl⟩
    · by_cases hprototype : ∃ c, IsName c ∧ r = c ++ '.' :: prototypeWord
      · obtain ⟨c, hc, rfl⟩ := hprototype
        rw [classify_of_prototype_member hc hassigns, hps]
        exact ⟨_, _, rfl, trivial, .inl rfl⟩
      · rw [classify_of_member hassigns hexports fun c hc he => hprototype ⟨c, hc, he⟩, hps]
        exact ⟨_, _, rfl, trivial, .inl rfl⟩

theorem findsFunction_of_sets {rest u : List Char} (h : Sets l.stripped rest)
    (hu : IsFunction (skipBlanks rest) u) : l.FindsFunction := by
  obtain ⟨form, name, hclass, hform, -⟩ := exists_classify_eq_of_sets h hu
  exact ⟨form, name, hclass, hform⟩

theorem findsFunction_iff :
    l.FindsFunction ↔ ∃ rest u, Sets l.stripped rest ∧ IsFunction (skipBlanks rest) u := by
  constructor
  · rintro ⟨form, name, hclass, hform⟩
    exact sets_of_fitsIn (fitsIn_of_classify hclass) hform
  · rintro ⟨rest, u, h, hu⟩
    exact findsFunction_of_sets h hu

/-! Values. -/

theorem FindsValue.not_findsFunction {v : String} (h : l.FindsValue v) : ¬ l.FindsFunction := by
  rintro ⟨form, name, hclass, hform⟩
  obtain ⟨form', name', hclass', hv⟩ := h
  cases hclass.symm.trans hclass'
  cases form with
  | functionExpression | method | prototypeMethod => cases hv
  | functionStatement | property | prototypeProperty | declaration => cases hform

theorem setsValue_of_fitsIn {s : List Char} {form : Form} {name v : String}
    (h : form.FitsIn s name) (hform : form.value? = some v) :
    ∃ rest, SetsValue s rest ∧ value? rest = some v.toList := by
  cases form with
  | property r w =>
    cases hform
    obtain ⟨hr, rest, hassigns, hv⟩ := h
    exact ⟨rest, .inr (.inl ⟨_, _, hr, hassigns⟩), hv⟩
  | prototypeProperty c w =>
    cases hform
    obtain ⟨hc, rest, hassigns, hv⟩ := h
    exact ⟨rest, .inr (.inr ⟨_, _, hc, hassigns⟩), hv⟩
  | declaration w =>
    cases hform
    obtain ⟨rest, hdeclares, hv⟩ := h
    exact ⟨rest, .inl ⟨_, hdeclares⟩, hv⟩
  | functionStatement | functionExpression | method | prototypeMethod => cases hform

/-- Where the left side takes values, what is found is the value, if there is one. -/
theorem exists_classify_eq_of_setsValue {rest : List Char} (h : SetsValue l.stripped rest)
    (hother : ∀ u, ¬ IsFunction (skipBlanks rest) u) :
    ∃ (form : String → Form) (name : String), (∀ v, (form v).value? = some v) ∧
      l.classify = (value? rest).map fun v => .code (form (String.ofList v)) name := by
  have hnone := functionValue?_eq_none_iff.2 hother
  obtain ⟨n, hdeclares⟩ | ⟨r, n, hr, hassigns⟩ | ⟨c, n, hc, hassigns⟩ := h
  · refine ⟨.declaration, String.ofList n, fun _ => rfl, ?_⟩
    rw [classify_of_declares hdeclares, hnone]
    rfl
  · refine ⟨.property (String.ofList r), String.ofList n, fun _ => rfl, ?_⟩
    rw [classify_of_assigns hassigns, exported?_of_assigns_other hassigns hother,
      member?_of_assigns hassigns fun c _ => hr.ne_prototype c, if_pos hr, hnone]
    rfl
  · refine ⟨.prototypeProperty (String.ofList c), String.ofList n, fun _ => rfl, ?_⟩
    rw [classify_of_prototype_member hc hassigns, hnone]
    rfl

theorem findsValue_of_setsValue {rest : List Char} {v : String} (h : SetsValue l.stripped rest)
    (hother : ∀ u, ¬ IsFunction (skipBlanks rest) u) (hv : value? rest = some v.toList) :
    l.FindsValue v := by
  obtain ⟨form, name, hform, hclass⟩ := exists_classify_eq_of_setsValue h hother
  refine ⟨form v, name, ?_, hform v⟩
  rw [hclass, hv, Option.map_some, String.ofList_toList]

/-- Where the left side takes no values, only a function could be found. -/
theorem classify_of_sets_other {rest : List Char} (h : Sets l.stripped rest)
    (hother : ∀ u, ¬ IsFunction (skipBlanks rest) u) (hvalue : ¬ SetsValue l.stripped rest) :
    l.classify = none := by
  obtain ⟨n, hdeclares⟩ | ⟨r, n, hassigns⟩ := h
  · exact absurd (.inl ⟨n, hdeclares⟩) hvalue
  · have hr : ¬ IsName r := fun hr => hvalue (.inr (.inl ⟨r, n, hr, hassigns⟩))
    have hprototype : ∀ c, IsName c → r ≠ c ++ '.' :: prototypeWord := by
      rintro c hc rfl
      exact hvalue (.inr (.inr ⟨c, n, hc, hassigns⟩))
    rw [classify_of_assigns hassigns, exported?_of_assigns_other hassigns hother,
      member?_of_assigns hassigns hprototype, if_neg hr, functionValue?_eq_none_iff.2 hother]
    rfl

/-- What is found begins a comment, states a function or assigns. -/
theorem classify_eq_none (hcomment : ¬ Delimiter.opener.text <+: l.stripped)
    (hstates : ¬ ∃ n rest, StatesFunction l.stripped n rest)
    (hsets : ¬ ∃ rest, Sets l.stripped rest) : l.classify = none := by
  refine Option.eq_none_iff_forall_ne_some.2 fun x hx => ?_
  cases x with
  | commentOpen => exact hcomment ((classify_eq_commentOpen_iff l).1 hx)
  | code form name =>
    have hfits := fitsIn_of_classify hx
    cases form with
    | functionStatement ps => exact hstates ⟨_, hfits⟩
    | functionExpression | method | prototypeMethod =>
      obtain ⟨rest, u, h, -⟩ := sets_of_fitsIn hfits trivial
      exact hsets ⟨rest, h⟩
    | property | prototypeProperty | declaration =>
      obtain ⟨rest, h, -⟩ := setsValue_of_fitsIn hfits rfl
      exact hsets ⟨rest, h.sets⟩

theorem findsValue_iff {v : String} :
    l.FindsValue v ↔ ∃ rest, SetsValue l.stripped rest ∧
      (∀ u, ¬ IsFunction (skipBlanks rest) u) ∧ value? rest = some v.toList := by
  constructor
  · intro h
    have ⟨form, name, hclass, hform⟩ := h
    obtain ⟨rest, hsets, hv⟩ := setsValue_of_fitsIn (fitsIn_of_classify hclass) hform
    exact ⟨rest, hsets,
      fun u hu => h.not_findsFunction (findsFunction_of_sets hsets.sets hu), hv⟩
  · rintro ⟨rest, h, hother, hv⟩
    exact findsValue_of_setsValue h hother hv

end

/-! Texts of values. -/

theorem Sets.exists_left {s rest : List Char} (h : Sets s rest) :
    ∃ left, s = left ++ '=' :: rest ∧ ∀ rest', Sets (left ++ '=' :: rest') rest' := by
  obtain ⟨n, h⟩ | ⟨r, n, h⟩ := h
  · obtain ⟨left, hs, hleft⟩ := h.exists_left
    exact ⟨left, hs, fun rest' => .inl ⟨n, hleft rest'⟩⟩
  · obtain ⟨left, hs, hleft⟩ := h.exists_left
    exact ⟨left, hs, fun rest' => .inr ⟨r, n, hleft rest'⟩⟩

theorem SetsValue.exists_left {s rest : List Char} (h : SetsValue s rest) :
    ∃ left, s = left ++ '=' :: rest ∧ ∀ rest', SetsValue (left ++ '=' :: rest') rest' := by
  obtain ⟨n, h⟩ | ⟨r, n, hr, h⟩ | ⟨c, n, hc, h⟩ := h
  · obtain ⟨left, hs, hleft⟩ := h.exists_left
    exact ⟨left, hs, fun rest' => .inl ⟨n, hleft rest'⟩⟩
  · obtain ⟨left, hs, hleft⟩ := h.exists_left
    exact ⟨left, hs, fun rest' => .inr (.inl ⟨r, n, hr, hleft rest'⟩)⟩
  · obtain ⟨left, hs, hleft⟩ := h.exists_left
    exact ⟨left, hs, fun rest' => .inr (.inr ⟨c, n, hc, hleft rest'⟩)⟩

theorem Sets.behindSign_eq {s rest : List Char} (h : Sets s rest) : behindSign s = rest := by
  obtain ⟨n, h⟩ | ⟨r, n, h⟩ := h
  · exact h.behindSign_eq
  · exact h.behindSign_eq

theorem Sets.assignedText_eq {s rest : List Char} (h : Sets s rest) :
    assignedText s = skipBlanks rest := congrArg skipBlanks h.behindSign_eq

/-- A value goes on to a line feed or a semicolon, unless it is a mere blank. -/
theorem skipBlanks_of_value? {rest v : List Char} (h : value? rest = some v) :
    (∃ tail, skipBlanks rest = v ++ tail ∧ ∀ c ∈ tail.head?, c = '\n' ∨ c = ';') ∨
      ∃ c, isBlank c = true ∧ v = [c] := by
  rw [value?] at h
  split at h
  · obtain ⟨c, hc, rfl⟩ := Option.map_eq_some_iff.1 h
    exact .inr ⟨c, List.all_eq_true.1 List.all_takeWhile c (List.mem_of_getLast? hc), rfl⟩
  · cases h
    obtain ⟨hrest, -, hstop⟩ := takeWhile_dropWhile_eq_iff.1 ⟨rfl, rfl⟩
    refine .inl ⟨_, hrest, fun c hc => ?_⟩
    have hc' := hstop c hc
    grind

/-- What stands in front of any line feed and semicolon belongs to the value. -/
theorem value?_of_skipBlanks {rest start tail : List Char} (h : skipBlanks rest = start ++ tail)
    (hne : start ≠ []) (hstart : ∀ c ∈ start, c ≠ '\n' ∧ c ≠ ';') :
    value? rest = some (start ++ tail.takeWhile fun c => c != '\n' && c != ';') := by
  have hkeep : ∀ c ∈ start, (c != '\n' && c != ';') = true := by simpa using hstart
  rw [value?, h, List.takeWhile_append_of_pos hkeep]
  split
  · rename_i hnil
    exact absurd (List.append_eq_nil_iff.1 hnil).1 hne
  · rfl

/-- No character of a name ends a value. -/
theorem value?_of_name {rest n : List Char} (h : (skipBlanks rest).takeWhile isName = n)
    (hne : n ≠ []) : ∃ v, value? rest = some (n ++ v) := by
  obtain ⟨hrest, hname, -⟩ := takeWhile_dropWhile_eq_iff.1 ⟨h, rfl⟩
  refine ⟨_, value?_of_skipBlanks hrest hne fun c hc => ?_⟩
  constructor <;> rintro rfl <;> exact absurd (hname _ hc) (by decide)

theorem isFunction_of_value? {rest v u : List Char} (h : value? rest = some v)
    (hu : IsFunction v u) : ∃ u', IsFunction (skipBlanks rest) u' := by
  obtain ⟨rfl, hend⟩ := hu
  obtain ⟨tail, hrest, hstop⟩ | ⟨c, -, hv⟩ := skipBlanks_of_value? h
  · refine ⟨u ++ tail, by rw [hrest, List.append_assoc], ?_⟩
    cases u with
    | nil =>
      intro c hc
      obtain rfl | rfl := hstop c hc <;> rfl
    | cons d u => exact hend
  · cases hv

/-- A name that starts with `function` goes on as a word, or it has a dollar sign there. -/
theorem exists_isFunction_iff_of_name {t w : List Char} {d : Char}
    (h : t.takeWhile isName = functionWord ++ d :: w) : (∃ u, IsFunction t u) ↔ d = '$' := by
  obtain ⟨ht, hname, -⟩ := takeWhile_dropWhile_eq_iff.1 ⟨h, rfl⟩
  rw [List.append_assoc] at ht
  constructor
  · rintro ⟨u, hu, hend⟩
    obtain rfl := List.append_cancel_left (hu.symm.trans ht)
    have hd : isName d = true := hname d (by simp)
    rw [isName, hend d rfl, Bool.false_or, beq_iff_eq] at hd
    exact hd
  · rintro rfl
    refine ⟨_, ht, ?_⟩
    rintro c ⟨⟩
    decide

/-- Behind the sign of an assignment and any blanks, a second sign or an arrow's head starts a value
as other characters do. -/
theorem findsValue_of_sign {l : Line} {b rest : List Char} {c : Char}
    (h : SetsValue l.stripped (b ++ c :: rest)) (hb : IsBlanks b) (hc : c = '=' ∨ c = '>') :
    ∃ v, l.FindsValue v ∧ v.toList.head? = some c := by
  have hskip : skipBlanks (b ++ c :: rest) = [c] ++ rest := by
    refine (skipBlanks_eq_cons_iff ?_).2 ⟨b, hb, rfl⟩
    obtain rfl | rfl := hc <;> rfl
  have hother : ∀ u, ¬ IsFunction (skipBlanks (b ++ c :: rest)) u := by
    rintro u ⟨hu, -⟩
    rw [hskip] at hu
    obtain rfl | rfl := hc <;> cases hu
  have hkeep : c ≠ '\n' ∧ c ≠ ';' := by obtain rfl | rfl := hc <;> decide
  have hv := value?_of_skipBlanks hskip (by simp) (List.forall_mem_singleton.2 hkeep)
  refine ⟨_, findsValue_of_setsValue h hother
    (hv.trans (congrArg some String.toList_ofList.symm)), ?_⟩
  rw [String.toList_ofList]
  rfl

end Line

open Line in
/-- No value is a function, and every function that is assigned is found as one. -/
theorem value_is_no_function (l : Line) :
    (∀ v, l.FindsValue v → ∀ u, ¬ IsFunction v.toList u) ∧
      ∀ rest u, Sets l.stripped rest → IsFunction (skipBlanks rest) u → l.FindsFunction := by
  refine ⟨fun v hv u hu => ?_, fun rest u => findsFunction_of_sets⟩
  obtain ⟨rest, -, hother, hvalue⟩ := findsValue_iff.1 hv
  obtain ⟨u', hu'⟩ := isFunction_of_value? hvalue hu
  exact hother u' hu'

open Line in
/-- The word ends at a minus sign, not at a letter. -/
theorem value_is_no_function_minus :
    let value : Line := ⟨1, "a.b =\t functional - 1".toList⟩
    let function : Line := ⟨2, "var c = function-1".toList⟩
    value.FindsValue "functional - 1" ∧ (∀ u, ¬ IsFunction "functional - 1".toList u) ∧
      Sets function.stripped " function-1".toList ∧
      IsFunction (skipBlanks " function-1".toList) "-1".toList ∧ function.FindsFunction := by
  intro value function
  have hclass : value.classify = some (.code (.property "a" "functional - 1") "b") := by
    decide +kernel
  have hvalue : value.FindsValue "functional - 1" := ⟨_, _, hclass, rfl⟩
  have hsets : Sets function.stripped " function-1".toList :=
    .inl ⟨"c".toList, varTarget?_eq_some_iff.1 (by decide +kernel)⟩
  have hfunction : IsFunction (skipBlanks " function-1".toList) "-1".toList :=
    function?_eq_some_iff.1 (by decide +kernel)
  exact ⟨hvalue, (value_is_no_function value).1 _ hvalue, hsets, hfunction,
    (value_is_no_function function).2 _ _ hsets hfunction⟩

open Line in
/-- What stands behind the first equals sign starts with a name of which `function` is a proper
prefix. If the prefix is followed by a dollar sign, a function is found wherever the line assigns at
all. If not, none is found: the line has a value that starts with the name, or, where it assigns to
what takes no values, nothing. -/
theorem name_beginning_with_function (l : Line) (d : Char) (w : List Char)
    (h : (assignedText l.stripped).takeWhile isName = functionWord ++ d :: w) :
    (l.FindsFunction ↔ d = '$' ∧ ∃ rest, Sets l.stripped rest) ∧
    (∀ v, l.FindsValue v → d ≠ '$' ∧ functionWord ++ d :: w <+: v.toList) ∧
    ∀ rest, Sets l.stripped rest → d ≠ '$' →
      (SetsValue l.stripped rest ∧ ∃ v, l.FindsValue v) ∨
        (¬ SetsValue l.stripped rest ∧ l.classify = none) := by
  have hdollar := exists_isFunction_iff_of_name h
  have hvalue : ∀ rest, Sets l.stripped rest →
      ∃ v, value? rest = some ((functionWord ++ d :: w) ++ v) := by
    intro rest hsets
    exact value?_of_name (hsets.assignedText_eq ▸ h) (by simp)
  refine ⟨?_, fun v hv => ?_, fun rest hsets hd => ?_⟩
  · rw [findsFunction_iff, ← hdollar]
    constructor
    · rintro ⟨rest, u, hsets, hu⟩
      exact ⟨⟨u, hsets.assignedText_eq ▸ hu⟩, rest, hsets⟩
    · rintro ⟨⟨u, hu⟩, rest, hsets⟩
      exact ⟨rest, u, hsets, hsets.assignedText_eq ▸ hu⟩
  · obtain ⟨rest, hsets, hother, hv⟩ := findsValue_iff.1 hv
    rw [← hsets.sets.assignedText_eq, ← not_exists, hdollar] at hother
    obtain ⟨v', hv'⟩ := hvalue rest hsets.sets
    exact ⟨hother, v', Option.some_inj.1 (hv'.symm.trans hv)⟩
  · have hother : ∀ u, ¬ IsFunction (skipBlanks rest) u := by
      rwa [← hsets.assignedText_eq, ← not_exists, hdollar]
    by_cases hset : SetsValue l.stripped rest
    · obtain ⟨v, hv⟩ := hvalue rest hsets
      exact .inl ⟨hset, _, findsValue_of_setsValue hset hother
        (hv.trans (congrArg some String.toList_ofList.symm))⟩
    · exact .inr ⟨hset, classify_of_sets_other hsets hother hset⟩

open Line in
/-- A dollar sign goes on with a name, but not with the word in front of it. -/
theorem name_beginning_with_function_dollar :
    let l : Line := ⟨1, "option.cb = function$x;".toList⟩
    (assignedText l.stripped).takeWhile isName = functionWord ++ ['$', 'x'] ∧
      l.classify = some (.code (.method "option" []) "cb") := by
  decide +kernel

open Line in
/-- Without a dollar sign the name is a value. -/
theorem name_beginning_with_function_word :
    let l : Line := ⟨1, "\toption.cb =functional (1);".toList⟩
    (assignedText l.stripped).takeWhile isName = functionWord ++ ['a', 'l'] ∧
      ¬ l.FindsFunction ∧ l.FindsValue "functional (1)" := by
  intro l
  have hname : (assignedText l.stripped).takeWhile isName = functionWord ++ ['a', 'l'] := by
    decide +kernel
  have hclass : l.classify = some (.code (.property "option" "functional (1)") "cb") := by
    decide +kernel
  refine ⟨hname, fun hfunction => ?_, _, _, hclass, rfl⟩
  exact absurd ((name_beginning_with_function l 'a' ['l'] hname).1.1 hfunction).1 (by decide)

open Line in
/-- Every value is taken from behind the first equals sign of its line, whatever follows this sign.
So a comparison or an arrow is found as an assignment wherever the left side takes values, and the
value starts with an equals sign wherever, blanks aside, one follows the first. -/
theorem comparison_found_as_value_iff (l : Line) :
    (∀ v, l.FindsValue v →
      ∃ rest, SetsValue l.stripped rest ∧ behindSign l.stripped = rest ∧
        value? rest = some v.toList) ∧
    ((∃ v, l.FindsValue v ∧ ∃ c ∈ (behindSign l.stripped).head?, c = '=' ∨ c = '>') ↔
      ∃ c rest, (c = '=' ∨ c = '>') ∧ SetsValue l.stripped (c :: rest)) ∧
    ((∃ v, l.FindsValue v ∧ v.toList.head? = some '=') ↔
      ∃ b rest, IsBlanks b ∧ SetsValue l.stripped (b ++ '=' :: rest)) := by
  have hsource : ∀ v, l.FindsValue v → ∃ rest, SetsValue l.stripped rest ∧
      behindSign l.stripped = rest ∧ value? rest = some v.toList := by
    intro v hv
    obtain ⟨rest, hsets, -, hvalue⟩ := findsValue_iff.1 hv
    exact ⟨rest, hsets, hsets.sets.behindSign_eq, hvalue⟩
  refine ⟨hsource, ⟨?_, ?_⟩, ⟨?_, ?_⟩⟩
  · rintro ⟨v, hv, c, hc, hsign⟩
    obtain ⟨rest, hsets, hrest, -⟩ := hsource v hv
    obtain ⟨rest', hrest'⟩ := List.head?_eq_some_iff.1 hc
    rw [← hrest, hrest'] at hsets
    exact ⟨c, rest', hsign, hsets⟩
  · rintro ⟨c, rest, hsign, hsets⟩
    obtain ⟨v, hv, -⟩ := findsValue_of_sign hsets (b := []) (by simp [IsBlanks]) hsign
    exact ⟨v, hv, c, by rw [hsets.sets.behindSign_eq]; rfl, hsign⟩
  · rintro ⟨v, hv, hhead⟩
    obtain ⟨rest, hsets, -, hvalue⟩ := hsource v hv
    obtain ⟨w, hw⟩ := List.head?_eq_some_iff.1 hhead
    rw [hw] at hvalue
    obtain ⟨tail, hrest, -⟩ | ⟨c, hc, hblank⟩ := skipBlanks_of_value? hvalue
    · obtain ⟨b, hb, rfl⟩ := (skipBlanks_eq_cons_iff rfl).1 hrest
      exact ⟨b, _, hb, hsets⟩
    · cases hblank
      cases hc
  · rintro ⟨b, rest, hb, hsets⟩
    obtain ⟨v, hv, hhead⟩ := findsValue_of_sign hsets hb (.inl rfl)
    exact ⟨v, hv, hhead⟩

open Line in
/-- The second sign stands behind blanks. -/
theorem comparison_found_as_value_iff_blanks :
    let l : Line := ⟨3, "A.prototype.b =  = 1;".toList⟩
    SetsValue l.stripped "  = 1;".toList ∧ IsBlanks "  ".toList ∧
      ∃ v, l.FindsValue v ∧ v.toList.head? = some '=' := by
  intro l
  have hsets : SetsValue l.stripped "  = 1;".toList :=
    .inr (.inr ⟨"A".toList, "b".toList, prototypeTarget?_eq_some_iff.1 (by decide +kernel)⟩)
  have hblanks : IsBlanks "  ".toList := List.all_eq_true.1 (by decide +kernel)
  exact ⟨hsets, hblanks, (comparison_found_as_value_iff l).2.2.2 ⟨_, " 1;".toList, hblanks, hsets⟩⟩

open Line in
/-- A comparison and an arrow are found as assignments of what follows their first character. -/
theorem comparison_found_as_property :
    let equality : Line := ⟨1, "a.b === c".toList⟩
    let arrow : Line := ⟨2, "var f => g;".toList⟩
    equality.FindsValue "== c" ∧ behindSign equality.stripped = "== c".toList ∧
      arrow.FindsValue "> g" ∧ behindSign arrow.stripped = "> g;".toList := by
  intro equality arrow
  have hequality : equality.classify = some (.code (.property "a" "== c") "b") := by
    decide +kernel
  have harrow : arrow.classify = some (.code (.declaration "> g") "f") := by decide +kernel
  exact ⟨⟨_, _, hequality, rfl⟩, by decide +kernel, ⟨_, _, harrow, rfl⟩, by decide +kernel⟩

end ScriptOutline
