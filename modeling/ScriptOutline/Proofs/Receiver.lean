import ScriptOutline.Proofs.Assignment

/-!
Receivers of methods and of properties. Two lines with the same left side, one of which assigns a
function, are a method and a property of the same receiver exactly if the receiver is one name
(`property_has_receiver_of_method_iff`): methods take receivers with dots, properties do not.
-/

set_option autoImplicit false

namespace ScriptOutline
open Text

namespace Line

/-- What a run does not take in ends it. -/
theorem dropWhile_append_cons {p : Char → Bool} {c : Char} (hc : p c = false) (s t : List Char) :
    (s ++ c :: t).dropWhile p = s.dropWhile p ++ c :: t := by
  rw [List.dropWhile_append]
  split
  · rename_i hempty
    rw [List.isEmpty_iff.1 hempty, List.dropWhile_cons_of_neg (by simp [hc])]
    rfl
  · rfl

/-- The first sign of a line parts its left side from what is assigned, whatever this is. -/
theorem Assigns.replace {left x r n rest : List Char} (hleft : '=' ∉ left)
    (h : Assigns (left ++ '=' :: x) r n rest) :
    rest = x ∧ ∀ y, Assigns (left ++ '=' :: y) r n y := by
  obtain ⟨left', hs, hassigns⟩ := h.exists_left
  obtain rfl : rest = x := h.behindSign_eq.symm.trans (behindSign_append hleft)
  obtain rfl := List.append_cancel_right hs
  exact ⟨rfl, hassigns⟩

/-- Whether a function stands before a second sign does not depend on what follows that. -/
theorem exists_isFunction_before_sign {q x u : List Char} (y : List Char)
    (h : IsFunction (skipBlanks (q ++ '=' :: x)) u) :
    ∃ u', IsFunction (skipBlanks (q ++ '=' :: y)) u' := by
  obtain ⟨hu, hend⟩ := h
  rw [skipBlanks, dropWhile_append_cons rfl] at hu ⊢
  obtain ⟨w, hw, hx⟩ | ⟨w, hw, rfl⟩ := List.append_eq_append_iff.1 hu
  · cases w with
    | nil =>
      rw [List.append_nil] at hw
      refine ⟨'=' :: y, by rw [← hw], ?_⟩
      rintro c ⟨⟩
      decide
    | cons d w =>
      obtain ⟨rfl, -⟩ := List.cons.inj hx
      exact absurd (hw ▸ List.mem_append_right _ List.mem_cons_self) (by decide)
  · refine ⟨w ++ '=' :: y, by rw [hw, List.append_assoc], fun c hc => hend c ?_⟩
    cases w with
    | nil => exact hc
    | cons d w => exact hc

theorem skipBlanks_space (e : List Char) : skipBlanks (' ' :: e) = skipBlanks e :=
  List.dropWhile_cons_of_pos rfl

/-- Behind a blank there is always a value. -/
theorem exists_value?_space (e : List Char) : ∃ v, value? (' ' :: e) = some v := by
  rw [value?, skipBlanks_space]
  split
  · rw [List.takeWhile_cons_of_pos rfl, List.getLast?_cons]
    exact ⟨_, rfl⟩
  · exact ⟨_, rfl⟩

/-! Methods. -/

section
variable {l m : Line} {r n : String} {ps : List String}

/-- What is found as a method is neither exported nor a member of a prototype. -/
theorem of_classify_method (h : l.classify = some (.code (.method r ps) n)) :
    ∃ rest, Assigns l.stripped r.toList n.toList rest ∧ functionValue? rest = some ps ∧
      r.toList ++ '.' :: n.toList ≠ exportsPath ∧
      ∀ c, IsName c → r.toList ≠ c ++ '.' :: prototypeWord := by
  obtain ⟨rest, hassigns, hps⟩ := fitsIn_of_classify h
  obtain ⟨u, hu⟩ := exists_functionValue?_iff.1 ⟨ps, hps⟩
  refine ⟨rest, hassigns, hps, fun hpath => ?_, fun c hc hr => ?_⟩
  · obtain ⟨ps', hclass⟩ := classify_of_export (hassigns.exports hpath) hu
    cases h.symm.trans hclass
  · rw [classify_of_prototype_member hc (hr ▸ hassigns), hps] at h
    cases h

/-- A text before a sign is followed by any other text as by the one that makes a method. -/
theorem exists_assigns_of_method {left x : List Char}
    (h : l.classify = some (.code (.method r ps) n)) (hl : l.stripped = left ++ '=' :: x)
    (y : List Char) (hm : m.stripped = left ++ '=' :: y) :
    ∃ rest, Assigns m.stripped r.toList n.toList rest ∧
      m.classify = ((functionValue? rest).map fun ps => .code (.method r ps) n).or
        (if IsName r.toList then
          (value? rest).map fun v => .code (.property r (String.ofList v)) n else none) ∧
      (('=' ∉ left ∧ rest = y) ∨ '=' ∈ left ∧ ∃ ps, functionValue? rest = some ps) := by
  obtain ⟨rest, hassigns, hps, hpath, hprototype⟩ := of_classify_method h
  have hclass : ∀ rest', Assigns m.stripped r.toList n.toList rest' → m.classify =
      ((functionValue? rest').map fun ps => .code (.method r ps) n).or
        (if IsName r.toList then
          (value? rest').map fun v => .code (.property r (String.ofList v)) n else none) := by
    intro rest' hassigns'
    rw [classify_of_member hassigns' hpath hprototype, String.ofList_toList, String.ofList_toList]
  rw [hl] at hassigns
  rw [hm] at hclass ⊢
  by_cases hsign : '=' ∈ left
  · obtain ⟨first, second, rfl, hfirst⟩ := List.eq_append_cons_of_mem hsign
    rw [List.append_assoc, List.cons_append] at hassigns hclass ⊢
    obtain ⟨rfl, hreplace⟩ := hassigns.replace hfirst
    obtain ⟨u, hu⟩ := exists_functionValue?_iff.1 ⟨ps, hps⟩
    have hfunction := exists_functionValue?_iff.2 (exists_isFunction_before_sign y hu)
    exact ⟨_, hreplace _, hclass _ (hreplace _), .inr ⟨hsign, hfunction⟩⟩
  · obtain ⟨-, hreplace⟩ := hassigns.replace hsign
    exact ⟨y, hreplace y, hclass y (hreplace y), .inl ⟨hsign, rfl⟩⟩

end

end Line

open Line in
/-- Two lines have one left side, and the first assigns a function. If it is a method, the second
line is a method of the same receiver and name where it assigns a function too, be it before another
sign. Where it assigns anything else it is a property of that receiver and name if the receiver is
one name, and otherwise nothing. Every property comes from a method in this way, unless it is what
a module exports. -/
theorem property_has_receiver_of_method_iff (left e : List Char) (l m : Line)
    (hl : l.raw = left ++ " = function() \x7b\x7d".toList)
    (hm : m.raw = left ++ " = ".toList ++ e) :
    (∀ r ps n, l.classify = some (.code (.method r ps) n) →
      (('=' ∈ left ∨ ∃ u, IsFunction (skipBlanks e) u) →
        ∃ ps, m.classify = some (.code (.method r ps) n)) ∧
      ('=' ∉ left → (∀ u, ¬ IsFunction (skipBlanks e) u) →
        if IsName r.toList then
          ∃ v, value? (' ' :: e) = some v.toList ∧ m.classify = some (.code (.property r v) n)
        else m.classify = none)) ∧
    ∀ r v n, '=' ∉ left → m.classify = some (.code (.property r v) n) →
      r.toList ++ '.' :: n.toList ≠ exportsPath →
        l.classify = some (.code (.method r []) n) := by
  let before := trimStart (left ++ [' '])
  have hstripped : ∀ (l : Line) (x : List Char), l.raw = left ++ ' ' :: '=' :: x →
      l.stripped = before ++ '=' :: x := by
    intro l x h
    rw [stripped, h, List.append_cons, trimStart, dropWhile_append_cons rfl, ← trimStart]
  have htext : " = function() \x7b\x7d".toList =
      ' ' :: '=' :: " function() \x7b\x7d".toList := by decide +kernel
  have hl' : l.stripped = before ++ '=' :: " function() \x7b\x7d".toList :=
    hstripped l _ (by rw [hl, htext])
  have hm' : m.stripped = before ++ '=' :: ' ' :: e := hstripped m _ (by simpa using hm)
  have hsign : '=' ∈ before ↔ '=' ∈ left := by
    have hmem : '=' ∈ left ++ [' '] ↔ '=' ∈ left := by simp
    rw [← hmem, ← trimStart_append (left ++ [' ']), List.mem_append]
    refine (or_iff_right fun hspace => ?_).symm
    cases List.all_eq_true.1 List.all_takeWhile _ hspace
  refine ⟨fun r ps n hmethod => ?_, fun r v n hleft hproperty hpath => ?_⟩
  · obtain ⟨rest, hassigns, hclass, hrest⟩ := exists_assigns_of_method hmethod hl' _ hm'
    constructor
    · intro hfunction
      have hps : ∃ ps, functionValue? rest = some ps := by
        obtain ⟨hleft, rfl⟩ | ⟨-, hps⟩ := hrest
        · rw [exists_functionValue?_iff, skipBlanks_space]
          exact hfunction.resolve_left (hsign.not.1 hleft)
        · exact hps
      obtain ⟨ps', hps⟩ := hps
      rw [hclass, hps]
      exact ⟨ps', rfl⟩
    · intro hleft hother
      obtain ⟨-, rfl⟩ := hrest.resolve_right fun h => hleft (hsign.1 h.1)
      rw [← skipBlanks_space, ← functionValue?_eq_none_iff] at hother
      rw [hclass, hother]
      split
      · obtain ⟨v, hv⟩ := exists_value?_space e
        exact ⟨String.ofList v, by rw [hv, String.toList_ofList], by rw [hv]; rfl⟩
      · rfl
  · obtain ⟨hr, rest, hassigns, -⟩ := fitsIn_of_classify hproperty
    rw [hm'] at hassigns
    have hl'' := (hassigns.replace (hsign.not.2 hleft)).2 " function() \x7b\x7d".toList
    rw [← hl'] at hl''
    have hps : functionValue? " function() \x7b\x7d".toList = some [] := by decide +kernel
    rw [classify_of_member hl'' hpath fun c _ => hr.ne_prototype c, hps, Option.map_some,
      Option.some_or, String.ofList_toList, String.ofList_toList]

open Line in
/-- A receiver of two names takes a function and no value, one name takes both, and the property
shows that a function would be taken there. -/
theorem property_has_receiver_of_method_iff_nested_and_plain :
    let nestedFunction : Line := ⟨1, "\ta.b.c".toList ++ " = function() \x7b\x7d".toList⟩
    let nestedValue : Line := ⟨2, "\ta.b.c".toList ++ " = ".toList ++ "-1;".toList⟩
    let plainFunction : Line := ⟨3, "$.c".toList ++ " = function() \x7b\x7d".toList⟩
    let plainValue : Line := ⟨4, "$.c".toList ++ " = ".toList ++ "functional".toList⟩
    nestedFunction.classify = some (.code (.method "a.b" []) "c") ∧ nestedValue.classify = none ∧
      (∀ u, ¬ IsFunction (skipBlanks "functional".toList) u) ∧
      plainValue.classify = some (.code (.property "$" "functional") "c") ∧
      plainFunction.classify = some (.code (.method "$" []) "c") := by
  intro nestedFunction nestedValue plainFunction plainValue
  have hnested : nestedFunction.classify = some (.code (.method "a.b" []) "c") := by
    decide +kernel
  have hplain : plainValue.classify = some (.code (.property "$" "functional") "c") := by
    decide +kernel
  have hother : ∀ e, function? (skipBlanks e) = none → ∀ u, ¬ IsFunction (skipBlanks e) u := by
    intro e he u hu
    cases he.symm.trans (function?_eq_some_iff.2 hu)
  refine ⟨hnested, ?_, hother _ (by decide +kernel), hplain, ?_⟩
  · have hvalue := ((property_has_receiver_of_method_iff "\ta.b.c".toList "-1;".toList
      nestedFunction nestedValue rfl rfl).1 _ _ _ hnested).2 (by decide +kernel)
        (hother _ (by decide +kernel))
    rwa [if_neg (by decide +kernel)] at hvalue
  · exact (property_has_receiver_of_method_iff "$.c".toList "functional".toList plainFunction
      plainValue rfl rfl).2 _ _ _ (by decide +kernel) hplain (by decide +kernel)

open Line in
/-- A function and a number are assigned to one left side, and only the function is found. -/
theorem property_lacks_receiver_of_method :
    let function : Line := ⟨1, "a.b.c = function() \x7b\x7d".toList⟩
    let value : Line := ⟨1, "a.b.c = 1".toList⟩
    function.classify = some (.code (.method "a.b" []) "c") ∧ value.classify = none := by
  decide +kernel

end ScriptOutline
