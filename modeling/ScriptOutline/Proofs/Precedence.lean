import ScriptOutline.Proofs.Classification

/-!
Shapes that fit one line together. A shape implies another where its left side and its value are
special cases of the other's (`fits_of_implies`). Otherwise two shapes fit one line only if a third
one implies both, or if they are those of methods and properties (`overlap_of_fits`). So one of the
shapes that fit a line is the most specific, and every order that respects precedence comes to it
first (`find?_eq_some_iff_mostSpecific`).
-/

set_option autoImplicit false

namespace ScriptOutline
open Text Line

namespace Line

theorem exists_value?_of_isFunction {rest u : List Char} (h : IsFunction (skipBlanks rest) u) :
    ∃ v, value? rest = some v := by
  simp [value?, h.1, functionWord]

/-! Openings. -/

/-- What the path that a text starts with tells about it: the word that it is, that it has one dot
in it, or that it has several. -/
inductive Opening where
  | word (w : List Char)
  | member
  | nested
  deriving DecidableEq

def opening (path : List Char) : Opening :=
  if path.count '.' = 0 then .word path else if path.count '.' = 1 then .member else .nested

theorem opening_assigns {text r n rest : List Char} (h : Assigns text r n rest) :
    opening (text.takeWhile isDotted) = if '.' ∈ r then .nested else .member := by
  have hcount : (r ++ '.' :: n).count '.' = r.count '.' + 1 := by
    simp [List.count_eq_zero_of_not_mem h.2.1.dot_not_mem]
  rw [h.takeWhile_dropWhile.1, opening, hcount]
  simp only [Nat.succ_ne_zero, if_false, Nat.add_eq_right, List.count_eq_zero, ite_not]

end Line

namespace Shape

/-! Precedence. -/

/-- The shapes that fit whatever a shape fits. -/
def implied : Shape → List Shape
  | functionExpression => [declaration]
  | namedExport => [anonymousExport, method, property]
  | anonymousExport => [method, property]
  | prototypeMethod => [prototypeProperty, method]
  | _ => []

def Implies (s t : Shape) : Prop := t ∈ s.implied

/-- A shape takes precedence over those that it implies, and the shape of methods also over that of
properties, which has other receivers. -/
def Precedes (s t : Shape) : Prop := s.Implies t ∨ s = method ∧ t = property

instance (s t : Shape) : Decidable (s.Implies t) := inferInstanceAs (Decidable (t ∈ s.implied))

instance (s t : Shape) : Decidable (s.Precedes t) :=
  inferInstanceAs (Decidable (s.Implies t ∨ s = method ∧ t = property))

theorem precedes_irrefl (s : Shape) : ¬ s.Precedes s := by cases s <;> decide

theorem precedes_asymm {s t : Shape} (h : s.Precedes t) : ¬ t.Precedes s := by
  revert h
  cases s <;> cases t <;> decide

/-! When a shape fits. -/

def Fits (s : Shape) (l : Line) : Prop := (s.find? l).isSome

instance (s : Shape) (l : Line) : Decidable (s.Fits l) :=
  inferInstanceAs (Decidable ((s.find? l).isSome = true))

/-- A shape fits a line and takes precedence over all others that do. -/
def MostSpecific (s : Shape) (l : Line) : Prop :=
  s.Fits l ∧ ∀ t : Shape, t.Fits l → t = s ∨ s.Precedes t

/-- What a shape asks of a text: a left side, and a function or a value behind it. -/
def Asks (text : List Char) : Shape → Prop
  | commentOpen => Delimiter.opener.text <+: text
  | functionStatement => ∃ n rest, StatesFunction text n rest
  | functionExpression => ∃ n rest, Declares text n rest ∧ ∃ u, IsFunction (skipBlanks rest) u
  | namedExport =>
    ∃ rest, Exports text rest ∧ ∃ u, IsFunction (skipBlanks rest) u ∧ ownName u ≠ []
  | anonymousExport => ∃ rest, Exports text rest ∧ ∃ u, IsFunction (skipBlanks rest) u
  | prototypeMethod => ∃ c n rest,
    (IsName c ∧ Assigns text (c ++ '.' :: prototypeWord) n rest) ∧
      ∃ u, IsFunction (skipBlanks rest) u
  | prototypeProperty => ∃ c n rest,
    (IsName c ∧ Assigns text (c ++ '.' :: prototypeWord) n rest) ∧ ∃ v, value? rest = some v
  | method => ∃ r n rest, Assigns text r n rest ∧ ∃ u, IsFunction (skipBlanks rest) u
  | property => ∃ r n rest, (IsName r ∧ Assigns text r n rest) ∧ ∃ v, value? rest = some v
  | declaration => ∃ n rest, Declares text n rest ∧ ∃ v, value? rest = some v

theorem fits_iff {s : Shape} {l : Line} : s.Fits l ↔ s.Asks l.stripped := by
  rw [Fits, Option.isSome_iff_exists]
  cases s with
  | commentOpen => simp [find?, Asks, commentOpen?_eq_some_iff]
  | functionStatement => simp [find?, Asks, functionStatement?_eq_some_iff]
  | functionExpression =>
    simp [find?, Asks, functionExpression?, Option.bind_eq_some_iff, varTarget?_eq_some_iff,
      exists_functionValue?_iff]
  | namedExport => exact exists_namedExport?_iff
  | anonymousExport =>
    simp [find?, Asks, anonymousExport?, Option.bind_eq_some_iff, exportsTarget?_eq_some_iff,
      function?_eq_some_iff]
  | prototypeMethod =>
    simp [find?, Asks, prototypeMethod?, Option.bind_eq_some_iff, prototypeTarget?_eq_some_iff,
      exists_functionValue?_iff]
  | prototypeProperty =>
    simp [find?, Asks, prototypeProperty?, Option.bind_eq_some_iff, prototypeTarget?_eq_some_iff]
  | method =>
    simp [find?, Asks, method?, Option.bind_eq_some_iff, dottedTarget?_eq_some_iff,
      exists_functionValue?_iff]
  | property =>
    simp [find?, Asks, property?, Option.bind_eq_some_iff, memberTarget?_eq_some_iff]
  | declaration =>
    simp [find?, Asks, declaration?_eq, assigned?, Option.bind_eq_some_iff,
      varTarget?_eq_some_iff, stripped]

/-! Which shapes fit together. -/

theorem asks_of_export {t : Shape} {text rest u : List Char} (h : Exports text rest)
    (hu : IsFunction (skipBlanks rest) u) (ht : t ∈ anonymousExport.implied) : t.Asks text := by
  obtain ⟨r, n, hr, hassigns⟩ := h.assigns
  obtain rfl | rfl : t = method ∨ t = property := by simpa [implied] using ht
  · exact ⟨r, n, rest, hassigns, u, hu⟩
  · exact ⟨r, n, rest, ⟨hr, hassigns⟩, exists_value?_of_isFunction hu⟩

theorem fits_of_implies {s t : Shape} {l : Line} (h : s.Implies t) (hs : s.Fits l) : t.Fits l := by
  rw [fits_iff] at hs ⊢
  cases s with
  | functionExpression =>
    obtain rfl : t = declaration := List.mem_singleton.1 h
    obtain ⟨n, rest, hdeclares, u, hu⟩ := hs
    exact ⟨n, rest, hdeclares, exists_value?_of_isFunction hu⟩
  | namedExport =>
    obtain ⟨rest, hexports, u, hu, -⟩ := hs
    obtain rfl | ht := List.mem_cons.1 h
    · exact ⟨rest, hexports, u, hu⟩
    · exact asks_of_export hexports hu ht
  | anonymousExport =>
    obtain ⟨rest, hexports, u, hu⟩ := hs
    exact asks_of_export hexports hu h
  | prototypeMethod =>
    obtain ⟨c, n, rest, hassigns, u, hu⟩ := hs
    obtain rfl | rfl : t = prototypeProperty ∨ t = method := by simpa [Implies, implied] using h
    · exact ⟨c, n, rest, hassigns, exists_value?_of_isFunction hu⟩
    · exact ⟨_, n, rest, hassigns.2, u, hu⟩
  | commentOpen | functionStatement | prototypeProperty | method | property | declaration => cases h

/-- How a line may open that a shape fits. -/
def openings : Shape → List Opening
  | commentOpen => [.word []]
  | functionStatement => [.word functionWord]
  | functionExpression | declaration => [.word varWord]
  | namedExport | anonymousExport | property => [.member]
  | prototypeMethod | prototypeProperty => [.nested]
  | method => [.member, .nested]

theorem opening_of_fits {s : Shape} {l : Line} (h : s.Fits l) :
    opening (l.stripped.takeWhile isDotted) ∈ s.openings := by
  have hasks := fits_iff.1 h
  obtain ⟨x, hx⟩ := Option.isSome_iff_exists.1 h
  cases s with
  | commentOpen =>
    rw [path_of_commentOpen? hx]
    decide
  | functionStatement =>
    rw [path_of_functionStatement? hx]
    decide
  | functionExpression | declaration =>
    obtain ⟨n, rest, hdeclares, -⟩ := hasks
    rw [path_of_varTarget? (varTarget?_eq_some_iff.2 hdeclares)]
    decide
  | namedExport | anonymousExport =>
    obtain ⟨rest, hexports, -⟩ := hasks
    rw [path_of_exportsTarget? (exportsTarget?_eq_some_iff.2 hexports)]
    decide
  | prototypeMethod | prototypeProperty =>
    obtain ⟨c, n, rest, ⟨-, hassigns⟩, -⟩ := hasks
    rw [opening_assigns hassigns, if_pos (by simp)]
    decide
  | method =>
    obtain ⟨r, n, rest, hassigns, -⟩ := hasks
    rw [opening_assigns hassigns]
    split <;> decide
  | property =>
    obtain ⟨r, n, rest, ⟨hr, hassigns⟩, -⟩ := hasks
    rw [opening_assigns hassigns, if_neg hr.dot_not_mem]
    decide

theorem overlap_of_openings {s t : Shape} {o : Opening} (hs : o ∈ s.openings)
    (ht : o ∈ t.openings) :
    s = t ∨ s.Precedes t ∨ t.Precedes s ∨
      s = prototypeProperty ∧ t = method ∨ s = method ∧ t = prototypeProperty := by
  have hall : ∀ s ∈ all, ∀ t ∈ all, (∃ o ∈ s.openings, o ∈ t.openings) →
      s = t ∨ s.Precedes t ∨ t.Precedes s ∨
        s = prototypeProperty ∧ t = method ∨ s = method ∧ t = prototypeProperty := by decide
  exact hall s (mem_all s) t (mem_all t) ⟨o, hs, ht⟩

/-- Where a method and a member of a prototype are one, the value is a function. -/
theorem prototypeMethod_fits {l : Line} (hprototype : prototypeProperty.Fits l)
    (hmethod : method.Fits l) : prototypeMethod.Fits l := by
  rw [fits_iff] at hprototype hmethod ⊢
  obtain ⟨c, n, rest, ⟨hc, hassigns⟩, -⟩ := hprototype
  obtain ⟨r, n', rest', hassigns', u, hu⟩ := hmethod
  obtain ⟨-, -, rfl⟩ := hassigns.eq_of_assigns hassigns'
  exact ⟨c, n, rest, ⟨hc, hassigns⟩, u, hu⟩

theorem overlap_of_fits {s t : Shape} {l : Line} (hs : s.Fits l) (ht : t.Fits l) :
    s = t ∨ s.Precedes t ∨ t.Precedes s ∨ ∃ u : Shape, u.Fits l ∧ u.Implies s ∧ u.Implies t := by
  obtain h | h | h | ⟨rfl, rfl⟩ | ⟨rfl, rfl⟩ :=
    overlap_of_openings (opening_of_fits hs) (opening_of_fits ht)
  · exact .inl h
  · exact .inr (.inl h)
  · exact .inr (.inr (.inl h))
  · exact .inr (.inr (.inr ⟨_, prototypeMethod_fits hs ht, by decide, by decide⟩))
  · exact .inr (.inr (.inr ⟨_, prototypeMethod_fits ht hs, by decide, by decide⟩))

/-! Orders. -/

/-- Every shape is in its place: none stands behind one over which it takes precedence. -/
def Ordered (order : List Shape) : Prop :=
  order.Perm all ∧ order.Pairwise fun s t => ¬ t.Precedes s

instance (order : List Shape) : Decidable (Ordered order) :=
  inferInstanceAs (Decidable (order.Perm all ∧ order.Pairwise fun s t => ¬ t.Precedes s))

theorem ordered_all : Ordered all := ⟨.refl _, by decide⟩

theorem MostSpecific.eq {s t : Shape} {l : Line} (hs : s.MostSpecific l) (ht : t.MostSpecific l) :
    s = t := by
  obtain rfl | hprecedes := hs.2 t ht.1
  · rfl
  · obtain rfl | hprecedes' := ht.2 s hs.1
    · rfl
    · exact absurd hprecedes (precedes_asymm hprecedes')

theorem mostSpecific_of_find? {order : List Shape} (h : Ordered order) {l : Line} {s : Shape}
    (hs : order.find? (fun t => (t.find? l).isSome) = some s) : s.MostSpecific l := by
  obtain ⟨hfits, before, behind, rfl, hbefore⟩ := List.find?_eq_some_iff_append.1 hs
  obtain ⟨-, hbehind, -⟩ := List.pairwise_append.1 h.2
  have hfirst : ∀ t : Shape, t.Fits l → ¬ t.Precedes s := by
    intro t ht hprecedes
    have hmem := h.1.mem_iff.2 (mem_all t)
    rw [List.mem_append, List.mem_cons] at hmem
    obtain hmem | rfl | hmem := hmem
    · exact absurd ht (by simpa [Fits] using hbefore t hmem)
    · exact precedes_irrefl _ hprecedes
    · exact (List.pairwise_cons.1 hbehind).1 t hmem hprecedes
  refine ⟨hfits, fun t ht => ?_⟩
  obtain rfl | hprecedes | hprecedes | ⟨u, hu, hus, -⟩ := overlap_of_fits hfits ht
  · exact .inl rfl
  · exact .inr hprecedes
  · exact absurd hprecedes (hfirst t ht)
  · exact absurd (.inl hus) (hfirst u hu)

/-- The first shape that fits is the most specific one. -/
theorem find?_eq_some_iff_mostSpecific {order : List Shape} (h : Ordered order) (l : Line)
    (s : Shape) :
    order.find? (fun t => (t.find? l).isSome) = some s ↔ s.MostSpecific l := by
  refine ⟨mostSpecific_of_find? h, fun hs => ?_⟩
  cases hfind : order.find? (fun t => (t.find? l).isSome) with
  | none => exact absurd hs.1 (List.find?_eq_none.1 hfind s (h.1.mem_iff.2 (mem_all s)))
  | some t => rw [(mostSpecific_of_find? h hfind).eq hs]

/-- What is found in a line is what the first shape that fits finds in it. -/
theorem findSome?_eq_bind (order : List Shape) (l : Line) :
    order.findSome? (·.find? l) =
      (order.find? fun s => (s.find? l).isSome).bind (·.find? l) := by
  induction order with
  | nil => rfl
  | cons s order ih => cases hs : s.find? l <;> simp [hs, ih]

theorem find?_eq_of_ordered {order : List Shape} (h : Ordered order) (l : Line) :
    order.find? (fun s => (s.find? l).isSome) = l.shape? := by
  refine Option.ext fun s => ?_
  rw [shape?, find?_eq_some_iff_mostSpecific h, find?_eq_some_iff_mostSpecific ordered_all]

/-! What shapes find. -/

/-- The record that a shape makes of a text, as far as its kind, its name and its receiver or
owner go. -/
inductive Prescribes (text : List Char) : Shape → Finding → Prop
  | commentOpen : Prescribes text commentOpen .commentOpen
  | functionStatement {n : String} {rest : List Char} (ps : List String) :
      StatesFunction text n.toList rest →
      Prescribes text functionStatement (.code (.functionStatement ps) n)
  | functionExpression {n : String} {rest : List Char} (ps : List String) :
      Declares text n.toList rest →
      Prescribes text functionExpression (.code (.functionExpression none ps) n)
  | namedExport {n : String} (ps : List String) : n ≠ "" →
      Prescribes text namedExport (.code (.functionExpression (some "module.exports") ps) n)
  | anonymousExport (ps : List String) :
      Prescribes text anonymousExport (.code (.functionExpression (some "module.exports") ps) "")
  | prototypeMethod {c n : String} {rest : List Char} (ps : List String) :
      Assigns text (c.toList ++ '.' :: prototypeWord) n.toList rest →
      Prescribes text prototypeMethod (.code (.prototypeMethod c ps) n)
  | prototypeProperty {c n : String} {rest : List Char} (v : String) :
      Assigns text (c.toList ++ '.' :: prototypeWord) n.toList rest →
      Prescribes text prototypeProperty (.code (.prototypeProperty c v) n)
  | method {r n : String} {rest : List Char} (ps : List String) :
      Assigns text r.toList n.toList rest → Prescribes text method (.code (.method r ps) n)
  | property {r n : String} {rest : List Char} (v : String) :
      Assigns text r.toList n.toList rest → Prescribes text property (.code (.property r v) n)
  | declaration {n : String} {rest : List Char} (v : String) :
      Declares text n.toList rest → Prescribes text declaration (.code (.declaration v) n)

theorem prescribes_of_find? {s : Shape} {l : Line} {x : Finding} (h : s.find? l = some x) :
    s.Prescribes l.stripped x := by
  cases x with
  | commentOpen =>
    obtain rfl : s = Shape.commentOpen := not_imp_comm.1 find?_ne_commentOpen (not_not.2 h)
    exact .commentOpen
  | code form name =>
    -- Functions that are exported and functions that are declared have forms of one kind.
    have hkind := (found_of_find? h).kind
    have hfits := fitsIn_of_find? h
    cases s with
    | commentOpen => cases form <;> cases hkind
    | functionStatement =>
      cases form <;> cases hkind
      obtain ⟨rest, hstates⟩ := hfits
      exact .functionStatement _ hstates
    | functionExpression =>
      obtain ⟨⟨n, rest⟩, htarget, h⟩ := Option.bind_eq_some_iff.1 h
      obtain ⟨ps, -, h⟩ := Option.bind_eq_some_iff.1 h
      cases h
      exact .functionExpression ps
        (by rw [String.toList_ofList, ← varTarget?_eq_some_iff, htarget])
    | namedExport =>
      simp only [find?, namedExport?, Option.bind_eq_bind, Option.bind_eq_some_iff,
        Prod.exists] at h
      obtain ⟨_, -, _, -, _, -, n, _, hn, h⟩ := h
      cases h
      exact .namedExport _ (name?_eq_some_iff.1 hn).2.1.ofList_ne_empty
    | anonymousExport =>
      simp only [find?, anonymousExport?, Option.bind_eq_bind, Option.bind_eq_some_iff] at h
      obtain ⟨_, -, _, -, h⟩ := h
      cases h
      exact .anonymousExport _
    | prototypeMethod =>
      cases form <;> cases hkind
      obtain ⟨-, rest, hassigns, -⟩ := hfits
      exact .prototypeMethod _ hassigns
    | prototypeProperty =>
      cases form <;> cases hkind
      obtain ⟨-, rest, hassigns, -⟩ := hfits
      exact .prototypeProperty _ hassigns
    | method =>
      cases form <;> cases hkind
      obtain ⟨rest, hassigns, -⟩ := hfits
      exact .method _ hassigns
    | property =>
      cases form <;> cases hkind
      obtain ⟨-, rest, hassigns, -⟩ := hfits
      exact .property _ hassigns
    | declaration =>
      cases form <;> cases hkind
      obtain ⟨rest, hdeclares, -⟩ := hfits
      exact .declaration _ hdeclares

end Shape

open Shape in
/-- No two shapes fit one line but by precedence: where neither of two takes precedence over the
other, a third one implies both. So the shape of a line is the most specific of those that fit, what
is found is what this shape prescribes, and every order that respects precedence leads to it. -/
theorem shapes_fit_together_by_precedence (l : Line) :
    (∀ s t : Shape, s.Implies t → s.Fits l → t.Fits l) ∧
    (∀ s t : Shape, s.Fits l → t.Fits l →
      s = t ∨ s.Precedes t ∨ t.Precedes s ∨
        ∃ u : Shape, u.Fits l ∧ u.Implies s ∧ u.Implies t) ∧
    (∀ s : Shape, l.shape? = some s ↔ s.MostSpecific l) ∧
    (l.shape? = none ↔ ∀ s : Shape, ¬ s.Fits l) ∧
    l.classify.isSome = l.shape?.isSome ∧
    (∀ (s : Shape) (x : Finding), l.shape? = some s → l.classify = some x →
      s.Prescribes l.stripped x) ∧
    ∀ order : List Shape, Ordered order → order.findSome? (·.find? l) = l.classify := by
  have hclassify : l.classify = l.shape?.bind (·.find? l) := findSome?_eq_bind all l
  have hspecific := find?_eq_some_iff_mostSpecific ordered_all l
  refine ⟨fun s t => fits_of_implies, fun s t => overlap_of_fits, hspecific, ?_, ?_, ?_, ?_⟩
  · rw [shape?, List.find?_eq_none]
    exact ⟨fun h s => h s (mem_all s), fun h s _ => h s⟩
  · rw [hclassify]
    cases hshape : l.shape? with
    | none => rfl
    | some s => exact ((hspecific s).1 hshape).1
  · intro s x hshape hx
    rw [hclassify, hshape] at hx
    exact prescribes_of_find? hx
  · intro order horder
    rw [findSome?_eq_bind, find?_eq_of_ordered horder, hclassify]

open Shape in
/-- Three shapes fit the line, and an order that starts with the one of declarations finds the
same in it. -/
theorem shapes_fit_together_by_precedence_prototype_method :
    let l : Line := ⟨2, "  A.prototype.get = function (key)".toList⟩
    let order : List Shape := [functionExpression, declaration, prototypeMethod, prototypeProperty,
      namedExport, anonymousExport, method, property, functionStatement, commentOpen]
    prototypeMethod.Implies prototypeProperty ∧ prototypeMethod.Implies method ∧
      prototypeMethod.Fits l ∧ prototypeProperty.Fits l ∧ method.Fits l ∧ ¬ property.Fits l ∧
      l.shape? = some prototypeMethod ∧ Ordered order ∧
      order.findSome? (·.find? l) = some (.code (.prototypeMethod "A" ["key"]) "get") := by
  intro l order
  have hfits : prototypeMethod.Fits l := by decide +kernel
  have horder : Ordered order := by decide
  obtain ⟨hinclusion, -, -, -, -, -, hsame⟩ := shapes_fit_together_by_precedence l
  refine ⟨by decide, by decide, hfits, hinclusion _ _ (by decide) hfits,
    hinclusion _ _ (by decide) hfits, by decide +kernel, by decide +kernel, horder, ?_⟩
  rw [hsame order horder]
  decide +kernel

end ScriptOutline
