import Mathlib.Data.List.Infix
import ScriptOutline.Proofs.Indent
import ScriptOutline.Proofs.LeftSide

/-!
What a shape finds in a line: a form of the shape's kind, a name, and the signature that they
determine; values that are pieces of the line, and parameters (`Line.found_of_find?`).
-/

set_option autoImplicit false

namespace ScriptOutline
open Text

def Shape.kind : Shape → Kind
  | commentOpen => .comment
  | functionStatement => .functionStatement
  | functionExpression | namedExport | anonymousExport => .functionExpression
  | prototypeMethod => .prototypeMethod
  | prototypeProperty => .prototypeProperty
  | method => .method
  | property => .property
  | declaration => .declaration

/-- One character or more that parameters are made of. -/
def IsParameter (p : String) : Prop := p ≠ "" ∧ ∀ c ∈ p.toList, isParam c = true

namespace Form

/-- The signature that a form and a name determine. Only an exported function may lack a name. -/
inductive SignedAs : Form → String → String → Prop
  | functionStatement {name : String} (ps : List String) : name ≠ "" →
      SignedAs (.functionStatement ps) name (name ++ "()")
  | functionExpression {name : String} (ps : List String) : name ≠ "" →
      SignedAs (.functionExpression none ps) name (name ++ "()")
  | namedExport {name : String} (ps : List String) : name ≠ "" →
      SignedAs (.functionExpression (some "module.exports") ps) name (name ++ "()")
  | anonymousExport (ps : List String) :
      SignedAs (.functionExpression (some "module.exports") ps) "" "module.exports()"
  | method {name : String} (receiver : String) (ps : List String) : name ≠ "" →
      SignedAs (.method receiver ps) name (receiver ++ "." ++ name ++ "()")
  | prototypeMethod {name : String} (owner : String) (ps : List String) : name ≠ "" →
      SignedAs (.prototypeMethod owner ps) name (owner ++ ".prototype." ++ name ++ "()")
  | property {name : String} (receiver value : String) : name ≠ "" →
      SignedAs (.property receiver value) name (receiver ++ "." ++ name)
  | prototypeProperty {name : String} (owner value : String) : name ≠ "" →
      SignedAs (.prototypeProperty owner value) name (owner ++ ".prototype." ++ name)
  | declaration {name : String} (value : String) : name ≠ "" →
      SignedAs (.declaration value) name name

/-- What a form takes from a line: a value that is a piece of it and ends before a semicolon, and
parameters. -/
structure SoundIn (raw : List Char) (form : Form) : Prop where
  value : ∀ v, form.value? = some v → v.toList ≠ [] ∧ v.toList <:+: raw ∧ ';' ∉ v.toList
  params : ∀ ps, form.params? = some ps → ∀ p ∈ ps, IsParameter p

theorem signedAs_signature {form : Form} {name : String} (hname : name ≠ "")
    (hreceiver : ∀ r ps, form = .functionExpression (some r) ps → r = "module.exports") :
    form.SignedAs name (form.signature name) := by
  cases form with
  | functionStatement ps => exact .functionStatement ps hname
  | functionExpression receiver ps =>
    cases receiver with
    | none => exact .functionExpression ps hname
    | some r =>
      obtain rfl := hreceiver r ps rfl
      rw [signature, if_neg hname]
      exact .namedExport ps hname
  | method r ps => exact .method r ps hname
  | prototypeMethod c ps => exact .prototypeMethod c ps hname
  | property r v => exact .property r v hname
  | prototypeProperty c v => exact .prototypeProperty c v hname
  | declaration v => exact .declaration v hname

theorem soundIn_of_params {raw : List Char} {form : Form} {ps : List String}
    (hform : form.value? = none ∧ form.params? = some ps) (hps : ∀ p ∈ ps, IsParameter p) :
    form.SoundIn raw where
  value v hv := by cases hform.1.symm.trans hv
  params qs hqs := by
    cases hform.2.symm.trans hqs
    exact hps

theorem soundIn_of_value {raw : List Char} {form : Form} {v : String}
    (hform : form.value? = some v ∧ form.params? = none)
    (hv : v.toList ≠ [] ∧ v.toList <:+: raw ∧ ';' ∉ v.toList) : form.SoundIn raw where
  value w hw := by
    cases hform.1.symm.trans hw
    exact hv
  params ps hps := by cases hform.2.symm.trans hps

end Form

namespace Line

/-! Words. -/

theorem isParameter_of_mem_params {list : List Char} {p : String} (h : p ∈ params list) :
    IsParameter p := by
  obtain ⟨w, hw, rfl⟩ := List.mem_map.1 h
  obtain ⟨hpiece, hne⟩ := List.mem_filter.1 hw
  constructor
  · rw [Bool.not_eq_true', List.isEmpty_eq_false_iff] at hne
    rwa [ne_eq, String.ofList_eq_empty_iff]
  · intro c hc
    rw [String.toList_ofList] at hc
    simpa using of_mem_pieces hpiece c hc

theorem isParameter_of_group? (s : List Char) :
    ∀ p ∈ ((group? s).map params).getD [], IsParameter p := by
  cases group? s with
  | none => simp
  | some list => exact fun p hp => isParameter_of_mem_params hp

theorem isParameter_of_functionValue? {s : List Char} {ps : List String}
    (h : functionValue? s = some ps) : ∀ p ∈ ps, IsParameter p := by
  obtain ⟨rest, -, rfl⟩ := Option.map_eq_some_iff.1 h
  exact isParameter_of_group? _

/-- A value is a piece of its text, be it the last of the blanks before it. -/
theorem value?_spec {s v : List Char} (h : value? s = some v) :
    v ≠ [] ∧ v <:+: s ∧ ';' ∉ v := by
  rw [value?] at h
  split at h
  · obtain ⟨c, hc, rfl⟩ := Option.map_eq_some_iff.1 h
    have hmem := List.mem_of_getLast? hc
    have hblank : isBlank c = true := List.all_eq_true.1 List.all_takeWhile c hmem
    refine ⟨List.cons_ne_nil _ _, ?_, ?_⟩
    · exact ((List.singleton_infix_iff _ _).2 hmem).trans (List.takeWhile_prefix _).isInfix
    · rintro (- | ⟨-, ⟨⟩⟩)
      cases hblank
  · rename_i w hne
    cases h
    refine ⟨hne, ?_, fun hmem => ?_⟩
    · exact (List.takeWhile_prefix _).isInfix.trans (List.dropWhile_suffix _).isInfix
    · have := List.all_eq_true.1 List.all_takeWhile _ hmem
      simp at this

theorem IsName.ofList_ne_empty {n : List Char} (h : IsName n) : String.ofList n ≠ "" := by
  rw [ne_eq, String.ofList_eq_empty_iff]
  exact h.1

/-! Shapes. -/

theorem exists_find?_of_classify {l : Line} {x : Finding} (h : l.classify = some x) :
    ∃ s : Shape, s.find? l = some x := by
  obtain ⟨s, -, hs⟩ := List.exists_of_findSome?_eq_some h
  exact ⟨s, hs⟩

theorem value?_of_suffix {l : Line} {rest v : List Char} (hrest : rest <:+ l.stripped)
    (h : value? rest = some v) :
    (String.ofList v).toList ≠ [] ∧ (String.ofList v).toList <:+: l.raw ∧
      ';' ∉ (String.ofList v).toList := by
  obtain ⟨hne, hpiece, hsemicolon⟩ := value?_spec h
  have hraw : rest <:+ l.raw := hrest.trans (List.dropWhile_suffix _)
  rw [String.toList_ofList]
  exact ⟨hne, hpiece.trans hraw.isInfix, hsemicolon⟩

/-- What a shape finds is of its kind and is sound. -/
structure Found (s : Shape) (raw : List Char) (form : Form) (name : String) : Prop where
  kind : form.kind = s.kind
  signed : form.SignedAs name (form.signature name)
  sound : form.SoundIn raw

theorem found_of_find? {l : Line} {s : Shape} {form : Form} {name : String}
    (h : s.find? l = some (.code form name)) : Found s l.raw form name := by
  cases s with
  | commentOpen => cases (commentOpen?_eq_some_iff.1 h).2
  | functionStatement =>
    simp only [Shape.find?, functionStatement?, Option.bind_eq_bind, Option.bind_eq_some_iff,
      Prod.exists] at h
    obtain ⟨_, -, _, -, n, _, hn, list, -, h⟩ := h
    cases h
    have hname := (name?_eq_some_iff.1 hn).2.1.ofList_ne_empty
    exact ⟨rfl, Form.signedAs_signature hname (by simp),
      Form.soundIn_of_params ⟨rfl, rfl⟩ fun p hp => isParameter_of_mem_params hp⟩
  | functionExpression =>
    simp only [Shape.find?, functionExpression?, Option.bind_eq_bind, Option.bind_eq_some_iff,
      Prod.exists] at h
    obtain ⟨n, _, htarget, ps, hps, h⟩ := h
    cases h
    have hname := (varTarget?_eq_some_iff.1 htarget).1.ofList_ne_empty
    exact ⟨rfl, Form.signedAs_signature hname (by simp),
      Form.soundIn_of_params ⟨rfl, rfl⟩ (isParameter_of_functionValue? hps)⟩
  | namedExport =>
    simp only [Shape.find?, namedExport?, Option.bind_eq_bind, Option.bind_eq_some_iff,
      Prod.exists] at h
    obtain ⟨_, -, _, -, _, -, n, _, hn, h⟩ := h
    cases h
    have hname := (name?_eq_some_iff.1 hn).2.1.ofList_ne_empty
    exact ⟨rfl, Form.signedAs_signature hname (by rintro _ _ ⟨⟩; rfl),
      Form.soundIn_of_params ⟨rfl, rfl⟩ (isParameter_of_group? _)⟩
  | anonymousExport =>
    simp only [Shape.find?, anonymousExport?, Option.bind_eq_bind, Option.bind_eq_some_iff] at h
    obtain ⟨_, -, _, -, h⟩ := h
    cases h
    exact ⟨rfl, .anonymousExport _,
      Form.soundIn_of_params ⟨rfl, rfl⟩ (isParameter_of_group? _)⟩
  | prototypeMethod =>
    simp only [Shape.find?, prototypeMethod?, Option.bind_eq_bind, Option.bind_eq_some_iff,
      Prod.exists] at h
    obtain ⟨c, n, _, htarget, ps, hps, h⟩ := h
    cases h
    have hname := (prototypeTarget?_eq_some_iff.1 htarget).2.2.1.ofList_ne_empty
    exact ⟨rfl, Form.signedAs_signature hname (by simp),
      Form.soundIn_of_params ⟨rfl, rfl⟩ (isParameter_of_functionValue? hps)⟩
  | prototypeProperty =>
    simp only [Shape.find?, prototypeProperty?, Option.bind_eq_bind, Option.bind_eq_some_iff,
      Prod.exists] at h
    obtain ⟨c, n, rest, htarget, v, hv, h⟩ := h
    cases h
    obtain ⟨-, hassigns⟩ := prototypeTarget?_eq_some_iff.1 htarget
    exact ⟨rfl, Form.signedAs_signature hassigns.2.1.ofList_ne_empty (by simp),
      Form.soundIn_of_value ⟨rfl, rfl⟩ (value?_of_suffix hassigns.suffix hv)⟩
  | method =>
    simp only [Shape.find?, method?, Option.bind_eq_bind, Option.bind_eq_some_iff,
      Prod.exists] at h
    obtain ⟨r, n, _, htarget, ps, hps, h⟩ := h
    cases h
    have hname := (dottedTarget?_eq_some_iff.1 htarget).2.1.ofList_ne_empty
    exact ⟨rfl, Form.signedAs_signature hname (by simp),
      Form.soundIn_of_params ⟨rfl, rfl⟩ (isParameter_of_functionValue? hps)⟩
  | property =>
    simp only [Shape.find?, property?, Option.bind_eq_bind, Option.bind_eq_some_iff,
      Prod.exists] at h
    obtain ⟨r, n, rest, htarget, v, hv, h⟩ := h
    cases h
    obtain ⟨-, hassigns⟩ := memberTarget?_eq_some_iff.1 htarget
    exact ⟨rfl, Form.signedAs_signature hassigns.2.1.ofList_ne_empty (by simp),
      Form.soundIn_of_value ⟨rfl, rfl⟩ (value?_of_suffix hassigns.suffix hv)⟩
  | declaration =>
    -- The name and the value are those of the trimmed line.
    simp only [Shape.find?, declaration?_eq, Option.map_eq_some_iff, assigned?,
      Option.bind_eq_bind, Option.bind_eq_some_iff, Prod.exists] at h
    obtain ⟨_, _, ⟨n, rest, htarget, v, hv, h'⟩, h⟩ := h
    cases h'
    cases h
    have hdeclares := varTarget?_eq_some_iff.1 htarget
    exact ⟨rfl, Form.signedAs_signature hdeclares.1.ofList_ne_empty (by simp),
      Form.soundIn_of_value ⟨rfl, rfl⟩ (value?_of_suffix hdeclares.suffix hv)⟩

end Line
end ScriptOutline
