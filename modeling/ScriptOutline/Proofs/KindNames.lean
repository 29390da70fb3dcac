import Mathlib
import ScriptOutline.Kind
import ScriptOutline.Proofs.LeftSide

/-!
How users may write the kinds. A text names a kind if it is the name of the kind between whitespace,
with each letter in either case and each space as a space, a dash or an underscore
(`Kind.IsNameOf`). These are exactly the texts that are read as the kind, and none of them names
another; any other text is complained of as it stands (`Kind.parse_follows_spelling`).
-/

set_option autoImplicit false

namespace ScriptOutline

namespace Text

/-! Letters. -/

theorem toLower_eq_iff {c d : Char} (hc : c.isLower = true) :
    d.toLower = c ↔ d = c ∨ d = c.toUpper := by
  have hself : c.toLower = c := Char.toLower_eq_of_not_isUpper (Char.not_isUpper_of_isLower hc)
  constructor
  · rintro rfl
    by_cases hd : d.isUpper
    · rw [Char.toUpper_toLower_eq_toUpper,
        Char.toUpper_eq_of_not_isLower (Char.not_isLower_of_isUpper hd)]
      exact .inr rfl
    · exact .inl (Char.toLower_eq_of_not_isUpper hd).symm
  · rintro (rfl | rfl)
    · exact hself
    · rw [Char.toLower_toUpper_eq_toLower, hself]

theorem toLower_eq_iff_of_not_isAlpha {c d : Char} (hc : c.isAlpha = false) :
    d.toLower = c ↔ d = c := by
  have hself {e : Char} (he : e.isAlpha = false) : e.toLower = e := by
    rw [Char.isAlpha, Bool.or_eq_false_iff] at he
    exact Char.toLower_eq_of_not_isUpper (Bool.eq_false_iff.1 he.1)
  constructor
  · rintro rfl
    rw [Char.isAlpha_toLower_eq_isAlpha] at hc
    exact (hself hc).symm
  · rintro rfl
    exact hself hc

theorem isWhitespace_eq_false_of_isAlpha {c : Char} (h : c.isAlpha = true) :
    isWhitespace c = false := by
  simp only [Char.isAlpha, Char.isUpper, Char.isLower, Bool.or_eq_true, Bool.and_eq_true,
    decide_eq_true_eq, UInt32.le_iff_toNat_le, ge_iff_le] at h
  change (65 ≤ c.toNat ∧ c.toNat ≤ 90) ∨ (97 ≤ c.toNat ∧ c.toNat ≤ 122) at h
  simp only [isWhitespace, Bool.or_eq_false_iff, Bool.and_eq_false_imp, decide_eq_true_eq,
    decide_eq_false_iff_not, beq_eq_false_iff_ne]
  omega

/-! Trimming. -/

/-- What has no whitespace at its ends is left if there is whitespace around it. -/
theorem trim_append {before s after : List Char} (hne : s ≠ [])
    (hbefore : ∀ c ∈ before, isWhitespace c = true) (hafter : ∀ c ∈ after, isWhitespace c = true)
    (hhead : ∀ c ∈ s.head?, isWhitespace c = false)
    (hlast : ∀ c ∈ s.getLast?, isWhitespace c = false) : trim (before ++ (s ++ after)) = s := by
  have hstart : trimStart (before ++ (s ++ after)) = s ++ after := by
    refine (Line.takeWhile_dropWhile_eq_iff.2 ⟨rfl, hbefore, ?_⟩).2
    rwa [List.head?_append_of_ne_nil s hne]
  have hend : (s ++ after).reverse.dropWhile isWhitespace = s.reverse := by
    rw [List.reverse_append]
    refine (Line.takeWhile_dropWhile_eq_iff.2 ⟨rfl, ?_, ?_⟩).2
    · intro c hc
      exact hafter c (List.mem_reverse.1 hc)
    · rwa [List.head?_reverse]
  rw [trim, hstart, trimEnd, hend, List.reverse_reverse]

end Text

namespace Kind
open Text

/-! Spellings. -/

/-- What may stand between the words of a name. -/
def isSeparator (c : Char) : Bool := c == ' ' || c == '-' || c == '_'

/-- A character of a text, and the character of a name that it stands for. -/
inductive StandsFor : Char → Char → Prop
  | small {c : Char} (h : c.isLower = true) : StandsFor c c
  | capital {c : Char} (h : c.isLower = true) : StandsFor c.toUpper c
  | gap {d : Char} (h : isSeparator d = true) : StandsFor d ' '

/-- A text that names a kind: its name in one of the spellings, between whitespace. -/
def IsNameOf (s : String) (k : Kind) : Prop :=
  ∃ before written after, s.toList = before ++ (written ++ after) ∧
    (∀ c ∈ before, isWhitespace c = true) ∧ (∀ c ∈ after, isWhitespace c = true) ∧
    List.Forall₂ StandsFor written k.name.toList

/-- What no name is spelled like: a separator at an end, two of them in a row, or a character that
is neither an ASCII letter nor a separator. -/
inductive Misspelt : List Char → Prop
  | leading {c : Char} {s : List Char} (h : isSeparator c = true) : Misspelt (c :: s)
  | trailing {c : Char} {s : List Char} (h : isSeparator c = true) : Misspelt (s ++ [c])
  | doubled {c d : Char} {s t : List Char} (hc : isSeparator c = true)
      (hd : isSeparator d = true) : Misspelt (s ++ c :: d :: t)
  | foreign {c : Char} {s : List Char} (hmem : c ∈ s) (hletter : c.isAlpha = false)
      (hsep : isSeparator c = false) : Misspelt s

theorem fold_eq_space_iff {d : Char} : fold d = ' ' ↔ isSeparator d = true := by
  rw [isSeparator, Bool.or_assoc, Bool.or_eq_true, beq_iff_eq, fold]
  split
  · rename_i h
    exact iff_of_true rfl (.inr h)
  · rename_i h
    rw [toLower_eq_iff_of_not_isAlpha rfl, or_iff_left h]

theorem fold_eq_iff_of_isLower {c d : Char} (hc : c.isLower = true) :
    fold d = c ↔ d = c ∨ d = c.toUpper := by
  rw [← toLower_eq_iff hc, fold]
  split
  · rename_i h
    simp only [Bool.or_eq_true, beq_iff_eq] at h
    refine iff_of_false ?_ ?_
    · rintro rfl
      cases hc
    · rintro rfl
      obtain rfl | rfl := h <;> cases hc
  · rfl

theorem standsFor_iff {c d : Char} (hc : c = ' ' ∨ c.isLower = true) :
    StandsFor d c ↔ fold d = c := by
  constructor
  · intro h
    cases h with
    | small h => exact (fold_eq_iff_of_isLower h).2 (.inl rfl)
    | capital h => exact (fold_eq_iff_of_isLower h).2 (.inr rfl)
    | gap h => exact fold_eq_space_iff.2 h
  · intro h
    obtain rfl | hc := hc
    · exact .gap (fold_eq_space_iff.1 h)
    · obtain rfl | rfl := (fold_eq_iff_of_isLower hc).1 h
      · exact .small hc
      · exact .capital hc

/-! Names. -/

/-- Words of small letters that single spaces part. -/
structure IsWords (name : List Char) : Prop where
  chars : ∀ c ∈ name, c = ' ' ∨ c.isLower = true
  head : name.head?.any Char.isLower = true
  last : name.getLast?.any Char.isLower = true
  single : name.IsChain fun c d => c ≠ ' ' ∨ d ≠ ' '

theorem isWords_name (k : Kind) : IsWords k.name.toList := by
  have hchars : k.name.toList.all (fun c => c = ' ' ∨ c.isLower = true) = true := by
    cases k <;> decide
  refine ⟨fun c hc => of_decide_eq_true (List.all_eq_true.1 hchars c hc), ?_, ?_, ?_⟩ <;>
    cases k <;> decide

theorem forall₂_standsFor_iff {s name : List Char}
    (h : ∀ c ∈ name, c = ' ' ∨ c.isLower = true) :
    List.Forall₂ StandsFor s name ↔ s.map fold = name := by
  induction s generalizing name with
  | nil => simp [eq_comm]
  | cons d s ih =>
    cases name with
    | nil => simp
    | cons c name =>
      obtain ⟨hc, hrest⟩ := List.forall_mem_cons.1 h
      rw [List.forall₂_cons, standsFor_iff hc, ih hrest, List.map_cons, List.cons_eq_cons]

theorem isAlpha_of_isLower_fold {c : Char} (h : (fold c).isLower = true) : c.isAlpha = true := by
  obtain hc | hc := (fold_eq_iff_of_isLower h).1 rfl
  · rw [hc, Char.isAlpha, h, Bool.or_true]
  · rw [hc, Char.isAlpha_toUpper_eq_isAlpha, Char.isAlpha, h, Bool.or_true]

theorem isAlpha_of_any_map_fold {o : Option Char} (h : (o.map fold).any Char.isLower = true) :
    ∀ c ∈ o, c.isAlpha = true := by
  intro c hc
  rw [Option.mem_def.1 hc] at h
  exact isAlpha_of_isLower_fold h

/-- Words are spelled with letters at their ends. -/
theorem IsWords.ends_of_map_fold {s name : List Char} (hname : IsWords name)
    (h : s.map fold = name) :
    s ≠ [] ∧ (∀ c ∈ s.head?, c.isAlpha = true) ∧ ∀ c ∈ s.getLast?, c.isAlpha = true := by
  have hhead := hname.head
  have hlast := hname.last
  rw [← h, List.head?_map] at hhead
  rw [← h, List.getLast?_map] at hlast
  refine ⟨?_, isAlpha_of_any_map_fold hhead, isAlpha_of_any_map_fold hlast⟩
  rintro rfl
  cases hhead

theorem Misspelt.map_fold_ne {s name : List Char} (h : Misspelt s) (hname : IsWords name) :
    s.map fold ≠ name := by
  rintro rfl
  cases h with
  | leading hc =>
    have hhead := hname.head
    rw [List.map_cons, fold_eq_space_iff.2 hc] at hhead
    cases hhead
  | trailing hc =>
    have hlast := hname.last
    rw [List.map_append, List.map_singleton, fold_eq_space_iff.2 hc, List.getLast?_concat] at hlast
    cases hlast
  | doubled hc hd =>
    have hsingle := hname.single
    rw [List.map_append, List.map_cons, List.map_cons, List.isChain_append_cons_cons,
      fold_eq_space_iff.2 hc, fold_eq_space_iff.2 hd] at hsingle
    simp at hsingle
  | foreign hmem hletter hsep =>
    obtain hspace | hlower := hname.chars _ (List.mem_map_of_mem hmem)
    · rw [fold_eq_space_iff.1 hspace] at hsep
      cases hsep
    · rw [isAlpha_of_isLower_fold hlower] at hletter
      cases hletter

/-! Reading. -/

theorem ofName?_eq_some_iff {s : String} {k : Kind} : ofName? s = some k ↔ k.name = s :=
  ⟨name_of_ofName?, fun h => h ▸ ofName?_name k⟩

theorem parse?_eq_some_iff_map {s : String} {k : Kind} :
    parse? s = some k ↔ (trim s.toList).map fold = k.name.toList := by
  rw [parse?, ofName?_eq_some_iff, ← String.toList_inj, String.toList_ofList, eq_comm]

/-- The whitespace around a name is what trimming takes away, since a name has letters at its
ends. -/
theorem isNameOf_iff {s : String} {k : Kind} :
    IsNameOf s k ↔ (trim s.toList).map fold = k.name.toList := by
  have hname := isWords_name k
  constructor
  · intro h
    obtain ⟨before, written, after, hs, hbefore, hafter, hwritten⟩ := h
    rw [forall₂_standsFor_iff hname.chars] at hwritten
    obtain ⟨hne, hhead, hlast⟩ := hname.ends_of_map_fold hwritten
    rwa [hs, trim_append hne hbefore hafter
      (fun c hc => isWhitespace_eq_false_of_isAlpha (hhead c hc))
      (fun c hc => isWhitespace_eq_false_of_isAlpha (hlast c hc))]
  · intro h
    obtain ⟨before, after, hs, hbefore, hafter⟩ := exists_eq_append_trim s.toList
    exact ⟨before, _, after, hs, hbefore, hafter, (forall₂_standsFor_iff hname.chars).2 h⟩

theorem parse?_eq_some_iff {s : String} {k : Kind} : parse? s = some k ↔ IsNameOf s k := by
  rw [parse?_eq_some_iff_map, isNameOf_iff]

theorem parse_eq_ok_iff {s : String} {k : Kind} : parse s = .ok k ↔ IsNameOf s k := by
  rw [← parse?_eq_some_iff, parse]
  cases parse? s <;> simp

theorem parse_eq_error_iff {s e : String} :
    parse s = .error e ↔ (∀ k, ¬ IsNameOf s k) ∧ unknown s = e := by
  simp only [← parse?_eq_some_iff, ← Option.eq_none_iff_forall_ne_some]
  rw [parse]
  cases parse? s <;> simp

/-- A text is read as a kind exactly if it names it, and it names one at most. A text that names
none is complained of as it stands, with the whitespace around it; so is one that is misspelt
between its whitespace. -/
theorem parse_follows_spelling (s : String) :
    (∀ k, parse s = .ok k ↔ IsNameOf s k) ∧
    (∀ k k', IsNameOf s k → IsNameOf s k' → k = k') ∧
    (∀ e, parse s = .error e ↔ (∀ k, ¬ IsNameOf s k) ∧ e = "unknown context type: " ++ s) ∧
    (Misspelt (trim s.toList) → parse s = .error ("unknown context type: " ++ s)) := by
  have hok : ∀ k, parse s = .ok k ↔ IsNameOf s k := fun k => parse_eq_ok_iff
  refine ⟨hok, fun k k' hk hk' => ?_, fun e => ?_, fun h => ?_⟩
  · rw [← hok] at hk hk'
    exact Except.ok.inj (hk.symm.trans hk')
  · rw [parse_eq_error_iff, eq_comm]
    rfl
  · refine parse_eq_error_iff.2 ⟨fun k hk => ?_, rfl⟩
    exact h.map_fold_ne (isWords_name k) (isNameOf_iff.1 hk)

/-- A name with capitals and an underscore between whitespace, and one behind a dash. -/
theorem parse_follows_spelling_of_prototype_property :
    let s := "\u3000Prototype_Property\n"
    let t := " -comment "
    IsNameOf s .prototypeProperty ∧ (∀ k, IsNameOf s k → k = .prototypeProperty) ∧
      Misspelt (trim t.toList) ∧ parse t = .error "unknown context type:  -comment " ∧
      ∀ k, ¬ IsNameOf t k := by
  intro s t
  obtain ⟨hread, honly, -, -⟩ := parse_follows_spelling s
  obtain ⟨-, -, hrefused, hmisspelt⟩ := parse_follows_spelling t
  have hname : IsNameOf s .prototypeProperty := (hread _).1 (by decide +kernel)
  have ht : Misspelt (trim t.toList) := by
    rw [show trim t.toList = '-' :: "comment".toList by decide +kernel]
    exact .leading rfl
  have herror := hmisspelt ht
  exact ⟨hname, fun k hk => honly k _ hk hname, ht, herror, ((hrefused _).1 herror).1⟩

end Kind

end ScriptOutline
