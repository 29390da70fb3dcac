import ScriptOutline.Line.Words

/-!
The left sides of assignments. A dotted path is parted at its last dot (`splitLast_eq_some_iff`).
-/

set_option autoImplicit false

namespace ScriptOutline.Line
open Text

/-- The receiver and the member of a path, parted at its last dot. -/
def splitLast : List Char → Option (List Char × List Char)
  | [] => none
  | c :: s =>
    match splitLast s with
    | some (r, n) => some (c :: r, n)
    | none => if c = '.' then some ([], s) else none

theorem splitLast_eq_none_iff {s : List Char} : splitLast s = none ↔ '.' ∉ s := by
  induction s with
  | nil => simp [splitLast]
  | cons c s ih =>
    cases h : splitLast s with
    | none => simp [splitLast, h, ih.1 h, eq_comm]
    | some p =>
      have : '.' ∈ s := by
        by_cases hs : '.' ∈ s
        · exact hs
        · simp [ih.2 hs] at h
      simp [splitLast, h, this]

theorem splitLast_eq_some_iff {s r n : List Char} :
    splitLast s = some (r, n) ↔ s = r ++ '.' :: n ∧ '.' ∉ n := by
  induction s generalizing r n with
  | nil => simp [splitLast]
  | cons c s ih =>
    cases h : splitLast s with
    | none =>
      have hs := splitLast_eq_none_iff.1 h
      cases r with
      | nil =>
        by_cases hc : c = '.' <;> simp [splitLast, h, hc]
        grind
      | cons d r => by_cases hc : c = '.' <;> simp [splitLast, h, hc] <;> grind
    | some p =>
      obtain ⟨q, m⟩ := p
      have hs := ih.1 h
      cases r with
      | nil =>
        simp [splitLast, h]
        grind
      | cons d r =>
        simp [splitLast, h]
        grind

def varWord : List Char := ['v', 'a', 'r']

def exportsPath : List Char :=
  ['m', 'o', 'd', 'u', 'l', 'e', '.', 'e', 'x', 'p', 'o', 'r', 't', 's']

def prototypeStep : List Char := ['.', 'p', 'r', 'o', 't', 'o', 't', 'y', 'p', 'e', '.']

/-- The left side `var n =`. -/
def varTarget? (s : List Char) : Option (List Char × List Char) := do
  let s ← after? varWord s
  let s ← blanks? s
  let (n, s) ← name? s
  let s ← equals? s
  return (n, s)

/-- The left side `module.exports =`. -/
def exportsTarget? (s : List Char) : Option (List Char) := do
  let s ← after? exportsPath s
  equals? s

/-- The left side `c.prototype.n =`. -/
def prototypeTarget? (s : List Char) : Option (List Char × List Char × List Char) := do
  let (c, s) ← name? s
  let s ← after? prototypeStep s
  let (n, s) ← name? s
  let s ← equals? s
  return (c, n, s)

/-- The left side `r.n =` for a receiver with any number of dots in it. -/
def dottedTarget? (s : List Char) : Option (List Char × List Char × List Char) := do
  let (r, n) ← splitLast (s.takeWhile isDotted)
  if r.isEmpty || n.isEmpty then none
  let s ← equals? (s.dropWhile isDotted)
  return (r, n, s)

/-- The left side `r.n =` for a receiver that is one name. -/
def memberTarget? (s : List Char) : Option (List Char × List Char × List Char) := do
  let (r, s) ← name? s
  let s ← after? ['.'] s
  let (n, s) ← name? s
  let s ← equals? s
  return (r, n, s)

end ScriptOutline.Line
