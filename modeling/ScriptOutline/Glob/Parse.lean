import ScriptOutline.Glob

/-!
Reading patterns. Groups nest; each branch of a group is a pattern of its own.
-/

set_option autoImplicit false

namespace ScriptOutline.Glob

/-- The ranges of a class up to its closing bracket, those before it last first. A bracket or a
dash at the start is an ordinary character, and so is a dash at the end; between, a dash goes on
from the last range. -/
def classRanges (before : List (Char × Char)) (start dashed : Bool) :
    List Char → Except Mistake (List (Char × Char) × List Char)
  | [] => .error .unclosedClass
  | c :: s =>
    if c == ']' && !start then .ok ((if dashed then ('-', '-') :: before else before).reverse, s)
    else if c == '-' && !start && !dashed then classRanges before false true s
    else
      match dashed, before with
      | true, (lo, _) :: rest =>
        if c < lo then .error (.invalidRange lo c)
        else classRanges ((lo, c) :: rest) false false s
      | _, _ => classRanges ((c, c) :: before) false false s

theorem classRanges_length {before : List (Char × Char)} {start dashed : Bool} {s rest : List Char}
    {ranges : List (Char × Char)} (h : classRanges before start dashed s = .ok (ranges, rest)) :
    rest.length < s.length := by
  fun_induction classRanges before start dashed s <;> simp_all <;> omega

def charClass (s : List Char) : Except Mistake (Token × List Char) :=
  match s with
  | '!' :: s | '^' :: s => (classRanges [] true false s).map fun (rs, s) => (.charClass true rs, s)
  | s => (classRanges [] true false s).map fun (rs, s) => (.charClass false rs, s)

theorem charClass_length {s rest : List Char} {t : Token} (h : charClass s = .ok (t, rest)) :
    rest.length < s.length := by
  have hr : ∀ (neg : Bool) (s : List Char),
      (classRanges [] true false s).map (fun (rs, s) => (Token.charClass neg rs, s)) =
        .ok (t, rest) → rest.length < s.length := by
    intro neg s h
    cases hc : classRanges [] true false s with
    | error => simp [hc, Except.map] at h
    | ok p =>
      obtain ⟨ranges, after⟩ := p
      have := classRanges_length hc
      simp_all [Except.map]
  unfold charClass at h
  split at h
  · exact Nat.lt_succ_of_lt (hr _ _ h)
  · exact Nat.lt_succ_of_lt (hr _ _ h)
  · exact hr _ _ h

/-- An open group: its branches so far, last first, and the tokens before it, last first. -/
structure Group where
  branches : List (List Token)
  outer : List Token

inductive Stars where
  | apart | leading | trailing | middle
  deriving DecidableEq, Repr

/-- Two stars are more than two stars in front of a branch, if nothing or a slash follows, and
behind a slash, if nothing more of the branch or a slash follows. -/
def stars (prev next : Option Char) (grouped first : Bool) : Stars :=
  if first then
    match next with
    | none | some '/' => .leading
    | _ => .apart
  else if prev == some '/' || grouped && (prev == some ',' || prev == some '\x7b') then
    match next with
    | none => .trailing
    | some '/' => .middle
    | some c => if grouped && (c == ',' || c == '\x7d') then .trailing else .apart
  else .apart

/-- Puts a token in the place of the slash before it. Directories that go before already take in
those that would follow. -/
def putLast (t : Token) : List Token → List Token
  | .leading :: before => .leading :: before
  | .trailing :: before => .trailing :: before
  | _ :: before => t :: before
  | [] => [t]

/-- Reads a pattern with `done` before it in its branch, last token first, `prev` just before it,
and `groups` open around it. -/
def parseFrom (prev : Option Char) (groups : List Group) (done : List Token) :
    List Char → Except Mistake (List Token)
  | [] => if groups.isEmpty then .ok done.reverse else .error .unclosedAlternates
  | '?' :: s => parseFrom (some '?') groups (.any :: done) s
  | '*' :: '*' :: s =>
    match stars prev s.head? (!groups.isEmpty) done.isEmpty with
    | .apart => parseFrom (some '*') groups (.star :: .star :: done) s
    | .leading => parseFrom (some '/') groups (.leading :: done) (s.drop 1)
    | .trailing => parseFrom (some '*') groups (putLast .trailing done) s
    | .middle => parseFrom (some '/') groups (putLast .middle done) (s.drop 1)
  | '*' :: s => parseFrom (some '*') groups (.star :: done) s
  | '[' :: s =>
    match h : charClass s with
    | .error e => .error e
    | .ok (t, rest) =>
      have := charClass_length h
      parseFrom (some ']') groups (t :: done) rest
  | '\x7b' :: s => parseFrom (some '\x7b') (⟨[], done⟩ :: groups) [] s
  | '\x7d' :: s =>
    match groups with
    | [] => .error .unopenedAlternates
    | g :: groups =>
      parseFrom (some '\x7d') groups (.alternates (done.reverse :: g.branches).reverse :: g.outer) s
  | ',' :: s =>
    match groups with
    | [] => parseFrom (some ',') [] (.literal ',' :: done) s
    | g :: groups => parseFrom (some ',') (⟨done.reverse :: g.branches, g.outer⟩ :: groups) [] s
  | '\\' :: [] => .error .danglingEscape
  | '\\' :: c :: s => parseFrom (some c) groups (.literal c :: done) s
  | c :: s => parseFrom (some c) groups (.literal c :: done) s
  termination_by s => s.length
  decreasing_by all_goals simp only [List.length_cons, List.length_drop]; omega

def parse (pattern : List Char) : Except Mistake (List Token) := parseFrom none [] [] pattern

end ScriptOutline.Glob
