/-!
Block comments, found from left to right in a whole text. They do not overlap or nest.
-/

set_option autoImplicit false

namespace ScriptOutline

/-- A block comment: the lines of its delimiters, counted from one, and its text with them. -/
structure Comment where
  first : Nat
  last : Nat
  text : List Char
  deriving DecidableEq, Repr

namespace Comment

/-- The text up to and with the first `*/`, and what follows it. -/
def toClose : List Char → Option (List Char × List Char)
  | [] => none
  | '*' :: '/' :: rest => some (['*', '/'], rest)
  | c :: rest => (toClose rest).map fun (body, after) => (c :: body, after)

theorem toClose_append {s body after : List Char} (h : toClose s = some (body, after)) :
    s = body ++ after := by
  fun_induction toClose s generalizing body with
  | case1 => simp at h
  | case2 rest =>
    obtain ⟨rfl, rfl⟩ : ['*', '/'] = body ∧ rest = after := by simpa using h
    rfl
  | case3 c rest _ ih =>
    simp only [Option.map_eq_some_iff, Prod.mk.injEq, Prod.exists] at h
    obtain ⟨b, a, hb, rfl, rfl⟩ := h
    simp [ih hb]

theorem toClose_length {s body after : List Char} (h : toClose s = some (body, after)) :
    after.length ≤ s.length := by
  simp [toClose_append h]

def lineFeeds (s : List Char) : Nat := s.count '\n'

/-- The comments of a text that starts on line `line`, from left to right. A comment runs to the
first `*/` after its `/*`, and the search goes on behind it; it ends at a `/*` that is never
closed. -/
def scan (line : Nat) : List Char → List Comment
  | [] => []
  | '/' :: '*' :: rest =>
    match h : toClose rest with
    | none => []
    | some (body, after) =>
      have : after.length < rest.length + 1 + 1 := by have := toClose_length h; omega
      let text := '/' :: '*' :: body
      ⟨line, line + lineFeeds text, text⟩ :: scan (line + lineFeeds text) after
  | c :: rest => scan (if c = '\n' then line + 1 else line) rest
  termination_by s => s.length

/-- The first comment that opens on each line. -/
def firstPerLine : List Comment → List Comment
  | [] => []
  | c :: cs => c :: (firstPerLine cs).filter (·.first != c.first)

/-- The comments of a text, at most one for each opening line. -/
def ofText (text : List Char) : List Comment := firstPerLine (scan 1 text)

/-- The comment that opens on a line. -/
def at? (comments : List Comment) (line : Nat) : Option Comment :=
  comments.find? (·.first == line)

/-- Whether a line lies in the comment that opened last before it. -/
def covers (comments : List Comment) (line : Nat) : Bool :=
  match (comments.filter (·.first < line)).getLast? with
  | some c => line ≤ c.last
  | none => false

end Comment

end ScriptOutline
