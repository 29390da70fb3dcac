/-!
Space in two senses: blanks stand between the words of a line, and whitespace is what trimming takes
away.
-/

set_option autoImplicit false

namespace ScriptOutline.Text

/-- A space or a tab, the only characters that may stand between the words of a line. -/
def isBlank (c : Char) : Bool := c == ' ' || c == '\t'

/-- The Unicode property White_Space. -/
def isWhitespace (c : Char) : Bool :=
  let n := c.toNat
  (0x9 ≤ n && n ≤ 0xD) || n == 0x20 || n == 0x85 || n == 0xA0 || n == 0x1680 ||
    (0x2000 ≤ n && n ≤ 0x200A) || n == 0x2028 || n == 0x2029 || n == 0x202F || n == 0x205F ||
    n == 0x3000

theorem isWhitespace_of_isBlank {c : Char} (h : isBlank c = true) : isWhitespace c = true := by
  simp only [isBlank, Bool.or_eq_true, beq_iff_eq] at h
  rcases h with rfl | rfl <;> rfl

def trimStart (s : List Char) : List Char := s.dropWhile isWhitespace

def trimEnd (s : List Char) : List Char := (s.reverse.dropWhile isWhitespace).reverse

def trim (s : List Char) : List Char := trimEnd (trimStart s)

theorem trimStart_eq_self_of_head {c : Char} {s : List Char} (h : isWhitespace c = false) :
    trimStart (c :: s) = c :: s := by simp [trimStart, h]

/-- Trimming removes whitespace only. -/
theorem trimStart_append (s : List Char) :
    s.takeWhile isWhitespace ++ trimStart s = s := List.takeWhile_append_dropWhile

theorem exists_eq_append_trimStart (s : List Char) :
    ∃ blank, (∀ c ∈ blank, isWhitespace c = true) ∧ s = blank ++ trimStart s :=
  ⟨s.takeWhile isWhitespace, List.all_eq_true.1 List.all_takeWhile, (trimStart_append s).symm⟩

theorem exists_eq_trimEnd_append (s : List Char) :
    ∃ blank, (∀ c ∈ blank, isWhitespace c = true) ∧ s = trimEnd s ++ blank := by
  obtain ⟨blank, hblank, hs⟩ := exists_eq_append_trimStart s.reverse
  refine ⟨blank.reverse, fun c hc => hblank c (List.mem_reverse.1 hc), ?_⟩
  rw [trimEnd, ← trimStart, ← List.reverse_append, ← hs, List.reverse_reverse]

theorem exists_eq_append_trim (s : List Char) :
    ∃ before after, s = before ++ (trim s ++ after) ∧
      (∀ c ∈ before, isWhitespace c = true) ∧ ∀ c ∈ after, isWhitespace c = true := by
  obtain ⟨before, hbefore, hs⟩ := exists_eq_append_trimStart s
  obtain ⟨after, hafter, hrest⟩ := exists_eq_trimEnd_append (trimStart s)
  exact ⟨before, after, by rw [trim, ← hrest, ← hs], hbefore, hafter⟩

end ScriptOutline.Text
