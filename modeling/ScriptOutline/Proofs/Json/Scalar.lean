import ScriptOutline.Json.Print
import ScriptOutline.Json.Token
import ScriptOutline.Proofs.Results

/-!
Scalars as they are written are read back: a text between its quotes whatever its characters
(`textTail_textLiteral`), and a whole number of 64 bits to the last digit (`number?_toDigits`).
-/

set_option autoImplicit false

namespace ScriptOutline.Json

/-! Texts. -/

theorem hexValue?_hexDigit {n : Nat} (h : n < 16) : hexValue? (hexDigit n) = some n := by
  have hall : ∀ n < 16, hexValue? (hexDigit n) = some n := by decide
  exact hall n h

theorem hexUnit_control {n : Nat} (h : n < 0x20) (rest : List Char) :
    hexUnit ('0' :: '0' :: hexDigit (n / 16) :: hexDigit (n % 16) :: rest) = .ok (n, rest) := by
  have hhigh := hexValue?_hexDigit (show n / 16 < 16 by omega)
  have hlow := hexValue?_hexDigit (show n % 16 < 16 by omega)
  have hzero : hexValue? '0' = some 0 := by decide
  simp only [hexUnit, hzero, hhigh, hlow]
  congr 2
  omega

theorem textTail_control {c : Char} (h : c.toNat < 0x20) (s : List Char) :
    textTail
        ('\\' :: 'u' :: '0' :: '0' :: hexDigit (c.toNat / 16) :: hexDigit (c.toNat % 16) :: s) =
      (textTail s).cons c := by
  have hunit := hexUnit_control h s
  have hlow : isLow c.toNat = false := by simp [isLow]; omega
  have hhigh : isHigh c.toNat = false := by simp [isHigh]; omega
  rw [textTail]
  split
  · rename_i f hf
    rw [hunit] at hf
    cases hf
  · rename_i n more hn
    rw [hunit] at hn
    cases hn
    simp [hlow, hhigh, Char.ofNat_toNat]

theorem textTail_plain {c : Char} (hquote : c ≠ '"') (hslash : c ≠ '\\') (h : ¬ c.toNat < 0x20)
    (s : List Char) : textTail (c :: s) = (textTail s).cons c := by
  rw [textTail]
  · simp [h]
  all_goals simp_all

theorem textTail_escape (c : Char) (s : List Char) :
    textTail (escape c ++ s) = (textTail s).cons c := by
  unfold escape
  split
  case h_8 hquote hslash _ _ _ _ _ =>
    split
    · rename_i h
      exact textTail_control h s
    · rename_i h
      exact textTail_plain hquote hslash h s
  all_goals simp [textTail, escaped?]

theorem textTail_textLiteral (s rest : List Char) :
    textTail (s.flatMap escape ++ '"' :: rest) = .closed s rest := by
  induction s with
  | nil => simp [textTail]
  | cons c s ih =>
    rw [List.flatMap_cons, List.append_assoc, textTail_escape, ih]
    rfl

/-! Whole numbers. -/

/-- Whether a number that stands before a text ends there. -/
def EndsNumber : List Char → Prop
  | [] => True
  | c :: _ => c.isDigit = false ∧ c ≠ '.' ∧ c ≠ 'e' ∧ c ≠ 'E'

theorem EndsNumber.head {rest : List Char} (h : EndsNumber rest) :
    ∀ c ∈ rest.head?, c.isDigit = false := by
  cases rest with
  | nil => simp
  | cons c rest =>
    rintro c ⟨⟩
    exact h.1

/-- Digits end before what is none. -/
theorem digits?_append {ds rest : List Char} (hne : ds ≠ []) (hds : ∀ d ∈ ds, d.isDigit = true)
    (hrest : ∀ c ∈ rest.head?, c.isDigit = false) : digits? (ds ++ rest) = .ok (ds, rest) := by
  have hnone : rest.takeWhile Char.isDigit = [] ∧ rest.dropWhile Char.isDigit = rest := by
    cases rest with
    | nil => exact ⟨rfl, rfl⟩
    | cons c rest => simp [hrest c rfl]
  rw [digits?, List.takeWhile_append_of_pos hds, List.dropWhile_append_of_pos hds, hnone.1,
    hnone.2, List.append_nil]
  cases ds with
  | nil => exact absurd rfl hne
  | cons d ds => rfl

theorem fraction?_of_endsNumber {rest : List Char} (h : EndsNumber rest) :
    fraction? rest = .ok ([], rest) := by
  cases rest with
  | nil => rfl
  | cons c rest =>
    rw [fraction?]
    intro s hs
    exact h.2.1 (List.cons.inj hs).1

theorem power?_of_endsNumber {rest : List Char} (h : EndsNumber rest) :
    power? rest = .ok (none, rest) := by
  cases rest with
  | nil => rfl
  | cons c rest =>
    obtain ⟨-, -, hlower, hupper⟩ := h
    simp [power?, hlower, hupper]

theorem head?_toDigits_ne_zero {n : Nat} (h : 0 < n) : (Nat.toDigits 10 n).head? ≠ some '0' := by
  induction n using Nat.strongRecOn with
  | ind n ih =>
    by_cases hn : n < 10
    · rw [Nat.toDigits_of_lt_base hn, List.head?_singleton]
      intro hd
      have := Nat.digitChar_eq_zero.1 (Option.some.inj hd)
      omega
    · have hrec := ih (n / 10) (by omega) (by omega)
      rw [Nat.toDigits_of_base_le (by decide) (by omega), List.head?_append]
      cases hd : (Nat.toDigits 10 (n / 10)).head? with
      | none => exact absurd (List.head?_eq_none_iff.1 hd) Nat.toDigits_ne_nil
      | some d => rwa [hd] at hrec

/-- Digits are taken up as long as the number that they make stays within 64 bits. -/
theorem absorb_eq (ds : List Char) {n : Nat} (h : Nat.ofDigitChars 10 ds n ≤ greatest) :
    absorb n ds = (Nat.ofDigitChars 10 ds n, ds.length) := by
  induction ds generalizing n with
  | nil => simp [absorb]
  | cons d ds ih =>
    have hmore : 10 * n + (d.toNat - '0'.toNat) = n * 10 + (d.toNat - 48) := by
      rw [Nat.mul_comm]
      rfl
    rw [Nat.ofDigitChars_cons, hmore] at h ⊢
    have hle : n * 10 + (d.toNat - 48) ≤ greatest := by
      rw [Nat.ofDigitChars_eq_ofDigitChars_zero] at h
      have := Nat.le_mul_of_pos_left (n * 10 + (d.toNat - 48))
        (Nat.pow_pos (n := ds.length) (show 0 < 10 by decide))
      omega
    simp [absorb, Nat.not_lt_of_le hle, ih h]

theorem number?_toDigits {n : Nat} (hn : n ≤ greatest) {rest : List Char}
    (hrest : EndsNumber rest) :
    number? false (Nat.toDigits 10 n ++ rest) = .ok (.ok (.whole n), rest) := by
  have hdigits : digits? (Nat.toDigits 10 n ++ rest) = .ok (Nat.toDigits 10 n, rest) :=
    digits?_append Nat.toDigits_ne_nil
      (fun d hd => Nat.isDigit_of_mem_toDigits (by decide) (by decide) hd) hrest.head
  have hlead : ¬ ((Nat.toDigits 10 n).head? = some '0' ∧ 1 < (Nat.toDigits 10 n).length) := by
    intro h
    rcases Nat.eq_zero_or_pos n with rfl | hpos
    · simp [Nat.toDigits_zero] at h
    · exact head?_toDigits_ne_zero hpos h.1
  have habsorb := absorb_eq (Nat.toDigits 10 n) (n := 0)
    (by rwa [Nat.ofDigitChars_ten_toDigits])
  rw [Nat.ofDigitChars_ten_toDigits] at habsorb
  simp [number?, hdigits, hlead, fraction?_of_endsNumber hrest, power?_of_endsNumber hrest,
    ofDigits, habsorb]

/-! Their tokens. -/

theorem tokens_cons {c : Char} (hc : isSpace c = false) (s : List Char) :
    tokens (c :: s) = (token c s).1 :: tokens (token c s).2 := by
  rw [tokens]
  simp [hc]

theorem tokens_space {c : Char} (hc : isSpace c = true) (s : List Char) :
    tokens (c :: s) = tokens s := by
  rw [tokens]
  simp [hc]

theorem tokens_textLiteral (s : String) (rest : List Char) :
    tokens (textLiteral s ++ rest) = .text (.ok s) :: tokens rest := by
  have htext : textToken (s.toList.flatMap escape ++ '"' :: rest) = (.text (.ok s), rest) := by
    rw [textToken, textTail_textLiteral]
    simp
  simp [textLiteral, tokens_cons, isSpace, token, htext]

theorem isSpace_of_isDigit {d : Char} (hd : d.isDigit = true) : isSpace d = false := by
  rw [Bool.eq_false_iff]
  intro hs
  simp only [isSpace, Bool.or_eq_true, beq_iff_eq] at hs
  rcases hs with ((rfl | rfl) | rfl) | rfl <;> cases hd

theorem token_of_isDigit {d : Char} (hd : d.isDigit = true) (s : List Char) :
    token d s = numberToken false (d :: s) := by
  unfold token
  split
  case h_12 => simp [hd]
  all_goals cases hd

theorem tokens_wholeText {n : Nat} (hn : n ≤ greatest) {rest : List Char}
    (hrest : EndsNumber rest) :
    tokens (wholeText n ++ rest) = .number (.ok (.whole n)) :: tokens rest := by
  have htext : wholeText n = Nat.toDigits 10 n := by
    simp [wholeText]
  have hnumber := number?_toDigits hn hrest
  cases hd : Nat.toDigits 10 n with
  | nil => exact absurd hd Nat.toDigits_ne_nil
  | cons d ds =>
    have hdigit : d.isDigit = true :=
      Nat.isDigit_of_mem_toDigits (by decide) (by decide) (hd ▸ List.mem_cons_self)
    have hspace := isSpace_of_isDigit hdigit
    rw [hd] at hnumber
    rw [htext, hd, List.cons_append, tokens_cons hspace, token_of_isDigit hdigit, numberToken,
      ← List.cons_append, hnumber]

theorem tokens_boolWord (b : Bool) (rest : List Char) :
    tokens (boolWord b ++ rest) = .bool b :: tokens rest := by
  cases b <;> simp [boolWord, tokens_cons, isSpace, token, wordToken, word?]

end ScriptOutline.Json
