import ScriptOutline.Proofs.Json.Tree

/-!
The JSON texts of a value: its tokens one after the other, each spelled in one of its ways, with any
space around them. Every one of them is read as the tree of the value (`document_of_isText`), and
there are no others that are read as its tokens (`isText_iff`).
-/

set_option autoImplicit false

namespace ScriptOutline.Json

/-! Texts. -/

/-- Four hexadecimal digits of either case. -/
def IsUnit (u : List Char) (n : Nat) : Prop := hexUnit u = .ok (n, [])

/-- How characters may be written between quotes: as they are, by a short escape, by a unit or by a
pair of surrogates. -/
inductive SpelledText : List Char → List Char → Prop
  | nil : SpelledText [] []
  | plain {c : Char} {s w : List Char} : c ≠ '"' → c ≠ '\\' → 0x20 ≤ c.toNat →
      SpelledText s w → SpelledText (c :: s) (c :: w)
  | short {c d : Char} {s w : List Char} : escaped? d = some c →
      SpelledText s w → SpelledText (c :: s) ('\\' :: d :: w)
  | unit {n : Nat} {u s w : List Char} : IsUnit u n → isHigh n = false → isLow n = false →
      SpelledText s w → SpelledText (Char.ofNat n :: s) ('\\' :: 'u' :: (u ++ w))
  | pair {high low : Nat} {u v s w : List Char} : IsUnit u high → isHigh high = true →
      IsUnit v low → isLow low = true → SpelledText s w →
      SpelledText (ofSurrogates high low :: s)
        ('\\' :: 'u' :: (u ++ '\\' :: 'u' :: (v ++ w)))

theorem IsUnit.append {u : List Char} {n : Nat} (h : IsUnit u n) (w : List Char) :
    hexUnit (u ++ w) = .ok (n, w) := by
  rw [IsUnit, hexUnit.eq_def] at h
  split at h
  · split at h
    · rename_i ha hb hc hd
      simp only [Except.ok.injEq, Prod.mk.injEq] at h
      obtain ⟨rfl, rfl⟩ := h
      simp [hexUnit, ha, hb, hc, hd]
    · cases h
  · cases h

theorem textTail_short {c d : Char} (h : escaped? d = some c) (s : List Char) :
    textTail ('\\' :: d :: s) = (textTail s).cons c := by
  have hd : d ≠ 'u' := by
    rintro rfl
    cases h
  rw [textTail]
  · simp [h]
  · simpa using hd

theorem textTail_unit {n : Nat} {u : List Char} (hu : IsUnit u n) (hhigh : isHigh n = false)
    (hlow : isLow n = false) (s : List Char) :
    textTail ('\\' :: 'u' :: (u ++ s)) = (textTail s).cons (Char.ofNat n) := by
  rw [textTail]
  split
  · rename_i hf
    rw [hu.append] at hf
    cases hf
  · rename_i hn
    rw [hu.append] at hn
    cases hn
    simp [hlow, hhigh]

theorem textTail_pair {high low : Nat} {u v : List Char} (hu : IsUnit u high)
    (hhigh : isHigh high = true) (hv : IsUnit v low) (hlow : isLow low = true) (s : List Char) :
    textTail ('\\' :: 'u' :: (u ++ '\\' :: 'u' :: (v ++ s))) =
      (textTail s).cons (ofSurrogates high low) := by
  have hnot : isLow high = false := by
    simp only [isHigh, isLow, Bool.and_eq_true, decide_eq_true_eq, Bool.and_eq_false_iff,
      decide_eq_false_iff_not] at hhigh ⊢
    omega
  have hsecond : lowUnit ('\\' :: 'u' :: (v ++ s)) = .ok (low, s) := by
    simp [lowUnit, hv.append, hlow]
  rw [textTail]
  split
  · rename_i hf
    rw [hu.append] at hf
    cases hf
  · rename_i hn
    rw [hu.append] at hn
    cases hn
    rw [if_neg (by simp [hnot]), if_pos hhigh]
    split
    · rename_i hp
      rw [hsecond] at hp
      cases hp
      rfl
    · rename_i hp
      rw [hsecond] at hp
      cases hp

theorem textTail_of_spelled {s w : List Char} (h : SpelledText s w) (rest : List Char) :
    textTail (w ++ '"' :: rest) = .closed s rest := by
  induction h with
  | nil => rw [List.nil_append, textTail]
  | plain hquote hslash hcontrol _ ih =>
    rw [List.cons_append, textTail_plain hquote hslash (Nat.not_lt.2 hcontrol), ih]
    rfl
  | short hescape _ ih =>
    rw [List.cons_append, List.cons_append, textTail_short hescape, ih]
    rfl
  | unit hu hhigh hlow _ ih =>
    rw [List.cons_append, List.cons_append, List.append_assoc, textTail_unit hu hhigh hlow, ih]
    rfl
  | pair hu hhigh hv hlow _ ih =>
    simp only [List.cons_append, List.append_assoc]
    rw [textTail_pair hu hhigh hv hlow, ih]
    rfl

/-! Numbers. -/

def IsDigits (ds : List Char) : Prop := ds ≠ [] ∧ ∀ d ∈ ds, d.isDigit = true

instance : DecidablePred IsDigits := fun ds =>
  decidable_of_iff (ds ≠ [] ∧ ds.all Char.isDigit = true) (by rw [List.all_eq_true, IsDigits])

/-- What may stand behind the whole part: nothing, or a point and digits. -/
inductive SpelledFraction : List Char → List Char → Prop
  | none : SpelledFraction [] []
  | some {ds : List Char} : IsDigits ds → SpelledFraction ds ('.' :: ds)

/-- What may stand at the end: nothing, or a power of ten with a sign or without. -/
inductive SpelledPower : Option Int → List Char → Prop
  | none : SpelledPower none []
  | plain {e : Char} {ds : List Char} : e = 'e' ∨ e = 'E' → IsDigits ds →
      SpelledPower (some (decimal ds)) (e :: ds)
  | plus {e : Char} {ds : List Char} : e = 'e' ∨ e = 'E' → IsDigits ds →
      SpelledPower (some (decimal ds)) (e :: '+' :: ds)
  | minus {e : Char} {ds : List Char} : e = 'e' ∨ e = 'E' → IsDigits ds →
      SpelledPower (some (-decimal ds)) (e :: '-' :: ds)

/-- How a number may be written. No other digit follows a leading zero. -/
inductive SpelledNumber : Number → List Char → Prop
  | intro {n : Number} {whole fraction : List Char} {power : Option Int} {f p : List Char}
      (negative : Bool) : IsDigits whole → (whole.head? = some '0' → whole.length = 1) →
      SpelledFraction fraction f → SpelledPower power p →
      ofDigits negative whole fraction power = .ok n →
      SpelledNumber n ((if negative then ['-'] else []) ++ (whole ++ (f ++ p)))

theorem SpelledPower.head {power : Option Int} {p rest : List Char} (h : SpelledPower power p)
    (hrest : EndsNumber rest) : ∀ c ∈ (p ++ rest).head?, c.isDigit = false ∧ c ≠ '.' := by
  cases h with
  | none =>
    cases rest with
    | nil => simp
    | cons d rest =>
      rintro c ⟨⟩
      exact ⟨hrest.1, hrest.2.1⟩
  | plain he | plus he | minus he =>
    rintro c ⟨⟩
    rcases he with rfl | rfl <;> decide

theorem fraction?_of_spelled {fraction f rest : List Char} (h : SpelledFraction fraction f)
    (hrest : ∀ c ∈ rest.head?, c.isDigit = false ∧ c ≠ '.') :
    fraction? (f ++ rest) = .ok (fraction, rest) := by
  cases h with
  | none =>
    rw [List.nil_append, fraction?]
    rintro s rfl
    exact (hrest '.' rfl).2 rfl
  | some hds =>
    rw [List.cons_append, fraction?]
    exact digits?_append hds.1 hds.2 fun c hc => (hrest c hc).1

theorem power?_of_spelled {power : Option Int} {p rest : List Char} (h : SpelledPower power p)
    (hrest : EndsNumber rest) : power? (p ++ rest) = .ok (power, rest) := by
  cases h with
  | none => exact power?_of_endsNumber hrest
  | @plain e ds he hds =>
    have hdigits := digits?_append hds.1 hds.2 hrest.head
    have hsign : sign (ds ++ rest) = (false, ds ++ rest) := by
      obtain ⟨d, ds, rfl⟩ := List.exists_cons_of_ne_nil hds.1
      have hd := hds.2 d List.mem_cons_self
      rw [List.cons_append, sign.eq_def]
      split
      all_goals simp_all
    rcases he with rfl | rfl <;> simp [power?, hsign, hdigits]
  | plus he hds | minus he hds =>
    have hdigits := digits?_append hds.1 hds.2 hrest.head
    rcases he with rfl | rfl <;> simp [power?, sign, hdigits]

theorem number?_of_spelled {negative : Bool} {whole fraction f p rest : List Char}
    {power : Option Int} (hwhole : IsDigits whole)
    (hlead : whole.head? = some '0' → whole.length = 1) (hf : SpelledFraction fraction f)
    (hp : SpelledPower power p) (hrest : EndsNumber rest) :
    number? negative (whole ++ (f ++ (p ++ rest))) =
      .ok (ofDigits negative whole fraction power, rest) := by
  have hstop : ∀ c ∈ (f ++ (p ++ rest)).head?, c.isDigit = false := by
    cases hf with
    | none => exact fun c hc => (hp.head hrest c hc).1
    | some =>
      rintro c ⟨⟩
      rfl
  have hone : ¬ (whole.head? = some '0' ∧ 1 < whole.length) := fun h => by
    have := hlead h.1
    omega
  simp [number?, digits?_append hwhole.1 hwhole.2 hstop, hone,
    fraction?_of_spelled hf (hp.head hrest), power?_of_spelled hp hrest]

/-! Tokens. -/

/-- How a token may be written. -/
inductive Token.Spelled : Token → List Char → Prop
  | openArray : Spelled .openArray ['[']
  | closeArray : Spelled .closeArray [']']
  | openObject : Spelled .openObject ['\x7b']
  | closeObject : Spelled .closeObject ['\x7d']
  | comma : Spelled .comma [',']
  | colon : Spelled .colon [':']
  | null : Spelled .null ['n', 'u', 'l', 'l']
  | bool (b : Bool) : Spelled (.bool b) (boolWord b)
  | number {n : Number} {w : List Char} : SpelledNumber n w → Spelled (.number (.ok n)) w
  | text {s w : List Char} : SpelledText s w →
      Spelled (.text (.ok (String.ofList s))) ('"' :: (w ++ ['"']))

/-- Tokens one after the other with any space around them. A number ends where it cannot go on. -/
inductive SpelledTokens : List Token → List Char → Prop
  | nil : SpelledTokens [] []
  | space {c : Char} {ts : List Token} {s : List Char} : isSpace c = true →
      SpelledTokens ts s → SpelledTokens ts (c :: s)
  | token {t : Token} {ts : List Token} {w s : List Char} : t.Spelled w →
      (∀ n, t = .number n → EndsNumber s) → SpelledTokens ts s → SpelledTokens (t :: ts) (w ++ s)

theorem tokens_number {n : Number} {w rest : List Char} (h : SpelledNumber n w)
    (hrest : EndsNumber rest) : tokens (w ++ rest) = .number (.ok n) :: tokens rest := by
  obtain ⟨negative, hwhole, hlead, hf, hp, hn⟩ := h
  rename_i whole fraction power f p
  have hnumber : number? negative (whole ++ (f ++ (p ++ rest))) = .ok (.ok n, rest) :=
    hn ▸ number?_of_spelled hwhole hlead hf hp hrest
  simp only [List.append_assoc]
  cases negative with
  | true => simp [tokens_cons, isSpace, token, numberToken, hnumber]
  | false =>
    obtain ⟨d, ds, rfl⟩ := List.exists_cons_of_ne_nil hwhole.1
    have hdigit := hwhole.2 d List.mem_cons_self
    rw [List.cons_append] at hnumber
    simp [tokens_cons (isSpace_of_isDigit hdigit), token_of_isDigit hdigit, numberToken, hnumber]

theorem tokens_of_spelled {ts : List Token} {s : List Char} (h : SpelledTokens ts s) :
    tokens s = ts := by
  induction h with
  | nil => rw [tokens]
  | space hc _ ih => rw [tokens_space hc, ih]
  | @token t ts w s hw hends _ ih =>
    cases hw with
    | number hn => rw [tokens_number hn (hends _ rfl), ih]
    | text hs =>
      simp [tokens_cons, isSpace, token, textToken, textTail_of_spelled hs, ih]
    | bool b => rw [tokens_boolWord, ih]
    | null => simp [tokens_cons, isSpace, token, wordToken, word?, ih]
    | openArray | closeArray | openObject | closeObject | comma | colon =>
      simp [tokens_cons, isSpace, token, ih]

/-- A JSON text of a value. -/
def Value.IsText (v : Value) (s : List Char) : Prop := SpelledTokens v.tokens s

theorem document_of_isText {v : Value} {s : List Char} (h : v.IsText s) :
    Document.ofText s = ⟨v.node, false⟩ := document_of_tokens (tokens_of_spelled h)

/-! The reader takes nothing else. -/

theorem hexUnit_eq_ok {s rest : List Char} {n : Nat} (h : hexUnit s = .ok (n, rest)) :
    ∃ u, s = u ++ rest ∧ IsUnit u n := by
  rw [hexUnit.eq_def] at h
  split at h
  · rename_i a b c d rest'
    split at h
    · rename_i ha hb hc hd
      simp only [Except.ok.injEq, Prod.mk.injEq] at h
      obtain ⟨rfl, rfl⟩ := h
      exact ⟨[a, b, c, d], rfl, by simp [IsUnit, hexUnit, ha, hb, hc, hd]⟩
    · cases h
  · cases h

theorem lowUnit_eq_ok {s rest : List Char} {n : Nat} (h : lowUnit s = .ok (n, rest)) :
    ∃ u, s = '\\' :: 'u' :: (u ++ rest) ∧ IsUnit u n ∧ isLow n = true := by
  rw [lowUnit.eq_def] at h
  split at h
  · cases h
  · cases h
  · split at h
    · cases h
    · rename_i hunit
      obtain ⟨u, rfl, hu⟩ := hexUnit_eq_ok hunit
      split at h
      · rename_i hlow
        cases h
        exact ⟨u, rfl, hu, hlow⟩
      · cases h
  · cases h

theorem Tail.cons_eq_closed {c : Char} {t : Tail} {s rest : List Char}
    (h : t.cons c = .closed s rest) : ∃ s', s = c :: s' ∧ t = .closed s' rest := by
  cases t with
  | closed s' rest' =>
    cases h
    exact ⟨s', rfl, rfl⟩
  | flawed f rest' => cases h
  | cut f g => cases h

theorem Tail.flaw_ne_closed (f : Fault) (t : Tail) (s rest : List Char) :
    t.flaw f ≠ .closed s rest := by
  cases t <;> simp [flaw]

theorem spelledText_of_textTail {s t rest : List Char} (h : textTail s = .closed t rest) :
    ∃ w, s = w ++ '"' :: rest ∧ SpelledText t w := by
  fun_induction textTail s generalizing t with
  | case2 rest' =>
    cases h
    exact ⟨[], rfl, .nil⟩
  | case5 | case7 => exact absurd h (Tail.flaw_ne_closed _ _ _ _)
  | case6 rest' n more hunit _ hlow hhigh m past hpair _ ih =>
    obtain ⟨t, rfl, ht⟩ := Tail.cons_eq_closed h
    obtain ⟨w, rfl, hw⟩ := ih ht
    obtain ⟨v, rfl, hv, hm⟩ := lowUnit_eq_ok hpair
    obtain ⟨u, rfl, hu⟩ := hexUnit_eq_ok hunit
    exact ⟨_, by simp, .pair hu hhigh hv hm hw⟩
  | case8 rest' n more hunit _ hlow hhigh ih =>
    obtain ⟨t, rfl, ht⟩ := Tail.cons_eq_closed h
    obtain ⟨w, rfl, hw⟩ := ih ht
    obtain ⟨u, rfl, hu⟩ := hexUnit_eq_ok hunit
    exact ⟨_, by simp, .unit hu (by simpa using hhigh) (by simpa using hlow) hw⟩
  | case9 d rest' _ c hescape ih =>
    obtain ⟨t, rfl, ht⟩ := Tail.cons_eq_closed h
    obtain ⟨w, rfl, hw⟩ := ih ht
    exact ⟨_, by simp, .short hescape hw⟩
  | case12 c rest' hquote _ _ hslash hcontrol ih =>
    obtain ⟨t, rfl, ht⟩ := Tail.cons_eq_closed h
    obtain ⟨w, rfl, hw⟩ := ih ht
    obtain ⟨d, more, hmore⟩ := List.exists_cons_of_ne_nil
      (List.append_ne_nil_of_right_ne_nil w (List.cons_ne_nil '"' rest))
    exact ⟨c :: w, rfl, .plain hquote (fun hc => hslash d more hc hmore)
      (Nat.le_of_not_lt hcontrol) hw⟩
  | case1 | case3 | case4 | case10 | case11 => cases h


theorem digits?_eq_ok {s ds rest : List Char} (h : digits? s = .ok (ds, rest)) :
    s = ds ++ rest ∧ IsDigits ds ∧ ∀ c ∈ rest.head?, c.isDigit = false := by
  rw [digits?.eq_def] at h
  split at h
  · cases h
  · rename_i hne
    cases h
    refine ⟨List.takeWhile_append_dropWhile.symm, ⟨hne, fun d hd => ?_⟩, fun c hc => ?_⟩
    · exact List.all_eq_true.1 List.all_takeWhile d hd
    · have := List.head?_dropWhile_not Char.isDigit s
      simpa [Option.mem_def.1 hc] using this

theorem fraction?_eq_ok {s ds rest : List Char} (h : fraction? s = .ok (ds, rest))
    (hs : ∀ c ∈ s.head?, c.isDigit = false) :
    ∃ f, s = f ++ rest ∧ SpelledFraction ds f ∧ ∀ c ∈ rest.head?, c.isDigit = false := by
  rw [fraction?.eq_def] at h
  split at h
  · obtain ⟨rfl, hds, hrest⟩ := digits?_eq_ok h
    exact ⟨'.' :: ds, rfl, .some hds, hrest⟩
  · cases h
    exact ⟨[], rfl, .none, hs⟩

theorem power?_eq_ok {s rest : List Char} {power : Option Int}
    (h : power? s = .ok (power, rest)) (hs : ∀ c ∈ s.head?, c.isDigit = false) :
    ∃ p, s = p ++ rest ∧ SpelledPower power p ∧ ∀ c ∈ rest.head?, c.isDigit = false := by
  rw [power?.eq_def] at h
  split at h
  · cases h
    exact ⟨[], rfl, .none, hs⟩
  · rename_i e s
    split at h
    · rename_i he
      replace he : e = 'e' ∨ e = 'E' := by simpa using he
      split at h
      · rename_i ds rest' hdigits
        obtain ⟨hsign, hds, hrest⟩ := digits?_eq_ok hdigits
        cases h
        rw [sign.eq_def] at hsign ⊢
        split at hsign
        · subst hsign
          exact ⟨e :: '-' :: ds, rfl, .minus he hds, hrest⟩
        · subst hsign
          exact ⟨e :: '+' :: ds, rfl, .plus he hds, hrest⟩
        · subst hsign
          exact ⟨e :: (ds ++ []), by simp, by simpa using .plain he hds, hrest⟩
      · cases h
    · cases h
      exact ⟨[], rfl, .none, hs⟩

theorem number?_eq_ok {negative : Bool} {s rest : List Char} {n : Number}
    (h : number? negative s = .ok (.ok n, rest)) :
    ∃ w, s = w ++ rest ∧ SpelledNumber n ((if negative then ['-'] else []) ++ w) ∧
      ∀ c ∈ rest.head?, c.isDigit = false := by
  rw [number?] at h
  obtain ⟨⟨whole, s₁⟩, hwhole, hbehind⟩ := bind_eq_ok_iff.1 h
  obtain ⟨rfl, hdigits, hs₁⟩ := digits?_eq_ok hwhole
  dsimp only at hbehind
  split at hbehind
  · cases hbehind
  · rename_i hlead
    obtain ⟨⟨fraction, s₂⟩, hfraction, hpast⟩ := bind_eq_ok_iff.1 hbehind
    obtain ⟨⟨power, s₃⟩, hpower, hend⟩ := bind_eq_ok_iff.1 hpast
    obtain ⟨f, rfl, hf, hs₂⟩ := fraction?_eq_ok hfraction hs₁
    obtain ⟨p, rfl, hp, hs₃⟩ := power?_eq_ok hpower hs₂
    simp only [pure_eq_ok, Except.ok.injEq, Prod.mk.injEq] at hend
    obtain ⟨hn, rfl⟩ := hend
    refine ⟨whole ++ (f ++ p), by simp, .intro negative hdigits (fun hzero => ?_) hf hp hn, hs₃⟩
    have hpos := List.length_pos_iff.2 hdigits.1
    simp only [hzero, decide_true, Bool.true_and, decide_eq_true_eq] at hlead
    omega

/-- Whether a token is more than a place where the text goes wrong. -/
def Token.isSound : Token → Bool
  | .number (.error _) | .text (.error _) | .cutText _ _ | .fault _ _ => false
  | _ => true

theorem word?_eq_ok {w s rest : List Char} (h : word? w s = .ok rest) : s = w ++ rest := by
  fun_induction word? w s with
  | case1 s =>
    cases h
    rfl
  | case3 w ws s ih => rw [ih h, List.cons_append]
  | case2 | case4 => cases h

theorem eq_append_of_wordToken {t : Token} {w s : List Char}
    (h : (wordToken t w s).1.isSound = true) :
    (wordToken t w s).1 = t ∧ s = w ++ (wordToken t w s).2 := by
  rw [wordToken] at h ⊢
  cases hword : word? w s with
  | ok rest => exact ⟨rfl, word?_eq_ok hword⟩
  | error f =>
    rw [hword] at h
    cases h

theorem spelled_numberToken {negative : Bool} {s : List Char}
    (h : (numberToken negative s).1.isSound = true) :
    ∃ w, s = w ++ (numberToken negative s).2 ∧
      (numberToken negative s).1.Spelled ((if negative then ['-'] else []) ++ w) ∧
      ∀ d ∈ (numberToken negative s).2.head?, d.isDigit = false := by
  rw [numberToken] at h ⊢
  split
  · rename_i n rest hnumber
    rw [hnumber] at h
    cases n with
    | error f => cases h
    | ok n =>
      obtain ⟨w, hs, hw, hrest⟩ := number?_eq_ok hnumber
      exact ⟨w, hs, .number hw, hrest⟩
  · rename_i hnumber
    rw [hnumber] at h
    cases h

/-- What no token is written as is not read as one. No other digit follows a number. -/
theorem spelled_token {c : Char} {s : List Char} (h : (token c s).1.isSound = true) :
    ∃ w, c :: s = w ++ (token c s).2 ∧ (token c s).1.Spelled w ∧
      ∀ n, (token c s).1 = .number n → ∀ d ∈ (token c s).2.head?, d.isDigit = false := by
  unfold token at h ⊢
  split at h
  · exact ⟨['['], rfl, .openArray, by simp⟩
  · exact ⟨[']'], rfl, .closeArray, by simp⟩
  · exact ⟨['\x7b'], rfl, .openObject, by simp⟩
  · exact ⟨['\x7d'], rfl, .closeObject, by simp⟩
  · exact ⟨[','], rfl, .comma, by simp⟩
  · exact ⟨[':'], rfl, .colon, by simp⟩
  · obtain ⟨htoken, hs⟩ := eq_append_of_wordToken h
    rw [htoken]
    exact ⟨['n', 'u', 'l', 'l'], congrArg _ hs, .null, by simp⟩
  · obtain ⟨htoken, hs⟩ := eq_append_of_wordToken h
    rw [htoken]
    exact ⟨boolWord true, congrArg _ hs, .bool true, by simp⟩
  · obtain ⟨htoken, hs⟩ := eq_append_of_wordToken h
    rw [htoken]
    exact ⟨boolWord false, congrArg _ hs, .bool false, by simp⟩
  · rw [textToken] at h ⊢
    split
    · rename_i t rest htail
      obtain ⟨w, rfl, hw⟩ := spelledText_of_textTail htail
      exact ⟨'"' :: (w ++ ['"']), by simp, .text hw, by simp⟩
    all_goals
      rename_i htail
      rw [htail] at h
      cases h
  · obtain ⟨w, hs, hw, hrest⟩ := spelled_numberToken h
    exact ⟨'-' :: w, congrArg _ hs, hw, fun _ _ => hrest⟩
  · split at h
    · rename_i hd
      obtain ⟨w, hs, hw, hrest⟩ := spelled_numberToken h
      rw [if_pos hd]
      exact ⟨w, hs, hw, fun _ _ => hrest⟩
    · cases h

/-- No token begins with what a number could go on with, digits aside. -/
theorem endsNumber_of_isSound {s : List Char} (h : (tokens s).all Token.isSound = true)
    (hdigit : ∀ d ∈ s.head?, d.isDigit = false) : EndsNumber s := by
  cases s with
  | nil => exact trivial
  | cons d s =>
    refine ⟨hdigit d rfl, ?_, ?_, ?_⟩
    all_goals
      rintro rfl
      rw [tokens_cons (by rfl)] at h
      cases h

theorem spelled_tokens {s : List Char} (h : (tokens s).all Token.isSound = true) :
    SpelledTokens (tokens s) s := by
  fun_induction tokens s with
  | case1 => exact .nil
  | case2 c s hspace ih => exact .space hspace (ih h)
  | case3 c s hspace _ ih =>
    obtain ⟨htoken, hrest⟩ := Bool.and_eq_true_iff.1 h
    obtain ⟨w, hw, hspelled, hdigit⟩ := spelled_token htoken
    rw [hw]
    exact .token hspelled (fun n hn => endsNumber_of_isSound hrest (hdigit n hn)) (ih hrest)

mutual

theorem all_isSound_tokens (v : Value) : v.tokens.all Token.isSound = true := by
  match v with
  | .null | .bool b | .number n | .text s => simp [Value.tokens, Token.isSound]
  | .array vs => simp [Value.tokens, Token.isSound, all_isSound_itemTokens vs]
  | .object fields => simp [Value.tokens, Token.isSound, all_isSound_fieldTokens fields]

theorem all_isSound_itemTokens (vs : List Value) :
    (itemTokens vs).all Token.isSound = true := by
  match vs with
  | [] => rfl
  | [v] => exact all_isSound_tokens v
  | v :: w :: vs =>
    have htail := all_isSound_itemTokens (w :: vs)
    simp [itemTokens, Token.isSound, all_isSound_tokens v, htail]

theorem all_isSound_fieldTokens (fields : List (String × Value)) :
    (fieldTokens fields).all Token.isSound = true := by
  match fields with
  | [] => rfl
  | [(k, v)] => simp [fieldTokens, Token.isSound, all_isSound_tokens v]
  | (k, v) :: f :: fields =>
    have htail := all_isSound_fieldTokens (f :: fields)
    simp [fieldTokens, Token.isSound, all_isSound_tokens v, htail]

end

/-- The JSON texts of a value are those that are read as its tokens. -/
theorem isText_iff {v : Value} {s : List Char} : v.IsText s ↔ tokens s = v.tokens := by
  refine ⟨tokens_of_spelled, fun h => ?_⟩
  rw [Value.IsText, ← h]
  exact spelled_tokens (h ▸ all_isSound_tokens v)

theorem isText_compact {v : Value} (hv : v.Natural) : v.IsText v.compact :=
  isText_iff.2 (by simpa [tokens] using tokens_compact v hv [] trivial)

end ScriptOutline.Json
