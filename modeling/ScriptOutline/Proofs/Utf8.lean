import ScriptOutline.Proofs.Results
import ScriptOutline.Text.Utf8

/-!
UTF-8 that is written is read back, and nothing else is read: bytes are read as a text exactly if
they are how this text is written (`decodeUtf8_eq_ok_iff`).
-/

set_option autoImplicit false

namespace ScriptOutline.Text

/-- The bytes of one character by their payload, and its code point. A code point is spelled as
short as it can be, and is no surrogate. -/
inductive IsSequence : Bytes → Nat → Prop
  | one {n : Nat} : n < 0x80 → IsSequence [.ofNat n] n
  | two {x y : Nat} : x < 0x20 → y < 0x40 → 2 ≤ x →
      IsSequence [.ofNat (x + 0xC0), .ofNat (y + 0x80)] (x * 0x40 + y)
  | three {x y z : Nat} : x < 0x10 → y < 0x40 → z < 0x40 → 0x20 ≤ x * 0x40 + y →
      (x * 0x40 + y < 0x360 ∨ 0x380 ≤ x * 0x40 + y) →
      IsSequence [.ofNat (x + 0xE0), .ofNat (y + 0x80), .ofNat (z + 0x80)]
        ((x * 0x40 + y) * 0x40 + z)
  | four {x y z w : Nat} : x < 5 → y < 0x40 → z < 0x40 → w < 0x40 → 0x10 ≤ x * 0x40 + y →
      x * 0x40 + y < 0x110 →
      IsSequence [.ofNat (x + 0xF0), .ofNat (y + 0x80), .ofNat (z + 0x80), .ofNat (w + 0x80)]
        (((x * 0x40 + y) * 0x40 + z) * 0x40 + w)

theorem IsSequence.length_pos {u : Bytes} {n : Nat} (h : IsSequence u n) : 0 < u.length := by
  cases h <;> exact Nat.succ_pos _

/-! How characters are written. -/

theorem isSequence_utf8EncodeChar (c : Char) : IsSequence (String.utf8EncodeChar c) c.toNat := by
  have hvalid : c.val.toNat < 0xD800 ∨ 0xDFFF < c.val.toNat ∧ c.val.toNat < 0x110000 := c.valid
  rw [String.utf8EncodeChar]
  change IsSequence _ c.val.toNat
  generalize c.val.toNat = n at hvalid ⊢
  split
  · exact .one (by omega)
  split
  · have h := IsSequence.two (x := n / 64 % 32) (y := n % 64) (by omega) (by omega) (by omega)
    rwa [show n / 64 % 32 * 0x40 + n % 64 = n by omega] at h
  split
  · have h := IsSequence.three (x := n / 4096 % 16) (y := n / 64 % 64) (z := n % 64) (by omega)
      (by omega) (by omega) (by omega) (by omega)
    rwa [show (n / 4096 % 16 * 0x40 + n / 64 % 64) * 0x40 + n % 64 = n by omega] at h
  · have h := IsSequence.four (x := n / 262144 % 8) (y := n / 4096 % 64) (z := n / 64 % 64)
      (w := n % 64) (by omega) (by omega) (by omega) (by omega) (by omega) (by omega)
    rwa [show ((n / 262144 % 8 * 0x40 + n / 4096 % 64) * 0x40 + n / 64 % 64) * 0x40 + n % 64 = n
      by omega] at h

theorem toNat_val_ofNat {n : Nat} (h : n.isValidChar) : (Char.ofNat n).val.toNat = n := by
  rw [Char.ofNat, dif_pos h]
  rfl

theorem utf8EncodeChar_of_isSequence {u : Bytes} {n : Nat} (h : IsSequence u n) :
    String.utf8EncodeChar (Char.ofNat n) = u := by
  cases h with
  | one hn =>
    rw [String.utf8EncodeChar, toNat_val_ofNat (.inl (by omega)), if_pos (by omega)]
  | @two x y hx hy hlong =>
    rw [String.utf8EncodeChar, toNat_val_ofNat (.inl (by omega)), if_neg (by omega),
      if_pos (by omega)]
    congr <;> omega
  | @three x y z hx hy hz hlong hplain =>
    have hvalid : Nat.isValidChar ((x * 0x40 + y) * 0x40 + z) := by
      unfold Nat.isValidChar
      omega
    rw [String.utf8EncodeChar, toNat_val_ofNat hvalid, if_neg (by omega), if_neg (by omega),
      if_pos (by omega)]
    congr <;> omega
  | @four x y z w hx hy hz hw hlong hlast =>
    have hvalid : Nat.isValidChar (((x * 0x40 + y) * 0x40 + z) * 0x40 + w) := .inr (by omega)
    rw [String.utf8EncodeChar, toNat_val_ofNat hvalid, if_neg (by omega), if_neg (by omega),
      if_neg (by omega)]
    congr <;> omega

/-! How they are read. -/

theorem lead_two {x : Nat} (h : x < 0x20) (hlong : 2 ≤ x) :
    lead (.ofNat (x + 0xC0)) = some (1, 0x80, 0xBF) := by
  have hall : ∀ x < 0x20, 2 ≤ x → lead (.ofNat (x + 0xC0)) = some (1, 0x80, 0xBF) := by decide
  exact hall x h hlong

theorem lead_three {x : Nat} (h : x < 0x10) :
    lead (.ofNat (x + 0xE0)) =
      some (2, if x = 0 then 0xA0 else 0x80, if x = 0xD then 0x9F else 0xBF) := by
  have hall : ∀ x < 0x10, lead (.ofNat (x + 0xE0)) =
      some (2, if x = 0 then 0xA0 else 0x80, if x = 0xD then 0x9F else 0xBF) := by decide
  exact hall x h

theorem lead_four {x : Nat} (h : x < 5) :
    lead (.ofNat (x + 0xF0)) =
      some (3, if x = 0 then 0x90 else 0x80, if x = 4 then 0x8F else 0xBF) := by
  have hall : ∀ x < 5, lead (.ofNat (x + 0xF0)) =
      some (3, if x = 0 then 0x90 else 0x80, if x = 4 then 0x8F else 0xBF) := by decide
  exact hall x h

theorem toNat_byte {n : Nat} (h : n < 0x100) : (UInt8.ofNat n).toNat = n :=
  UInt8.toNat_ofNat_of_lt' h

theorem not_byte_lt {n : Nat} {lo : UInt8} (h : n < 0x100) (hlo : lo.toNat ≤ n) :
    ¬ UInt8.ofNat n < lo := by
  rwa [UInt8.lt_iff_toNat_lt, toNat_byte h, Nat.not_lt]

theorem not_lt_byte {n : Nat} {hi : UInt8} (h : n < 0x100) (hhi : n ≤ hi.toNat) :
    ¬ hi < UInt8.ofNat n := by
  rwa [UInt8.lt_iff_toNat_lt, toNat_byte h, Nat.not_lt]

theorem low_tail {y : Nat} (h : y < 0x40) : low (.ofNat (y + 0x80)) = y := by
  rw [low, toNat_byte (by omega)]
  omega

theorem isTail_tail {y : Nat} (h : y < 0x40) : isTail (.ofNat (y + 0x80)) = true := by
  have hall : ∀ y < 0x40, isTail (.ofNat (y + 0x80)) = true := by decide
  exact hall y h

theorem not_lt_of_lead {a : UInt8} {r : Nat × UInt8 × UInt8} (h : lead a = some r) :
    ¬ a < 0x80 := by
  intro ha
  have hlow : a < 0xC2 := UInt8.lt_trans ha (by decide)
  rw [lead, if_pos hlow] at h
  cases h

section
variable {a b c d lo hi : UInt8} (index : Nat) (rest : Bytes)

theorem decodeFrom_two (ha : lead a = some (1, lo, hi)) (hlo : ¬ b < lo) (hhi : ¬ hi < b) :
    decodeFrom index (a :: b :: rest) =
      (decodeFrom (index + 2) rest).map (Char.ofNat (a.toNat % 0x20 * 0x40 + low b) :: ·) := by
  simp [decodeFrom, not_lt_of_lead ha, ha, hlo, hhi]

theorem decodeFrom_three (ha : lead a = some (2, lo, hi)) (hlo : ¬ b < lo) (hhi : ¬ hi < b)
    (hc : isTail c = true) :
    decodeFrom index (a :: b :: c :: rest) =
      (decodeFrom (index + 3) rest).map
        (Char.ofNat ((a.toNat % 0x10 * 0x40 + low b) * 0x40 + low c) :: ·) := by
  simp [decodeFrom, not_lt_of_lead ha, ha, hlo, hhi, hc]

theorem decodeFrom_four (ha : lead a = some (3, lo, hi)) (hlo : ¬ b < lo) (hhi : ¬ hi < b)
    (hc : isTail c = true) (hd : isTail d = true) :
    decodeFrom index (a :: b :: c :: d :: rest) =
      (decodeFrom (index + 4) rest).map
        (Char.ofNat (((a.toNat % 0x8 * 0x40 + low b) * 0x40 + low c) * 0x40 + low d) :: ·) := by
  simp [decodeFrom, not_lt_of_lead ha, ha, hlo, hhi, hc, hd]

end

/-- The bytes of a character are read as it, whatever follows them. -/
theorem decodeFrom_append {u : Bytes} {n : Nat} (h : IsSequence u n) (index : Nat)
    (rest : Bytes) :
    decodeFrom index (u ++ rest) =
      (decodeFrom (index + u.length) rest).map (Char.ofNat n :: ·) := by
  cases h with
  | one hn =>
    have hlow : UInt8.ofNat n < 0x80 := by
      rwa [UInt8.lt_iff_toNat_lt, toNat_byte (by omega)]
    rw [List.singleton_append, decodeFrom, if_pos hlow, toNat_byte (by omega)]
    rfl
  | @two x y hx hy hlong =>
    have hlo : ¬ UInt8.ofNat (y + 0x80) < 0x80 := not_byte_lt (by omega) (Nat.le_add_left _ _)
    have hhi : ¬ 0xBF < UInt8.ofNat (y + 0x80) :=
      not_lt_byte (by omega) (Nat.add_le_add_right (Nat.le_of_lt_succ hy) _)
    have hpayload : (x + 0xC0) % 0x20 = x := by omega
    rw [List.cons_append, List.singleton_append,
      decodeFrom_two index rest (lead_two hx hlong) hlo hhi, toNat_byte (by omega), hpayload,
      low_tail hy]
    rfl
  | @three x y z hx hy hz hlong hplain =>
    have hlo : ¬ UInt8.ofNat (y + 0x80) < if x = 0 then 0xA0 else 0x80 := by
      refine not_byte_lt (by omega) ?_
      split <;> simp only [UInt8.reduceToNat] <;> omega
    have hhi : ¬ (if x = 0xD then 0x9F else 0xBF) < UInt8.ofNat (y + 0x80) := by
      refine not_lt_byte (by omega) ?_
      split <;> simp only [UInt8.reduceToNat] <;> omega
    have hpayload : (x + 0xE0) % 0x10 = x := by omega
    rw [List.cons_append, List.cons_append, List.singleton_append,
      decodeFrom_three index rest (lead_three hx) hlo hhi (isTail_tail hz),
      toNat_byte (by omega), hpayload, low_tail hy, low_tail hz]
    rfl
  | @four x y z w hx hy hz hw hlong hlast =>
    have hlo : ¬ UInt8.ofNat (y + 0x80) < if x = 0 then 0x90 else 0x80 := by
      refine not_byte_lt (by omega) ?_
      split <;> simp only [UInt8.reduceToNat] <;> omega
    have hhi : ¬ (if x = 4 then 0x8F else 0xBF) < UInt8.ofNat (y + 0x80) := by
      refine not_lt_byte (by omega) ?_
      split <;> simp only [UInt8.reduceToNat] <;> omega
    have hpayload : (x + 0xF0) % 0x8 = x := by omega
    rw [List.cons_append, List.cons_append, List.cons_append, List.singleton_append,
      decodeFrom_four index rest (lead_four hx) hlo hhi (isTail_tail hz) (isTail_tail hw),
      toNat_byte (by omega), hpayload, low_tail hy, low_tail hz, low_tail hw]
    rfl

/-! What a lead byte asks for. -/

theorem lead_eq_none {n : Nat} (h : n < 0x100) (hn : n < 0xC2 ∨ 0xF5 ≤ n) :
    lead (.ofNat n) = none := by
  have hall : ∀ n < 0x100, n < 0xC2 ∨ 0xF5 ≤ n → lead (.ofNat n) = none := by decide +kernel
  exact hall n h hn

theorem exists_of_lead {a lo hi : UInt8} {more : Nat} (h : lead a = some (more, lo, hi)) :
    (more = 1 ∧ lo = 0x80 ∧ hi = 0xBF ∧ ∃ x < 0x20, 2 ≤ x ∧ a = .ofNat (x + 0xC0)) ∨
    (more = 2 ∧ ∃ x < 0x10, a = .ofNat (x + 0xE0) ∧ lo = (if x = 0 then 0xA0 else 0x80) ∧
      hi = if x = 0xD then 0x9F else 0xBF) ∨
    (more = 3 ∧ ∃ x < 5, a = .ofNat (x + 0xF0) ∧ lo = (if x = 0 then 0x90 else 0x80) ∧
      hi = if x = 4 then 0x8F else 0xBF) := by
  obtain ⟨n, hn, rfl⟩ : ∃ n < 0x100, a = .ofNat n :=
    ⟨a.toNat, a.toNat_lt, UInt8.ofNat_toNat.symm⟩
  by_cases hnone : n < 0xC2 ∨ 0xF5 ≤ n
  · rw [lead_eq_none hn hnone] at h
    cases h
  rw [not_or, Nat.not_lt, Nat.not_le] at hnone
  by_cases htwo : n < 0xE0
  · obtain ⟨x, rfl⟩ := Nat.exists_eq_add_of_le' (show 0xC0 ≤ n by omega)
    rw [lead_two (by omega) (by omega)] at h
    cases h
    exact .inl ⟨rfl, rfl, rfl, x, by omega, by omega, rfl⟩
  by_cases hthree : n < 0xF0
  · obtain ⟨x, rfl⟩ := Nat.exists_eq_add_of_le' (show 0xE0 ≤ n by omega)
    rw [lead_three (by omega)] at h
    cases h
    exact .inr (.inl ⟨rfl, x, by omega, rfl, rfl, rfl⟩)
  · obtain ⟨x, rfl⟩ := Nat.exists_eq_add_of_le' (show 0xF0 ≤ n by omega)
    rw [lead_four (by omega)] at h
    cases h
    exact .inr (.inr ⟨rfl, x, by omega, rfl, rfl, rfl⟩)

theorem exists_of_tail {b : UInt8} (h : 0x80 ≤ b.toNat) (h' : b.toNat ≤ 0xBF) :
    ∃ y < 0x40, b = .ofNat (y + 0x80) := by
  obtain ⟨y, hy⟩ := Nat.exists_eq_add_of_le' h
  exact ⟨y, by omega, by rw [← hy, UInt8.ofNat_toNat]⟩

theorem exists_of_isTail {b : UInt8} (h : isTail b = true) : ∃ y < 0x40, b = .ofNat (y + 0x80) := by
  simp only [isTail, Bool.and_eq_true, decide_eq_true_eq, UInt8.le_iff_toNat_le] at h
  exact exists_of_tail h.1 h.2

section
variable {a b c d lo hi : UInt8}

theorem isSequence_two (ha : lead a = some (1, lo, hi)) (hlo : lo ≤ b) (hhi : b ≤ hi) :
    IsSequence [a, b] (a.toNat % 0x20 * 0x40 + low b) := by
  rw [UInt8.le_iff_toNat_le] at hlo hhi
  obtain ⟨-, rfl, rfl, x, hx, hlong, rfl⟩ | ⟨h, -⟩ | ⟨h, -⟩ := exists_of_lead ha
  · obtain ⟨y, hy, rfl⟩ := exists_of_tail hlo hhi
    rw [toNat_byte (by omega), low_tail hy, show (x + 0xC0) % 0x20 = x by omega]
    exact .two hx hy hlong
  · cases h
  · cases h

theorem isSequence_three (ha : lead a = some (2, lo, hi)) (hlo : lo ≤ b) (hhi : b ≤ hi)
    (hc : isTail c = true) :
    IsSequence [a, b, c] ((a.toNat % 0x10 * 0x40 + low b) * 0x40 + low c) := by
  rw [UInt8.le_iff_toNat_le] at hlo hhi
  obtain ⟨h, -⟩ | ⟨-, x, hx, rfl, rfl, rfl⟩ | ⟨h, -⟩ := exists_of_lead ha
  · cases h
  · obtain ⟨hlong, hleast⟩ : (x = 0 → 0xA0 ≤ b.toNat) ∧ 0x80 ≤ b.toNat := by
      split at hlo <;> simp only [UInt8.reduceToNat] at hlo <;> omega
    obtain ⟨hplain, hgreatest⟩ : (x = 0xD → b.toNat ≤ 0x9F) ∧ b.toNat ≤ 0xBF := by
      split at hhi <;> simp only [UInt8.reduceToNat] at hhi <;> omega
    obtain ⟨y, hy, rfl⟩ := exists_of_tail hleast hgreatest
    obtain ⟨z, hz, rfl⟩ := exists_of_isTail hc
    rw [toNat_byte (by omega)] at hlong hplain
    rw [toNat_byte (by omega), low_tail hy, low_tail hz, show (x + 0xE0) % 0x10 = x by omega]
    exact .three hx hy hz (by omega) (by omega)
  · cases h

theorem isSequence_four (ha : lead a = some (3, lo, hi)) (hlo : lo ≤ b) (hhi : b ≤ hi)
    (hc : isTail c = true) (hd : isTail d = true) :
    IsSequence [a, b, c, d]
      (((a.toNat % 0x8 * 0x40 + low b) * 0x40 + low c) * 0x40 + low d) := by
  rw [UInt8.le_iff_toNat_le] at hlo hhi
  obtain ⟨h, -⟩ | ⟨h, -⟩ | ⟨-, x, hx, rfl, rfl, rfl⟩ := exists_of_lead ha
  · cases h
  · cases h
  · obtain ⟨hlong, hleast⟩ : (x = 0 → 0x90 ≤ b.toNat) ∧ 0x80 ≤ b.toNat := by
      split at hlo <;> simp only [UInt8.reduceToNat] at hlo <;> omega
    obtain ⟨hlast, hgreatest⟩ : (x = 4 → b.toNat ≤ 0x8F) ∧ b.toNat ≤ 0xBF := by
      split at hhi <;> simp only [UInt8.reduceToNat] at hhi <;> omega
    obtain ⟨y, hy, rfl⟩ := exists_of_tail hleast hgreatest
    obtain ⟨z, hz, rfl⟩ := exists_of_isTail hc
    obtain ⟨w, hw, rfl⟩ := exists_of_isTail hd
    rw [toNat_byte (by omega)] at hlong hlast
    rw [toNat_byte (by omega), low_tail hy, low_tail hz, low_tail hw,
      show (x + 0xF0) % 0x8 = x by omega]
    exact .four hx hy hz hw (by omega) (by omega)

end

theorem encodeUtf8_cons (c : Char) (t : List Char) :
    encodeUtf8 (c :: t) = String.utf8EncodeChar c ++ encodeUtf8 t := List.flatMap_cons

theorem encodeUtf8_append (s t : List Char) : encodeUtf8 (s ++ t) = encodeUtf8 s ++ encodeUtf8 t :=
  List.flatMap_append

/-- What is written first is read first, and reading goes on behind it. -/
theorem decodeFrom_encodeUtf8_append (index : Nat) (t : List Char) (rest : Bytes) :
    decodeFrom index (encodeUtf8 t ++ rest) =
      (decodeFrom (index + (encodeUtf8 t).length) rest).map (t ++ ·) := by
  induction t generalizing index with
  | nil => cases h : decodeFrom index rest <;> simp [encodeUtf8, h, Except.map]
  | cons c t ih =>
    rw [encodeUtf8_cons, List.append_assoc, decodeFrom_append (isSequence_utf8EncodeChar c),
      Char.ofNat_toNat, ih, List.length_append, ← Nat.add_assoc]
    cases decodeFrom (index + (String.utf8EncodeChar c).length + (encodeUtf8 t).length) rest <;> rfl

theorem decodeFrom_encodeUtf8 (index : Nat) (t : List Char) :
    decodeFrom index (encodeUtf8 t) = .ok t := by
  have h := decodeFrom_encodeUtf8_append index t []
  rw [List.append_nil, decodeFrom] at h
  rw [h, Except.map, List.append_nil]

/-! What begins a sequence. -/

/-- Some character is written with these bytes first. -/
def Begins (u : Bytes) : Prop := ∃ c : Char, u <+: String.utf8EncodeChar c

theorem Begins.of_prefix {u v : Bytes} (hv : Begins v) (h : u <+: v) : Begins u := by
  obtain ⟨c, hc⟩ := hv
  exact ⟨c, h.trans hc⟩

theorem begins_nil : Begins [] := ⟨'a', List.nil_prefix⟩

theorem IsSequence.begins {u : Bytes} {n : Nat} (h : IsSequence u n) : Begins u :=
  ⟨Char.ofNat n, [], by rw [utf8EncodeChar_of_isSequence h, List.append_nil]⟩

/-- What is refused whatever follows it begins no sequence. -/
theorem not_begins_of_decodeFrom {u : Bytes}
    (h : ∀ rest, ∃ e, decodeFrom 0 (u ++ rest) = .error e) : ¬ Begins u := by
  intro hu
  obtain ⟨c, rest, hc⟩ := hu
  obtain ⟨e, he⟩ := h rest
  have hok := decodeFrom_encodeUtf8 0 [c]
  rw [encodeUtf8, List.flatMap_singleton, ← hc, he] at hok
  cases hok

section
variable {a b lo hi : UInt8} {more : Nat} {v : Bytes}

theorem isSequence_of_lead (ha : lead a = some (more, lo, hi)) (hlo : lo ≤ b) (hhi : b ≤ hi)
    (hv : ∀ d ∈ v, isTail d = true) (hmore : v.length + 1 = more) :
    ∃ n, IsSequence (a :: b :: v) n := by
  subst hmore
  match v, hv, ha with
  | [], _, ha => exact ⟨_, isSequence_two ha hlo hhi⟩
  | [c], hv, ha => exact ⟨_, isSequence_three ha hlo hhi (hv c (by simp))⟩
  | [c, d], hv, ha => exact ⟨_, isSequence_four ha hlo hhi (hv c (by simp)) (hv d (by simp))⟩
  | _ :: _ :: _ :: _, _, ha =>
    obtain ⟨h, -⟩ | ⟨h, -⟩ | ⟨h, -⟩ := exists_of_lead ha <;> simp at h

/-- Bytes that a lead byte allows go on to a sequence, whose last bytes may be least. -/
theorem begins_of_lead (ha : lead a = some (more, lo, hi)) (hlo : lo ≤ b) (hhi : b ≤ hi)
    (hv : ∀ d ∈ v, isTail d = true) (hmore : v.length < more) : Begins (a :: b :: v) := by
  let fill : Bytes := List.replicate (more - (v.length + 1)) 0x80
  have htails : ∀ d ∈ v ++ fill, isTail d = true := by
    intro d hd
    rcases List.mem_append.1 hd with hd | hd
    · exact hv d hd
    · rw [List.eq_of_mem_replicate hd]
      decide
  have hlength : (v ++ fill).length + 1 = more := by
    rw [List.length_append, List.length_replicate]
    omega
  obtain ⟨n, hn⟩ := isSequence_of_lead ha hlo hhi htails hlength
  exact hn.begins.of_prefix ⟨fill, rfl⟩

theorem begins_lead (ha : lead a = some (more, lo, hi)) : Begins [a] := by
  have hrange : lo ≤ hi ∧ 0 < more := by
    obtain ⟨rfl, rfl, rfl, -⟩ | ⟨rfl, x, -, -, rfl, rfl⟩ | ⟨rfl, x, -, -, rfl, rfl⟩ :=
      exists_of_lead ha
    · decide
    · by_cases hx : x = 0
      · subst hx
        decide
      · rw [if_neg hx]
        split <;> decide
    · by_cases hx : x = 0
      · subst hx
        decide
      · rw [if_neg hx]
        split <;> decide
  have hlead := begins_of_lead (v := []) ha (UInt8.le_refl lo) hrange.1 (by simp) hrange.2
  exact hlead.of_prefix ⟨[lo], rfl⟩

end

/-! What is read. -/

/-- How bytes stop being UTF-8 where they start: all of them begin a longer sequence, or a byte
follows as many as do and goes on with none. -/
inductive Stops : Bytes → Option Nat → Prop
  | short {u : Bytes} : Begins u → Stops u none
  | broken {u rest : Bytes} {b : UInt8} : u.length ≤ 3 → Begins u → ¬ Begins (u ++ [b]) →
      Stops (u ++ b :: rest) (some (max 1 u.length))

theorem stops_of_decodeFrom {u : Bytes} {b : UInt8} (hlength : u.length ≤ 3) (hu : Begins u)
    (h : ∀ index rest, decodeFrom index (u ++ b :: rest) = .error ⟨index, some (max 1 u.length)⟩)
    (rest : Bytes) :
    ∃ length, Stops (u ++ b :: rest) length ∧
      ∀ index, decodeFrom index (u ++ b :: rest) = .error ⟨index, length⟩ := by
  have hb : ¬ Begins (u ++ [b]) := not_begins_of_decodeFrom fun rest => by
    rw [List.append_assoc]
    exact ⟨_, h 0 rest⟩
  exact ⟨_, .broken hlength hu hb, fun index => h index rest⟩

/-- Bytes begin with the sequence of a character, or they stop being UTF-8 where they start. -/
theorem sequence_or_stops (a : UInt8) (bytes : Bytes) :
    (∃ u n rest, a :: bytes = u ++ rest ∧ IsSequence u n) ∨
      ∃ length, Stops (a :: bytes) length ∧
        ∀ index, decodeFrom index (a :: bytes) = .error ⟨index, length⟩ := by
  by_cases ha : a < 0x80
  · have hone := IsSequence.one (n := a.toNat) ha
    rw [UInt8.ofNat_toNat] at hone
    exact .inl ⟨[a], _, bytes, rfl, hone⟩
  cases hlead : lead a with
  | none =>
    exact .inr (stops_of_decodeFrom (u := []) (by simp) begins_nil
      (fun index rest => by simp [decodeFrom, ha, hlead]) bytes)
  | some r =>
    obtain ⟨more, lo, hi⟩ := r
    have hone := begins_lead hlead
    rcases bytes with - | ⟨b, bytes⟩
    · exact .inr ⟨none, .short hone, fun index => by simp [decodeFrom, ha, hlead]⟩
    by_cases hb : b < lo ∨ hi < b
    · exact .inr (stops_of_decodeFrom (u := [a]) (by simp) hone
        (fun index rest => by simp [decodeFrom, ha, hlead, hb]) bytes)
    obtain ⟨hlo, hhi⟩ := not_or.1 hb
    rw [UInt8.not_lt] at hlo hhi
    have hmore : more = 1 ∨ more = 2 ∨ more = 3 := by
      obtain ⟨h, -⟩ | ⟨h, -⟩ | ⟨h, -⟩ := exists_of_lead hlead <;> omega
    have htwo := begins_of_lead (v := []) hlead hlo hhi (by simp) (by rw [List.length_nil]; omega)
    by_cases hmore1 : more = 1
    · subst hmore1
      exact .inl ⟨[a, b], _, bytes, rfl, isSequence_two hlead hlo hhi⟩
    rcases bytes with - | ⟨c, bytes⟩
    · exact .inr ⟨none, .short htwo, fun index => by simp [decodeFrom, ha, hlead, hb, hmore1]⟩
    by_cases hc : isTail c = false
    · exact .inr (stops_of_decodeFrom (u := [a, b]) (by simp) htwo
        (fun index rest => by simp [decodeFrom, ha, hlead, hb, hmore1, hc]) bytes)
    rw [Bool.not_eq_false] at hc
    by_cases hmore2 : more = 2
    · subst hmore2
      exact .inl ⟨[a, b, c], _, bytes, rfl, isSequence_three hlead hlo hhi hc⟩
    obtain rfl : more = 3 := by omega
    have hthree := begins_of_lead (v := [c]) hlead hlo hhi (by simp [hc]) (by simp)
    rcases bytes with - | ⟨d, bytes⟩
    · exact .inr ⟨none, .short hthree, fun index => by simp [decodeFrom, ha, hlead, hb, hc]⟩
    by_cases hd : isTail d = false
    · exact .inr (stops_of_decodeFrom (u := [a, b, c]) (by simp) hthree
        (fun index rest => by simp [decodeFrom, ha, hlead, hb, hc, hd]) bytes)
    · rw [Bool.not_eq_false] at hd
      exact .inl ⟨[a, b, c, d], _, bytes, rfl, isSequence_four hlead hlo hhi hc hd⟩

/-- What is read begins with the bytes of a character. -/
theorem isSequence_of_decodeFrom {index : Nat} {a : UInt8} {bytes : Bytes} {t : List Char}
    (h : decodeFrom index (a :: bytes) = .ok t) :
    ∃ u n rest t', a :: bytes = u ++ rest ∧ IsSequence u n ∧ t = Char.ofNat n :: t' ∧
      decodeFrom (index + u.length) rest = .ok t' := by
  obtain ⟨u, n, rest, hu, hsequence⟩ | ⟨length, -, herror⟩ := sequence_or_stops a bytes
  · rw [hu, decodeFrom_append hsequence] at h
    obtain ⟨t', hrest, rfl⟩ := map_eq_ok_iff.1 h
    exact ⟨u, n, rest, t', hu, hsequence, rfl, hrest⟩
  · rw [herror] at h
    cases h

theorem eq_encodeUtf8_of_decodeFrom {index : Nat} {bytes : Bytes} {t : List Char}
    (h : decodeFrom index bytes = .ok t) : bytes = encodeUtf8 t := by
  induction t generalizing index bytes with
  | nil =>
    cases bytes with
    | nil => rfl
    | cons a bytes =>
      obtain ⟨u, n, rest, t', -, -, ht, -⟩ := isSequence_of_decodeFrom h
      cases ht
  | cons c t ih =>
    cases bytes with
    | nil =>
      rw [decodeFrom] at h
      cases h
    | cons a bytes =>
      obtain ⟨u, n, rest, t', hu, hsequence, ht, hrest⟩ := isSequence_of_decodeFrom h
      cases ht
      rw [hu, ih hrest, encodeUtf8_cons, utf8EncodeChar_of_isSequence hsequence]

/-- Bytes are read as a text exactly if they are how this text is written. -/
theorem decodeUtf8_eq_ok_iff {bytes : Bytes} {t : List Char} :
    decodeUtf8 bytes = .ok t ↔ bytes = encodeUtf8 t := by
  refine ⟨eq_encodeUtf8_of_decodeFrom, ?_⟩
  rintro rfl
  exact decodeFrom_encodeUtf8 0 t

theorem encodeUtf8_inj {t t' : List Char} : encodeUtf8 t = encodeUtf8 t' ↔ t = t' := by
  refine ⟨fun h => ?_, congrArg _⟩
  have ht := decodeUtf8_eq_ok_iff.2 h
  rw [decodeUtf8_eq_ok_iff.2 rfl] at ht
  exact Except.ok.inj ht

/-! ASCII. -/

/-- A byte of ASCII is a whole sequence. -/
theorem IsSequence.eq_of_mem {u : Bytes} {n : Nat} {b : UInt8} (h : IsSequence u n) (hb : b ∈ u)
    (hascii : b.toNat < 0x80) : u = [b] ∧ n = b.toNat := by
  have hlong : ∀ {m : Nat}, 0x80 ≤ m → m < 0x100 → b ≠ .ofNat m := by
    rintro m hlow hhigh rfl
    rw [toNat_byte hhigh] at hascii
    omega
  cases h with
  | one hn =>
    obtain rfl := List.mem_singleton.1 hb
    exact ⟨rfl, (toNat_byte (by omega)).symm⟩
  | two =>
    simp only [List.mem_cons, List.not_mem_nil, or_false] at hb
    rcases hb with hb | hb <;> exact absurd hb (hlong (by omega) (by omega))
  | three =>
    simp only [List.mem_cons, List.not_mem_nil, or_false] at hb
    rcases hb with hb | hb | hb <;> exact absurd hb (hlong (by omega) (by omega))
  | four =>
    simp only [List.mem_cons, List.not_mem_nil, or_false] at hb
    rcases hb with hb | hb | hb | hb <;> exact absurd hb (hlong (by omega) (by omega))

theorem utf8EncodeChar_of_ascii {c : Char} (hc : c.toNat < 0x80) :
    String.utf8EncodeChar c = [.ofNat c.toNat] := by
  rw [← Char.ofNat_toNat c, utf8EncodeChar_of_isSequence (.one hc), Char.ofNat_toNat]

/-- Where a byte of ASCII stands among the bytes of a text, its character stands in the text. -/
theorem exists_of_encodeUtf8_eq_append {c : Char} (hc : c.toNat < 0x80) {s : List Char}
    {before after : Bytes} (h : encodeUtf8 s = before ++ .ofNat c.toNat :: after) :
    ∃ a b, s = a ++ c :: b ∧ before = encodeUtf8 a ∧ after = encodeUtf8 b := by
  induction s generalizing before with
  | nil => simp [encodeUtf8] at h
  | cons d s ih =>
    rw [encodeUtf8_cons] at h
    -- The byte stands behind the first character, or it is one of its bytes.
    have hcases : (∃ u, before = String.utf8EncodeChar d ++ u ∧
          encodeUtf8 s = u ++ .ofNat c.toNat :: after) ∨
        ∃ u, String.utf8EncodeChar d = before ++ .ofNat c.toNat :: u ∧
          after = u ++ encodeUtf8 s := by
      obtain ⟨u, hbefore, hs⟩ | ⟨u, hd, hs⟩ := List.append_eq_append_iff.1 h
      · exact .inl ⟨u, hbefore, hs⟩
      · cases u with
        | nil => exact .inl ⟨[], by simp [hd], hs.symm⟩
        | cons b u =>
          rw [List.cons_append, List.cons.injEq] at hs
          obtain ⟨rfl, hs⟩ := hs
          exact .inr ⟨u, hd, hs⟩
    obtain ⟨u, rfl, hs⟩ | ⟨u, hd, rfl⟩ := hcases
    · obtain ⟨a, b, rfl, rfl, rfl⟩ := ih hs
      exact ⟨d :: a, b, rfl, (encodeUtf8_cons d a).symm, rfl⟩
    · have hbyte : (UInt8.ofNat c.toNat).toNat = c.toNat := toNat_byte (by omega)
      obtain ⟨hone, hcode⟩ := (isSequence_utf8EncodeChar d).eq_of_mem
        (b := .ofNat c.toNat) (by simp [hd]) (by omega)
      have hlength := congrArg List.length (hone.symm.trans hd)
      simp only [List.length_append, List.length_cons, List.length_nil] at hlength
      obtain rfl : before = [] := List.eq_nil_of_length_eq_zero (by omega)
      obtain rfl : u = [] := List.eq_nil_of_length_eq_zero (by omega)
      obtain rfl : d = c := by rw [← Char.ofNat_toNat d, hcode, hbyte, Char.ofNat_toNat]
      exact ⟨[], s, rfl, rfl, rfl⟩

end ScriptOutline.Text
