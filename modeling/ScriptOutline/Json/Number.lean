import ScriptOutline.Decimal.Shortest
import ScriptOutline.Json.Fault

/-!
JSON numbers: which are whole and which real, how reals are rounded, and how both are written.
-/

set_option autoImplicit false

namespace ScriptOutline.Json

/-- Whole numbers stay exact between the least signed and the greatest unsigned 64-bit number;
any other number is a binary64. -/
inductive Number where
  | whole (n : Int)
  | real (x : Float)

def greatest : Nat := 0xFFFFFFFFFFFFFFFF

/-- Half of the 64-bit numbers; as a bit, the sign of a real. -/
def half : Nat := 0x8000000000000000

/-- Numbers keep positional notation while their leading digit stands between the fifth place
after the point and the sixteenth before it; a real always shows that it is one. -/
def realDigits (digits : List Char) (exp : Int) : List Char :=
  let n := (digits.length : Int)
  let point := n + exp
  if 0 ≤ exp && point ≤ 16 then digits ++ List.replicate exp.toNat '0' ++ ['.', '0']
  else if 0 < point && point ≤ 16 then digits.take point.toNat ++ '.' :: digits.drop point.toNat
  else if -5 < point && point ≤ 0 then
    ['0', '.'] ++ List.replicate (-point).toNat '0' ++ digits
  else
    let mark := if point ≤ 0 then ['e', '-'] else ['e', '+']
    let power := mark ++ Nat.toDigits 10 (point - 1).natAbs
    match digits with
    | [] => power
    | [d] => d :: power
    | d :: rest => d :: '.' :: rest ++ power

def realText (x : Float) : List Char :=
  let bits := x.toBits.toNat
  let sign := if half ≤ bits then ['-'] else []
  if bits % half = 0 then sign ++ ['0', '.', '0']
  else
    let (digits, exp) := Decimal.shortest (bits % half)
    sign ++ realDigits (Nat.toDigits 10 digits) exp

def wholeText (n : Int) : List Char :=
  if n < 0 then '-' :: Nat.toDigits 10 n.natAbs else Nat.toDigits 10 n.natAbs

def Number.text : Number → List Char
  | whole n => wholeText n
  | real x => realText x

/-! Reading. -/

def digits? (s : List Char) : Except Fault (List Char × List Char) :=
  match s.takeWhile Char.isDigit with
  | [] => .error (if s.isEmpty then .endInValue else .badNumber)
  | ds => .ok (ds, s.dropWhile Char.isDigit)

def fraction? : List Char → Except Fault (List Char × List Char)
  | '.' :: s => digits? s
  | s => .ok ([], s)

def decimal (ds : List Char) : Nat := ds.foldl (fun n d => n * 10 + (d.toNat - 48)) 0

def sign : List Char → Bool × List Char
  | '-' :: s => (true, s)
  | '+' :: s => (false, s)
  | s => (false, s)

def power? : List Char → Except Fault (Option Int × List Char)
  | [] => .ok (none, [])
  | c :: s =>
    if c == 'e' || c == 'E' then
      match digits? (sign s).2 with
      | .ok (ds, rest) => .ok (some (if (sign s).1 then -decimal ds else decimal ds), rest)
      | .error f => .error f
    else .ok (none, c :: s)

/-- Takes up digits as long as the number stays within 64 bits, and counts them. -/
def absorb (n : Nat) : List Char → Nat × Nat
  | [] => (n, 0)
  | d :: ds =>
    let more := n * 10 + (d.toNat - 48)
    if greatest < more then (n, 0)
    else
      let (n, count) := absorb more ds
      (n, count + 1)

def tenTo (n : Nat) : Float := Float.ofScientific 1 false n

/-- A significand times a power of ten. Each of the two is rounded before they are multiplied or
divided, so the last bit may differ from that of the nearest binary64. -/
def scaled? (n : Nat) (exp : Int) : Option Float :=
  let x := Float.ofNat n
  if 308 < exp then if n = 0 then some 0 else none
  else if 0 ≤ exp then
    let y := x * tenTo exp.toNat
    if y.isInf then none else some y
  else if -308 ≤ exp then some (x / tenTo (-exp).toNat)
  else if -616 ≤ exp then some (x / tenTo 308 / tenTo (-exp - 308).toNat)
  else some 0

/-- Digits past 64 bits are not taken up. A minus zero is a real, like any number that the signed
or unsigned 64-bit numbers lack. -/
def ofDigits (negative : Bool) (whole fraction : List Char) (power : Option Int) :
    Except Fault Number :=
  let (n, taken) := absorb 0 whole
  let left := whole.length - taken
  if fraction.isEmpty && power.isNone && left == 0 then
    if !negative then .ok (.whole n)
    else if n = 0 || half < n then .ok (.real (-Float.ofNat n))
    else .ok (.whole (-n))
  else
    let (n, places) := absorb n fraction
    match scaled? n (left - places + power.getD 0) with
    | some x => .ok (.real (if negative then -x else x))
    | none => .error .numberTooLarge

/-- A number behind its sign, and what follows it. A number too large has an end but no value. -/
def number? (negative : Bool) (s : List Char) :
    Except Fault (Except Fault Number × List Char) := do
  let (whole, s) ← digits? s
  if whole.head? = some '0' && 1 < whole.length then throw .badNumber
  let (fraction, s) ← fraction? s
  let (power, s) ← power? s
  return (ofDigits negative whole fraction power, s)

theorem digits?_length {s ds rest : List Char} (h : digits? s = .ok (ds, rest)) :
    rest.length < s.length := by
  unfold digits? at h
  split at h
  · simp at h
  · next hne =>
    simp only [Except.ok.injEq, Prod.mk.injEq] at h
    have hs := congrArg List.length (List.takeWhile_append_dropWhile (p := Char.isDigit) (l := s))
    have : (s.takeWhile Char.isDigit).length ≠ 0 := by simpa using hne
    simp only [List.length_append] at hs
    rw [← h.2]
    omega

theorem fraction?_length {s ds rest : List Char} (h : fraction? s = .ok (ds, rest)) :
    rest.length ≤ s.length := by
  unfold fraction? at h
  split at h
  · have := digits?_length h
    simp only [List.length_cons]
    omega
  · simp_all

theorem sign_length (s : List Char) : (sign s).2.length ≤ s.length := by
  unfold sign
  split <;> simp

theorem power?_length {s rest : List Char} {n : Option Int} (h : power? s = .ok (n, rest)) :
    rest.length ≤ s.length := by
  unfold power? at h
  split at h
  · simp_all
  · next c s =>
    split at h
    · split at h
      · next hd =>
        have := digits?_length hd
        have := sign_length s
        simp only [Except.ok.injEq, Prod.mk.injEq] at h
        simp only [← h.2, List.length_cons]
        omega
      · simp at h
    · simp_all

theorem number?_length {negative : Bool} {s rest : List Char} {n : Except Fault Number}
    (h : number? negative s = .ok (n, rest)) : rest.length < s.length := by
  unfold number? at h
  cases h₁ : digits? s with
  | error => simp [h₁, bind, Except.bind] at h
  | ok p =>
    obtain ⟨whole, s₁⟩ := p
    have l₁ := digits?_length h₁
    by_cases hz : whole.head? = some '0' && 1 < whole.length
    · simp [h₁, bind, Except.bind, throw, throwThe, MonadExceptOf.throw, hz] at h
    · cases h₂ : fraction? s₁ with
      | error => simp [h₁, h₂, bind, Except.bind, hz] at h
      | ok p =>
        obtain ⟨fraction, s₂⟩ := p
        have l₂ := fraction?_length h₂
        cases h₃ : power? s₂ with
        | error => simp [h₁, h₂, h₃, bind, Except.bind, hz] at h
        | ok p =>
          obtain ⟨power, s₃⟩ := p
          have l₃ := power?_length h₃
          simp [h₁, h₂, h₃, bind, Except.bind, hz, pure, Except.pure] at h
          rw [← h.2]
          omega

end ScriptOutline.Json
