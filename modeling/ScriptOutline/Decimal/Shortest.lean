/-!
The shortest decimal of a binary64, in whole numbers: the interval of reals that round to it is met
by ever finer decimal grids, and the first grid with a point inside wins.
-/

set_option autoImplicit false

namespace ScriptOutline.Decimal

/-- The exact value `num / den`, and the bounds `num - below` and `num + above` over the same
denominator between which every real is read as this one; they count in when `closed`. -/
structure Rounded where
  num : Nat
  den : Nat
  below : Nat
  above : Nat
  closed : Bool

def powerOfTwo (n : Nat) : Nat := Nat.pow 2 n

def powerOfTen (n : Nat) : Nat := Nat.pow 10 n

/-- A positive finite binary64 by its bits: 52 of the significand, 11 of the exponent. -/
def Rounded.ofBits (bits : Nat) : Rounded :=
  let unit := powerOfTwo 52
  let fraction := bits % unit
  let exponent := bits / unit % powerOfTwo 11
  let m := if exponent = 0 then fraction else fraction + unit
  let e := max exponent 1
  let halved := fraction = 0 && 1 < exponent
  let up := powerOfTwo (e - 1077)
  let down := powerOfTwo (1077 - e)
  ⟨4 * m * up, down, (if halved then 1 else 2) * up, 2 * up, m % 2 = 0⟩

/-- Whether `digits * 10 ^ exp` is read as the value. -/
def Rounded.admits (r : Rounded) (digits : Nat) (exp : Int) : Bool :=
  let x := digits * powerOfTen exp.toNat * r.den
  let scale := powerOfTen (-exp).toNat
  let lo := (r.num - r.below) * scale
  let hi := (r.num + r.above) * scale
  if r.closed then lo ≤ x && x ≤ hi else lo < x && x < hi

/-- The whole number nearest to `num / den`; halfway, the even one. -/
def nearest (num den : Nat) : Nat :=
  let floor := num / den
  let twice := 2 * (num % den)
  if twice < den || (twice == den && floor % 2 == 0) then floor else floor + 1

/-- The neighbour of the value on the grid of `10 ^ exp` that is read as it; the nearer of two. -/
def Rounded.onGrid? (r : Rounded) (exp : Int) : Option Nat :=
  let num := r.num * powerOfTen (-exp).toNat
  let den := r.den * powerOfTen exp.toNat
  let floor := num / den
  match r.admits floor exp, r.admits (floor + 1) exp with
  | true, true => some (nearest num den)
  | true, false => some floor
  | false, true => some (floor + 1)
  | false, false => none

/-- An exponent whose power of ten is at least the value. -/
def Rounded.top (r : Rounded) : Int :=
  if r.den ≤ r.num then ((Nat.toDigits 10 (r.num / r.den)).length : Int)
  else 1 - ((Nat.toDigits 10 (r.den / max r.num 1)).length : Int)

/-- The coarsest of the next `n` grids with such a neighbour, and that neighbour. -/
def Rounded.search (r : Rounded) : Nat → Int → Nat × Int
  | 0, exp => (0, exp)
  | n + 1, exp =>
    match r.onGrid? exp with
    | some (d + 1) => (d + 1, exp)
    | _ => r.search n (exp - 1)

/-- The fewest significant digits that are read back as the value, and the exponent of the last. -/
def shortest (bits : Nat) : Nat × Int :=
  let r := Rounded.ofBits bits
  r.search 20 r.top

end ScriptOutline.Decimal
