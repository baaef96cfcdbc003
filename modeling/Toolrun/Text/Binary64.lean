/-
Decimal numbers seen through binary64, in exact integer arithmetic.

Two questions about a decimal numeral depend on the 53-bit format: whether
its value still lies in the range of the format, and which shortest decimal
names the value it rounds to. Both are answered here with natural numbers
only, so that nothing rests on the machine's own floating point.
-/

namespace Toolrun.Binary64

/-- A quotient rounded to the nearest natural number, a half to the even
one. -/
def roundQuotient (num den : Nat) : Nat :=
  let q := num / den
  let r := num % den
  if 2 * r > den || (2 * r == den && q % 2 == 1) then q + 1 else q

/-- A natural number rounded to 53 significant bits. -/
def roundNat (n : Nat) : Nat :=
  let extra := n.log2 - 52
  let unit := Nat.pow 2 extra
  roundQuotient n unit * unit

/-- Whether a rounded natural number lies beyond the largest finite value. -/
def isBeyond (n : Nat) : Bool := Nat.pow 2 1024 ≤ n

/-- Whether `significand × 10 ^ exponent` leaves the range of the format when
the significand and the power are rounded before they are multiplied. A
negative exponent never leads out of the range at the top. -/
def scaleOverflows (significand : Nat) (exponent : Int) : Bool :=
  if exponent < 0 || significand = 0 then false
  else if exponent > 308 then true
  else isBeyond
    (roundNat
      (roundNat significand * roundNat (Nat.pow 10 exponent.toNat)))

/-- A positive finite value, `mantissa × 2 ^ exponent`, with the mantissa
below `2 ^ 53` and the exponent at least -1074. -/
structure Finite where
  mantissa : Nat
  exponent : Int
  deriving DecidableEq, Repr

/-- The first mantissa that has more than 53 bits. -/
def mantissaLimit : Nat := Nat.pow 2 53

/-- The fraction `num / den` rounded to the format: nothing if it lies beyond
the largest finite value. -/
def ofFraction (num den : Nat) : Option Finite :=
  if num = 0 then some ⟨0, -1074⟩
  else
    let estimate : Int := (num.log2 : Int) - den.log2 - 53
    let mantissaAt (e : Int) : Nat :=
      if e < 0 then roundQuotient (num * Nat.pow 2 (-e).toNat) den
      else roundQuotient num (den * Nat.pow 2 e.toNat)
    -- The exponent with 53 significant bits is one of two; the smaller one
    -- is right unless it gives a mantissa of 54 bits.
    let low := if estimate < -1074 then -1074 else estimate
    let e := if mantissaAt low < mantissaLimit then low else low + 1
    let m := mantissaAt e
    let (m, e) :=
      if m = mantissaLimit then (mantissaLimit / 2, e + 1) else (m, e)
    if e > 971 then none else some ⟨m, e⟩

/-- The decimal `digits × 10 ^ exponent` rounded to the format. Exponents far
outside the range are decided before any power is formed. -/
def ofDecimal (digits : Nat) (exponent : Int) : Option Finite :=
  if digits = 0 then some ⟨0, -1074⟩
  else
    let top : Int := (Nat.toDigits 10 digits).length + exponent
    if top > 310 then none
    else if top < -330 then some ⟨0, -1074⟩
    else if exponent < 0 then ofFraction digits (Nat.pow 10 (-exponent).toNat)
    else ofFraction (digits * Nat.pow 10 exponent.toNat) 1

/-- A positive decimal number `digits × 10 ^ exponent`. -/
structure Decimal where
  digits : Nat
  exponent : Int
  deriving DecidableEq, Repr

/-- The two neighbours of a fraction on the grid of multiples of `10 ^ e`,
each with whether it rounds back to `x`, and the nearer one first. -/
def candidates (x : Finite) (e : Int) : List Decimal :=
  let (num, den) :=
    if x.exponent < 0 then (x.mantissa, Nat.pow 2 (-x.exponent).toNat)
    else (x.mantissa * Nat.pow 2 x.exponent.toNat, 1)
  let (num, den) :=
    if e < 0 then (num * Nat.pow 10 (-e).toNat, den)
    else (num, den * Nat.pow 10 e.toNat)
  let q := num / den
  let r := num % den
  let down : Decimal := ⟨q, e⟩
  let up : Decimal := ⟨q + 1, e⟩
  let ordered :=
    if 2 * r > den || (2 * r == den && q % 2 == 1) then [up, down]
    else [down, up]
  ordered.filter fun d =>
    d.digits ≠ 0 && ofDecimal d.digits d.exponent == some x

/-- The decimal with the fewest digits that rounds to a positive value, and
of those the nearest to it. The grids are tried from the coarsest to the
finest; with seventeen digits one always answers. -/
def shortest (x : Finite) : Decimal :=
  if x.mantissa = 0 then ⟨0, 0⟩
  else
    let (num, den) :=
      if x.exponent < 0 then (x.mantissa, Nat.pow 2 (-x.exponent).toNat)
      else (x.mantissa * Nat.pow 2 x.exponent.toNat, 1)
    -- The place of the first digit: the largest k with 10 ^ k ≤ value.
    let place : Int :=
      if num ≥ den then ((Nat.toDigits 10 (num / den)).length : Int) - 1
      else -((Nat.toDigits 10 ((den - 1) / num)).length : Int)
    let grids : List Int :=
      (List.range 18).map fun (i : Nat) => place + 1 - (i : Int)
    match grids.findSome? fun e => (candidates x e).head? with
    | some d => d
    | none => ⟨num / den, 0⟩

end Toolrun.Binary64
