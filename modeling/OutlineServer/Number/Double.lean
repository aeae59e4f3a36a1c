import OutlineServer.Number.Decimal

/-!
# Double-precision numbers

A number written with a fraction or an exponent is held in the 64-bit binary format.  The finite
magnitudes of that format, in increasing order, are numbered 0, 1, 2, …: rank 0 is zero, and the
magnitudes of one binade fill 2^52 consecutive ranks.  So a magnitude is its rank, every rank below
the first one past the largest binade is a magnitude, and a carry out of rounding simply lands on
the next rank.

`Double.ofDecimal` rounds a decimal to the nearest magnitude, a tie to the even rank, in exact
arithmetic on natural numbers.
-/
namespace OutlineServer

namespace Double

def binade : Nat := Nat.pow 2 52

/-- The rank just above that of the largest finite magnitude. -/
def infiniteRank : Nat := 2047 * binade

end Double

inductive Double where
  | nan
  | infinite (negative : Bool)
  | finite (negative : Bool) (rank : Fin Double.infiniteRank)
deriving DecidableEq

namespace Double

/-- The magnitude of a rank is `mantissa rank * 2 ^ exponent rank`. -/
def mantissa (rank : Nat) : Nat :=
  if rank < binade then rank else binade + rank % binade

def exponent (rank : Nat) : Int := max (rank / binade : Nat) 1 - 1075

/-- The nearest natural number to `numerator / denominator`, a half to the even neighbour. -/
def roundQuotient (numerator denominator : Nat) : Nat :=
  let quotient := numerator / denominator
  let twice := 2 * (numerator % denominator)
  if twice < denominator then quotient
  else if denominator < twice then quotient + 1
  else quotient + quotient % 2

/-- The binary exponent that makes the mantissa of `numerator / denominator` at least 2^52 and
below 2^53. -/
def normalExponent (numerator denominator : Nat) : Int :=
  let estimate : Int := (numerator.log2 : Int) - denominator.log2
  let reached : Bool :=
    if 0 ≤ estimate then denominator * Nat.pow 2 estimate.toNat ≤ numerator
    else denominator ≤ numerator * Nat.pow 2 (-estimate).toNat
  if reached then estimate - 52 else estimate - 53

/-- The rank of the magnitude nearest to `numerator / denominator`; not bounded. -/
def nearestRank (numerator denominator : Nat) : Nat :=
  let q := max (normalExponent numerator denominator) (-1074)
  let m :=
    if 0 ≤ q then roundQuotient numerator (denominator * Nat.pow 2 q.toNat)
    else roundQuotient (numerator * Nat.pow 2 (-q).toNat) denominator
  (q + 1074).toNat * binade + m

/-- The number with this sign and rank, infinite when the rank is past the last one. -/
def ofRank (negative : Bool) (rank : Nat) : Double :=
  if h : rank < infiniteRank then .finite negative ⟨rank, h⟩ else .infinite negative

/-- The number nearest to a decimal.  A point more than 310 places right of the first digit is past
every finite number, and more than 330 places left of it below half of the smallest one, so no
larger power of ten is ever formed. -/
def ofDecimal (negative : Bool) (d : Decimal) : Double :=
  let ⟨digits, scale⟩ := d.trim
  if digits = 0 ∨ d.trim.point < -330 then ofRank negative 0
  else if 310 < d.trim.point then .infinite negative
  else if 0 ≤ scale then ofRank negative (nearestRank (digits * Nat.pow 10 scale.toNat) 1)
  else ofRank negative (nearestRank digits (Nat.pow 10 (-scale).toNat))

end Double

end OutlineServer
