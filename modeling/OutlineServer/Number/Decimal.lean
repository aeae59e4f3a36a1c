import OutlineServer.Text.Basic

/-!
# Decimals

A decimal is a whole number of digits with a power of ten.  One number has many such forms, as
zeros at the end of the digits can be moved into the power; `Decimal.trim` moves all of them, so the
forms of one number share their trimmed form.
-/
namespace OutlineServer

/-- The decimal `digits * 10 ^ scale`. -/
structure Decimal where
  digits : Nat
  scale : Int
deriving DecidableEq

namespace Decimal

def size (d : Decimal) : Nat := (Nat.toDigits 10 d.digits).length

/-- Moves at most `fuel` zeros from the end of the digits into the power. -/
def trimZeros : (fuel : Nat) → Decimal → Decimal
  | 0, d => d
  | fuel + 1, d =>
    if d.digits ≠ 0 ∧ d.digits % 10 = 0 then trimZeros fuel ⟨d.digits / 10, d.scale + 1⟩ else d

def trim (d : Decimal) : Decimal := trimZeros d.size d

/-- The number of places that the point stands right of the front of the digits. -/
def point (d : Decimal) : Int := d.size + d.scale

end Decimal

end OutlineServer
