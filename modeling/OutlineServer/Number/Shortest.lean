import OutlineServer.Number.Double

/-!
# The shortest decimal of a double

Every magnitude has an exact decimal, and cutting it after its first `n` digits leaves two
candidates on the grid of `n` digits: the cut and the next point above.  The decimal of a number is
the candidate that reads back as the number, with the fewest digits; the nearer one when both do,
and an exact tie goes to the even digit.  The exact decimal itself always reads back, so the search
ends there.

`Double.toText` lays the digits out: positional notation while the first digit stands for 10^-4 up
to 10^15, with at least one digit on either side of the point, and otherwise a signed exponent of
at least two digits.
-/
namespace OutlineServer

namespace Double

def exactDecimal (rank : Nat) : Decimal :=
  let m := mantissa rank
  let q := exponent rank
  if m = 0 then ⟨0, 0⟩
  else if 0 ≤ q then ⟨m * Nat.pow 2 q.toNat, 0⟩
  else ⟨m * Nat.pow 5 (-q).toNat, q⟩

def readsAs (rank : Fin infiniteRank) (d : Decimal) : Bool :=
  ofDecimal false d = .finite false rank

/-- The decimal of at most `n` digits that reads back, if there is one. -/
def withDigits? (rank : Fin infiniteRank) (n : Nat) : Option Decimal :=
  let exact := exactDecimal rank
  let dropped := exact.size - n
  let unit := Nat.pow 10 dropped
  let low : Decimal := ⟨exact.digits / unit, exact.scale + dropped⟩
  let high : Decimal := ⟨exact.digits / unit + 1, exact.scale + dropped⟩
  let twice := 2 * (exact.digits % unit)
  match readsAs rank low, readsAs rank high with
  | true, true =>
    if twice < unit then some low
    else if unit < twice then some high
    else if low.digits % 2 = 0 then some low else some high
  | true, false => some low
  | false, true => some high
  | false, false => none

/-- The decimal with the fewest digits that reads back as the magnitude of a rank. -/
def shortestDecimal (rank : Fin infiniteRank) : Decimal :=
  let exact := exactDecimal rank
  let found := (List.range exact.size).findSome? (fun n => withDigits? rank (n + 1))
  (found.getD exact).trim

def positional (digits : Text) (point : Int) : Text :=
  let zero : CodePoint := '0'
  if point ≤ 0 then
    zero :: '.' :: (List.replicate (-point).toNat zero ++ digits)
  else
    let whole := point.toNat
    if digits.length ≤ whole then
      digits ++ List.replicate (whole - digits.length) zero ++ (".0" : Text)
    else digits.take whole ++ ("." : Text) ++ digits.drop whole

def scientific (digits : Text) (power : Int) : Text :=
  let fraction : Text := if digits.length ≤ 1 then [] else CodePoint.ofChar '.' :: digits.drop 1
  let sign : CodePoint := if power < 0 then '-' else '+'
  digits.take 1 ++ fraction ++ CodePoint.ofChar 'e' :: sign :: Text.padded 2 power.natAbs

def magnitudeText (rank : Fin infiniteRank) : Text :=
  let d := shortestDecimal rank
  let digits := Text.ofNat d.digits
  let power := digits.length + d.scale - 1
  if -4 ≤ power ∧ power < 16 then positional digits (power + 1) else scientific digits power

structure SpecialNames where
  nan : Text
  infinity : Text

/-- The text of a number; zero keeps its sign. -/
def toText (names : SpecialNames) : Double → Text
  | .nan => names.nan
  | .infinite false => names.infinity
  | .infinite true => CodePoint.ofChar '-' :: names.infinity
  | .finite false rank => magnitudeText rank
  | .finite true rank => CodePoint.ofChar '-' :: magnitudeText rank

end Double

end OutlineServer
