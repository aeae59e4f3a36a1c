import OutlineServer.Text.Basic

/-!
# Sets of code points as sorted ranges

The tables of character classes are lists of inclusive ranges in increasing order, so a look-up
stops at the first range that begins beyond the code point.  That keeps the common case, ASCII,
within the first few ranges.
-/
namespace OutlineServer

/-- Inclusive ranges of code point numbers, in increasing order. -/
abbrev Ranges := List (Nat × Nat)

namespace Ranges

def find? : Ranges → Nat → Option (Nat × Nat)
  | [], _ => none
  | (low, high) :: rest, n =>
    if n < low then none else if n ≤ high then some (low, high) else find? rest n

def contains (ranges : Ranges) (n : Nat) : Bool := (ranges.find? n).isSome

end Ranges

end OutlineServer
