import OutlineServer.Text.Basic

/-!
# UTF-8

Octets are read one at a time.  Within a character the reader knows how many octets are owed and
between which bounds the next one must lie; the bounds on the second octet are what keeps out
overlong forms, surrogates and numbers past the last code point.
-/
namespace OutlineServer.Utf8

/-! ## Reading -/

structure State where
  /-- The characters read so far, last first. -/
  done : Text := []
  /-- The number of octets that the unfinished character still needs. -/
  owed : Nat := 0
  /-- The bounds of the next octet. -/
  low : Nat := 0x80
  high : Nat := 0xBF
  /-- The bits of the unfinished character. -/
  bits : Nat := 0

namespace State

def start (s : State) (octet : Nat) : Option State :=
  if octet < 0x80 then some { s with done := CodePoint.ofNat octet :: s.done }
  else if 0xC2 ≤ octet ∧ octet ≤ 0xDF then
    some { s with owed := 1, low := 0x80, high := 0xBF, bits := octet - 0xC0 }
  else if 0xE0 ≤ octet ∧ octet ≤ 0xEF then
    let low := if octet = 0xE0 then 0xA0 else 0x80
    let high := if octet = 0xED then 0x9F else 0xBF
    some { s with owed := 2, low, high, bits := octet - 0xE0 }
  else if 0xF0 ≤ octet ∧ octet ≤ 0xF4 then
    let low := if octet = 0xF0 then 0x90 else 0x80
    let high := if octet = 0xF4 then 0x8F else 0xBF
    some { s with owed := 3, low, high, bits := octet - 0xF0 }
  else none

def step (s : State) (octet : Nat) : Option State :=
  match s.owed with
  | 0 => s.start octet
  | owed + 1 =>
    if octet < s.low ∨ s.high < octet then none
    else
      let bits := s.bits * 64 + (octet - 0x80)
      let done := if owed = 0 then CodePoint.ofNat bits :: s.done else s.done
      some { done, owed, low := 0x80, high := 0xBF, bits }

def run (s : State) (octets : List UInt8) : Option State :=
  octets.foldlM (fun s octet => s.step octet.toNat) s

/-- What was read, if no character is unfinished. -/
def text? (s : State) : Option Text := if s.owed = 0 then some s.done.reverse else none

end State

def decode? (octets : List UInt8) : Option Text := (State.run {} octets).bind State.text?

/-! ## Writing -/

/-- The octets of a character.  A surrogate is none, and what is written for it cannot be read. -/
def octetsOf (c : CodePoint) : List UInt8 :=
  let tail (n : Nat) : UInt8 := .ofNat (0x80 + n % 64)
  if c.val < 0x80 then [.ofNat c.val]
  else if c.val < 0x800 then [.ofNat (0xC0 + c.val / 64), tail c.val]
  else if c.val < 0x10000 then [.ofNat (0xE0 + c.val / 4096), tail (c.val / 64), tail c.val]
  else [.ofNat (0xF0 + c.val / 262144), tail (c.val / 4096), tail (c.val / 64), tail c.val]

def encode (t : Text) : List UInt8 := t.flatMap octetsOf

end OutlineServer.Utf8
