/-!
# Text as a list of code points

A request may spell a lone surrogate (`"\ud800"`), which is a code point but no character, so
`Char` and `String` have no room for it.  Text is therefore a list of code points: every length,
column and offset in this project counts list elements, and text is ordered element by element.

`Text.ofString` is the view of a literal.  Only the byte size can fail to exist: a text with a
surrogate has no UTF-8 form (`Text.isEncodable`).
-/
namespace OutlineServer

/-- A Unicode code point, surrogates included. -/
structure CodePoint where
  val : Nat
  isLt : val < 0x110000
deriving DecidableEq

namespace CodePoint

def ofChar (c : Char) : CodePoint where
  val := c.toNat
  isLt := by
    rcases c.valid with h | h <;> simp only [Char.toNat] <;> omega

instance : Coe Char CodePoint := ⟨ofChar⟩

/-- The code point with this number, U+FFFD for a number that is none. -/
def ofNat (n : Nat) : CodePoint :=
  if h : n < 0x110000 then ⟨n, h⟩ else ⟨0xFFFD, by decide⟩

instance : LT CodePoint := ⟨fun a b => a.val < b.val⟩

instance (a b : CodePoint) : Decidable (a < b) :=
  inferInstanceAs (Decidable (a.val < b.val))

instance : Inhabited CodePoint := ⟨ofNat 0⟩

theorem ext_val {a b : CodePoint} (h : a.val = b.val) : a = b := by
  cases a; cases b; cases h; rfl

def isHighSurrogate (c : CodePoint) : Bool := 0xD800 ≤ c.val && c.val < 0xDC00

def isLowSurrogate (c : CodePoint) : Bool := 0xDC00 ≤ c.val && c.val < 0xE000

def isSurrogate (c : CodePoint) : Bool := c.isHighSurrogate || c.isLowSurrogate

def utf8Size (c : CodePoint) : Nat :=
  if c.val < 0x80 then 1 else if c.val < 0x800 then 2 else if c.val < 0x10000 then 3 else 4

/-- The character with this number; a surrogate is shown as U+FFFD. -/
def toChar (c : CodePoint) : Char :=
  if c.isSurrogate then Char.ofNat 0xFFFD else Char.ofNat c.val

def lineFeed : CodePoint := ⟨0x0A, by decide⟩

def carriageReturn : CodePoint := ⟨0x0D, by decide⟩

def space : CodePoint := ⟨0x20, by decide⟩

def tab : CodePoint := ⟨0x09, by decide⟩

def quote : CodePoint := ⟨0x22, by decide⟩

def apostrophe : CodePoint := ⟨0x27, by decide⟩

def backslash : CodePoint := ⟨0x5C, by decide⟩

end CodePoint

/-- A text: its length is its number of code points. -/
abbrev Text := List CodePoint

namespace Text

def ofString (s : String) : Text := s.toList.map CodePoint.ofChar

instance : Coe String Text := ⟨ofString⟩

def toString (t : Text) : String := String.ofList (t.map CodePoint.toChar)

/-- A text has a UTF-8 form exactly when no code point of it is a surrogate. -/
def isEncodable (t : Text) : Bool := !t.any CodePoint.isSurrogate

def utf8Size (t : Text) : Nat := t.foldl (fun n c => n + c.utf8Size) 0

def after? : Text → (lead : Text) → Option Text
  | t, [] => some t
  | [], _ :: _ => none
  | c :: t, l :: lead => if c = l then after? t lead else none

def startsWith (t lead : Text) : Bool := (t.after? lead).isSome

/-- The pieces between the occurrences of `separator`; there is always one more piece than
occurrences. -/
def splitOn (separator : CodePoint) (t : Text) : List Text :=
  t.foldr
    (fun c pieces =>
      if c = separator then [] :: pieces
      else
        match pieces with
        | [] => [[c]]
        | piece :: rest => (c :: piece) :: rest)
    [[]]

def join (separator : Text) : List Text → Text
  | [] => []
  | [t] => t
  | t :: rest => t ++ separator ++ join separator rest

def ofNat (n : Nat) : Text := (Nat.toDigits 10 n).map CodePoint.ofChar

def ofInt : Int → Text
  | .ofNat n => ofNat n
  | .negSucc n => CodePoint.ofChar '-' :: ofNat (n + 1)

def padded (width n : Nat) : Text :=
  let digits := ofNat n
  List.replicate (width - digits.length) (CodePoint.ofChar '0') ++ digits

/-- Reads a run of digits as a number in the given base; `digit?` values each of them. -/
def numeral? (base : Nat) (digit? : CodePoint → Option Nat) (t : Text) : Option Nat :=
  if t.isEmpty then none
  else t.foldlM (fun n c => (digit? c).map (base * n + ·)) 0

end Text

/-! ## ASCII digits -/

namespace CodePoint

def isDigit (c : CodePoint) : Bool := 0x30 ≤ c.val && c.val ≤ 0x39

def digit? (c : CodePoint) : Option Nat := if c.isDigit then some (c.val - 0x30) else none

def hexDigit? (c : CodePoint) : Option Nat :=
  if c.isDigit then some (c.val - 0x30)
  else if 0x61 ≤ c.val && c.val ≤ 0x66 then some (c.val - 0x61 + 10)
  else if 0x41 ≤ c.val && c.val ≤ 0x46 then some (c.val - 0x41 + 10)
  else none

end CodePoint

namespace Text

/-- The number that a run of ASCII digits spells, zero for the empty run. -/
def decimalValue (t : Text) : Nat := t.foldl (fun n c => 10 * n + (c.val - 0x30)) 0

end Text

end OutlineServer
