import OutlineServer.Text.Blank
import OutlineServer.Text.Digit

/-!
# Whole numbers as they are typed

Blanks around the number, a sign, digits of any script, and single low lines between digits.  The
four ASCII separators, blank elsewhere, are not blank here.
-/
namespace OutlineServer.CommandLine

def isNumberBlank (c : CodePoint) : Bool := c.isBlank && !(0x1C ≤ c.val && c.val ≤ 0x1F)

/-- Reads digits on top of what was read so far; `afterDigit` says that the last character was one. -/
def readDigits (afterDigit : Bool) (n : Nat) : Text → Option Nat
  | [] => if afterDigit then some n else none
  | c :: rest =>
    match c.decimalDigit? with
    | some digit => readDigits true (10 * n + digit) rest
    | none => if c = '_' ∧ afterDigit then readDigits false n rest else none

def integer? (t : Text) : Option Int :=
  let t := ((t.dropWhile isNumberBlank).reverse.dropWhile isNumberBlank).reverse
  match t with
  | c :: rest =>
    if c = '-' then (readDigits false 0 rest).map (fun n => -(n : Int))
    else if c = '+' then (readDigits false 0 rest).map Int.ofNat
    else (readDigits false 0 t).map Int.ofNat
  | [] => none

end OutlineServer.CommandLine
