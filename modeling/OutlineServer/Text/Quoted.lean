import OutlineServer.Text.Printable

/-!
# Quoted text

How a message shows a text that someone typed: between apostrophes, or between double quotes when
it holds apostrophes and no double quotes, with escapes for what could not be told apart or seen.
-/
namespace OutlineServer.Text

def hexadecimal (width n : Nat) : Text :=
  let digits := (Nat.toDigits 16 n).map CodePoint.ofChar
  List.replicate (width - digits.length) (CodePoint.ofChar '0') ++ digits

def quoteMark (t : Text) : CodePoint :=
  if t.contains CodePoint.apostrophe && !t.contains CodePoint.quote then CodePoint.quote
  else CodePoint.apostrophe

def quotedPoint (mark c : CodePoint) : Text :=
  if c = mark ∨ c = CodePoint.backslash then [CodePoint.backslash, c]
  else if c = CodePoint.tab then [CodePoint.backslash, 't']
  else if c = CodePoint.lineFeed then [CodePoint.backslash, 'n']
  else if c = CodePoint.carriageReturn then [CodePoint.backslash, 'r']
  else if c.isPrintable then [c]
  else if c.val < 0x100 then CodePoint.backslash :: 'x' :: hexadecimal 2 c.val
  else if c.val < 0x10000 then CodePoint.backslash :: 'u' :: hexadecimal 4 c.val
  else CodePoint.backslash :: 'U' :: hexadecimal 8 c.val

def quoted (t : Text) : Text :=
  let mark := t.quoteMark
  mark :: (t.flatMap (quotedPoint mark) ++ [mark])

end OutlineServer.Text
