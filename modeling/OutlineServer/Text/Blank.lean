import OutlineServer.Text.Ranges

/-!
# Blank characters

The white space that surrounds tokens and that an empty line may hold: the ASCII controls from
horizontal tab to carriage return, the four ASCII separators, the space, and the space, line and
paragraph separators of Unicode 14.  Zero-width characters are not blank.
-/
namespace OutlineServer

def blankRanges : Ranges :=
  [(0x0009, 0x000D), (0x001C, 0x0020), (0x0085, 0x0085), (0x00A0, 0x00A0), (0x1680, 0x1680),
   (0x2000, 0x200A), (0x2028, 0x2029), (0x202F, 0x202F), (0x205F, 0x205F), (0x3000, 0x3000)]

namespace CodePoint

def isBlank (c : CodePoint) : Bool := blankRanges.contains c.val

end CodePoint

namespace Text

def strip (t : Text) : Text :=
  ((t.dropWhile CodePoint.isBlank).reverse.dropWhile CodePoint.isBlank).reverse

def isBlank (t : Text) : Bool := t.all CodePoint.isBlank

end Text

end OutlineServer
