import OutlineServer.Text.Blank

/-!
# Lines of a text

A line ends at a line feed, at a carriage return, or at a carriage return and the line feed
directly after it, which is one break.  There is one more line than breaks, so the lines of the
empty text are one empty line.

The text is read left to right with what has been read so far as the state: `afterReturn` is set
when the last character was a carriage return, whose line is closed already, and makes a line feed
close nothing.
-/
namespace OutlineServer.Text

/-- The lines read so far, last first, and the unfinished line, last character first. -/
structure LineBuffer where
  done : List Text := []
  current : Text := []
  afterReturn : Bool := false
deriving DecidableEq

namespace LineBuffer

def close (b : LineBuffer) (afterReturn : Bool) : LineBuffer :=
  { done := b.current.reverse :: b.done, current := [], afterReturn }

def push (b : LineBuffer) (c : CodePoint) : LineBuffer :=
  if c = CodePoint.lineFeed then
    if b.afterReturn then { b with afterReturn := false } else b.close false
  else if c = CodePoint.carriageReturn then b.close true
  else { b with current := c :: b.current, afterReturn := false }

def toLines (b : LineBuffer) : List Text := (b.current.reverse :: b.done).reverse

end LineBuffer

/-- The lines of a text; never empty, and no line holds a line feed or carriage return. -/
def lines (t : Text) : List Text := (t.foldl LineBuffer.push {}).toLines

end OutlineServer.Text
