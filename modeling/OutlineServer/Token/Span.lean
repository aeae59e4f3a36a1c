import OutlineServer.Json.Basic

/-!
# Token spans

A span classifies a piece of one line: its type and modifiers are names that a legend turns into
numbers.
-/
namespace OutlineServer

structure TokenSpan where
  line : Int
  start : Int
  length : Int
  type : Text
  modifiers : List Text := []
deriving DecidableEq

namespace TokenSpan

def notAfter (a b : TokenSpan) : Bool :=
  a.line < b.line || (a.line = b.line && a.start ≤ b.start)

def toJson (s : TokenSpan) : Json :=
  .object [
    ("line", .int s.line),
    ("start_character", .int s.start),
    ("length", .int s.length),
    ("token_type", .str s.type),
    ("token_modifiers", .strings s.modifiers)]

end TokenSpan

end OutlineServer
