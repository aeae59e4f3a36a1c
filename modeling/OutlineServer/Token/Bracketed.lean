import OutlineServer.Source.Excerpt
import OutlineServer.Text.Lines
import OutlineServer.Token.Span

/-!
# Tokens written in brackets

Text such as `foo [variable.readonly] bar` carries its own tokens: the inside of a pair of brackets
is a token whose type is the part before the first dot, and whose modifiers are the other parts.  An
opening bracket goes with the first closing bracket after it on its line, and what is between them
is not looked into again.
-/
namespace OutlineServer.Token

/-- A pair of brackets; the result is what they enclose. -/
def bracketedAt? : Recogniser Excerpt := fun column _ t => do
  let rest ← Text.after? t "["
  let isInside : CodePoint → Bool := (· ≠ CodePoint.ofChar ']')
  let _ ← Text.after? (rest.dropWhile isInside) "]"
  return ⟨column + 1, rest.takeWhile isInside⟩

def bracketedExcerpts (line : Text) : List Excerpt :=
  occurrences bracketedAt? (fun e => e.text.length + 2) line

structure Label where
  type : Text
  modifiers : List Text
deriving DecidableEq

/-- The label that a text spells: its parts between dots. -/
def Label.parse (t : Text) : Label :=
  match t.splitOn '.' with
  | [] => ⟨[], []⟩
  | type :: modifiers => ⟨type, modifiers⟩

def bracketedSpan (line : Nat) (e : Excerpt) : TokenSpan :=
  let label := Label.parse e.text
  { line, start := e.start, length := e.text.length,
    type := label.type, modifiers := label.modifiers }

def classifyBracketed (text : Text) : List TokenSpan :=
  text.lines.zipIdx.flatMap (fun (line, number) =>
    (bracketedExcerpts line).map (bracketedSpan number))

end OutlineServer.Token
