import OutlineServer.Source.Declaration
import OutlineServer.Text.Lines
import OutlineServer.Token.Span

/-!
# Tokens of declared names

Every occurrence of a declared name is a token, wherever in the document the name is declared.  The
names are collected from all lines first; a name that is declared in several ways counts as a
variable before a constant, and as a constant before a function.
-/
namespace OutlineServer.Token

inductive NameKind where
  | func
  | property
  | var
deriving DecidableEq

def NameKind.name : NameKind → Text
  | .func => "function"
  | .property => "property"
  | .var => "variable"

structure DeclaredNames where
  functionNames : List Text
  constantNames : List Text
  variableNames : List Text

namespace DeclaredNames

def ofLines (lines : List Text) : DeclaredNames where
  functionNames := lines.flatMap (fun line => (Source.functionHeads line).map (·.name.text))
  constantNames := lines.flatMap (fun line => (Source.constantDeclarations line).map (·.name.text))
  variableNames := lines.flatMap (fun line => (Source.variableDeclarations line).map (·.name.text))

def kindOf? (names : DeclaredNames) (word : Text) : Option NameKind :=
  if names.variableNames.contains word then some .var
  else if names.constantNames.contains word then some .property
  else if names.functionNames.contains word then some .func
  else none

end DeclaredNames

def wordAt? : Recogniser Excerpt := fun column before t => do
  guard (Source.wordMayStart before)
  match t.takeWhile CodePoint.isWord with
  | [] => none
  | word => return ⟨column, word⟩

def words (line : Text) : List Excerpt := occurrences wordAt? (fun e => e.text.length) line

def declaredSpan? (names : DeclaredNames) (line : Nat) (e : Excerpt) : Option TokenSpan :=
  (names.kindOf? e.text).map (fun kind =>
    { line, start := e.start, length := e.text.length, type := kind.name })

/-- The occurrences of declared names, line by line. -/
def classifyDeclared (text : Text) : List TokenSpan :=
  let lines := text.lines
  let names := DeclaredNames.ofLines lines
  lines.zipIdx.flatMap (fun (line, number) => (words line).filterMap (declaredSpan? names number))

end OutlineServer.Token
