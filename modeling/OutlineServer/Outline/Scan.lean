import OutlineServer.Outline.Symbol
import OutlineServer.Source.Declaration
import OutlineServer.Text.Lines

/-!
# The outline of a document

The lines of a document are read in order, with the one function that may be open as the state.
A function head opens a function in place of any that is open; an end closes it, also on the line
of its head; variables belong to the function that is open once heads and ends of their line have
been seen, and to the document otherwise.  A line contributes at most one constant, always to the
document.  A function that is never closed, or replaced before it is, leaves no symbol, and neither
do its variables; its name is completed all the same.
-/
namespace OutlineServer

/-- A function whose end has not been seen, with the symbols found inside it so far. -/
structure OpenFunction where
  name : Text
  range : Range
  selection : Range
  children : Array Symbol := #[]

namespace OpenFunction

def close (f : OpenFunction) (stop : Position) : Symbol where
  name := f.name
  kind := .func
  range := ⟨f.range.start, stop⟩
  selection := f.selection
  children := f.children.toList

end OpenFunction

structure Outline where
  symbols : List Symbol
  completions : List Completion

namespace Outline

def toJson (o : Outline) : Json :=
  .object [
    ("symbols", .arr (o.symbols.map Symbol.toJson)),
    ("completions", .arr (o.completions.map Completion.toJson))]

structure Progress where
  symbols : Array Symbol := #[]
  completions : Array Completion := #[]
  pending : Option OpenFunction := none

def excerptRange (line : Nat) (e : Excerpt) : Range := .onLine line e.start e.stop

def opened (number : Nat) (line : Text) (head : Declaration) : OpenFunction where
  name := head.name.text
  range := .onLine number 0 line.length
  selection := excerptRange number head.name

def variableSymbol (number : Nat) (d : Declaration) : Symbol where
  name := d.name.text
  kind := .var
  range := excerptRange number d.name
  selection := excerptRange number d.name

def constantSymbol (number : Nat) (d : ConstantDeclaration) : Symbol where
  name := d.name.text
  detail := d.value.text
  kind := .const
  range := excerptRange number d.name
  selection := excerptRange number d.name

namespace Progress

def readHead (p : Progress) (number : Nat) (line : Text) : Progress :=
  match (Source.functionHeads line).head? with
  | some head =>
    { p with
      completions := p.completions.push { name := head.name.text }
      pending := some (opened number line head) }
  | none => p

def readEnd (p : Progress) (number : Nat) (line : Text) : Progress :=
  match p.pending with
  | some f =>
    if (Source.functionEnds line).isEmpty then p
    else { p with symbols := p.symbols.push (f.close ⟨number, line.length⟩), pending := none }
  | none => p

/-- The variables of the line go to the open function, or else to the document. -/
def readVariables (p : Progress) (number : Nat) (line : Text) : Progress :=
  let found := (Source.variableDeclarations line).map (variableSymbol number)
  match p.pending with
  | some f => { p with pending := some { f with children := f.children ++ found } }
  | none => { p with symbols := p.symbols ++ found }

/-- The first constant of the line goes to the document. -/
def readConstant (p : Progress) (number : Nat) (line : Text) : Progress :=
  match (Source.constantDeclarations line).head? with
  | some d => { p with symbols := p.symbols.push (constantSymbol number d) }
  | none => p

def readLine (p : Progress) (line : Text × Nat) : Progress :=
  let (line, number) := line
  (((p.readHead number line).readEnd number line).readVariables number line).readConstant
    number line

end Progress

def ofLines (lines : List Text) : Outline :=
  let p := lines.zipIdx.foldl Progress.readLine {}
  { symbols := p.symbols.toList, completions := p.completions.toList }

def scan (text : Text) : Outline := ofLines text.lines

end Outline

end OutlineServer
