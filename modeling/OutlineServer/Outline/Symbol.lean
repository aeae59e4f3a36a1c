import OutlineServer.Json.Basic

/-!
# Symbols and completions

An outline is a list of symbols, each with the range of the text it covers and the range of its
name.  The numeric codes are those of the editor protocol's symbol and completion kinds.
-/
namespace OutlineServer

/-- A line and a column, both counted from zero. -/
structure Position where
  line : Int
  character : Int
deriving DecidableEq

namespace Position

def before (p q : Position) : Bool :=
  p.line < q.line || (p.line = q.line && p.character < q.character)

def notAfter (p q : Position) : Bool := p.before q || p = q

def toJson (p : Position) : Json :=
  .object [("line", .int p.line), ("character", .int p.character)]

end Position

/-- The text from `start` up to and without `stop`. -/
structure Range where
  start : Position
  stop : Position
deriving DecidableEq

namespace Range

def onLine (line start stop : Int) : Range := ⟨⟨line, start⟩, ⟨line, stop⟩⟩

def contains (outer inner : Range) : Bool :=
  outer.start.notAfter inner.start && inner.stop.notAfter outer.stop

def toJson (r : Range) : Json :=
  .object [("start", r.start.toJson), ("end", r.stop.toJson)]

end Range

inductive SymbolKind where
  | func
  | var
  | const
deriving DecidableEq

namespace SymbolKind

def name : SymbolKind → Text
  | func => "function"
  | var => "variable"
  | const => "constant"

def code : SymbolKind → Nat
  | func => 12
  | var => 13
  | const => 14

def named? (name : Text) : Option SymbolKind :=
  [func, var, const].find? (fun kind => kind.name = name)

end SymbolKind

/-- A declaration in an outline, with the declarations inside it. -/
structure Symbol where
  name : Text
  detail : Text := []
  kind : SymbolKind
  range : Range
  selection : Range
  children : List Symbol := []

namespace Symbol

mutual

def toJson : Symbol → Json
  | ⟨name, detail, kind, range, selection, children⟩ =>
    .object [
      ("name", .str name),
      ("detail", .str detail),
      ("kind", .str kind.name),
      ("kind_code", .nat kind.code),
      ("range", range.toJson),
      ("selection_range", selection.toJson),
      ("children", .arr (listToJson children))]

def listToJson : List Symbol → List Json
  | [] => []
  | symbol :: rest => symbol.toJson :: listToJson rest

end

end Symbol

/-- Only functions are offered for completion. -/
inductive CompletionKind where
  | func
deriving DecidableEq

namespace CompletionKind

def name : CompletionKind → Text
  | func => "function"

def code : CompletionKind → Nat
  | func => 3

def named? (name : Text) : Option CompletionKind :=
  [func].find? (fun kind => kind.name = name)

end CompletionKind

structure Completion where
  name : Text
  kind : CompletionKind := .func
deriving DecidableEq

namespace Completion

def toJson (c : Completion) : Json :=
  .object [("name", .str c.name), ("kind", .str c.kind.name), ("kind_code", .nat c.kind.code)]

end Completion

end OutlineServer
